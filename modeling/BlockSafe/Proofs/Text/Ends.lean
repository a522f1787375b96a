import BlockSafe.Text.Basic
import Mathlib.Data.List.DropRight

/-!
# The ends of a text

What dropping characters at the ends of a text leaves: a piece of the text that starts and ends
with a character outside the class (`head_trimBoth`, `last_trimBoth`), with nothing but characters
of the class around it (`trimBoth_split`).  A text that already starts and ends so is left alone
(`trimBoth_eq_self`), also in the middle of what is dropped (`trimBoth_around`), and more of the
class around any text changes nothing (`trimBoth_enclosed`).  So what is left is known by its ends and
by what stands around it (`trimBoth_eq_iff`).
-/

namespace BlockSafe.Text

/-! ## Prefixes -/

/-- `after?` finds a prefix iff the text is that prefix with something behind it. -/
theorem after?_eq_some {p s r : Text} : after? p s = some r ↔ s = p ++ r := by
  induction p generalizing s with
  | nil => simp [after?]
  | cons c p ih =>
    cases s with
    | nil => simp [after?]
    | cons d s =>
      rw [after?, List.cons_append, List.cons.injEq]
      split
      · next h =>
        rw [ih]
        exact ⟨fun e => ⟨h.symm, e⟩, fun e => e.2⟩
      · next h =>
        refine ⟨fun e => ?_, fun e => absurd e.1.symm h⟩
        cases e

/-- The characters of a text are checked one by one.  Checking all characters there are would do as
well, but takes too long. -/
instance (priority := high) decidableForallMem {P : Char → Prop} [DecidablePred P] (s : Text) :
    Decidable (∀ c ∈ s, P c) := List.decidableBAll P s

instance (priority := high) decidableForallMemOption {P : Char → Prop} [DecidablePred P]
    (o : Option Char) : Decidable (∀ c ∈ o, P c) := Option.decidableForallMem o

/-- A property of all characters can be checked one by one. -/
theorem forall_of_all {P : Char → Prop} [DecidablePred P] {s : Text}
    (h : s.all (fun c => decide (P c)) = true) : ∀ c ∈ s, P c :=
  fun c hc => of_decide_eq_true (List.all_eq_true.1 h c hc)

/-! ## Both ends -/

section
variable {p : Char → Bool} {s : Text}

theorem dropWhile_eq_self (h : ∀ c ∈ s.head?, p c = false) : s.dropWhile p = s := by
  cases s with
  | nil => rfl
  | cons c s => simp [h c rfl]

theorem dropEndWhile_eq_self (h : ∀ c ∈ s.getLast?, p c = false) : dropEndWhile p s = s := by
  unfold dropEndWhile
  rw [dropWhile_eq_self (by rwa [List.head?_reverse]), List.reverse_reverse]

/-- What is dropped and what is left. -/
theorem dropWhile_eq_iff {r : Text} : s.dropWhile p = r ↔
    ∃ w, (∀ c ∈ w, p c = true) ∧ (∀ c ∈ r.head?, p c = false) ∧ s = w ++ r := by
  constructor
  · rintro rfl
    refine ⟨s.takeWhile p, fun c hc => List.mem_takeWhile_imp hc, fun c hc => ?_,
      List.takeWhile_append_dropWhile.symm⟩
    have hstop := List.head?_dropWhile_not p s
    rw [Option.mem_def.1 hc] at hstop
    simpa using hstop
  · rintro ⟨w, hw, hr, rfl⟩
    rw [List.dropWhile_append_of_pos hw, dropWhile_eq_self hr]

/-- What is taken stands in front of what is left. -/
theorem takeWhile_eq {w r : Text} (hs : s = w ++ r) (hr : s.dropWhile p = r) :
    s.takeWhile p = w := by
  have hsplit := List.takeWhile_append_dropWhile (p := p) (l := s)
  rw [hr] at hsplit
  exact List.append_cancel_right (hsplit.trans hs)

/-- A text whose ends are outside the class keeps them. -/
theorem trimBoth_eq_self (hs : ∀ c ∈ s.head?, p c = false) (hf : ∀ c ∈ s.getLast?, p c = false) :
    trimBoth p s = s := by
  unfold trimBoth
  rw [dropWhile_eq_self hs, dropEndWhile_eq_self hf]

theorem dropEndWhile_isPrefix (p : Char → Bool) (s : Text) : dropEndWhile p s <+: s :=
  List.rdropWhile_prefix p s

/-- What is dropped at the end belongs to the class. -/
theorem dropEndWhile_split (p : Char → Bool) (s : Text) :
    ∃ w, s = dropEndWhile p s ++ w ∧ ∀ c ∈ w, p c = true :=
  ⟨s.rtakeWhile p, List.rdropWhile_append_rtakeWhile.symm, fun _ hc => List.mem_rtakeWhile_imp hc⟩

theorem last_dropEndWhile (p : Char → Bool) (s : Text) :
    ∀ c ∈ (dropEndWhile p s).getLast?, p c = false := by
  intro c hc
  have hstop := List.head?_dropWhile_not p s.reverse
  rw [dropEndWhile, List.getLast?_reverse, Option.mem_def] at hc
  rw [hc] at hstop
  simpa using hstop

/-- What is dropped at both ends belongs to the class. -/
theorem trimBoth_split (p : Char → Bool) (s : Text) :
    ∃ w w', s = w ++ (trimBoth p s ++ w') ∧ (∀ c ∈ w, p c = true) ∧ ∀ c ∈ w', p c = true := by
  obtain ⟨w', hs, hw'⟩ := dropEndWhile_split p (s.dropWhile p)
  refine ⟨s.takeWhile p, w', ?_, fun c hc => List.mem_takeWhile_imp hc, hw'⟩
  rw [trimBoth, ← hs, List.takeWhile_append_dropWhile]

theorem trimBoth_isInfix (p : Char → Bool) (s : Text) : trimBoth p s <:+: s :=
  (dropEndWhile_isPrefix p _).isInfix.trans (List.dropWhile_suffix p).isInfix

theorem last_trimBoth (p : Char → Bool) (s : Text) :
    ∀ c ∈ (trimBoth p s).getLast?, p c = false := last_dropEndWhile p _

theorem head_trimBoth (p : Char → Bool) (s : Text) :
    ∀ c ∈ (trimBoth p s).head?, p c = false := by
  intro c hc
  have hd := List.head?_dropWhile_not p s
  obtain ⟨t, ht⟩ := dropEndWhile_isPrefix p (s.dropWhile p)
  rw [Option.mem_def] at hc
  have : (s.dropWhile p).head? = some c := by
    rw [← ht, List.head?_append]
    rw [show (dropEndWhile p (s.dropWhile p)).head? = some c from hc]
    rfl
  rw [this] at hd
  simpa using hd

/-- Nothing is dropped behind the start of a text with a proper start. -/
theorem dropWhile_append (hne : s ≠ []) (hs : ∀ c ∈ s.head?, p c = false) (a b : Text) :
    (a ++ (s ++ b)).dropWhile p = a.dropWhile p ++ (s ++ b) := by
  have hsb : (s ++ b).dropWhile p = s ++ b := by
    apply dropWhile_eq_self
    intro c hc
    cases s with
    | nil => exact absurd rfl hne
    | cons d s => exact hs c hc
  rw [List.dropWhile_append, hsb]
  split
  · next h => rw [List.isEmpty_iff.1 h, List.nil_append]
  · rfl

theorem dropEndWhile_append (hne : s ≠ []) (hf : ∀ c ∈ s.getLast?, p c = false) (a b : Text) :
    dropEndWhile p (a ++ (s ++ b)) = a ++ (s ++ dropEndWhile p b) := by
  unfold dropEndWhile
  have h := dropWhile_append (p := p) (s := s.reverse) (by simpa using hne)
    (by rwa [List.head?_reverse]) b.reverse a.reverse
  rw [List.reverse_append, List.reverse_append, List.append_assoc, h]
  simp only [List.reverse_append, List.reverse_reverse, List.append_assoc]

/-- Dropping at both ends stops at a text with proper ends. -/
theorem trimBoth_append (hne : s ≠ []) (hs : ∀ c ∈ s.head?, p c = false)
    (hf : ∀ c ∈ s.getLast?, p c = false) (a b : Text) :
    trimBoth p (a ++ (s ++ b)) = a.dropWhile p ++ (s ++ dropEndWhile p b) := by
  unfold trimBoth
  rw [dropWhile_append hne hs, dropEndWhile_append hne hf]

/-- Dropping at both ends finds a text with proper ends again, whatever of the class stands
around it. -/
theorem trimBoth_around {w w' : Text} (hw : ∀ c ∈ w, p c = true) (hw' : ∀ c ∈ w', p c = true)
    (hne : s ≠ []) (hs : ∀ c ∈ s.head?, p c = false) (hf : ∀ c ∈ s.getLast?, p c = false) :
    trimBoth p (w ++ (s ++ w')) = s := by
  have hdrop : w.dropWhile p = [] := List.dropWhile_eq_nil_iff.2 hw
  have hdropEnd : dropEndWhile p w' = [] := List.rdropWhile_eq_nil_iff.2 hw'
  rw [trimBoth_append hne hs hf, hdrop, hdropEnd, List.nil_append, List.append_nil]

/-- Nothing is left iff all characters are in the class. -/
theorem trimBoth_eq_nil : trimBoth p s = [] ↔ ∀ c ∈ s, p c = true := by
  constructor
  · intro h
    obtain ⟨w, w', hs, hw, hw'⟩ := trimBoth_split p s
    rw [h, List.nil_append] at hs
    rw [hs]
    exact List.forall_mem_append.2 ⟨hw, hw'⟩
  · intro h
    unfold trimBoth
    rw [List.dropWhile_eq_nil_iff.2 h]
    rfl

/-- Characters of the class around a text do not matter for what is left of it. -/
theorem trimBoth_enclosed {w w' : Text} (hw : ∀ c ∈ w, p c = true) (hw' : ∀ c ∈ w', p c = true) :
    trimBoth p (w ++ (s ++ w')) = trimBoth p s := by
  obtain ⟨v, v', hs, hv, hv'⟩ := trimBoth_split p s
  have hfront : ∀ c ∈ w ++ v, p c = true := List.forall_mem_append.2 ⟨hw, hv⟩
  have hback : ∀ c ∈ v' ++ w', p c = true := List.forall_mem_append.2 ⟨hv', hw'⟩
  have hsplit : w ++ (s ++ w') = (w ++ v) ++ (trimBoth p s ++ (v' ++ w')) := by
    conv_lhs => rw [hs]
    simp only [List.append_assoc]
  rw [hsplit]
  by_cases hne : trimBoth p s = []
  · rw [hne, List.nil_append, trimBoth_eq_nil]
    exact List.forall_mem_append.2 ⟨hfront, hback⟩
  · exact trimBoth_around hfront hback hne (head_trimBoth p s) (last_trimBoth p s)

/-- What is left has ends outside the class, and nothing but the class stands around it. -/
theorem trimBoth_eq_iff {r : Text} : trimBoth p s = r ↔
    ∃ w w', s = w ++ (r ++ w') ∧ (∀ c ∈ w, p c = true) ∧ (∀ c ∈ w', p c = true) ∧
      (∀ c ∈ r.head?, p c = false) ∧ ∀ c ∈ r.getLast?, p c = false := by
  constructor
  · rintro rfl
    obtain ⟨w, w', hs, hw, hw'⟩ := trimBoth_split p s
    exact ⟨w, w', hs, hw, hw', head_trimBoth p s, last_trimBoth p s⟩
  · rintro ⟨w, w', rfl, hw, hw', hhead, hlast⟩
    rw [trimBoth_enclosed hw hw', trimBoth_eq_self hhead hlast]

end

/-! ## White space -/

/-- Nothing but white space. -/
def Blank (w : Text) : Prop := ∀ c ∈ w, isSpace c = true

instance (w : Text) : Decidable (Blank w) := inferInstanceAs (Decidable (∀ c ∈ w, _))

theorem ne_of_isSpace {c d : Char} (hc : isSpace c = true) (hd : isSpace d = false) : c ≠ d := by
  rintro rfl
  rw [hc] at hd
  cases hd

theorem trim_split (s : Text) :
    ∃ w w', s = w ++ (trim s ++ w') ∧ (∀ c ∈ w, isSpace c = true) ∧ ∀ c ∈ w', isSpace c = true :=
  trimBoth_split isSpace s

theorem trim_trim (s : Text) : trim (trim s) = trim s :=
  trimBoth_eq_self (head_trimBoth isSpace s) (last_trimBoth isSpace s)

theorem trimStart_eq_iff {s r : Text} :
    trimStart s = r ↔ ∃ w, Blank w ∧ (∀ c ∈ r.head?, isSpace c = false) ∧ s = w ++ r :=
  dropWhile_eq_iff

theorem isBlank_iff {s : Text} : isBlank s = true ↔ Blank s := List.all_eq_true

/-- A text is blank iff nothing is left of it. -/
theorem isBlank_iff_trim (s : Text) : isBlank s = true ↔ trim s = [] :=
  isBlank_iff.trans trimBoth_eq_nil.symm

/-- White space around a text does not matter for what is left of it. -/
theorem trim_around {w s w' : Text} (hw : Blank w) (hw' : Blank w') :
    trim (w ++ (s ++ w')) = trim s :=
  trimBoth_enclosed hw hw'

end BlockSafe.Text
