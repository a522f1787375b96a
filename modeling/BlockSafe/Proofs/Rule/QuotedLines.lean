import BlockSafe.Proofs.Rule.LoopGrammar
import BlockSafe.Proofs.Rule.Nesting

/-!
# Lines with a string in them

A quote is a character that no rule on lines looks for (`Foreign`), so each rule sees what stands on
either side of it apart.  The head of a function declaration stands before the first quote
(`functionHead?_foreign`), a registration on one side of each (`occurs_registration_foreign`), and a
declaration without a value can hold quotes only in its type (`bareLet_foreign`).
-/

namespace BlockSafe

open Pattern Text

/-- A character that no rule on lines looks for. -/
structure Foreign (q : Char) : Prop where
  word : isWord q = false
  space : isSpace q = false
  mark : q ∉ ".():;=?\x7b\x7d".toList
  unbroken : ¬ IsBreak q

theorem foreign_quote : ∀ q ∈ programQuotes, Foreign q := by
  have hquotes : ∀ q ∈ programQuotes, isWord q = false ∧ isSpace q = false ∧
      q ∉ ".():;=?\x7b\x7d".toList ∧ ¬ IsBreak q := by
    decide
  intro q hq
  obtain ⟨hword, hspace, hmark, hbreak⟩ := hquotes q hq
  exact ⟨hword, hspace, hmark, hbreak⟩

namespace Foreign

variable {q : Char} (hq : Foreign q)
include hq

theorem not_identPart : isIdentPart q = false := not_isIdentPart hq.word

theorem notMem_word {w : Text} (hw : ∀ c ∈ w, isWord c = true) : q ∉ w := by
  intro h
  have hword := hw q h
  rw [hq.word] at hword
  cases hword

theorem notMem_blank {w : Text} (hw : Blank w) : q ∉ w := by
  intro h
  have hspace := hw q h
  rw [hq.space] at hspace
  cases hspace

/-- A character that the rules look for is another one. -/
theorem ne {c : Char} (hc : c ∈ ".():;=?\x7b\x7d".toList) : q ≠ c := by
  rintro rfl
  exact hq.mark hc

end Foreign

/-! ## Readers -/

section
variable {q : Char}

theorem after?_foreign {p : Text} (hp : q ∉ p) (u t : Text) :
    after? p (u ++ q :: t) = (after? p u).map (· ++ q :: t) := by
  induction p generalizing u with
  | nil => rfl
  | cons d p ih =>
    obtain ⟨hd, hp⟩ := not_or.1 (mt List.mem_cons.2 hp)
    cases u with
    | nil =>
      rw [List.nil_append, after?, if_neg (Ne.symm hd)]
      rfl
    | cons c u =>
      rw [List.cons_append, after?, after?]
      split
      · exact ih hp u
      · rfl

/-- A name is read up to a character that is no part of names. -/
theorem takeWhile_ident (hq : isIdentPart q = false) (u t : Text) :
    (u ++ q :: t).dropWhile isIdentPart = u.dropWhile isIdentPart ++ q :: t ∧
      (u ++ q :: t).takeWhile isIdentPart = u.takeWhile isIdentPart := by
  have hdrop : (u ++ q :: t).dropWhile isIdentPart = u.dropWhile isIdentPart ++ q :: t :=
    dropWhile_append (s := [q]) (List.cons_ne_nil q []) (by simpa using hq) u t
  refine ⟨hdrop, takeWhile_eq ?_ hdrop⟩
  rw [← List.append_assoc, List.takeWhile_append_dropWhile]

theorem identAt?_foreign (hq : isIdentPart q = false) (u t : Text) :
    identAt? (u ++ q :: t) = (identAt? u).map fun x => (x.1, x.2 ++ q :: t) := by
  cases u with
  | nil =>
    rw [List.nil_append, identAt?, if_neg (by rw [not_isIdentStart hq]; decide)]
    rfl
  | cons c u =>
    obtain ⟨hdrop, htake⟩ := takeWhile_ident hq u t
    rw [List.cons_append, identAt?, identAt?, hdrop, htake]
    split <;> rfl

variable (hq : Foreign q)
include hq

theorem trimStart_foreign (u t : Text) : trimStart (u ++ q :: t) = trimStart u ++ q :: t :=
  dropWhile_append (s := [q]) (List.cons_ne_nil q []) (by simpa using hq.space) u t

theorem afterGap?_foreign (u t : Text) :
    afterGap? (u ++ q :: t) = (afterGap? u).map (· ++ q :: t) := by
  cases u with
  | nil =>
    rw [List.nil_append, afterGap?, if_neg (by rw [hq.space]; decide)]
    rfl
  | cons c u =>
    rw [List.cons_append, afterGap?, afterGap?, trimStart_foreign hq]
    split <;> rfl

end

/-! ## Function declarations -/

/-- What follows the opening bracket of a function declaration that fills the start of a line. -/
def functionHead? (line : Text) : Option Text :=
  (after? "function" line).bind fun rest => (afterGap? rest).bind fun rest =>
    (identAt? rest).bind fun x => after? "(" (trimStart x.2)

/-- The text holds a closing bracket. -/
def closes (s : Text) : Bool := s.any (· == ')')

/-- What stands before the closing bracket makes a parameter optional, or gives it a default. -/
def marks (s : Text) : Bool := (s.takeWhile (· != ')')).any fun c => c == '?' || c == '='

theorem functionParameters?_eq (line : Text) :
    functionParameters? line = (functionHead? line).bind fun inner =>
      if closes inner then some (inner.takeWhile (· != ')')) else none := by
  unfold functionParameters? functionHead? closes
  simp only [Option.bind_eq_bind, Option.bind_assoc]

theorem functionParameters?_isSome (line : Text) :
    (functionParameters? line).isSome = (functionHead? line).any closes := by
  rw [functionParameters?_eq]
  cases functionHead? line with
  | none => rfl
  | some inner =>
    rw [Option.bind_some, Option.any_some]
    cases closes inner <;> rfl

theorem functionParameters?_any (line : Text) :
    ((functionParameters? line).any (·.any fun c => c == '?' || c == '=')) =
      (functionHead? line).any fun inner => closes inner && marks inner := by
  rw [functionParameters?_eq]
  cases functionHead? line with
  | none => rfl
  | some inner =>
    rw [Option.bind_some, Option.any_some]
    cases closes inner <;> rfl

theorem closes_append (s t : Text) : closes (s ++ t) = (closes s || closes t) := List.any_append

theorem marks_cons {c : Char} (hc : c ≠ ')') (s : Text) :
    marks (c :: s) = ((c == '?' || c == '=') || marks s) := by
  rw [marks, List.takeWhile_cons, if_pos (by simpa using hc), List.any_cons]
  rfl

theorem closes_cons {c : Char} (hc : c ≠ ')') (s : Text) : closes (c :: s) = closes s := by
  rw [closes, List.any_cons, beq_false_of_ne hc, Bool.false_or]
  rfl

theorem marks_append (s t : Text) : marks (s ++ t) = (marks s || (!closes s && marks t)) := by
  induction s with
  | nil => rw [List.nil_append, marks, closes]; rfl
  | cons c s ih =>
    by_cases hc : c = ')'
    · subst hc
      rfl
    · rw [List.cons_append, marks_cons hc, marks_cons hc, closes_cons hc, ih]
      simp only [Bool.or_assoc]

section
variable {q : Char} (hq : Foreign q)
include hq

/-- The head of a function declaration stands before the first quote. -/
theorem functionHead?_foreign (u t : Text) :
    functionHead? (u ++ q :: t) = (functionHead? u).map (· ++ q :: t) := by
  unfold functionHead?
  rw [after?_foreign (hq.notMem_word (by decide))]
  refine map_bind_link fun rest => ?_
  rw [afterGap?_foreign hq]
  refine map_bind_link fun rest => ?_
  rw [identAt?_foreign hq.not_identPart]
  refine map_bind_link fun x => ?_
  rw [trimStart_foreign hq, after?_foreign]
  exact fun h => hq.ne (by decide) (List.mem_singleton.1 h)

theorem closes_foreign (t : Text) : closes (q :: t) = closes t :=
  closes_cons (hq.ne (by decide)) t

theorem marks_foreign (t : Text) : marks (q :: t) = marks t := by
  rw [marks_cons (hq.ne (by decide)), beq_false_of_ne (hq.ne (by decide)),
    beq_false_of_ne (hq.ne (by decide))]
  rfl

/-- A list of parameters is closed in a string or behind it. -/
theorem closes_between (s v : Text) : closes (q :: (s ++ q :: v)) = (closes s || closes v) := by
  rw [closes_foreign hq, closes_append, closes_foreign hq]

/-- A parameter is marked in a string, or behind it if the string does not close the list. -/
theorem marks_between (s v : Text) :
    marks (q :: (s ++ q :: v)) = (marks s || (!closes s && marks v)) := by
  rw [marks_foreign hq, marks_append, marks_foreign hq]

/-! ## Registrations -/

/-- A registration stands on one side of a quote. -/
theorem occurs_registration_foreign (s t : Text) :
    registrationPattern.occurs (s ++ q :: t) =
      (registrationPattern.occurs s || registrationPattern.occurs t) := by
  rw [Bool.eq_iff_iff, Bool.or_eq_true, occurs_registration, occurs_registration,
    occurs_registration, ← exists_or]
  refine exists_congr fun m => ?_
  rw [← and_or_left]
  refine and_congr_right fun hm => stands_split hm.trimmed.1 (fun h => ?_) hq.word s t
  rcases hm.chars q h with hword | hspace | hpoint | hopen
  · rw [hq.word] at hword
    cases hword
  · rw [hq.space] at hspace
    cases hspace
  · exact hq.ne (by decide) hpoint
  · exact hq.ne (by decide) hopen

end

/-! ## Declarations without a value -/

/-- What the type of a declaration without a value holds. -/
def IsType (type : Text) : Prop := type ≠ [] ∧ ∀ c ∈ type, (c != '=' && c != ';') = true

/-- What stands before the type of a declaration without a value. -/
def BareHead (head : Text) : Prop :=
  ∃ gap name left right, gap ≠ [] ∧ Blank gap ∧ IsIdent name ∧ Blank left ∧ Blank right ∧
    head = "let".toList ++ (gap ++ (name ++ (left ++ (":".toList ++ right))))

/-- What stands behind the type, or the name, of a declaration without a value. -/
def BareTail (tail : Text) : Prop :=
  ∃ gap mark, Blank gap ∧ (mark = ";".toList ∨ mark = []) ∧ tail = gap ++ mark

section
variable {before : Option Char} {m v : Text}

theorem takes_type :
    (chain [spaces, lit ":", spaces, many1 fun c => c != '=' && c != ';']).Takes before m v ↔
      ∃ left right type, Blank left ∧ Blank right ∧ IsType type ∧
        m = left ++ (":".toList ++ (right ++ type)) := by
  simp only [takes_chain_cons, takes_chain_nil, takes_spaces, takes_lit, takes_many1]
  constructor
  · rintro ⟨left, _, rfl, hleft, _, _, rfl, rfl, right, _, rfl, hright, type, _, rfl, htype, rfl⟩
    exact ⟨left, right, type, hleft, hright, htype, by rw [List.append_nil]⟩
  · rintro ⟨left, right, type, hleft, hright, htype, rfl⟩
    exact ⟨left, _, rfl, hleft, _, _, rfl, rfl, right, _, rfl, hright, type, [],
      (List.append_nil _).symm, htype, rfl⟩

theorem takes_bareTail :
    (chain [spaces, either (lit ";") nothing, test Cursor.atEnd]).Takes before m v ↔
      BareTail m ∧ v = [] := by
  simp only [takes_chain_cons, takes_chain_nil, takes_spaces, takes_either, takes_lit,
    takes_nothing, takes_test, Cursor.atEnd, List.isEmpty_iff]
  constructor
  · rintro ⟨gap, _, rfl, hgap, mark, _, rfl, hmark, _, _, rfl, ⟨rfl, hend⟩, rfl⟩
    exact ⟨⟨gap, mark, hgap, hmark, by rw [List.append_nil, List.append_nil]⟩, hend⟩
  · rintro ⟨⟨gap, mark, hgap, hmark, rfl⟩, rfl⟩
    exact ⟨gap, mark, rfl, hgap, mark, [], (List.append_nil _).symm, hmark, [], [], rfl, ⟨rfl, rfl⟩,
      rfl⟩

theorem takes_bareLet : bareLetPattern.Takes before m v ↔ ∃ gap name typed tail,
    gap ≠ [] ∧ Blank gap ∧ IsIdent name ∧
    ((∃ left right type, Blank left ∧ Blank right ∧ IsType type ∧
      typed = left ++ (":".toList ++ (right ++ type))) ∨ typed = []) ∧
    BareTail tail ∧ v = [] ∧ m = "let".toList ++ (gap ++ (name ++ (typed ++ tail))) := by
  constructor
  · intro h
    obtain ⟨_, _, rfl, hlet, h⟩ := takes_chain_cons.1 h
    obtain ⟨gap, _, rfl, hgap, h⟩ := takes_chain_cons.1 h
    obtain ⟨name, _, rfl, hname, h⟩ := takes_chain_cons.1 h
    obtain ⟨typed, tail, rfl, htyped, h⟩ := takes_chain_cons.1 h
    rw [takes_lit] at hlet
    rw [takes_gap] at hgap
    rw [takes_ident] at hname
    rw [takes_either, takes_type, takes_nothing] at htyped
    rw [takes_bareTail] at h
    exact ⟨gap, name, typed, tail, hgap.1, hgap.2, hname, htyped, h.1, h.2, by rw [hlet]⟩
  · rintro ⟨gap, name, typed, tail, hne, hgap, hname, htyped, htail, rfl, rfl⟩
    refine takes_chain_cons.2 ⟨_, _, rfl, takes_lit.2 rfl, ?_⟩
    refine takes_chain_cons.2 ⟨gap, _, rfl, takes_gap.2 ⟨hne, hgap⟩, ?_⟩
    refine takes_chain_cons.2 ⟨name, _, rfl, takes_ident.2 hname, ?_⟩
    refine takes_chain_cons.2 ⟨typed, tail, rfl, ?_, takes_bareTail.2 ⟨htail, rfl⟩⟩
    rwa [takes_either, takes_type, takes_nothing]

end

section
variable {q : Char} (hq : Foreign q)
include hq

theorem notMem_bareName {gap name : Text} (hgap : Blank gap) (hname : IsIdent name) :
    q ∉ "let".toList ++ (gap ++ name) := by
  have hident : ∀ c ∈ name, isWord c = true := fun c hc => isWord_of_isIdentPart (hname.parts c hc)
  simp only [List.mem_append, not_or]
  exact ⟨hq.notMem_word (by decide), hq.notMem_blank hgap, hq.notMem_word hident⟩

theorem notMem_bareHead {head : Text} (h : BareHead head) : q ∉ head := by
  obtain ⟨gap, name, left, right, -, hgap, hname, hleft, hright, rfl⟩ := h
  have hbefore := notMem_bareName hq hgap hname
  simp only [List.mem_append, not_or] at hbefore ⊢
  exact ⟨hbefore.1, hbefore.2.1, hbefore.2.2, hq.notMem_blank hleft,
    fun h => hq.ne (by decide) (List.mem_singleton.1 h), hq.notMem_blank hright⟩

theorem notMem_bareTail {tail : Text} (h : BareTail tail) : q ∉ tail := by
  obtain ⟨gap, mark, hgap, rfl | rfl, rfl⟩ := h
  · rw [List.mem_append, not_or]
    exact ⟨hq.notMem_blank hgap, fun h => hq.ne (by decide) (List.mem_singleton.1 h)⟩
  · rw [List.append_nil]
    exact hq.notMem_blank hgap

/-- A declaration without a value on a line with a quote has that quote in its type. -/
theorem bareLet_iff {line : Text} (hline : q ∈ line) :
    bareLetPattern.matchesAt (Cursor.start line) = true ↔
      ∃ head type tail, BareHead head ∧ IsType type ∧ BareTail tail ∧
        line = head ++ (type ++ tail) := by
  simp only [matchesAt_iff_takes, takes_bareLet]
  constructor
  · rintro ⟨m, v, hrest, gap, name, typed, tail, hne, hgap, hname, htyped, htail, rfl, rfl⟩
    have hwhole : line = "let".toList ++ (gap ++ (name ++ (typed ++ tail))) := by
      rw [← List.append_nil ("let".toList ++ _)]
      exact hrest
    rcases htyped with ⟨left, right, type, hleft, hright, htype, rfl⟩ | rfl
    · refine ⟨_, type, tail, ⟨gap, name, left, right, hne, hgap, hname, hleft, hright, rfl⟩, htype,
        htail, ?_⟩
      rw [hwhole]
      simp only [List.append_assoc]
    · rw [hwhole, List.nil_append] at hline
      have hname' := notMem_bareName hq hgap hname
      simp only [List.mem_append, not_or] at hline hname'
      simp only [hname', notMem_bareTail hq htail, or_self] at hline
  · rintro ⟨_, type, tail, ⟨gap, name, left, right, hne, hgap, hname, hleft, hright, rfl⟩, htype,
      htail, rfl⟩
    refine ⟨_, [], (List.append_nil _).symm, gap, name, _, tail, hne, hgap, hname,
      .inl ⟨left, right, type, hleft, hright, htype, rfl⟩, htail, rfl, ?_⟩
    simp only [Cursor.start, List.append_assoc]

/-- Two quotes stand in the type, and so does what is between them. -/
theorem bareLet_between {u v s : Text} :
    bareLetPattern.matchesAt (Cursor.start (u ++ q :: (s ++ q :: v))) = true ↔
      ∃ head left right tail, BareHead head ∧ BareTail tail ∧
        IsType (left ++ q :: (s ++ q :: right)) ∧ u = head ++ left ∧ v = right ++ tail := by
  rw [bareLet_iff hq (List.mem_append_right u List.mem_cons_self)]
  constructor
  · rintro ⟨head, type, tail, hhead, htype, htail, hline⟩
    obtain ⟨left, rfl, hrest⟩ := append_eq_of_notMem_left (notMem_bareHead hq hhead) hline.symm
    have hlast : type ++ tail = (left ++ q :: s) ++ q :: v := by
      rw [hrest]
      simp
    obtain ⟨right, rfl, rfl⟩ := append_eq_of_notMem_right (notMem_bareTail hq htail) hlast
    refine ⟨head, left, right, tail, hhead, htail, ?_, rfl, rfl⟩
    rwa [List.append_assoc] at htype
  · rintro ⟨head, left, right, tail, hhead, htail, htype, rfl, rfl⟩
    exact ⟨head, _, tail, hhead, htype, htail, by simp⟩

/-- Of a text between two quotes, only the characters that end a type matter. -/
theorem bareLet_foreign (u s v : Text) :
    bareLetPattern.matchesAt (Cursor.start (u ++ q :: (s ++ q :: v))) =
      (s.all (fun c => c != '=' && c != ';') &&
        bareLetPattern.matchesAt (Cursor.start (u ++ q :: q :: v))) := by
  have htype : ∀ {left right : Text}, IsType (left ++ q :: (s ++ q :: right)) ↔
      s.all (fun c => c != '=' && c != ';') = true ∧ IsType (left ++ q :: ([] ++ q :: right)) := by
    intro left right
    simp only [IsType, List.all_eq_true, List.forall_mem_append, List.forall_mem_cons, ne_eq,
      List.append_eq_nil_iff, List.cons_ne_nil, and_false, not_false_eq_true, true_and,
      List.not_mem_nil, false_imp_iff, forall_const]
    tauto
  have hempty := bareLet_between hq (u := u) (v := v) (s := [])
  rw [Bool.eq_iff_iff, Bool.and_eq_true, bareLet_between hq, ← List.nil_append (q :: v), hempty]
  simp only [htype]
  constructor
  · rintro ⟨head, left, right, tail, hhead, htail, ⟨hall, htype⟩, hu, hv⟩
    exact ⟨hall, head, left, right, tail, hhead, htail, htype, hu, hv⟩
  · rintro ⟨hall, head, left, right, tail, hhead, htail, htype, hu, hv⟩
    exact ⟨head, left, right, tail, hhead, htail, ⟨hall, htype⟩, hu, hv⟩

end

end BlockSafe
