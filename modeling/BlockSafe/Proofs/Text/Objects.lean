import BlockSafe.Proofs.Text.Quoting
import Mathlib.Data.List.Basic

/-!
# Balanced objects

The search for balanced objects counts the braces that are open outside of double quotes
(`openBraces`).  A text closes so many braces (`Closes`) if its last character closes the last of
them, and it is balanced if it is an opening brace with a text behind it that closes it.  The
balanced texts are those that the search finds:

    balancedObjects o = [o] ↔ Balanced o                                 (balancedObjects_self_iff)
    Apart (balancedObjects s) s                                          (apart_balancedObjects)

where `Apart` says that balanced texts stand in a text one behind the other.  A text that ends
outside of quotes with no brace open is searched on its own, whatever follows (`objectsIn_append`).
-/

namespace BlockSafe

/-! ## Open braces -/

/-- The masks of the search for objects: double quotes, and no comments. -/
def objectMask : MaskRules := ⟨['"'], false⟩

/-- The number of open braces behind one more character.  A closing brace counts for nothing if
none is open. -/
def braceStep (depth : Nat) (m : Char × Bool) : Nat :=
  if m.2 then depth
  else if m.1 = '{' then depth + 1
  else if m.1 = '}' then depth - 1
  else depth

/-- The number of braces that are open behind a text. -/
def openBraces (s : Text) : Nat := (mark objectMask .code s).foldl braceStep 0

/-- The number of open braces behind a text that is read from a depth and a state on. -/
def depthIn (depth : Nat) (q : Quoting) (s : Text) : Nat :=
  (mark objectMask q.region s).foldl braceStep depth

/-- Braces count outside of quotes only. -/
theorem brace_cases (q : Quoting) (c : Char) :
    PlainIn q c ∨ q = .outside ∧ (c = '{' ∨ c = '}') := by
  by_cases hbrace : c = '{' ∨ c = '}'
  · cases q with
    | outside => exact .inr ⟨rfl, hbrace⟩
    | inside =>
      refine .inl (.inl ?_)
      rcases hbrace with rfl | rfl <;> rfl
    | escaped => exact .inl (.inl rfl)
  · exact .inl (.inr (not_or.1 hbrace))

section
variable {depth : Nat} {q : Quoting} {c : Char} {s : Text}

theorem depthIn_cons : depthIn depth q (c :: s) =
    depthIn (braceStep depth (c, q.masks c)) (q.next c) s := by
  unfold depthIn objectMask
  rw [mark, Quoting.step_region]
  rfl

theorem depthIn_plain (h : PlainIn q c) : depthIn depth q (c :: s) = depthIn depth (q.next c) s := by
  have hstep : braceStep depth (c, q.masks c) = depth := by
    unfold braceStep
    rcases h with hmask | ⟨hopen, hclose⟩
    · rw [if_pos hmask]
    · simp only [hopen, hclose, if_false, ite_self]
  rw [depthIn_cons, hstep]

theorem depthIn_open : depthIn depth .outside ('{' :: s) = depthIn (depth + 1) .outside s := rfl

theorem depthIn_close : depthIn depth .outside ('}' :: s) = depthIn (depth - 1) .outside s := rfl

end

/-- The region behind a text is the state behind it. -/
theorem regionAfter_region (q : Quoting) (s : Text) :
    regionAfter objectMask q.region none s = (q.after s).region := by
  induction s generalizing q with
  | nil => rfl
  | cons c s ih =>
    rw [regionAfter, objectMask, Quoting.step_region]
    exact ih (q.next c)

theorem outside_of_region {q : Quoting} (h : q.region = .code) : q = .outside := by
  cases q with
  | outside => rfl
  | inside => cases h
  | escaped => cases h

/-! ## Balanced texts -/

/-- The text, read from a state on, closes so many braces with its last character, and with no
other. -/
inductive Closes : Nat → Quoting → Text → Prop
  | last : Closes 1 .outside ['}']
  | close {depth : Nat} {s : Text} :
      Closes (depth + 1) .outside s → Closes (depth + 2) .outside ('}' :: s)
  | deeper {depth : Nat} {s : Text} :
      Closes (depth + 2) .outside s → Closes (depth + 1) .outside ('{' :: s)
  | plain {depth : Nat} {q : Quoting} {c : Char} {s : Text} :
      PlainIn q c → Closes (depth + 1) (q.next c) s → Closes (depth + 1) q (c :: s)

/-- An opening brace and a text that closes it. -/
def Balanced (o : Text) : Prop := ∃ b, o = '{' :: b ∧ Closes 1 .outside b

section
variable {depth : Nat} {q : Quoting} {b s t : Text}

/-- A text that closes braces is kept up to its end. -/
theorem Closes.objectsIn_eq (h : Closes depth q b) (read t : Text) :
    objectsIn depth read q (b ++ t) = (read.reverse ++ b) :: objectsIn 0 [] .outside t := by
  induction h generalizing read with
  | last => rw [List.singleton_append, objectsIn_last, List.reverse_cons]
  | close _ ih =>
    rw [List.cons_append, objectsIn_close, ih, List.reverse_cons, List.append_assoc,
      List.singleton_append]
  | deeper _ ih =>
    rw [List.cons_append, objectsIn_open, ih, List.reverse_cons, List.append_assoc,
      List.singleton_append]
  | plain hc _ ih =>
    rw [List.cons_append, objectsIn_plain hc, if_neg (Nat.succ_ne_zero _), ih, List.reverse_cons,
      List.append_assoc, List.singleton_append]

/-- Within an object, nothing is found, or the text starts with one that closes it. -/
theorem objectsIn_eq_nil_or (s : Text) (depth : Nat) (read : Text) (q : Quoting) :
    objectsIn (depth + 1) read q s = [] ∨ ∃ b t, s = b ++ t ∧ Closes (depth + 1) q b := by
  induction s generalizing depth read q with
  | nil => exact .inl rfl
  | cons c s ih =>
    rcases brace_cases q c with hc | ⟨rfl, rfl | rfl⟩
    · rw [objectsIn_plain hc, if_neg (Nat.succ_ne_zero depth)]
      refine (ih depth (c :: read) (q.next c)).imp_right ?_
      rintro ⟨b, t, rfl, hb⟩
      exact ⟨c :: b, t, rfl, .plain hc hb⟩
    · rw [objectsIn_open]
      refine (ih (depth + 1) ('{' :: read) .outside).imp_right ?_
      rintro ⟨b, t, rfl, hb⟩
      exact ⟨'{' :: b, t, rfl, .deeper hb⟩
    · cases depth with
      | zero => exact .inr ⟨['}'], s, rfl, .last⟩
      | succ depth =>
        rw [objectsIn_close]
        refine (ih depth ('}' :: read) .outside).imp_right ?_
        rintro ⟨b, t, rfl, hb⟩
        exact ⟨'}' :: b, t, rfl, .close hb⟩

theorem Closes.last_eq (h : Closes depth q b) : b.getLast? = some '}' := by
  induction h with
  | last => rfl
  | close _ ih => rw [List.getLast?_cons, ih]; rfl
  | deeper _ ih => rw [List.getLast?_cons, ih]; rfl
  | plain _ _ ih => rw [List.getLast?_cons, ih]; rfl

end

/-- A balanced text is found as a whole. -/
theorem Balanced.objectsIn_eq {o : Text} (h : Balanced o) (t : Text) :
    objectsIn 0 [] .outside (o ++ t) = o :: objectsIn 0 [] .outside t := by
  obtain ⟨b, rfl, hb⟩ := h
  rw [List.cons_append, objectsIn_open, hb.objectsIn_eq]
  rfl

theorem Balanced.length_pos {o : Text} (h : Balanced o) : 0 < o.length := by
  obtain ⟨b, rfl, -⟩ := h
  exact Nat.succ_pos _

theorem Balanced.ends {o : Text} (h : Balanced o) : o.head? = some '{' ∧ o.getLast? = some '}' := by
  obtain ⟨b, rfl, hb⟩ := h
  refine ⟨rfl, ?_⟩
  rw [List.getLast?_cons, hb.last_eq]
  rfl

/-! ## What is found -/

/-- Balanced texts that stand in a text one behind the other. -/
inductive Apart : List Text → Text → Prop
  | nil (s : Text) : Apart [] s
  | cons {o t : Text} {objects : List Text} (gap : Text) :
      Balanced o → Apart objects t → Apart (o :: objects) (gap ++ (o ++ t))

/-- Between objects, nothing is found, or a balanced text and what is found behind it. -/
theorem objectsIn_cases (s : Text) (q : Quoting) : objectsIn 0 [] q s = [] ∨
    ∃ gap o t, s = gap ++ (o ++ t) ∧ Balanced o ∧
      objectsIn 0 [] q s = o :: objectsIn 0 [] .outside t := by
  induction s generalizing q with
  | nil => exact .inl rfl
  | cons c s ih =>
    have hskip : objectsIn 0 [] q (c :: s) = objectsIn 0 [] (q.next c) s →
        objectsIn 0 [] q (c :: s) = [] ∨ ∃ gap o t, c :: s = gap ++ (o ++ t) ∧ Balanced o ∧
          objectsIn 0 [] q (c :: s) = o :: objectsIn 0 [] .outside t := by
      intro heq
      rw [heq]
      refine (ih (q.next c)).imp_right ?_
      rintro ⟨gap, o, t, rfl, ho, hrest⟩
      exact ⟨c :: gap, o, t, rfl, ho, hrest⟩
    rcases brace_cases q c with hc | ⟨rfl, rfl | rfl⟩
    · exact hskip (by rw [objectsIn_plain hc, if_pos rfl])
    · rw [objectsIn_open]
      refine (objectsIn_eq_nil_or s 0 ['{'] .outside).imp_right ?_
      rintro ⟨b, t, rfl, hb⟩
      exact ⟨[], '{' :: b, t, rfl, ⟨b, rfl, hb⟩, hb.objectsIn_eq ['{'] t⟩
    · exact hskip rfl

theorem apart_objectsIn (s : Text) (q : Quoting) : Apart (objectsIn 0 [] q s) s := by
  induction hn : s.length using Nat.strongRecOn generalizing s q with
  | ind n ih =>
    rcases objectsIn_cases s q with hnone | ⟨gap, o, t, rfl, ho, hfound⟩
    · rw [hnone]
      exact .nil s
    · have hpos := ho.length_pos
      rw [hfound]
      refine .cons gap ho (ih t.length ?_ t .outside rfl)
      rw [← hn, List.length_append, List.length_append]
      omega

theorem apart_balancedObjects (s : Text) : Apart (balancedObjects s) s := apart_objectsIn s .outside

theorem Apart.balanced {objects : List Text} {s : Text} (h : Apart objects s) :
    ∀ o ∈ objects, Balanced o := by
  induction h with
  | nil => exact fun _ ho => absurd ho List.not_mem_nil
  | cons _ ho _ ih => exact List.forall_mem_cons.2 ⟨ho, ih⟩

/-- The search finds just the text itself iff that is balanced. -/
theorem balancedObjects_self_iff (o : Text) : balancedObjects o = [o] ↔ Balanced o := by
  constructor
  · intro h
    exact (apart_balancedObjects o).balanced o (h ▸ List.mem_singleton_self o)
  · intro h
    have hfound := h.objectsIn_eq []
    rwa [List.append_nil] at hfound

/-! ## Places -/

/-- The characters of a text from one index up to another. -/
def slice (s : Text) (place : Nat × Nat) : Text := (s.take place.2).drop place.1

theorem slice_middle (a o t : Text) : slice (a ++ (o ++ t)) (a.length, a.length + o.length) = o := by
  unfold slice
  dsimp only
  rw [List.take_length_add_append, List.take_left, List.drop_left]

theorem slice_behind (a t : Text) (place : Nat × Nat) :
    slice (a ++ t) (a.length + place.1, a.length + place.2) = slice t place := by
  unfold slice
  dsimp only
  rw [List.take_length_add_append, List.drop_length_add_append]

/-- Texts that stand one behind the other have places, each of which ends before the next one
starts. -/
theorem Apart.places {objects : List Text} {s : Text} (h : Apart objects s) :
    ∃ places : List (Nat × Nat), objects = places.map (slice s) ∧
      (∀ p ∈ places, p.1 < p.2 ∧ p.2 ≤ s.length) ∧ places.Pairwise fun p p' => p.2 ≤ p'.1 := by
  induction h with
  | nil s => exact ⟨[], rfl, fun _ hp => absurd hp List.not_mem_nil, .nil⟩
  | @cons o t objects gap ho _ ih =>
    obtain ⟨places, rfl, hwithin, hapart⟩ := ih
    have hpos := ho.length_pos
    have hlength : (gap ++ o).length = gap.length + o.length := List.length_append
    -- the places in the rest of the text, counted from its start
    let behind (p : Nat × Nat) : Nat × Nat := ((gap ++ o).length + p.1, (gap ++ o).length + p.2)
    refine ⟨(gap.length, gap.length + o.length) :: places.map behind, ?_, ?_, ?_⟩
    · rw [List.map_cons, slice_middle, List.map_map]
      refine congrArg _ (List.map_congr_left fun p _ => ?_)
      rw [Function.comp_apply, ← List.append_assoc, slice_behind]
    · rw [List.length_append, List.length_append]
      refine List.forall_mem_cons.2 ⟨⟨by dsimp only; omega, by dsimp only; omega⟩, ?_⟩
      refine List.forall_mem_map.2 fun p hp => ?_
      have hbounds := hwithin p hp
      dsimp only [behind]
      omega
    · refine List.pairwise_cons.2 ⟨List.forall_mem_map.2 fun p _ => ?_, List.pairwise_map.2 ?_⟩
      · rw [← hlength]
        exact Nat.le_add_right _ _
      · exact hapart.imp fun hle => Nat.add_le_add_left hle _

/-! ## Texts in a row -/

/-- A text behind which no brace is open is searched on its own. -/
theorem objectsIn_append {a : Text} {depth : Nat} {read : Text} {q : Quoting}
    (hread : depth = 0 → read = []) (h : depthIn depth q a = 0) (t : Text) :
    objectsIn depth read q (a ++ t) =
      objectsIn depth read q a ++ objectsIn 0 [] (q.after a) t := by
  induction a generalizing depth read q with
  | nil =>
    obtain rfl : depth = 0 := h
    rw [hread rfl]
    rfl
  | cons c a ih =>
    rw [List.cons_append, Quoting.after_cons]
    rcases brace_cases q c with hc | ⟨rfl, rfl | rfl⟩
    · rw [depthIn_plain hc] at h
      rw [objectsIn_plain hc, objectsIn_plain hc]
      split
      · next hzero => exact ih (fun _ => rfl) (hzero ▸ h)
      · next hpos => exact ih (fun hzero => absurd hzero hpos) h
    · rw [depthIn_open] at h
      exact ih (fun hzero => absurd hzero (Nat.succ_ne_zero depth)) h
    · rw [depthIn_close] at h
      match depth with
      | 0 => exact ih (fun _ => rfl) h
      | 1 =>
        rw [objectsIn_last, objectsIn_last, List.cons_append]
        exact congrArg _ (ih (fun _ => rfl) h)
      | depth + 2 =>
        rw [objectsIn_close, objectsIn_close]
        exact ih (fun hzero => absurd hzero (Nat.succ_ne_zero depth)) h

/-- **The search for objects is sound, stable and compositional.**  What is found stands in the
text, one behind the other, each from brace to brace; it is found again, and nothing else, when it
is searched itself, as are exactly the balanced texts.  If a text ends outside of quotes with no
brace open, what is found in it and a text behind it is what is found in the two. -/
theorem balancedObjects_compositional (s : Text) :
    (∃ places : List (Nat × Nat), balancedObjects s = places.map (slice s) ∧
      (∀ p ∈ places, p.1 < p.2 ∧ p.2 ≤ s.length) ∧ places.Pairwise fun p p' => p.2 ≤ p'.1) ∧
    (∀ o ∈ balancedObjects s,
      o.head? = some '{' ∧ o.getLast? = some '}' ∧ balancedObjects o = [o]) ∧
    (balancedObjects s = [s] ↔ Balanced s) ∧
    (regionAfter objectMask .code none s = .code → openBraces s = 0 →
      ∀ t, balancedObjects (s ++ t) = balancedObjects s ++ balancedObjects t) := by
  have happart := apart_balancedObjects s
  refine ⟨happart.places, fun o ho => ?_, balancedObjects_self_iff s, fun hregion hbraces t => ?_⟩
  · have hbalanced := happart.balanced o ho
    exact ⟨hbalanced.ends.1, hbalanced.ends.2, (balancedObjects_self_iff o).2 hbalanced⟩
  · have houtside : Quoting.after .outside s = .outside :=
      outside_of_region (by rw [← regionAfter_region]; exact hregion)
    have happend := objectsIn_append (q := .outside) (fun _ => rfl) hbraces t
    rwa [houtside] at happend

/-- Behind stray closing braces, an object with another one and a quoted brace in it; behind that, a
string with an opening brace. -/
theorem balancedObjects_compositional_stray :
    let s : Text := "\x7d\x7d \x7b\"a\x7d\": \x7b\x7d\x7d \"\\\"\x7b\" "
    let o : Text := "\x7b\"a\x7d\": \x7b\x7d\x7d"
    o ∈ balancedObjects s ∧ balancedObjects o = [o] ∧
      regionAfter objectMask .code none s = .code ∧ openBraces s = 0 ∧
      balancedObjects (s ++ "\x7b\x7d \x7b".toList) = [o, "\x7b\x7d".toList] := by
  intro s o
  have hfound : balancedObjects s = [o] := by decide +kernel
  have hregion : regionAfter objectMask .code none s = .code := by decide +kernel
  have hbraces : openBraces s = 0 := by decide +kernel
  have ho : o ∈ balancedObjects s := hfound ▸ List.mem_singleton_self o
  obtain ⟨-, hends, -, hrow⟩ := balancedObjects_compositional s
  refine ⟨ho, (hends o ho).2.2, hregion, hbraces, ?_⟩
  rw [hrow hregion hbraces, hfound]
  decide +kernel

end BlockSafe
