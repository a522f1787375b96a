import BlockSafe.Text.Mask

/-!
# The scan

The pass is told one character at a time, with a region of its own between the two characters that
open or close a block comment.  `sweep` reads both characters of such a mark at once, goes by index,
and knows no region between them.  It yields the same:

    sweep rules s .code 0 = scan rules s                                 (sweep_eq_scan)

So at a mark no index is left out and none comes twice: the indices are those of the text, in order
(`indices_scan`), each with its own character (`chars_scan`).
-/

namespace BlockSafe

/-! ## Quotes -/

/-- A string ends with a character of the class. -/
def Region.EndsIn (P : Char → Prop) : Region → Prop
  | string quote | escape quote => P quote
  | _ => True

/-- A string ends with the quote that it starts with. -/
theorem Region.EndsIn.step {P : Char → Prop} {rules : MaskRules} {region : Region}
    (hrules : ∀ quote ∈ rules.quotes, P quote) (h : region.EndsIn P) (c : Char)
    (next : Option Char) : (region.step rules c next).2.EndsIn P := by
  cases region with
  | code =>
    simp only [Region.step]
    split
    · trivial
    · split
      · trivial
      · split
        · next hquote => exact hrules c hquote
        · trivial
  | string quote =>
    simp only [Region.step]
    split
    · exact h
    · split
      · trivial
      · exact h
  | escape quote => exact h
  | lineComment =>
    simp only [Region.step]
    split <;> trivial
  | blockOpening => trivial
  | blockComment =>
    simp only [Region.step]
    split <;> trivial
  | blockClosing => trivial

/-! ## Both characters of a mark at once -/

/-- The second character of the mark that starts with `c` and `next`, and the region behind it. -/
def Region.mark? (rules : MaskRules) (region : Region) (c : Char) (next : Option Char) :
    Option (Char × Region) :=
  match region with
  | code =>
    if rules.comments ∧ c = '/' ∧ next = some '/' then some ('/', lineComment)
    else if rules.comments ∧ c = '/' ∧ next = some '*' then some ('*', blockComment)
    else none
  | blockComment => if c = '*' ∧ next = some '/' then some ('/', code) else none
  | _ => none

/-- What is yielded of a text from index `i` on: the two characters of a mark, or one character on
its own. -/
def sweep (rules : MaskRules) (s : Text) (region : Region) (i : Nat) : List (Nat × Char × Bool) :=
  match h : s[i]? with
  | none => []
  | some c =>
    have : i < s.length := (List.getElem?_eq_some_iff.1 h).1
    match region.mark? rules c s[i + 1]? with
    | some (d, after) => (i, c, true) :: (i + 1, d, true) :: sweep rules s after (i + 2)
    | none =>
      let (masked, after) := region.step rules c none
      (i, c, masked) :: sweep rules s after (i + 1)
termination_by s.length - i

/-- Not between the two characters of a mark. -/
def Region.Whole : Region → Prop
  | blockOpening | blockClosing => False
  | _ => True

section
variable {rules : MaskRules} {region after : Region} {c d : Char} {next : Option Char} {s : Text}

/-- The pass masks both characters of a mark, one after the other. -/
theorem step_mark (h : region.mark? rules c next = some (d, after)) :
    next = some d ∧ after.Whole ∧ (region.step rules c next).1 = true ∧
      ∀ following, (region.step rules c next).2.step rules d following = (true, after) := by
  cases region with
  | code =>
    simp only [Region.mark?] at h
    split at h
    · next hline =>
      cases h
      exact ⟨hline.2.2, trivial, by simp [Region.step, hline], by simp [Region.step, hline]⟩
    · split at h
      · next hblock =>
        cases h
        exact ⟨hblock.2.2, trivial, by simp [Region.step, hblock], by simp [Region.step, hblock]⟩
      · cases h
  | blockComment =>
    simp only [Region.mark?] at h
    split at h
    · next hclose =>
      cases h
      exact ⟨hclose.2, trivial, by simp [Region.step, hclose], by simp [Region.step, hclose]⟩
    · cases h
  | _ => cases h

/-- Where no mark starts, the next character does not matter. -/
theorem step_single (hregion : region.Whole) (h : region.mark? rules c next = none) :
    region.step rules c next = region.step rules c none ∧
      (region.step rules c none).2.Whole := by
  cases region with
  | code =>
    simp only [Region.mark?] at h
    split at h
    · cases h
    · next hline =>
      split at h
      · cases h
      · next hblock =>
        by_cases hquote : c ∈ rules.quotes
        · simp [Region.step, hline, hblock, hquote, Region.Whole]
        · simp [Region.step, hline, hblock, hquote, Region.Whole]
  | string quote =>
    refine ⟨rfl, ?_⟩
    simp only [Region.step]
    split
    · trivial
    · split <;> trivial
  | escape quote => exact ⟨rfl, trivial⟩
  | lineComment =>
    refine ⟨rfl, ?_⟩
    simp only [Region.step]
    split <;> trivial
  | blockComment =>
    simp only [Region.mark?] at h
    split at h
    · cases h
    · next hclose => simp [Region.step, hclose, Region.Whole]
  | blockOpening => exact hregion.elim
  | blockClosing => exact hregion.elim

theorem mark_cons (rules : MaskRules) (region : Region) (c : Char) (s : Text) :
    mark rules region (c :: s) = (c, (region.step rules c s.head?).1) ::
      mark rules (region.step rules c s.head?).2 s := rfl

/-! ## Indices -/

/-- Marked characters with their indices, from `i` on. -/
def indexed (i : Nat) (ms : List (Char × Bool)) : List (Nat × Char × Bool) :=
  (ms.zipIdx i).map fun (m, j) => (j, m)

theorem indexed_cons (i : Nat) (m : Char × Bool) (ms : List (Char × Bool)) :
    indexed i (m :: ms) = (i, m) :: indexed (i + 1) ms := rfl

theorem drop_of_getElem? {i : Nat} (h : s[i]? = some c) : s.drop i = c :: s.drop (i + 1) := by
  obtain ⟨hi, rfl⟩ := List.getElem?_eq_some_iff.1 h
  exact List.drop_eq_getElem_cons hi

/-- From a place where no mark is cut in two, both passes yield the same. -/
theorem sweep_eq {i : Nat} (h : region.Whole) :
    sweep rules s region i = indexed i (mark rules region (s.drop i)) := by
  fun_induction sweep rules s region i with
  | case1 region i hend =>
    rw [List.drop_eq_nil_of_le (List.getElem?_eq_none_iff.1 hend)]
    rfl
  | case2 region i c hc _ d after hmark ih =>
    obtain ⟨hd, hafter, hmasked, hstep⟩ := step_mark hmark
    rw [drop_of_getElem? hc, drop_of_getElem? hd, mark_cons, mark_cons, indexed_cons,
      indexed_cons, List.head?_cons, ← hd, hmasked, hstep, ih hafter]
  | case3 region i c hc _ hmark masked after hstep ih =>
    obtain ⟨hnext, hafter⟩ := step_single h hmark
    rw [hstep] at hnext hafter
    rw [drop_of_getElem? hc, mark_cons, List.head?_drop, hnext, indexed_cons, ih hafter]

theorem sweep_eq_scan (rules : MaskRules) (s : Text) : sweep rules s .code 0 = scan rules s :=
  sweep_eq trivial

end

theorem map_fst_mark (rules : MaskRules) (region : Region) (s : Text) :
    (mark rules region s).map (·.1) = s := by
  induction s generalizing region with
  | nil => rfl
  | cons c s ih => rw [mark_cons, List.map_cons, ih]

theorem length_mark (rules : MaskRules) (region : Region) (s : Text) :
    (mark rules region s).length = s.length := by
  rw [← List.length_map (·.1), map_fst_mark]

/-- Every index of the text comes once, in order. -/
theorem indices_scan (rules : MaskRules) (s : Text) :
    (scan rules s).map (·.1) = List.range s.length := by
  have hindices : (scan rules s).map (·.1) = (mark rules .code s).zipIdx.map (·.2) :=
    List.map_map
  rw [hindices, List.zipIdx_map_snd, length_mark, List.range_eq_range']

/-- Without the indices, the scan is the pass. -/
theorem map_snd_scan (rules : MaskRules) (s : Text) :
    (scan rules s).map (·.2) = mark rules .code s := by
  have hmarks : (scan rules s).map (·.2) = (mark rules .code s).zipIdx.map (·.1) := List.map_map
  rw [hmarks, List.zipIdx_map_fst]

/-- The characters are those of the text, in order. -/
theorem chars_scan (rules : MaskRules) (s : Text) : (scan rules s).map (·.2.1) = s := by
  have hchars : (scan rules s).map (·.2.1) = ((scan rules s).map (·.2)).map (·.1) :=
    List.map_map.symm
  rw [hchars, map_snd_scan, map_fst_mark]

theorem mem_scan {rules : MaskRules} {s : Text} {i : Nat} {m : Char × Bool} :
    (i, m) ∈ scan rules s ↔ (mark rules .code s)[i]? = some m := by
  unfold scan
  rw [← List.mk_mem_zipIdx_iff_getElem?, List.mem_map]
  constructor
  · rintro ⟨⟨m', j⟩, hmem, heq⟩
    cases heq
    exact hmem
  · exact fun hmem => ⟨(m, i), hmem, rfl⟩

end BlockSafe
