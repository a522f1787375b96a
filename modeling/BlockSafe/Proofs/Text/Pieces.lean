import BlockSafe.Proofs.Text.Ends

/-!
# Pieces of a text

Where two texts are put together, the last piece of the first and the first piece of the second
become one, and all other pieces stay (`splitWhen_append`).  Pieces that are put together with a
separator come apart again (`splitWhen_join`).  White space around a text disappears with the white
space around its pieces (`map_trim_split`).
-/

namespace BlockSafe.Text

/-- The last piece of one text and the first piece of the next are one piece of both. -/
theorem splitWhen_append (p : Char → Bool) (a b : Text) : ∃ xs x y ys,
    splitWhen p a = xs ++ [x] ∧ splitWhen p b = y :: ys ∧
      splitWhen p (a ++ b) = xs ++ (x ++ y) :: ys := by
  induction a with
  | nil =>
    cases hb : splitWhen p b with
    | nil =>
      cases b with
      | nil => cases hb
      | cons c b =>
        rw [splitWhen] at hb
        split at hb
        · cases hb
        · split at hb <;> cases hb
    | cons y ys => exact ⟨[], [], y, ys, rfl, rfl, hb⟩
  | cons c a ih =>
    obtain ⟨xs, x, y, ys, ha, hb, hab⟩ := ih
    by_cases hc : p c = true
    · refine ⟨[] :: xs, x, y, ys, ?_, hb, ?_⟩
      · rw [splitWhen, if_pos hc, ha, List.cons_append]
      · rw [List.cons_append, splitWhen, if_pos hc, hab, List.cons_append]
    · cases xs with
      | nil =>
        refine ⟨[], c :: x, y, ys, ?_, hb, ?_⟩
        · rw [splitWhen, if_neg hc, ha]
          rfl
        · rw [List.cons_append, splitWhen, if_neg hc, hab]
          rfl
      | cons piece xs =>
        refine ⟨(c :: piece) :: xs, x, y, ys, ?_, hb, ?_⟩
        · rw [splitWhen, if_neg hc, ha]
          rfl
        · rw [List.cons_append, splitWhen, if_neg hc, hab]
          rfl

/-- A text without separators is one piece. -/
theorem splitWhen_eq_self {p : Char → Bool} {s : Text} (h : ∀ c ∈ s, p c = false) :
    splitWhen p s = [s] := by
  induction s with
  | nil => rfl
  | cons c s ih =>
    obtain ⟨hc, hs⟩ := List.forall_mem_cons.1 h
    rw [splitWhen, hc, ih hs]
    rfl

/-- A text without separators goes in front of the first piece. -/
theorem splitWhen_append_left {p : Char → Bool} {a : Text} (ha : ∀ c ∈ a, p c = false) (b : Text) :
    ∃ y ys, splitWhen p b = y :: ys ∧ splitWhen p (a ++ b) = (a ++ y) :: ys := by
  obtain ⟨xs, x, y, ys, hx, hb, hboth⟩ := splitWhen_append p a b
  rw [splitWhen_eq_self ha] at hx
  obtain ⟨rfl, rfl⟩ : xs = [] ∧ x = a := by simpa [List.singleton_eq_append_iff] using hx
  exact ⟨y, ys, hb, hboth⟩

theorem beq_of_notMem {sep : Char} {a : Text} (ha : sep ∉ a) : ∀ c ∈ a, (c == sep) = false := by
  refine fun c hc => beq_false_of_ne ?_
  rintro rfl
  exact ha hc

theorem split_single {sep : Char} {a : Text} (ha : sep ∉ a) : split sep a = [a] :=
  splitWhen_eq_self (beq_of_notMem ha)

/-- The text up to the first separator is the first piece. -/
theorem splitWhen_cons {p : Char → Bool} {sep : Char} (hsep : p sep = true) {a : Text}
    (ha : ∀ c ∈ a, p c = false) (b : Text) :
    splitWhen p (a ++ sep :: b) = a :: splitWhen p b := by
  have hbreak : splitWhen p (sep :: b) = [] :: splitWhen p b := by rw [splitWhen, if_pos hsep]
  obtain ⟨y, ys, hb, hboth⟩ := splitWhen_append_left ha (sep :: b)
  rw [hbreak] at hb
  obtain ⟨rfl, rfl⟩ := List.cons.inj hb
  rw [hboth, List.append_nil]

theorem split_cons {sep : Char} {a : Text} (ha : sep ∉ a) (b : Text) :
    split sep (a ++ sep :: b) = a :: split sep b :=
  splitWhen_cons (p := (· == sep)) (beq_self_eq_true sep) (beq_of_notMem ha) b

/-- A text without separators goes behind the last piece. -/
theorem splitWhen_append_right {p : Char → Bool} {b : Text} (hb : ∀ c ∈ b, p c = false) (a : Text) :
    ∃ xs x, splitWhen p a = xs ++ [x] ∧ splitWhen p (a ++ b) = xs ++ [x ++ b] := by
  obtain ⟨xs, x, y, ys, ha, hy, hboth⟩ := splitWhen_append p a b
  rw [splitWhen_eq_self hb] at hy
  obtain ⟨rfl, rfl⟩ := List.cons.inj hy
  exact ⟨xs, x, ha, hboth⟩

/-- No piece has a separator. -/
theorem not_of_mem_splitWhen {p : Char → Bool} {s : Text} :
    ∀ piece ∈ splitWhen p s, ∀ c ∈ piece, p c = false := by
  induction s with
  | nil => simp [splitWhen]
  | cons c s ih =>
    rw [splitWhen]
    split
    · exact List.forall_mem_cons.2 ⟨fun _ hc => absurd hc List.not_mem_nil, ih⟩
    · next hc =>
      have hfree : p c = false := Bool.eq_false_iff.2 hc
      cases hpieces : splitWhen p s with
      | nil => simp [hfree]
      | cons piece pieces =>
        rw [hpieces] at ih
        obtain ⟨hpiece, hrest⟩ := List.forall_mem_cons.1 ih
        exact List.forall_mem_cons.2 ⟨List.forall_mem_cons.2 ⟨hfree, hpiece⟩, hrest⟩

/-! ## Pieces put together -/

theorem join_singleton (sep piece : Text) : join sep [piece] = piece := List.intercalate_singleton

theorem join_cons_cons (sep : Char) (piece next : Text) (pieces : List Text) :
    join [sep] (piece :: next :: pieces) = piece ++ sep :: join [sep] (next :: pieces) := by
  unfold join
  rw [List.intercalate_cons_cons, ← List.append_cons]

theorem mem_join {sep c : Char} {pieces : List Text} (hc : c ∈ join [sep] pieces) :
    c = sep ∨ ∃ piece ∈ pieces, c ∈ piece := by
  induction pieces with
  | nil => cases hc
  | cons piece pieces ih =>
    cases pieces with
    | nil =>
      rw [join_singleton] at hc
      exact .inr ⟨piece, List.mem_cons_self, hc⟩
    | cons next pieces =>
      rw [join_cons_cons, List.mem_append, List.mem_cons] at hc
      rcases hc with hc | rfl | hc
      · exact .inr ⟨piece, List.mem_cons_self, hc⟩
      · exact .inl rfl
      · rcases ih hc with heq | ⟨other, hother, hmem⟩
        · exact .inl heq
        · exact .inr ⟨other, List.mem_cons_of_mem _ hother, hmem⟩

/-- Pieces that are put together with a separator are its pieces. -/
theorem splitWhen_join {p : Char → Bool} {sep : Char} (hsep : p sep = true) {pieces : List Text}
    (hne : pieces ≠ []) (h : ∀ piece ∈ pieces, ∀ c ∈ piece, p c = false) :
    splitWhen p (join [sep] pieces) = pieces := by
  induction pieces with
  | nil => exact absurd rfl hne
  | cons piece pieces ih =>
    obtain ⟨hpiece, hpieces⟩ := List.forall_mem_cons.1 h
    cases pieces with
    | nil => rw [join_singleton, splitWhen_eq_self hpiece]
    | cons next pieces =>
      rw [join_cons_cons, splitWhen_cons hsep hpiece, ih (List.cons_ne_nil _ _) hpieces]

theorem split_join {sep : Char} {pieces : List Text} (hne : pieces ≠ [])
    (h : ∀ piece ∈ pieces, sep ∉ piece) : split sep (join [sep] pieces) = pieces :=
  splitWhen_join (p := (· == sep)) (beq_self_eq_true sep) hne
    fun piece hpiece => beq_of_notMem (h piece hpiece)

/-! ## Places of a character -/

section
variable {x : Char} {a b s t : Text}

/-- A text that starts without a character ends before that character. -/
theorem append_eq_of_notMem_left (hx : x ∉ a) (h : a ++ b = s ++ x :: t) :
    ∃ u, s = a ++ u ∧ b = u ++ x :: t := by
  rcases List.append_eq_append_iff.1 h with ⟨u, rfl, hb⟩ | ⟨u, rfl, hu⟩
  · exact ⟨u, rfl, hb⟩
  · cases u with
    | nil => exact ⟨[], by simp, hu.symm⟩
    | cons c u =>
      obtain ⟨rfl, -⟩ := List.cons.inj hu
      exact absurd (List.mem_append_right s List.mem_cons_self) hx

/-- A text that ends without a character starts behind that character. -/
theorem append_eq_of_notMem_right (hx : x ∉ b) (h : a ++ b = s ++ x :: t) :
    ∃ u, t = u ++ b ∧ a = s ++ x :: u := by
  rcases List.append_eq_append_iff.1 h with ⟨u, rfl, hb⟩ | ⟨u, rfl, hu⟩
  · rw [hb] at hx
    exact absurd (List.mem_append_right u List.mem_cons_self) hx
  · cases u with
    | nil =>
      rw [List.nil_append] at hu
      rw [← hu] at hx
      exact absurd List.mem_cons_self hx
    | cons c u =>
      obtain ⟨rfl, rfl⟩ := List.cons.inj hu
      exact ⟨u, rfl, rfl⟩

/-- A character that the middle of a text does not hold stands before it or behind it. -/
theorem append_eq_of_notMem_middle {m : Text} (hx : x ∉ m) (h : a ++ (m ++ b) = s ++ x :: t) :
    (∃ u, a = s ++ x :: u ∧ t = u ++ (m ++ b)) ∨ ∃ u, s = a ++ (m ++ u) ∧ b = u ++ x :: t := by
  have hbehind : ∀ w, s = a ++ w → m ++ b = w ++ x :: t →
      ∃ u, s = a ++ (m ++ u) ∧ b = u ++ x :: t := by
    rintro w rfl hw
    obtain ⟨u, rfl, hb⟩ := append_eq_of_notMem_left hx hw
    exact ⟨u, rfl, hb⟩
  rcases List.append_eq_append_iff.1 h with ⟨w, hs, hw⟩ | ⟨w, rfl, hw⟩
  · exact .inr (hbehind w hs hw)
  · cases w with
    | nil => exact .inr (hbehind [] (by simp) hw.symm)
    | cons c w =>
      obtain ⟨rfl, rfl⟩ := List.cons.inj hw
      exact .inl ⟨w, rfl, rfl⟩

end

/-! ## White space around pieces -/

/-- White space around a text disappears with that around its pieces. -/
theorem map_trim_split {sep : Char} (hsep : isSpace sep = false) (s : Text) :
    (split sep (trim s)).map trim = (split sep s).map trim := by
  have hblank : ∀ {w : Text}, Blank w → ∀ c ∈ w, (c == sep) = false := by
    intro w hw c hc
    refine beq_false_of_ne ?_
    rintro rfl
    rw [hw c hc] at hsep
    cases hsep
  have hnil : Blank [] := fun _ hc => absurd hc List.not_mem_nil
  obtain ⟨w, w', hs, hw, hw'⟩ := trim_split s
  -- The white space in front goes to the first piece, that behind to the last one.
  obtain ⟨y, ys, hrest, hall⟩ := splitWhen_append_left (hblank hw) (trim s ++ w')
  obtain ⟨zs, z, htrim, hboth⟩ := splitWhen_append_right (hblank hw') (trim s)
  have hfirst : trim (w ++ y) = trim y := by
    have h := trim_around (s := y) hw hnil
    rwa [List.append_nil] at h
  have hlast : trim (z ++ w') = trim z := trim_around hnil hw'
  have hsplit : split sep s = (w ++ y) :: ys := by
    rw [hs]
    exact hall
  have htext : split sep (trim s ++ w') = y :: ys := hrest
  calc (split sep (trim s)).map trim
      = (split sep (trim s ++ w')).map trim := by
        unfold split
        rw [htrim, hboth, List.map_append, List.map_append, List.map_singleton, List.map_singleton,
          hlast]
    _ = (split sep s).map trim := by
        rw [htext, hsplit, List.map_cons, List.map_cons, hfirst]

end BlockSafe.Text
