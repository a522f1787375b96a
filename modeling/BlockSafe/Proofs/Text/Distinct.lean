import BlockSafe.Text.Basic
import Mathlib.Data.List.Nodup

/-!
# Lists of first occurrences

`distinct` keeps exactly the items of a list (`mem_distinct`), each once (`nodup_distinct`), in the
order in which they first occur (`distinct_order`), and these three say all about it.  It commutes
with removing items (`distinct_filter`), and lists that have no item in common can be reduced one by
one (`distinct_flatMap`).

The recursion carries the items that it has seen.  Of these only matters which of the items to come
are among them (`distinctFrom_congr`).
-/

namespace BlockSafe

variable {α : Type} [DecidableEq α] {seen items : List α} {a : α}

/-! ## Items -/

theorem mem_distinctFrom : a ∈ distinctFrom seen items ↔ a ∈ items ∧ a ∉ seen := by
  fun_induction distinctFrom seen items with
  | case1 => simp
  | case2 seen b rest hb ih =>
    rw [ih, List.mem_cons]
    constructor
    · exact fun h => ⟨.inr h.1, h.2⟩
    · rintro ⟨rfl | h, hs⟩
      · exact absurd hb hs
      · exact ⟨h, hs⟩
  | case3 seen b rest hb ih =>
    rw [List.mem_cons, ih, List.mem_cons, List.mem_cons]
    constructor
    · rintro (rfl | ⟨h, hs⟩)
      · exact ⟨.inl rfl, hb⟩
      · exact ⟨.inr h, fun h1 => hs (.inr h1)⟩
    · rintro ⟨h, hs⟩
      by_cases hab : a = b
      · exact .inl hab
      · exact .inr ⟨h.resolve_left hab, fun h1 => h1.elim hab hs⟩

/-- What is kept are exactly the items. -/
theorem mem_distinct : a ∈ distinct items ↔ a ∈ items := by
  unfold distinct
  rw [mem_distinctFrom]
  simp

theorem nodup_distinctFrom : (distinctFrom seen items).Nodup := by
  fun_induction distinctFrom seen items with
  | case1 => exact List.nodup_nil
  | case2 seen b rest _ ih => exact ih
  | case3 seen b rest _ ih =>
    refine List.nodup_cons.2 ⟨fun hmem => ?_, ih⟩
    exact (mem_distinctFrom.1 hmem).2 List.mem_cons_self

theorem nodup_distinct (items : List α) : (distinct items).Nodup := nodup_distinctFrom

theorem distinctFrom_eq_self (hitems : items.Nodup) (hseen : ∀ a ∈ items, a ∉ seen) :
    distinctFrom seen items = items := by
  induction items generalizing seen with
  | nil => rfl
  | cons b rest ih =>
    obtain ⟨hb, hrest⟩ := List.nodup_cons.1 hitems
    obtain ⟨hbs, hseen⟩ := List.forall_mem_cons.1 hseen
    rw [distinctFrom, if_neg hbs, ih hrest]
    intro a ha
    rw [List.mem_cons, not_or]
    exact ⟨fun hab => hb (hab ▸ ha), hseen a ha⟩

/-- Nothing is removed from a list without repetitions. -/
theorem distinct_eq_self (h : items.Nodup) : distinct items = items :=
  distinctFrom_eq_self h fun _ _ => List.not_mem_nil

/-! ## Order -/

/-- The items that are kept stand in the order of their first places. -/
theorem distinctFrom_order [BEq α] [LawfulBEq α] :
    (distinctFrom seen items).Pairwise fun a b => items.idxOf a < items.idxOf b := by
  fun_induction distinctFrom seen items with
  | case1 => exact .nil
  | case2 seen b rest hb ih =>
    have hne : ∀ {a}, a ∈ distinctFrom seen rest → b ≠ a := by
      rintro a ha rfl
      exact (mem_distinctFrom.1 ha).2 hb
    refine ih.imp_of_mem fun {a c} ha hc hlt => ?_
    rw [List.idxOf_cons_ne _ (hne ha), List.idxOf_cons_ne _ (hne hc)]
    exact Nat.succ_lt_succ hlt
  | case3 seen b rest _ ih =>
    have hne : ∀ {a}, a ∈ distinctFrom (b :: seen) rest → b ≠ a := by
      rintro a ha rfl
      exact (mem_distinctFrom.1 ha).2 List.mem_cons_self
    refine List.pairwise_cons.2 ⟨fun a ha => ?_, ih.imp_of_mem fun {a c} ha hc hlt => ?_⟩
    · rw [List.idxOf_cons_self, List.idxOf_cons_ne _ (hne ha)]
      exact Nat.succ_pos _
    · rw [List.idxOf_cons_ne _ (hne ha), List.idxOf_cons_ne _ (hne hc)]
      exact Nat.succ_lt_succ hlt

theorem distinct_order [BEq α] [LawfulBEq α] (items : List α) :
    (distinct items).Pairwise fun a b => items.idxOf a < items.idxOf b := distinctFrom_order

/-! ## Parts -/

theorem distinctFrom_congr {seen' : List α} (h : ∀ a ∈ items, a ∈ seen ↔ a ∈ seen') :
    distinctFrom seen items = distinctFrom seen' items := by
  induction items generalizing seen seen' with
  | nil => rfl
  | cons b rest ih =>
    obtain ⟨hb, hrest⟩ := List.forall_mem_cons.1 h
    have hcons : distinctFrom (b :: seen) rest = distinctFrom (b :: seen') rest :=
      ih fun a ha => by rw [List.mem_cons, List.mem_cons, hrest a ha]
    simp only [distinctFrom, hb, ih hrest, hcons]

/-- Removing items before or after makes no difference. -/
theorem distinctFrom_filter (p : α → Bool) :
    distinctFrom seen (items.filter p) = (distinctFrom seen items).filter p := by
  fun_induction distinctFrom seen items with
  | case1 => rfl
  | case2 seen b rest hb ih =>
    rw [← ih, List.filter_cons]
    split
    · rw [distinctFrom, if_pos hb]
    · rfl
  | case3 seen b rest hb ih =>
    rw [List.filter_cons, List.filter_cons, ← ih]
    split
    · rw [distinctFrom, if_neg hb]
    · next hp =>
      apply distinctFrom_congr
      intro a ha
      have hne : a ≠ b := fun hab => hp (hab ▸ (List.mem_filter.1 ha).2)
      rw [List.mem_cons, or_iff_right hne]

theorem distinct_filter (p : α → Bool) (items : List α) :
    distinct (items.filter p) = (distinct items).filter p := distinctFrom_filter p

theorem distinctFrom_append (left right : List α) :
    distinctFrom seen (left ++ right) =
      distinctFrom seen left ++ distinctFrom (left ++ seen) right := by
  induction left generalizing seen with
  | nil => rfl
  | cons b left ih =>
    have hcongr : distinctFrom (left ++ (b :: seen)) right =
        distinctFrom (b :: left ++ seen) right :=
      distinctFrom_congr fun a _ => by simp only [List.mem_append, List.mem_cons]; tauto
    rw [List.cons_append, distinctFrom, distinctFrom]
    split
    · next hb =>
      rw [ih]
      congr 1
      refine distinctFrom_congr fun a _ => ?_
      rw [List.cons_append, List.mem_cons, List.mem_append]
      exact ⟨.inr, fun h => h.elim (fun hab => .inr (hab ▸ hb)) id⟩
    · rw [ih, List.cons_append, hcongr]

theorem distinct_append {left right : List α} (h : left.Disjoint right) :
    distinct (left ++ right) = distinct left ++ distinct right := by
  unfold distinct
  rw [distinctFrom_append, List.append_nil]
  congr 1
  exact distinctFrom_congr fun a ha => iff_of_false (fun hmem => h hmem ha) List.not_mem_nil

/-- Lists that have nothing in common keep their first occurrences one by one. -/
theorem distinct_flatMap {ι : Type} {f : ι → List α} {parts : List ι}
    (h : parts.Pairwise fun i j => (f i).Disjoint (f j)) :
    distinct (parts.flatMap f) = parts.flatMap fun i => distinct (f i) := by
  induction parts with
  | nil => rfl
  | cons i parts ih =>
    obtain ⟨hi, hparts⟩ := List.pairwise_cons.1 h
    have hdisjoint : (f i).Disjoint (parts.flatMap f) := by
      intro a ha hmem
      obtain ⟨j, hj, haj⟩ := List.mem_flatMap.1 hmem
      exact hi j hj ha haj
    rw [List.flatMap_cons, List.flatMap_cons, distinct_append hdisjoint, ih hparts]

end BlockSafe
