import BlockSafe.Proofs.Text.Distinct
import BlockSafe.Verdict

/-!
# What a verdict lists

A verdict is compliant iff it lists nothing (`compliant_iff`), and every entry of the list is the
tag of a violation that was reported, so that a list of violations is never blank when it is written
out (`commaJoin_violations`).
-/

namespace BlockSafe

theorem compliant_iff (code : Text) (target : Target) :
    (validate code target).compliant = true ↔ (validate code target).violations = [] := by
  unfold validate Verdict.ofTags
  simp

theorem tag_ne_nil (violation : Violation) : violation.tag ≠ [] := by
  cases violation with
  | arity call least most got =>
    exact List.append_ne_nil_of_right_ne_nil _ (List.cons_ne_nil _ _)
  | unknownMember enumName member =>
    exact List.append_ne_nil_of_right_ne_nil _ (List.cons_ne_nil _ _)
  | _ => decide +kernel

theorem violations_ne_nil {code : Text} {target : Target} {violation : Text}
    (h : violation ∈ (validate code target).violations) : violation ≠ [] := by
  unfold validate Verdict.ofTags at h
  rw [mem_distinct] at h
  obtain ⟨v, -, rfl⟩ := List.mem_map.1 h
  exact tag_ne_nil v

theorem commaJoin_ne_nil {item : Text} (items : List Text) (h : item ≠ []) :
    commaJoin (item :: items) ≠ [] := by
  unfold commaJoin Text.join
  cases items with
  | nil => simpa [List.intercalate] using h
  | cons next items => simp [List.intercalate, List.intersperse, h]

/-- A list ends as its last item does. -/
theorem last_commaJoin {p : Char → Bool} {items : List Text} (hne : ∀ item ∈ items, item ≠ [])
    (h : ∀ item ∈ items, ∀ c ∈ item.getLast?, p c = false) :
    ∀ c ∈ (commaJoin items).getLast?, p c = false := by
  induction items with
  | nil => simp [commaJoin, Text.join]
  | cons item items ih =>
    obtain ⟨hitem, hrest⟩ := List.forall_mem_cons.1 h
    obtain ⟨-, hnext⟩ := List.forall_mem_cons.1 hne
    cases items with
    | nil => simpa [commaJoin, Text.join] using hitem
    | cons next items =>
      have hjoin : commaJoin (item :: next :: items) =
          item ++ ", ".toList ++ commaJoin (next :: items) := by
        unfold commaJoin Text.join
        rw [List.intercalate_cons_cons]
      rw [hjoin, List.getLast?_append_of_ne_nil _ (commaJoin_ne_nil items (hnext next (by simp)))]
      exact ih hnext hrest

/-- The list of a verdict that is not compliant does not read as nothing. -/
theorem commaJoin_violations {code : Text} {target : Target}
    (h : (validate code target).compliant = false) :
    commaJoin (validate code target).violations ≠ [] := by
  cases hv : (validate code target).violations with
  | nil =>
    rw [← compliant_iff, h] at hv
    cases hv
  | cons violation rest =>
    have hmem : violation ∈ (validate code target).violations := by
      rw [hv]
      exact List.mem_cons_self
    apply commaJoin_ne_nil
    exact violations_ne_nil hmem

end BlockSafe
