import BlockSafe.Schema.Results

/-!
# Results pass their own checks

Replies and verdicts of any content are accepted by their readers, and so is an outcome in which
neither the program nor the list of notes is empty: reading the fields of a result gives that
result back.
-/

namespace BlockSafe

/-! ## Readers -/

theorem all_texts (notes : List Text) (n : Nat) :
    Checked.all (((notes.map Json.str).zipIdx n).map fun (item, i) =>
      (Read.text item).under (Text.ofNat i)) = .ok notes := by
  induction notes generalizing n with
  | nil => rfl
  | cons note notes ih =>
    rw [List.map_cons, List.zipIdx_cons, List.map_cons, Checked.all, ih (n + 1)]
    rfl

theorem listOf_texts (notes : List Text) :
    Read.listOf Read.text (.list (notes.map .str)) = .ok notes := all_texts notes 0

theorem nonemptyListOf_texts {notes : List Text} (h : notes ≠ []) :
    Read.nonemptyListOf Read.text (.list (notes.map .str)) = .ok notes := by
  cases notes with
  | nil => exact absurd rfl h
  | cons note notes => exact listOf_texts (note :: notes)

theorem nonemptyText_str {s : Text} (h : s ≠ []) : Read.nonemptyText (.str s) = .ok s := by
  cases s with
  | nil => exact absurd rfl h
  | cons c s => rfl

section
variable {α : Type} {fields : Fields} {key : Text} {value : Json} {a : α}
  {read : Json → Checked α}

theorem required_of_get? (hf : Fields.get? fields key = some value) (hr : read value = .ok a) :
    Read.required fields key read = .ok a := by
  unfold Read.required
  rw [hf]
  simp only [hr]
  rfl

theorem optional_of_get? {default : α} (hf : Fields.get? fields key = some value)
    (hr : read value = .ok a) : Read.optional fields key default read = .ok a := by
  unfold Read.optional
  rw [hf]
  simp only [hr]
  rfl

end

/-! ## Results -/

theorem get?_first (fields : Fields) (key : Text) (value : Json) :
    Fields.get? ((key, value) :: fields) key = some value := by
  simp [Fields.get?]

theorem get?_later {fields : Fields} {key other : Text} {value : Json} (h : key ≠ other) :
    Fields.get? ((other, value) :: fields) key = Fields.get? fields key := by
  simp [Fields.get?, List.lookup_cons, beq_false_of_ne h]

theorem Reply.ofFields_toFields (reply : Reply) : Reply.ofFields reply.toFields = .ok reply := by
  unfold Reply.ofFields Reply.toFields
  rw [optional_of_get? (get?_first _ _ _) (listOf_texts reply.feedback),
    optional_of_get? (a := reply.code) ((get?_later (by decide)).trans (get?_first _ _ _)) rfl]
  rfl

theorem Verdict.ofFields_toFields (verdict : Verdict) :
    Verdict.ofFields verdict.toFields = .ok verdict := by
  unfold Verdict.ofFields Verdict.toFields
  rw [required_of_get? (a := verdict.compliant) (get?_first _ _ _) rfl,
    optional_of_get? ((get?_later (by decide)).trans (get?_first _ _ _))
      (listOf_texts verdict.violations)]
  rfl

theorem Outcome.ofFields_toFields {outcome : Outcome} (hc : outcome.code ≠ [])
    (hf : outcome.feedback ≠ []) : Outcome.ofFields outcome.toFields = .ok outcome := by
  unfold Outcome.ofFields Outcome.toFields
  rw [required_of_get? (get?_first _ _ _) (nonemptyText_str hc),
    required_of_get? ((get?_later (by decide)).trans (get?_first _ _ _))
      (nonemptyListOf_texts hf)]
  rfl

end BlockSafe
