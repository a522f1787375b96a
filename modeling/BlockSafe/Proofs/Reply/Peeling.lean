import BlockSafe.Proofs.Reply.Edges

/-!
# Peeling

Edges are peeled in a loop, white space and backquotes in turn, until a pass changes nothing.
`Peels s r` says that the loop comes to an end from `s` on and returns `r`.  It always does, and what
it returns is the text without the longest prefix and the longest suffix of edge characters:

    Peels s r ↔ peelEdges s = r                                          (peels_iff)
    peelEdges s = Text.trimBoth isEdge s                                 (peelEdges_eq_trimBoth)

A closing fence is such a suffix, and nothing that happens to a text between its fence and its edges
moves an edge character away from the end.  So the canonical form is the same if a closing fence is
left where it is (`canonical_eq_unclosed`).
-/

namespace BlockSafe

variable {s r : Text}

/-! ## The loop -/

/-- The loop from a text on, with what it returns. -/
inductive Peels : Text → Text → Prop where
  /-- A pass changes nothing. -/
  | done {s : Text} (h : peel s = s) : Peels s s
  /-- A pass changes the text, and the loop goes on with what is left. -/
  | pass {s r : Text} (h : peel s ≠ s) (rest : Peels (peel s) r) : Peels s r

/-- Every pass that changes a text shortens it, so the loop comes to an end. -/
theorem peels_peelEdges (s : Text) : Peels s (peelEdges s) := by
  fun_induction peelEdges s with
  | case1 s h ih =>
    refine .pass (fun heq => ?_) ih
    rw [heq] at h
    exact Nat.lt_irrefl _ h
  | case2 s h => exact .done (peel_eq_self h)

theorem Peels.peelEdges_eq (h : Peels s r) : peelEdges s = r := by
  induction h with
  | done h => rw [peelEdges, h, if_neg (Nat.lt_irrefl _)]
  | @pass s r h _ ih =>
    have hshorter : (peel s).length < s.length := by
      by_contra hlength
      exact h (peel_eq_self hlength)
    rw [peelEdges, if_pos hshorter, ih]

theorem peels_iff : Peels s r ↔ peelEdges s = r := by
  constructor
  · exact Peels.peelEdges_eq
  · rintro rfl
    exact peels_peelEdges s

/-! ## Closing fences -/

/-- The canonical form of a text, but for the step that drops a closing fence. -/
def canonicalUnclosed (s : Text) : Text :=
  let visible := s.filter (!isInvisible ·)
  let opened := if (Text.after? fence visible).isSome then dropOpeningFence visible else visible
  let decoded := decodeEscapes opened
  peelEdges ((Text.unifyBreaks decoded).map plainChar)

/-- The step that drops a closing fence can be left out. -/
theorem canonical_eq_unclosed (s : Text) : canonical s = canonicalUnclosed s := by
  rw [canonical_eq_polish, polish_dropFence]
  simp only [← isSome_afterFence]
  rfl

/-! ## Main result -/

/-- **Peeling is a single trim at both ends.**  The loop comes to an end on every text and returns
the text without its longest prefix and its longest suffix of white space and backquotes: what is
left neither starts nor ends with one, and there is nothing else around it.  So the canonical form of
a text does not depend on whether a closing fence is dropped before. -/
theorem peeling_is_trim :
    (∀ s r, Peels s r ↔ peelEdges s = r) ∧
    (∀ s, peelEdges s = Text.trimBoth isEdge s) ∧
    (∀ s r, peelEdges s = r ↔ ∃ w w', s = w ++ (r ++ w') ∧
      (∀ c ∈ w ++ w', isSpace c = true ∨ c = '\x60') ∧
      (∀ c ∈ r.head?, ¬ (isSpace c = true ∨ c = '\x60')) ∧
      ∀ c ∈ r.getLast?, ¬ (isSpace c = true ∨ c = '\x60')) ∧
    ∀ s, canonical s = canonicalUnclosed s := by
  have hedge : ∀ c, isSpace c = true ∨ c = '\x60' ↔ isEdge c = true := by
    intro c
    rw [isEdge, Bool.or_eq_true, beq_iff_eq]
  refine ⟨fun _ _ => peels_iff, peelEdges_eq_trimBoth, fun s r => ?_, canonical_eq_unclosed⟩
  rw [peelEdges_eq_trimBoth, Text.trimBoth_eq_iff]
  simp only [hedge, List.forall_mem_append, Bool.not_eq_true, and_assoc]

end BlockSafe
