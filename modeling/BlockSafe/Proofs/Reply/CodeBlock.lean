import BlockSafe.Proofs.Reply.DataBlock
import BlockSafe.Proofs.Reply.Edges

/-!
# The first code block

The first code block of a reply is its program, whatever stands around it: the text before it may
end in backquotes, so may the body, and behind the closing fence other blocks may follow.

    programOf (lead ++ (fence ++ (info ++ '\n' :: (body ++ (fence ++ follow))))) = canonical body
                                                                             (first_code_block)

Backquotes next to a fence shift it.  Where the text before the block ends in some, four or five
stand in a row, and a block opens only at the last three of them (`codeBlockAt?_early`).  Where the
body ends in some, the closing fence starts within it, so that what is found is the body without
them (`beforeFence?_body`).  The canonical form does not see the difference.
-/

namespace BlockSafe

variable {lead info body follow : Text}

/-! ## Backquotes next to a fence -/

/-- Backquotes before a fence may as well stand behind it. -/
theorem backquotes_fence {w : Text} (hw : ∀ c ∈ w, c = '\x60') (s : Text) :
    w ++ (fence ++ s) = fence ++ (w ++ s) := by
  rw [← List.append_assoc, ← List.append_assoc, List.eq_replicate_of_mem hw, fence_eq_replicate,
    List.replicate_append_replicate, List.replicate_append_replicate, Nat.add_comm]

/-- What stands before the first fence behind a body without fences. -/
theorem beforeFence?_body (hbody : ¬ fence <:+: body) (s : Text) :
    beforeFence? (body ++ (fence ++ s)) = some (Text.dropEndWhile (· == '\x60') body) := by
  have hlast := Text.last_dropEndWhile (· == '\x60') body
  obtain ⟨w, hsplit, hw⟩ := Text.dropEndWhile_split (· == '\x60') body
  generalize Text.dropEndWhile (· == '\x60') body = inner at hlast hsplit ⊢
  rw [hsplit, List.append_assoc, backquotes_fence (fun c hc => eq_of_beq (hw c hc)), beforeFence?]
  rcases List.eq_nil_or_concat inner with rfl | ⟨inner, c, rfl⟩
  · rfl
  · rw [List.concat_eq_append] at hlast hsplit ⊢
    have hinner : ¬ fence <:+: inner := by
      intro h
      rw [hsplit, List.append_assoc] at hbody
      exact hbody (h.trans (List.prefix_append _ _).isInfix)
    have hc : c ≠ '\x60' := by simpa using hlast c (by simp)
    rw [List.append_assoc, List.singleton_append, cut?_fence hinner hc]
    rfl

/-! ## Where the block opens -/

/-- A block opens at a fence with a line of its own behind it. -/
theorem codeBlockAt?_fence (hinfo : ∀ c ∈ info, c ≠ '\n' ∧ c ≠ '\x60') (s : Text) :
    codeBlockAt? (fence ++ (info ++ '\n' :: s)) = beforeFence? s := by
  have hfence : Text.after? fence (fence ++ (info ++ '\n' :: s)) = some (info ++ '\n' :: s) :=
    Text.after?_eq_some.2 rfl
  have hline : (info ++ '\n' :: s).dropWhile (fun c => c != '\n' && c != '\x60') = '\n' :: s := by
    refine Text.dropWhile_eq_iff.2 ⟨info, fun c hc => ?_, by simp, rfl⟩
    simpa using hinfo c hc
  unfold codeBlockAt?
  rw [hfence]
  dsimp only
  rw [hline]
  rfl

/-- Before a fence no block opens: three backquotes that reach into the fence have a fourth one
behind them. -/
theorem codeBlockAt?_early {q : Text} (hne : q ≠ []) (hq : ¬ fence <:+: q) (s : Text) :
    codeBlockAt? (q ++ (fence ++ s)) = none := by
  unfold codeBlockAt?
  cases hafter : Text.after? fence (q ++ (fence ++ s)) with
  | none => rfl
  | some rest =>
    have hsplit : q ++ (fence ++ s) = fence ++ rest := Text.after?_eq_some.1 hafter
    have hquotes : ∀ c ∈ q, c = '\x60' := by
      rcases List.prefix_or_prefix_of_prefix (List.prefix_append q (fence ++ s))
        ⟨rest, hsplit.symm⟩ with h | h
      · exact fun c hc => mem_fence.1 (h.subset hc)
      · exact absurd h.isInfix hq
    rw [backquotes_fence hquotes] at hsplit
    obtain ⟨c, q, rfl⟩ := List.exists_cons_of_ne_nil hne
    rw [← List.append_cancel_left hsplit, hquotes c List.mem_cons_self]
    rfl

/-! ## Main result -/

/-- The first block behind text without fences, with a body without fences. -/
theorem codeBlock?_fenced (hlead : ¬ fence <:+: lead) (hinfo : ∀ c ∈ info, c ≠ '\n' ∧ c ≠ '\x60')
    (hbody : ¬ fence <:+: body) (follow : Text) :
    codeBlock? (lead ++ (fence ++ (info ++ '\n' :: (body ++ (fence ++ follow))))) =
      some (Text.dropEndWhile (· == '\x60') body) := by
  have hpass : ∀ p q, lead = p ++ q → q ≠ [] →
      codeBlockAt? (q ++ (fence ++ (info ++ '\n' :: (body ++ (fence ++ follow))))) = none := by
    rintro p q rfl hne
    exact codeBlockAt?_early hne (fun h => hlead (h.trans (List.suffix_append p q).isInfix)) _
  unfold codeBlock?
  rw [findFirst_pass hpass]
  apply findFirst_eq_some
  rw [codeBlockAt?_fence hinfo, beforeFence?_body hbody]

/-- **The first fenced block is the program**, also where backquotes at the end of the text before
it or of its body run into a fence. -/
theorem first_code_block (hlead : ¬ fence <:+: lead)
    (hinfo : ∀ c ∈ info, c ≠ '\n' ∧ c ≠ '\x60') (hbody : ¬ fence <:+: body) (follow : Text) :
    programOf (lead ++ (fence ++ (info ++ '\n' :: (body ++ (fence ++ follow))))) =
      canonical body := by
  obtain ⟨w, hsplit, hw⟩ := Text.dropEndWhile_split (· == '\x60') body
  unfold programOf
  rw [codeBlock?_fenced hlead hinfo hbody, Option.getD_some]
  conv_rhs => rw [hsplit, canonical_append_backquotes fun c hc => eq_of_beq (hw c hc)]

/-- A block with backquotes before both of its fences, a carriage return at the end of its opening
line, and another block behind it. -/
theorem first_code_block_crowded :
    ¬ fence <:+: "so \x60\x60".toList ∧ (∀ c ∈ "ts\r".toList, c ≠ '\n' ∧ c ≠ '\x60') ∧
      ¬ fence <:+: "\x60\x60 let x = 0\x60".toList ∧
      programOf ("so \x60\x60".toList ++ (fence ++ ("ts\r".toList ++ '\n' ::
        ("\x60\x60 let x = 0\x60".toList ++ (fence ++ "\n\x60\x60\x60\nlet y\x60\x60\x60".toList))))) =
          "let x = 0" := by
  have hlead : ¬ fence <:+: "so \x60\x60".toList := by decide +kernel
  have hinfo : ∀ c ∈ "ts\r".toList, c ≠ '\n' ∧ c ≠ '\x60' := by decide +kernel
  have hbody : ¬ fence <:+: "\x60\x60 let x = 0\x60".toList := by decide +kernel
  have hcanonical : canonical "\x60\x60 let x = 0\x60".toList = "let x = 0" := by decide +kernel
  exact ⟨hlead, hinfo, hbody, (first_code_block hlead hinfo hbody _).trans hcanonical⟩

end BlockSafe
