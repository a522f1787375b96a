import BlockSafe.Proofs.Rule.Gaps
import BlockSafe.Proofs.Text.Comments
import BlockSafe.Proofs.Text.Mask

/-!
# What the rules on blanked programs see of a string

The literals are looked for in the program with the contents of its strings blanked, and the members
and calls in the program with its comments blanked as well.  Of a string that opens in code either
pass leaves its quotes, with white space between them (`blankMasked_string`).  So these rules see
nothing of its contents, neither its length nor quotes of another kind, marks of comments, brackets
and commas in it (`contents_unseen`).
-/

namespace BlockSafe

open Pattern Text

variable {rules : MaskRules} {region : Region} {q : Char} {a b s : Text}

/-! ## Masks -/

/-- What is left of the contents of a string. -/
def blanked (s : Text) : Text := s.map fun c => blankChar (c, true)

theorem blank_blanked (s : Text) : Blank (blanked s) :=
  List.forall_mem_map.2 fun c _ => isSpace_blankChar c

/-- What stands before a quote is blanked as it is without the rest of the text. -/
theorem view_append_quote (hslash : q ≠ '/') (hstar : q ≠ '*') (a t : Text) :
    view rules region (a ++ q :: t) =
      view rules region a ++ view rules (regionAfter rules region none a) (q :: t) := by
  induction a generalizing region with
  | nil => rfl
  | cons c a ih =>
    have hstep : region.step rules c (a ++ q :: t).head? = region.step rules c a.head? := by
      cases a with
      | nil => exact step_congr (by simp [hslash]) (by simp [hstar]) region c
      | cons d a => rfl
    rw [List.cons_append, view_cons, view_cons, hstep, ih, regionAfter, Option.or_none]
    rfl

/-- A string is blanked up to the first quote of its kind, if no backslash stands before it. -/
theorem view_string (hs : ∀ c ∈ s, c ≠ q ∧ c ≠ '\\') (hq : q ≠ '\\') (b : Text) :
    view rules (.string q) (s ++ q :: b) = blanked s ++ q :: view rules .code b := by
  induction s with
  | nil =>
    have hstep : ∀ next, (Region.string q).step rules q next = (false, .code) := by
      simp [Region.step, hq]
    rw [List.nil_append, view_cons, hstep]
    rfl
  | cons c s ih =>
    obtain ⟨⟨hquote, hescape⟩, hs⟩ := List.forall_mem_cons.1 hs
    have hstep : ∀ next, (Region.string q).step rules c next = (true, .string q) := by
      simp [Region.step, hquote, hescape]
    rw [List.cons_append, view_cons, hstep, ih hs]
    rfl

/-- Of a string that opens in code, its quotes are left, with white space between them. -/
theorem blankMasked_string (hq : q ∈ programQuotes) (comments : Bool)
    (ha : regionAfter ⟨programQuotes, comments⟩ .code none a = .code)
    (hs : ∀ c ∈ s, c ≠ q ∧ c ≠ '\\') (b : Text) :
    blankMasked ⟨programQuotes, comments⟩ (a ++ q :: (s ++ q :: b)) =
      (blankMasked ⟨programQuotes, comments⟩ a ++ [q]) ++
        (blanked s ++ q :: blankMasked ⟨programQuotes, comments⟩ b) := by
  have hmarks : ∀ q ∈ programQuotes, q ≠ '/' ∧ q ≠ '*' ∧ q ≠ '\\' := by decide
  obtain ⟨hslash, hstar, hescape⟩ := hmarks q hq
  have hstep : ∀ next, Region.code.step ⟨programQuotes, comments⟩ q next = (false, .string q) := by
    simp [Region.step, hslash, hq]
  show view _ _ _ = _
  rw [view_append_quote hslash hstar, ha, view_cons, hstep, view_string hs hescape,
    List.append_assoc]
  rfl

/-! ## Reports -/

/-- **The rules on blanked programs see nothing of a string.**  Where a quote opens a string for
both passes, the contents of the string, up to the next quote of its kind and without backslashes,
do not change which literals are found, nor what is reported of members and calls. -/
theorem contents_unseen (hq : q ∈ programQuotes) {s₁ s₂ : Text}
    (ha : ∀ comments, regionAfter ⟨programQuotes, comments⟩ .code none a = .code)
    (h₁ : ∀ c ∈ s₁, c ≠ q ∧ c ≠ '\\') (h₂ : ∀ c ∈ s₂, c ≠ q ∧ c ≠ '\\') (b : Text) :
    (∀ rule ∈ literalRules, rule.pattern.occurs (blankStrings (a ++ q :: (s₁ ++ q :: b))) =
      rule.pattern.occurs (blankStrings (a ++ q :: (s₂ ++ q :: b)))) ∧
    checkMembers (blankNonCode (a ++ q :: (s₁ ++ q :: b))) =
      checkMembers (blankNonCode (a ++ q :: (s₂ ++ q :: b))) ∧
    checkCalls (blankNonCode (a ++ q :: (s₁ ++ q :: b))) =
      checkCalls (blankNonCode (a ++ q :: (s₂ ++ q :: b))) := by
  have hblank₁ := blank_blanked s₁
  have hblank₂ := blank_blanked s₂
  unfold blankStrings blankNonCode
  simp only [blankMasked_string hq _ (ha _) h₁, blankMasked_string hq _ (ha _) h₂]
  refine ⟨fun rule hrule => ?literals, ?members, ?calls⟩
  case literals => exact occurs_literal_gap hrule hq hblank₁ hblank₂ _ _
  case members => rw [checkMembers_gap hq hblank₁, checkMembers_gap hq hblank₂]
  case calls => exact checkCalls_gap hq hblank₁ hblank₂ _ _

/-- A text with an apostrophe, a bracket, a comma, a literal and slashes in it is like an empty
one. -/
theorem contents_unseen_empty :
    let code : Text → Text := fun s =>
      "basic.showString(".toList ++ '"' :: (s ++ '"' :: ", 100)".toList)
    let s : Text := "it's (a, null) // b"
    (∀ rule ∈ literalRules, rule.pattern.occurs (blankStrings (code s)) =
      rule.pattern.occurs (blankStrings (code []))) ∧
    checkMembers (blankNonCode (code s)) = checkMembers (blankNonCode (code [])) ∧
    checkCalls (blankNonCode (code s)) = checkCalls (blankNonCode (code [])) := by
  intro code s
  have hquote : '"' ∈ programQuotes := by decide
  have ha : ∀ comments,
      regionAfter ⟨programQuotes, comments⟩ .code none "basic.showString(".toList = .code := by
    decide
  have hs : ∀ c ∈ s, c ≠ '"' ∧ c ≠ '\\' := by decide
  exact contents_unseen hquote ha hs (fun _ hc => absurd hc List.not_mem_nil) ", 100)"

end BlockSafe
