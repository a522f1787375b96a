import BlockSafe.Proofs.Text.LineBreaks
import BlockSafe.Proofs.Text.Scan

/-!
# Masks across line breaks

A carriage return before a line feed does not change which characters are masked, so blanking
commutes with the spelling of line breaks (`blankMasked_crlf`).  The pass is in the same region
behind a break of either spelling (`step_break`), because neither character of a break is a quote
or part of the marks of a comment.
-/

namespace BlockSafe

open Text

/-- No string ends at a break. -/
def Region.Unbroken : Region → Prop
  | string quote | escape quote => ¬ IsBreak quote
  | _ => True

theorem unbroken_iff {region : Region} : region.Unbroken ↔ region.EndsIn (¬ IsBreak ·) := by
  cases region <;> exact Iff.rfl

section
variable {rules : MaskRules} (hrules : ∀ quote ∈ rules.quotes, ¬ IsBreak quote)
include hrules

theorem step_unbroken {region : Region} (h : region.Unbroken) (c : Char) (next : Option Char) :
    (region.step rules c next).2.Unbroken :=
  unbroken_iff.2 ((unbroken_iff.1 h).step hrules c next)

/-- Behind the two characters of a break the pass is where it is behind a line feed. -/
theorem step_break {region : Region} (h : region.Unbroken) (next next' : Option Char) :
    ((region.step rules '\r' (some '\n')).2.step rules '\n' next).2 =
      (region.step rules '\n' next').2 := by
  have hr : '\r' ∉ rules.quotes := fun hmem => hrules _ hmem (.inl rfl)
  have hn : '\n' ∉ rules.quotes := fun hmem => hrules _ hmem (.inr rfl)
  cases region with
  | code => simp [Region.step, hr, hn]
  | string quote =>
    have hr' : '\r' ≠ quote := fun heq => h (.inl heq.symm)
    have hn' : '\n' ≠ quote := fun heq => h (.inr heq.symm)
    simp [Region.step, hr', hn']
  | escape quote =>
    have hn' : '\n' ≠ quote := fun heq => h (.inr heq.symm)
    simp [Region.step, hn']
  | lineComment => simp [Region.step]
  | blockOpening => simp [Region.step]
  | blockComment => simp [Region.step]
  | blockClosing => simp [Region.step, hn]

omit hrules in
/-- Of the next character only matters whether it is the second one of a mark. -/
theorem step_congr {next next' : Option Char} (hslash : next = some '/' ↔ next' = some '/')
    (hstar : next = some '*' ↔ next' = some '*') (region : Region) (c : Char) :
    region.step rules c next = region.step rules c next' := by
  cases region with
  | code => simp only [Region.step, hslash, hstar]
  | blockComment => simp only [Region.step, hslash]
  | _ => rfl

theorem map_mark_crlf (s : Text) {region : Region} (h : region.Unbroken) :
    (mark rules region (crlf s)).map blankChar = crlf ((mark rules region s).map blankChar) := by
  induction s using break_induction generalizing region with
  | nil => rfl
  | line s ih =>
    have hafter := step_unbroken hrules h '\n' s.head?
    rw [crlf_break]
    simp only [mark, List.map_cons, List.head?_cons, step_break hrules h _ s.head?, ih hafter]
    simp [blankChar]
  | char c s hc ih =>
    have hafter := step_unbroken hrules h c s.head?
    have hstep : region.step rules c (crlf s).head? = region.step rules c s.head? :=
      step_congr (head?_crlf_eq_some (by decide)) (head?_crlf_eq_some (by decide)) region c
    have hblank : blankChar (c, (region.step rules c s.head?).1) ≠ '\n' := by
      unfold blankChar
      split
      · decide
      · exact hc
    rw [crlf_cons hc]
    simp only [mark, List.map_cons, hstep, ih hafter]
    rw [crlf_cons hblank]

/-- What is blanked does not depend on how line breaks are written. -/
theorem blankMasked_crlf (s : Text) : blankMasked rules (crlf s) = crlf (blankMasked rules s) :=
  map_mark_crlf hrules s trivial

end

theorem blankStrings_crlf (s : Text) : blankStrings (crlf s) = crlf (blankStrings s) :=
  blankMasked_crlf (forall_of_all (by decide)) s

theorem blankNonCode_crlf (s : Text) : blankNonCode (crlf s) = crlf (blankNonCode s) :=
  blankMasked_crlf (forall_of_all (by decide)) s

end BlockSafe
