import BlockSafe.Proofs.Reply.Canonical
import BlockSafe.Proofs.Rule.Sites
import BlockSafe.Proofs.Text.Mask
import BlockSafe.Verdict

/-!
# Verdicts across line breaks

A program is judged the same with line feeds and with carriage returns and line feeds
(`validate_crlf`): every phase reports the same violations in the same order (`inspect_crlf`).

The phases see a break in different ways.  Patterns do not tell its two spellings apart; the masks
blank the same characters; what is collected is the same but for the breaks inside it; and the rules
on nesting read lines, in which no break is left.  Only this last phase needs a program without
carriage returns, because one alone is a break of its own.
-/

namespace BlockSafe

open Text

theorem lines_crlf {code : Text} (h : '\r' ∉ code) : Text.lines (crlf code) = Text.lines code := by
  unfold Text.lines
  rw [(returned_crlf h).unifyBreaks_eq, unifyBreaks_eq_self h]

theorem checkLines_crlf {code : Text} (h : '\r' ∉ code) :
    checkLines (crlf code) = checkLines code := by
  unfold checkLines
  rw [lines_crlf h]

theorem occurringRules_crlf {rules : List ConstructRule}
    (h : ∀ rule ∈ rules, rule.pattern.Unbroken) (s : Text) :
    occurringRules rules (crlf s) = occurringRules rules s := by
  unfold occurringRules
  rw [List.filter_congr fun rule hrule => h rule hrule s]

theorem commonPhases_crlf {code : Text} (h : '\r' ∉ code) :
    commonPhases (crlf code) = commonPhases code := by
  unfold commonPhases
  rw [occurringRules_crlf unbroken_syntaxRules, blankStrings_crlf,
    occurringRules_crlf unbroken_literalRules, unbroken_bitwise, unbroken_forIn,
    checkForLoops_crlf, checkLines_crlf h]

theorem microbitPhases_crlf (code : Text) : microbitPhases (crlf code) = microbitPhases code := by
  unfold microbitPhases
  rw [blankNonCode_crlf, checkMembers_crlf, checkCalls_crlf]

theorem asciiPhase_crlf (code : Text) : asciiPhase (crlf code) = asciiPhase code := by
  unfold asciiPhase
  rw [all_crlf (by decide)]

/-- The same violations are reported, in the same order. -/
theorem inspect_crlf {code : Text} (h : '\r' ∉ code) (target : Target) :
    inspect (crlf code) target = inspect code target := by
  unfold inspect
  rw [unbroken_foreign, commonPhases_crlf h, microbitPhases_crlf, asciiPhase_crlf]

/-- **Verdicts do not depend on how line breaks are written.**  With a carriage return before every
line feed, a program is as compliant as before, and the same tags are listed in the same order. -/
theorem validate_crlf {code : Text} (h : '\r' ∉ code) (target : Target) :
    validate (crlf code) target = validate code target := by
  unfold validate
  rw [inspect_crlf h]

/-- A handler over three lines. -/
theorem validate_crlf_handler :
    let code : Text := "basic.forever(function () \x7b\n    led.toggle(2, 2)\n\x7d)"
    '\r' ∉ code ∧ validate (crlf code) .microbit = validate code .microbit :=
  ⟨by decide, validate_crlf (by decide) .microbit⟩

end BlockSafe
