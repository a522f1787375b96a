import BlockSafe.Rule.Call
import BlockSafe.Rule.Construct
import BlockSafe.Rule.ForLoop
import BlockSafe.Rule.Member
import BlockSafe.Rule.Nesting
import BlockSafe.Target.Profile
import BlockSafe.Text.Basic
import BlockSafe.Text.Mask

/-!
# Verdicts

Whether a program is guaranteed to be shown as blocks.  A program with a token of another target
is not looked at further.  Otherwise every phase of the inspection reports what it finds, in a
fixed order of phases, and the verdict lists each tag once, where it was first reported.
-/

namespace BlockSafe

/-- Whether a program is block-safe, and if not, why. -/
structure Verdict where
  compliant : Bool
  violations : List Text
deriving DecidableEq, Repr

namespace Verdict

/-- The verdict on a program with the given tags: it is compliant iff there is none. -/
def ofTags (tags : List Text) : Verdict := ⟨(distinct tags).isEmpty, distinct tags⟩

end Verdict

/-! ## Phases -/

/-- What is reported for every target, before the phases of micro:bit. -/
def commonPhases (code : Text) : List Violation :=
  occurringRules syntaxRules code
    ++ occurringRules literalRules (blankStrings code)
    ++ (if bitwisePattern.occurs code then [.bitwiseOperators] else [])
    ++ (if forInPattern.occurs code then [.forIn] else [])
    ++ checkForLoops code
    ++ checkLines code

/-- What is reported for micro:bit alone: members and calls, outside strings and comments. -/
def microbitPhases (code : Text) : List Violation :=
  checkMembers (blankNonCode code) ++ checkCalls (blankNonCode code)

/-- Reports a program with characters other than plain ASCII. -/
def asciiPhase (code : Text) : List Violation :=
  if code.all isPlainAscii then [] else [.nonAscii]

/-- All that is reported on a program for a target, phase by phase. -/
def inspect (code : Text) (target : Target) : List Violation :=
  if target.profile.foreign.occurs code then [target.profile.foreignViolation]
  else
    commonPhases code ++ (if target = .microbit then microbitPhases code else [])
      ++ asciiPhase code

/-- The verdict on a program for a target. -/
def validate (code : Text) (target : Target) : Verdict :=
  Verdict.ofTags ((inspect code target).map Violation.tag)

end BlockSafe
