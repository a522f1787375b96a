import BlockSafe.Reply.Envelope
import BlockSafe.Schema.Reading
import BlockSafe.Verdict

/-!
# Reading results

Replies, verdicts and outcomes as fields, read with the same care as requests.
-/

namespace BlockSafe

/-- The program and the notes that a generation hands back; neither is empty. -/
structure Outcome where
  code : Text
  feedback : List Text
deriving DecidableEq, Repr

namespace Reply

/-- Reads a reply; both fields may be absent. -/
def ofFields (fields : Fields) : Checked Reply :=
  Checked.pure Reply.mk
    |>.and (Read.optional fields "feedback" [] (Read.listOf Read.text))
    |>.and (Read.optional fields "code" [] Read.text)

/-- The fields of a reply. -/
def toFields (reply : Reply) : Fields :=
  [("feedback", .list (reply.feedback.map .str)), ("code", .str reply.code)]

end Reply

namespace Verdict

/-- Reads a verdict; the violations may be absent. -/
def ofFields (fields : Fields) : Checked Verdict :=
  Checked.pure Verdict.mk
    |>.and (Read.required fields "compliant" Read.truth)
    |>.and (Read.optional fields "violations" [] (Read.listOf Read.text))

/-- The fields of a verdict. -/
def toFields (verdict : Verdict) : Fields :=
  [("compliant", .bool verdict.compliant), ("violations", .list (verdict.violations.map .str))]

end Verdict

namespace Outcome

/-- Reads an outcome. -/
def ofFields (fields : Fields) : Checked Outcome :=
  Checked.pure Outcome.mk
    |>.and (Read.required fields "code" Read.nonemptyText)
    |>.and (Read.required fields "feedback" (Read.nonemptyListOf Read.text))

/-- The fields of an outcome. -/
def toFields (outcome : Outcome) : Fields :=
  [("code", .str outcome.code), ("feedback", .list (outcome.feedback.map .str))]

end Outcome

end BlockSafe
