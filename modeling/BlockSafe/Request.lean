import BlockSafe.Schema.Reading
import BlockSafe.Target.Basic

/-!
# Requests

What the editor asks for: a target, an instruction, the program that is open, and the diagnostics
and the dialog that the editor shows.  Every field is brought into a normal form when a request
is read: texts are trimmed or collapsed, diagnostics are clipped to the first few, and names are
in lower case.  Almost any value is accepted; only an instruction without text is refused.
-/

namespace BlockSafe

/-! ## The dialog -/

/-- The dialog that the editor shows when a program does not convert to blocks. -/
structure Dialog where
  title : Text
  description : Text
deriving DecidableEq, Repr

namespace Dialog

/-- The longest title. -/
def maxTitle : Nat := 220

/-- The longest description. -/
def maxDescription : Nat := 320

/-- The first `limit` characters of the words of a value. -/
def clip (limit : Nat) (value : Json) : Text := (Text.collapse value.plain).take limit

/-- Reads a dialog; absent fields are empty. -/
def ofFields (fields : Fields) : Checked Dialog :=
  .ok ⟨clip maxTitle ((Fields.get? fields "title").getD .null),
    clip maxDescription ((Fields.get? fields "description").getD .null)⟩

/-- The fields of a dialog. -/
def toFields (dialog : Dialog) : Fields :=
  [("title", .str dialog.title), ("description", .str dialog.description)]

/-- Whether the dialog says nothing. -/
def isEmpty (dialog : Dialog) : Bool := dialog.title.isEmpty && dialog.description.isEmpty

end Dialog

/-! ## The request -/

/-- A request for a program. -/
structure Request where
  target : Target
  instruction : Text
  existingCode : Text
  pageErrors : List Text
  dialog : Option Dialog
  provider : Option Text
  model : Option Text
deriving DecidableEq, Repr

namespace Request

/-- The most diagnostics that are kept. -/
def maxPageErrors : Nat := 8

/-- The text of a value, if it is one. -/
def codeOf : Json → Text
  | .str s => s
  | _ => []

/-- The first diagnostics of a list that have any words. -/
def pageErrorsOf : Json → List Text
  | .list items =>
    ((items.map fun item => Text.collapse item.plain).filter (!·.isEmpty)).take maxPageErrors
  | _ => []

/-- A text, or nothing if it is empty. -/
def nonempty? (s : Text) : Option Text := if s.isEmpty then none else some s

/-- Reads a request. -/
def ofFields (fields : Fields) : Checked Request :=
  let given (key : Text) : Json := (Fields.get? fields key).getD .null
  Checked.pure Request.mk
    |>.and (.ok (Target.ofValue (given "target")))
    |>.and (Read.required fields "instruction" fun value =>
        Read.nonemptyText (.str (Text.trim value.plain)))
    |>.and (.ok (codeOf (given "existing_code")))
    |>.and (.ok (pageErrorsOf (given "page_errors")))
    |>.and (Read.optional fields "dialog_note" none
        (Read.nullable (Read.object "ConversionDialog" Dialog.ofFields)))
    |>.and (.ok (nonempty? (Text.lower (Text.trim (given "provider_override").plain))))
    |>.and (.ok (nonempty? (Text.trim (given "model_override").plain)))

/-- A text that may be absent, as a value. -/
def optionalText : Option Text → Json
  | some s => .str s
  | none => .null

/-- The fields of a request. -/
def toFields (request : Request) : Fields :=
  [("target", .str request.target.word),
   ("instruction", .str request.instruction),
   ("existing_code", .str request.existingCode),
   ("page_errors", .list (request.pageErrors.map .str)),
   ("dialog_note", match request.dialog with
     | some dialog => .object dialog.toFields
     | none => .null),
   ("provider_override", optionalText request.provider),
   ("model_override", optionalText request.model)]

end Request

end BlockSafe
