import BlockSafe.Json.Reader
import BlockSafe.Json.Writer
import BlockSafe.Reply.Fence
import BlockSafe.Reply.Notes
import BlockSafe.Text.Mask

/-!
# Reply envelopes

A provider is asked for one object with the fields `feedback` and `code`, and often wraps it in
prose or a fence.  The envelope is looked for in the whole reply, in its first data block and in
its balanced objects, in this order; the first candidate that reads as an object with a `code`
field is taken.  A reply without an envelope is taken for a program.

A candidate that nests deeper than the limits allow ends the reading of the reply, and so does an
envelope whose `code` is too deep to be joined.
-/

namespace BlockSafe

/-- What a reply holds: notes and a program in canonical form. -/
structure Reply where
  feedback : List Text
  code : Text
deriving DecidableEq, Repr

/-! ## Finding the envelope -/

/-- The texts that may be the envelope, in order of preference. -/
def envelopeCandidates (s : Text) : List Text :=
  let block := match dataBlock? s with
    | some body => if body.isEmpty then [] else [body]
    | none => []
  s :: block ++ balancedObjects s

/-- The fields of an object that has a `code` field.  A text that is no value is passed over; one
that is too deep ends the search. -/
def envelopeFields (limits : Limits) (candidate : Text) : Except Excess (Option Fields) :=
  match Json.read limits.reading candidate with
  | .ok (.object fields) =>
    .ok (if (Fields.get? fields "code").isSome then some fields else none)
  | .error (.tooDeep opening) => .error (.reading opening)
  | _ => .ok none

/-- The fields of the first envelope among some candidates. -/
def firstEnvelope (limits : Limits) : List Text → Except Excess (Option Fields)
  | [] => .ok none
  | candidate :: rest =>
    match envelopeFields limits candidate.trim with
    | .ok none => firstEnvelope limits rest
    | found => found

/-- The fields of the envelope in a reply. -/
def envelope (limits : Limits) (reply : Text) : Except Excess (Option Fields) :=
  firstEnvelope limits (envelopeCandidates (Text.trim reply))

/-! ## Reading it -/

mutual

/-- The text of a `code` value, with so much room: a list is joined with commas, an object, number
or truth value is written out.  No limit is set to the digits of a number, as none was read that has
too many. -/
def codeText (perList : Nat) : Nat → Json → Except Excess Text
  | _, .null => .ok []
  | _, .str s => .ok s
  | room, .list items =>
    if room < perList then .error .joining else codeTexts perList (room - perList) items
  | room, value => if room < value.depth then .error .writing else .ok value.write

/-- The texts of the items of a list, joined with commas. -/
def codeTexts (perList : Nat) : Nat → List Json → Except Excess Text
  | _, [] => .ok []
  | room, [item] => codeText perList room item
  | room, item :: items => do
    let first ← codeText perList room item
    let rest ← codeTexts perList room items
    return first ++ ',' :: rest

end

/-- The notes in a `feedback` value; a single one need not stand in a list. -/
def feedbackItems : Option Json → List Json
  | none | some .null => []
  | some (.list items) => items
  | some value => [value]

/-- The notes and the program of a reply.  The notes need no limit: they are shown with more room
than they were read with. -/
def Reply.ofText (limits : Limits) (reply : Text) : Except Excess Reply := do
  match ← envelope limits reply with
  | some fields =>
    let code ← codeText limits.perList limits.writing ((Fields.get? fields "code").getD .null)
    return ⟨distinctNotes (feedbackItems (Fields.get? fields "feedback")), programOf code⟩
  | none => return ⟨[], programOf reply⟩

end BlockSafe
