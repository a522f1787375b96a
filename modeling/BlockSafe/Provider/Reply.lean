import BlockSafe.Json.Basic
import BlockSafe.Provider.Registry
import BlockSafe.Text.Case

/-!
# Texts of model replies

A chat model replies with a text or a list of parts, some of them texts.  Gemini also says in the
metadata of a reply whether it was blocked; a blocked reply has no text.  Content that has no parts
and metadata that are no object are errors, and so is what cannot be shown within the limits where a
text is expected.
-/

namespace BlockSafe

/-- The reply of a chat model. -/
structure ModelReply where
  content : Json
  /-- Absent if the reply carries none. -/
  metadata : Json

/-- Why no text can be taken from a reply. -/
inductive ReplyError where
  /-- The content is no text and has no parts. -/
  | noParts (content : Json)
  /-- The metadata are no object. -/
  | noFields (metadata : Json)
  /-- A part or the finish reason cannot be shown as a text. -/
  | beyond (excess : Excess)

/-- What is shown for a reply that no text can be taken from. -/
def ReplyError.message : ReplyError → Text
  | noParts content => '\'' :: content.kindWord ++ "' object is not iterable".toList
  | noFields metadata => '\'' :: metadata.kindWord ++ "' object has no attribute 'get'".toList
  | beyond excess => excess.message

/-! ## Content -/

/-- The text of one part of a reply. -/
def partText (limits : Limits) : Json → Except Excess Text
  | .str s => .ok s
  | .object fields => ((Fields.get? fields "text").getD .null).plainWithin limits
  | _ => .ok []

/-- The texts of several parts. -/
def partsText (limits : Limits) : List Json → Except Excess Text
  | [] => .ok []
  | part :: parts => do
    let first ← partText limits part
    let rest ← partsText limits parts
    return first ++ rest

/-- The text of the content of a reply: a text itself, the texts among several parts, or the names
of an object. -/
def contentText (limits : Limits) : Json → Except ReplyError Text
  | .str s => .ok s
  | .list parts => (partsText limits parts).mapError .beyond
  | .object fields => .ok (fields.flatMap (·.1))
  | content => .error (.noParts content)

/-! ## Metadata -/

/-- Whether a reason for blocking means that nothing was blocked. -/
def meansUnblocked : Json → Bool
  | .null => true
  | .bool b => !b
  | .num n => n.isZero
  | .str s => s.isEmpty || s == "BLOCK_REASON_UNSPECIFIED".toList
  | _ => false

/-- Whether the finish reason speaks of blocking. -/
def finishBlocked (limits : Limits) (metadata : Json) : Except Excess Bool :=
  (((metadata.field? "finish_reason").getD .null).plainWithin limits).map fun reason =>
    Text.occursIn "BLOCK" (Text.upper reason)

/-- Whether the prompt was blocked. -/
def promptBlocked (metadata : Json) : Bool :=
  match metadata.field? "prompt_feedback" with
  | some (.object feedback) =>
    ((Fields.get? feedback "blocked").any (!·.isVoid))
      || !meansUnblocked ((Fields.get? feedback "block_reason").getD .null)
  | _ => false

/-- Whether metadata are absent or an object. -/
def hasFields (metadata : Json) : Bool :=
  metadata.isVoid || match metadata with
    | .object _ => true
    | _ => false

/-! ## Replies -/

/-- The text of a reply of Gemini. -/
def geminiText (limits : Limits) (reply : ModelReply) : Except ReplyError Text :=
  if !hasFields reply.metadata then .error (.noFields reply.metadata)
  else match finishBlocked limits reply.metadata with
    | .error excess => .error (.beyond excess)
    | .ok blocked =>
      if blocked || promptBlocked reply.metadata then .ok []
      else (contentText limits reply.content).map Text.trim

/-- The text of a reply. -/
def Vendor.replyText (vendor : Vendor) (limits : Limits) (reply : ModelReply) :
    Except ReplyError Text :=
  match vendor with
  | gemini => geminiText limits reply
  | _ => contentText limits reply.content

end BlockSafe
