import BlockSafe.Text.Basic

/-!
# Excerpts

The program in the editor goes into the prompt, and a long one is cut in the middle.  An excerpt
keeps the start and the end of the program around a marker; of the room that the marker leaves,
thirteen parts in twenty go to the start.
-/

namespace BlockSafe

/-- A program as it is quoted in a prompt. -/
structure Excerpt where
  text : Text
  truncated : Bool
  omitted : Nat
deriving DecidableEq, Repr

/-- What stands in place of the omitted middle. -/
def truncationMarker : Text := "\n// ... CURRENT_CODE_TRUNCATED ...\n"

/-- The room for the start of a program, out of the room for both ends. -/
def headShare (room : Nat) : Nat := room * 13 / 20

/-- The start and the end of `code` that fit into `room` characters, without white space next to
the cut. -/
def keptEnds (code : Text) (room : Nat) : Text × Text :=
  (Text.trimEnd (code.take (headShare room)),
    Text.trimStart (code.drop (code.length - (room - headShare room))))

/-- The excerpt of `code` with at most `limit` characters; a limit of zero sets none, and one
below the length of the marker leaves no room for the program. A blank program has an empty
excerpt. -/
def excerpt (code : Text) (limit : Int) (marker : Text := truncationMarker) : Excerpt :=
  if Text.isBlank code then ⟨[], false, 0⟩
  else if limit = 0 ∨ code.length ≤ limit then ⟨code, false, 0⟩
  else
    let (head, tail) := keptEnds code (limit - marker.length).toNat
    ⟨head ++ marker ++ tail, true, code.length - head.length - tail.length⟩

end BlockSafe
