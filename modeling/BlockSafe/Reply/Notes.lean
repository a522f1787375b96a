import BlockSafe.Json.Basic
import BlockSafe.Text.Case

/-!
# Feedback notes

A provider explains itself in notes.  Notes are trimmed, blank ones dropped, and of several that
differ only in case the first is kept.
-/

namespace BlockSafe

/-- The text of a note; null has none. -/
def noteText : Json → Text
  | .null => []
  | value => Text.trim value.display

/-- The notes whose lower-case form is not in `seen` and not repeated, in order. -/
def freshNotes (seen : List Text) : List Text → List Text
  | [] => []
  | note :: notes =>
    if note.isEmpty || seen.contains (Text.lower note) then freshNotes seen notes
    else note :: freshNotes (Text.lower note :: seen) notes

/-- The distinct notes among `items`, or the fallback if there is none and it is not empty. -/
def distinctNotes (items : List Json) (fallback : Text := []) : List Text :=
  let notes := freshNotes [] (items.map noteText)
  if notes.isEmpty && !fallback.isEmpty then [fallback] else notes

end BlockSafe
