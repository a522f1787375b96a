import BlockSafe.Text.Basic
import BlockSafe.Text.Printable

/-!
# Quoted texts

A text is quoted between single quotes, or between double quotes if it holds a single quote and
no double one.  The quote in use, the backslash and every character that is not printable are
written as escapes.
-/

namespace BlockSafe.Text

/-- The quote that encloses `s`: the double one only if it saves an escape. -/
def quoteFor (s : Text) : Char := if '\'' ∈ s ∧ '"' ∉ s then '"' else '\''

/-- One character between the quotes `q`. -/
def quoteChar (q c : Char) : Text :=
  if c = q ∨ c = '\\' then ['\\', c]
  else if c = '\t' then "\\t"
  else if c = '\n' then "\\n"
  else if c = '\r' then "\\r"
  else if isPrintable c then [c]
  else if c.toNat < 0x100 then "\\x".toList ++ hex 2 c.toNat
  else if c.toNat < 0x10000 then "\\u".toList ++ hex 4 c.toNat
  else "\\U".toList ++ hex 8 c.toNat

/-- The text between quotes, with escapes. -/
def quoted (s : Text) : Text :=
  let q := quoteFor s
  q :: s.flatMap (quoteChar q) ++ [q]

end BlockSafe.Text
