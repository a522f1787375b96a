import BlockSafe.Text.Basic

/-!
# Canonical program text

Replies arrive with fences, typographic quotes, invisible characters, escaped line breaks and any
kind of line end.  `canonical` brings a text into the one form in which programs are kept;
`Canonical` describes that form without reference to the steps that lead to it.

The steps run in a fixed order: invisible characters, the fence around the whole text, escapes,
line breaks, quotes, edges.
-/

namespace BlockSafe

/-! ## Steps -/

/-- Zero-width characters and the byte order mark. -/
def isInvisible (c : Char) : Bool := (0x200B ≤ c.toNat && c.toNat ≤ 0x200D) || c == '\uFEFF'

/-- The mark that opens and closes a fenced block. -/
def fence : Text := "```"

/-- Drops a fence at the start with the rest of its line; without a later line nothing is
dropped. -/
def dropOpeningFence (s : Text) : Text :=
  match Text.after? fence s with
  | none => s
  | some rest =>
    match rest.dropWhile (· != '\n') with
    | [] => s
    | _ :: body => body

/-- Drops a fence that only white space follows, with that white space. -/
def dropClosingFence (s : Text) : Text :=
  match Text.after? fence (s.reverse.dropWhile isSpace) with
  | some body => body.reverse
  | none => s

/-- Drops the fence around a text that starts with one. -/
def dropFence (s : Text) : Text :=
  if (Text.after? fence s).isSome then dropClosingFence (dropOpeningFence s) else s

/-- Reads the four characters that spell an escaped carriage return and line feed as a line
feed. -/
def decodeEscapedBreaks : Text → Text
  | '\\' :: 'r' :: '\\' :: 'n' :: rest => '\n' :: decodeEscapedBreaks rest
  | c :: rest => c :: decodeEscapedBreaks rest
  | [] => []

/-- Reads a backslash and `letter` as `meaning`. -/
def decodeEscape (letter meaning : Char) : Text → Text
  | [] => []
  | [c] => [c]
  | c :: d :: rest =>
    if c = '\\' ∧ d = letter then meaning :: decodeEscape letter meaning rest
    else c :: decodeEscape letter meaning (d :: rest)

/-- Reads the escapes of line breaks and tabs. -/
def decodeEscapes (s : Text) : Text :=
  decodeEscape 't' '\t' (decodeEscape 'n' '\n' (decodeEscapedBreaks s))

/-- Straight quotes for curly ones and a space for a no-break space. -/
def plainChar (c : Char) : Char :=
  if c = '\u2018' ∨ c = '\u2019' then '\''
  else if c = '\u201C' ∨ c = '\u201D' then '"'
  else if c = '\u00A0' then ' '
  else c

/-- White space at both ends, then backquotes at both ends. -/
def peel (s : Text) : Text := Text.trimBoth (· == '\x60') (Text.trim s)

/-- Peels until a pass drops nothing. -/
def peelEdges (s : Text) : Text :=
  if (peel s).length < s.length then peelEdges (peel s) else s
termination_by s.length

/-- The canonical form of a text. -/
def canonical (s : Text) : Text :=
  let visible := s.filter (!isInvisible ·)
  let decoded := decodeEscapes (dropFence visible)
  peelEdges ((Text.unifyBreaks decoded).map plainChar)

/-! ## The canonical set -/

/-- The characters that no canonical text holds. -/
def isIrregular (c : Char) : Bool := isInvisible c || c == '\r' || plainChar c != c

/-- White space and backquotes, which stand at neither end of a canonical text. -/
def isEdge (c : Char) : Bool := isSpace c || c == '\x60'

/-- No irregular character, no escape of a line break or a tab, and no edge character at either
end. -/
structure Canonical (s : Text) : Prop where
  regular : ∀ c ∈ s, isIrregular c = false
  unescaped : ∀ letter ∈ ['n', 't'], ¬ ['\\', letter] <:+: s
  start : ∀ c ∈ s.head?, isEdge c = false
  finish : ∀ c ∈ s.getLast?, isEdge c = false

end BlockSafe
