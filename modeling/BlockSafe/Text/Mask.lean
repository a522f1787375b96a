import BlockSafe.Text.Basic

/-!
# Masks

A mask marks the characters of a text that stand inside a quoted string or a comment.  One pass
from left to right decides it, one character at a time, with a look at the next character where a
comment opens or closes.  The quotes around a string are not masked; the marks around a comment
are, the line break after a line comment is not.

* `Region` is the state of the pass and `Region.step` moves it on by one character;
* `mark` pairs every character with its mask, and `scan` adds the index;
* `blankStrings` and `blankNonCode` overwrite masked characters with spaces, so that what is left
  of a program keeps its place and its lines.
-/

namespace BlockSafe

/-- Where in a text a character stands. -/
inductive Region where
  | code
  /-- Inside a string that ends with `quote`. -/
  | string (quote : Char)
  /-- Inside such a string, after a backslash. -/
  | escape (quote : Char)
  | lineComment
  /-- Between the two characters that open a block comment. -/
  | blockOpening
  | blockComment
  /-- Between the two characters that close a block comment. -/
  | blockClosing
deriving DecidableEq, Repr

/-- What counts as a quote, and whether comments are masked too. -/
structure MaskRules where
  quotes : Text
  comments : Bool

namespace Region

/-- Whether `c`, followed by `next`, is masked, and the region after it. -/
def step (rules : MaskRules) (region : Region) (c : Char) (next : Option Char) : Bool × Region :=
  match region with
  | code =>
    if rules.comments ∧ c = '/' ∧ next = some '/' then (true, lineComment)
    else if rules.comments ∧ c = '/' ∧ next = some '*' then (true, blockOpening)
    else if c ∈ rules.quotes then (false, string c)
    else (false, code)
  | string quote =>
    if c = '\\' then (true, escape quote)
    else if c = quote then (false, code)
    else (true, string quote)
  | escape quote => (true, string quote)
  | lineComment => if c = '\n' then (false, code) else (true, lineComment)
  | blockOpening => (true, blockComment)
  | blockComment => if c = '*' ∧ next = some '/' then (true, blockClosing) else (true, blockComment)
  | blockClosing => (true, code)

end Region

/-- Every character of a text that starts in `region`, with its mask. -/
def mark (rules : MaskRules) (region : Region) : Text → List (Char × Bool)
  | [] => []
  | c :: rest =>
    let (masked, next) := region.step rules c rest.head?
    (c, masked) :: mark rules next rest

/-- The region after a text that starts in `region` and is followed by `next`. -/
def regionAfter (rules : MaskRules) (region : Region) (next : Option Char) : Text → Region
  | [] => region
  | c :: rest => regionAfter rules (region.step rules c (rest.head?.or next)).2 next rest

/-- The index, the character and the mask of every character. -/
def scan (rules : MaskRules) (s : Text) : List (Nat × Char × Bool) :=
  (mark rules .code s).zipIdx.map fun (m, i) => (i, m)

/-! ## Blanking -/

/-- A masked character becomes a space, a line break apart. -/
def blankChar (m : Char × Bool) : Char :=
  if m.2 && m.1 != '\r' && m.1 != '\n' then ' ' else m.1

/-- Overwrites masked characters with spaces. -/
def blankMasked (rules : MaskRules) (s : Text) : Text := (mark rules .code s).map blankChar

/-- The three quotes of the block language. -/
def programQuotes : Text := ['"', '\'', '\x60']

/-- The program without the contents of its strings. -/
def blankStrings (s : Text) : Text := blankMasked ⟨programQuotes, false⟩ s

/-- The program without the contents of its strings and its comments. -/
def blankNonCode (s : Text) : Text := blankMasked ⟨programQuotes, true⟩ s

/-! ## Objects -/

/-- The texts from an opening brace at depth zero to its closing brace, given the depth and the
characters read since the brace that opened the current text, last first. -/
def objectsFrom (depth : Nat) (read : Text) : List (Char × Bool) → List Text
  | [] => []
  | (c, masked) :: rest =>
    if !masked && c == '{' then objectsFrom (depth + 1) (c :: read) rest
    else if depth = 0 then objectsFrom 0 [] rest
    else if !masked && c == '}' then
      if depth = 1 then (c :: read).reverse :: objectsFrom 0 [] rest
      else objectsFrom (depth - 1) (c :: read) rest
    else objectsFrom depth (c :: read) rest

/-- Every balanced text in braces that is not inside another one; braces inside double-quoted
strings do not count, nor do closing braces that close nothing. -/
def balancedObjects (s : Text) : List Text := objectsFrom 0 [] (mark ⟨['"'], false⟩ .code s)

end BlockSafe
