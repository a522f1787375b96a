import BlockSafe.Text.Basic
import BlockSafe.Text.Case
import BlockSafe.Text.Word

/-!
# Patterns

A small language of text patterns: single characters of a class, runs of a class, sequence,
choice, and tests of what stands on either side of a position.  Repetition is only of single
characters, so a pattern is matched by structural recursion: `Pattern.rests` lists every position
that a match from a given position can reach, and `Pattern.occurs` asks whether there is a match
anywhere in a text.

`findAll` is for the places where the matched text itself is wanted: it collects what a reader
finds, from left to right, without overlaps.
-/

namespace BlockSafe

/-- A position in a text: the character before it, if any, and what follows. -/
structure Cursor where
  before : Option Char
  rest : Text

namespace Cursor

/-- The start of a text. -/
def start (s : Text) : Cursor := ⟨none, s⟩

/-- Whether exactly one of the two neighbours is a word character. -/
def atWordEdge (c : Cursor) : Bool := c.before.any isWord != c.rest.head?.any isWord

/-- Whether a line starts here. -/
def atLineStart (c : Cursor) : Bool := c.before.all (· == '\n')

/-- Whether a line ends here. -/
def atLineEnd (c : Cursor) : Bool := c.rest.head?.all (· == '\n')

/-- Whether the text starts here. -/
def atStart (c : Cursor) : Bool := c.before.isNone

/-- Whether the text ends here. -/
def atEnd (c : Cursor) : Bool := c.rest.isEmpty

end Cursor

/-- A text pattern. -/
inductive Pattern where
  /-- One character of a class. -/
  | one (p : Char → Bool)
  /-- Any number of characters of a class. -/
  | many (p : Char → Bool)
  /-- The empty text where a condition on the position holds. -/
  | test (condition : Cursor → Bool)
  /-- One pattern after the other. -/
  | seq (first second : Pattern)
  /-- One pattern or the other. -/
  | either (left right : Pattern)

namespace Pattern

/-- The positions after zero, one, two, … characters of class `p`. -/
def runs (p : Char → Bool) (before : Option Char) : Text → List Cursor
  | [] => [⟨before, []⟩]
  | c :: rest => ⟨before, c :: rest⟩ :: if p c then runs p (some c) rest else []

/-- The positions that a match from a position can reach. -/
def rests : Pattern → Cursor → List Cursor
  | one p, ⟨_, c :: rest⟩ => if p c then [⟨some c, rest⟩] else []
  | one _, ⟨_, []⟩ => []
  | many p, ⟨before, rest⟩ => runs p before rest
  | test condition, cursor => if condition cursor then [cursor] else []
  | seq first second, cursor => (first.rests cursor).flatMap second.rests
  | either left right, cursor => left.rests cursor ++ right.rests cursor

/-- Whether a match starts at a position. -/
def matchesAt (p : Pattern) (cursor : Cursor) : Bool := !(p.rests cursor).isEmpty

/-- Whether a match starts at a position or after it. -/
def occursFrom (p : Pattern) (before : Option Char) : Text → Bool
  | [] => p.matchesAt ⟨before, []⟩
  | c :: rest => p.matchesAt ⟨before, c :: rest⟩ || occursFrom p (some c) rest

/-- Whether a match starts anywhere in the text. -/
def occurs (p : Pattern) (s : Text) : Bool := p.occursFrom none s

/-! ## Common patterns -/

/-- The empty text. -/
def nothing : Pattern := test fun _ => true

/-- The edge of a word. -/
def wordEdge : Pattern := test Cursor.atWordEdge

/-- Patterns one after the other. -/
def chain (ps : List Pattern) : Pattern := ps.foldr seq nothing

/-- One of several patterns; of none, no text. -/
def anyOf (ps : List Pattern) : Pattern := ps.foldr either (test fun _ => false)

/-- A fixed text. -/
def lit (s : Text) : Pattern := chain (s.map fun c => one (· == c))

/-- A fixed text in any mixture of cases. -/
def litAnyCase (s : Text) : Pattern := chain (s.map fun c => one (foldLetter · == foldLetter c))

/-- A fixed text that is a word of its own. -/
def word (s : Text) : Pattern := chain [wordEdge, lit s, wordEdge]

/-- A fixed text at whose start a word starts. -/
def wordStart (s : Text) : Pattern := chain [wordEdge, lit s]

/-- At least one character of a class. -/
def many1 (p : Char → Bool) : Pattern := seq (one p) (many p)

/-- White space or nothing. -/
def spaces : Pattern := many isSpace

/-- At least one character of white space. -/
def gap : Pattern := many1 isSpace

/-- An identifier. -/
def ident : Pattern := seq (one isIdentStart) (many isIdentPart)

end Pattern

/-! ## Collecting matches -/

/-- Skips `skip` characters, then collects what `read?` finds from left to right; each find is
skipped over before the next one is looked for. -/
def findAllFrom {α : Type} (read? : Cursor → Option (α × Text)) :
    Nat → Option Char → Text → List α
  | _, _, [] => []
  | skip + 1, _, c :: rest => findAllFrom read? skip (some c) rest
  | 0, before, c :: rest =>
    match read? ⟨before, c :: rest⟩ with
    | some (found, tail) => found :: findAllFrom read? (rest.length - tail.length) (some c) rest
    | none => findAllFrom read? 0 (some c) rest

/-- All that `read?` finds in a text; `read?` returns what it found and what follows. -/
def findAll {α : Type} (read? : Cursor → Option (α × Text)) (s : Text) : List α :=
  findAllFrom read? 0 none s

/-- What `read?` finds at the first position where it finds anything. -/
def findFirst {α : Type} (read? : Text → Option α) : Text → Option α
  | [] => read? []
  | c :: rest => (read? (c :: rest)).or (findFirst read? rest)

end BlockSafe
