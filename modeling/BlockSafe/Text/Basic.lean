/-!
# Text

Replies, programs and prompts are all texts: lists of characters, so that every function on them
is a recursion on the list and every law an induction.  A string literal stands for its
characters wherever a text is expected.

* `trim` drops white space at both ends; `trimBoth` does so for any class of characters;
* `splitWhen` cuts at every character of a class, `join` puts the pieces back with a separator;
* `collapse` keeps the words of a text with one space between neighbours;
* `cut?` finds the first occurrence of a text and returns what stands before and after it;
* `distinct` keeps of every item of a list, such as a text, the first occurrence, in order.
-/

namespace BlockSafe

/-- A sequence of characters. -/
abbrev Text := List Char

/-- A string literal as a text. -/
instance : Coe String Text := ⟨String.toList⟩

/-- A list of string literals as texts. -/
def texts (literals : List String) : List Text := literals.map String.toList

/-! ## Characters -/

/-- White space of any script: the space, tab and line separators, but no zero-width character. -/
def isSpace (c : Char) : Bool :=
  let n := c.toNat
  (9 ≤ n && n ≤ 13) || (28 ≤ n && n ≤ 32) || n == 0x85 || n == 0xA0 || n == 0x1680
    || (0x2000 ≤ n && n ≤ 0x200A) || n == 0x2028 || n == 0x2029 || n == 0x202F || n == 0x205F
    || n == 0x3000

/-- Whether code point `n` lies in one of the closed spans. -/
def inSpans (spans : List (Nat × Nat)) (n : Nat) : Bool :=
  spans.any fun s => s.1 ≤ n && n ≤ s.2

namespace Text

/-! ## Ends -/

/-- Drops the longest suffix of characters in `p`. -/
def dropEndWhile (p : Char → Bool) (s : Text) : Text := (s.reverse.dropWhile p).reverse

/-- Drops the longest prefix and the longest suffix of characters in `p`. -/
def trimBoth (p : Char → Bool) (s : Text) : Text := dropEndWhile p (s.dropWhile p)

/-- Drops white space at the start. -/
def trimStart (s : Text) : Text := s.dropWhile isSpace

/-- Drops white space at the end. -/
def trimEnd (s : Text) : Text := dropEndWhile isSpace s

/-- Drops white space at both ends. -/
def trim (s : Text) : Text := trimBoth isSpace s

/-- Whether nothing but white space is there. -/
def isBlank (s : Text) : Bool := s.all isSpace

/-! ## Pieces -/

/-- The pieces between the characters of class `p`; there is always at least one. -/
def splitWhen (p : Char → Bool) : Text → List Text
  | [] => [[]]
  | c :: rest =>
    if p c then [] :: splitWhen p rest
    else match splitWhen p rest with
      | [] => [[c]]
      | piece :: pieces => (c :: piece) :: pieces

/-- The pieces between the occurrences of one character. -/
def split (sep : Char) (s : Text) : List Text := splitWhen (· == sep) s

/-- The pieces with `sep` between neighbours. -/
def join (sep : Text) (pieces : List Text) : Text := List.intercalate sep pieces

/-- The longest pieces without white space. -/
def words (s : Text) : List Text := (splitWhen isSpace s).filter (!·.isEmpty)

/-- The words with one space between neighbours. -/
def collapse (s : Text) : Text := join [' '] (words s)

/-- The non-blank pieces of a comma-separated list, each trimmed. -/
def commaList (s : Text) : List Text := ((split ',' s).map trim).filter (!·.isEmpty)

/-! ## Occurrences -/

/-- What follows the prefix `pre`, if the text starts with it. -/
def after? : Text → Text → Option Text
  | [], s => some s
  | p :: ps, c :: cs => if p = c then after? ps cs else none
  | _ :: _, [] => none

/-- Whether `pattern` occurs somewhere in the text. -/
def occursIn (pattern : Text) : Text → Bool
  | [] => pattern.isEmpty
  | c :: rest => (after? pattern (c :: rest)).isSome || occursIn pattern rest

/-- What stands before and after the first occurrence of `pattern`. -/
def cut? (pattern : Text) : Text → Option (Text × Text)
  | [] => if pattern.isEmpty then some ([], []) else none
  | c :: rest =>
    match after? pattern (c :: rest) with
    | some tail => some ([], tail)
    | none => (cut? pattern rest).map fun (before, tail) => (c :: before, tail)

/-! ## Line breaks -/

/-- Writes every line break, `\r\n`, `\r` or `\n`, as `\n`. -/
def unifyBreaks : Text → Text
  | '\r' :: '\n' :: rest => '\n' :: unifyBreaks rest
  | '\r' :: rest => '\n' :: unifyBreaks rest
  | c :: rest => c :: unifyBreaks rest
  | [] => []

/-- The lines of a text, whatever its line breaks. -/
def lines (s : Text) : List Text := split '\n' (unifyBreaks s)

/-! ## Numbers -/

/-- The decimal digits of a natural number. -/
def ofNat (n : Nat) : Text := Nat.toDigits 10 n

/-- A decimal integer, with a minus sign if negative. -/
def ofInt : Int → Text
  | .ofNat n => ofNat n
  | .negSucc n => '-' :: ofNat (n + 1)

/-- The hexadecimal digits of `n`, at least `width` of them. -/
def hex (width n : Nat) : Text :=
  let digits := Nat.toDigits 16 n
  List.replicate (width - digits.length) '0' ++ digits

/-- Fills with spaces on the right up to `width` characters. -/
def padEnd (width : Nat) (s : Text) : Text := s ++ List.replicate (width - s.length) ' '

end Text

/-! ## First occurrences -/

/-- The first occurrences of the items of a list that are not in `seen`. -/
def distinctFrom {α : Type} [DecidableEq α] (seen : List α) : List α → List α
  | [] => []
  | a :: rest =>
    if a ∈ seen then distinctFrom seen rest else a :: distinctFrom (a :: seen) rest

/-- The first occurrences of the items of a list. -/
def distinct {α : Type} [DecidableEq α] (items : List α) : List α := distinctFrom [] items

end BlockSafe
