import BlockSafe.Json.Basic
import BlockSafe.Number.Numeral
import BlockSafe.Text.Digit

/-!
# Reading structured values

`Json.read` reads one value that fills the whole text, white space around it apart.  The format
is the usual one with three liberties: `NaN`, `Infinity` and `-Infinity` are numbers.  It is
strict otherwise: no control character in a text, no comma before a closing bracket, no byte
order mark.  Of several fields with one key the last gives the value and the first the position.

A reading fails in two ways: what was read is no value, or one bracket more was opened than there is
room for.  Whichever comes first in the text decides, so a text that is malformed further on may
still be too deep.

Every reader returns the value and the rest of the text.  A text in double quotes is read into
code points and 16-bit units first (`readUnits`); `joinUnits` then makes one character of each
surrogate pair.
-/

namespace BlockSafe

/-- The white space between tokens. -/
def isJsonSpace (c : Char) : Bool := c == ' ' || c == '\t' || c == '\n' || c == '\r'

/-- Drops the white space before the next token. -/
def skipJsonSpace (s : Text) : Text := s.dropWhile isJsonSpace

/-! ## Texts -/

/-- The number that four hexadecimal digits write. -/
def hexUnit? (a b c d : Char) : Option Nat := do
  return (((← hexValue? a) * 16 + (← hexValue? b)) * 16 + (← hexValue? c)) * 16 + (← hexValue? d)

/-- The character that a one-letter escape stands for. -/
def escapedChar? (c : Char) : Option Char :=
  match c with
  | '"' => some '"'
  | '\\' => some '\\'
  | '/' => some '/'
  | 'b' => some '\x08'
  | 'f' => some '\x0c'
  | 'n' => some '\n'
  | 'r' => some '\r'
  | 't' => some '\t'
  | _ => none

/-- Reads up to the closing quote: a literal character by its code point, an escape of four
digits as a 16-bit unit. -/
def readUnits : Text → Option (List Nat × Text)
  | [] => none
  | '"' :: rest => some ([], rest)
  | '\\' :: 'u' :: a :: b :: c :: d :: rest =>
    match hexUnit? a b c d, readUnits rest with
    | some unit, some (units, tail) => some (unit :: units, tail)
    | _, _ => none
  | '\\' :: e :: rest =>
    match escapedChar? e, readUnits rest with
    | some c, some (units, tail) => some (c.toNat :: units, tail)
    | _, _ => none
  | c :: rest =>
    if c.toNat < 32 ∨ c = '\\' then none
    else match readUnits rest with
      | some (units, tail) => some (c.toNat :: units, tail)
      | none => none

/-- The first half of a surrogate pair. -/
def isHighUnit (n : Nat) : Bool := 0xD800 ≤ n && n < 0xDC00

/-- The second half of a surrogate pair. -/
def isLowUnit (n : Nat) : Bool := 0xDC00 ≤ n && n < 0xE000

/-- The character of one code point.  Half a surrogate pair has none and becomes a replacement
character, so that texts which differ in such halves only are read as one text. -/
def charOfUnit (n : Nat) : Char :=
  if isHighUnit n || isLowUnit n then '\uFFFD' else Char.ofNat n

/-- The characters of a list of code points and units. -/
def joinUnits : List Nat → Text
  | [] => []
  | [n] => [charOfUnit n]
  | high :: low :: rest =>
    if isHighUnit high && isLowUnit low then
      Char.ofNat (0x10000 + (high - 0xD800) * 0x400 + (low - 0xDC00)) :: joinUnits rest
    else charOfUnit high :: joinUnits (low :: rest)

/-- Reads the text whose opening quote has just been read. -/
def readString (s : Text) : Option (Text × Text) :=
  (readUnits s).map fun (units, tail) => (joinUnits units, tail)

/-! ## Numbers -/

/-- The digits after a point, with the point, if at least one follows. -/
def readFraction (s : Text) : Option (Text × Text) :=
  match s with
  | '.' :: rest =>
    let digits := rest.takeWhile Char.isDigit
    if digits.isEmpty then none else some (digits, rest.dropWhile Char.isDigit)
  | _ => none

/-- The integer part: a zero alone, or digits that do not start with one. -/
def readWhole (s : Text) : Option (Text × Text) :=
  match s with
  | '0' :: rest => some (['0'], rest)
  | c :: rest =>
    if c.isDigit then some (c :: rest.takeWhile Char.isDigit, rest.dropWhile Char.isDigit)
    else none
  | [] => none

/-- Reads an unsigned number. It is an integer unless a fraction or an exponent follows. -/
def readMagnitude (negative : Bool) (s : Text) : Option (Number × Text) :=
  match readWhole s with
  | none => none
  | some (whole, afterWhole) =>
    let fraction := readFraction afterWhole
    let afterFraction := (fraction.map (·.2)).getD afterWhole
    match fraction, readExponent afterFraction with
    | none, none =>
      if whole.length > maxIntegerDigits then none
      else
        let value : Int := digitsValue whole
        some (.int (if negative then -value else value), afterWhole)
    | _, exponent =>
      let places := (fraction.map (·.1)).getD []
      let (power, tail) := exponent.getD (0, afterFraction)
      let decimal : Decimal := ⟨digitsValue (whole ++ places), power - places.length⟩
      some (.real (signedReal negative (realOfDecimal decimal)), tail)

/-- Reads a number or one of the three named ones. -/
def readNumber (s : Text) : Option (Number × Text) :=
  match Text.after? "NaN" s, Text.after? "Infinity" s, Text.after? "-Infinity" s with
  | some tail, _, _ => some (.real (0 / 0), tail)
  | _, some tail, _ => some (.real (1 / 0), tail)
  | _, _, some tail => some (.real (-1 / 0), tail)
  | none, none, none =>
    match s with
    | '-' :: rest => readMagnitude true rest
    | _ => readMagnitude false s

/-! ## Values -/

/-- Why a text is not read as a value. -/
inductive ReadError where
  /-- It is none. -/
  | malformed
  /-- A bracket is opened that there is no room for. -/
  | tooDeep (opening : Bracket)
deriving DecidableEq, Repr

/-- What was found, if anything was. -/
def orMalformed {α : Type} : Option α → Except ReadError α
  | some a => .ok a
  | none => .error .malformed

/-- Reads one of the three words. -/
def readWord (s : Text) : Option (Json × Text) :=
  match Text.after? "null" s, Text.after? "true" s, Text.after? "false" s with
  | some tail, _, _ => some (.null, tail)
  | _, some tail, _ => some (.bool true, tail)
  | _, _, some tail => some (.bool false, tail)
  | none, none, none => none

/-- Reads a text in quotes, a word or a number. -/
def readScalar (s : Text) : Option (Json × Text) :=
  match s with
  | '"' :: rest => (readString rest).map fun (text, tail) => (.str text, tail)
  | _ =>
    match readWord s with
    | some word => some word
    | none => (readNumber s).map fun (n, tail) => (.num n, tail)

/-- Reads the name of a field with the colon behind it. -/
def readName (s : Text) : Option (Text × Text) :=
  match s with
  | '"' :: rest =>
    match readString rest with
    | none => none
    | some (key, afterKey) =>
      match skipJsonSpace afterKey with
      | ':' :: afterColon => some (key, skipJsonSpace afterColon)
      | _ => none
  | _ => none

mutual

/-- Reads a value; `room` is how many brackets can still be opened inside one another, and `fuel`
bounds the steps. -/
def readValue : Nat → Nat → Text → Except ReadError (Json × Text)
  | 0, _, _ => .error .malformed
  | fuel + 1, room, s =>
    match s with
    | '[' :: rest =>
      match room with
      | 0 => .error (.tooDeep .list)
      | room + 1 =>
        match skipJsonSpace rest with
        | ']' :: tail => .ok (.list [], tail)
        | inner => (readItems fuel room inner).map fun (items, tail) => (.list items, tail)
    | '{' :: rest =>
      match room with
      | 0 => .error (.tooDeep .object)
      | room + 1 =>
        match skipJsonSpace rest with
        | '}' :: tail => .ok (.object [], tail)
        | inner =>
          (readFields fuel room inner).map fun (pairs, tail) =>
            (.object (Fields.ofPairs pairs), tail)
    | _ => orMalformed (readScalar s)

/-- Reads the items of a list up to its closing bracket. -/
def readItems : Nat → Nat → Text → Except ReadError (List Json × Text)
  | 0, _, _ => .error .malformed
  | fuel + 1, room, s =>
    match readValue fuel room s with
    | .error e => .error e
    | .ok (item, afterItem) =>
      match skipJsonSpace afterItem with
      | ']' :: tail => .ok ([item], tail)
      | ',' :: rest =>
        (readItems fuel room (skipJsonSpace rest)).map fun (items, tail) => (item :: items, tail)
      | _ => .error .malformed

/-- Reads the fields of an object up to its closing bracket. -/
def readFields : Nat → Nat → Text → Except ReadError (List (Text × Json) × Text)
  | 0, _, _ => .error .malformed
  | fuel + 1, room, s =>
    match readName s with
    | none => .error .malformed
    | some (key, afterName) =>
      match readValue fuel room afterName with
      | .error e => .error e
      | .ok (value, afterValue) =>
        match skipJsonSpace afterValue with
        | '}' :: tail => .ok ([(key, value)], tail)
        | ',' :: more =>
          (readFields fuel room (skipJsonSpace more)).map fun (pairs, tail) =>
            ((key, value) :: pairs, tail)
        | _ => .error .malformed

end

/-- The value that fills the text, white space around it apart, read with room for so many open
brackets. -/
def Json.read (room : Nat) (s : Text) : Except ReadError Json :=
  match readValue (2 * s.length + 2) room (skipJsonSpace s) with
  | .ok (value, tail) => if (skipJsonSpace tail).isEmpty then .ok value else .error .malformed
  | .error e => .error e

/-- The value that fills the text, however deep it nests: no text opens more brackets than it has
characters. -/
def Json.read? (s : Text) : Option Json := (Json.read s.length s).toOption

end BlockSafe
