import BlockSafe.Limits
import BlockSafe.Number.Basic
import BlockSafe.Text.Digit

/-!
# Numerals

Texts that write numbers: `signedDigits?` reads an integer, `decimalReal?` a decimal with an
optional fraction and exponent or the name of an infinite number.  `looseInteger?` and
`looseReal?` read what people write into the environment: white space around the numeral, the
digits of any script, and single underscores between digits.
-/

namespace BlockSafe

/-! ## Parts -/

/-- The value of a text of ASCII digits. -/
def digitsValue (digits : Text) : Nat :=
  digits.foldl (fun n c => n * 10 + (c.toNat - '0'.toNat)) 0

/-- The value of an exponent part, if the text starts with a complete one. -/
def readExponent (s : Text) : Option (Int × Text) :=
  match s with
  | e :: rest =>
    if e = 'e' ∨ e = 'E' then
      let (negative, body) : Bool × Text := match rest with
        | '-' :: body => (true, body)
        | '+' :: body => (false, body)
        | body => (false, body)
      let digits := body.takeWhile Char.isDigit
      if digits.isEmpty then none
      else
        let value : Int := digitsValue digits
        some (if negative then -value else value, body.dropWhile Char.isDigit)
    else none
  | [] => none

/-- A negated double, the zero included. -/
def signedReal (negative : Bool) (x : Float) : Float := if negative then -x else x

/-! ## Numerals -/

/-- The digits of a signed numeral and nothing else. -/
def signedDigits? (s : Text) : Option Int :=
  let (negative, digits) : Bool × Text := match s with
    | '-' :: rest => (true, rest)
    | '+' :: rest => (false, rest)
    | rest => (false, rest)
  if digits.isEmpty || !digits.all Char.isDigit then none
  else
    let value : Int := digitsValue digits
    some (if negative then -value else value)

/-- The real that a text without margins writes: a decimal with digits on at least one side of
the point, or a name of infinity or of the non-number in any mixture of cases. -/
def decimalReal? (s : Text) : Option Float :=
  let (negative, body) : Bool × Text := match s with
    | '-' :: rest => (true, rest)
    | '+' :: rest => (false, rest)
    | rest => (false, rest)
  let name := body.map Char.toLower
  if name = "inf".toList ∨ name = "infinity".toList then some (signedReal negative (1 / 0))
  else if name = "nan".toList then some (0 / 0)
  else
    let whole := body.takeWhile Char.isDigit
    let afterWhole := body.dropWhile Char.isDigit
    let (places, afterPlaces) := match afterWhole with
      | '.' :: rest => (rest.takeWhile Char.isDigit, rest.dropWhile Char.isDigit)
      | rest => ([], rest)
    if whole.isEmpty && places.isEmpty then none
    else
      let value (power : Int) : Float :=
        signedReal negative (realOfDecimal ⟨digitsValue (whole ++ places), power - places.length⟩)
      if afterPlaces.isEmpty then some (value 0)
      else match readExponent afterPlaces with
        | some (power, []) => some (value power)
        | _ => none

/-! ## Loose numerals -/

/-- The white space that is dropped around a numeral. -/
def isMargin (c : Char) : Bool := isSpace c && !(0x1C ≤ c.toNat && c.toNat ≤ 0x1F)

/-- Writes the digits of any script as ASCII digits. -/
def asciiDigits (s : Text) : Text :=
  s.map fun c => match digitValue? c with
    | some value => Char.ofNat ('0'.toNat + value)
    | none => c

/-- Drops the underscores of a text, each of which must stand between two digits; `before` is the
character before the text. -/
def dropSeparators? (before : Option Char) : Text → Option Text
  | [] => some []
  | c :: rest =>
    if c = '_' then
      if before.any Char.isDigit && rest.head?.any Char.isDigit then dropSeparators? (some c) rest
      else none
    else (dropSeparators? (some c) rest).map (c :: ·)

/-- A numeral without the freedoms of a loose one. -/
def strictNumeral? (s : Text) : Option Text :=
  dropSeparators? none (asciiDigits (Text.trimBoth isMargin s))

/-- The integer that a loose numeral writes. -/
def looseInteger? (s : Text) : Option Int := do
  let numeral ← strictNumeral? s
  if numeral.countP Char.isDigit > maxIntegerDigits then none else signedDigits? numeral

/-- The real that a loose numeral writes. -/
def looseReal? (s : Text) : Option Float := (strictNumeral? s).bind decimalReal?

end BlockSafe
