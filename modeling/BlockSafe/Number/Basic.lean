import BlockSafe.Number.Decimal

/-!
# Numbers

A number is an integer of any size or a double, and the two stay apart: `1` and `1.0` are written
differently.

* `Number.text` writes a number in full: an integer by its digits, a double by the fewest digits
  that read back, with a point or an exponent;
* `Number.brief` writes it with six significant digits and nothing superfluous;
* `realOfDecimal` is the double nearest to a decimal.
-/

namespace BlockSafe

/-- An integer or a double. -/
inductive Number where
  | int (value : Int)
  | real (value : Float)

/-- The double nearest to `digits · 10 ^ exponent`. Decimals beyond every double are infinite,
those too small for any are zero, and neither is expanded. -/
def realOfDecimal (d : Decimal) : Float :=
  let magnitude := d.exponent + (Text.ofNat d.digits).length
  if d.digits = 0 then 0
  else if magnitude > 400 then 1 / 0
  else if magnitude < -400 then 0
  else Float.ofScientific d.digits (d.exponent < 0) d.exponent.natAbs

/-- Full texts are positional from `10 ^ -4` up to below `10 ^ 16`, and show that they are
reals. -/
def fullLayout : DecimalLayout := ⟨-4, 16, true⟩

/-- Brief texts are positional from `10 ^ -4` up to below `10 ^ 6`. -/
def briefLayout : DecimalLayout := ⟨-4, 6, false⟩

/-- The fewest digits that read back as `x`. -/
def realText (x : Float) : Text := fullLayout.writeFloat Binary.shortest x

namespace Number

/-- The nearest double. -/
def toFloat : Number → Float
  | .int i => Float.ofInt i
  | .real x => x

/-- The number in full. -/
def text : Number → Text
  | .int i => Text.ofInt i
  | .real x => realText x

/-- The number with six significant digits. -/
def brief (n : Number) : Text := briefLayout.writeFloat (Binary.rounded 6) n.toFloat

/-- Whether the number is zero; the zero of either sign is, a non-number is not. -/
def isZero : Number → Bool
  | .int i => i == 0
  | .real x => x == 0

end Number

end BlockSafe
