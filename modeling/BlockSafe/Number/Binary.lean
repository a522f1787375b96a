/-!
# Binary numbers

A double-precision number taken apart: not a number, infinite, or a sign and a value
`mantissa · 2 ^ exponent`.  All decimal text of real numbers is computed from this form in exact
natural-number arithmetic.
-/

namespace BlockSafe

/-- The value `mantissa · 2 ^ exponent` of a non-negative double. -/
structure Binary where
  mantissa : Nat
  exponent : Int

/-- The three kinds of double. -/
inductive RealForm where
  | notANumber
  | infinite (negative : Bool)
  | finite (negative : Bool) (value : Binary)

/-- The parts of a double, from its bits. -/
def RealForm.ofFloat (x : Float) : RealForm :=
  let bits := x.toBits.toNat
  let negative := bits / Nat.pow 2 63 == 1
  let power : Nat := bits / Nat.pow 2 52 % Nat.pow 2 11
  let fraction : Nat := bits % Nat.pow 2 52
  if power = 2047 then
    if fraction = 0 then .infinite negative else .notANumber
  else if power = 0 then .finite negative ⟨fraction, -1074⟩
  else .finite negative ⟨Nat.pow 2 52 + fraction, (power : Int) - 1075⟩

namespace Binary

/-- Whether the next smaller double is only half as far away as the next larger one. -/
def atPowerOfTwo (b : Binary) : Bool := b.mantissa == Nat.pow 2 52 && b.exponent > -1074

/-- Two naturals whose quotient is the size of a quarter of the last binary place measured in
units of `10 ^ e`. -/
def quarterOver (b : Binary) (e : Int) : Nat × Nat :=
  (Nat.pow 2 (b.exponent - 2).toNat * Nat.pow 10 (-e).toNat,
    Nat.pow 10 e.toNat * Nat.pow 2 (2 - b.exponent).toNat)

/-- The integral part of the value measured in units of `10 ^ e`. -/
def floorAt (b : Binary) (e : Int) : Nat :=
  let (num, den) := b.quarterOver e
  4 * b.mantissa * num / den

/-- The scientific exponent: the `k` with `10 ^ k ≤ value < 10 ^ (k + 1)`, for a positive
value. -/
def decimalExponent (b : Binary) : Int :=
  let (num, den) := b.quarterOver 0
  let n := 4 * b.mantissa * num
  if den ≤ n then ((Nat.toDigits 10 (n / den)).length : Int) - 1
  else
    let places := (Nat.toDigits 10 (den / n)).length
    if den ≤ n * Nat.pow 10 (places - 1) then -((places : Int) - 1) else -(places : Int)

end Binary

end BlockSafe
