import BlockSafe.Number.Binary
import BlockSafe.Text.Basic

/-!
# Decimal numbers

Decimal approximations of a binary number and how they are written.

* `Binary.shortest` has the fewest digits among the decimals that no other double is nearer to,
  and of those lies nearest to the value;
* `Binary.rounded` has a given number of significant digits, a tie going to the even neighbour;
* `DecimalLayout` fixes where positional notation ends and whether an integral value ends in
  `.0`; `DecimalLayout.write` applies it.
-/

namespace BlockSafe

/-- The value `digits · 10 ^ exponent`. -/
structure Decimal where
  digits : Nat
  exponent : Int

namespace Binary

/-- Whether `c · 10 ^ e` is nearer to the value than to any other double; the two midpoints
count iff the mantissa is even. -/
def owns (b : Binary) (e : Int) (c : Nat) : Bool :=
  let (num, den) := b.quarterOver e
  let low := (4 * b.mantissa - if b.atPowerOfTwo then 1 else 2) * num
  let high := (4 * b.mantissa + 2) * num
  if b.mantissa % 2 = 0 then low ≤ c * den && c * den ≤ high
  else low < c * den && c * den < high

/-- Of the two grid neighbours `f ≤ value < f + 1` in units of `10 ^ e`, the nearer one; a tie
goes to the even one. -/
def nearestAt (b : Binary) (e : Int) : Nat :=
  let (num, den) := b.quarterOver e
  let n := 4 * b.mantissa * num
  let f := n / den
  let rest := n % den
  if 2 * rest < den ∨ (2 * rest = den ∧ f % 2 = 0) then f else f + 1

/-- The decimal with `n` significant digits that stands for the value, if there is one. -/
def decimalWith? (b : Binary) (n : Nat) : Option Decimal :=
  let e := b.decimalExponent + 1 - n
  let f := b.floorAt e
  if b.owns e f && b.owns e (f + 1) then some ⟨b.nearestAt e, e⟩
  else if b.owns e f then some ⟨f, e⟩
  else if b.owns e (f + 1) then some ⟨f + 1, e⟩
  else none

/-- The value rounded to `n` significant digits. -/
def rounded (n : Nat) (b : Binary) : Decimal :=
  let e := b.decimalExponent + 1 - n
  ⟨b.nearestAt e, e⟩

/-- The decimal with the fewest digits that stands for the value. Seventeen digits always do. -/
def shortest (b : Binary) : Decimal :=
  ((List.range 17).findSome? fun n => b.decimalWith? (n + 1)).getD (b.rounded 17)

end Binary

/-- How a decimal is written. -/
structure DecimalLayout where
  /-- The least scientific exponent that is written positionally. -/
  positionalFrom : Int
  /-- The least scientific exponent that is no longer written positionally. -/
  positionalBelow : Int
  /-- Whether an integral value in positional notation ends in `.0`. -/
  pointZero : Bool

namespace DecimalLayout

/-- The exponent mark with a sign and at least two digits. -/
def exponentMark (x : Int) : Text :=
  let digits := Text.ofNat x.natAbs
  ['e', if x < 0 then '-' else '+'] ++ List.replicate (2 - digits.length) '0' ++ digits

/-- Writes significant digits, the first standing for `10 ^ x`. -/
def place (layout : DecimalLayout) (digits : Text) (x : Int) : Text :=
  if layout.positionalFrom ≤ x ∧ x < layout.positionalBelow then
    if x < 0 then "0.".toList ++ List.replicate (-x - 1).toNat '0' ++ digits
    else if digits.length ≤ x.toNat + 1 then
      digits ++ List.replicate (x.toNat + 1 - digits.length) '0'
        ++ if layout.pointZero then ".0" else ""
    else digits.take (x.toNat + 1) ++ '.' :: digits.drop (x.toNat + 1)
  else
    digits.take 1 ++ (if digits.length ≤ 1 then [] else '.' :: digits.drop 1) ++ exponentMark x

/-- Writes a decimal without the zeros at its end. -/
def write (layout : DecimalLayout) (d : Decimal) : Text :=
  let all := Text.ofNat d.digits
  let digits := Text.dropEndWhile (· == '0') all
  if digits.isEmpty then '0' :: if layout.pointZero then ".0" else ""
  else layout.place digits (d.exponent + all.length - 1)

/-- Writes a double, its decimal digits chosen by `digits`. -/
def writeFloat (layout : DecimalLayout) (digits : Binary → Decimal) (x : Float) : Text :=
  let sign (negative : Bool) : Text := if negative then ['-'] else []
  match RealForm.ofFloat x with
  | .notANumber => "nan"
  | .infinite negative => sign negative ++ "inf".toList
  | .finite negative b =>
    sign negative ++ layout.write (if b.mantissa = 0 then ⟨0, 0⟩ else digits b)

end DecimalLayout

end BlockSafe
