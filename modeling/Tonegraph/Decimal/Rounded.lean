import Tonegraph.Decimal
/-!
# Rounding to a number of places or of digits

`roundQuotient` rounds a quotient of natural numbers to the nearest whole number, a half going to
the even neighbour. Rounding a binary number to so many places behind the point, or to so many
digits, is this rounding of an exact quotient.
-/

set_option autoImplicit false

namespace Tonegraph.Decimal

open Tonegraph

/-- The whole number nearest to `numerator / denominator`; a half goes to the even neighbour. -/
def roundQuotient (numerator denominator : Nat) : Nat :=
  let below := numerator / denominator
  let rest := numerator % denominator
  if denominator < 2 * rest ∨ (denominator = 2 * rest ∧ below % 2 = 1) then below + 1 else below

/-- `mantissa * 2 ^ exponent` in units of `10 ^ grid`, as a numerator and a denominator. -/
def quotientOnGrid (mantissa : Nat) (exponent grid : Int) : Nat × Nat :=
  (mantissa * twoTo exponent.toNat * tenTo (-grid).toNat, twoTo (-exponent).toNat * tenTo grid.toNat)

/-- The multiple of `10 ^ grid` nearest to the number. -/
def nearestOnGrid (negative : Bool) (mantissa : Nat) (exponent grid : Int) : Decimal :=
  let (numerator, denominator) := quotientOnGrid mantissa exponent grid
  ⟨negative, roundQuotient numerator denominator, grid⟩

/-- The number with `places` digits behind the point. -/
def withPlaces (places : Nat) (negative : Bool) (mantissa : Nat) (exponent : Int) : Decimal :=
  nearestOnGrid negative mantissa exponent (-(places : Int))

/-- The number with `count` digits. Zero has all its digits zero. When rounding up brings one
digit more, the last of them is a zero and goes. -/
def withDigits (count : Nat) (negative : Bool) (mantissa : Nat) (exponent : Int) : Decimal :=
  if mantissa = 0 then ⟨negative, 0, 1 - count⟩
  else
    let (numerator, denominator) := quotientOnGrid mantissa exponent 0
    let guess : Int := (digitCount numerator : Int) - (digitCount denominator : Int)
    let isLow := denominator * tenTo guess.toNat ≤ numerator * tenTo (-guess).toNat
    let magnitude := if isLow then guess + 1 else guess
    let rounded := nearestOnGrid negative mantissa exponent (magnitude - count)
    if digitCount rounded.digits = count then rounded
    else ⟨negative, rounded.digits / 10, rounded.exponent + 1⟩

end Tonegraph.Decimal
