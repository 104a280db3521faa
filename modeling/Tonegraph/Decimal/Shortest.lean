import Tonegraph.Decimal
/-!
# The fewest digits that read back

A binary number is written with as few decimal digits as still lead back to it: the digits have
to fall among the reals that are nearer to the number than to either neighbour. `shortest` tries
one digit, then two, and so on; on each grid of decimals only the two points next to the number
can be meant, and the first grid with a point in range wins. Of two points in range the nearer
one is taken, and the upper one when both are equally near.

The reals that belong to a number run half way to each neighbour. Both ends belong to it when its
mantissa is even, as ties are read to the even neighbour. Below a power of two the neighbour is
only half as far away.
-/

set_option autoImplicit false

namespace Tonegraph.Decimal

open Tonegraph

/-- A number and the reals that are read as it, as fractions over one denominator. -/
structure Range where
  value : Nat
  low : Nat
  high : Nat
  denominator : Nat
  closed : Bool

/-- The reals that are read as `mantissa * 2 ^ exponent`, in quarters of the last bit. -/
def Range.ofBinary (f : Binary.Format) (mantissa : Nat) (exponent : Int) : Range :=
  let up := twoTo (exponent - 2).toNat
  let narrow := mantissa == f.leastNormal && f.leastExponent < exponent
  { value := 4 * mantissa * up
    low := (if narrow then 4 * mantissa - 1 else 4 * mantissa - 2) * up
    high := (4 * mantissa + 2) * up
    denominator := twoTo (2 - exponent).toNat
    closed := mantissa % 2 == 0 }

/-- Whether `point * 10 ^ grid` is read as the number of the range. -/
def Range.holds (r : Range) (grid : Int) (point : Nat) : Bool :=
  let p := point * tenTo grid.toNat * r.denominator
  let scale := tenTo (-grid).toNat
  if r.closed then r.low * scale ≤ p && p ≤ r.high * scale
  else r.low * scale < p && p < r.high * scale

/-- The point of the grid `10 ^ grid` that is read as the number, when there is one. -/
def Range.point? (r : Range) (grid : Int) : Option Nat :=
  let numerator := r.value * tenTo (-grid).toNat
  let unit := r.denominator * tenTo grid.toNat
  let below := numerator / unit
  let above := below + 1
  let nearerAbove := unit ≤ 2 * (numerator - below * unit)
  match r.holds grid below, r.holds grid above with
  | true, true => some (if nearerAbove then above else below)
  | true, false => some below
  | false, true => some above
  | false, false => none

/-- The power of ten above the value: the value is below `10 ^ magnitude` and not below a tenth
of it. The two digit counts fix it up to one. -/
def Range.magnitude (r : Range) : Int :=
  let guess : Int := (digitCount r.value : Int) - (digitCount r.denominator : Int)
  if r.denominator * tenTo guess.toNat ≤ r.value * tenTo (-guess).toNat then guess + 1 else guess

/-- Tries grids from coarse to fine. Without a hit on any of them the number is written exactly
to the last grid, which no number of either word layout comes to: seventeen digits are enough. -/
def Range.search (r : Range) (negative : Bool) : Nat → Int → Decimal
  | 0, grid => ⟨negative, r.value * tenTo (-grid).toNat / (r.denominator * tenTo grid.toNat), grid⟩
  | fuel + 1, grid =>
    match r.point? grid with
    | some digits => ⟨negative, digits, grid⟩
    | none => r.search negative fuel (grid - 1)

/-- The decimal with the fewest digits that is read as `± mantissa * 2 ^ exponent`. -/
def shortest (f : Binary.Format) (negative : Bool) (mantissa : Nat) (exponent : Int) : Decimal :=
  if mantissa = 0 then ⟨negative, 0, 0⟩
  else
    let r := Range.ofBinary f mantissa exponent
    (r.search negative 20 (r.magnitude - 1)).dropZeros

end Tonegraph.Decimal
