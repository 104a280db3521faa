/-!
# The arithmetic that formulas, clocks and oscillators compute with

Nothing in this library computes on a fixed kind of number. A `Scalar` has the four operations,
comparisons, and the ways to and from integers; an `Arithmetic` also has the functions that a
formula may use; a `Narrowing` leads from the numbers that values are computed in to the numbers
that samples are stored in. Floating-point numbers are one instance, exact numbers are another,
and so is any arithmetic that rounds.

`Arithmetic.floorMod` is the modulo of formulas and of the key table: its result has the sign of
the divisor.
-/

set_option autoImplicit false

namespace Tonegraph

/-- Numbers that are added, scaled and compared, and that integers can be turned into and cut
back to. The comparisons are those of the arithmetic: an undefined number compares to nothing. -/
class Scalar (R : Type) extends Add R, Sub R, Mul R, Div R, Neg R, LT R, LE R, BEq R where
  /-- Whether one number is below another can be decided. -/
  decidableLT : DecidableLT R
  /-- Whether one number is at most another can be decided. -/
  decidableLE : DecidableLE R
  /-- The number for an integer. -/
  ofInt : Int → R
  /-- The greatest whole number that is not above a number. -/
  floor : R → R
  /-- A number without its fraction, kept between two bounds; an undefined number gives 0. -/
  truncate : Int → Int → R → Int

attribute [reducible, instance] Scalar.decidableLT Scalar.decidableLE

/-- The number for a natural number. -/
def Scalar.ofNat {R : Type} [Scalar R] (n : Nat) : R := Scalar.ofInt n

/-- Numbers that formulas are evaluated in. -/
class Arithmetic (R : Type) extends Scalar R where
  /-- What stands for a value that does not exist. -/
  undefined : R
  /-- The ratio of a circle's circumference to its diameter. -/
  pi : R
  /-- The base of the natural logarithm. -/
  euler : R
  /-- Whether a number is neither infinite nor undefined. -/
  isFinite : R → Bool
  /-- The least whole number that is not below a number. -/
  ceil : R → R
  /-- The distance of a number from zero. -/
  abs : R → R
  /-- The sine of an angle in radians. -/
  sin : R → R
  /-- The cosine of an angle in radians. -/
  cos : R → R
  /-- The tangent of an angle in radians. -/
  tan : R → R
  /-- The natural logarithm. -/
  log : R → R
  /-- Two to the power of a number. -/
  exp2 : R → R
  /-- The first number to the power of the second. -/
  pow : R → R → R
  /-- What the division of the first number by the second, cut to a whole number, leaves. It has
  the sign of the first number. -/
  remainder : R → R → R

/-- The numbers that values are computed in, `R`, and the numbers that samples are stored in,
`S`. -/
class Narrowing (R S : Type) where
  /-- The sample nearest to a value. -/
  narrow : R → S
  /-- The value of a sample. -/
  widen : S → R

/-- Numbers that can be written in a formula: `1.25` is read through `OfScientific`. -/
class Numeral (R : Type) extends OfScientific R where
  /-- The text of a number. -/
  text : R → String

namespace Arithmetic

variable {R : Type} [Arithmetic R]

/-- The modulo `a - b * floor (a / b)`, reached through the remainder. A remainder of the other
sign than the divisor's is moved up by one divisor. Just below zero that sum can round to the
divisor itself, and zero is meant. -/
def floorMod (a b : R) : R :=
  let r := remainder a b
  let zero := Scalar.ofNat 0
  if r == zero || decide (r < zero) == decide (b < zero) then r
  else
    let wrapped := r + b
    if wrapped == b then zero else wrapped

end Arithmetic

end Tonegraph
