import Tonegraph.Binary
/-!
# Decimal numbers and how they are laid out

A `Decimal` is a sign, a natural number of digits and a power of ten. Two layouts write it:
`positional` puts the point where it belongs and never uses an exponent, `scientific` puts the
point after the first digit.
-/

set_option autoImplicit false

namespace Tonegraph

/-- Ten to a power. -/
def tenTo (power : Nat) : Nat := Nat.pow 10 power

/-- The number `± digits * 10 ^ exponent`. -/
structure Decimal where
  negative : Bool
  digits : Nat
  exponent : Int
deriving DecidableEq, Repr

namespace Decimal

/-- How many decimal digits a number is written with; zero takes one. -/
def digitCount (n : Nat) : Nat := (Nat.toDigits 10 n).length

/-- The digits of a number in decimal, at least `width` of them, with zeros in front. -/
def paddedDigits (width n : Nat) : List Char :=
  let written := Nat.toDigits 10 n
  List.replicate (width - written.length) '0' ++ written

/-- Takes zeros off the end of `digits` while the exponent is below zero. The fuel is the number
of places behind the point: one zero less is one place less. -/
def dropZeros (d : Decimal) : Decimal :=
  go (-d.exponent).toNat d.digits d.exponent
where
  go : Nat → Nat → Int → Decimal
    | 0, digits, exponent => ⟨d.negative, digits, exponent⟩
    | fuel + 1, digits, exponent =>
      if digits % 10 = 0 then go fuel (digits / 10) (exponent + 1)
      else ⟨d.negative, digits, exponent⟩

/-- The sign in front of a negative number, zero included. -/
def signText (negative : Bool) : List Char := if negative then ['-'] else []

/-- Every digit in its place: a whole number is filled up with zeros, and a point stands before
the last `-exponent` digits of any other, with at least one digit in front of it. -/
def positional (d : Decimal) : String :=
  let places := (-d.exponent).toNat
  let whole := d.digits * tenTo d.exponent.toNat
  let written := paddedDigits (places + 1) whole
  let front := written.take (written.length - places)
  let back := written.drop (written.length - places)
  String.ofList (signText d.negative ++ front ++ if places = 0 then [] else '.' :: back)

/-- The first of at least `count` digits, a point, the other digits, and the power of ten that the
first digit stands for. -/
def scientific (count : Nat) (d : Decimal) : String :=
  let written := paddedDigits count d.digits
  let power := d.exponent + (written.length - 1 : Nat)
  let back := written.drop 1
  String.ofList (signText d.negative ++ written.take 1 ++ (if back.isEmpty then [] else '.' :: back))
    ++ "e" ++ toString power

end Decimal

end Tonegraph
