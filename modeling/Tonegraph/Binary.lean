/-!
# Binary floating-point words, read exactly

A floating-point word is a sign, a biased exponent and a fraction. `Binary.ofWord` reads it as
the exact number it stands for: a mantissa times a power of two, an infinity, or no number at
all. Everything that has to be exact about floating-point numbers (their decimal text, the
remainder of a division, the floor, the cut to an integer) is computed on this form with natural
numbers, so no rounding can enter.

`Format.binary64` and `Format.binary32` are the two word layouts in use.
-/

set_option autoImplicit false

namespace Tonegraph

/-- Two to a power. -/
def twoTo (power : Nat) : Nat := Nat.pow 2 power

/-- The layout of a floating-point word: one sign bit, then the exponent, then the fraction. -/
structure Binary.Format where
  exponentBits : Nat
  fractionBits : Nat
deriving DecidableEq, Repr

/-- The value of a floating-point word; a finite value is `± mantissa * 2 ^ exponent`. -/
inductive Binary where
  | nan
  | infinite (negative : Bool)
  | finite (negative : Bool) (mantissa : Nat) (exponent : Int)
deriving DecidableEq, Repr

namespace Binary

namespace Format

/-- Words of 64 bits: 11 exponent bits and 52 fraction bits. -/
def binary64 : Format := ⟨11, 52⟩

/-- Words of 32 bits: 8 exponent bits and 23 fraction bits. -/
def binary32 : Format := ⟨8, 23⟩

/-- What the exponent field of a power of two between 1 and 2 holds. -/
def bias (f : Format) : Nat := twoTo (f.exponentBits - 1) - 1

/-- The exponent of the last fraction bit of the smallest numbers. -/
def leastExponent (f : Format) : Int := 1 - f.bias - f.fractionBits

/-- The mantissa of a power of two that is not among the smallest numbers: the neighbour below
it is nearer than the neighbour above it. -/
def leastNormal (f : Format) : Nat := twoTo f.fractionBits

/-- What the sign of a number adds to its word. -/
def signBit (f : Format) (negative : Bool) : Nat :=
  if negative then twoTo (f.exponentBits + f.fractionBits) else 0

end Format

/-- Reads a word. An exponent field of ones marks the infinities and the words that are no
number; an exponent field of zeros drops the leading one of the mantissa. -/
def ofWord (f : Format) (word : Nat) : Binary :=
  let negative := word / twoTo (f.exponentBits + f.fractionBits) % 2 == 1
  let field := word / twoTo f.fractionBits % twoTo f.exponentBits
  let fraction := word % twoTo f.fractionBits
  if field = twoTo f.exponentBits - 1 then
    if fraction = 0 then .infinite negative else .nan
  else if field = 0 then
    .finite negative fraction f.leastExponent
  else
    .finite negative (twoTo f.fractionBits + fraction) (f.leastExponent + (field - 1 : Nat))

/-- The whole part of `mantissa * 2 ^ exponent`. -/
def wholePart (mantissa : Nat) (exponent : Int) : Nat :=
  if 0 ≤ exponent then mantissa * twoTo exponent.toNat else mantissa / twoTo (-exponent).toNat

/-- The value without its fraction, kept within `low … high`; what is no number gives 0. -/
def truncate (low high : Int) : Binary → Int
  | .nan => 0
  | .infinite negative => if negative then low else high
  | .finite negative mantissa exponent =>
    let whole : Int := wholePart mantissa exponent
    max low (min high (if negative then -whole else whole))

/-- The greatest whole number that is not above a value. A zero keeps its sign, and so does what is
not finite. -/
def floor : Binary → Binary
  | .finite negative mantissa exponent =>
    if 0 ≤ exponent then .finite negative mantissa exponent
    else
      let unit := twoTo (-exponent).toNat
      let below := if negative ∧ mantissa % unit ≠ 0 then 1 else 0
      .finite negative (mantissa / unit + below) 0
  | value => value

/-- The remainder of the truncated division of two numbers, exactly. It has the sign of the
dividend, also when it is zero. There is no remainder when the dividend is infinite or the
divisor is zero, and an infinite divisor leaves the dividend as it is. -/
def remainder : Binary → Binary → Binary
  | .finite negative m p, .finite _ n q =>
    if n = 0 then .nan
    else
      let unit := min p q
      .finite negative (m * twoTo (p - unit).toNat % (n * twoTo (q - unit).toNat)) unit
  | .finite negative m p, .infinite _ => .finite negative m p
  | _, _ => .nan

/-- The value of a number of 64 bits. -/
def ofFloat (x : Float) : Binary := ofWord .binary64 x.toBits.toNat

/-- The value of a number of 32 bits. -/
def ofFloat32 (x : Float32) : Binary := ofWord .binary32 x.toBits.toNat

/-- The word for a value that has one. The mantissa of a finite value is moved up as far as there is
room for it and the exponent does not become too small; then a leading one at the top of it counts
as one in the exponent field. -/
def toWord (f : Format) : Binary → Nat
  | .nan => (twoTo f.exponentBits - 1) * twoTo f.fractionBits + twoTo (f.fractionBits - 1)
  | .infinite negative =>
    f.signBit negative + (twoTo f.exponentBits - 1) * twoTo f.fractionBits
  | .finite negative mantissa exponent =>
    if mantissa = 0 then f.signBit negative
    else
      let room := min (f.fractionBits - mantissa.log2) (exponent - f.leastExponent).toNat
      let field := (exponent - f.leastExponent).toNat - room
      f.signBit negative + field * twoTo f.fractionBits + mantissa * twoTo room

/-- The number of 64 bits with this value, if there is one. -/
def toFloat (b : Binary) : Float := Float.ofBits (.ofNat (b.toWord .binary64))

end Binary

end Tonegraph
