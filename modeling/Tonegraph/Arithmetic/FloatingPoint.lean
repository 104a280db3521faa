import Tonegraph.Arithmetic
import Tonegraph.Decimal.Reading
import Tonegraph.Decimal.Rounded
import Tonegraph.Decimal.Shortest
/-!
# Floating-point numbers as arithmetic

Values and times are numbers of 64 bits, samples are numbers of 32 bits. The remainder, the floor
and the cut to an integer go through the exact value of the word, so none of them rounds. Reading
decimal text leads to the nearest number.

There are three ways to write a number: the fewest digits that read back, a fixed number of places
behind the point, and a fixed number of digits with a power of ten. They agree on what is not
finite: `NaN`, which never shows a sign, `inf` and `-inf`. A zero keeps its sign.
-/

set_option autoImplicit false

namespace Tonegraph

/-! ## The text of a number -/

namespace Binary

/-- The text of a value, given how a finite one is written. -/
def textWith (finite : Bool → Nat → Int → String) : Binary → String
  | .nan => "NaN"
  | .infinite negative => if negative then "-inf" else "inf"
  | .finite negative mantissa exponent => finite negative mantissa exponent

/-- The fewest digits that read back as a number of 64 bits, all in their places. -/
def shortText : Binary → String :=
  textWith fun negative mantissa exponent =>
    (Decimal.shortest .binary64 negative mantissa exponent).positional

/-- The number rounded to `places` digits behind the point. -/
def textWithPlaces (places : Nat) : Binary → String :=
  textWith fun negative mantissa exponent =>
    (Decimal.withPlaces places negative mantissa exponent).positional

/-- The number rounded to `count` digits, with a power of ten. -/
def textWithDigits (count : Nat) : Binary → String :=
  textWith fun negative mantissa exponent =>
    (Decimal.withDigits count negative mantissa exponent).scientific count

end Binary

/-! ## Numbers of 64 and of 32 bits -/

instance : Scalar Float where
  decidableLT := inferInstance
  decidableLE := inferInstance
  ofInt := Float.ofInt
  floor x := (Binary.ofFloat x).floor.toFloat
  truncate low high x := (Binary.ofFloat x).truncate low high

instance : Scalar Float32 where
  decidableLT := inferInstance
  decidableLE := inferInstance
  ofInt := Float32.ofInt
  floor := Float32.floor
  truncate low high x := (Binary.ofFloat32 x).truncate low high

instance : Arithmetic Float where
  undefined := 0.0 / 0.0
  pi := 3.141592653589793
  euler := 2.718281828459045
  isFinite := Float.isFinite
  ceil := Float.ceil
  abs := Float.abs
  sin := Float.sin
  cos := Float.cos
  tan := Float.tan
  log := Float.log
  exp2 := Float.exp2
  pow := Float.pow
  remainder a b := ((Binary.ofFloat a).remainder (Binary.ofFloat b)).toFloat

instance : Narrowing Float Float32 where
  narrow := Float.toFloat32
  widen := Float32.toFloat

instance : Numeral Float where
  text x := (Binary.ofFloat x).shortText

/-! ## Reading -/

namespace Decimal

/-- The size of a decimal number, for an arithmetic whose numbers all lie below `10 ^ highest` and
whose numbers above zero all lie above `10 ^ -lowest`. Outside these bounds the answer is known
without computing a power of ten; within them the reading is to the nearest number. -/
def sizeIn {R : Type} [OfScientific R] (highest lowest : Int) (infinity : R) (d : Decimal) : R :=
  let top := d.exponent + digitCount d.digits
  if d.digits = 0 ∨ top < -lowest then OfScientific.ofScientific 0 false 0
  else if highest < top then infinity
  else if d.exponent < 0 then OfScientific.ofScientific d.digits true (-d.exponent).toNat
  else OfScientific.ofScientific d.digits false d.exponent.toNat

/-- The number of 64 bits nearest to a decimal number. -/
def toFloat (d : Decimal) : Float :=
  let size := d.sizeIn 310 330 (1.0 / 0.0 : Float)
  if d.negative then -size else size

/-- The number of 32 bits nearest to a decimal number. -/
def toFloat32 (d : Decimal) : Float32 :=
  let size := d.sizeIn 40 60 (1.0 / 0.0 : Float32)
  if d.negative then -size else size

end Decimal

namespace Literal

/-- The number of 64 bits that a numeral stands for. -/
def toFloat : Literal → Float
  | .nan => 0.0 / 0.0
  | .infinite negative => if negative then -1.0 / 0.0 else 1.0 / 0.0
  | .finite d => d.toFloat

/-- The number of 32 bits that a numeral stands for. -/
def toFloat32 : Literal → Float32
  | .nan => 0.0 / 0.0
  | .infinite negative => if negative then -1.0 / 0.0 else 1.0 / 0.0
  | .finite d => d.toFloat32

end Literal

end Tonegraph
