import Tonegraph.Arithmetic
/-!
# The keyboard: from values to frequencies

A value of a formula is a place on a keyboard: zero lies on the zero key, and a value beyond
either end of the keyboard comes in again at the other. Places between keys are kept, so pitch
glides. The frequency of a key is twelve steps to the octave from the tuning key. A value that is
not finite, or a keyboard without keys, has no place, which is heard as silence.

Differences of key numbers wrap around as numbers of 32 bits do.
-/

set_option autoImplicit false

namespace Tonegraph

/-- A table of keys, and the frequency of one of them. -/
structure Keyboard (R : Type) where
  /-- The lowest key. -/
  firstKey : Int32
  /-- The key just above every place on the keyboard. -/
  lastKey : Int32
  /-- The key whose frequency is known. -/
  tuningKey : Int32
  /-- The frequency of the tuning key. -/
  tuningFrequency : R
  /-- The key of the value zero. -/
  zeroKey : Int32

namespace Keyboard

variable {R : Type}

/-- A piano of 88 keys with the concert pitch of 440 at key 49 and the value zero at key 40. -/
def piano [Scalar R] : Keyboard R := ⟨1, 88, 49, Scalar.ofNat 440, 40⟩

variable [Arithmetic R]

/-- The place of a value among the keys. -/
def keyIndex? (k : Keyboard R) (value : R) : Option R :=
  if Arithmetic.isFinite value then
    let span := Scalar.ofInt (k.lastKey - k.firstKey).toInt
    let shifted := value + Scalar.ofInt (k.zeroKey - k.firstKey).toInt
    let key := Arithmetic.floorMod shifted span + Scalar.ofInt k.firstKey.toInt
    if Arithmetic.isFinite key then some key else none
  else none

/-- The frequency of a place among the keys. -/
def keyFrequency (k : Keyboard R) (key : R) : R :=
  k.tuningFrequency *
    Arithmetic.exp2 ((key - Scalar.ofInt k.tuningKey.toInt) / Scalar.ofNat 12)

/-- The frequency that a value is heard at. -/
def frequencyOf? (k : Keyboard R) (value : R) : Option R :=
  (k.keyIndex? value).map k.keyFrequency

end Keyboard

end Tonegraph
