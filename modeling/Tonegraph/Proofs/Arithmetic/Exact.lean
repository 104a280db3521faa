import Tonegraph.Clock
import Mathlib.Data.Rat.Floor
/-!
# Exact numbers as arithmetic

Rational numbers are an arithmetic that does not round. Every finite time that a floating-point
clock can be given is one of them. A clock is exact (`ExactClock`) when they are among its times and
do not round; there may be times beside them that are infinite or undefined.

The time of a frame is its number divided by the rate, counted from the beginning of a window. How
many frames there are to a window can be said where these times do not round (`ExactTimes`).
-/

set_option autoImplicit false

namespace Tonegraph

instance : Scalar ℚ where
  decidableLT := inferInstance
  decidableLE := inferInstance
  ofInt n := n
  floor x := ⌊x⌋
  truncate low high x := max low (min high (if x < 0 then ⌈x⌉ else ⌊x⌋))

@[simp] theorem ofNat_rat (n : Nat) : (Scalar.ofNat n : ℚ) = n := by
  simp [Scalar.ofNat, Scalar.ofInt]

/-- The whole second of an exact time is its floor, as far as 64 bits go. -/
theorem Clock.secondOf_rat (time : ℚ) :
    Clock.secondOf time = max Int64.minValue.toInt (min Int64.maxValue.toInt ⌊time⌋) := by
  simp only [Clock.secondOf, Scalar.truncate, Scalar.floor, Int.ceil_intCast, Int.floor_intCast,
    ite_self]

/-- Times among which are the rational numbers, and these do not round. -/
class ExactClock (T : Type) [Scalar T] where
  /-- The time for a rational number. -/
  ofRat : ℚ → T
  ofInt (n : Int) : Scalar.ofInt n = ofRat n
  add (x y : ℚ) : ofRat x + ofRat y = ofRat (x + y)
  sub (x y : ℚ) : ofRat x - ofRat y = ofRat (x - y)
  div (x y : ℚ) : y ≠ 0 → ofRat x / ofRat y = ofRat (x / y)
  lt_iff (x y : ℚ) : ofRat x < ofRat y ↔ x < y
  secondOf (x : ℚ) : Clock.secondOf (ofRat x) = Clock.secondOf x
  truncate_mem (most : Int) (a : T) : 0 ≤ most →
    0 ≤ Scalar.truncate 0 most a ∧ Scalar.truncate 0 most a ≤ most

theorem ExactClock.ofNat {T : Type} [Scalar T] [ExactClock T] (n : Nat) :
    (Scalar.ofNat n : T) = ofRat n := by
  rw [Scalar.ofNat, ofInt, Int.cast_natCast]

instance : ExactClock ℚ where
  ofRat := id
  ofInt _ := rfl
  add _ _ := rfl
  sub _ _ := rfl
  div _ _ _ := rfl
  lt_iff _ _ := Iff.rfl
  secondOf _ := rfl
  truncate_mem _ _ nonneg := ⟨le_max_left _ _, max_le nonneg (min_le_left _ _)⟩

/-- Numbers in which the times of frames do not round, and in which a ramp of no seconds has no
frames. -/
class ExactTimes (R : Type) [Scalar R] : Prop where
  le_iff (start stop : Int) (frame rate : Nat) : 0 < rate →
    ((Scalar.ofInt stop : R) ≤ Scalar.ofInt start + Scalar.ofNat frame / Scalar.ofNat rate ↔
      stop * rate ≤ start * rate + frame)
  truncate_zero (most : Int) (rate : Nat) : 0 ≤ most →
    Scalar.truncate 0 most (Scalar.ofNat 0 * Scalar.ofNat rate : R) = 0

/-- A second that a time has come to shows on the clock, unless it takes more than 64 bits. -/
theorem Clock.le_secondOf {second : Int} {time : ℚ} (reached : (second : ℚ) ≤ time)
    (fits : second ≤ Int64.maxValue.toInt) : second ≤ Clock.secondOf time := by
  rw [Clock.secondOf_rat]
  have below : second ≤ ⌊time⌋ := Int.le_floor.mpr reached
  exact le_max_of_le_right (le_min fits below)

end Tonegraph
