import Tonegraph.Proofs.Arithmetic.Fraction
/-!
# Numbers that round

Floating-point numbers are rational numbers, and their operations give the exact result, moved to a
number that there is. Of such a rounding two things are used: how far it may move a number, and that
it leaves small integers where they are (`Rounding`). In an arithmetic with `RoundedTimes` the times
of frames are computed with a rounding. `Rounded` is such an arithmetic, for any rounding there is.
-/

set_option autoImplicit false

namespace Tonegraph

/-- A rounding to 53 binary digits, or to more: a number is moved by at most one part in `2 ^ 53`
of it, and an integer up to `2 ^ 53` is not moved. -/
structure Rounding where
  round : ℚ → ℚ
  near (x : ℚ) : |round x - x| ≤ |x| / 2 ^ 53
  whole (n : ℤ) : |n| ≤ 2 ^ 53 → round n = n

/-- Numbers among which are the rational numbers; integers, sums and quotients are the exact ones,
rounded. -/
class RoundedTimes (ρ : outParam Rounding) (R : Type) [Scalar R] where
  /-- The number for a rational number. -/
  ofRat : ℚ → R
  ofInt (n : ℤ) : Scalar.ofInt n = ofRat (ρ.round n)
  add (x y : ℚ) : ofRat x + ofRat y = ofRat (ρ.round (x + y))
  div (x y : ℚ) : y ≠ 0 → ofRat x / ofRat y = ofRat (ρ.round (x / y))
  le_iff (x y : ℚ) : ofRat x ≤ ofRat y ↔ x ≤ y

/-! ## An arithmetic for every rounding -/

/-- A fraction that operations round. -/
structure Rounded (ρ : Rounding) where
  fraction : Fraction
deriving DecidableEq

namespace Rounded

variable {ρ : Rounding}

/-- The number for an exact result. -/
def of (exact : Fraction) : Rounded ρ := ⟨⟨exact.value?.map ρ.round⟩⟩

instance : Scalar (Rounded ρ) where
  add a b := of (a.fraction + b.fraction)
  sub a b := of (a.fraction - b.fraction)
  mul a b := of (a.fraction * b.fraction)
  div a b := of (a.fraction / b.fraction)
  neg a := of (-a.fraction)
  lt a b := a.fraction < b.fraction
  le a b := a.fraction ≤ b.fraction
  beq a b := a.fraction == b.fraction
  decidableLT a b := inferInstanceAs (Decidable (a.fraction < b.fraction))
  decidableLE a b := inferInstanceAs (Decidable (a.fraction ≤ b.fraction))
  ofInt n := of (Scalar.ofInt n)
  floor a := of (Scalar.floor a.fraction)
  truncate low high a := Scalar.truncate low high a.fraction

instance : Arithmetic (Rounded ρ) where
  undefined := of Arithmetic.undefined
  pi := of Arithmetic.pi
  euler := of Arithmetic.euler
  isFinite a := Arithmetic.isFinite a.fraction
  ceil a := of (Arithmetic.ceil a.fraction)
  abs a := of (Arithmetic.abs a.fraction)
  sin a := of (Arithmetic.sin a.fraction)
  cos a := of (Arithmetic.cos a.fraction)
  tan a := of (Arithmetic.tan a.fraction)
  log a := of (Arithmetic.log a.fraction)
  exp2 a := of (Arithmetic.exp2 a.fraction)
  pow a b := of (Arithmetic.pow a.fraction b.fraction)
  remainder a b := of (Arithmetic.remainder a.fraction b.fraction)

instance : Narrowing (Rounded ρ) ℚ where
  narrow a := Narrowing.narrow a.fraction
  widen x := of (Narrowing.widen x)

instance : RoundedTimes ρ (Rounded ρ) where
  ofRat x := ⟨⟨some x⟩⟩
  ofInt _ := rfl
  add _ _ := rfl
  div x y nonzero := by
    have exact : (⟨some x⟩ / ⟨some y⟩ : Fraction) = ⟨some (x / y)⟩ := ExactClock.div x y nonzero
    show of (⟨some x⟩ / ⟨some y⟩) = _
    rw [exact]
    rfl
  le_iff := Fraction.le_iff

end Rounded

end Tonegraph
