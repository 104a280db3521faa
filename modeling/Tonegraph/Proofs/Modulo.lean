import Tonegraph.Proofs.Arithmetic.Binary64
import Tonegraph.Proofs.Evaluation
/-!
# The modulo of formulas

In an arithmetic that rounds, the modulo lies between zero and the divisor, and the divisor is never
reached: so it is in every formula of floating-point numbers (`evaluate_mod_float`). The modulo is
exact where the remainder is on the divisor's side of zero. Where the remainder is moved there, it
is rounded, and what rounds to the divisor is zero (`floorMod_law`), as it is just below zero
(`floorMod_justBelow`).
-/

set_option autoImplicit false

namespace Tonegraph

open RoundedNumbers

/-- A formula of a modulo has the modulo of the values for its value. -/
theorem evaluate_mod {R : Type} [Arithmetic R] {bindings : Bindings R} {f g : Formula R} {x y : R}
    (left : f.evaluate bindings = .ok x) (right : g.evaluate bindings = .ok y) :
    (Formula.binary .mod f g).evaluate bindings = .ok (Arithmetic.floorMod x y) :=
  Formula.evaluate_binary_eq_ok.mpr ⟨x, y, left, right, rfl⟩

/-- On floating-point numbers, as they compare themselves: a modulo of finite operands by a divisor
above zero is finite, not below zero, and below the divisor. -/
theorem evaluate_mod_float {bindings : Bindings Float} {f g : Formula Float} {x y : Float}
    (left : f.evaluate bindings = .ok x) (right : g.evaluate bindings = .ok y)
    (finite : x.isFinite = true) (finite' : y.isFinite = true) (positive : Scalar.ofNat 0 < y) :
    ∃ z, (Formula.binary .mod f g).evaluate bindings = .ok z ∧ z.isFinite = true ∧
      ¬z < Scalar.ofNat 0 ∧ z < y := by
  obtain ⟨a, dividend⟩ := Binary.isFinite_iff.mp finite
  obtain ⟨b, divisor⟩ := Binary.isFinite_iff.mp finite'
  have none : Binary.floatValue? (Scalar.ofNat 0) = some 0 := zero (R := Float)
  have above : 0 < b := (Binary.lt_iff_of_floatValue? none divisor).mp positive
  obtain ⟨r, modulo, low, high⟩ := Binary.floatValue?_floorMod dividend divisor above
  refine ⟨_, evaluate_mod left right, Binary.isFinite_iff.mpr ⟨r, modulo⟩, ?_, ?_⟩
  · rw [Binary.lt_iff_of_floatValue? modulo none]
    exact low.not_gt
  · exact (Binary.lt_iff_of_floatValue? modulo divisor).mpr high

section

variable {ρ : Precision} {R : Type} [Arithmetic R] [RoundedNumbers ρ R] {x y : R} {a b : ℚ}

/-- **The modulo of numbers.** For a divisor above zero the modulo is zero or more and less than the
divisor; for one below zero it is zero or less and more than the divisor. Where the remainder is
zero or has the divisor's sign, the modulo is what the floor of the quotient leaves. Elsewhere it is
that, rounded, or zero, and it is zero if and only if the rounding gives the divisor. So the value
of a modulo in a formula, by a divisor above zero, lies from zero to below the divisor. -/
theorem floorMod_law (dividend : value? x = some a) (divisor : value? y = some b)
    (nonzero : b ≠ 0) :
    let left := leftOver a b
    let floored := a - b * ⌊a / b⌋
    ∃ r, value? (Arithmetic.floorMod x y) = some r ∧
      (0 < b → 0 ≤ r ∧ r < b) ∧ (b < 0 → b < r ∧ r ≤ 0) ∧
      (left = 0 ∨ (left < 0 ↔ b < 0) → r = floored) ∧
      (¬(left = 0 ∨ (left < 0 ↔ b < 0)) →
        (r = if ρ.round floored = b then 0 else ρ.round floored) ∧
          (r = 0 ↔ ρ.round floored = b)) ∧
      (0 < b → ∀ (bindings : Bindings R) (f g : Formula R),
        f.evaluate bindings = .ok x → g.evaluate bindings = .ok y →
        ∃ z c, (Formula.binary .mod f g).evaluate bindings = .ok z ∧ value? z = some c ∧
          0 ≤ c ∧ c < b) := by
  intro left floored
  have modulo := value?_floorMod dividend divisor nonzero
  obtain ⟨above, below⟩ := Precision.floorMod_bounds (a := a) (mem divisor) nonzero
  refine ⟨ρ.floorMod a b, modulo, above, below, Precision.floorMod_eq nonzero, fun moves => ?_,
    fun positive bindings f g evaluated evaluated' => ?_⟩
  · exact ⟨Precision.floorMod_of_not nonzero moves,
      Precision.floorMod_eq_zero_iff (mem dividend) (mem divisor) nonzero moves⟩
  · exact ⟨_, _, evaluate_mod evaluated evaluated', modulo, above positive⟩

end

/-- The modulo by 3 of a floating-point number just below zero. The exact one is just below 3 and
rounds to 3, so it is zero. -/
theorem floorMod_justBelow :
    let x := Float.ofBits 0xBC30000000000000
    let y := Float.ofBits 0x4008000000000000
    let a : ℚ := -2 ^ (-60 : ℤ)
    value? x = some a ∧ value? y = some 3 ∧ (3 : ℚ) ≠ 0 ∧
      ¬(leftOver a 3 = 0 ∨ (leftOver a 3 < 0 ↔ (3 : ℚ) < 0)) ∧
      value? (Arithmetic.floorMod x y) = some 0 ∧
      Binary.precision.round (a - 3 * ⌊a / 3⌋) = 3 ∧
      ∃ z c, (Formula.binary .mod (.number x) (.number y)).evaluate .empty = .ok z ∧
        value? z = some c ∧ 0 ≤ c ∧ c < 3 := by
  intro x y a
  have dividend : value? x = some a := by
    have parts : Binary.ofWord .binary64 (0xBC30000000000000 : UInt64).toNat =
        .finite true (2 ^ 52) (-112) := by decide
    show Binary.floatValue? x = some a
    rw [Binary.floatValue?, Binary.ofFloat_ofBits, parts]
    norm_num [Binary.value?, Binary.signed, a]
  have divisor : value? y = some 3 := by
    have parts : Binary.ofWord .binary64 (0x4008000000000000 : UInt64).toNat =
        .finite false (3 * 2 ^ 51) (-51) := by decide
    show Binary.floatValue? y = some 3
    rw [Binary.floatValue?, Binary.ofFloat_ofBits, parts]
    norm_num [Binary.value?, Binary.signed]
  have left : leftOver a 3 = a := leftOver_eq (k := 0) (by simp) (by norm_num [a]) (by norm_num [a])
  have moves : ¬(leftOver a 3 = 0 ∨ (leftOver a 3 < 0 ↔ (3 : ℚ) < 0)) := by
    rw [left]
    norm_num [a]
  have computed : Arithmetic.floorMod x y = Float.ofBits 0 := by decide +kernel
  obtain ⟨r, modulo, -, -, -, moved, evaluated⟩ := floorMod_law dividend divisor (by norm_num)
  have zero : r = 0 := by
    rw [computed] at modulo
    exact Option.some.inj (modulo.symm.trans Binary.floatValue?_zero)
  rw [zero] at modulo
  exact ⟨dividend, divisor, by norm_num, moves, modulo, (moved moves).2.mp zero,
    evaluated (by norm_num) .empty (.number x) (.number y) rfl rfl⟩

end Tonegraph
