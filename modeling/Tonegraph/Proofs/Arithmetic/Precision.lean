import Tonegraph.Proofs.Arithmetic.Fraction
/-!
# Numbers of limited precision

The modulo of formulas takes a remainder, which is exact, and then may add the divisor, which
rounds. Of the numbers and of the rounding little is used (`Precision`): numbers are not moved and
do not overtake one another, the remainder of numbers is a number, and two numbers add up to zero
only if they do so exactly. In an arithmetic with `RoundedNumbers` numbers have values, and the
modulo is that of the values (`value?_floorMod`). It lies between zero and the divisor
(`Precision.floorMod_bounds`), as a sum that is rounded to the divisor itself is replaced by zero.

Floating-point numbers are such an arithmetic, and `Inexact` is one for every precision there is.
-/

set_option autoImplicit false

namespace Tonegraph

/-! ## What a division leaves -/

/-- A quotient without its fraction. -/
def wholeQuotient (a b : ℚ) : ℤ := if a / b < 0 then ⌈a / b⌉ else ⌊a / b⌋

/-- What the division of the first number by the second leaves. -/
def leftOver (a b : ℚ) : ℚ := a - b * wholeQuotient a b

section

variable {a b : ℚ}

/-- What the floor of a quotient leaves is a fraction of the divisor. -/
theorem sub_mul_floor (nonzero : b ≠ 0) : a - b * ⌊a / b⌋ = b * Int.fract (a / b) := by
  rw [Int.fract, mul_sub, mul_div_cancel₀ _ nonzero]

theorem sub_mul_floor_of_pos (positive : 0 < b) :
    0 ≤ a - b * ⌊a / b⌋ ∧ a - b * ⌊a / b⌋ < b := by
  rw [sub_mul_floor positive.ne']
  exact ⟨mul_nonneg positive.le (Int.fract_nonneg _),
    mul_lt_of_lt_one_right positive (Int.fract_lt_one _)⟩

theorem sub_mul_floor_of_neg (negative : b < 0) :
    b < a - b * ⌊a / b⌋ ∧ a - b * ⌊a / b⌋ ≤ 0 := by
  rw [sub_mul_floor negative.ne]
  have below := Int.fract_lt_one (a / b)
  exact ⟨by nlinarith, mul_nonpos_of_nonpos_of_nonneg negative.le (Int.fract_nonneg _)⟩

/-- A quotient below zero is cut to the whole number above it, which is the next one after its floor
unless the quotient is whole. -/
theorem wholeQuotient_cases (a b : ℚ) :
    wholeQuotient a b = ⌊a / b⌋ ∨
      0 < Int.fract (a / b) ∧ wholeQuotient a b = ⌊a / b⌋ + 1 := by
  rw [wholeQuotient]
  split
  · by_cases whole : Int.fract (a / b) = 0
    · left
      obtain ⟨n, quotient⟩ := Int.fract_eq_zero_iff.mp whole
      rw [← quotient, Int.ceil_intCast, Int.floor_intCast]
    · right
      refine ⟨(Int.fract_nonneg _).lt_of_ne' whole, ?_⟩
      exact (Int.ceil_eq_floor_add_one_iff_notMem _).mpr fun n =>
        whole (Int.fract_eq_zero_iff.mpr n)
  · exact .inl rfl

/-- What is left is zero or has the divisor's sign, and then the floor of the quotient leaves the
same; or it has the other sign, and then the floor leaves one divisor more, which is not zero. -/
theorem leftOver_cases (nonzero : b ≠ 0) :
    (leftOver a b = 0 ∨ (leftOver a b < 0 ↔ b < 0)) ∧ leftOver a b = a - b * ⌊a / b⌋ ∨
      ¬(leftOver a b = 0 ∨ (leftOver a b < 0 ↔ b < 0)) ∧
        leftOver a b + b = a - b * ⌊a / b⌋ ∧ a - b * ⌊a / b⌋ ≠ 0 := by
  have rest := sub_mul_floor (a := a) nonzero
  obtain floor | ⟨part, next⟩ := wholeQuotient_cases a b
  · left
    have left : leftOver a b = a - b * ⌊a / b⌋ := by rw [leftOver, floor]
    refine ⟨?_, left⟩
    rw [left, rest]
    obtain whole | part := (Int.fract_nonneg (a / b)).eq_or_lt
    · exact .inl (by rw [← whole, mul_zero])
    · exact .inr (Rat.mul_neg_iff_of_pos_right part)
  · right
    have left : leftOver a b + b = a - b * ⌊a / b⌋ := by
      rw [leftOver, next]
      push_cast
      ring
    refine ⟨?_, left, rest ▸ mul_ne_zero nonzero part.ne'⟩
    have back : leftOver a b = -b * (1 - Int.fract (a / b)) := by
      rw [rest] at left
      linarith
    have some : 0 < 1 - Int.fract (a / b) := sub_pos.mpr (Int.fract_lt_one _)
    rw [back, Rat.mul_neg_iff_of_pos_right some, neg_lt_zero]
    rintro (zero | same)
    · exact mul_ne_zero (neg_ne_zero.mpr nonzero) some.ne' zero
    · obtain negative | positive := lt_or_gt_of_ne nonzero
      · exact negative.not_gt (same.mpr negative)
      · exact positive.not_gt (same.mp positive)

/-- What is left is the one number that is smaller than the divisor, has the sign of the dividend
and is a whole multiple of the divisor away from it. -/
theorem leftOver_eq {left : ℚ} {k : ℤ} (whole : a = b * k + left) (less : |left| < |b|)
    (sign : 0 ≤ left * a) : leftOver a b = left := by
  have nonzero : b ≠ 0 := abs_pos.mp ((abs_nonneg left).trans_lt less)
  have quotient : a / b = k + left / b := by
    rw [whole, add_div, mul_div_cancel_left₀ _ nonzero]
  have part : |left / b| < 1 := by
    rw [abs_div]
    exact (div_lt_one (abs_pos.mpr nonzero)).mpr less
  have partSign : 0 ≤ left / b * (a / b) := by
    rw [div_mul_div_comm]
    exact div_nonneg sign (mul_self_nonneg b)
  obtain ⟨low, high⟩ := abs_lt.mp part
  have cut : wholeQuotient a b = k := by
    rw [wholeQuotient]
    split
    · next negative =>
        have upto : left / b ≤ 0 := nonpos_of_mul_nonneg_left partSign negative
        exact Int.ceil_eq_iff.mpr ⟨by linarith, by linarith⟩
    · next nonneg =>
        obtain zero | positive := (not_lt.mp nonneg).eq_or_lt
        · -- No whole number but zero is less than one away from a quotient that is zero.
          have size : |(k : ℚ)| < 1 := abs_lt.mpr ⟨by linarith, by linarith⟩
          have none : k = 0 := Int.abs_lt_one_iff.mp (by exact_mod_cast size)
          rw [← zero, Int.floor_zero, none]
        · have above : 0 ≤ left / b := nonneg_of_mul_nonneg_left partSign positive
          exact Int.floor_eq_iff.mpr ⟨by linarith, by linarith⟩
  rw [leftOver, cut, whole, add_sub_cancel_left]

end

/-! ## Numbers and their rounding -/

/-- The numbers that there are, and which of them others are rounded to. -/
structure Precision where
  numbers : Set ℚ
  zero_mem : 0 ∈ numbers
  leftOver_mem {a b : ℚ} : a ∈ numbers → b ∈ numbers → b ≠ 0 → leftOver a b ∈ numbers
  round : ℚ → ℚ
  round_mem (x : ℚ) : round x ∈ numbers
  round_eq {x : ℚ} : x ∈ numbers → round x = x
  monotone : Monotone round
  /-- A sum that is not zero is not rounded to zero. -/
  round_add_ne {a b : ℚ} : a ∈ numbers → b ∈ numbers → a + b ≠ 0 → round (a + b) ≠ 0

/-- An arithmetic in which numbers have values, next to infinite and undefined ones that have none.
Remainders are exact and sums are rounded. A sum greater than what is added may be infinite. -/
class RoundedNumbers (ρ : outParam Precision) (R : Type) [Arithmetic R] where
  /-- The value of a number. -/
  value? : R → Option ℚ
  mem {x : R} {a : ℚ} : value? x = some a → a ∈ ρ.numbers
  zero : value? (Scalar.ofNat 0) = some 0
  add {x y : R} {a b : ℚ} : value? x = some a → value? y = some b → |a + b| ≤ |b| →
    value? (x + y) = some (ρ.round (a + b))
  remainder {x y : R} {a b : ℚ} : value? x = some a → value? y = some b → b ≠ 0 →
    value? (Arithmetic.remainder x y) = some (leftOver a b)
  lt_iff {x y : R} {a b : ℚ} : value? x = some a → value? y = some b → (x < y ↔ a < b)
  beq_iff {x y : R} {a b : ℚ} : value? x = some a → value? y = some b →
    ((x == y) = true ↔ a = b)

namespace Precision

variable {ρ : Precision} {a b : ℚ}

/-- The modulo of numbers. -/
def floorMod (ρ : Precision) (a b : ℚ) : ℚ :=
  if leftOver a b = 0 ∨ (leftOver a b < 0 ↔ b < 0) then leftOver a b
  else if ρ.round (leftOver a b + b) = b then 0
  else ρ.round (leftOver a b + b)

/-- Nothing is added to what has the divisor's sign. -/
theorem floorMod_eq (nonzero : b ≠ 0) (stays : leftOver a b = 0 ∨ (leftOver a b < 0 ↔ b < 0)) :
    ρ.floorMod a b = a - b * ⌊a / b⌋ := by
  obtain ⟨-, same⟩ | ⟨moves, -⟩ := leftOver_cases (a := a) nonzero
  · rw [floorMod, if_pos stays, same]
  · exact absurd stays moves

/-- What has the other sign is moved by one divisor. -/
theorem floorMod_of_not (nonzero : b ≠ 0)
    (moves : ¬(leftOver a b = 0 ∨ (leftOver a b < 0 ↔ b < 0))) :
    ρ.floorMod a b =
      if ρ.round (a - b * ⌊a / b⌋) = b then 0 else ρ.round (a - b * ⌊a / b⌋) := by
  obtain ⟨stays, -⟩ | ⟨-, moved, -⟩ := leftOver_cases (a := a) nonzero
  · exact absurd stays moves
  · rw [floorMod, if_neg moves, moved]

/-- What has been moved is zero only where it is rounded to the divisor. -/
theorem floorMod_eq_zero_iff (dividend : a ∈ ρ.numbers) (divisor : b ∈ ρ.numbers) (nonzero : b ≠ 0)
    (moves : ¬(leftOver a b = 0 ∨ (leftOver a b < 0 ↔ b < 0))) :
    ρ.floorMod a b = 0 ↔ ρ.round (a - b * ⌊a / b⌋) = b := by
  obtain ⟨stays, -⟩ | ⟨-, moved, some⟩ := leftOver_cases (a := a) nonzero
  · exact absurd stays moves
  · have kept : ρ.round (a - b * ⌊a / b⌋) ≠ 0 :=
      moved ▸ ρ.round_add_ne (ρ.leftOver_mem dividend divisor nonzero) divisor (moved ▸ some)
    rw [floorMod_of_not nonzero moves, ite_eq_left_iff]
    exact ⟨fun zero => by_contra fun apart => kept (zero apart), fun top apart => absurd top apart⟩

/-- The modulo is zero or lies on the divisor's side of zero, nearer to zero than the divisor. -/
theorem floorMod_bounds (divisor : b ∈ ρ.numbers) (nonzero : b ≠ 0) :
    (0 < b → 0 ≤ ρ.floorMod a b ∧ ρ.floorMod a b < b) ∧
      (b < 0 → b < ρ.floorMod a b ∧ ρ.floorMod a b ≤ 0) := by
  by_cases stays : leftOver a b = 0 ∨ (leftOver a b < 0 ↔ b < 0)
  · rw [floorMod_eq nonzero stays]
    exact ⟨sub_mul_floor_of_pos, sub_mul_floor_of_neg⟩
  · rw [floorMod_of_not nonzero stays]
    have atZero := ρ.round_eq ρ.zero_mem
    have atDivisor := ρ.round_eq divisor
    constructor
    · intro positive
      obtain ⟨low, high⟩ := sub_mul_floor_of_pos (a := a) positive
      split
      · exact ⟨le_rfl, positive⟩
      · next apart =>
          exact ⟨atZero ▸ ρ.monotone low, (atDivisor ▸ ρ.monotone high.le).lt_of_ne apart⟩
    · intro negative
      obtain ⟨low, high⟩ := sub_mul_floor_of_neg (a := a) negative
      split
      · exact ⟨negative, le_rfl⟩
      · next apart =>
          exact ⟨(atDivisor ▸ ρ.monotone low.le).lt_of_ne' apart, atZero ▸ ρ.monotone high⟩

end Precision

namespace RoundedNumbers

variable {ρ : Precision} {R : Type} [Arithmetic R] [RoundedNumbers ρ R] {x y : R} {a b : ℚ}

/-- The modulo of an arithmetic is that of the values. -/
theorem value?_floorMod (dividend : value? x = some a) (divisor : value? y = some b)
    (nonzero : b ≠ 0) : value? (Arithmetic.floorMod x y) = some (ρ.floorMod a b) := by
  have left := RoundedNumbers.remainder dividend divisor nonzero
  have sides : ((Arithmetic.remainder x y == Scalar.ofNat 0 ||
      decide (Arithmetic.remainder x y < Scalar.ofNat 0) == decide (y < Scalar.ofNat 0)) = true) ↔
        (leftOver a b = 0 ∨ (leftOver a b < 0 ↔ b < 0)) := by
    rw [Bool.or_eq_true, beq_iff left zero, beq_iff_eq, decide_eq_decide, lt_iff left zero,
      lt_iff divisor zero]
  rw [Arithmetic.floorMod, Precision.floorMod]
  simp only [sides]
  by_cases stays : leftOver a b = 0 ∨ (leftOver a b < 0 ↔ b < 0)
  · rw [if_pos stays, if_pos stays, left]
  · rw [if_neg stays, if_neg stays]
    obtain ⟨same, -⟩ | ⟨-, moved, -⟩ := leftOver_cases (a := a) nonzero
    · exact absurd same stays
    · have small : |leftOver a b + b| ≤ |b| := by
        rw [moved, sub_mul_floor nonzero, abs_mul, Int.abs_fract]
        exact mul_le_of_le_one_right (abs_nonneg b) (Int.fract_lt_one _).le
      have sum := RoundedNumbers.add left divisor small
      simp only [beq_iff sum divisor]
      split
      · exact zero
      · exact sum

end RoundedNumbers

/-! ## An arithmetic for every precision -/

/-- Fractions whose sums are rounded. -/
def Inexact (_ : Precision) : Type := Fraction

namespace Inexact

variable {ρ : Precision}

instance : Arithmetic (Inexact ρ) :=
  show Arithmetic Fraction from
    { (inferInstance : Arithmetic Fraction) with
      add := Fraction.combine fun a b => some (ρ.round (a + b)) }

open Classical in
/-- The value of a fraction that is a number. -/
noncomputable def number? (x : Inexact ρ) : Option ℚ :=
  (Fraction.value? x).filter (· ∈ ρ.numbers)

open Classical in
theorem number?_eq_some_iff {x : Inexact ρ} {a : ℚ} :
    x.number? = some a ↔ x = (⟨some a⟩ : Fraction) ∧ a ∈ ρ.numbers := by
  rw [number?, Option.filter_eq_some_iff, decide_eq_true_eq]
  exact and_congr_left fun _ => ⟨fun value => congrArg Fraction.mk value, congrArg Fraction.value?⟩

noncomputable instance : RoundedNumbers ρ (Inexact ρ) where
  value? := number?
  mem value := (number?_eq_some_iff.mp value).2
  zero := number?_eq_some_iff.mpr ⟨rfl, ρ.zero_mem⟩
  add left right _ := by
    obtain ⟨rfl, -⟩ := number?_eq_some_iff.mp left
    obtain ⟨rfl, -⟩ := number?_eq_some_iff.mp right
    exact number?_eq_some_iff.mpr ⟨rfl, ρ.round_mem _⟩
  remainder {x y a b} left right nonzero := by
    obtain ⟨rfl, dividend⟩ := number?_eq_some_iff.mp left
    obtain ⟨rfl, divisor⟩ := number?_eq_some_iff.mp right
    refine number?_eq_some_iff.mpr ⟨?_, ρ.leftOver_mem dividend divisor nonzero⟩
    show (⟨if b = 0 then none else some _⟩ : Fraction) = _
    rw [if_neg nonzero]
    rfl
  lt_iff left right := by
    obtain ⟨rfl, -⟩ := number?_eq_some_iff.mp left
    obtain ⟨rfl, -⟩ := number?_eq_some_iff.mp right
    exact decide_eq_true_iff
  beq_iff {x y a b} left right := by
    obtain ⟨rfl, -⟩ := number?_eq_some_iff.mp left
    obtain ⟨rfl, -⟩ := number?_eq_some_iff.mp right
    show (a == b) = true ↔ a = b
    exact beq_iff_eq

end Inexact

end Tonegraph
