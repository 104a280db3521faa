import Mathlib.Analysis.SpecialFunctions.Pow.Real
import Mathlib.Analysis.SpecialFunctions.Trigonometric.Basic
import Tonegraph.Proofs.Arithmetic.Exact
/-!
# Real numbers as arithmetic

What an oscillator does is said in real numbers. In an arithmetic with `RealNumbers` numbers stand
for real numbers, unless they are infinite or undefined. The steps of a phase and of a gain are
exact in it: sums, differences, quotients by a whole number, and the floor. Of products it is only
used that a factor of at most one does not enlarge the other one, of the sine that it is at most
one, and of narrowing that it does not carry a number beyond a sample. So rounding is excluded where
errors would add up, and allowed elsewhere.

No law says that a product or a power of two stands for a real number when its operands do, as
floating-point numbers overflow in both. `PartialReal` is an arithmetic with these laws in which
powers of two overflow where those of binary64 do.
-/

set_option autoImplicit false

namespace Tonegraph

/-- Numbers that stand for real numbers, or for none when they are infinite or undefined. -/
class RealNumbers (R : Type) [Scalar R] where
  /-- The real number that a number stands for. -/
  value? : R → Option ℝ
  ofInt (n : Int) : value? (Scalar.ofInt n) = some (n : ℝ)
  add {x y : R} {a b : ℝ} : value? x = some a → value? y = some b →
    value? (x + y) = some (a + b)
  sub {x y : R} {a b : ℝ} : value? x = some a → value? y = some b →
    value? (x - y) = some (a - b)
  div_ofInt {x : R} {a : ℝ} {n : Int} : n ≠ 0 → value? x = some a →
    value? (x / Scalar.ofInt n) = some (a / n)
  floor {x : R} {a : ℝ} : value? x = some a → value? (Scalar.floor x) = some (⌊a⌋ : ℝ)
  /-- A factor of at most one does not enlarge the other one. -/
  mul {x y : R} {a b : ℝ} : value? x = some a → value? y = some b → |a| ≤ 1 ∨ |b| ≤ 1 →
    ∃ c, value? (x * y) = some c ∧ (|a| ≤ 1 → |c| ≤ |b|) ∧ (|b| ≤ 1 → |c| ≤ |a|)
  truncate {x : R} {a : ℝ} (low high : Int) : value? x = some a →
    Scalar.truncate low high x = max low (min high (if a < 0 then ⌈a⌉ else ⌊a⌋))

namespace RealNumbers

variable {R S : Type} [Scalar R] [RealNumbers R] [Scalar S] [RealNumbers S]

/-- A number is neither infinite nor undefined. -/
def Finite (x : R) : Prop := ∃ a : ℝ, value? x = some a

/-- A number lies in `[0, 1)`. -/
def InTurn (x : R) : Prop := ∃ p : ℝ, value? x = some p ∧ 0 ≤ p ∧ p < 1

/-- A number is at most as large as another one, signs apart. -/
def NotAbove (x y : R) : Prop :=
  ∃ a b : ℝ, value? x = some a ∧ value? y = some b ∧ |a| ≤ |b|

theorem ofNat (n : Nat) : value? (Scalar.ofNat n : R) = some (n : ℝ) := by
  rw [Scalar.ofNat, ofInt, Int.cast_natCast]

theorem div_ofNat {x : R} {a : ℝ} {n : Nat} (positive : 0 < n) (value : value? x = some a) :
    value? (x / Scalar.ofNat n) = some (a / n) := by
  rw [Scalar.ofNat, div_ofInt (Int.natCast_ne_zero.mpr positive.ne') value, Int.cast_natCast]

theorem InTurn.finite {x : R} (inTurn : InTurn x) : Finite x := by
  obtain ⟨p, value, -⟩ := inTurn
  exact ⟨p, value⟩

theorem inTurn_zero : InTurn (Scalar.ofNat 0 : R) := ⟨0, by simpa using ofNat 0, by simp⟩

/-- What a number exceeds its floor by is its fraction. -/
theorem sub_floor {x : R} {a : ℝ} (value : value? x = some a) :
    value? (x - Scalar.floor x) = some (Int.fract a) := sub value (floor value)

theorem inTurn_of_fract {x : R} {a : ℝ} (value : value? x = some (Int.fract a)) : InTurn x :=
  ⟨_, value, Int.fract_nonneg a, Int.fract_lt_one a⟩

/-- The number of whole steps in a length, up to a room that fits into 64 bits. -/
theorem truncate_toNat {x : R} {a : ℝ} (value : value? x = some a) {room : Nat}
    (fits : room < UInt64.size) :
    min (Scalar.truncate 0 (UInt64.size - 1) x).toNat room = min ⌊a⌋₊ room := by
  have size : (UInt64.size : Int) = 18446744073709551616 := rfl
  have cut : (if a < 0 then ⌈a⌉ else ⌊a⌋) ⊔ 0 = (⌊a⌋₊ : Int) := by
    split
    · next negative =>
        rw [Nat.floor_of_nonpos negative.le, max_eq_right (Int.ceil_nonpos.mpr negative.le)]
        rfl
    · next nonneg =>
        rw [Int.natCast_floor_eq_floor (not_lt.mp nonneg),
          max_eq_left (Int.floor_nonneg.mpr (not_lt.mp nonneg))]
  have fits' : room < 18446744073709551616 := fits
  rw [truncate 0 _ value, size]
  omega

end RealNumbers

/-- Numbers that stand for real numbers, with a sine of at most one. -/
class RealArithmetic (R : Type) [Arithmetic R] extends RealNumbers R where
  isFinite_iff (x : R) : Arithmetic.isFinite x = true ↔ ∃ a, value? x = some a
  turn : ∃ a, value? (Scalar.ofNat 2 * Arithmetic.pi : R) = some a
  sin {x : R} {a : ℝ} : value? x = some a →
    ∃ u, value? (Arithmetic.sin x) = some u ∧ |u| ≤ 1

open RealNumbers in
/-- Samples stand for the same real numbers as their values, and a number that is at most as large
as a sample is narrowed to one that is so too. -/
class RealNarrowing (R S : Type) [Arithmetic R] [Scalar S] [Narrowing R S] [RealNumbers R]
    [RealNumbers S] : Prop where
  widen (x : S) : value? (Narrowing.widen x : R) = value? x
  narrow {x : R} {y : S} {a b : ℝ} : value? x = some a → value? y = some b → |a| ≤ |b| →
    NotAbove (Narrowing.narrow x : S) y

/-! ## Real numbers with overflow -/

/-- A real number, or nothing where there is none. -/
structure PartialReal where
  value? : Option ℝ

namespace PartialReal

/-- The value of an operation on two numbers, where both have one. -/
noncomputable def combine (operation : ℝ → ℝ → Option ℝ) (a b : PartialReal) : PartialReal :=
  ⟨a.value?.bind fun x => b.value?.bind fun y => operation x y⟩

/-- Two numbers have values that compare so. -/
def Compares (holds : ℝ → ℝ → Prop) (a b : PartialReal) : Prop :=
  ∃ x ∈ a.value?, ∃ y ∈ b.value?, holds x y

theorem compares_some {holds : ℝ → ℝ → Prop} {x y : ℝ} :
    Compares holds ⟨some x⟩ ⟨some y⟩ ↔ holds x y := by
  simp [Compares]

/-- A real number without its fraction. -/
noncomputable def whole (x : ℝ) : Int := if x < 0 then ⌈x⌉ else ⌊x⌋

open Classical in
noncomputable instance : Scalar PartialReal where
  add := combine fun x y => some (x + y)
  sub := combine fun x y => some (x - y)
  mul := combine fun x y => some (x * y)
  div := combine fun x y => if y = 0 then none else some (x / y)
  neg a := ⟨a.value?.map (- ·)⟩
  lt := Compares (· < ·)
  le := Compares (· ≤ ·)
  beq a b := decide (Compares (· = ·) a b)
  decidableLT _ _ := inferInstance
  decidableLE _ _ := inferInstance
  ofInt n := ⟨some n⟩
  floor a := ⟨a.value?.map fun x => ⌊x⌋⟩
  truncate low high a := a.value?.elim 0 fun x => max low (min high (whole x))

/-- As in binary64, two has no power from 1024 on. -/
noncomputable instance : Arithmetic PartialReal where
  undefined := ⟨none⟩
  pi := ⟨some Real.pi⟩
  euler := ⟨some (Real.exp 1)⟩
  isFinite a := a.value?.isSome
  ceil a := ⟨a.value?.map fun x => ⌈x⌉⟩
  abs a := ⟨a.value?.map fun x => |x|⟩
  sin a := ⟨a.value?.map Real.sin⟩
  cos a := ⟨a.value?.map Real.cos⟩
  tan a := ⟨a.value?.map Real.tan⟩
  log a := ⟨a.value?.bind fun x => if 0 < x then some (Real.log x) else none⟩
  exp2 a := ⟨a.value?.bind fun x => if x < 1024 then some (2 ^ x) else none⟩
  pow := combine fun x y => if 0 < x then some (x ^ y) else none
  remainder := combine fun x y => if y = 0 then none else some (x - y * whole (x / y))

instance : Narrowing PartialReal PartialReal where
  narrow := id
  widen := id

theorem eq_of_value {x : PartialReal} {a : ℝ} (value : x.value? = some a) : x = ⟨some a⟩ :=
  congrArg mk value

noncomputable instance : RealArithmetic PartialReal where
  value? := value?
  ofInt _ := rfl
  add left right := by
    rw [eq_of_value left, eq_of_value right]
    rfl
  sub left right := by
    rw [eq_of_value left, eq_of_value right]
    rfl
  div_ofInt {x a n} nonzero value := by
    have nonzero' : (n : ℝ) ≠ 0 := Int.cast_ne_zero.mpr nonzero
    rw [eq_of_value value]
    show (if (n : ℝ) = 0 then none else some (a / n)) = _
    rw [if_neg nonzero']
  floor value := by
    rw [eq_of_value value]
    rfl
  mul {x y a b} left right _ := by
    rw [eq_of_value left, eq_of_value right]
    refine ⟨a * b, rfl, fun small => ?_, fun small => ?_⟩
    · rw [abs_mul]
      exact mul_le_of_le_one_left (abs_nonneg b) small
    · rw [abs_mul]
      exact mul_le_of_le_one_right (abs_nonneg a) small
  truncate low high value := by
    rw [eq_of_value value]
    rfl
  isFinite_iff x := Option.isSome_iff_exists
  turn := ⟨_, rfl⟩
  sin {x a} value := by
    rw [eq_of_value value]
    exact ⟨Real.sin a, rfl, Real.abs_sin_le_one a⟩

instance : RealNarrowing PartialReal PartialReal where
  widen _ := rfl
  narrow {_ _ a b} left right small := ⟨a, b, left, right, small⟩

/-- The times of frames are the real ones. -/
instance : ExactTimes PartialReal where
  le_iff start stop frame rate positive := by
    have positive' : (0 : ℝ) < rate := by exact_mod_cast positive
    let time : PartialReal := Scalar.ofInt start + Scalar.ofNat frame / Scalar.ofNat rate
    have value : RealNumbers.value? time = some (start + frame / rate : ℝ) :=
      RealNumbers.add (RealNumbers.ofInt start)
        (RealNumbers.div_ofNat positive (RealNumbers.ofNat frame))
    show Scalar.ofInt stop ≤ time ↔ _
    rw [eq_of_value value]
    show Compares (· ≤ ·) ⟨some (stop : ℝ)⟩ ⟨some _⟩ ↔ _
    rw [compares_some, ← sub_le_iff_le_add', le_div_iff₀ positive', sub_mul, sub_le_iff_le_add']
    exact_mod_cast Iff.rfl
  truncate_zero most rate nonneg := by
    have product : (Scalar.ofNat 0 * Scalar.ofNat rate : PartialReal).value? = some 0 := by
      show some (((0 : Nat) : Int) * ((rate : Nat) : Int) : ℝ) = _
      simp
    rw [RealNumbers.truncate 0 most product]
    simp [nonneg]

/-- A number below the modulus is its own remainder. -/
theorem floorMod_of_within {x y : ℝ} (nonneg : 0 ≤ x) (less : x < y) :
    Arithmetic.floorMod (⟨some x⟩ : PartialReal) ⟨some y⟩ = ⟨some x⟩ := by
  have positive : 0 < y := nonneg.trans_lt less
  have small : whole (x / y) = 0 := by
    rw [whole, if_neg (not_lt.mpr (div_nonneg nonneg positive.le)), Int.floor_eq_zero_iff]
    exact ⟨div_nonneg nonneg positive.le, (div_lt_one positive).mpr less⟩
  have rest : Arithmetic.remainder (⟨some x⟩ : PartialReal) ⟨some y⟩ = ⟨some x⟩ := by
    show (⟨if y = 0 then none else some (x - y * (whole (x / y) : Int))⟩ : PartialReal) = _
    rw [if_neg positive.ne', small, Int.cast_zero, mul_zero, sub_zero]
  have zero : (Scalar.ofNat 0 : PartialReal) = ⟨some 0⟩ := by
    show (⟨some ((0 : Nat) : Int)⟩ : PartialReal) = _
    simp
  have same : decide ((⟨some x⟩ : PartialReal) < ⟨some 0⟩) =
      decide ((⟨some y⟩ : PartialReal) < ⟨some 0⟩) := by
    have left : ¬(⟨some x⟩ : PartialReal) < ⟨some 0⟩ := compares_some.not.mpr nonneg.not_gt
    have right : ¬(⟨some y⟩ : PartialReal) < ⟨some 0⟩ := compares_some.not.mpr positive.not_gt
    rw [decide_eq_false left, decide_eq_false right]
  rw [Arithmetic.floorMod, rest, zero]
  simp only [same, beq_self_eq_true, Bool.or_true, if_true]

end PartialReal

end Tonegraph
