import Tonegraph.Proofs.Arithmetic.Exact
/-!
# Fractions as the numbers of formulas

An arithmetic for formulas that does not round and that can be computed with: the four operations,
remainders, comparisons and whole parts of rational numbers. What has no rational value in general
is undefined in it: the two constants, the functions, powers, and a division by zero. So a formula
with one of these is silent.
-/

set_option autoImplicit false

namespace Tonegraph

/-- A rational number, or nothing where there is none. -/
structure Fraction where
  value? : Option ℚ
deriving DecidableEq

namespace Fraction

/-- The value of an operation on two fractions, where both have one. -/
def combine (operation : ℚ → ℚ → Option ℚ) (a b : Fraction) : Fraction :=
  ⟨a.value?.bind fun x => b.value?.bind fun y => operation x y⟩

/-- Whether two fractions have values that compare so. -/
def compares (holds : ℚ → ℚ → Bool) (a b : Fraction) : Bool :=
  (a.value?.bind fun x => b.value?.map fun y => holds x y).getD false

instance : Scalar Fraction where
  add := combine fun x y => some (x + y)
  sub := combine fun x y => some (x - y)
  mul := combine fun x y => some (x * y)
  div := combine fun x y => if y = 0 then none else some (x / y)
  neg a := ⟨a.value?.map (- ·)⟩
  lt a b := compares (· < ·) a b = true
  le a b := compares (· ≤ ·) a b = true
  beq := compares (· == ·)
  decidableLT a b := inferInstanceAs (Decidable (compares (· < ·) a b = true))
  decidableLE a b := inferInstanceAs (Decidable (compares (· ≤ ·) a b = true))
  ofInt n := ⟨some n⟩
  floor a := ⟨a.value?.map Scalar.floor⟩
  truncate low high a := a.value?.elim 0 (Scalar.truncate low high)

instance : Arithmetic Fraction where
  undefined := ⟨none⟩
  pi := ⟨none⟩
  euler := ⟨none⟩
  isFinite a := a.value?.isSome
  ceil a := ⟨a.value?.map fun x => ⌈x⌉⟩
  abs a := ⟨a.value?.map fun x => |x|⟩
  sin _ := ⟨none⟩
  cos _ := ⟨none⟩
  tan _ := ⟨none⟩
  log _ := ⟨none⟩
  exp2 _ := ⟨none⟩
  pow _ _ := ⟨none⟩
  remainder := combine fun x y =>
    if y = 0 then none else some (x - y * (if x / y < 0 then ⌈x / y⌉ else ⌊x / y⌋))

theorem le_iff (x y : ℚ) : (⟨some x⟩ : Fraction) ≤ ⟨some y⟩ ↔ x ≤ y := decide_eq_true_iff

instance : OfScientific Fraction where
  ofScientific mantissa below exponent := ⟨some (OfScientific.ofScientific mantissa below exponent)⟩

instance : ExactClock Fraction where
  ofRat x := ⟨some x⟩
  ofInt _ := rfl
  add _ _ := rfl
  sub _ _ := rfl
  div x y nonzero := by
    show (⟨if y = 0 then none else some (x / y)⟩ : Fraction) = _
    rw [if_neg nonzero]
  lt_iff _ _ := decide_eq_true_iff
  secondOf _ := rfl
  truncate_mem most a nonneg := by
    rcases a with ⟨_ | x⟩
    · exact ⟨le_refl 0, nonneg⟩
    · exact ExactClock.truncate_mem most x nonneg

instance : Narrowing Fraction ℚ where
  narrow a := a.value?.getD 0
  widen x := ⟨some x⟩

end Fraction

end Tonegraph
