import Tonegraph.Proofs.Arithmetic.FloatingPoint
import Tonegraph.Proofs.Arithmetic.Precision
import Mathlib.Data.Int.Log
import Mathlib.Tactic.LinearCombination
/-!
# The precision of floating-point numbers

Rounding to 53 binary digits, and to fewer below the least normal number, is a `Precision`. There is
one nearest number, or the even one of two (`IsRounded.unique`), so rounding is a function
(`toNearest`), and it is monotone as no number is nearer. A sum of two numbers ends at the last
place of all, if not before; so unless it is zero it is at least as great as the least number, and
stays so. The remainder of two numbers ends at the lower place of the two.

Finite floating-point numbers are the numbers of it that have a word (`RoundedNumbers Float`).
-/

set_option autoImplicit false

namespace Tonegraph.Binary

/-! ## The nearest number -/

/-- The integer nearest to a number, the even one of two. -/
def nearestInteger (x : ℚ) : ℤ :=
  if Int.fract x < 1 / 2 ∨ Int.fract x = 1 / 2 ∧ Even ⌊x⌋ then ⌊x⌋ else ⌊x⌋ + 1

theorem nearestInteger_near (x : ℚ) :
    |x - nearestInteger x| ≤ 1 / 2 ∧ (|x - nearestInteger x| = 1 / 2 → Even (nearestInteger x)) := by
  have low := Int.fract_nonneg x
  have high := Int.fract_lt_one x
  rw [nearestInteger]
  split
  · next down =>
      rw [Int.self_sub_floor, abs_of_nonneg low]
      obtain less | ⟨half, even⟩ := down
      · exact ⟨less.le, fun tie => absurd tie less.ne⟩
      · exact ⟨half.le, fun _ => even⟩
  · next up =>
      obtain ⟨notLess, odd⟩ := not_or.mp up
      have above : x - (⌊x⌋ + 1 : ℤ) = Int.fract x - 1 := by
        rw [Int.fract]
        push_cast
        ring
      rw [above, abs_of_neg (by linarith)]
      refine ⟨by linarith, fun tie => ?_⟩
      have half : Int.fract x = 1 / 2 := by linarith
      exact (Int.not_even_iff_odd.mp fun even => odd ⟨half, even⟩).add_one

/-- The last place of 53 digits of a number, or of all places. -/
def lastPlace (x : ℚ) : ℤ := max (Int.log 2 |x| - 52) (-1074)

theorem le_of_lastPlace {x : ℚ} (nonzero : x ≠ 0) (above : -1074 < lastPlace x) :
    2 ^ 52 * 2 ^ lastPlace x ≤ |x| := by
  have place : lastPlace x = Int.log 2 |x| - 52 := by
    rw [lastPlace] at above ⊢
    omega
  have first := Int.zpow_log_le_self (b := 2) (by decide) (abs_pos.mpr nonzero)
  rw [place, ← zpow_natCast, ← zpow_add₀ (by norm_num), Nat.cast_ofNat, add_sub_cancel]
  exact_mod_cast first

theorem lt_of_lastPlace (x : ℚ) : |x| < 2 ^ 53 * 2 ^ lastPlace x := by
  have places : Int.log 2 |x| + 1 ≤ (53 : Nat) + lastPlace x := by
    rw [lastPlace]
    omega
  rw [← zpow_natCast, ← zpow_add₀ (by norm_num)]
  refine (Int.lt_zpow_succ_log_self (b := 2) (by decide) |x|).trans_le ?_
  exact_mod_cast zpow_le_zpow_right₀ (by norm_num : (1 : ℚ) ≤ 2) places

/-- The number nearest to a rational number. -/
def toNearest (x : ℚ) : ℚ := nearestInteger (x / 2 ^ lastPlace x) * 2 ^ lastPlace x

theorem isRounded_toNearest (x : ℚ) : IsRounded x (toNearest x) := by
  by_cases zero : x = 0
  · have none : nearestInteger 0 = 0 := by simp [nearestInteger]
    rw [zero, toNearest, zero_div, none, Int.cast_zero, zero_mul]
    exact IsRounded.zero
  · have unit : (0 : ℚ) < 2 ^ lastPlace x := by positivity
    obtain ⟨near, even⟩ := nearestInteger_near (x / 2 ^ lastPlace x)
    have distance : |x - nearestInteger (x / 2 ^ lastPlace x) * 2 ^ lastPlace x| =
        |x / 2 ^ lastPlace x - nearestInteger (x / 2 ^ lastPlace x)| * 2 ^ lastPlace x := by
      rw [← abs_mul_zpow, sub_mul, div_mul_cancel₀ _ unit.ne']
    refine ⟨_, lastPlace x, ⟨le_max_right _ _, le_of_lastPlace zero, ?_, fun tie => even ?_⟩, rfl⟩
    · rw [distance]
      nlinarith
    · rw [distance] at tie
      nlinarith

/-- A number of 53 digits and the power of two after these. -/
theorem representable_of_le {k place : ℤ} (few : |k| ≤ 2 ^ 53) (least : -1074 ≤ place) :
    Representable (k * 2 ^ place) := by
  obtain less | full := few.lt_or_eq
  · exact ⟨k, place, less, least, rfl⟩
  · obtain ⟨half, halves⟩ : ∃ half, k = half * 2 := by
      obtain positive | negative := abs_eq (by norm_num) |>.mp full
      · exact ⟨2 ^ 52, by rw [positive]; norm_num⟩
      · exact ⟨-2 ^ 52, by rw [negative]; norm_num⟩
    refine ⟨half, place + 1, ?_, by omega, ?_⟩
    · rw [halves, abs_mul, abs_two] at full
      omega
    · rw [halves, zpow_add_one₀ (by norm_num)]
      push_cast
      ring

theorem representable_toNearest (x : ℚ) : Representable (toNearest x) := by
  refine representable_of_le ?_ (le_max_right _ _)
  have unit : (0 : ℚ) < 2 ^ lastPlace x := by positivity
  have digits : |x / 2 ^ lastPlace x| < 2 ^ 53 := by
    rw [abs_div, abs_of_pos unit, div_lt_iff₀ unit]
    exact lt_of_lastPlace x
  have near := (nearestInteger_near (x / 2 ^ lastPlace x)).1
  have upto := abs_sub_abs_le_abs_sub (nearestInteger (x / 2 ^ lastPlace x) : ℚ)
    (x / 2 ^ lastPlace x)
  rw [abs_sub_comm] at upto
  have size : |(nearestInteger (x / 2 ^ lastPlace x) : ℚ)| < 2 ^ 53 + 1 := by linarith
  exact Int.lt_add_one_iff.mp (by exact_mod_cast size)

/-- Of two multiples that are equally near and both nearest at their places, the one at the finer
place is the other one: else that one would be an odd multiple of the finer place too. -/
theorem Nearest.eq_of_le {x : ℚ} {k k' place place' : ℤ} (nearest : Nearest x k place)
    (nearest' : Nearest x k' place') (finer : place ≤ place')
    (equal : |x - k * 2 ^ place| = |x - k' * 2 ^ place'|) :
    (k : ℚ) * 2 ^ place = k' * 2 ^ place' := by
  have moved := mul_zpow_of_le k' finer
  rw [moved] at equal ⊢
  by_contra apart
  have differs : k' * 2 ^ (place' - place).toNat ≠ k := fun same => apart (by rw [same])
  have odd : ¬Even (k' * 2 ^ (place' - place).toNat) := fun even =>
    (nearest.lt_of_even even differs).ne equal
  obtain rfl : place = place' := by
    by_contra below
    exact odd ((Int.even_pow.mpr ⟨even_two, by omega⟩).mul_left k')
  rw [sub_self, Int.toNat_zero, pow_zero, mul_one] at odd differs
  exact odd (nearest'.even (le_antisymm nearest'.near (nearest.half_le differs)))

theorem IsRounded.unique {x c c' : ℚ} (rounded : IsRounded x c) (rounded' : IsRounded x c')
    (representable : Representable c) (representable' : Representable c') : c = c' := by
  have equal := le_antisymm (rounded.distance_le representable')
    (rounded'.distance_le representable)
  obtain ⟨k, place, nearest, rfl⟩ := rounded
  obtain ⟨k', place', nearest', rfl⟩ := rounded'
  obtain finer | coarser := le_total place place'
  · exact nearest.eq_of_le nearest' finer equal
  · exact (nearest'.eq_of_le nearest coarser equal.symm).symm

/-- A number is not below the middle between the one nearest to it and a smaller one. -/
theorem IsRounded.add_le {x c q : ℚ} (rounded : IsRounded x c) (representable : Representable q)
    (below : q < c) : q + c ≤ 2 * x := by
  have distance := sq_le_sq.mpr (rounded.distance_le representable)
  nlinarith

theorem IsRounded.le_add {x c q : ℚ} (rounded : IsRounded x c) (representable : Representable q)
    (above : c < q) : 2 * x ≤ c + q := by
  have distance := sq_le_sq.mpr (rounded.distance_le representable)
  nlinarith

theorem toNearest_monotone : Monotone toNearest := by
  intro x y ordered
  by_contra overtaken
  have low := (isRounded_toNearest x).add_le (representable_toNearest y) (not_le.mp overtaken)
  have high := (isRounded_toNearest y).le_add (representable_toNearest x) (not_le.mp overtaken)
  obtain rfl : x = y := le_antisymm ordered (by linarith)
  exact overtaken le_rfl

/-! ## Sums and remainders -/

/-- A sum that is not zero is at least as great as the least number above zero. -/
theorem toNearest_add_ne_zero {a b : ℚ} (left : Representable a) (right : Representable b)
    (some : a + b ≠ 0) : toNearest (a + b) ≠ 0 := by
  obtain ⟨digits, place, -, least, rfl⟩ := left
  obtain ⟨digits', place', -, least', rfl⟩ := right
  have unit : (0 : ℚ) < 2 ^ (-1074 : ℤ) := by positivity
  have smallest : Representable (2 ^ (-1074 : ℤ)) := ⟨1, -1074, by norm_num, le_rfl, by simp⟩
  have smallest' : Representable (-2 ^ (-1074 : ℤ)) := ⟨-1, -1074, by norm_num, le_rfl, by simp⟩
  obtain ⟨units, sum⟩ : ∃ units : ℤ,
      (digits : ℚ) * 2 ^ place + digits' * 2 ^ place' = units * 2 ^ (-1074 : ℤ) := by
    rw [mul_zpow_of_le digits least, mul_zpow_of_le digits' least', ← add_mul, ← Int.cast_add]
    exact ⟨_, rfl⟩
  rw [sum] at some ⊢
  have rounded := isRounded_toNearest (units * 2 ^ (-1074 : ℤ))
  obtain negative | rfl | positive := lt_trichotomy units 0
  · have upto : (units : ℚ) ≤ -1 := by exact_mod_cast Int.le_sub_one_of_lt negative
    have below := rounded.le smallest' (by nlinarith)
    linarith
  · simp at some
  · have atLeast : (1 : ℚ) ≤ units := by exact_mod_cast positive
    have above := rounded.ge smallest (by nlinarith)
    linarith

theorem exists_sign (negative : Bool) :
    ∃ sign : ℤ, sign * sign = 1 ∧ ∀ m : Nat, signed negative m = sign * m := by
  cases negative with
  | false => exact ⟨1, rfl, fun m => (one_mul _).symm⟩
  | true => exact ⟨-1, rfl, fun m => (neg_one_mul _).symm⟩

/-- What the division of two multiples of a place leaves. -/
theorem leftOver_units (negative negative' : Bool) {m n quotient rest : Nat}
    (parts : n * quotient + rest = m) (less : rest < n) (place : ℤ) :
    leftOver (signed negative m * 2 ^ place) (signed negative' n * 2 ^ place) =
      signed negative rest * 2 ^ place := by
  subst parts
  obtain ⟨sign, square, signs⟩ := exists_sign negative
  obtain ⟨sign', square', signs'⟩ := exists_sign negative'
  have one : (sign : ℚ) * sign = 1 := by exact_mod_cast square
  have one' : (sign' : ℚ) * sign' = 1 := by exact_mod_cast square'
  refine leftOver_eq (k := sign * sign' * quotient) ?_ ?_ ?_
  · rw [signs, signs', signs]
    push_cast
    linear_combination -(sign * n * quotient * 2 ^ place : ℚ) * one'
  · rw [abs_mul_zpow, abs_mul_zpow, abs_signed, abs_signed]
    exact mul_lt_mul_of_pos_right (by exact_mod_cast less) (by positivity)
  · have product : ((sign * rest : ℤ) : ℚ) * 2 ^ place *
        ((sign * (n * quotient + rest : Nat) : ℤ) * 2 ^ place) =
          rest * (n * quotient + rest) * (2 ^ place * 2 ^ place) := by
      push_cast
      linear_combination (rest * (n * quotient + rest) * (2 ^ place * 2 ^ place) : ℚ) * one
    rw [signs, signs, product]
    positivity

/-- The remainder is computed at the lower place of the two numbers. -/
theorem leftOver_signed (negative negative' : Bool) (m : Nat) {n : Nat} (positive : 0 < n)
    (p q : ℤ) :
    leftOver (signed negative m * 2 ^ p) (signed negative' n * 2 ^ q) =
      signed negative (m * twoTo (p - min p q).toNat % (n * twoTo (q - min p q).toNat)) *
        2 ^ min p q := by
  have moved := signed_mul_twoTo negative m (p - min p q).toNat p
  have moved' := signed_mul_twoTo negative' n (q - min p q).toNat q
  rw [show p - (p - min p q).toNat = min p q by omega] at moved
  rw [show q - (q - min p q).toNat = min p q by omega] at moved'
  rw [← moved, ← moved']
  exact leftOver_units _ _ (Nat.div_add_mod _ _)
    (Nat.mod_lt _ (Nat.mul_pos positive (Decimal.twoTo_pos _))) _

theorem Representable.exists_signed {q : ℚ} (representable : Representable q) :
    ∃ (negative : Bool) (m : Nat) (e : ℤ),
      m < 2 ^ 53 ∧ -1074 ≤ e ∧ q = signed negative m * 2 ^ e := by
  obtain ⟨digits, place, few, least, rfl⟩ := representable
  obtain ⟨m, rfl | rfl⟩ := digits.eq_nat_or_neg
  · rw [Nat.abs_cast] at few
    exact ⟨false, m, place, by exact_mod_cast few, least, rfl⟩
  · rw [abs_neg, Nat.abs_cast] at few
    exact ⟨true, m, place, by exact_mod_cast few, least, rfl⟩

theorem representable_signed (negative : Bool) {m : Nat} {e : ℤ} (few : m < 2 ^ 53)
    (least : -1074 ≤ e) : Representable (signed negative m * 2 ^ e) := by
  refine ⟨signed negative m, e, ?_, least, rfl⟩
  have size : |(signed negative m : ℚ)| < 2 ^ 53 := by
    rw [abs_signed]
    exact_mod_cast few
  exact_mod_cast size

theorem pos_of_signed_ne_zero {negative : Bool} {m : Nat} {e : ℤ}
    (nonzero : (signed negative m : ℚ) * 2 ^ e ≠ 0) : 0 < m := by
  by_contra none
  obtain rfl : m = 0 := by omega
  cases negative <;> simp [signed] at nonzero

/-- At the lower place of two numbers one of the mantissas has not been moved, so the remainder has
not more digits than they have. -/
theorem mod_lt_of_small {m n : Nat} (p q : Int) (small : m < 2 ^ 53) (small' : n < 2 ^ 53)
    (positive : 0 < n) :
    m * twoTo (p - min p q).toNat % (n * twoTo (q - min p q).toNat) < 2 ^ 53 := by
  obtain lower | lower := min_choice p q
  · have unmoved : m * twoTo (p - min p q).toNat = m := by
      rw [lower, sub_self]
      exact Nat.mul_one m
    rw [unmoved]
    exact (Nat.mod_le _ _).trans_lt small
  · have unmoved : n * twoTo (q - min p q).toNat = n := by
      rw [lower, sub_self]
      exact Nat.mul_one n
    rw [unmoved]
    exact (Nat.mod_lt _ positive).trans small'

theorem representable_leftOver {a b : ℚ} (dividend : Representable a) (divisor : Representable b)
    (nonzero : b ≠ 0) : Representable (leftOver a b) := by
  obtain ⟨negative, m, p, few, least, rfl⟩ := dividend.exists_signed
  obtain ⟨negative', n, q, few', least', rfl⟩ := divisor.exists_signed
  have positive := pos_of_signed_ne_zero nonzero
  rw [leftOver_signed negative negative' m positive]
  exact representable_signed negative (mod_lt_of_small p q few few' positive) (by omega)

/-- Numbers of 53 binary digits, and fewer below the least normal number. There is no greatest one
of them: what is too great for a word has no value at all. -/
def precision : Precision where
  numbers := {q | Representable q}
  zero_mem := ⟨0, -1074, by norm_num, le_rfl, by simp⟩
  leftOver_mem := representable_leftOver
  round := toNearest
  round_mem := representable_toNearest
  round_eq number := (isRounded_toNearest _).eq number
  monotone := toNearest_monotone
  round_add_ne := toNearest_add_ne_zero

/-! ## Floating-point numbers -/

/-- A number with a value has digits that fit a word. -/
theorem exists_finite {x : Float} {a : ℚ} (value : floatValue? x = some a) :
    ∃ negative m e, ofFloat x = .finite negative m e ∧ Decimal.Fits .binary64 m e ∧ e ≤ 971 ∧
      a = signed negative m * 2 ^ e := by
  have hasWord : HasWord (ofFloat x) := hasWord_ofWord x.toBits.toNat
  rw [floatValue?] at value
  cases number : ofFloat x with
  | nan =>
      rw [number] at value
      cases value
  | infinite negative =>
      rw [number] at value
      cases value
  | finite negative m e =>
      rw [number] at value hasWord
      exact ⟨negative, m, e, rfl, hasWord.1, hasWord.2, (Option.some.inj value).symm⟩

section

variable {x y : Float} {a b : ℚ}

/-- The remainder of numbers is that of their values. -/
theorem floatValue?_remainder (dividend : floatValue? x = some a) (divisor : floatValue? y = some b)
    (nonzero : b ≠ 0) : floatValue? (Arithmetic.remainder x y) = some (leftOver a b) := by
  obtain ⟨negative, m, p, number, fits, most, rfl⟩ := exists_finite dividend
  obtain ⟨negative', n, q, number', fits', most', rfl⟩ := exists_finite divisor
  have positive := pos_of_signed_ne_zero nonzero
  have least : -1074 ≤ p := fits.least
  have least' : -1074 ≤ q := fits'.least
  show floatValue? (remainder (ofFloat x) (ofFloat y)).toFloat = _
  rw [number, number', remainder, if_neg positive.ne', leftOver_signed negative negative' m positive]
  exact floatValue?_toFloat negative (mod_lt_of_small p q fits.small fits'.small positive)
    (by omega) (by omega)

/-- A sum that is not greater than what is added is the exact sum, rounded. -/
theorem floatValue?_add_of_le (left : floatValue? x = some a) (right : floatValue? y = some b)
    (small : |a + b| ≤ |b|) : floatValue? (x + y) = some (toNearest (a + b)) := by
  have below := add_lt_limit right (b := 0) (by simp)
  rw [add_zero] at below
  obtain ⟨c, value, rounded⟩ := floatValue?_add left right (small.trans_lt below)
  rw [value, rounded.unique (isRounded_toNearest _) (representable_of_floatValue? value)
    (representable_toNearest _)]

instance : RoundedNumbers precision Float where
  value? := floatValue?
  mem := representable_of_floatValue?
  zero := by
    have value := floatValue?_ofInt (n := 0) (by norm_num)
    rwa [Int.cast_zero] at value
  add := floatValue?_add_of_le
  remainder := floatValue?_remainder
  lt_iff := lt_iff_of_floatValue?
  beq_iff := beq_iff_of_floatValue?

/-- The modulo of a number by one above zero lies between zero and that one. -/
theorem floatValue?_floorMod (dividend : floatValue? x = some a) (divisor : floatValue? y = some b)
    (positive : 0 < b) :
    ∃ r, floatValue? (Arithmetic.floorMod x y) = some r ∧ 0 ≤ r ∧ r < b := by
  have modulo : floatValue? (Arithmetic.floorMod x y) = some (precision.floorMod a b) :=
    RoundedNumbers.value?_floorMod (x := x) (y := y) dividend divisor positive.ne'
  have number : b ∈ precision.numbers := representable_of_floatValue? divisor
  exact ⟨_, modulo, (Precision.floorMod_bounds number positive.ne').1 positive⟩

end

end Tonegraph.Binary
