import Tonegraph.Arithmetic.FloatingPoint
import Tonegraph.Proofs.Binary.Rounding
/-!
# Floating-point numbers by their values

The operations of floating-point numbers, said of the rational numbers that are their values
(`Binary.floatValue?`). A sum or a product is the exact one, rounded to the nearest number; integers
of at most 53 binary digits and changes of sign are exact; and comparisons compare the values. Only
zero is the value of two numbers, and they are equal.
-/

set_option autoImplicit false

namespace Tonegraph.Binary

open Float.Model (UnpackedFloat)
open Float.Model.UnpackedFloat (Sign)

/-! ## Unpacked numbers with a value -/

/-- An unpacked number that there is a word for, with its value. -/
structure Denotes (u : UnpackedFloat) (a : ℚ) : Prop where
  hasWord : HasWord (ofUnpacked u)
  value : (ofUnpacked u).value? = some a

/-- A number with a value is a zero or has digits that fit a word. -/
theorem Denotes.cases {u : UnpackedFloat} {a : ℚ} (denotes : Denotes u a) :
    (∃ sign, u = .zero sign ∧ a = 0) ∨
      ∃ sign m e positive, u = .finite sign m e positive ∧ Decimal.Fits .binary64 m e ∧ e ≤ 971 ∧
        a = (sign.apply m : Int) * 2 ^ e := by
  obtain ⟨hasWord, value⟩ := denotes
  cases u with
  | notANumber => cases value
  | infinity sign => cases value
  | zero sign =>
      refine .inl ⟨sign, rfl, ?_⟩
      exact Option.some.inj (value.symm.trans (value?_zero _ _))
  | finite sign m e positive =>
      refine .inr ⟨sign, m, e, positive, rfl, hasWord.1, hasWord.2, ?_⟩
      cases sign <;> exact (Option.some.inj value).symm

theorem Denotes.zero (sign : Sign) : Denotes (.zero sign) 0 :=
  ⟨hasWord_zero _, value?_zero _ _⟩

theorem Denotes.finite {sign : Sign} {m : Nat} {e : Int} (positive : 0 < m)
    (fits : Decimal.Fits .binary64 m e) (most : e ≤ 971) :
    Denotes (.finite sign m e positive) ((sign.apply m : Int) * 2 ^ e) := by
  refine ⟨⟨fits, most⟩, ?_⟩
  cases sign <;> rfl

theorem abs_apply (sign : Sign) (m : Nat) : |((sign.apply m : Int) : ℚ)| = m := by
  rw [← signed_sign, abs_signed]

/-- A value has few enough digits. -/
theorem Denotes.representable {u : UnpackedFloat} {a : ℚ} (denotes : Denotes u a) :
    Representable a := by
  obtain ⟨sign, -, rfl⟩ | ⟨sign, m, e, positive, -, fits, -, rfl⟩ := denotes.cases
  · exact ⟨0, -1074, by norm_num, le_rfl, by simp⟩
  · have small : m < 2 ^ 53 := fits.small
    have few : |((sign.apply m : Int) : ℚ)| < 2 ^ 53 := by
      rw [abs_apply]
      exact_mod_cast small
    exact ⟨sign.apply m, e, by exact_mod_cast few, fits.least, rfl⟩

/-- A number that there is already is its own rounding. -/
theorem Denotes.isRounded {u : UnpackedFloat} {a : ℚ} (denotes : Denotes u a) : IsRounded a a := by
  obtain ⟨sign, -, rfl⟩ | ⟨sign, m, e, positive, -, fits, -, rfl⟩ := denotes.cases
  · exact IsRounded.zero
  · have unit : (0 : ℚ) < 2 ^ e := by positivity
    refine ⟨sign.apply m, e, ⟨fits.least, fun above => ?_, ?_, fun tie => ?_⟩, rfl⟩
    · have normal : 2 ^ 52 ≤ m := fits.normal above
      rw [abs_mul_zpow, abs_apply]
      gcongr
      exact_mod_cast normal
    · rw [sub_self, abs_zero]
      positivity
    · rw [sub_self, abs_zero] at tie
      linarith

/-- A sum is rounded. -/
theorem Denotes.add {u v : UnpackedFloat} {a b : ℚ} (left : Denotes u a) (right : Denotes v b)
    (below : |a + b| < limit) : ∃ c, Denotes (u.add .binary64 v) c ∧ IsRounded (a + b) c := by
  obtain ⟨sign, rfl, rfl⟩ | ⟨sign, m, e, positive, rfl, fits, most, value⟩ := left.cases
  · rw [zero_add]
    obtain ⟨sign', rfl, rfl⟩ | ⟨sign', m', e', positive', rfl, -, -, -⟩ := right.cases
    · refine ⟨0, ?_, IsRounded.zero⟩
      show Denotes (if sign == sign' then .zero sign else .zero .positive) 0
      split <;> exact Denotes.zero _
    · exact ⟨b, right, right.isRounded⟩
  · obtain ⟨sign', rfl, rfl⟩ | ⟨sign', m', e', positive', rfl, fits', most', value'⟩ := right.cases
    · rw [add_zero]
      exact ⟨a, left, left.isRounded⟩
    · -- Both numbers are brought to the lower place of the two.
      obtain ⟨mantissa, mantissa_eq⟩ :
          ∃ mantissa, sign.apply (UnpackedFloat.decreaseExponent m e (min e e')).1 +
            sign'.apply (UnpackedFloat.decreaseExponent m' e' (min e e')).1 = mantissa := ⟨_, rfl⟩
      have add_eq : UnpackedFloat.add .binary64 (.finite sign m e positive)
          (.finite sign' m' e' positive') =
            .normalize .binary64 mantissa (min e e') .positive := by
        rw [← mantissa_eq]
        rfl
      have sum : (mantissa : ℚ) * 2 ^ min e e' = a + b := by
        rw [← mantissa_eq, Int.cast_add, add_mul,
          apply_decreaseExponent_of_le sign m (min_le_left e e'),
          apply_decreaseExponent_of_le sign' m' (min_le_right e e'), ← value, ← value']
      obtain ⟨c, found, rounds, hasWord⟩ := normalize_rounds mantissa (min e e') .positive
      rw [sum] at rounds hasWord
      rw [add_eq]
      exact ⟨c, ⟨hasWord below, found⟩, rounds⟩

theorem apply_mul (sign sign' : Sign) (m m' : Nat) :
    (sign * sign').apply (m * m' : Nat) = sign.apply m * sign'.apply m' := by
  rw [Nat.cast_mul]
  match sign, sign' with
  | .negative, .negative => exact (neg_mul_neg _ _).symm
  | .negative, .positive => exact (neg_mul _ _).symm
  | .positive, .negative => exact (mul_neg _ _).symm
  | .positive, .positive => rfl

/-- The product of two mantissas has digits enough unless both numbers end at the last place. -/
theorem add_le_targetExponent {m m' : Nat} {e e' : Int} (positive : 0 < m) (positive' : 0 < m')
    (fits : Decimal.Fits .binary64 m e) (fits' : Decimal.Fits .binary64 m' e') :
    e + e' ≤ max ((m * m').log2 + (e + e') - 52) (-1074) := by
  by_cases long : 52 ≤ (m * m').log2
  · omega
  · have short : m * m' < 2 ^ 52 := by
      rw [← Nat.log2_lt (Nat.mul_pos positive positive').ne']
      omega
    have small : m < 2 ^ 52 := (Nat.le_mul_of_pos_right m positive').trans_lt short
    have small' : m' < 2 ^ 52 := (Nat.le_mul_of_pos_left m' positive).trans_lt short
    have last : ¬-1074 < e := fun above => absurd (fits.normal above) (not_le.mpr small)
    have last' : ¬-1074 < e' := fun above => absurd (fits'.normal above) (not_le.mpr small')
    omega

/-- A product is rounded. -/
theorem Denotes.mul {u v : UnpackedFloat} {a b : ℚ} (left : Denotes u a) (right : Denotes v b)
    (below : |a * b| < limit) : ∃ c, Denotes (u.mul .binary64 v) c ∧ IsRounded (a * b) c := by
  obtain ⟨sign, rfl, rfl⟩ | ⟨sign, m, e, positive, rfl, fits, most, value⟩ := left.cases
  · rw [zero_mul]
    obtain ⟨sign', rfl, rfl⟩ | ⟨sign', m', e', positive', rfl, -, -, -⟩ := right.cases
    · exact ⟨0, Denotes.zero _, IsRounded.zero⟩
    · exact ⟨0, Denotes.zero _, IsRounded.zero⟩
  · obtain ⟨sign', rfl, rfl⟩ | ⟨sign', m', e', positive', rfl, fits', most', value'⟩ := right.cases
    · rw [mul_zero]
      exact ⟨0, Denotes.zero _, IsRounded.zero⟩
    · have some : 0 < m * m' := Nat.mul_pos positive positive'
      have product : (((sign * sign').apply (m * m' : Nat) : Int) : ℚ) * 2 ^ (e + e') = a * b := by
        rw [value, value', apply_mul, zpow_add₀ (by norm_num)]
        push_cast
        ring
      have fine := add_le_targetExponent positive positive' fits fits'
      obtain ⟨c, found, rounds, hasWord⟩ := roundWithAccuracy_rounds (sign * sign') some fine
      have size : ((m * m' : Nat) : ℚ) * 2 ^ (e + e') = |a * b| := by
        rw [← product, abs_mul_zpow, abs_apply]
      rw [product] at rounds
      rw [size] at hasWord
      exact ⟨c, ⟨hasWord below, found⟩, rounds⟩

/-! ## Floating-point numbers with a value -/

theorem floatValue?_eq_some_iff {x : Float} {a : ℚ} :
    floatValue? x = some a ↔ Denotes x.toModel.unpack a := by
  rw [floatValue?, ofFloat_eq]
  refine ⟨fun value => ⟨?_, value⟩, fun denotes => denotes.value⟩
  rw [← ofFloat_eq]
  exact hasWord_ofWord _

theorem Denotes.floatValue? {u : UnpackedFloat} {a : ℚ} (denotes : Denotes u a) :
    Binary.floatValue? (.ofModel (.pack u)) = some a := by
  rw [Binary.floatValue?, ofFloat_pack denotes.hasWord, denotes.value]

theorem isFinite_iff {x : Float} : x.isFinite = true ↔ ∃ a, floatValue? x = some a := by
  rw [floatValue?, ofFloat_eq]
  show x.toModel.unpack.isFinite = true ↔ _
  cases x.toModel.unpack with
  | notANumber =>
      refine iff_of_false Bool.false_ne_true ?_
      rintro ⟨_, value⟩
      cases value
  | infinity sign =>
      refine iff_of_false Bool.false_ne_true ?_
      rintro ⟨_, value⟩
      cases value
  | zero sign => exact ⟨fun _ => ⟨_, rfl⟩, fun _ => rfl⟩
  | finite sign m e positive => exact ⟨fun _ => ⟨_, rfl⟩, fun _ => rfl⟩

section

variable {x y : Float} {a b : ℚ}

theorem representable_of_floatValue? (value : floatValue? x = some a) : Representable a :=
  (floatValue?_eq_some_iff.mp value).representable

theorem floatValue?_add (left : floatValue? x = some a) (right : floatValue? y = some b)
    (below : |a + b| < limit) : ∃ c, floatValue? (x + y) = some c ∧ IsRounded (a + b) c := by
  obtain ⟨c, denotes, rounded⟩ :=
    (floatValue?_eq_some_iff.mp left).add (floatValue?_eq_some_iff.mp right) below
  exact ⟨c, denotes.floatValue?, rounded⟩

theorem floatValue?_mul (left : floatValue? x = some a) (right : floatValue? y = some b)
    (below : |a * b| < limit) : ∃ c, floatValue? (x * y) = some c ∧ IsRounded (a * b) c := by
  obtain ⟨c, denotes, rounded⟩ :=
    (floatValue?_eq_some_iff.mp left).mul (floatValue?_eq_some_iff.mp right) below
  exact ⟨c, denotes.floatValue?, rounded⟩

theorem floatValue?_neg (value : floatValue? x = some a) : floatValue? (-x) = some (-a) := by
  refine Denotes.floatValue? (u := x.toModel.unpack.neg) ?_
  obtain ⟨sign, zero, rfl⟩ | ⟨sign, m, e, positive, finite, fits, most, rfl⟩ :=
    (floatValue?_eq_some_iff.mp value).cases
  · rw [zero, neg_zero]
    exact Denotes.zero _
  · have denotes : Denotes (.finite (-sign) m e positive) _ := .finite positive fits most
    have flipped : (-sign).apply (m : Int) = -sign.apply m := by
      cases sign with
      | negative => exact (neg_neg _).symm
      | positive => rfl
    rw [flipped, Int.cast_neg, neg_mul] at denotes
    rw [finite]
    exact denotes

end

/-- Adding a small number to a number does not come to the limit. -/
theorem add_lt_limit {x : Float} {a b : ℚ} (value : floatValue? x = some a)
    (small : |b| < 2 ^ 53) : |a + b| < limit := by
  have unit : (2 : ℚ) ^ (54 : ℤ) ≤ 2 ^ (971 : ℤ) :=
    zpow_le_zpow_right₀ (by norm_num) (by norm_num)
  have size : |a| ≤ (2 ^ 53 - 1) * 2 ^ (971 : ℤ) := by
    obtain ⟨sign, -, rfl⟩ | ⟨sign, m, e, positive, -, fits, most, rfl⟩ :=
      (floatValue?_eq_some_iff.mp value).cases
    · rw [abs_zero]
      exact mul_nonneg (by norm_num) (zpow_nonneg (by norm_num) _)
    · have few : m < 2 ^ 53 := fits.small
      have digits : (m : ℚ) ≤ 2 ^ 53 - 1 := by
        have next : ((m + 1 : Nat) : ℚ) ≤ (2 ^ 53 : Nat) := by exact_mod_cast few
        push_cast at next
        linarith
      rw [abs_mul_zpow, abs_apply]
      exact mul_le_mul digits (zpow_le_zpow_right₀ (by norm_num) most) (by positivity)
        (by norm_num)
  have sum := abs_add_le a b
  rw [limit]
  generalize (2 : ℚ) ^ (971 : ℤ) = power at unit size ⊢
  norm_num at unit
  linarith

theorem floatValue?_zero : floatValue? (Float.ofBits 0) = some 0 := by
  rw [floatValue?, ofFloat_ofBits]
  exact value?_zero _ _

theorem floatValue?_one : floatValue? (Float.ofBits 0x3FF0000000000000) = some 1 := by
  have parts : ofWord .binary64 (0x3FF0000000000000 : UInt64).toNat =
      .finite false (2 ^ 52) (-52) := by decide
  rw [floatValue?, ofFloat_ofBits, parts]
  norm_num [value?, signed]

/-- A word of few enough digits is converted to its number. -/
theorem floatValue?_word {word : UInt64} (few : word.toNat < 2 ^ 53) :
    floatValue? word.toFloat = some (word.toNat : ℚ) := by
  have small : |(word.toNat : Int)| < 2 ^ 53 := by
    rw [Nat.abs_cast]
    exact_mod_cast few
  obtain ⟨c, value, rounded, hasWord⟩ := normalize_rounds word.toNat 0 .positive
  rw [zpow_zero, mul_one] at rounded hasWord
  have below := add_lt_limit floatValue?_zero (by exact_mod_cast small : |(word.toNat : ℚ)| < _)
  rw [zero_add] at below
  rw [rounded.eq (representable_intCast small)] at value
  have denotes : Denotes (.normalize .binary64 word.toNat 0 .positive) _ := ⟨hasWord below, value⟩
  exact denotes.floatValue?

/-- Natural numbers with few enough digits are values. -/
theorem floatValue?_ofNat {n : Nat} (few : n < 2 ^ 53) :
    floatValue? (Float.ofNat n) = some (n : ℚ) := by
  have same : n.toUInt64.toNat = n := UInt64.toNat_ofNat_of_lt (few.trans (by decide))
  have word := floatValue?_word (same.symm ▸ few)
  rw [same] at word
  have small : |(n : Int)| < 2 ^ 53 := by
    rw [Nat.abs_cast]
    exact_mod_cast few
  have below := add_lt_limit floatValue?_zero (by exact_mod_cast small : |(n : ℚ)| < _)
  rw [zero_add] at below
  obtain ⟨c, value, rounded⟩ := floatValue?_mul word floatValue?_one (by rwa [mul_one])
  rw [mul_one] at rounded
  have exactly := rounded.eq (by exact_mod_cast representable_intCast small)
  have unfolded : Float.ofNat n = n.toUInt64.toFloat * Float.ofBits 0x3FF0000000000000 :=
    dif_pos ⟨few, by decide⟩
  rw [unfolded, value, exactly]

/-- Integers with few enough digits are values. -/
theorem floatValue?_ofInt {n : Int} (few : |n| < 2 ^ 53) :
    floatValue? (Scalar.ofInt n : Float) = some (n : ℚ) := by
  obtain ⟨low, high⟩ := abs_lt.mp few
  cases n with
  | ofNat n => exact floatValue?_ofNat (by simpa using high)
  | negSucc n =>
      have value := floatValue?_neg (floatValue?_ofNat (show n + 1 < 2 ^ 53 by omega))
      have size : -((n + 1 : Nat) : ℚ) = (Int.negSucc n : Int) := by
        rw [Int.negSucc_eq]
        push_cast
        ring
      rw [size] at value
      exact value

/-! ## Comparisons -/

section

variable {m m' : Nat} {e e' : Int}

/-- Of numbers that fit, the one with the greater exponent is greater. -/
theorem lt_of_exponent_lt (fits : Decimal.Fits .binary64 m e) (fits' : Decimal.Fits .binary64 m' e')
    (lower : e < e') : (m : ℚ) * 2 ^ e < m' * 2 ^ e' := by
  have few : (m : ℚ) < 2 ^ 53 := by exact_mod_cast fits.small
  have many : (2 : ℚ) ^ 52 ≤ m' := by exact_mod_cast fits'.normal (lt_of_le_of_lt fits.least lower)
  have unit : (0 : ℚ) < 2 ^ e := by positivity
  have next : (2 : ℚ) ^ e * 2 ≤ 2 ^ e' := by
    rw [← zpow_add_one₀ (by norm_num)]
    exact zpow_le_zpow_right₀ (by norm_num) lower
  nlinarith

/-- Exponents are compared first, and then mantissas. -/
theorem compare_mantissas (fits : Decimal.Fits .binary64 m e)
    (fits' : Decimal.Fits .binary64 m' e') :
    (compare e e').then (compare m m') = compare ((m : ℚ) * 2 ^ e) (m' * 2 ^ e') := by
  obtain less | rfl | greater := lt_trichotomy e e'
  · rw [compare_lt_iff_lt.mpr less, compare_lt_iff_lt.mpr (lt_of_exponent_lt fits fits' less)]
    rfl
  · have unit : (0 : ℚ) < 2 ^ e := by positivity
    rw [compare_eq_iff_eq.mpr rfl]
    obtain less | rfl | greater := lt_trichotomy m m'
    · have scaled : (m : ℚ) * 2 ^ e < m' * 2 ^ e :=
        mul_lt_mul_of_pos_right (by exact_mod_cast less) unit
      rw [compare_lt_iff_lt.mpr less, compare_lt_iff_lt.mpr scaled]
      rfl
    · rw [compare_eq_iff_eq.mpr rfl, compare_eq_iff_eq.mpr rfl]
      rfl
    · have scaled : (m' : ℚ) * 2 ^ e < m * 2 ^ e :=
        mul_lt_mul_of_pos_right (by exact_mod_cast greater) unit
      rw [compare_gt_iff_gt.mpr greater, compare_gt_iff_gt.mpr scaled]
      rfl
  · rw [compare_gt_iff_gt.mpr greater,
      compare_gt_iff_gt.mpr (lt_of_exponent_lt fits' fits greater)]
    rfl

end

/-- The value of a finite number, by its sign. -/
theorem apply_mul_zpow (sign : Sign) (m : Nat) (e : Int) :
    ((sign.apply m : Int) : ℚ) * 2 ^ e =
      match sign with
      | .negative => -((m : ℚ) * 2 ^ e)
      | .positive => (m : ℚ) * 2 ^ e := by
  cases sign with
  | negative =>
      show ((-(m : Int) : Int) : ℚ) * 2 ^ e = -((m : ℚ) * 2 ^ e)
      rw [Int.cast_neg, Int.cast_natCast, neg_mul]
  | positive => rfl

/-- Numbers with a minus compare the other way round. -/
theorem swap_compare (a b : ℚ) : (compare a b).swap = compare (-a) (-b) := by
  obtain less | rfl | greater := lt_trichotomy a b
  · rw [compare_lt_iff_lt.mpr less, compare_gt_iff_gt.mpr (neg_lt_neg less)]
    rfl
  · rw [compare_eq_iff_eq.mpr rfl, compare_eq_iff_eq.mpr rfl]
    rfl
  · rw [compare_gt_iff_gt.mpr greater, compare_lt_iff_lt.mpr (neg_lt_neg greater)]
    rfl

/-- The comparison of numbers is that of their values. -/
theorem Denotes.compare_eq {u v : UnpackedFloat} {a b : ℚ} (left : Denotes u a)
    (right : Denotes v b) : u.compare v = some (compare a b) := by
  have size {m : Nat} (positive : 0 < m) (e : Int) : (0 : ℚ) < m * 2 ^ e := by positivity
  obtain ⟨sign, rfl, rfl⟩ | ⟨sign, m, e, positive, rfl, fits, most, rfl⟩ := left.cases
  · obtain ⟨sign', rfl, rfl⟩ | ⟨sign', m', e', positive', rfl, fits', most', rfl⟩ := right.cases
    · rw [compare_eq_iff_eq.mpr rfl]
      rfl
    · have positive' := size positive' e'
      rw [apply_mul_zpow]
      cases sign' with
      | negative =>
          rw [compare_gt_iff_gt.mpr (neg_lt_zero.mpr positive')]
          rfl
      | positive =>
          rw [compare_lt_iff_lt.mpr positive']
          rfl
  · have positive := size positive e
    rw [apply_mul_zpow]
    obtain ⟨sign', rfl, rfl⟩ | ⟨sign', m', e', positive', rfl, fits', most', rfl⟩ := right.cases
    · cases sign with
      | negative =>
          rw [compare_lt_iff_lt.mpr (neg_lt_zero.mpr positive)]
          rfl
      | positive =>
          rw [compare_gt_iff_gt.mpr positive]
          rfl
    · have positive' := size positive' e'
      rw [apply_mul_zpow]
      match sign, sign' with
      | .negative, .negative =>
          show some ((compare e e').then (compare m m')).swap = _
          rw [compare_mantissas fits fits', swap_compare]
      | .negative, .positive =>
          have less : -((m : ℚ) * 2 ^ e) < m' * 2 ^ e' := by linarith
          rw [compare_lt_iff_lt.mpr less]
          rfl
      | .positive, .negative =>
          have greater : -((m' : ℚ) * 2 ^ e') < m * 2 ^ e := by linarith
          rw [compare_gt_iff_gt.mpr greater]
          rfl
      | .positive, .positive =>
          rw [← compare_mantissas fits fits']
          rfl

section

variable {x y : Float} {a b : ℚ}

theorem lt_iff_of_floatValue? (left : floatValue? x = some a) (right : floatValue? y = some b) :
    x < y ↔ a < b := by
  have same := (floatValue?_eq_some_iff.mp left).compare_eq (floatValue?_eq_some_iff.mp right)
  refine (decide_eq_true_iff (p := x.toModel < y.toModel)).trans ?_
  show (x.toModel.unpack.compare y.toModel.unpack == some .lt) = true ↔ _
  rw [same, ← compare_lt_iff_lt]
  simp

theorem beq_iff_of_floatValue? (left : floatValue? x = some a) (right : floatValue? y = some b) :
    (x == y) = true ↔ a = b := by
  have same := (floatValue?_eq_some_iff.mp left).compare_eq (floatValue?_eq_some_iff.mp right)
  show (x.toModel.unpack.compare y.toModel.unpack == some .eq) = true ↔ _
  rw [same, ← compare_eq_iff_eq]
  simp

end

end Tonegraph.Binary
