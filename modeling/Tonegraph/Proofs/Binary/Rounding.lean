import Tonegraph.Proofs.Binary.Packed
/-!
# Rounding to the nearest number

A result is rounded to a multiple of a power of two, as fine a one as 53 binary digits allow, and to
an even multiple where two are equally near. `Binary.Nearest` says so of a result. No number of 53
digits is nearer (`Nearest.le_of_representable`), and an even multiple that is not the result is
farther away (`Nearest.lt_of_even`).

The arithmetic shifts digits out of a mantissa and keeps of them whether the first one is set and
whether a later one is (`Kept`), which is enough to round (`Kept.rounded`).
-/

set_option autoImplicit false

namespace Tonegraph.Binary

/-! ## Nearest multiples -/

/-- The multiple of `2 ^ place` that is nearest to a number, the even one of two. The place is the
last one of 53 digits of the number, unless that would be below all places there are. -/
structure Nearest (x : ℚ) (multiple place : ℤ) : Prop where
  least : -1074 ≤ place
  normal : -1074 < place → 2 ^ 52 * 2 ^ place ≤ |x|
  near : |x - multiple * 2 ^ place| ≤ 2 ^ place / 2
  even : |x - multiple * 2 ^ place| = 2 ^ place / 2 → Even multiple

/-- A number with at most 53 binary digits, at places that there are. -/
def Representable (q : ℚ) : Prop :=
  ∃ digits place : ℤ, |digits| < 2 ^ 53 ∧ -1074 ≤ place ∧ q = digits * 2 ^ place

/-- An integer with few enough digits. -/
theorem representable_intCast {n : ℤ} (few : |n| < 2 ^ 53) : Representable n :=
  ⟨n, 0, few, by decide, by simp⟩

theorem abs_mul_zpow (a : ℚ) (place : ℤ) : |a * 2 ^ place| = |a| * 2 ^ place := by
  have unit : (0 : ℚ) < 2 ^ place := by positivity
  rw [abs_mul, abs_of_pos unit]

/-- A number that ends at a place ends at every lower place. -/
theorem mul_zpow_of_le (digits : ℤ) {place lower : ℤ} (below : lower ≤ place) :
    (digits : ℚ) * 2 ^ place = (digits * 2 ^ (place - lower).toNat : ℤ) * 2 ^ lower := by
  have power : (2 : ℚ) ^ place = 2 ^ (place - lower).toNat * 2 ^ lower := by
    rw [← zpow_natCast, ← zpow_add₀ (by norm_num)]
    congr 1
    omega
  push_cast
  rw [power]
  ring

namespace Nearest

variable {x q : ℚ} {k place : ℤ}

theorem neg (nearest : Nearest x k place) : Nearest (-x) (-k) place := by
  have distance : |-x - (-k : ℤ) * 2 ^ place| = |x - k * 2 ^ place| := by
    rw [← abs_neg]
    congr 1
    push_cast
    ring
  exact ⟨nearest.least, fun above => by simpa using nearest.normal above,
    distance ▸ nearest.near, fun tie => (nearest.even (distance ▸ tie)).neg⟩

/-- Two multiples are as many places apart as they differ by. -/
theorem apart_le (x : ℚ) (place one other : ℤ) :
    |(other : ℚ) - one| * 2 ^ place ≤ |x - one * 2 ^ place| + |x - other * 2 ^ place| := by
  have split : ((other : ℚ) - one) * 2 ^ place =
      (x - one * 2 ^ place) - (x - other * 2 ^ place) := by ring
  rw [← abs_mul_zpow, split]
  exact abs_sub _ _

/-- Other multiples are at least half a place away. -/
theorem half_le (nearest : Nearest x k place) {other : ℤ} (differs : other ≠ k) :
    2 ^ place / 2 ≤ |x - other * 2 ^ place| := by
  have unit : (0 : ℚ) < 2 ^ place := by positivity
  have step : (1 : ℚ) ≤ |(other : ℚ) - k| := by
    exact_mod_cast Int.one_le_abs (sub_ne_zero.mpr differs)
  have apart := apart_le x place k other
  have near := nearest.near
  nlinarith

/-- No multiple is nearer. -/
theorem le_of_multiple (nearest : Nearest x k place) (other : ℤ) :
    |x - k * 2 ^ place| ≤ |x - other * 2 ^ place| := by
  by_cases same : other = k
  · rw [same]
  · exact nearest.near.trans (nearest.half_le same)

/-- An even multiple that is not the nearest one is farther away. -/
theorem lt_of_even (nearest : Nearest x k place) {other : ℤ} (even : Even other)
    (differs : other ≠ k) : |x - k * 2 ^ place| < |x - other * 2 ^ place| := by
  have unit : (0 : ℚ) < 2 ^ place := by positivity
  by_contra reached
  -- Two equally near multiples are neighbours, and then only one of them is even.
  have tie : |x - k * 2 ^ place| = 2 ^ place / 2 :=
    le_antisymm nearest.near ((nearest.half_le differs).trans (not_lt.mp reached))
  have steps : (2 : ℚ) ≤ |(other : ℚ) - k| := by
    have distance : Even (other - k) := even.sub (nearest.even tie)
    obtain ⟨half, halves⟩ := distance
    have two : 2 ≤ |other - k| := by
      have some : half ≠ 0 := by omega
      have one := Int.one_le_abs some
      rw [halves, ← two_mul, abs_mul, abs_two]
      omega
    exact_mod_cast two
  have apart := apart_le x place k other
  nlinarith

/-- No number of 53 digits is nearer: it is a multiple of the place, or smaller than the least
number with a digit at the place of the first one of the result. -/
theorem le_of_representable (nearest : Nearest x k place) (representable : Representable q) :
    |x - k * 2 ^ place| ≤ |x - q| := by
  obtain ⟨digits, lower, few, least, rfl⟩ := representable
  obtain finer | coarser := lt_or_ge lower place
  · have normal := nearest.normal (lt_of_le_of_lt least finer)
    have small : |(digits : ℚ) * 2 ^ lower| ≤ 2 ^ 52 * 2 ^ place := by
      have power : (2 : ℚ) ^ lower * 2 ≤ 2 ^ place := by
        rw [← zpow_add_one₀ (by norm_num)]
        exact zpow_le_zpow_right₀ (by norm_num) finer
      have digits_le : |(digits : ℚ)| ≤ 2 ^ 53 := by exact_mod_cast few.le
      have unit : (0 : ℚ) < 2 ^ lower := by positivity
      rw [abs_mul_zpow]
      nlinarith
    have first := nearest.le_of_multiple (if 0 ≤ x then 2 ^ 52 else -2 ^ 52)
    have away : |x| - |(digits : ℚ) * 2 ^ lower| ≤ |x - digits * 2 ^ lower| :=
      abs_sub_abs_le_abs_sub _ _
    refine first.trans (le_trans ?_ away)
    split
    · next nonneg =>
        rw [abs_of_nonneg nonneg] at normal ⊢
        push_cast
        rw [abs_of_nonneg (by linarith)]
        linarith
    · next negative =>
        rw [abs_of_neg (not_le.mp negative)] at normal ⊢
        push_cast
        rw [abs_of_nonpos (by linarith)]
        linarith
  · rw [mul_zpow_of_le digits coarser]
    exact nearest.le_of_multiple _

end Nearest

/-- A number is the other one, rounded. -/
def IsRounded (x c : ℚ) : Prop := ∃ k place : ℤ, Nearest x k place ∧ c = k * 2 ^ place

namespace IsRounded

variable {x c q : ℚ}

theorem zero : IsRounded 0 0 :=
  ⟨0, -1074, ⟨le_rfl, fun above => absurd above (lt_irrefl _), by simp; positivity,
    fun _ => Even.zero⟩, by simp⟩

/-- No number is nearer. -/
theorem distance_le (rounded : IsRounded x c) (representable : Representable q) :
    |x - c| ≤ |x - q| := by
  obtain ⟨k, place, nearest, rfl⟩ := rounded
  exact nearest.le_of_representable representable

/-- What has few enough digits is not changed. -/
theorem eq (rounded : IsRounded x c) (representable : Representable x) : c = x := by
  have distance := rounded.distance_le representable
  rw [sub_self, abs_zero] at distance
  exact (sub_eq_zero.mp (abs_nonpos_iff.mp distance)).symm

/-- Rounding does not lead over a number. -/
theorem le (rounded : IsRounded x c) (representable : Representable q) (below : x ≤ q) :
    c ≤ q := by
  have distance := rounded.distance_le representable
  by_contra above
  rw [abs_of_nonpos (by linarith), abs_of_nonpos (by linarith)] at distance
  linarith

theorem ge (rounded : IsRounded x c) (representable : Representable q) (above : q ≤ x) :
    q ≤ c := by
  have distance := rounded.distance_le representable
  by_contra below
  rw [abs_of_nonneg (by linarith), abs_of_nonneg (by linarith)] at distance
  linarith

end IsRounded

/-! ## Numbers below an integer -/

/-- A number with few enough digits that is below an integer is below it by at least what the last
digit of the numbers just below it is worth. -/
theorem Representable.le_sub {q : ℚ} {bound n : Nat} (representable : Representable q)
    (below : q < bound) (most : n ≤ 52) (power : 2 ^ n < 2 * bound) :
    q ≤ bound - 2 ^ ((n : ℤ) - 53) := by
  obtain ⟨digits, place, few, -, rfl⟩ := representable
  obtain ⟨last, last_eq⟩ : ∃ last, (n : ℤ) - 53 = last := ⟨_, rfl⟩
  rw [last_eq]
  have unit : (0 : ℚ) < 2 ^ last := by positivity
  obtain coarser | finer := le_or_gt last place
  · have whole := mul_zpow_of_le bound (show last ≤ 0 by omega)
    rw [zpow_zero, mul_one, Int.cast_natCast] at whole
    rw [mul_zpow_of_le digits coarser] at below ⊢
    rw [whole] at below ⊢
    have less := Int.add_one_le_iff.mpr (by exact_mod_cast lt_of_mul_lt_mul_right below unit.le)
    have less' : ((digits * 2 ^ (place - last).toNat : ℤ) : ℚ) + 1 ≤
        (bound * 2 ^ (0 - last).toNat : ℤ) := by exact_mod_cast less
    nlinarith
  · have digits_le : (digits : ℚ) ≤ 2 ^ 53 := by exact_mod_cast (le_abs_self digits).trans few.le
    have half : (2 : ℚ) ^ place * 2 ≤ 2 ^ last := by
      rw [← zpow_add_one₀ (by norm_num)]
      exact zpow_le_zpow_right₀ (by norm_num) finer
    have upto : (2 : ℚ) ^ last ≤ 2 ^ (-1 : ℤ) := zpow_le_zpow_right₀ (by norm_num) (by omega)
    have scaled : (2 : ℚ) ^ n = 2 ^ 53 * 2 ^ last := by
      rw [← zpow_natCast, ← zpow_natCast, ← zpow_add₀ (by norm_num)]
      congr 1
      omega
    have many : (2 : ℚ) ^ n + 1 ≤ 2 * bound := by exact_mod_cast power
    have small : (0 : ℚ) < 2 ^ place := by positivity
    norm_num at upto
    nlinarith

/-- The number next below an integer within a power of two. -/
theorem representable_sub {bound : ℤ} {n : Nat} (most : n ≤ 52) (low : -2 ^ n < bound)
    (high : bound ≤ 2 ^ n) : Representable (bound - 2 ^ ((n : ℤ) - 53)) := by
  obtain ⟨room, room_eq⟩ : ∃ room, 53 = n + room := ⟨53 - n, by omega⟩
  have two : (2 : ℤ) ≤ 2 ^ room := le_self_pow₀ (by norm_num) (by omega)
  have power : (2 : ℤ) ^ 53 = 2 ^ n * 2 ^ room := by rw [room_eq, pow_add]
  refine ⟨bound * 2 ^ room - 1, n - 53, abs_lt.mpr ⟨?_, ?_⟩, by omega, ?_⟩
  · nlinarith
  · nlinarith
  · have digits := mul_zpow_of_le bound (show (n : ℤ) - 53 ≤ 0 by omega)
    have places : (0 - ((n : ℤ) - 53)).toNat = room := by omega
    rw [zpow_zero, mul_one, places] at digits
    rw [digits]
    push_cast
    ring

/-- Between a number and its double there is a power of two. -/
theorem exists_two_pow {bound : Nat} (positive : 0 < bound) :
    ∃ n, bound ≤ 2 ^ n ∧ 2 ^ n < 2 * bound := by
  have low := Nat.log2_self_le (n := 2 * bound - 1) (by omega)
  have high := Nat.lt_log2_self (n := 2 * bound - 1)
  rw [Nat.pow_succ] at high
  exact ⟨(2 * bound - 1).log2, by omega, by omega⟩

/-- A number below an integer is rounded to one below it when that one is nearer. Of two equally
near, the integer has the even multiple, as there are digits behind its point. -/
theorem IsRounded.lt_iff {x c : ℚ} {bound : ℤ} (rounded : IsRounded x c)
    (small : |x| < 2 ^ 52) (few : |bound| < 2 ^ 53) (below : x < bound) :
    c < bound ↔ |x - c| < |x - bound| := by
  have upto : c ≤ bound := rounded.le (representable_intCast few) below.le
  refine ⟨fun less => ?_, fun nearer => lt_of_le_of_ne upto fun same => ?_⟩
  · obtain ⟨multiple, place, nearest, rfl⟩ := rounded
    have behind : place < 0 := by
      by_contra whole
      have normal := nearest.normal (by omega)
      have one : (1 : ℚ) ≤ 2 ^ place := one_le_zpow₀ (by norm_num) (not_lt.mp whole)
      linarith
    have digits := mul_zpow_of_le bound behind.le
    rw [zpow_zero, mul_one] at digits
    rw [digits] at less ⊢
    refine nearest.lt_of_even ?_ fun same => ?_
    · exact (Int.even_pow.mpr ⟨even_two, by omega⟩).mul_left bound
    · rw [same] at less
      exact lt_irrefl _ less
  · rw [same] at nearer
    exact lt_irrefl _ nearer

/-- A number of a span, added to the first integer of the span and rounded, stays below the last one
if the powers of two that the span comes to contain it: what lies below the span lies below it by
a digit, which the sum still has. -/
theorem IsRounded.lt_of_contained {place c : ℚ} {first last : ℤ}
    (rounded : IsRounded (first + place) c) (representable : Representable place)
    (below : place < last - first) (ordered : first < last) (few : last - first ≤ 2 ^ 52)
    (contained : ∀ n : Nat, last - first ≤ 2 ^ n → -2 ^ n < last ∧ last ≤ 2 ^ n) : c < last := by
  obtain ⟨span, span_eq⟩ : ∃ span : Nat, last - first = span := ⟨(last - first).toNat, by omega⟩
  have span_value : (last - first : ℚ) = span := by exact_mod_cast span_eq
  obtain ⟨n, upto, power⟩ := exists_two_pow (show 0 < span by omega)
  have most : n ≤ 52 := by
    by_contra many
    have longer : 2 ^ 53 ≤ 2 ^ n := Nat.pow_le_pow_right (by decide) (by omega)
    omega
  obtain ⟨low, high⟩ := contained n (span_eq ▸ by exact_mod_cast upto)
  have apart := representable.le_sub (span_value ▸ below) most power
  have unit : (0 : ℚ) < 2 ^ ((n : ℤ) - 53) := by positivity
  have next := rounded.le (representable_sub most low high) (by linarith)
  linarith

/-! ## Digits shifted out -/

open Float.Model (UnpackedFloat totalExponent)
open Float.Model.UnpackedFloat

/-- What is kept of a number when digits are shifted out of it: its whole part and how the rest
compares with one half. -/
def Kept (em : ExtendedMantissa) (x : ℚ) : Prop :=
  match em.roundBit, em.stickyBit with
  | false, false => x = em.mantissa
  | false, true => em.mantissa < x ∧ x < em.mantissa + 1 / 2
  | true, false => x = em.mantissa + 1 / 2
  | true, true => em.mantissa + 1 / 2 < x ∧ x < em.mantissa + 1

namespace Kept

variable {em : ExtendedMantissa} {x : ℚ}

/-- One digit more is shifted out. -/
theorem shiftRightOne (kept : Kept em x) : Kept em.shiftRightOne (x / 2) := by
  obtain ⟨m, first, later⟩ := em
  have parts : (m : ℚ) = 2 * (m / 2 : Nat) + (m % 2 : Nat) := by
    exact_mod_cast (Nat.div_add_mod m 2).symm
  obtain even | odd := Nat.mod_two_eq_zero_or_one m
  · rw [even] at parts
    cases first <;> cases later <;>
      simp only [Kept, ExtendedMantissa.shiftRightOne, even, bne_self_eq_false, Bool.or_self,
        Bool.or_true, Bool.or_false] at kept ⊢ <;> push_cast at parts
    all_goals first | linarith | exact ⟨by linarith, by linarith⟩
  · rw [odd] at parts
    have bit : (1 != 0) = true := rfl
    cases first <;> cases later <;>
      simp only [Kept, ExtendedMantissa.shiftRightOne, odd, bit, Bool.or_self,
        Bool.or_true, Bool.or_false] at kept ⊢ <;> push_cast at parts
    all_goals first | linarith | exact ⟨by linarith, by linarith⟩

theorem shiftRight (kept : Kept em x) (count : Nat) : Kept (em >>> count) (x / 2 ^ count) := by
  show Kept (count.repeat ExtendedMantissa.shiftRightOne em) _
  induction count with
  | zero => simpa [Nat.repeat] using kept
  | succ count ih =>
      rw [Nat.repeat, pow_succ, ← div_div]
      exact ih.shiftRightOne

/-- What is kept is enough to round to the nearest number. -/
theorem rounded (kept : Kept em x) :
    |x - em.roundedMantissa| ≤ 1 / 2 ∧
      (|x - em.roundedMantissa| = 1 / 2 → Even em.roundedMantissa) := by
  obtain ⟨m, first, later⟩ := em
  match first, later with
  | false, false =>
      have exactly : x = m := kept
      show |x - m| ≤ 1 / 2 ∧ (|x - m| = 1 / 2 → Even m)
      rw [exactly, sub_self, abs_zero]
      exact ⟨by norm_num, fun tie => absurd tie (by norm_num)⟩
  | false, true =>
      obtain ⟨above, below⟩ : (m : ℚ) < x ∧ x < m + 1 / 2 := kept
      show |x - m| ≤ 1 / 2 ∧ (|x - m| = 1 / 2 → Even m)
      rw [abs_of_pos (sub_pos.mpr above)]
      exact ⟨by linarith, fun tie => by linarith⟩
  | true, false =>
      have between : x = m + 1 / 2 := kept
      show |x - (m + m % 2 : Nat)| ≤ 1 / 2 ∧ (|x - (m + m % 2 : Nat)| = 1 / 2 → Even (m + m % 2))
      obtain even | odd := Nat.mod_two_eq_zero_or_one m
      · rw [between, even, add_zero, add_sub_cancel_left, abs_of_pos (by norm_num)]
        exact ⟨le_rfl, fun _ => Nat.even_iff.mpr even⟩
      · rw [between, odd]
        have below : (m + 1 / 2 : ℚ) - (m + 1 : Nat) = -(1 / 2) := by
          push_cast
          ring
        rw [below, abs_neg, abs_of_pos (by norm_num)]
        exact ⟨le_rfl, fun _ => Nat.even_iff.mpr (by omega)⟩
  | true, true =>
      obtain ⟨above, below⟩ : (m : ℚ) + 1 / 2 < x ∧ x < m + 1 := kept
      show |x - (m + 1 : Nat)| ≤ 1 / 2 ∧ (|x - (m + 1 : Nat)| = 1 / 2 → Even (m + 1))
      push_cast
      rw [abs_of_neg (by linarith)]
      exact ⟨by linarith, fun tie => by linarith⟩

end Kept

/-! ## Rounded mantissas -/

/-- The last place of a number of 53 digits, as the arithmetic computes it. -/
theorem targetExponent_eq (m : Nat) (e : Int) :
    Float.Model.Format.binary64.targetExponent (totalExponent m e) =
      max (m.log2 + e - 52) (-1074) := by
  show max ((m.log2 : Int) + 1 + e - (1 + 52 : Nat)) (3 - 2 ^ 10 - (1 + 52 : Nat)) = _
  omega

/-- How many digits the arithmetic shifts out of a mantissa. -/
theorem shiftToTargetExponent_eq {m count : Nat} {e : Int}
    (places : (max (m.log2 + e - 52) (-1074) - e).toNat = count) :
    shiftToTargetExponent .binary64 m e .exact =
      ((⟨m, false, false⟩ : ExtendedMantissa) >>> count, e + count) := by
  rw [shiftToTargetExponent, targetExponent_eq, shiftToExponent, places]
  rfl

/-- Rounding shifts once more where the mantissa has become one digit longer. -/
theorem ofUnpacked_roundWithAccuracy (sign : Sign) {m k : Nat} {e place : Int}
    {em : ExtendedMantissa} (first : shiftToTargetExponent .binary64 m e .exact = (em, place))
    (rounded : em.roundedMantissa = k) (few : k ≤ 2 ^ 53) (least : -1074 ≤ place) :
    ofUnpacked (roundWithAccuracy .binary64 sign m e .exact) =
      if k = 0 then .finite (sign == .negative) 0 (-1074)
      else if k < 2 ^ 53 then .finite (sign == .negative) k place
      else .finite (sign == .negative) (2 ^ 52) (place + 1) := by
  unfold roundWithAccuracy
  rw [first]
  dsimp only
  rw [rounded]
  obtain fits | full := Nat.lt_or_ge k (2 ^ 53)
  · have second : shiftToTargetExponent .binary64 k place .exact =
        ((⟨k, false, false⟩ : ExtendedMantissa), place) := by
      have log_le : k.log2 ≤ 52 := by
        by_cases zero : k = 0
        · simp [zero]
        · exact Nat.le_of_lt_succ ((Nat.log2_lt zero).mpr fits)
      rw [shiftToTargetExponent_eq (show _ = 0 by omega)]
      simp [HShiftRight.hShiftRight, Nat.repeat]
    rw [second, if_pos fits]
    by_cases zero : k = 0
    · rw [dif_pos zero, if_pos zero]
      rfl
    · rw [dif_neg zero, if_neg zero]
      rfl
  · obtain rfl : k = 2 ^ 53 := le_antisymm few full
    have second : shiftToTargetExponent .binary64 (2 ^ 53) place .exact =
        ((⟨2 ^ 52, false, false⟩ : ExtendedMantissa), place + 1) := by
      have log : (2 ^ 53 : Nat).log2 = 53 := Nat.log2_two_pow
      rw [shiftToTargetExponent_eq (show _ = 1 by rw [log]; omega)]
      rfl
    rw [second]
    rfl

/-- Numbers below this one are not rounded up beyond the greatest number. -/
def limit : ℚ := (2 ^ 53 - 1 / 2) * 2 ^ (971 : ℤ)

section

variable {u : ℚ} {k : Nat} {place : ℤ}

/-- In units of a place, a number that is rounded to the nearest integer is rounded to the nearest
multiple of the place. -/
theorem nearest_of_units (least : -1074 ≤ place) (normal : -1074 < place → 2 ^ 52 ≤ u)
    (near : |u - k| ≤ 1 / 2) (even : |u - k| = 1 / 2 → Even k) :
    Nearest (u * 2 ^ place) k place := by
  have unit : (0 : ℚ) < 2 ^ place := by positivity
  have distance : |u * 2 ^ place - (k : ℤ) * 2 ^ place| = |u - k| * 2 ^ place := by
    rw [Int.cast_natCast, ← sub_mul, abs_mul_zpow]
  refine ⟨least, fun above => ?_, ?_, fun tie => ?_⟩
  · exact (mul_le_mul_of_nonneg_right (normal above) unit.le).trans (le_abs_self _)
  · rw [distance]
    nlinarith
  · rw [distance] at tie
    exact_mod_cast even (by nlinarith)

/-- A number below the limit ends at a place of the greatest number or a lower one, and at a lower
one if its mantissa becomes one digit longer. -/
theorem place_le_of_lt_limit (normal : -1074 < place → 2 ^ 52 ≤ u) (near : |u - k| ≤ 1 / 2)
    (below : u * 2 ^ place < limit) : place ≤ 971 ∧ (k = 2 ^ 53 → place < 971) := by
  have unit : (0 : ℚ) < 2 ^ place := by positivity
  have within : place ≤ 971 := by
    by_contra beyond
    have scaled := mul_le_mul_of_nonneg_right (normal (by omega)) unit.le
    have next : (2 : ℚ) ^ (971 + 1 : ℤ) ≤ 2 ^ place :=
      zpow_le_zpow_right₀ (by norm_num) (by omega)
    have top : (0 : ℚ) < 2 ^ (971 : ℤ) := by positivity
    rw [zpow_add_one₀ (by norm_num)] at next
    rw [limit] at below
    generalize (2 : ℚ) ^ (971 : ℤ) = power at next top below
    linarith
  refine ⟨within, fun full => ?_⟩
  by_contra last
  obtain rfl : place = 971 := by omega
  have less : u < 2 ^ 53 - 1 / 2 := lt_of_mul_lt_mul_right below unit.le
  have low := (abs_le.mp near).1
  rw [full] at low
  push_cast at low
  linarith

end

/-- A mantissa from which all but 53 digits are shifted out, in units of its last place. -/
theorem div_two_pow_lt {m count : Nat} (few : m.log2 ≤ 52 + count) :
    (m : ℚ) / 2 ^ count < 2 ^ 53 := by
  rw [div_lt_iff₀ (by positivity), ← pow_add]
  have upto : 2 ^ (m.log2 + 1) ≤ 2 ^ (53 + count) := Nat.pow_le_pow_right (by decide) (by omega)
  exact_mod_cast Nat.lt_log2_self.trans_le upto

theorem le_div_two_pow {m count : Nat} (positive : 0 < m) (many : 52 + count ≤ m.log2) :
    (2 : ℚ) ^ 52 ≤ m / 2 ^ count := by
  rw [le_div_iff₀ (by positivity), ← pow_add]
  have upto : 2 ^ (52 + count) ≤ 2 ^ m.log2 := Nat.pow_le_pow_right (by decide) many
  exact_mod_cast upto.trans (Nat.log2_self_le positive.ne')

/-- Shifting out the digits behind the 53rd one and rounding what is left gives the nearest
multiple, of no more digits than there are, and of so many unless they end at the last place of
all. -/
theorem exists_nearest {m : Nat} {e : Int} (positive : 0 < m)
    (fine : e ≤ max (m.log2 + e - 52) (-1074)) :
    ∃ (k : Nat) (place : Int) (em : ExtendedMantissa),
      shiftToTargetExponent .binary64 m e .exact = (em, place) ∧ em.roundedMantissa = k ∧
      Nearest (m * 2 ^ e) k place ∧ k ≤ 2 ^ 53 ∧ (-1074 < place → 2 ^ 52 ≤ k) ∧
      ((m : ℚ) * 2 ^ e < limit → place ≤ 971 ∧ (k = 2 ^ 53 → place < 971)) := by
  obtain ⟨place, place_eq⟩ : ∃ place, max (m.log2 + e - 52) (-1074) = place := ⟨_, rfl⟩
  obtain ⟨count, count_eq⟩ : ∃ count : Nat, place = e + count := ⟨(place - e).toNat, by omega⟩
  have places : (max (m.log2 + e - 52) (-1074) - e).toNat = count := by omega
  have first := shiftToTargetExponent_eq places
  rw [← count_eq] at first
  have start : Kept ⟨m, false, false⟩ m := rfl
  obtain ⟨near, even⟩ := (start.shiftRight count).rounded
  refine ⟨_, place, _, first, rfl, ?_⟩
  generalize ((⟨m, false, false⟩ : ExtendedMantissa) >>> count).roundedMantissa = k at near even ⊢
  have whole : (m : ℚ) * 2 ^ e = m / 2 ^ count * 2 ^ place := by
    rw [count_eq, zpow_add₀ (by norm_num), zpow_natCast]
    field_simp
  have lt_many : (m : ℚ) / 2 ^ count < 2 ^ 53 := div_two_pow_lt (by omega)
  have normal (above : -1074 < place) : (2 : ℚ) ^ 52 ≤ m / 2 ^ count :=
    le_div_two_pow positive (by omega)
  obtain ⟨low, high⟩ := abs_le.mp near
  rw [whole]
  refine ⟨nearest_of_units (by omega) normal near even, ?_, fun above => ?_,
    place_le_of_lt_limit normal near⟩
  · have less : (k : ℚ) < (2 ^ 53 + 1 : Nat) := by
      push_cast
      linarith
    exact Nat.le_of_lt_succ (by exact_mod_cast less)
  · have more : ((2 ^ 52 : Nat) : ℚ) < k + 1 := by
      have many := normal above
      push_cast
      linarith
    exact Nat.le_of_lt_succ (by exact_mod_cast more)

/-- The sign of an unpacked number is that of its mantissa. -/
theorem signed_sign (sign : Sign) (m : Nat) : signed (sign == .negative) m = sign.apply m := by
  cases sign <;> rfl

/-- What the arithmetic makes of a number that it rounds, and that there is a word for it unless the
number is too great. -/
theorem roundWithAccuracy_rounds (sign : Sign) {m : Nat} {e : Int} (positive : 0 < m)
    (fine : e ≤ max (m.log2 + e - 52) (-1074)) :
    let rounded := ofUnpacked (roundWithAccuracy .binary64 sign m e .exact)
    ∃ c, rounded.value? = some c ∧ IsRounded ((sign.apply m : Int) * 2 ^ e) c ∧
      ((m : ℚ) * 2 ^ e < limit → HasWord rounded) := by
  obtain ⟨k, place, em, first, rounds, nearest, few, many, within⟩ := exists_nearest positive fine
  have ofSign : Nearest ((sign.apply m : Int) * 2 ^ e) (sign.apply k) place := by
    cases sign with
    | negative =>
        rw [Sign.apply, Sign.apply, Int.cast_neg, neg_mul]
        exact nearest.neg
    | positive => exact nearest
  refine ⟨(sign.apply k : Int) * 2 ^ place, ?_, ⟨_, place, ofSign, rfl⟩, fun below => ?_⟩
  · rw [ofUnpacked_roundWithAccuracy sign first rounds few nearest.least, ← signed_sign]
    split
    · next zero =>
        rw [zero, value?_zero]
        simp [signed]
    · split
      · rfl
      · next some long =>
          obtain rfl : k = 2 ^ 53 := le_antisymm few (not_lt.mp long)
          have moved := signed_mul_twoTo (sign == .negative) (2 ^ 52) 1 (place + 1)
          rw [Nat.cast_one, add_sub_cancel_right] at moved
          exact congrArg Option.some moved.symm
  · obtain ⟨most, last⟩ := within below
    have least : -1074 ≤ place := nearest.least
    rw [ofUnpacked_roundWithAccuracy sign first rounds few least]
    split
    · exact hasWord_zero _
    · split
      · next some short => exact ⟨⟨short, least, many⟩, most⟩
      · next some long =>
          have less := last (le_antisymm few (not_lt.mp long))
          exact ⟨⟨by decide, by show -1074 ≤ place + 1; omega, fun _ => le_rfl⟩, by omega⟩

/-- Giving a mantissa more digits and taking as many places away is the same number. -/
theorem apply_decreaseExponent (sign : Sign) (m : Nat) (e place : Int) :
    ((sign.apply (decreaseExponent m e place).1 : Int) : ℚ) * 2 ^ (decreaseExponent m e place).2 =
      (sign.apply m : Int) * 2 ^ e := by
  rw [← signed_sign, ← signed_sign, decreaseExponent, Nat.shiftLeft_eq]
  exact signed_mul_twoTo (sign == .negative) m (e - place).toNat e

theorem apply_decreaseExponent_of_le (sign : Sign) (m : Nat) {e place : Int} (lower : place ≤ e) :
    ((sign.apply (decreaseExponent m e place).1 : Int) : ℚ) * 2 ^ place =
      (sign.apply m : Int) * 2 ^ e := by
  have moved := apply_decreaseExponent sign m e place
  have reached : (decreaseExponent m e place).2 = place := by
    show e - (e - place).toNat = place
    omega
  rwa [reached] at moved

/-- Where a number has not digits enough, they are added before it is rounded. -/
theorem round_rounds (sign : Sign) {m : Nat} (positive : 0 < m) (e : Int) :
    let rounded := ofUnpacked (UnpackedFloat.round .binary64 sign m e)
    ∃ c, rounded.value? = some c ∧ IsRounded ((sign.apply m : Int) * 2 ^ e) c ∧
      ((m : ℚ) * 2 ^ e < limit → HasWord rounded) := by
  obtain ⟨target, target_eq⟩ : ∃ target, max (m.log2 + e - 52) (-1074) = target := ⟨_, rfl⟩
  have round_eq : UnpackedFloat.round .binary64 sign m e =
      roundWithAccuracy .binary64 sign (decreaseExponent m e target).1
        (decreaseExponent m e target).2 .exact := by
    rw [UnpackedFloat.round, targetExponent_eq, target_eq]
  have shifted : (decreaseExponent m e target).1 = m * 2 ^ (e - target).toNat :=
    Nat.shiftLeft_eq _ _
  have nonzero : 0 < (decreaseExponent m e target).1 := by
    rw [shifted]
    exact Nat.mul_pos positive (Nat.two_pow_pos _)
  have longer : m.log2 + (e - target).toNat ≤ (decreaseExponent m e target).1.log2 := by
    rw [Nat.le_log2 nonzero.ne', shifted, Nat.pow_add]
    exact Nat.mul_le_mul_right _ (Nat.log2_self_le positive.ne')
  have lower : (decreaseExponent m e target).2 = e - (e - target).toNat := rfl
  have rounds := roundWithAccuracy_rounds sign nonzero (e := (decreaseExponent m e target).2)
    (by omega)
  have moved := apply_decreaseExponent .positive m e target
  rw [Sign.apply, Sign.apply, Int.cast_natCast, Int.cast_natCast] at moved
  rw [apply_decreaseExponent, moved, ← round_eq] at rounds
  exact rounds

/-- A mantissa with a sign is rounded as the mantissa is. -/
theorem normalize_rounds (mantissa e : Int) (zeroSign : Sign) :
    let rounded := ofUnpacked (UnpackedFloat.normalize .binary64 mantissa e zeroSign)
    ∃ c, rounded.value? = some c ∧ IsRounded (mantissa * 2 ^ e) c ∧
      (|(mantissa : ℚ) * 2 ^ e| < limit → HasWord rounded) := by
  have size (m : Nat) (same : |mantissa| = m) : |(mantissa : ℚ) * 2 ^ e| = m * 2 ^ e := by
    rw [abs_mul_zpow]
    congr 1
    exact_mod_cast same
  obtain negative | rfl | positive := lt_trichotomy mantissa 0
  · have ofSign : Sign.negative.apply (-mantissa).toNat = mantissa := by
      show -((-mantissa).toNat : Int) = mantissa
      omega
    have rounds := round_rounds .negative (show 0 < (-mantissa).toNat by omega) e
    rw [ofSign, ← size _ (by rw [abs_of_neg negative]; omega)] at rounds
    rw [UnpackedFloat.normalize, Int.compare_eq_lt.mpr negative]
    exact rounds
  · have zero : ofUnpacked (UnpackedFloat.normalize .binary64 0 e zeroSign) =
        .finite (zeroSign == .negative) 0 (-1074) := rfl
    rw [zero, Int.cast_zero, zero_mul]
    exact ⟨0, value?_zero _ _, IsRounded.zero, fun _ => hasWord_zero _⟩
  · have ofSign : Sign.positive.apply mantissa.toNat = mantissa := by
      show (mantissa.toNat : Int) = mantissa
      omega
    have rounds := round_rounds .positive (show 0 < mantissa.toNat by omega) e
    rw [ofSign, ← size _ (by rw [abs_of_pos positive]; omega)] at rounds
    rw [UnpackedFloat.normalize, Int.compare_eq_gt.mpr positive]
    exact rounds

end Tonegraph.Binary
