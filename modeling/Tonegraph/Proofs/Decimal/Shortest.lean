import Mathlib.Algebra.Order.Field.Power
import Mathlib.Data.Nat.Cast.Order.Field
import Mathlib.Tactic.Linarith
import Mathlib.Tactic.Positivity
import Mathlib.Tactic.FieldSimp
import Mathlib.Tactic.Ring
import Tonegraph.Decimal.Shortest
import Tonegraph.Proofs.Decimal.Positional
/-!
# The fewest digits are read as the number

`Range.Holds r q` says that the real `q` is read as the number of the range. The search of the
shortest decimal ends within the grids that it tries (`Range.search_holds`), since on the last one
two neighbours are nearer to each other than the range is wide, and the decimal it finds is read as
the number (`shortest_holds`).

No real is read as two different numbers of a word layout (`Fits.unique`), so the text of a number
tells the number.
-/

set_option autoImplicit false

namespace Tonegraph.Decimal

/-! ## Powers -/

/-- A power with its exponent in two parts, of which one is zero. -/
theorem zpow_eq_toNat_div {base : ℚ} (positive : 0 < base) (exponent : Int) :
    base ^ exponent = base ^ exponent.toNat / base ^ (-exponent).toNat := by
  rw [← zpow_natCast, ← zpow_natCast, ← zpow_sub₀ positive.ne']
  congr 1
  omega

theorem tenTo_div (exponent : Int) :
    (10 : ℚ) ^ exponent = tenTo exponent.toNat / tenTo (-exponent).toNat := by
  rw [zpow_eq_toNat_div (by norm_num)]
  exact_mod_cast rfl

theorem twoTo_div (exponent : Int) :
    (2 : ℚ) ^ exponent = twoTo exponent.toNat / twoTo (-exponent).toNat := by
  rw [zpow_eq_toNat_div (by norm_num)]
  exact_mod_cast rfl

/-! ## Ranges -/

namespace Range

/-- A real is read as the number of a range. -/
def Holds (r : Range) (q : ℚ) : Prop :=
  if r.closed then (r.low : ℚ) / r.denominator ≤ q ∧ q ≤ r.high / r.denominator
  else (r.low : ℚ) / r.denominator < q ∧ q < r.high / r.denominator

variable {r : Range}

/-- The comparison of whole numbers tells whether a decimal is in range. -/
theorem holds_iff (positive : 0 < r.denominator) (grid : Int) (point : Nat) :
    r.holds grid point = true ↔ r.Holds (point * 10 ^ grid) := by
  have den : (0 : ℚ) < r.denominator := by exact_mod_cast positive
  have scale : (0 : ℚ) < tenTo (-grid).toNat := by exact_mod_cast tenTo_pos _
  have value : (point : ℚ) * 10 ^ grid = point * tenTo grid.toNat / tenTo (-grid).toNat := by
    rw [tenTo_div, mul_div_assoc]
  have le (a : Nat) : (a : ℚ) / r.denominator ≤ point * 10 ^ grid ↔
      a * tenTo (-grid).toNat ≤ point * tenTo grid.toNat * r.denominator := by
    rw [value, div_le_div_iff₀ den scale]
    exact_mod_cast Iff.rfl
  have ge (a : Nat) : (point : ℚ) * 10 ^ grid ≤ a / r.denominator ↔
      point * tenTo grid.toNat * r.denominator ≤ a * tenTo (-grid).toNat := by
    rw [value, div_le_div_iff₀ scale den]
    exact_mod_cast Iff.rfl
  unfold Range.holds Holds
  cases r.closed with
  | true => simp [le, ge]
  | false => simp [lt_iff_lt_of_le_iff_le (ge _), lt_iff_lt_of_le_iff_le (le _)]

theorem point?_holds {grid : Int} {digits : Nat} (found : r.point? grid = some digits) :
    r.holds grid digits = true := by
  unfold point? at found
  dsimp only at found
  split at found
  · split at found <;> cases found <;> assumption
  · cases found; assumption
  · cases found; assumption
  · cases found

/-- The last point of a grid that is not above the value of the range. -/
def below (r : Range) (grid : Int) : Nat :=
  r.value * tenTo (-grid).toNat / (r.denominator * tenTo grid.toNat)

/-- The value lies between two neighbours on the grid. -/
theorem value_between (positive : 0 < r.denominator) (grid : Int) :
    (r.below grid : ℚ) * 10 ^ grid ≤ r.value / r.denominator ∧
      (r.value : ℚ) / r.denominator < (r.below grid + 1 : Nat) * 10 ^ grid := by
  let numerator := r.value * tenTo (-grid).toNat
  let unit := r.denominator * tenTo grid.toNat
  have step : (0 : ℚ) < 10 ^ grid := by positivity
  have unitPos : 0 < unit := Nat.mul_pos positive (tenTo_pos _)
  have inGrid : (r.value : ℚ) / r.denominator = numerator / unit * 10 ^ grid := by
    have den : (0 : ℚ) < r.denominator := by exact_mod_cast positive
    have scale : (0 : ℚ) < tenTo (-grid).toNat := by exact_mod_cast tenTo_pos _
    have scale' : (0 : ℚ) < tenTo grid.toNat := by exact_mod_cast tenTo_pos _
    rw [tenTo_div]
    push_cast [numerator, unit]
    field_simp
  have lower : (r.below grid : ℚ) ≤ numerator / unit := Nat.cast_div_le
  have upper : (numerator : ℚ) / unit < (r.below grid + 1 : Nat) := by
    rw [div_lt_iff₀ (by exact_mod_cast unitPos), mul_comm]
    exact_mod_cast Nat.lt_mul_div_succ numerator unitPos
  rw [inGrid]
  exact ⟨mul_le_mul_of_nonneg_right lower step.le, mul_lt_mul_of_pos_right upper step⟩

/-- A grid that is finer than the upper half of the range has a point in range. -/
theorem point?_isSome (positive : 0 < r.denominator) (room : r.low < r.value) {grid : Int}
    (fine : (r.value : ℚ) / r.denominator + 10 ^ grid < r.high / r.denominator) :
    (r.point? grid).isSome = true := by
  have above : r.holds grid (r.below grid + 1) = true := by
    rw [holds_iff positive]
    obtain ⟨lower, upper⟩ := value_between positive grid
    have den : (0 : ℚ) < r.denominator := by exact_mod_cast positive
    have low : (r.low : ℚ) / r.denominator < r.value / r.denominator :=
      div_lt_div_of_pos_right (by exact_mod_cast room) den
    have within : ((r.below grid + 1 : Nat) : ℚ) * 10 ^ grid < r.high / r.denominator := by
      push_cast
      linarith
    unfold Holds
    split
    · exact ⟨(low.trans upper).le, within.le⟩
    · exact ⟨low.trans upper, within⟩
  unfold point?
  dsimp only
  split
  · rfl
  · rfl
  · rfl
  · next none => cases none.symm.trans above

/-- A search that comes to a grid with a point in range ends with a point in range. -/
theorem search_holds (negative : Bool) {steps fuel : Nat} {grid : Int} (within : steps < fuel)
    (hit : (r.point? (grid - steps)).isSome = true) :
    r.holds (r.search negative fuel grid).exponent (r.search negative fuel grid).digits = true := by
  induction fuel generalizing steps grid with
  | zero => exact absurd within (Nat.not_lt_zero steps)
  | succ fuel ih =>
      rw [search]
      cases found : r.point? grid with
      | some digits => exact point?_holds found
      | none =>
          cases steps with
          | zero =>
              rw [Nat.cast_zero, sub_zero, found] at hit
              cases hit
          | succ steps =>
              apply ih (Nat.lt_of_succ_lt_succ within)
              rwa [show grid - 1 - (steps : Int) = grid - (steps + 1 : Nat) by push_cast; ring]

theorem search_negative (negative : Bool) (fuel : Nat) (grid : Int) :
    (r.search negative fuel grid).negative = negative := by
  induction fuel generalizing grid with
  | zero => rfl
  | succ fuel ih =>
      rw [search]
      cases r.point? grid with
      | some digits => rfl
      | none => exact ih (grid - 1)

end Range

/-! ## The magnitude of a range -/

/-- The magnitude of a range is not too high. -/
theorem Range.magnitude_le {r : Range} (positive : 0 < r.denominator) (some : 0 < r.value) :
    (10 : ℚ) ^ (r.magnitude - 1) ≤ r.value / r.denominator := by
  have den : (0 : ℚ) < r.denominator := by exact_mod_cast positive
  unfold Range.magnitude
  dsimp only
  set guess : Int := (digitCount r.value : Int) - digitCount r.denominator
  split
  · next isLow =>
      have scale : (0 : ℚ) < tenTo (-guess).toNat := by exact_mod_cast tenTo_pos _
      rw [add_sub_cancel_right, tenTo_div, div_le_div_iff₀ scale den, mul_comm]
      exact_mod_cast isLow
  · have below : (tenTo (digitCount r.value - 1) : ℚ) ≤ r.value := by
      exact_mod_cast tenTo_digitCount_le some
    have above : (r.denominator : ℚ) < tenTo (digitCount r.denominator) := by
      exact_mod_cast lt_tenTo_digitCount _
    have count : 1 ≤ digitCount r.value := Nat.length_toDigits_pos
    have power : (10 : ℚ) ^ (guess - 1) =
        tenTo (digitCount r.value - 1) / tenTo (digitCount r.denominator) := by
      have counts : guess - 1 =
          ((digitCount r.value - 1 : Nat) : Int) - digitCount r.denominator := by omega
      rw [counts, zpow_sub₀ (by norm_num), zpow_natCast, zpow_natCast]
      exact_mod_cast rfl
    rw [power]
    exact div_le_div₀ (by positivity) below den above.le

/-! ## The shortest decimal -/

theorem dropZeros_value (d : Decimal) : d.dropZeros.value = d.value := by
  suffices ∀ fuel digits exponent, (dropZeros.go d fuel digits exponent).value =
      (digits : ℚ) * 10 ^ exponent from this _ _ _
  intro fuel
  induction fuel with
  | zero => intro digits exponent; rfl
  | succ fuel ih =>
      intro digits exponent
      rw [dropZeros.go]
      split
      · next zero =>
          have tens : digits = digits / 10 * 10 := by omega
          rw [ih, zpow_add_one₀ (by norm_num)]
          conv_rhs => rw [tens]
          push_cast
          ring
      · rfl

theorem dropZeros_negative (d : Decimal) : d.dropZeros.negative = d.negative := by
  suffices ∀ fuel digits exponent, (dropZeros.go d fuel digits exponent).negative = d.negative from
    this _ _ _
  intro fuel
  induction fuel with
  | zero => intro digits exponent; rfl
  | succ fuel ih =>
      intro digits exponent
      rw [dropZeros.go]
      split
      · exact ih _ _
      · rfl

/-! ## The range of a binary number -/

/-- The lower end of the range of a binary number, in quarters of its last bit. -/
def lowQuarters (f : Binary.Format) (mantissa : Nat) (exponent : Int) : Nat :=
  if mantissa == f.leastNormal && f.leastExponent < exponent then 4 * mantissa - 1
  else 4 * mantissa - 2

section

variable {f : Binary.Format} {m n : Nat} {e k : Int}

theorem lowQuarters_lt (positive : 0 < m) : lowQuarters f m e < 4 * m := by
  unfold lowQuarters
  split <;> omega

theorem four_mul_sub_two_le (f : Binary.Format) (m : Nat) (e : Int) :
    4 * m - 2 ≤ lowQuarters f m e := by
  unfold lowQuarters
  split <;> omega

/-- Quarters of the last bit, as the range of a binary number has them. -/
theorem quarters_div (quarters : Nat) :
    ((quarters * twoTo (e - 2).toNat : Nat) : ℚ) / twoTo (2 - e).toNat = quarters * 2 ^ (e - 2) := by
  rw [twoTo_div, neg_sub, Nat.cast_mul, mul_div_assoc]

/-- What is read as a binary number lies between the ends of its range. -/
theorem Range.Holds.bounds {q : ℚ} (holds : (Range.ofBinary f m e).Holds q) :
    lowQuarters f m e * 2 ^ (e - 2) ≤ q ∧ q ≤ (4 * m + 2 : Nat) * 2 ^ (e - 2) := by
  have low := quarters_div (e := e) (lowQuarters f m e)
  have high := quarters_div (e := e) (4 * m + 2)
  unfold Range.Holds at holds
  rw [← low, ← high]
  split at holds
  · exact holds
  · exact ⟨holds.1.le, holds.2.le⟩

/-- The ends of the range are read as the number only when the mantissa is even. -/
theorem Range.Holds.strict {q : ℚ} (holds : (Range.ofBinary f m e).Holds q) (odd : m % 2 = 1) :
    lowQuarters f m e * 2 ^ (e - 2) < q ∧ q < (4 * m + 2 : Nat) * 2 ^ (e - 2) := by
  have low := quarters_div (e := e) (lowQuarters f m e)
  have high := quarters_div (e := e) (4 * m + 2)
  have isOpen : (Range.ofBinary f m e).closed = false := by
    show (m % 2 == 0) = false
    rw [odd]
    rfl
  unfold Range.Holds at holds
  rw [isOpen] at holds
  rw [← low, ← high]
  exact holds

/-- The shortest decimal of a number is read as the number, which twenty digits are enough for when
the mantissa has 53 bits. -/
theorem shortest_holds (negative : Bool) (positive : 0 < m) (small : m < 2 ^ 53) :
    (Range.ofBinary f m e).Holds (shortest f negative m e).value := by
  set r := Range.ofBinary f m e
  have den : 0 < r.denominator := twoTo_pos _
  have valueAt : (r.value : ℚ) / r.denominator = (4 * m : Nat) * 2 ^ (e - 2) := quarters_div _
  have highAt : (r.high : ℚ) / r.denominator = (4 * m + 2 : Nat) * 2 ^ (e - 2) := quarters_div _
  have some : 0 < r.value := Nat.mul_pos (by omega) (twoTo_pos _)
  have room : r.low < r.value :=
    Nat.mul_lt_mul_of_pos_right (lowQuarters_lt positive) (twoTo_pos _)
  have last : r.magnitude - 1 - (19 : Nat) = r.magnitude - 20 := by
    push_cast
    ring
  -- twenty digits are finer than half the distance to the next number
  have fine : (10 : ℚ) ^ (r.magnitude - 20) < 2 * 2 ^ (e - 2) := by
    have unit : (0 : ℚ) < 2 ^ (e - 2) := by positivity
    have mantissa : ((4 * m : Nat) : ℚ) < 4 * 2 ^ 53 := by
      exact_mod_cast Nat.mul_lt_mul_of_pos_left small (by decide)
    rw [← last, zpow_sub₀ (by norm_num), zpow_natCast, div_lt_iff₀ (by positivity)]
    calc (10 : ℚ) ^ (r.magnitude - 1) ≤ (4 * m : Nat) * 2 ^ (e - 2) :=
          valueAt ▸ Range.magnitude_le den some
      _ < 4 * 2 ^ 53 * 2 ^ (e - 2) := mul_lt_mul_of_pos_right mantissa unit
      _ ≤ 2 * 2 ^ (e - 2) * 10 ^ 19 := by linarith
  have hit : (r.point? (r.magnitude - 1 - (19 : Nat))).isSome = true := by
    apply Range.point?_isSome den room
    rw [last, valueAt, highAt]
    push_cast
    linarith
  have found := Range.search_holds negative (by decide : 19 < 20) hit
  rw [shortest, if_neg positive.ne', dropZeros_value]
  exact (Range.holds_iff den _ _).mp found

theorem shortest_negative (negative : Bool) : (shortest f negative m e).negative = negative := by
  unfold shortest
  split
  · rfl
  · exact (dropZeros_negative _).trans (Range.search_negative negative _ _)

/-! ## No real is read as two numbers -/

/-- A mantissa and an exponent that a word of a layout can have: a mantissa without its leading bit
goes with the least exponent only. -/
structure Fits (f : Binary.Format) (mantissa : Nat) (exponent : Int) : Prop where
  small : mantissa < 2 * f.leastNormal
  least : f.leastExponent ≤ exponent
  normal : f.leastExponent < exponent → f.leastNormal ≤ mantissa

/-- At the least normal mantissa and above it, the lower end is this high. -/
theorem le_lowQuarters (normal : f.leastNormal ≤ m) (notLeast : f.leastExponent < e) :
    4 * f.leastNormal - 1 ≤ lowQuarters f m e := by
  unfold lowQuarters
  split
  · omega
  · next wide =>
      have other : m ≠ f.leastNormal := by
        rintro rfl
        simp [notLeast] at wide
      omega

/-- The range of a number ends below the range of every greater one, or where that one begins; in
this case one of the two does not hold its end. -/
theorem Fits.apart (fits : Fits f m e) (fits' : Fits f n k) (lower : e < k ∨ e = k ∧ m < n) {q : ℚ}
    (holds : (Range.ofBinary f m e).Holds q) : ¬(Range.ofBinary f n k).Holds q := by
  intro holds'
  have positive : 0 < f.leastNormal := twoTo_pos _
  have unit : (0 : ℚ) < 2 ^ (e - 2) := by positivity
  -- the next number's range in quarters of this number's last bit
  obtain ⟨factor, scale, within, odd⟩ : ∃ factor : Nat, (2 : ℚ) ^ (k - 2) = factor * 2 ^ (e - 2) ∧
      4 * m + 2 ≤ lowQuarters f n k * factor ∧
      (4 * m + 2 = lowQuarters f n k * factor → m % 2 = 1 ∨ n % 2 = 1) := by
    rcases lower with less | ⟨rfl, less⟩
    · refine ⟨2 ^ (k - e).toNat, ?_, ?_⟩
      · rw [Nat.cast_pow, ← zpow_natCast, Nat.cast_ofNat, ← zpow_add₀ (by norm_num)]
        congr 1
        omega
      · have two : 2 ≤ 2 ^ (k - e).toNat := Nat.le_self_pow (by omega) 2
        have next : 4 * f.leastNormal - 1 ≤ lowQuarters f n k := by
          have above : f.leastExponent < k := lt_of_le_of_lt fits.least less
          exact le_lowQuarters (fits'.normal above) above
        have high : (4 * f.leastNormal - 1) * 2 ≤ lowQuarters f n k * 2 ^ (k - e).toNat :=
          Nat.mul_le_mul next two
        have small := fits.small
        exact ⟨by omega, by omega⟩
    · refine ⟨1, by simp, ?_⟩
      have low := four_mul_sub_two_le f n e
      omega
  have ends : ((4 * m + 2 : Nat) : ℚ) * 2 ^ (e - 2) ≤ lowQuarters f n k * 2 ^ (k - 2) := by
    rw [scale, ← mul_assoc]
    exact mul_le_mul_of_nonneg_right (by exact_mod_cast within) unit.le
  have upper := holds.bounds.2
  have lower := holds'.bounds.1
  have meets : 4 * m + 2 = lowQuarters f n k * factor := by
    have same : ((4 * m + 2 : Nat) : ℚ) * 2 ^ (e - 2) =
        (lowQuarters f n k * factor) * 2 ^ (e - 2) := by
      rw [mul_assoc, ← scale]
      exact le_antisymm ends (lower.trans upper)
    exact_mod_cast mul_right_cancel₀ unit.ne' same
  rcases odd meets with odd | odd
  · exact absurd ((holds.strict odd).2) (not_lt.mpr (ends.trans lower))
  · exact absurd ((holds'.strict odd).1) (not_lt.mpr (upper.trans ends))

/-- No real is read as two numbers. -/
theorem Fits.unique (fits : Fits f m e) (fits' : Fits f n k) {q : ℚ}
    (holds : (Range.ofBinary f m e).Holds q) (holds' : (Range.ofBinary f n k).Holds q) :
    m = n ∧ e = k := by
  rcases lt_trichotomy e k with less | rfl | greater
  · exact absurd holds' (fits.apart fits' (.inl less) holds)
  · rcases lt_trichotomy m n with less | rfl | greater
    · exact absurd holds' (fits.apart fits' (.inr ⟨rfl, less⟩) holds)
    · exact ⟨rfl, rfl⟩
    · exact absurd holds (fits'.apart fits (.inr ⟨rfl, greater⟩) holds')
  · exact absurd holds (fits'.apart fits (.inl greater) holds')

/-- A number above zero is not read from zero. -/
theorem Range.Holds.positive {q : ℚ} (positive : 0 < m) (holds : (Range.ofBinary f m e).Holds q) :
    0 < q := by
  have low : 0 < lowQuarters f m e := lt_of_lt_of_le (by omega) (four_mul_sub_two_le f m e)
  have unit : (0 : ℚ) < 2 ^ (e - 2) := by positivity
  exact lt_of_lt_of_le (mul_pos (by exact_mod_cast low) unit) holds.bounds.1

/-- The shortest decimal of a number tells the number. -/
theorem Fits.eq_of_shortest_value_eq {negative other : Bool} (fits : Fits f m e)
    (fits' : Fits f n k) (precise : 2 * f.leastNormal ≤ 2 ^ 53)
    (same : (shortest f negative m e).value = (shortest f other n k).value) : m = n ∧ e = k := by
  have holds (positive : 0 < m) := shortest_holds (f := f) (e := e) negative positive
    (lt_of_lt_of_le fits.small precise)
  have holds' (positive : 0 < n) := shortest_holds (f := f) (e := k) other positive
    (lt_of_lt_of_le fits'.small precise)
  have zero (negative : Bool) (e : Int) : (shortest f negative 0 e).value = 0 := by
    simp [shortest, value]
  have least {e : Int} (fits : Fits f 0 e) : e = f.leastExponent := by
    by_contra other
    have normal := fits.normal (lt_of_le_of_ne fits.least (Ne.symm other))
    exact absurd normal (not_le.mpr (twoTo_pos _))
  rcases Nat.eq_zero_or_pos m with rfl | some <;> rcases Nat.eq_zero_or_pos n with rfl | some'
  · exact ⟨rfl, (least fits).trans (least fits').symm⟩
  · have positive := (holds' some').positive some'
    rw [← same, zero] at positive
    exact absurd positive (lt_irrefl 0)
  · have positive := (holds some).positive some
    rw [same, zero] at positive
    exact absurd positive (lt_irrefl 0)
  · exact fits.unique fits' (holds some) (same ▸ holds' some')

end

end Tonegraph.Decimal
