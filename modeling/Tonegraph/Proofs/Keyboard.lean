import Tonegraph.Keyboard
import Tonegraph.Proofs.Arithmetic.Binary64
/-!
# Where a value lies on a keyboard

On floating-point numbers every finite value has a place on a keyboard whose differences of keys do
not wrap around, and the place lies from the first key to the last. The modulo leaves a number below
the span of the keys, but adding the first key rounds, and may round up to the last key itself. It
does when no number below the last key is nearer than the last key is (`keyIndex?_place`). On a
keyboard that ends within the power of two that its span comes to, as a piano does, it never does;
on a keyboard of the one key 2 it can (`keyIndex?_lastKey`).
-/

set_option autoImplicit false

namespace Tonegraph

open Binary

namespace Keyboard

variable {k : Keyboard Float}

/-- A difference of keys is the difference of their numbers unless that is no integer of 32 bits. -/
theorem toInt_sub_eq_iff (a b : Int32) :
    (a - b).toInt = a.toInt - b.toInt ↔
      -2 ^ 31 ≤ a.toInt - b.toInt ∧ a.toInt - b.toInt < 2 ^ 31 := by
  constructor
  · intro same
    exact same ▸ ⟨(a - b).le_toInt, (a - b).toInt_lt⟩
  · rintro ⟨low, high⟩
    rw [Int32.toInt_sub]
    exact Int.bmod_eq_of_le (by omega) (by omega)

/-- How far above the first key a value lies, as it is computed. -/
def aboveFirst (k : Keyboard Float) (value : Float) : Float :=
  Arithmetic.floorMod (value + Scalar.ofInt (k.zeroKey - k.firstKey).toInt)
    (Scalar.ofInt (k.lastKey - k.firstKey).toInt)

/-- Keys of 32 bits have few enough digits. -/
theorem abs_key_lt {n : Int} (low : -2 ^ 31 ≤ n) (high : n < 2 ^ 31) : |n| < 2 ^ 53 :=
  abs_lt.mpr ⟨by omega, by omega⟩

/-- A key is added to a number, and the sum is rounded. -/
theorem floatValue?_add_key {x : Float} {a : ℚ} (value : floatValue? x = some a) {n : Int}
    (low : -2 ^ 31 ≤ n) (high : n < 2 ^ 31) :
    ∃ c, floatValue? (x + Scalar.ofInt n) = some c ∧ IsRounded (a + n) c :=
  floatValue?_add value (floatValue?_ofInt (abs_key_lt low high))
    (add_lt_limit value (by exact_mod_cast abs_key_lt low high))

/-- A value lies above the first key, by less than there are keys. -/
theorem floatValue?_aboveFirst {span : Int} (positive : 0 < span) (span_lt : span < 2 ^ 31)
    (span_eq : (k.lastKey - k.firstKey).toInt = span) {value : Float} {v : ℚ}
    (isValue : floatValue? value = some v) :
    ∃ place, floatValue? (k.aboveFirst value) = some place ∧ 0 ≤ place ∧ place < span := by
  obtain ⟨shifted, sum, -⟩ := floatValue?_add_key isValue (k.zeroKey - k.firstKey).le_toInt
    (k.zeroKey - k.firstKey).toInt_lt
  have spanValue := floatValue?_ofInt (abs_key_lt (by omega) span_lt)
  rw [aboveFirst, span_eq]
  exact floatValue?_floorMod sum spanValue (by exact_mod_cast positive)

/-- **Where a value lies on a keyboard.** The difference of the last key and the first, and that of
the key for zero and the first, are the differences of their numbers unless these take more than 32
bits. If the first of them does not, every finite value has a key, which is a number from the first
key to the last. It is below the last exactly if one of the numbers below the last is nearer than
the last to the place that the modulo gives, counted from the first key. That is so for all values
if every power of two that the span comes to contains the last key. -/
theorem keyIndex?_place (ordered : k.firstKey < k.lastKey) {value : Float}
    (finite : value.isFinite = true) :
    let first := k.firstKey.toInt
    let last := k.lastKey.toInt
    let shift := k.zeroKey.toInt - first
    ((k.lastKey - k.firstKey).toInt = last - first ↔ last - first < 2 ^ 31) ∧
    ((k.zeroKey - k.firstKey).toInt = shift ↔ -2 ^ 31 ≤ shift ∧ shift < 2 ^ 31) ∧
    (last - first < 2 ^ 31 →
      ∃ index key place, k.keyIndex? value = some index ∧ floatValue? index = some key ∧
        floatValue? (k.aboveFirst value) = some place ∧ 0 ≤ place ∧ place < last - first ∧
        first ≤ key ∧ key ≤ last ∧
        (key < last ↔ ∃ (nearer : Float) (q : ℚ), floatValue? nearer = some q ∧ q < last ∧
          |first + place - q| < |first + place - last|) ∧
        ((∀ n : Nat, last - first ≤ 2 ^ n → -2 ^ n < last ∧ last ≤ 2 ^ n) → key < last)) := by
  intro first last shift
  have first_ge : -2 ^ 31 ≤ first := k.firstKey.le_toInt
  have first_lt : first < 2 ^ 31 := k.firstKey.toInt_lt
  have last_ge : -2 ^ 31 ≤ last := k.lastKey.le_toInt
  have last_lt : last < 2 ^ 31 := k.lastKey.toInt_lt
  have positive : 0 < last - first := sub_pos.mpr (Int32.lt_iff_toInt_lt.mp ordered)
  have span_iff := (toInt_sub_eq_iff k.lastKey k.firstKey).trans
    (and_iff_right (by omega : -2 ^ 31 ≤ last - first))
  refine ⟨span_iff, toInt_sub_eq_iff _ _, fun span => ?_⟩
  obtain ⟨v, isValue⟩ := isFinite_iff.mp finite
  obtain ⟨place, placed, place_ge, place_lt⟩ :=
    floatValue?_aboveFirst positive span (span_iff.mpr span) isValue
  obtain ⟨key, sum, rounded⟩ := floatValue?_add_key placed first_ge first_lt
  rw [add_comm] at rounded
  push_cast at place_lt
  have below : (first + place : ℚ) < last := by linarith
  have small : |(first + place : ℚ)| < 2 ^ 52 := by
    have low : (-2 ^ 31 : ℚ) ≤ first := by exact_mod_cast first_ge
    have high : (last : ℚ) < 2 ^ 31 := by exact_mod_cast last_lt
    exact abs_lt.mpr ⟨by linarith, by linarith⟩
  have lt_iff := rounded.lt_iff small (abs_key_lt last_ge last_lt) below
  refine ⟨k.aboveFirst value + Scalar.ofInt first, key, place, ?_, sum, placed, place_ge, place_lt,
    ?_, ?_, ?_, fun contained => ?_⟩
  · have isFinite : Arithmetic.isFinite (k.aboveFirst value + Scalar.ofInt first) = true :=
      isFinite_iff.mpr ⟨key, sum⟩
    have finite : Arithmetic.isFinite value = true := finite
    rw [keyIndex?, if_pos finite]
    exact if_pos isFinite
  · exact rounded.ge (representable_intCast (abs_key_lt first_ge first_lt)) (by linarith)
  · exact rounded.le (representable_intCast (abs_key_lt last_ge last_lt)) below.le
  · refine ⟨fun less => ⟨_, key, sum, less, lt_iff.mp less⟩, ?_⟩
    rintro ⟨nearer, q, isNearer, -, distance⟩
    exact lt_iff.mpr
      ((rounded.distance_le (representable_of_floatValue? isNearer)).trans_lt distance)
  · exact rounded.lt_of_contained (representable_of_floatValue? placed) place_lt (by omega)
      (by omega) contained

/-- A value that comes as near to the end of a piano as values do is still on it. -/
theorem keyIndex?_piano :
    let k : Keyboard Float := .piano
    let value : Float := 47.999999999999986
    k.firstKey < k.lastKey ∧ value.isFinite = true ∧
    ∃ index key, k.keyIndex? value = some index ∧ floatValue? index = some key ∧ 1 ≤ key ∧
      key < 88 := by
  intro k value
  have ordered : k.firstKey < k.lastKey := by decide
  have finite : value.isFinite = true := by decide +kernel
  have fits : k.lastKey.toInt - k.firstKey.toInt < 2 ^ 31 := by decide
  obtain ⟨index, key, place, isIndex, isKey, -, -, -, low, -, -, within⟩ :=
    (keyIndex?_place ordered finite).2.2 fits
  refine ⟨ordered, finite, index, key, isIndex, isKey, ?_, ?_⟩
  · simpa [k, piano] using low
  · have upto : ∀ n : Nat, (87 : ℤ) ≤ 2 ^ n → -2 ^ n < (88 : ℤ) ∧ (88 : ℤ) ≤ 2 ^ n := by
      intro n keys
      have seven : 7 ≤ n := by
        by_contra few
        have less : (2 : ℤ) ^ n ≤ 2 ^ 6 := pow_le_pow_right₀ (by norm_num) (by omega)
        omega
      have more : (2 : ℤ) ^ 7 ≤ 2 ^ n := pow_le_pow_right₀ (by norm_num) seven
      omega
    exact within upto

/-- On the keyboard of one key from 2 to 3, the last value below 1 has the key 3, which is past its
end. On the longest of all keyboards the difference of the keys wraps around. -/
theorem keyIndex?_lastKey :
    let k : Keyboard Float := ⟨2, 3, 49, Scalar.ofNat 440, 2⟩
    let value := Float.ofBits 0x3FEFFFFFFFFFFFFF
    let longest : Keyboard Float := ⟨-2147483648, 2147483647, 49, Scalar.ofNat 440, 40⟩
    k.firstKey < k.lastKey ∧ value.isFinite = true ∧
    (∃ index, k.keyIndex? value = some index ∧ ¬ index < Scalar.ofInt k.lastKey.toInt) ∧
    longest.firstKey < longest.lastKey ∧
    (longest.lastKey - longest.firstKey).toInt = -1 ∧
    longest.lastKey.toInt - longest.firstKey.toInt = 4294967295 := by
  refine ⟨by decide, by decide +kernel, ⟨Scalar.ofInt 3, ?_⟩, by decide⟩
  decide +kernel

end Keyboard

end Tonegraph
