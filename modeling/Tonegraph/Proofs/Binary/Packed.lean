import Tonegraph.Proofs.Binary
/-!
# Words of 64 bits and what the arithmetic makes of them

The arithmetic of floating-point numbers unpacks words, computes, and packs the result into a word.
A word stands for what it is unpacked to (`Binary.ofUnpacked_unpack`), and what is packed into a
word is what the word stands for, if there is a word for it (`Binary.ofWord_pack`). So the value of
a floating-point number, `Binary.floatValue?`, is the value of its unpacked form. Every number with
few enough binary digits is the value of some floating-point number (`Binary.floatValue?_toFloat`).
-/

set_option autoImplicit false

namespace Tonegraph.Binary

open Float.Model (UnpackedFloat)
open Float.Model.UnpackedFloat (unpackExponent unpackMantissa unpackSign packComponents Sign)

/-! ## Words put together from their parts -/

/-- A value that there is a word of 64 bits for. -/
def HasWord : Binary → Prop
  | .finite _ mantissa exponent => Decimal.Fits .binary64 mantissa exponent ∧ exponent ≤ 971
  | _ => True

theorem hasWord_ofWord (word : Nat) : HasWord (ofWord .binary64 word) := by
  cases number : ofWord .binary64 word with
  | nan => trivial
  | infinite negative => trivial
  | finite negative m e =>
      refine ⟨fits_of_ofWord_eq number, ?_⟩
      have least : Format.binary64.leastExponent = -1074 := rfl
      have room : Format.binary64.field word < 2 ^ 11 := Nat.mod_lt _ (by decide)
      rw [ofWord_eq] at number
      split at number
      · split at number <;> cases number
      · next notTop =>
          have notTop : Format.binary64.field word ≠ 2 ^ 11 - 1 := notTop
          split at number
          · cases number
            omega
          · cases number
            omega

/-- A mantissa with its sign. -/
def signed (negative : Bool) (mantissa : Nat) : Int := if negative then -mantissa else mantissa

theorem abs_signed (negative : Bool) (m : Nat) : |(signed negative m : ℚ)| = m := by
  cases negative <;> simp [signed]

/-- Moving a mantissa up and its exponent down is the same number. -/
theorem signed_mul_twoTo (negative : Bool) (m room : Nat) (e : Int) :
    (signed negative (m * twoTo room) : ℚ) * 2 ^ (e - room) = signed negative m * 2 ^ e := by
  have power : (2 : ℚ) ^ e = twoTo room * 2 ^ (e - room) := by
    have cast : (twoTo room : ℚ) = 2 ^ (room : Int) := by
      rw [zpow_natCast]
      exact_mod_cast rfl
    rw [cast, ← zpow_add₀ (by norm_num)]
    congr 1
    omega
  rw [power, ← mul_assoc]
  cases negative <;> simp [signed]

/-- The value of a finite number. -/
def value? : Binary → Option ℚ
  | .finite negative mantissa exponent => some (signed negative mantissa * 2 ^ exponent)
  | _ => none

theorem hasWord_zero (negative : Bool) : HasWord (.finite negative 0 (-1074)) :=
  ⟨⟨by decide, by decide, by decide⟩, by decide⟩

theorem value?_zero (negative : Bool) (e : Int) : (finite negative 0 e).value? = some 0 := by
  cases negative <;> simp [value?, signed]

/-- What a word put together from its parts stands for. -/
theorem ofWord_parts (negative : Bool) {field fraction : Nat} (fieldFits : field < 2 ^ 11)
    (fractionFits : fraction < 2 ^ 52) :
    ofWord .binary64 (Format.binary64.signBit negative + field * 2 ^ 52 + fraction) =
      if field = 2 ^ 11 - 1 then if fraction = 0 then .infinite negative else .nan
      else if field = 0 then .finite negative fraction (-1074)
      else .finite negative (2 ^ 52 + fraction) (-1074 + (field - 1 : Nat)) := by
  obtain ⟨sign, bit, place⟩ : ∃ sign, (sign % 2 == 1) = negative ∧
      Format.binary64.signBit negative = sign % 2 * 2 ^ 63 := by
    cases negative
    · exact ⟨0, rfl, rfl⟩
    · exact ⟨1, rfl, rfl⟩
  rw [place]
  generalize word_eq : sign % 2 * 2 ^ 63 + field * 2 ^ 52 + fraction = word
  have signs : Format.binary64.sign word = sign % 2 := by
    show word / 2 ^ 63 % 2 = _
    omega
  have fields : Format.binary64.field word = field := by
    show word / 2 ^ 52 % 2 ^ 11 = _
    omega
  have fractions : Format.binary64.fraction word = fraction := by
    show word % 2 ^ 52 = _
    omega
  rw [ofWord_eq, signs, bit, fields, fractions]
  rfl

/-- A mantissa moved up by no more places than it has free. -/
theorem mul_twoTo_lt {m room : Nat} (fits : m.log2 + room ≤ 52) : m * twoTo room < 2 ^ 53 := by
  calc m * 2 ^ room < 2 ^ (m.log2 + 1) * 2 ^ room :=
        Nat.mul_lt_mul_of_pos_right Nat.lt_log2_self (Nat.two_pow_pos _)
    _ = 2 ^ (m.log2 + 1 + room) := (Nat.pow_add _ _ _).symm
    _ ≤ 2 ^ 53 := Nat.pow_le_pow_right (by decide) (by omega)

/-- A mantissa moved up by all the places it has free. -/
theorem le_mul_twoTo {m room : Nat} (some : m ≠ 0) (full : m.log2 + room = 52) :
    2 ^ 52 ≤ m * twoTo room := by
  calc 2 ^ 52 = 2 ^ m.log2 * 2 ^ room := by rw [← full, Nat.pow_add]
    _ ≤ m * 2 ^ room := Nat.mul_le_mul_right _ (Nat.log2_self_le some)

/-- The word of a number is read as the number, with its mantissa moved up. -/
theorem ofWord_toWord (negative : Bool) {m : Nat} {e : Int} (small : m < 2 ^ 53)
    (least : -1074 ≤ e) (most : e ≤ 971) :
    (ofWord .binary64 (toWord .binary64 (.finite negative m e))).value? =
      some ((signed negative m : ℚ) * 2 ^ e) := by
  rw [toWord]
  split
  · next zero =>
      subst zero
      have word := ofWord_parts negative (show 0 < 2 ^ 11 by decide) (show 0 < 2 ^ 52 by decide)
      rw [zero_mul, add_zero, add_zero] at word
      rw [word]
      exact (value?_zero negative _).trans (value?_zero negative e).symm
  · next some =>
      have log_le : m.log2 ≤ 52 := Nat.le_of_lt_succ ((Nat.log2_lt some).mpr small)
      let room : Nat := min (52 - m.log2) (e + 1074).toNat
      let up := m * twoTo room
      have up_lt : up < 2 ^ 53 := mul_twoTo_lt (by omega)
      have le_up (full : room = 52 - m.log2) : 2 ^ 52 ≤ up := le_mul_twoTo some (by omega)
      rw [← signed_mul_twoTo negative m room e]
      obtain below | above := Nat.lt_or_ge up (2 ^ 52)
      · have least : e - room = -1074 := by omega
        have none : (e + 1074).toNat - room = 0 := by omega
        have word := ofWord_parts negative (show 0 < 2 ^ 11 by decide) below
        rw [if_neg (by decide), if_pos rfl, ← none, ← least] at word
        exact congrArg value? word
      · have fields : (e + 1074).toNat - room + 1 < 2 ^ 11 - 1 := by omega
        have exponent : -1074 + ((e + 1074).toNat - room + 1 - 1 : Nat) = e - room := by omega
        have word := ofWord_parts negative (fields.trans (by decide))
          (show up - 2 ^ 52 < 2 ^ 52 by omega)
        rw [if_neg fields.ne, if_neg (Nat.succ_ne_zero _), exponent,
          Nat.add_sub_cancel' above] at word
        have sum : Format.binary64.signBit negative + ((e + 1074).toNat - room + 1) * 2 ^ 52 +
            (up - 2 ^ 52) =
            Format.binary64.signBit negative + ((e + 1074).toNat - room) * 2 ^ 52 + up := by
          omega
        rw [sum] at word
        exact congrArg value? word

/-! ## Unpacked numbers -/

/-- What an unpacked number stands for. -/
def ofUnpacked : UnpackedFloat → Binary
  | .notANumber => .nan
  | .infinity sign => .infinite (sign == .negative)
  | .zero sign => .finite (sign == .negative) 0 Format.binary64.leastExponent
  | .finite sign mantissa exponent _ => .finite (sign == .negative) mantissa exponent

theorem ofUnpacked_infinity (sign : Sign) :
    ofUnpacked (.infinity sign) = .infinite (sign == .negative) := rfl

theorem ofUnpacked_zero (sign : Sign) :
    ofUnpacked (.zero sign) = .finite (sign == .negative) 0 Format.binary64.leastExponent := rfl

theorem ofUnpacked_finite (sign : Sign) {m : Nat} (e : Int) (positive : 0 < m) :
    ofUnpacked (.finite sign m e positive) = .finite (sign == .negative) m e := rfl

theorem sign_ofBitVec (bit : BitVec 1) : (Sign.ofBitVec bit == .negative) = (bit.toNat == 1) := by
  revert bit
  decide

/-- A word stands for what it is unpacked to. -/
theorem ofUnpacked_unpack (word : BitVec 64) :
    ofUnpacked (.unpack .binary64 word) = ofWord .binary64 word.toNat := by
  have sign := sign_ofBitVec (@unpackSign .binary64 word)
  rw [unpackSign_toNat] at sign
  have top : @unpackExponent .binary64 word = -1#_ ↔
      Format.binary64.field word.toNat = twoTo Format.binary64.exponentBits - 1 := by
    rw [← BitVec.toNat_inj, unpackExponent_toNat]
    exact Iff.rfl
  have bottom : @unpackExponent .binary64 word = 0#_ ↔ Format.binary64.field word.toNat = 0 := by
    rw [← BitVec.toNat_inj, unpackExponent_toNat]
    exact Iff.rfl
  have empty : @unpackMantissa .binary64 word = 0#_ ↔ Format.binary64.fraction word.toNat = 0 := by
    rw [← BitVec.toNat_inj, unpackMantissa_toNat]
    exact Iff.rfl
  rw [ofWord_eq]
  unfold UnpackedFloat.unpack
  dsimp only
  by_cases isTop : @unpackExponent .binary64 word = -1#_
  · rw [if_pos isTop, if_pos (top.mp isTop)]
    by_cases isEmpty : @unpackMantissa .binary64 word = 0#_
    · rw [if_pos isEmpty, if_pos (empty.mp isEmpty), ofUnpacked_infinity, sign]
    · rw [if_neg isEmpty, if_neg (mt empty.mpr isEmpty)]
      rfl
  · rw [if_neg isTop, if_neg (mt top.mpr isTop)]
    by_cases isBottom : @unpackExponent .binary64 word = 0#_
    · rw [if_pos isBottom, if_pos (bottom.mp isBottom)]
      by_cases isEmpty : @unpackMantissa .binary64 word = 0#_
      · rw [dif_pos isEmpty, ofUnpacked_zero, sign, empty.mp isEmpty]
      · rw [dif_neg isEmpty, ofUnpacked_finite, sign, unpackMantissa_toNat, isBottom]
        rfl
    · have field := mt bottom.mpr isBottom
      have leading : (1#1 ++ @unpackMantissa .binary64 word).toNat =
          Format.binary64.leastNormal + Format.binary64.fraction word.toNat := by
        rw [← unpackMantissa_toNat, BitVec.toNat_append,
          ← Nat.shiftLeft_add_eq_or_of_lt (BitVec.isLt _)]
        rfl
      have exponent : (Format.binary64.field word.toNat : Int) - (1023 + 52 : Nat) =
          Format.binary64.leastExponent + (Format.binary64.field word.toNat - 1 : Nat) := by
        have least : Format.binary64.leastExponent = -1074 := rfl
        omega
      rw [if_neg isBottom, if_neg field, ofUnpacked_finite, sign, unpackExponent_toNat, leading,
        ← exponent]
      rfl

/-- The arithmetic puts a word together from the same parts. -/
theorem toNat_packComponents (sign : Sign) (exponent : BitVec 11) (mantissa : BitVec 52) :
    (packComponents .binary64 sign exponent mantissa).toNat =
      Format.binary64.signBit (sign == .negative) + exponent.toNat * 2 ^ 52 + mantissa.toNat := by
  have bit : Format.binary64.signBit (sign == .negative) = sign.toBitVec.toNat * 2 ^ 63 := by
    cases sign <;> rfl
  have upper : (sign.toBitVec ++ exponent).toNat =
      sign.toBitVec.toNat * 2 ^ 11 + exponent.toNat := by
    rw [BitVec.toNat_append, ← Nat.shiftLeft_add_eq_or_of_lt exponent.isLt, Nat.shiftLeft_eq]
  show (sign.toBitVec ++ exponent ++ mantissa).toNat = _
  rw [BitVec.toNat_append, ← Nat.shiftLeft_add_eq_or_of_lt mantissa.isLt, Nat.shiftLeft_eq, upper,
    bit]
  omega

/-- The word of a finite number. -/
theorem pack_finite {sign : Sign} {m : Nat} {e : Int} (positive : 0 < m)
    (fits : Decimal.Fits .binary64 m e) (most : e ≤ 971) :
    (UnpackedFloat.finite sign m e positive).pack .binary64 =
      packComponents .binary64 sign
        (BitVec.ofNat 11 (if 2 ^ 52 ≤ m then (e + 1075).toNat else 0)) (BitVec.ofNat 52 m) := by
  have small : m < 2 ^ 53 := fits.small
  have least : -1074 ≤ e := fits.least
  have room : ¬2 ^ 11 ≤ (e + (1023 : Nat) + (52 : Nat)).toNat + 1 := by omega
  have biased : (e + (1023 : Nat) + (52 : Nat)).toNat = (e + 1075).toNat := by omega
  have leading : m.log2 + 1 = 53 ↔ 2 ^ 52 ≤ m := by
    have above := Nat.le_log2 (k := 52) positive.ne'
    have below := (Nat.log2_lt positive.ne').mpr small
    omega
  show (if 2 ^ 11 ≤ (e + (1023 : Nat) + (52 : Nat)).toNat + 1 then _
    else if m.log2 + 1 = 53 then
      packComponents .binary64 sign (BitVec.ofNat 11 (e + (1023 : Nat) + (52 : Nat)).toNat)
        (BitVec.ofNat 52 m)
    else packComponents .binary64 sign (BitVec.ofNat 11 0) (BitVec.ofNat 52 m)) = _
  rw [if_neg room, biased]
  simp only [leading]
  split <;> rfl

/-- What is packed into a word is what the word stands for. -/
theorem ofWord_pack {u : UnpackedFloat} (hasWord : HasWord (ofUnpacked u)) :
    ofWord .binary64 (u.pack .binary64).toNat = ofUnpacked u := by
  cases u with
  | notANumber => rfl
  | infinity sign => cases sign <;> rfl
  | zero sign => cases sign <;> rfl
  | finite sign m e positive =>
      obtain ⟨fits, most⟩ := hasWord
      have small : m < 2 ^ 53 := fits.small
      have least : -1074 ≤ e := fits.least
      have normal : -1074 < e → 2 ^ 52 ≤ m := fits.normal
      rw [pack_finite positive fits most, toNat_packComponents, ofWord_parts _ (BitVec.isLt _)
        (BitVec.isLt _), BitVec.toNat_ofNat, BitVec.toNat_ofNat, ofUnpacked_finite]
      split
      · rw [if_neg (by omega), if_neg (by omega)]
        congr 1 <;> omega
      · rw [if_neg (by omega), if_pos rfl]
        congr 1 <;> omega

/-! ## The values of floating-point numbers -/

theorem ofFloat_eq (x : Float) : ofFloat x = ofUnpacked x.toModel.unpack :=
  (ofUnpacked_unpack x.toModel.toBits.toBitVec).symm

theorem ofFloat_pack {u : UnpackedFloat} (hasWord : HasWord (ofUnpacked u)) :
    ofFloat (.ofModel (.pack u)) = ofUnpacked u :=
  ofWord_pack hasWord

/-- Only the 64 bits of a word are read. -/
theorem ofWord_mod (word : Nat) : ofWord .binary64 (word % 2 ^ 64) = ofWord .binary64 word := by
  have sign : Format.binary64.sign (word % 2 ^ 64) = Format.binary64.sign word := by
    show word % 2 ^ 64 / 2 ^ 63 % 2 = word / 2 ^ 63 % 2
    omega
  have field : Format.binary64.field (word % 2 ^ 64) = Format.binary64.field word := by
    show word % 2 ^ 64 / 2 ^ 52 % 2 ^ 11 = word / 2 ^ 52 % 2 ^ 11
    omega
  have fraction : Format.binary64.fraction (word % 2 ^ 64) = Format.binary64.fraction word := by
    show word % 2 ^ 64 % 2 ^ 52 = word % 2 ^ 52
    omega
  rw [ofWord_eq, sign, field, fraction, ← ofWord_eq]

theorem ofFloat_ofBits (word : UInt64) :
    ofFloat (Float.ofBits word) = ofWord .binary64 word.toNat := by
  have same := ofUnpacked_unpack word.toBitVec
  have hasWord := hasWord_ofWord word.toNat
  rw [← UInt64.toNat_toBitVec, ← same] at hasWord
  exact (ofFloat_pack hasWord).trans same

/-- The value of a finite number of 64 bits. -/
def floatValue? (x : Float) : Option ℚ := (ofFloat x).value?

/-- Numbers with few enough binary digits are values of floating-point numbers. -/
theorem floatValue?_toFloat (negative : Bool) {m : Nat} {e : Int} (small : m < 2 ^ 53)
    (least : -1074 ≤ e) (most : e ≤ 971) :
    floatValue? (toFloat (.finite negative m e)) = some ((signed negative m : ℚ) * 2 ^ e) := by
  rw [floatValue?, toFloat, ofFloat_ofBits, UInt64.toNat_ofNat', ofWord_mod]
  exact ofWord_toWord negative small least most

end Tonegraph.Binary
