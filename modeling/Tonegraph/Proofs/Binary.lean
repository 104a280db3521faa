import Mathlib.Tactic.Linarith
import Tonegraph.Proofs.Decimal.Shortest
/-!
# Words and the numbers they stand for

A word that is some number is told by what it stands for (`Binary.ofWord_injective`). Of the words
that are no number, floating-point numbers of 64 bits have one only, so a floating-point number is
told by its exact value (`Binary.ofFloat_injective`).
-/

set_option autoImplicit false

namespace Tonegraph.Binary

/-! ## The parts of a word -/

namespace Format

variable (f : Format) (word : Nat)

/-- The sign bit of a word. -/
def sign : Nat := word / twoTo (f.exponentBits + f.fractionBits) % 2

/-- The exponent field of a word. -/
def field : Nat := word / twoTo f.fractionBits % twoTo f.exponentBits

/-- The fraction of a word. -/
def fraction : Nat := word % twoTo f.fractionBits

/-- How many words there are. -/
def words : Nat := 2 * twoTo (f.exponentBits + f.fractionBits)

variable {f word}

theorem word_eq (isWord : word < f.words) :
    word = (f.sign word * twoTo f.exponentBits + f.field word) * twoTo f.fractionBits +
      f.fraction word := by
  have sign : f.sign word = word / twoTo f.fractionBits / twoTo f.exponentBits := by
    have split : twoTo (f.exponentBits + f.fractionBits) =
        twoTo f.fractionBits * twoTo f.exponentBits := by
      rw [Nat.mul_comm]
      exact Nat.pow_add 2 _ _
    rw [Format.sign, Nat.mod_eq_of_lt, split, Nat.div_div_eq_div_mul]
    exact Nat.div_lt_of_lt_mul (by rwa [Nat.mul_comm])
  rw [sign, field, fraction, Nat.div_add_mod', Nat.div_add_mod']

theorem fraction_lt (word : Nat) : f.fraction word < f.leastNormal :=
  Nat.mod_lt _ (Decimal.twoTo_pos _)

end Format

variable {f : Format} {word other : Nat}

theorem ofWord_eq (f : Format) (word : Nat) :
    ofWord f word =
      if f.field word = twoTo f.exponentBits - 1 then
        if f.fraction word = 0 then .infinite (f.sign word == 1) else .nan
      else if f.field word = 0 then
        .finite (f.sign word == 1) (f.fraction word) f.leastExponent
      else
        .finite (f.sign word == 1) (f.leastNormal + f.fraction word)
          (f.leastExponent + (f.field word - 1 : Nat)) := rfl

/-- What a word stands for fits the layout. -/
theorem fits_of_ofWord_eq {negative : Bool} {m : Nat} {e : Int}
    (same : ofWord f word = .finite negative m e) : Decimal.Fits f m e := by
  have small := Format.fraction_lt (f := f) word
  rw [ofWord_eq] at same
  split at same
  · split at same <;> cases same
  · split at same
    · cases same
      exact ⟨by omega, le_rfl, fun above => absurd above (lt_irrefl _)⟩
    · cases same
      exact ⟨by omega, by omega, fun _ => Nat.le_add_right _ _⟩

/-- A word that is some number is told by what it stands for. -/
theorem ofWord_injective (isWord : word < f.words) (isWord' : other < f.words)
    (same : ofWord f word = ofWord f other) (number : ofWord f word ≠ .nan) : word = other := by
  suffices parts : f.sign word = f.sign other ∧ f.field word = f.field other ∧
      f.fraction word = f.fraction other by
    rw [Format.word_eq isWord, Format.word_eq isWord', parts.1, parts.2.1, parts.2.2]
  have small := Format.fraction_lt (f := f) word
  have small' := Format.fraction_lt (f := f) other
  have sign_eq (word : Nat) : f.sign word = if f.sign word == 1 then 1 else 0 := by
    rcases Nat.mod_two_eq_zero_or_one (word / twoTo (f.exponentBits + f.fractionBits)) with bit | bit
    · rw [Format.sign, bit]; rfl
    · rw [Format.sign, bit]; rfl
  rw [sign_eq word, sign_eq other]
  rw [ofWord_eq] at number
  rw [ofWord_eq, ofWord_eq] at same
  grind

/-- A word that is no number has an exponent field of ones and some fraction. -/
theorem field_of_nan (isNan : ofWord f word = .nan) :
    f.field word = twoTo f.exponentBits - 1 ∧ f.fraction word ≠ 0 := by
  rw [ofWord_eq] at isNan
  split at isNan
  · next top =>
      split at isNan
      · cases isNan
      · next some => exact ⟨top, some⟩
  · split at isNan <;> cases isNan

/-! ## Numbers of 64 bits -/

section

open Float.Model.UnpackedFloat (unpackExponent unpackMantissa unpackSign)

variable (word : BitVec 64)

theorem unpackExponent_toNat :
    (@unpackExponent .binary64 word).toNat = Format.binary64.field word.toNat := by
  simp [unpackExponent, Nat.shiftRight_eq_div_pow]
  rfl

theorem unpackMantissa_toNat :
    (@unpackMantissa .binary64 word).toNat = Format.binary64.fraction word.toNat := by
  simp [unpackMantissa]
  rfl

theorem unpackSign_toNat :
    (@unpackSign .binary64 word).toNat = Format.binary64.sign word.toNat := by
  show (word.extractLsb 63 63).toNat = _
  rw [BitVec.extractLsb_toNat, Nat.shiftRight_eq_div_pow]
  rfl

end

/-- The only word of a floating-point number that is no number. -/
theorem toBits_of_nan {x : Float} (isNan : ofFloat x = .nan) :
    x.toBits.toBitVec = Float.Model.UnpackedFloat.packedNaN Float.Model.Format.binary64 := by
  obtain ⟨field, fraction⟩ := field_of_nan isNan
  apply x.toModel.valid.eq_packedNaN
  · exact BitVec.eq_of_toNat_eq ((unpackExponent_toNat _).trans field)
  · intro zero
    exact fraction ((unpackMantissa_toNat _).symm.trans (congrArg BitVec.toNat zero))

/-- A floating-point number is told by its exact value. -/
theorem ofFloat_injective : Function.Injective ofFloat := by
  intro x y same
  have bits : x.toBits = y.toBits := by
    by_cases isNan : ofFloat x = .nan
    · apply UInt64.toBitVec_inj.mp
      rw [toBits_of_nan isNan, toBits_of_nan (same ▸ isNan)]
    · apply UInt64.toNat_inj.mp
      exact ofWord_injective (f := .binary64) x.toBits.toNat_lt y.toBits.toNat_lt same isNan
  cases x with
  | ofModel x =>
      cases y with
      | ofModel y =>
          cases x
          cases y
          cases bits
          rfl

end Tonegraph.Binary
