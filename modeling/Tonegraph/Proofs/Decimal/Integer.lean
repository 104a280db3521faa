import Tonegraph.Decimal.Integer
import Tonegraph.Proofs.Decimal.Digits
import Tonegraph.Proofs.Traversal
/-!
# Which texts are integers within bounds

A text spells an integer when it is a run of digits, with or without a sign in front. Reading stops
at the first digit that makes the number too large; as more digits never make it smaller, what is
read is the number that is spelled, and it is read just when it lies within the bounds
(`readInteger_eq_ok_iff`). Every integer is spelled by its decimal text (`spells_toString`).
-/

set_option autoImplicit false

namespace Tonegraph.Decimal

/-- A text is a run of digits, with or without a sign, that stands for an integer. -/
inductive Spells : List Char → Int → Prop
  | bare {digits : List Char} (nonempty : digits ≠ []) (all : AllDigits digits) :
      Spells digits (ofDigits digits)
  | plus {digits : List Char} (nonempty : digits ≠ []) (all : AllDigits digits) :
      Spells ('+' :: digits) (ofDigits digits)
  | minus {digits : List Char} (nonempty : digits ≠ []) (all : AllDigits digits) :
      Spells ('-' :: digits) (-ofDigits digits)

/-! ## Digits -/

/-- The number that digits make behind those of another number. -/
def digitsBehind (value : Nat) (digits : List Char) : Nat :=
  digits.foldl (fun value c => 10 * value + (c.toNat - '0'.toNat)) value

theorem le_digitsBehind (value : Nat) (digits : List Char) : value ≤ digitsBehind value digits := by
  induction digits generalizing value with
  | nil => exact le_rfl
  | cons c rest ih => exact le_trans (by omega) (ih (10 * value + (c.toNat - '0'.toNat)))

theorem readDigits_eq_ok_iff {bound value n : Nat} {beyond : IntegerFault} {digits : List Char}
    (small : value ≤ bound) :
    readDigits bound beyond value digits = .ok n ↔
      AllDigits digits ∧ digitsBehind value digits = n ∧ n ≤ bound := by
  induction digits generalizing value with
  | nil =>
      have none : AllDigits [] := by simp [AllDigits]
      have found : readDigits bound beyond value [] = .ok value := rfl
      rw [found, Except.ok.injEq]
      constructor
      · rintro rfl
        exact ⟨none, rfl, small⟩
      · rintro ⟨-, value_eq, -⟩
        exact value_eq
  | cons c rest ih =>
      have all_cons : AllDigits (c :: rest) ↔ c.isDigit = true ∧ AllDigits rest :=
        List.forall_mem_cons
      have longer : digitsBehind value (c :: rest) =
          digitsBehind (10 * value + (c.toNat - '0'.toNat)) rest := rfl
      rw [readDigits, all_cons, longer]
      split
      · rename_i digit
        dsimp only
        split
        · rename_i fits
          rw [ih fits]
          tauto
        · rename_i large
          have least := le_digitsBehind (10 * value + (c.toNat - '0'.toNat)) rest
          refine iff_of_false (fun read => by cases read) ?_
          rintro ⟨-, rfl, within⟩
          omega
      · rename_i other
        exact iff_of_false (fun read => by cases read) fun read => other read.1.1

theorem readDigits_zero_eq_ok_iff {bound n : Nat} {beyond : IntegerFault} {digits : List Char} :
    readDigits bound beyond 0 digits = .ok n ↔
      AllDigits digits ∧ ofDigits digits = n ∧ n ≤ bound :=
  readDigits_eq_ok_iff (Nat.zero_le bound)

/-! ## Integers -/

section

variable {digits : List Char} {n : Int}

theorem spells_minus_iff :
    Spells ('-' :: digits) n ↔ digits ≠ [] ∧ AllDigits digits ∧ n = -ofDigits digits := by
  constructor
  · intro spells
    cases spells with
    | bare _ all => exact absurd (all '-' List.mem_cons_self) (by decide)
    | minus nonempty all => exact ⟨nonempty, all, rfl⟩
  · rintro ⟨nonempty, all, rfl⟩
    exact .minus nonempty all

theorem spells_plus_iff :
    Spells ('+' :: digits) n ↔ digits ≠ [] ∧ AllDigits digits ∧ n = ofDigits digits := by
  constructor
  · intro spells
    cases spells with
    | bare _ all => exact absurd (all '+' List.mem_cons_self) (by decide)
    | plus nonempty all => exact ⟨nonempty, all, rfl⟩
  · rintro ⟨nonempty, all, rfl⟩
    exact .plus nonempty all

theorem spells_bare_iff (noMinus : ∀ rest, digits ≠ '-' :: rest)
    (noPlus : ∀ rest, digits ≠ '+' :: rest) :
    Spells digits n ↔ digits ≠ [] ∧ AllDigits digits ∧ n = ofDigits digits := by
  constructor
  · intro spells
    cases spells with
    | bare nonempty all => exact ⟨nonempty, all, rfl⟩
    | plus => exact absurd rfl (noPlus _)
    | minus => exact absurd rfl (noMinus _)
  · rintro ⟨nonempty, all, rfl⟩
    exact .bare nonempty all

end

/-- With a sign or without one, what is made of the digits is read when the bound on the digits is
what the bounds on the integer come to. -/
theorem made_eq_ok_iff {bound : Nat} {beyond : IntegerFault} {text digits : List Char}
    {low high n : Int} (make : Nat → Int) (nonempty : digits ≠ [])
    (spells : Spells text n ↔ digits ≠ [] ∧ AllDigits digits ∧ n = make (ofDigits digits))
    (bounds : ∀ m : Nat, m ≤ bound ↔ low ≤ make m ∧ make m ≤ high) :
    (do return make (← readDigits bound beyond 0 digits)) = Except.ok n ↔
      Spells text n ∧ low ≤ n ∧ n ≤ high := by
  simp only [bind_eq_ok_iff, readDigits_zero_eq_ok_iff, spells]
  constructor
  · rintro ⟨m, ⟨all, rfl, fits⟩, ⟨⟩⟩
    exact ⟨⟨nonempty, all, rfl⟩, (bounds _).mp fits⟩
  · rintro ⟨⟨-, all, rfl⟩, within⟩
    exact ⟨_, ⟨all, rfl, (bounds _).mpr within⟩, rfl⟩

/-- An integer is read just when the text spells it and it lies within the bounds. -/
theorem readInteger_eq_ok_iff {low high n : Int} (low_le : low ≤ 0) (le_high : 0 ≤ high)
    {text : List Char} :
    readInteger low high text = .ok n ↔ Spells text n ∧ low ≤ n ∧ n ≤ high := by
  unfold readInteger
  split
  · simp [spells_bare_iff]
  · simp [spells_minus_iff]
  · simp [spells_plus_iff]
  · rename_i digits more
    have nonempty : digits ≠ [] := fun none => more (by rw [none])
    exact made_eq_ok_iff (fun m => -(m : Int)) nonempty spells_minus_iff
      fun m => by omega
  · rename_i digits more
    have nonempty : digits ≠ [] := fun none => more (by rw [none])
    exact made_eq_ok_iff (fun m => (m : Int)) nonempty spells_plus_iff
      fun m => by omega
  · rename_i nonempty _ _ noMinus noPlus
    exact made_eq_ok_iff (fun m => (m : Int)) nonempty (spells_bare_iff noMinus noPlus)
      fun m => by omega

/-! ## Decimal texts -/

theorem toDigits_spelled (n : Nat) :
    Nat.toDigits 10 n ≠ [] ∧ AllDigits (Nat.toDigits 10 n) ∧ ofDigits (Nat.toDigits 10 n) = n :=
  ⟨List.ne_nil_of_length_pos Nat.length_toDigits_pos,
    fun _ member => Nat.isDigit_of_mem_toDigits (by decide) (by decide) member,
    Nat.ofDigitChars_ten_toDigits⟩

/-- Every integer is spelled by its decimal text. -/
theorem spells_toString (n : Int) : Spells (toString n).toList n := by
  cases n with
  | ofNat m =>
      have text : (toString (Int.ofNat m)).toList = Nat.toDigits 10 m := String.toList_ofList
      obtain ⟨nonempty, all, value⟩ := toDigits_spelled m
      have spells := Spells.bare nonempty all
      rw [value] at spells
      rw [text]
      exact spells
  | negSucc m =>
      have text : (toString (Int.negSucc m)).toList = '-' :: Nat.toDigits 10 (m + 1) := by
        show ("-" ++ String.ofList (Nat.toDigits 10 (m + 1))).toList = _
        rw [String.toList_append, String.toList_ofList, String.toList_ofList]
        rfl
      obtain ⟨nonempty, all, value⟩ := toDigits_spelled (m + 1)
      have spells := Spells.minus nonempty all
      rw [value] at spells
      rw [text]
      exact spells

end Tonegraph.Decimal
