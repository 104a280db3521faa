import Mathlib.Algebra.Order.Field.Rat
import Mathlib.Tactic.FieldSimp
import Tonegraph.Proofs.Decimal.Digits
/-!
# Digits in their places are read back

`Decimal.positional` writes a number with every digit in its place. The text is a sign or none and
a run of digits with at most one point, a digit on both sides of it. Reading the digits gives back
the value, though not always the same digits and the same power of ten (`unsigned?_layout`), so the
layout tells the value (`value_eq_of_layout_eq`).
-/

set_option autoImplicit false

namespace Tonegraph.Decimal

/-! ## The layout -/

/-- The size of a decimal number. -/
def value (d : Decimal) : ℚ := d.digits * 10 ^ d.exponent

/-- How many digits stand behind the point. -/
def places (d : Decimal) : Nat := (-d.exponent).toNat

/-- The number in units of its last place. -/
def units (d : Decimal) : Nat := d.digits * tenTo d.exponent.toNat

/-- All digits that are written, at least one in front of the point. -/
def written (d : Decimal) : List Char := paddedDigits (d.places + 1) d.units

/-- The digits in front of the point. -/
def front (d : Decimal) : List Char := d.written.take (d.written.length - d.places)

/-- The digits behind the point. -/
def back (d : Decimal) : List Char := d.written.drop (d.written.length - d.places)

/-- The digits in their places, with the point if there is one. -/
def layout (d : Decimal) : List Char := d.front ++ if d.places = 0 then [] else '.' :: d.back

variable (d : Decimal)

theorem positional_toList : d.positional.toList = signText d.negative ++ d.layout := by
  rw [positional, String.toList_ofList, List.append_assoc]
  rfl

theorem front_append_back : d.front ++ d.back = d.written := List.take_append_drop _ _

theorem length_back : d.back.length = d.places := by
  have room : d.places + 1 ≤ d.written.length := le_length_paddedDigits _ _
  rw [back, List.length_drop]
  omega

theorem front_ne_nil : d.front ≠ [] := by
  have room : d.places + 1 ≤ d.written.length := le_length_paddedDigits _ _
  apply List.ne_nil_of_length_pos
  rw [front, List.length_take]
  omega

theorem front_allDigits : AllDigits d.front := by
  intro c member
  exact paddedDigits_allDigits _ _ c (List.mem_of_mem_take member)

theorem back_allDigits : AllDigits d.back := by
  intro c member
  exact paddedDigits_allDigits _ _ c (List.mem_of_mem_drop member)

/-! ## Reading back -/

/-- The number that the layout is read as, in units of its last place. -/
def inUnits (d : Decimal) : Decimal := ⟨d.negative, d.units, -(d.places : Int)⟩

theorem value_inUnits : d.inUnits.value = d.value := by
  show (d.units : ℚ) * 10 ^ (-(d.places : Int)) = d.digits * 10 ^ d.exponent
  have whole : (d.units : ℚ) = d.digits * 10 ^ (d.exponent.toNat : Int) := by
    rw [zpow_natCast]
    exact_mod_cast rfl
  have exponent : d.exponent = (d.exponent.toNat : Int) + -(d.places : Int) := by
    unfold places
    omega
  rw [whole, mul_assoc, ← zpow_add₀ (by decide), ← exponent]

theorem unsigned?_layout (negative : Bool) :
    unsigned? negative d.layout = some { d.inUnits with negative } := by
  have some : d.front.isEmpty = false := by simp [d.front_ne_nil]
  have digits : ofDigits (d.front ++ d.back) = d.units := by
    rw [front_append_back]
    exact ofDigits_paddedDigits _ _
  cases point : d.places with
  | zero =>
      have noBack : d.back = [] := List.eq_nil_of_length_eq_zero (d.length_back.trans point)
      have spanned : spanDigits d.layout = (d.front, []) := by
        rw [layout, point]
        exact spanDigits_append d.front_allDigits (by rintro c ⟨⟩)
      rw [noBack, List.append_nil] at digits
      simp [unsigned?, spanned, spanFraction, some, exponentOf?, inUnits, digits, point]
  | succ n =>
      have spanned : spanDigits d.layout = (d.front, '.' :: d.back) := by
        rw [layout, if_neg (by omega)]
        exact spanDigits_append d.front_allDigits (by rintro c ⟨⟩; rfl)
      have fraction : spanDigits d.back = (d.back, []) := by
        rw [← List.append_nil d.back, spanDigits_append d.back_allDigits (by rintro c ⟨⟩),
          List.append_nil]
      simp [unsigned?, spanned, spanFraction, fraction, some, exponentOf?, inUnits, digits,
        d.length_back]

/-- A layout starts with a digit. -/
theorem head?_layout : ∃ c ∈ d.layout.head?, c.isDigit = true := by
  cases front : d.front with
  | nil => exact absurd front d.front_ne_nil
  | cons c rest =>
      have digit := d.front_allDigits c (by rw [front]; exact List.mem_cons_self)
      exact ⟨c, by rw [layout, front]; rfl, digit⟩

/-- A layout ends with a digit. -/
theorem getLast?_layout : ∃ c ∈ d.layout.getLast?, c.isDigit = true := by
  have last {digits : List Char} (some : digits ≠ []) (all : AllDigits digits) :
      ∃ c ∈ digits.getLast?, c.isDigit = true :=
    ⟨_, List.getLast?_eq_some_getLast some, all _ (List.getLast_mem some)⟩
  rw [layout]
  by_cases point : d.places = 0
  · rw [if_pos point, List.append_nil]
    exact last d.front_ne_nil d.front_allDigits
  · have some : d.back ≠ [] := by
      apply List.ne_nil_of_length_pos
      rw [length_back]
      omega
    obtain ⟨c, ends, digit⟩ := last some d.back_allDigits
    rw [if_neg point]
    have behind : c ∈ (['.'] ++ d.back).getLast? := List.mem_getLast?_append_of_mem_getLast? ends
    exact ⟨c, List.mem_getLast?_append_of_mem_getLast? behind, digit⟩

/-- A layout holds digits and at most a point. -/
theorem mem_layout {c : Char} (member : c ∈ d.layout) : c.isDigit = true ∨ c = '.' := by
  rw [layout] at member
  cases List.mem_append.mp member with
  | inl front => exact .inl (d.front_allDigits c front)
  | inr rest =>
      split at rest
      · cases rest
      · cases rest with
        | head => exact .inr rfl
        | tail _ back => exact .inl (d.back_allDigits c back)

/-- Numbers that are laid out alike have the same size. -/
theorem value_eq_of_layout_eq {d other : Decimal} (same : d.layout = other.layout) :
    d.value = other.value := by
  have read := d.unsigned?_layout false
  rw [same, unsigned?_layout] at read
  have units := congrArg value (Option.some.inj read)
  calc d.value = d.inUnits.value := d.value_inUnits.symm
    _ = other.inUnits.value := units.symm
    _ = other.value := other.value_inUnits

end Tonegraph.Decimal
