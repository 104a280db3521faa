import Tonegraph.Arithmetic.FloatingPoint
import Tonegraph.Formula.Value
import Tonegraph.Proofs.Binary
import Tonegraph.Proofs.Display.Legible
import Tonegraph.Proofs.Formula.Completeness
import Tonegraph.Proofs.Formula.Names
/-!
# Displays of playable formulas

Formulas that are read from texts and can be played are plain (`plain_of_parsePlayable`), and the text
of a floating-point number tells the number, so legible formulas are told by their displays
(`parsePlayable_eq_of_latex_eq`).

Not every formula that is read is legible. The right operand of a sum or a product, the base of a
power and the operand of a sign show no parentheses when they are made of what their place splits
up, nor does a number beside a number, and then the display is that of another formula, as with the
right operand of a sum (`latex_sum_sum`). The values differ too: `1-(2-3)` shows `1 - 2 - 3`
(`parsePlayable_latex_ambiguous`).
-/

set_option autoImplicit false

namespace Tonegraph

/-! ## Formulas that are read are plain -/

namespace Formula

variable {R : Type} [Neg R]

omit [Neg R] in
theorem isNumber_eq_false {x : Formula R} (other : ∀ value, x ≠ .number value) :
    x.isNumber = false := by
  cases x with
  | number value => exact absurd rfl (other value)
  | _ => rfl

/-- A formula with a derivation is plain when its only name is the time. -/
theorem plain_of_derives {symbol : Symbol} {ts : List (Token R)} {x : Formula R} {n : Nat}
    (derives : Derives symbol ts x n) (timely : ∀ name ∈ x.names, name = timeName) : x.Plain := by
  have both {op : BinaryOp} {x y : Formula R} (ihX : (∀ name ∈ x.names, name = timeName) → x.Plain)
      (ihY : (∀ name ∈ y.names, name = timeName) → y.Plain)
      (timely : ∀ name ∈ (Formula.binary op x y).names, name = timeName) :
      (Formula.binary op x y).Plain :=
    ⟨ihX fun name member => timely name (mem_names_binary.mpr (.inl member)),
      ihY fun name member => timely name (mem_names_binary.mpr (.inr member))⟩
  induction derives with
  | ofTerm _ ih | ofProduct _ ih | ofSigned _ ih | ofPower _ ih | ofAtom _ ih => exact ih timely
  | parenthesized _ ih => exact ih timely
  | added _ _ _ ihX ihY | multiplied _ _ _ ihX ihY | beside _ _ _ ihX ihY => exact both ihX ihY timely
  | raised _ _ ihX ihY | logarithm _ _ ihX ihY => exact both ihX ihY timely
  | naturalLogarithm _ ih => exact both (fun _ => trivial) ih timely
  | negated other _ ih => exact ⟨fun _ => isNumber_eq_false other, ih timely⟩
  | number _ | negativeNumber _ _ => trivial
  | constant known => trivial
  | named free => exact timely _ (List.mem_singleton_self _)
  | absolute _ ih => exact ⟨nofun, ih timely⟩
  | applied known _ ih =>
      refine ⟨?_, ih timely⟩
      rintro rfl
      simp [functionNames] at known

/-- A formula that is read and has no other name than the time is plain. -/
theorem plain_of_parsePlayable [OfScientific R] {text : String} {x : Formula R}
    (read : parsePlayable text = .ok x) : x.Plain := by
  obtain ⟨parsed, timely⟩ := parsePlayable_eq_ok_iff.mp read
  obtain ⟨tokens, -, -, ofTokens⟩ := parse_eq_ok_iff_ofTokens.mp parsed
  obtain ⟨⟨n, -, derives⟩, -⟩ := ofTokens_eq_ok_iff.mp ofTokens
  apply plain_of_derives derives
  exact foreignName?_eq_none_iff.mp timely

end Formula

/-! ## Floating-point numbers are told by their texts -/

theorem Decimal.layout_figures (d : Decimal) : Latex.Figures d.layout :=
  ⟨d.head?_layout, d.getLast?_layout, fun _ => d.mem_layout⟩

namespace Binary

/-- How a number of 64 bits is written. -/
def spelling : Binary → Latex.Spelling
  | .nan => ⟨false, .undefined⟩
  | .infinite negative => ⟨negative, .infinite⟩
  | .finite negative mantissa exponent =>
    let d := Decimal.shortest .binary64 negative mantissa exponent
    ⟨negative, .figures d.layout d.layout_figures⟩

theorem shortText_toList (x : Binary) : x.shortText.toList =
    (if x.spelling.negative then ['-'] else []) ++ x.spelling.size.text := by
  match x with
  | .nan | .infinite true | .infinite false => rfl
  | .finite negative mantissa exponent =>
      have positional := (Decimal.shortest .binary64 negative mantissa exponent).positional_toList
      rw [Decimal.shortest_negative] at positional
      exact positional

/-- Floating-point numbers are written differently. -/
theorem spelling_injective : Function.Injective fun x : Float => (ofFloat x).spelling := by
  intro x y same
  apply ofFloat_injective
  dsimp only at same
  cases first : ofFloat x with
  | nan =>
      cases second : ofFloat y with
      | nan => rfl
      | _ => rw [first, second] at same; cases same
  | infinite negative =>
      cases second : ofFloat y with
      | infinite other => rw [first, second] at same; cases same; rfl
      | _ => rw [first, second] at same; cases same
  | finite negative m e =>
      cases second : ofFloat y with
      | finite other n k =>
          rw [first, second] at same
          obtain ⟨rfl, size⟩ := Latex.Spelling.mk.inj same
          have layout := (Latex.Size.figures.inj size)
          have value := Decimal.value_eq_of_layout_eq layout
          have fits := fits_of_ofWord_eq first
          have fits' := fits_of_ofWord_eq second
          obtain ⟨rfl, rfl⟩ := fits.eq_of_shortest_value_eq fits' (by decide) value
          rfl
      | _ => rw [first, second] at same; cases same

end Binary

instance : Latex.Spelled Float where
  spelling x := (Binary.ofFloat x).spelling
  text_toList x := (Binary.ofFloat x).shortText_toList
  injective := Binary.spelling_injective

/-! ## Displays of legible formulas -/

namespace Formula

/-- Playable formulas whose displays are legible are told by their displays. -/
theorem parsePlayable_eq_of_latex_eq {text other : String} {x y : Formula Float}
    (read : parsePlayable text = .ok x) (read' : parsePlayable other = .ok y)
    (legible : x.Legible false) (legible' : y.Legible false) (same : x.latex = y.latex) : x = y :=
  legible.eq_of_latex_eq (plain_of_parsePlayable read) (plain_of_parsePlayable read') legible' same

/-- A product shows no sign of how it was written. -/
theorem parsePlayable_product_eq :
    ∃ x y : Formula Float, parsePlayable "2t^2 - |t|" = .ok x ∧ parsePlayable "2*t^2-abs(t)" = .ok y ∧
      x.Legible false ∧ y.Legible false ∧ x.latex = y.latex ∧ x = y := by
  let shown : Formula Float :=
    .binary .sub (.binary .mul (.number 2) (.binary .pow (.named "t") (.number 2)))
      (.unary .abs (.named "t"))
  have read : parsePlayable "2t^2 - |t|" = .ok shown := by decide +kernel
  have read' : parsePlayable "2*t^2-abs(t)" = .ok shown := by decide +kernel
  have legible : shown.Legible false := by decide +kernel
  exact ⟨shown, shown, read, read', legible, legible, rfl,
    parsePlayable_eq_of_latex_eq read read' legible legible rfl⟩

/-! ## Displays of other formulas -/

/-- A sum on the right of a sum shows as a sum on the left of one. -/
theorem latex_sum_sum {R : Type} [Numeral R] {op op' : BinaryOp} (outer : op = .add ∨ op = .sub)
    (inner : op' = .add ∨ op' = .sub) (x y z : Formula R) :
    (binary op x (binary op' y z)).latex = (binary op' (binary op x y) z).latex := by
  rcases outer with rfl | rfl <;> rcases inner with rfl | rfl <;>
    simp [latex, Latex.binary, String.append_assoc]

/-- Playable formulas with the same display can have different values. -/
theorem parsePlayable_latex_ambiguous :
    ∃ x y : Formula Float, parsePlayable "1-(2-3)" = .ok x ∧ parsePlayable "1-2-3" = .ok y ∧
      x.latex = y.latex ∧ x.evaluateAt 0 = .ok 2 ∧ y.evaluateAt 0 = .ok (-4) ∧ (2 : Float) ≠ -4 := by
  let right : Formula Float :=
    .binary .sub (.number 1) (.binary .sub (.number 2) (.number 3))
  let left : Formula Float :=
    .binary .sub (.binary .sub (.number 1) (.number 2)) (.number 3)
  exact ⟨right, left, by decide +kernel, by decide +kernel,
    latex_sum_sum (.inr rfl) (.inr rfl) _ _ _, by decide +kernel, by decide +kernel,
    by decide +kernel⟩

end Formula

end Tonegraph
