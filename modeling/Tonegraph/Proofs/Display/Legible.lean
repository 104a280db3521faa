import Tonegraph.Proofs.Display.Reading
/-!
# Displays that are read as what they show

A display puts parentheses around sums, quotients and remainders that stand as factors, and nowhere
else. `Formula.Legible` says of a formula that this is enough: every operand is held together at
least as tightly as its place needs (`Formula.level`), no factor that ends with a digit stands in
front of one that starts with a digit, and directly between bars no further factor starts with a
bar. `Formula.Plain` says that it is in the time alone and that the signs of numbers belong to the
numbers.

What a plain and legible formula shows is read as the formula (`Formula.Legible.reads`), so the
display tells the formula (`Formula.Legible.eq_of_latex_eq`).
-/

set_option autoImplicit false

namespace Tonegraph

namespace Latex

/-- Whether two texts side by side join two digits. -/
def joinsDigits (left right : String) : Bool :=
  left.toList.getLast?.any Char.isDigit && right.toList.head?.any Char.isDigit

theorem not_digits_of_apart {left right : String} (apart : joinsDigits left right = false) :
    ¬((∃ c ∈ left.toList.getLast?, c.isDigit = true) ∧
      ∃ c ∈ right.toList.head?, c.isDigit = true) := by
  rintro ⟨⟨c, last, digit⟩, d, head, digit'⟩
  rw [joinsDigits, Option.mem_def.mp last, Option.mem_def.mp head, Option.any_some, digit,
    Option.any_some, digit'] at apart
  cases apart

end Latex

namespace Formula

open Latex

/-- Whether a formula is a number and nothing else. -/
def isNumber {R : Type} : Formula R → Bool
  | .number _ => true
  | _ => false

/-- A formula in the time alone in which no number has a sign in front of it: a negative number is
a number. -/
def Plain {R : Type} : Formula R → Prop
  | .number _ | .constant _ => True
  | .named name => name = timeName
  | .unary op x => (op = .neg → x.isNumber = false) ∧ x.Plain
  | .binary _ x y => x.Plain ∧ y.Plain

/-- The formula with other numbers. -/
def map {R S : Type} (f : R → S) : Formula R → Formula S
  | .number value => .number (f value)
  | .named name => .named name
  | .constant c => .constant c
  | .unary op x => .unary op (x.map f)
  | .binary op x y => .binary op (x.map f) (y.map f)

theorem map_injective {R S : Type} {f : R → S} (injective : Function.Injective f) :
    Function.Injective (Formula.map f) := by
  intro x y same
  induction x generalizing y with
  | number value =>
      cases y with
      | number other => rw [injective (Formula.number.inj same)]
      | _ => cases same
  | named name | constant c =>
      cases y <;> cases same
      rfl
  | unary op x ih =>
      cases y with
      | unary other y =>
          obtain ⟨rfl, operand⟩ := Formula.unary.inj same
          rw [ih operand]
      | _ => cases same
  | binary op x x' ih ih' =>
      cases y with
      | binary other y y' =>
          obtain ⟨rfl, left, right⟩ := Formula.binary.inj same
          rw [ih left, ih' right]
      | _ => cases same

variable {R : Type} [Numeral R]

/-- What a formula shows as an operand beside another factor. -/
def factorLatex (x : Formula R) : String := if x.isTerm then x.latex else parenthesised x.latex

/-- How tightly the display of a formula is held together. A negative number shows its sign. -/
def level : Formula R → Level
  | .number value => if (Numeral.text value).toList.head? = some '-' then .signed else .power
  | .unary .neg _ => .signed
  | .binary .add _ _ | .binary .sub _ _ => .sum
  | .binary .mod _ _ => .item
  | .binary .mul _ _ => .term
  | _ => .power

/-- How tightly the display of a formula beside another factor is held together. -/
def factorLevel (x : Formula R) : Level := if x.isTerm then x.level else .power

/-- Every operand beside another factor is held together as a term at least. -/
theorem term_le_factorLevel (x : Formula R) : .term ≤ x.factorLevel := by
  unfold factorLevel
  match x with
  | .number value =>
      simp only [isTerm, level, if_true]
      split <;> decide
  | .named _ | .constant _ => exact of_decide_eq_true rfl
  | .unary op x => cases op <;> exact of_decide_eq_true rfl
  | .binary op x y => cases op <;> exact of_decide_eq_true rfl

/-- Whether the display of a formula is read as the formula. The flag says whether the display
stands directly between bars. -/
def Legible (barred : Bool) : Formula R → Prop
  | .number _ | .named _ | .constant _ => True
  | .unary .neg x => x.Legible (barred && x.isTerm) ∧ .signed ≤ x.factorLevel
  | .unary .abs x => x.Legible true
  | .unary _ x => x.Legible false
  | .binary .add x y | .binary .sub x y => x.Legible barred ∧ y.Legible barred ∧ .item ≤ y.level
  | .binary .mul x y =>
    x.Legible (barred && x.isTerm) ∧ y.Legible (barred && y.isTerm) ∧ .signed ≤ y.factorLevel ∧
      joinsDigits x.factorLatex y.factorLatex = false ∧
      (barred = true → y.factorLatex.toList.head? ≠ some '|')
  | .binary .mod x y => x.Legible (barred && x.isTerm) ∧ y.Legible (barred && y.isTerm)
  | .binary .pow x y =>
    x.Legible (barred && x.isTerm) ∧ .power ≤ x.factorLevel ∧ y.Legible false
  | .binary .div x y | .binary .log x y => x.Legible false ∧ y.Legible false

/-- Whether a display is legible can be decided. -/
instance Legible.decidable : (b : Bool) → (x : Formula R) → Decidable (x.Legible b)
  | _, .number _ | _, .named _ | _, .constant _ => isTrue trivial
  | b, .unary .neg x =>
    have := decidable (b && x.isTerm) x
    inferInstanceAs (Decidable (_ ∧ _))
  | _, .unary .abs x => decidable true x
  | _, .unary .floor x | _, .unary .ceil x => decidable false x
  | _, .unary .sin x | _, .unary .cos x | _, .unary .tan x => decidable false x
  | b, .binary .add x y | b, .binary .sub x y =>
    have := decidable b x
    have := decidable b y
    inferInstanceAs (Decidable (_ ∧ _))
  | b, .binary .mul x y =>
    have := decidable (b && x.isTerm) x
    have := decidable (b && y.isTerm) y
    inferInstanceAs (Decidable (_ ∧ _))
  | b, .binary .mod x y =>
    have := decidable (b && x.isTerm) x
    have := decidable (b && y.isTerm) y
    inferInstanceAs (Decidable (_ ∧ _))
  | b, .binary .pow x y =>
    have := decidable (b && x.isTerm) x
    have := decidable false y
    inferInstanceAs (Decidable (_ ∧ _))
  | _, .binary .div x y | _, .binary .log x y =>
    have := decidable false x
    have := decidable false y
    inferInstanceAs (Decidable (_ ∧ _))

end Formula

namespace Latex

/-! ## The glyphs of a formula -/

/-- Numbers that are written with a sign or none in front of a size, each in its own way. -/
class Spelled (R : Type) [Numeral R] where
  /-- How a number is written. -/
  spelling : R → Spelling
  /-- The spelling is what the text of the number shows. -/
  text_toList : ∀ value : R, (Numeral.text value).toList =
    (if (spelling value).negative then ['-'] else []) ++ (spelling value).size.text
  /-- Different numbers are written differently. -/
  injective : Function.Injective spelling

/-- The glyphs of a number. -/
def Spelling.glyphs (spelling : Spelling) : List Glyph :=
  if spelling.negative then [.piece .sign, .size spelling.size] else [.size spelling.size]

/-- The glyphs of an operation on an operand; `term` is the operand beside another factor. -/
def unaryGlyphs (op : UnaryOp) (operand term : List Glyph) : List Glyph :=
  match op with
  | .neg => .piece .sign :: term
  | .abs => enclosed .bars operand
  | .floor => enclosed .floor operand
  | .ceil => enclosed .ceil operand
  | .sin => enclosed .sin operand
  | .cos => enclosed .cos operand
  | .tan => enclosed .tan operand

/-- The glyphs of an operation on two operands; the terms are the operands beside another
factor. -/
def binaryGlyphs (op : BinaryOp) (left right leftTerm rightTerm : List Glyph) : List Glyph :=
  match op with
  | .add => left ++ .piece .plus :: right
  | .sub => left ++ .piece .minus :: right
  | .mul => leftTerm ++ rightTerm
  | .div => .piece .fraction :: (bracedGlyphs left ++ bracedGlyphs right)
  | .mod => leftTerm ++ .piece .percent :: rightTerm
  | .pow => leftTerm ++ .piece .caret :: bracedGlyphs right
  | .log => .piece .logarithm :: (bracedGlyphs left ++ enclosed .parentheses right)

theorem written_glyphs_number (spelling : Spelling) :
    written spelling.glyphs =
      (if spelling.negative then ['-'] else []) ++ spelling.size.text := by
  cases h : spelling.negative <;> simp [Spelling.glyphs, Glyph.text, Piece.text, h]

theorem written_unaryGlyphs (op : UnaryOp) {operand term : List Glyph} {text termText : String}
    (shown : written operand = text.toList) (termShown : written term = termText.toList) :
    written (unaryGlyphs op operand term) = (unary op text termText).toList := by
  cases op <;>
    simp [unaryGlyphs, unary, enclosed, parenthesised, Enclosure.closing, Enclosure.opening,
      Glyph.text, Piece.text, shown, termShown]

theorem written_binaryGlyphs (op : BinaryOp) {left right leftTerm rightTerm : List Glyph}
    {text text' termText termText' : String} (shown : written left = text.toList)
    (shown' : written right = text'.toList) (termShown : written leftTerm = termText.toList)
    (termShown' : written rightTerm = termText'.toList) :
    written (binaryGlyphs op left right leftTerm rightTerm) =
      (binary op text text' termText termText').toList := by
  cases op <;>
    simp [binaryGlyphs, binary, Glyph.text, Piece.text, shown, shown', termShown, termShown',
      written_braced shown, written_braced shown', written_parenthesised shown']

end Latex

namespace Formula

open Latex

variable {R : Type} [Numeral R] [Spelled R] {b : Bool} {x y : Formula R}

/-- The glyphs of a formula's display. -/
def glyphs : Formula R → List Glyph
  | .number value => (Spelled.spelling value).glyphs
  | .named _ => [.piece .time]
  | .constant c => [.piece (.constant c)]
  | .unary op x =>
    unaryGlyphs op x.glyphs (if x.isTerm then x.glyphs else enclosed .parentheses x.glyphs)
  | .binary op x y =>
    binaryGlyphs op x.glyphs y.glyphs
      (if x.isTerm then x.glyphs else enclosed .parentheses x.glyphs)
      (if y.isTerm then y.glyphs else enclosed .parentheses y.glyphs)

/-- The glyphs of a formula as an operand beside another factor. -/
def factorGlyphs (x : Formula R) : List Glyph :=
  if x.isTerm then x.glyphs else enclosed .parentheses x.glyphs

/-- The formula with its numbers as they are written. -/
def spelled (x : Formula R) : Formula Spelling := x.map Spelled.spelling

theorem negative_spelled (notNumber : x.isNumber = false) :
    Parse.negative x.spelled = (Formula.unary .neg x).spelled := by
  cases x with
  | number _ => cases notNumber
  | _ => rfl

/-- Only a negative number shows a sign in front. -/
theorem level_number (value : R) :
    level (.number value) = if (Spelled.spelling value).negative then .signed else .power := by
  have shown : (Numeral.text value).toList.head? = some '-' ↔
      (Spelled.spelling value).negative = true := by
    rw [Spelled.text_toList]
    cases (Spelled.spelling value).negative with
    | true => simp
    | false => simpa using (Spelled.spelling value).size.head?_text_ne_sign
  rw [level]
  exact if_congr shown rfl rfl

theorem reads_number (value : R) :
    ReadsAt b (Spelled.spelling value).glyphs (.number (Spelled.spelling value))
      (level (.number value)) := by
  rw [level_number]
  match Spelled.spelling value with
  | ⟨true, size⟩ => exact ReadsAt.negativeNumber size
  | ⟨false, size⟩ => exact ReadsAt.number size

/-- An operand beside another factor is read at its level, in its parentheses if it has any. -/
theorem reads_factor (reads : ∀ b : Bool, x.Legible b → ReadsAt b x.glyphs x.spelled x.level)
    (legible : x.Legible (b && x.isTerm)) :
    ReadsAt b x.factorGlyphs x.spelled x.factorLevel := by
  unfold factorGlyphs factorLevel
  cases single : x.isTerm with
  | true =>
      rw [single, Bool.and_true] at legible
      exact reads b legible
  | false =>
      rw [single, Bool.and_false] at legible
      have content : ReadsAt false x.glyphs x.spelled .sum :=
        (reads false legible).loosen (Nat.zero_le _)
      exact ReadsAt.enclosed (e := .parentheses) content

/-! ## The text of a display -/

theorem written_factorGlyphs (shown : written x.glyphs = x.latex.toList) :
    written x.factorGlyphs = x.factorLatex.toList := by
  unfold factorGlyphs factorLatex
  cases x.isTerm with
  | true => exact shown
  | false => exact written_parenthesised shown

/-- The glyphs of a formula are those of its display. -/
theorem Plain.written (plain : x.Plain) : written x.glyphs = x.latex.toList := by
  induction x with
  | number value => rw [glyphs, written_glyphs_number, latex, Spelled.text_toList]
  | named name =>
      cases plain
      exact List.append_nil _
  | constant c => exact List.append_nil _
  | unary op x ih =>
      have shown := ih plain.2
      exact written_unaryGlyphs op shown (written_factorGlyphs shown)
  | binary op x y ihX ihY =>
      have shownX := ihX plain.1
      have shownY := ihY plain.2
      exact written_binaryGlyphs op shownX shownY (written_factorGlyphs shownX)
        (written_factorGlyphs shownY)

/-! ## Digits -/

theorem spaced_factorGlyphs (spaced : Spaced x.glyphs) : Spaced x.factorGlyphs := by
  unfold factorGlyphs
  cases x.isTerm with
  | true => exact spaced
  | false => exact spaced.enclosed .parentheses

/-- No two numbers stand side by side in the display of a legible formula. -/
theorem Legible.spaced (plain : x.Plain) (legible : x.Legible b) : Spaced x.glyphs := by
  induction x generalizing b with
  | number value =>
      rw [glyphs, Spelling.glyphs]
      cases (Spelled.spelling value).negative with
      | true => exact (spaced_singleton _).piece .sign
      | false => exact spaced_singleton _
  | named name | constant c => exact spaced_singleton _
  | unary op x ih =>
      cases op with
      | neg => exact (spaced_factorGlyphs (ih plain.2 legible.1)).piece .sign
      | _ => exact (ih plain.2 legible).enclosed _
  | binary op x y ihX ihY =>
      cases op with
      | add => exact (ihX plain.1 legible.1).between .plus (ihY plain.2 legible.2.1)
      | sub => exact (ihX plain.1 legible.1).between .minus (ihY plain.2 legible.2.1)
      | mul =>
          obtain ⟨left, right, -, apart, -⟩ := legible
          have together : Spaced (x.factorGlyphs ++ y.factorGlyphs) := by
            apply (spaced_factorGlyphs (ihX plain.1 left)).append
              (spaced_factorGlyphs (ihY plain.2 right))
            rw [written_factorGlyphs plain.1.written, written_factorGlyphs plain.2.written]
            exact not_digits_of_apart apart
          exact together
      | div =>
          have parts := (ihX plain.1 legible.1).braced.append_piece (ihY plain.2 legible.2).braced
          exact parts.piece .fraction
      | mod =>
          exact (spaced_factorGlyphs (ihX plain.1 legible.1)).between .percent
            (spaced_factorGlyphs (ihY plain.2 legible.2))
      | pow =>
          exact (spaced_factorGlyphs (ihX plain.1 legible.1)).between .caret
            (ihY plain.2 legible.2.2).braced
      | log =>
          have argument := (ihY plain.2 legible.2).enclosed .parentheses
          exact ((ihX plain.1 legible.1).braced.append_piece argument).piece .logarithm

/-! ## Reading a display -/

/-- What shows a factor starts as one, outside bars at least. -/
theorem factorGlyphs_head (x : Formula R) :
    ∃ g ∈ x.factorGlyphs.head?, g.startsFactor false = true := by
  induction x with
  | number value =>
      match shown : Spelled.spelling value with
      | ⟨true, size⟩ =>
          exact ⟨.piece .sign, by simp [factorGlyphs, isTerm, glyphs, Spelling.glyphs, shown], rfl⟩
      | ⟨false, size⟩ =>
          exact ⟨.size size, by simp [factorGlyphs, isTerm, glyphs, Spelling.glyphs, shown], rfl⟩
  | named name | constant c => exact ⟨_, rfl, rfl⟩
  | unary op x ih => cases op <;> exact ⟨_, rfl, rfl⟩
  | binary op x y ih _ =>
      cases op with
      | mul | pow =>
          obtain ⟨g, head, starts⟩ := ih
          exact ⟨g, List.mem_head?_append_of_mem_head? head, starts⟩
      | _ => exact ⟨_, rfl, rfl⟩

/-- What stands behind another factor starts a factor. -/
theorem factorGlyphs_startsFactor (plain : x.Plain)
    (apart : b = true → x.factorLatex.toList.head? ≠ some '|') :
    ∃ g ∈ x.factorGlyphs.head?, g.startsFactor b = true := by
  obtain ⟨g, head, starts⟩ := x.factorGlyphs_head
  refine ⟨g, head, ?_⟩
  cases b with
  | false => exact starts
  | true =>
      apply Glyph.startsFactor_of_ne_bars starts
      rintro rfl
      obtain ⟨rest, glyphs⟩ := List.head?_eq_some_iff.mp head
      apply apart rfl
      rw [← written_factorGlyphs plain.written, glyphs]
      rfl

/-- What a legible formula shows is read as the formula. -/
theorem Legible.reads (plain : x.Plain) (legible : x.Legible b) :
    ReadsAt b x.glyphs x.spelled x.level := by
  induction x generalizing b with
  | number value => exact reads_number value
  | named name =>
      cases plain
      exact ReadsAt.of_atom Reads.time
  | constant c => exact ReadsAt.of_atom (Reads.constant c)
  | unary op x ih =>
      obtain ⟨notNumber, plain⟩ := plain
      have whole {b : Bool} (legible : x.Legible b) : ReadsAt b x.glyphs x.spelled .sum :=
        (ih plain legible).loosen (Nat.zero_le _)
      cases op with
      | neg =>
          obtain ⟨operand, tight⟩ := legible
          have read := (reads_factor (fun b => ih plain) operand).loosen tight
          exact negative_spelled (notNumber rfl) ▸ read.negated
      | abs => exact ReadsAt.enclosed (e := .bars) (whole legible)
      | floor => exact ReadsAt.enclosed (e := .floor) (whole legible)
      | ceil => exact ReadsAt.enclosed (e := .ceil) (whole legible)
      | sin => exact ReadsAt.enclosed (e := .sin) (whole legible)
      | cos => exact ReadsAt.enclosed (e := .cos) (whole legible)
      | tan => exact ReadsAt.enclosed (e := .tan) (whole legible)
  | binary op x y ihX ihY =>
      have readX {b : Bool} (legible : x.Legible b) := ihX plain.1 legible
      have readY {b : Bool} (legible : y.Legible b) := ihY plain.2 legible
      have wholeX {b : Bool} (legible : x.Legible b) : ReadsAt b x.glyphs x.spelled .sum :=
        (readX legible).loosen (Nat.zero_le _)
      have wholeY {b : Bool} (legible : y.Legible b) : ReadsAt b y.glyphs y.spelled .sum :=
        (readY legible).loosen (Nat.zero_le _)
      cases op with
      | add =>
          obtain ⟨left, right, tight⟩ := legible
          exact (wholeX left).summand (g := .piece .plus) rfl ((readY right).loosen tight)
      | sub =>
          obtain ⟨left, right, tight⟩ := legible
          exact (wholeX left).summand (g := .piece .minus) rfl ((readY right).loosen tight)
      | mul =>
          obtain ⟨left, right, tight, -, apart⟩ := legible
          have readLeft := reads_factor (fun b => readX) left
          have readRight := (reads_factor (fun b => readY) right).loosen tight
          have starts := factorGlyphs_startsFactor plain.2 apart
          exact (readLeft.loosen x.term_le_factorLevel).product readRight starts
      | div =>
          obtain ⟨left, right⟩ := legible
          exact (wholeX left).fraction (wholeY right)
      | mod =>
          obtain ⟨left, right⟩ := legible
          have readLeft := reads_factor (fun b => readX) left
          have readRight := reads_factor (fun b => readY) right
          exact (readLeft.loosen x.term_le_factorLevel).modulus
            (readRight.loosen y.term_le_factorLevel)
      | pow =>
          obtain ⟨base, tight, exponent⟩ := legible
          have readBase := (reads_factor (fun b => readX) base).loosen tight
          exact readBase.raised (wholeY exponent)
      | log =>
          obtain ⟨left, right⟩ := legible
          exact (wholeX left).logarithm (wholeY right)

/-! ## Displays tell formulas -/

/-- What the display of a legible formula says as a whole. -/
theorem Legible.reads_sum (plain : x.Plain) (legible : x.Legible false) :
    Reads false .sum x.glyphs x.spelled [] := by
  have whole : ReadsAt false x.glyphs x.spelled .sum :=
    (legible.reads plain).loosen (Nat.zero_le _)
  have read := whole [] x.spelled [] (by rintro g ⟨⟩) (.sumEnds (by rintro g ⟨⟩))
  rwa [List.append_nil] at read

/-- Plain and legible formulas with the same display are the same formula. -/
theorem Legible.eq_of_latex_eq (plain : x.Plain) (plain' : y.Plain) (legible : x.Legible false)
    (legible' : y.Legible false) (same : x.latex = y.latex) : x = y := by
  have glyphs : x.glyphs = y.glyphs := by
    apply written_injective (legible.spaced plain) (legible'.spaced plain')
    rw [plain.written, plain'.written, same]
  have read := legible.reads_sum plain
  rw [glyphs] at read
  have spelled : x.spelled = y.spelled := (read.deterministic (legible'.reads_sum plain')).1
  exact map_injective Spelled.injective spelled

end Formula

end Tonegraph
