import Tonegraph.Formula.Parse
import Tonegraph.Proofs.Display.Glyph
/-!
# Reading displays

`Reads barred part glyphs x rest` says that a part of a display at the front of a list of glyphs is
read as the tree `x`, whose numbers are spellings, with `rest` behind it. The parts follow the
tightness of the operators. Sums, items, terms and powers are read from left to right: `moreSum x`
and its like go on from what was read so far. `barred` says that the part stands directly between
bars, where a bar closes them and starts no further factor.

Parentheses leave no trace in the tree, and every rule is chosen by the next glyph alone, so what is
read is determined (`Reads.deterministic`).
-/

set_option autoImplicit false

namespace Tonegraph.Latex

/-- What can be read from a display. -/
inductive Part where
  | sum
  | moreSum (left : Formula Spelling)
  | item
  | moreItem (left : Formula Spelling)
  | term
  | moreTerm (left : Formula Spelling)
  | signed
  | power
  | morePower (base : Formula Spelling)
  | atom

namespace Glyph

/-- The operation that a glyph between two summands says. -/
def additive? : Glyph → Option BinaryOp
  | .piece .plus => some .add
  | .piece .minus => some .sub
  | _ => none

/-- Whether a glyph behind a factor starts a further one. -/
def startsFactor (barred : Bool) : Glyph → Bool
  | .size _ | .piece .time | .piece (.constant _) => true
  | .piece .sign | .piece .fraction | .piece .logarithm => true
  | .piece (.opens enclosure) => enclosure != .bars || !barred
  | .piece _ => false

end Glyph

namespace Enclosure

/-- What an enclosure makes of its content. -/
def made {R : Type} : Enclosure → Formula R → Formula R
  | .parentheses, x => x
  | .bars, x => .unary .abs x
  | .floor, x => .unary .floor x
  | .ceil, x => .unary .ceil x
  | .sin, x => .unary .sin x
  | .cos, x => .unary .cos x
  | .tan, x => .unary .tan x

end Enclosure

/-- How parts of displays are read. -/
inductive Reads : Bool → Part → List Glyph → Formula Spelling → List Glyph → Prop
  | sum {b : Bool} {i m o : List Glyph} {x y : Formula Spelling} :
      Reads b .item i x m → Reads b (.moreSum x) m y o → Reads b .sum i y o
  | summand {b : Bool} {g : Glyph} {op : BinaryOp} {i m o : List Glyph} {x y z : Formula Spelling}
      (operator : g.additive? = some op) :
      Reads b .item i y m → Reads b (.moreSum (.binary op x y)) m z o →
        Reads b (.moreSum x) (g :: i) z o
  | sumEnds {b : Bool} {i : List Glyph} {x : Formula Spelling}
      (ends : ∀ g ∈ i.head?, g.additive? = none) : Reads b (.moreSum x) i x i
  | item {b : Bool} {i m o : List Glyph} {x y : Formula Spelling} :
      Reads b .term i x m → Reads b (.moreItem x) m y o → Reads b .item i y o
  | modulus {b : Bool} {i o : List Glyph} {x y : Formula Spelling} :
      Reads b .term i y o → Reads b (.moreItem x) (.piece .percent :: i) (.binary .mod x y) o
  | itemEnds {b : Bool} {i : List Glyph} {x : Formula Spelling}
      (ends : .piece .percent ∉ i.head?) : Reads b (.moreItem x) i x i
  | term {b : Bool} {i m o : List Glyph} {x y : Formula Spelling} :
      Reads b .signed i x m → Reads b (.moreTerm x) m y o → Reads b .term i y o
  | factor {b : Bool} {g : Glyph} {i m o : List Glyph} {x y z : Formula Spelling}
      (starts : g.startsFactor b = true) :
      Reads b .signed (g :: i) y m → Reads b (.moreTerm (.binary .mul x y)) m z o →
        Reads b (.moreTerm x) (g :: i) z o
  | termEnds {b : Bool} {i : List Glyph} {x : Formula Spelling}
      (ends : ∀ g ∈ i.head?, g.startsFactor b = false) : Reads b (.moreTerm x) i x i
  | negated {b : Bool} {i o : List Glyph} {x : Formula Spelling} :
      Reads b .signed i x o → Reads b .signed (.piece .sign :: i) (Parse.negative x) o
  | unsigned {b : Bool} {i o : List Glyph} {x : Formula Spelling}
      (plain : .piece .sign ∉ i.head?) : Reads b .power i x o → Reads b .signed i x o
  | power {b : Bool} {i m o : List Glyph} {x y : Formula Spelling} :
      Reads b .atom i x m → Reads b (.morePower x) m y o → Reads b .power i y o
  | raised {b : Bool} {i m o : List Glyph} {x y z : Formula Spelling} :
      Reads false .sum i y (.piece .unbrace :: m) → Reads b (.morePower (.binary .pow x y)) m z o →
        Reads b (.morePower x) (.piece .caret :: .piece .brace :: i) z o
  | powerEnds {b : Bool} {i : List Glyph} {x : Formula Spelling}
      (ends : .piece .caret ∉ i.head?) : Reads b (.morePower x) i x i
  | number {b : Bool} (size : Size) (o : List Glyph) :
      Reads b .atom (.size size :: o) (.number ⟨false, size⟩) o
  | time {b : Bool} (o : List Glyph) : Reads b .atom (.piece .time :: o) (.named timeName) o
  | constant {b : Bool} (c : Constant) (o : List Glyph) :
      Reads b .atom (.piece (.constant c) :: o) (.constant c) o
  | enclosed {b : Bool} {e : Enclosure} {i o : List Glyph} {x : Formula Spelling} :
      Reads (e == .bars) .sum i x (e.closing :: o) →
        Reads b .atom (.piece (.opens e) :: i) (e.made x) o
  | fraction {b : Bool} {i m o : List Glyph} {x y : Formula Spelling} :
      Reads false .sum i x (.piece .unbrace :: .piece .brace :: m) →
        Reads false .sum m y (.piece .unbrace :: o) →
        Reads b .atom (.piece .fraction :: .piece .brace :: i) (.binary .div x y) o
  | logarithm {b : Bool} {i m o : List Glyph} {x y : Formula Spelling} :
      Reads false .sum i x (.piece .unbrace :: .piece (.opens .parentheses) :: m) →
        Reads false .sum m y (.piece .closesParentheses :: o) →
        Reads b .atom (.piece .logarithm :: .piece .brace :: i) (.binary .log x y) o

/-! ## The next glyph chooses the rule -/

namespace Part

/-- The part that a chain begins with, and the part that goes on with it from a tree. -/
def chain? : Part → Option (Part × (Formula Spelling → Part))
  | .sum => some (.item, .moreSum)
  | .item => some (.term, .moreItem)
  | .term => some (.signed, .moreTerm)
  | .power => some (.atom, .morePower)
  | _ => none

/-- The tree that a part goes on from. -/
def sofar? : Part → Option (Formula Spelling)
  | .moreSum x | .moreItem x | .moreTerm x | .morePower x => some x
  | _ => none

/-- Whether a glyph goes on with a part. -/
def goesOn (barred : Bool) (g : Glyph) : Part → Prop
  | .moreSum _ => g.additive? ≠ none
  | .moreItem _ => g = .piece .percent
  | .moreTerm _ => g.startsFactor barred = true
  | .morePower _ => g = .piece .caret
  | _ => True

end Part

/-- What is read of a part from a list of glyphs can only be this tree, with this rest. -/
def Determined (b : Bool) (part : Part) (i : List Glyph) (x : Formula Spelling)
    (o : List Glyph) : Prop :=
  ∀ ⦃y : Formula Spelling⦄ ⦃others : List Glyph⦄, Reads b part i y others → x = y ∧ o = others

namespace Determined

variable {b : Bool} {part first : Part} {more : Formula Spelling → Part} {g h k : Glyph}
  {i m o : List Glyph} {x y z : Formula Spelling}

theorem chain (chain : part.chain? = some (first, more)) (head : Determined b first i x m)
    (tail : Determined b (more x) m y o) : Determined b part i y o := by
  intro z others second
  obtain ⟨x', m', head', tail'⟩ :
      ∃ x' m', Reads b first i x' m' ∧ Reads b (more x') m' z others := by
    cases second with
    | sum head' tail' | item head' tail' | term head' tail' | power head' tail' =>
        cases chain
        exact ⟨_, _, head', tail'⟩
    | _ => cases chain
  obtain ⟨rfl, rfl⟩ := head head'
  exact tail tail'

theorem ended (sofar : part.sofar? = some x) (ends : ∀ g ∈ i.head?, ¬part.goesOn b g) :
    Determined b part i x i := by
  intro y others second
  cases second with
  | sumEnds _ | itemEnds _ | termEnds _ | powerEnds _ =>
      cases sofar
      exact ⟨rfl, rfl⟩
  | summand operator _ _ => exact absurd (ends _ rfl) (by simp [Part.goesOn, operator])
  | factor starts _ _ => exact absurd starts (ends _ rfl)
  | modulus _ | raised _ _ => exact absurd rfl (ends _ rfl)
  | _ => cases sofar

/-! ### Operations -/

theorem summand {op : BinaryOp} (operator : g.additive? = some op) (item : Determined b .item i y m)
    (more : Determined b (.moreSum (.binary op x y)) m z o) :
    Determined b (.moreSum x) (g :: i) z o := by
  intro z' others second
  cases second with
  | summand operator' item' more' =>
      cases operator.symm.trans operator'
      obtain ⟨rfl, rfl⟩ := item item'
      exact more more'
  | sumEnds ends => cases operator.symm.trans (ends _ rfl)

theorem modulus (term : Determined b .term i y o) :
    Determined b (.moreItem x) (.piece .percent :: i) (.binary .mod x y) o := by
  intro z' others second
  cases second with
  | modulus term' =>
      obtain ⟨rfl, rfl⟩ := term term'
      exact ⟨rfl, rfl⟩
  | itemEnds ends => exact absurd rfl ends

theorem factor (starts : g.startsFactor b = true) (signed : Determined b .signed (g :: i) y m)
    (more : Determined b (.moreTerm (.binary .mul x y)) m z o) :
    Determined b (.moreTerm x) (g :: i) z o := by
  intro z' others second
  cases second with
  | factor _ signed' more' =>
      obtain ⟨rfl, rfl⟩ := signed signed'
      exact more more'
  | termEnds ends => cases starts.symm.trans (ends _ rfl)

theorem raised (exponent : Determined false .sum i y (.piece .unbrace :: m))
    (more : Determined b (.morePower (.binary .pow x y)) m z o) :
    Determined b (.morePower x) (.piece .caret :: .piece .brace :: i) z o := by
  intro z' others second
  cases second with
  | raised exponent' more' =>
      obtain ⟨rfl, same⟩ := exponent exponent'
      cases same
      exact more more'
  | powerEnds ends => exact absurd rfl ends

/-! ### Signs -/

theorem negated (operand : Determined b .signed i x o) :
    Determined b .signed (.piece .sign :: i) (Parse.negative x) o := by
  intro y others second
  cases second with
  | negated operand' =>
      obtain ⟨rfl, rfl⟩ := operand operand'
      exact ⟨rfl, rfl⟩
  | unsigned plain _ => exact absurd rfl plain

theorem unsigned (plain : .piece .sign ∉ i.head?) (power : Determined b .power i x o) :
    Determined b .signed i x o := by
  intro y others second
  cases second with
  | negated _ => exact absurd rfl plain
  | unsigned _ power' => exact power power'

/-! ### Atoms -/

theorem enclosed {e : Enclosure} (content : Determined (e == .bars) .sum i x (e.closing :: o)) :
    Determined b .atom (.piece (.opens e) :: i) (e.made x) o := by
  intro y others second
  cases second with
  | enclosed content' =>
      obtain ⟨rfl, same⟩ := content content'
      cases same
      exact ⟨rfl, rfl⟩

/-- Two sums, with two glyphs behind the one and one behind the other. -/
theorem both {x' y' : Formula Spelling} {m' o' : List Glyph}
    (upper : Determined false .sum i x (g :: h :: m)) (lower : Determined false .sum m y (k :: o))
    (upper' : Reads false .sum i x' (g :: h :: m')) (lower' : Reads false .sum m' y' (k :: o')) :
    x = x' ∧ y = y' ∧ o = o' := by
  obtain ⟨rfl, same⟩ := upper upper'
  cases same
  obtain ⟨rfl, same⟩ := lower lower'
  cases same
  exact ⟨rfl, rfl, rfl⟩

theorem fraction
    (upper : Determined false .sum i x (.piece .unbrace :: .piece .brace :: m))
    (lower : Determined false .sum m y (.piece .unbrace :: o)) :
    Determined b .atom (.piece .fraction :: .piece .brace :: i) (.binary .div x y) o := by
  intro z others second
  cases second with
  | fraction upper' lower' =>
      obtain ⟨rfl, rfl, rfl⟩ := upper.both lower upper' lower'
      exact ⟨rfl, rfl⟩

theorem logarithm
    (base : Determined false .sum i x (.piece .unbrace :: .piece (.opens .parentheses) :: m))
    (argument : Determined false .sum m y (.piece .closesParentheses :: o)) :
    Determined b .atom (.piece .logarithm :: .piece .brace :: i) (.binary .log x y) o := by
  intro z others second
  cases second with
  | logarithm base' argument' =>
      obtain ⟨rfl, rfl, rfl⟩ := base.both argument base' argument'
      exact ⟨rfl, rfl⟩

end Determined

namespace Reads

variable {b : Bool} {part : Part} {i o : List Glyph} {x : Formula Spelling}

/-- At most one tree is read from a list of glyphs, and at most one rest is left. -/
theorem deterministic (first : Reads b part i x o) : Determined b part i x o := by
  induction first with
  | sum _ _ head tail | item _ _ head tail | term _ _ head tail | power _ _ head tail =>
      exact .chain rfl head tail
  | sumEnds ends => exact .ended rfl fun g next goesOn => goesOn (ends g next)
  | itemEnds ends | powerEnds ends =>
      exact .ended rfl fun g next goesOn => ends (goesOn ▸ next)
  | termEnds ends => exact .ended rfl fun g next => by simp [Part.goesOn, ends g next]
  | summand operator _ _ item more => exact .summand operator item more
  | modulus _ term => exact .modulus term
  | factor starts _ _ signed more => exact .factor starts signed more
  | raised _ _ exponent more => exact .raised exponent more
  | negated _ operand => exact .negated operand
  | unsigned plain _ power => exact .unsigned plain power
  | number _ _ | time _ | constant _ _ =>
      intro y others second
      cases second
      exact ⟨rfl, rfl⟩
  | enclosed _ content => exact .enclosed content
  | fraction _ _ upper lower => exact .fraction upper lower
  | logarithm _ _ base argument => exact .logarithm base argument

end Reads

/-! ## Levels -/

/-- How tightly the parts of a display are held together, from loose to tight. -/
inductive Level where
  | sum
  | item
  | term
  | signed
  | power
deriving DecidableEq, Repr

namespace Level

/-- Levels by number. -/
def rank : Level → Nat
  | .sum => 0
  | .item => 1
  | .term => 2
  | .signed => 3
  | .power => 4

instance : LE Level where
  le loose tight := loose.rank ≤ tight.rank

instance : DecidableLE Level := fun loose tight =>
  inferInstanceAs (Decidable (loose.rank ≤ tight.rank))

/-- The next looser level. -/
def looser : Level → Level
  | .sum | .item => .sum
  | .term => .item
  | .signed => .term
  | .power => .signed

theorem eq_iterate_looser {loose tight : Level} (le : loose ≤ tight) :
    ∃ n < 5, loose = looser^[n] tight := by
  revert le
  cases loose <;> cases tight <;> decide

end Level

/-! ## Reading at a level -/

/-- Whether a glyph behind an item ends it. -/
def Glyph.endsItem (barred : Bool) : Glyph → Bool
  | .piece (.opens .bars) => barred
  | .piece .plus | .piece .minus | .piece .unbrace => true
  | .piece .closesParentheses | .piece .closesFloor | .piece .closesCeil => true
  | _ => false

/-- Nothing at the front of a list of glyphs goes on with an item. -/
def EndsItem (barred : Bool) (glyphs : List Glyph) : Prop :=
  ∀ g ∈ glyphs.head?, g.endsItem barred = true

/-- A list of glyphs is read at a level as a tree, whatever stands behind it that does not belong to
the same part of the display. At the levels of chains, reading goes on from the tree. -/
def ReadsAt (b : Bool) (glyphs : List Glyph) (x : Formula Spelling) : Level → Prop
  | .power => ∀ (rest : List Glyph) (z : Formula Spelling) (o : List Glyph),
      Reads b (.morePower x) rest z o → Reads b .power (glyphs ++ rest) z o
  | .signed => ∀ rest : List Glyph, .piece .caret ∉ rest.head? →
      Reads b .signed (glyphs ++ rest) x rest
  | .term => ∀ (rest : List Glyph) (z : Formula Spelling) (o : List Glyph),
      .piece .caret ∉ rest.head? → Reads b (.moreTerm x) rest z o →
        Reads b .term (glyphs ++ rest) z o
  | .item => ∀ rest : List Glyph, EndsItem b rest → Reads b .item (glyphs ++ rest) x rest
  | .sum => ∀ (rest : List Glyph) (z : Formula Spelling) (o : List Glyph),
      EndsItem b rest → Reads b (.moreSum x) rest z o → Reads b .sum (glyphs ++ rest) z o

section

variable {b : Bool} {glyphs others : List Glyph} {x y : Formula Spelling}

theorem EndsItem.notCaret (ends : EndsItem b glyphs) : .piece .caret ∉ glyphs.head? := by
  intro caret
  cases ends _ caret

theorem EndsItem.notPercent (ends : EndsItem b glyphs) : .piece .percent ∉ glyphs.head? := by
  intro percent
  cases ends _ percent

theorem Glyph.not_startsFactor :
    ∀ {g : Glyph}, g.endsItem b = true → g.startsFactor b = false
  | .piece (.opens .bars), ends => by
      have barred : b = true := ends
      rw [barred]
      rfl
  | .piece .plus, _ | .piece .minus, _ | .piece .unbrace, _ => rfl
  | .piece .closesParentheses, _ | .piece .closesFloor, _ | .piece .closesCeil, _ => rfl

theorem Glyph.endsItem_of_additive {op : BinaryOp} :
    ∀ {g : Glyph}, g.additive? = some op → g.endsItem b = true
  | .piece .plus, _ | .piece .minus, _ => rfl

/-- Directly between bars, only a bar ceases to start a factor. -/
theorem Glyph.startsFactor_of_ne_bars :
    ∀ {g : Glyph}, g.startsFactor false = true → g ≠ .piece (.opens .bars) →
      g.startsFactor true = true
  | .piece (.opens e), _, other => by
      have notBars : e ≠ .bars := by
        rintro rfl
        exact other rfl
      simpa [Glyph.startsFactor] using notBars
  | .size _, _, _ | .piece .time, _, _ | .piece (.constant _), _, _ => rfl
  | .piece .sign, _, _ | .piece .fraction, _, _ | .piece .logarithm, _, _ => rfl

theorem EndsItem.notFactor (ends : EndsItem b glyphs) :
    ∀ g ∈ glyphs.head?, g.startsFactor b = false := by
  intro g head
  exact Glyph.not_startsFactor (ends g head)

/-- A power does not start with a sign. -/
theorem Reads.power_head {i o : List Glyph} (power : Reads b .power i x o) :
    .piece .sign ∉ i.head? := by
  cases power with
  | power atom _ => cases atom <;> rintro ⟨⟩

namespace ReadsAt

theorem signed_of_power (reads : ReadsAt b glyphs x .power) : ReadsAt b glyphs x .signed := by
  intro rest ends
  have power : Reads b .power (glyphs ++ rest) x rest := reads rest x rest (.powerEnds ends)
  exact .unsigned power.power_head power

theorem term_of_signed (reads : ReadsAt b glyphs x .signed) : ReadsAt b glyphs x .term := by
  intro rest z o ends more
  exact .term (reads rest ends) more

theorem item_of_term (reads : ReadsAt b glyphs x .term) : ReadsAt b glyphs x .item := by
  intro rest ends
  exact .item (reads rest x rest ends.notCaret (.termEnds ends.notFactor)) (.itemEnds ends.notPercent)

theorem sum_of_item (reads : ReadsAt b glyphs x .item) : ReadsAt b glyphs x .sum := by
  intro rest z o ends more
  exact .sum (reads rest ends) more

theorem looser {level : Level} (reads : ReadsAt b glyphs x level) :
    ReadsAt b glyphs x level.looser := by
  cases level with
  | sum => exact reads
  | item => exact reads.sum_of_item
  | term => exact reads.item_of_term
  | signed => exact reads.term_of_signed
  | power => exact reads.signed_of_power

/-- What is read at a level is read at every looser level. -/
theorem loosen {loose tight : Level} (le : loose ≤ tight) (reads : ReadsAt b glyphs x tight) :
    ReadsAt b glyphs x loose := by
  obtain ⟨steps, -, rfl⟩ := Level.eq_iterate_looser le
  clear le
  induction steps with
  | zero => exact reads
  | succ steps ih =>
      rw [Function.iterate_succ_apply']
      exact ih.looser

end ReadsAt

/-! ## Putting displays together -/

theorem endsItem_cons {g : Glyph} (ends : g.endsItem b = true) (rest : List Glyph) :
    EndsItem b (g :: rest) := by
  rintro g ⟨⟩
  exact ends

theorem Enclosure.endsItem_closing (e : Enclosure) : e.closing.endsItem (e == .bars) = true := by
  cases e <;> rfl

namespace ReadsAt

/-- A whole sum is read in front of what ends it. -/
theorem whole {g : Glyph} (reads : ReadsAt b glyphs x .sum) (ends : g.endsItem b = true)
    (none : g.additive? = none) (rest : List Glyph) :
    Reads b .sum (glyphs ++ g :: rest) x (g :: rest) :=
  reads _ _ _ (endsItem_cons ends rest) (.sumEnds (by rintro g ⟨⟩; exact none))

theorem of_atom (atom : ∀ rest, Reads b .atom (glyphs ++ rest) x rest) :
    ReadsAt b glyphs x .power := by
  intro rest z o more
  exact .power (atom rest) more

theorem number (s : Size) : ReadsAt b [.size s] (.number ⟨false, s⟩) .power :=
  of_atom fun rest => .number s rest

theorem enclosed {e : Enclosure} (content : ReadsAt (e == .bars) glyphs x .sum) :
    ReadsAt b (Latex.enclosed e glyphs) (e.made x) .power := by
  apply of_atom
  intro rest
  have read := content.whole e.endsItem_closing (by cases e <;> rfl) rest
  simpa [Latex.enclosed] using Reads.enclosed read

theorem fraction (upper : ReadsAt false glyphs x .sum) (lower : ReadsAt false others y .sum) :
    ReadsAt b (.piece .fraction :: (bracedGlyphs glyphs ++ bracedGlyphs others))
      (.binary .div x y) .power := by
  apply of_atom
  intro rest
  have readUpper := upper.whole (g := .piece .unbrace) rfl rfl
    (.piece .brace :: (others ++ .piece .unbrace :: rest))
  have readLower := lower.whole (g := .piece .unbrace) rfl rfl rest
  simpa [bracedGlyphs] using Reads.fraction readUpper readLower

theorem logarithm (base : ReadsAt false glyphs x .sum) (argument : ReadsAt false others y .sum) :
    ReadsAt b (.piece .logarithm :: (bracedGlyphs glyphs ++ Latex.enclosed .parentheses others))
      (.binary .log x y) .power := by
  apply of_atom
  intro rest
  have readBase := base.whole (g := .piece .unbrace) rfl rfl
    (.piece (.opens .parentheses) :: (others ++ .piece .closesParentheses :: rest))
  have readArgument := argument.whole (g := .piece .closesParentheses) rfl rfl rest
  simpa [bracedGlyphs, Latex.enclosed, Enclosure.closing] using Reads.logarithm readBase readArgument

theorem raised (base : ReadsAt b glyphs x .power) (exponent : ReadsAt false others y .sum) :
    ReadsAt b (glyphs ++ .piece .caret :: bracedGlyphs others) (.binary .pow x y) .power := by
  intro rest z o more
  have read := exponent.whole (g := .piece .unbrace) rfl rfl rest
  simpa [bracedGlyphs] using base _ z o (.raised read more)

theorem negated (operand : ReadsAt b glyphs x .signed) :
    ReadsAt b (.piece .sign :: glyphs) (Parse.negative x) .signed := by
  intro rest ends
  exact .negated (operand rest ends)

theorem negativeNumber (s : Size) :
    ReadsAt b [.piece .sign, .size s] (.number ⟨true, s⟩) .signed :=
  (number s).signed_of_power.negated

theorem product (left : ReadsAt b glyphs x .term) (right : ReadsAt b others y .signed)
    (starts : ∃ g ∈ others.head?, g.startsFactor b = true) :
    ReadsAt b (glyphs ++ others) (.binary .mul x y) .term := by
  intro rest z o ends more
  obtain ⟨g, head, starts⟩ := starts
  cases others with
  | nil => cases head
  | cons g others =>
      cases head
      rw [List.append_assoc]
      refine left _ z o ?_ (.factor starts (right rest ends) more)
      rintro ⟨⟩
      cases starts

theorem modulus (left : ReadsAt b glyphs x .term) (right : ReadsAt b others y .term) :
    ReadsAt b (glyphs ++ .piece .percent :: others) (.binary .mod x y) .item := by
  intro rest ends
  have readRight : Reads b .term (others ++ rest) y rest :=
    right rest y rest ends.notCaret (.termEnds ends.notFactor)
  have passes : Reads b (.moreTerm x) (.piece .percent :: (others ++ rest)) x
      (.piece .percent :: (others ++ rest)) := .termEnds (by rintro g ⟨⟩; rfl)
  have readLeft : Reads b .term (glyphs ++ .piece .percent :: (others ++ rest)) x
      (.piece .percent :: (others ++ rest)) := left _ _ _ (by rintro ⟨⟩) passes
  rw [List.append_assoc]
  exact .item readLeft (.modulus readRight)

theorem summand {g : Glyph} {op : BinaryOp} (operator : g.additive? = some op)
    (left : ReadsAt b glyphs x .sum) (right : ReadsAt b others y .item) :
    ReadsAt b (glyphs ++ g :: others) (.binary op x y) .sum := by
  intro rest z o ends more
  have between : EndsItem b (g :: (others ++ rest)) :=
    endsItem_cons (Glyph.endsItem_of_additive operator) _
  rw [List.append_assoc]
  exact left _ z o between (.summand operator (right rest ends) more)

end ReadsAt

end

end Tonegraph.Latex
