import Tonegraph.Proofs.Formula.Soundness
/-!
# What is derived is read

The reader reads every derivation whose nesting fits, provided that the token behind it does not go
on with it (`Parse.complete`, by induction on the derivation). A rule that goes on from the left is
read by a loop, and there the induction is about the loop and not its result: to read the tokens of
a sum is to go on with the loop over summands from the formula that they derive.
-/

set_option autoImplicit false

namespace Tonegraph

namespace Scan

variable {R : Type}

/-- Between two scans stand these tokens. -/
def Spans (scan : Scan R) (ts : List (Token R)) (after : Scan R) : Prop :=
  ∃ read, scan.Passes read after ∧ read.map (·.token) = ts

section Spans

variable {scan after : Scan R} {ts us : List (Token R)} {token : Token R}

theorem Spans.barred (spans : scan.Spans ts after) : after.barred = scan.barred := by
  obtain ⟨_, passes, _⟩ := spans
  exact passes.barred

theorem Spans.nesting (spans : scan.Spans ts after) : after.nesting = scan.nesting := by
  obtain ⟨_, passes, _⟩ := spans
  exact passes.nesting

theorem Spans.eq_of_nil (spans : scan.Spans [] after) : after = scan := by
  obtain ⟨read, ⟨rest, stop, bars, nesting⟩, none⟩ := spans
  cases List.map_eq_nil_iff.mp none
  obtain ⟨_, _, _, _⟩ := scan
  obtain ⟨_, _, _, _⟩ := after
  simp_all

theorem Spans.append (spans : scan.Spans (ts ++ us) after) :
    ∃ between, scan.Spans ts between ∧ between.Spans us after := by
  obtain ⟨read, passes, tokens⟩ := spans
  obtain ⟨first, second, rfl, rfl, rfl⟩ := List.map_eq_append_iff.mp tokens
  refine ⟨{ after with rest := second ++ after.rest }, ⟨first, ⟨?_, ?_, ?_, ?_⟩, rfl⟩,
    ⟨second, ⟨rfl, rfl, rfl, rfl⟩, rfl⟩⟩
  · rw [passes.rest, List.append_assoc]
  · exact passes.stop
  · exact passes.bars
  · exact passes.nesting

theorem Spans.cons (spans : scan.Spans (token :: us) after) :
    scan.next? = some token ∧ scan.skipped.Spans us after := by
  obtain ⟨read, passes, tokens⟩ := spans
  obtain ⟨placed, others, rfl, rfl, rfl⟩ := List.map_eq_cons_iff.mp tokens
  refine ⟨?_, others, ⟨?_, passes.stop, passes.bars, passes.nesting⟩, rfl⟩
  · rw [next?, passes.rest]
    rfl
  · rw [skipped, passes.rest]
    rfl

/-- The tokens between two scans do not depend on the bars counted. -/
theorem Spans.withBars (spans : scan.Spans ts after) (bars : Nat) :
    { scan with bars : Scan R }.Spans ts { after with bars } := by
  obtain ⟨read, passes, tokens⟩ := spans
  exact ⟨read, ⟨passes.rest, passes.stop, rfl, passes.nesting⟩, tokens⟩

/-- The tokens between two scans do not depend on the levels counted. -/
theorem Spans.withNesting (spans : scan.Spans ts after) (nesting : Nat) :
    { scan with nesting : Scan R }.Spans ts { after with nesting } := by
  obtain ⟨read, passes, tokens⟩ := spans
  exact ⟨read, ⟨passes.rest, passes.stop, passes.bars, rfl⟩, tokens⟩

theorem Spans.bars (spans : scan.Spans ts after) : after.bars = scan.bars := by
  obtain ⟨_, passes, _⟩ := spans
  exact passes.bars

/-- The last of the tokens between two scans. -/
theorem Spans.single (spans : scan.Spans [token] after) :
    scan.next? = some token ∧ after = scan.skipped := by
  obtain ⟨next, nothing⟩ := spans.cons
  exact ⟨next, nothing.eq_of_nil⟩

end Spans

/-! ## Where a formula ends -/

/-- The next token does not make a power. -/
def EndsOperand (scan : Scan R) : Prop := scan.nextIs .caret = false

/-- The next token does not go on with a product. -/
def EndsProduct (scan : Scan R) : Prop := scan.EndsOperand ∧ scan.startsFactor = false

/-- The next token does not go on with a term. -/
def EndsTerm (scan : Scan R) : Prop :=
  scan.EndsProduct ∧ scan.operator? Mark.multiplicative? = none

/-- The next token does not go on with a sum. -/
def EndsSum (scan : Scan R) : Prop := scan.EndsTerm ∧ scan.operator? Mark.additive? = none

section Ends

variable {scan : Scan R} {mark : Mark} {op : BinaryOp}

theorem endsSum_of_none (next : scan.next? = none) : scan.EndsSum := by
  simp [EndsSum, EndsTerm, EndsProduct, EndsOperand, nextIs, startsFactor, operator?, next]

theorem endsSum_of_closing (next : scan.next? = some (.mark .closing)) : scan.EndsSum := by
  simp [EndsSum, EndsTerm, EndsProduct, EndsOperand, nextIs, startsFactor, operator?, next,
    Token.startsFactor, Mark.multiplicative?, Mark.additive?]

theorem endsSum_of_comma (next : scan.next? = some (.mark .comma)) : scan.EndsSum := by
  simp [EndsSum, EndsTerm, EndsProduct, EndsOperand, nextIs, startsFactor, operator?, next,
    Token.startsFactor, Mark.multiplicative?, Mark.additive?]

/-- Directly between bars a bar ends what is between them. -/
theorem endsSum_of_bar (next : scan.next? = some (.mark .bar)) (barred : scan.barred = true) :
    scan.EndsSum := by
  simp [EndsSum, EndsTerm, EndsProduct, EndsOperand, nextIs, startsFactor, operator?, next,
    Token.startsFactor, Mark.multiplicative?, Mark.additive?, barred]

theorem endsTerm_of_additive (next : scan.next? = some (.mark mark))
    (operator : mark.additive? = some op) : scan.EndsTerm := by
  cases mark <;> simp [Mark.additive?] at operator <;>
    simp [EndsTerm, EndsProduct, EndsOperand, nextIs, startsFactor, operator?, next,
      Token.startsFactor, Mark.multiplicative?]

theorem endsProduct_of_multiplicative (next : scan.next? = some (.mark mark))
    (operator : mark.multiplicative? = some op) : scan.EndsProduct := by
  cases mark <;> simp [Mark.multiplicative?] at operator <;>
    simp [EndsProduct, EndsOperand, nextIs, startsFactor, next, Token.startsFactor]

theorem endsOperand_of_startsFactor {first : Token R} {b : Bool} (next : scan.next? = some first)
    (starts : first.startsFactor b = true) : scan.EndsOperand := by
  rcases first with _ | _ | mark
  · simp [EndsOperand, nextIs, next]
  · simp [EndsOperand, nextIs, next]
  · cases mark <;> simp [Token.startsFactor] at starts <;> simp [EndsOperand, nextIs, next]

end Ends

end Scan

namespace Parse

variable {R : Type}

/-! ## Loops -/

/-- A loop over operators has come so far with a formula that it is left to go on from there. -/
def GoesOn (part : Parse R (Formula R)) (step : Formula R → Parse R (Option (Formula R)))
    (x : Formula R) (scan after : Scan R) : Prop :=
  ∃ fuel, after.rest.length ≤ fuel ∧ part.on scan = (chain step fuel x).on after

section Loops

variable {first : Parse R (Formula R)} {go : Formula R → Parse R (Option (Formula R))}
  {x : Formula R} {scan after : Scan R}

theorem shorter_of_spans {token : Token R} {us : List (Token R)}
    (spans : scan.Spans (token :: us) after) : after.rest.length < scan.rest.length := by
  obtain ⟨read, passes, tokens⟩ := spans
  have length := congrArg List.length tokens
  rw [passes.rest, List.length_append]
  rw [List.length_map, List.length_cons] at length
  omega

theorem goesOn_of_first (began : first.on scan = (.ok x, after)) :
    GoesOn (leftChain first go) go x scan after := by
  refine ⟨_, Nat.le_refl _, ?_⟩
  rw [leftChain_on, began]

/-- A step that goes on takes the loop further; it has passed over a token at least. -/
theorem GoesOn.step {part : Parse R (Formula R)} {longer : Formula R} {between : Scan R}
    (goesOn : GoesOn part go x scan between) (shorter : after.rest.length < between.rest.length)
    (stepped : (go x).on between = (.ok (some longer), after)) :
    GoesOn part go longer scan after := by
  obtain ⟨fuel, enough, same⟩ := goesOn
  obtain ⟨fuel, rfl⟩ : ∃ less, fuel = less + 1 := ⟨fuel - 1, by omega⟩
  refine ⟨fuel, by omega, ?_⟩
  rw [same, chain_on, stepped]

theorem GoesOn.done {part : Parse R (Formula R)} (goesOn : GoesOn part go x scan after)
    (stepped : (go x).on after = (.ok none, after)) : part.on scan = (.ok x, after) := by
  obtain ⟨fuel, -, same⟩ := goesOn
  rw [same]
  cases fuel with
  | zero => rfl
  | succ fuel => rw [chain_on, stepped]

/-- A step over an operator takes a loop further by what is read behind the operator. -/
theorem GoesOn.operated {whole part : Parse R (Formula R)} {table : Mark → Option BinaryOp}
    {between : Scan R} {mark : Mark} {op : BinaryOp} {us : List (Token R)} {y : Formula R}
    (step_on : ∀ left scan, (go left).on scan =
      match scan.operator? table with
      | some op => joined op left (part.on scan.skipped)
      | none => (.ok none, scan))
    (goesOn : GoesOn whole go x scan between) (spans : between.Spans (.mark mark :: us) after)
    (operator : table mark = some op) (part_on : part.on between.skipped = (.ok y, after)) :
    GoesOn whole go (.binary op x y) scan after := by
  obtain ⟨next, -⟩ := spans.cons
  refine goesOn.step (shorter_of_spans spans) ?_
  rw [step_on, Scan.operator?_eq_some_iff.mpr ⟨mark, next, operator⟩]
  dsimp only
  rw [part_on]
  rfl

end Loops

variable {operand : Operand R} {x : Formula R} {scan after : Scan R}

theorem juxtaposition_done
    (goesOn : GoesOn (juxtaposition operand) (factorStep operand) x scan after)
    (ends : after.EndsProduct) : (juxtaposition operand).on scan = (.ok x, after) :=
  goesOn.done (by rw [factorStep_on, ends.2]; rfl)

theorem term_done (goesOn : GoesOn (term operand) (termStep operand) x scan after)
    (ends : after.EndsTerm) : (term operand).on scan = (.ok x, after) :=
  goesOn.done (by rw [termStep_on, ends.2])

theorem sum_done (goesOn : GoesOn (sum operand) (sumStep operand) x scan after)
    (ends : after.EndsSum) : (sum operand).on scan = (.ok x, after) :=
  goesOn.done (by rw [sumStep_on, ends.2])

/-! ## Levels -/

/-- So many levels are left at a scan, and a nesting fits into them. -/
structure Fits (nesting levels : Nat) (scan : Scan R) : Prop where
  room : nesting + scan.nesting ≤ Formula.maxDepth
  levels : levels + scan.nesting = Formula.maxDepth + 1

section

variable {mark : Mark} {n m levels : Nat}

theorem Fits.left {scan : Scan R} (fits : Fits (max n m) levels scan) :
    Fits n levels scan := ⟨by have := fits.room; omega, fits.levels⟩

/-- What is read further on fits where the scan counts the same. -/
theorem Fits.right {scan between : Scan R} (fits : Fits (max n m) levels scan)
    (same : between.nesting = scan.nesting) : Fits m levels between := by
  obtain ⟨room, levels⟩ := fits
  exact ⟨by omega, by omega⟩

/-- What fits with one level more fits one level further in. -/
theorem Fits.deeper {scan : Scan R} (fits : Fits (n + 1) levels scan) :
    ∃ less, levels = less + 1 ∧ scan.nesting < Formula.maxDepth ∧
      Fits n less { scan with nesting := scan.nesting + 1 } := by
  obtain ⟨room, total⟩ := fits
  refine ⟨levels - 1, by omega, by omega, ?_, ?_⟩
  · change n + (scan.nesting + 1) ≤ _
    omega
  · change levels - 1 + (scan.nesting + 1) = _
    omega

/-- A part one level further in, when there is one left. -/
theorem deeper_done {part : Parse R (Formula R)} {scan after : Scan R}
    (room : scan.nesting < Formula.maxDepth) (same : after.nesting = scan.nesting)
    (inside : part.on { scan with nesting := scan.nesting + 1 } =
      (.ok x, { after with nesting := scan.nesting + 1 })) :
    (deeper part).on scan = (.ok x, after) := by
  rw [deeper_on, if_neg (Nat.not_le.mpr room), inside]
  dsimp only
  rw [Nat.add_sub_cancel, ← same]

/-! ## Single tokens -/

theorem nextIs_of_next? {scan : Scan R} (next : scan.next? = some (.mark mark)) :
    scan.nextIs mark = true := Scan.nextIs_eq_true_iff.mpr next

theorem primary_of_number {operand : Operand R} {scan : Scan R} {value : R}
    (next : scan.next? = some (.number value)) :
    (primary operand).on scan = (.ok (.number value), scan.skipped) := by
  rw [primary_on, next]

theorem primary_of_name {operand : Operand R} {scan : Scan R} {name : String}
    (next : scan.next? = some (.name name)) :
    (primary operand).on scan = (named operand name scan.position).on scan.skipped := by
  rw [primary_on, next]

/-- A mark that has to follow, and does. -/
theorem closing_done {what : Expected} {finish : Formula R → Formula R} {between after : Scan R}
    (spans : between.Spans [.mark mark] after) :
    closing mark what finish (.ok x, between) = (.ok (finish x), after) := by
  obtain ⟨next, rfl⟩ := spans.single
  rw [closing, if_pos (nextIs_of_next? next)]

/-- Arguments in parentheses, whatever they are. -/
theorem arguments_done {name : String} {start : Nat} {content : Parse R (Formula R)}
    {scan between after : Scan R} (next : scan.next? = some (.mark .opening))
    (inside : content.on scan.skipped = (.ok x, between))
    (spans : between.Spans [.mark .closing] after) :
    (arguments name start content).on scan = (.ok x, after) := by
  rw [arguments_on, if_pos (nextIs_of_next? next), inside]
  exact closing_done spans

end

/-! ## Derivations -/

variable [Neg R]

/-- The reader reads the tokens between two scans as a formula, as it reads a symbol. -/
def ReadsAs (levels : Nat) (x : Formula R) (scan after : Scan R) : Symbol → Prop
  | .sum _ =>
    after.EndsTerm → GoesOn (sum (operandWith levels)) (sumStep (operandWith levels)) x scan after
  | .term _ =>
    after.EndsProduct →
      GoesOn (term (operandWith levels)) (termStep (operandWith levels)) x scan after
  | .product _ =>
    after.EndsOperand →
      GoesOn (juxtaposition (operandWith levels)) (factorStep (operandWith levels)) x scan after
  | .signed _ => after.EndsOperand → (operandWith levels).signed.on scan = (.ok x, after)
  | .power _ => after.EndsOperand → (operandWith levels).power.on scan = (.ok x, after)
  | .atom => (primary (operandWith levels)).on scan = (.ok x, after)

/-- Whether a scan stands where a symbol is read: between bars or not. -/
def StandsAt (scan : Scan R) : Symbol → Prop
  | .sum b | .term b | .product b | .signed b | .power b => scan.barred = b
  | .atom => True

/-- Whatever a symbol derives with a tree is read as that tree where it stands and fits. -/
def Completes (symbol : Symbol) (ts : List (Token R)) (x : Formula R) (n : Nat) : Prop :=
  ∀ levels scan after, scan.Spans ts after → StandsAt scan symbol → Fits n levels scan →
    ReadsAs levels x scan after symbol

section Rules

variable {b : Bool} {mark : Mark} {op : BinaryOp} {ts us : List (Token R)} {x y : Formula R}
  {n m : Nat}

theorem Completes.added (left : Completes (.sum b) ts x n) (right : Completes (.term b) us y m)
    (operator : mark.additive? = some op) :
    Completes (.sum b) (ts ++ .mark mark :: us) (.binary op x y) (max n m) := by
  intro levels scan after spans stands fits ends
  obtain ⟨between, spansLeft, spansRight⟩ := spans.append
  obtain ⟨next, spansRight'⟩ := spansRight.cons
  have goesOn := left levels scan between spansLeft stands fits.left
    (Scan.endsTerm_of_additive next operator)
  have fits' : Fits m levels between.skipped := fits.right spansLeft.nesting
  have stands' : between.skipped.barred = b := spansLeft.barred.trans stands
  have term_on := term_done (right levels _ after spansRight' stands' fits' ends.1) ends
  exact goesOn.operated (sumStep_on _) spansRight operator term_on

theorem Completes.multiplied (left : Completes (.term b) ts x n)
    (right : Completes (.product b) us y m) (operator : mark.multiplicative? = some op) :
    Completes (.term b) (ts ++ .mark mark :: us) (.binary op x y) (max n m) := by
  intro levels scan after spans stands fits ends
  obtain ⟨between, spansLeft, spansRight⟩ := spans.append
  obtain ⟨next, spansRight'⟩ := spansRight.cons
  have goesOn := left levels scan between spansLeft stands fits.left
    (Scan.endsProduct_of_multiplicative next operator)
  have fits' : Fits m levels between.skipped := fits.right spansLeft.nesting
  have stands' : between.skipped.barred = b := spansLeft.barred.trans stands
  have product_on :=
    juxtaposition_done (right levels _ after spansRight' stands' fits' ends.1) ends
  exact goesOn.operated (termStep_on _) spansRight operator product_on

theorem Completes.beside {first : Token R} (left : Completes (.product b) ts x n)
    (right : Completes (.power b) (first :: us) y m) (starts : first.startsFactor b = true) :
    Completes (.product b) (ts ++ first :: us) (.binary .mul x y) (max n m) := by
  intro levels scan after spans stands fits ends
  obtain ⟨between, spansLeft, spansRight⟩ := spans.append
  obtain ⟨next, -⟩ := spansRight.cons
  have goesOn := left levels scan between spansLeft stands fits.left
    (Scan.endsOperand_of_startsFactor next starts)
  have stands' : between.barred = b := spansLeft.barred.trans stands
  have power_on := right levels between after spansRight stands' (fits.right spansLeft.nesting) ends
  have starts' : between.startsFactor = true := by
    rw [Scan.startsFactor, next, stands']
    exact starts
  refine goesOn.step (shorter_of_spans spansRight) ?_
  rw [factorStep_on, if_pos starts', power_on]
  rfl

/-! ### Operands -/

theorem Completes.negated (operand : Completes (.signed b) ts x n) :
    Completes (.signed b) (.mark .minus :: ts) (negative x) (n + 1) := by
  intro levels scan after spans stands fits ends
  obtain ⟨next, spans'⟩ := spans.cons
  obtain ⟨less, rfl, room, fits'⟩ := fits.deeper
  have fits'' : Fits n less { scan.skipped with nesting := scan.nesting + 1 } :=
    ⟨fits'.room, fits'.levels⟩
  have signed_on' := operand less { scan.skipped with nesting := scan.nesting + 1 }
    { after with nesting := scan.nesting + 1 } (spans'.withNesting _) stands fits'' ends
  have negated : (deeper (operandWith less).signed).on scan.skipped = (.ok x, after) :=
    deeper_done room spans'.nesting signed_on'
  show (signed (operandWith less)).on scan = _
  rw [signed_on, if_pos (nextIs_of_next? next), negated]

theorem Completes.ofPower (derives : Derives (.power b) ts x n)
    (power : Completes (.power b) ts x n) : Completes (.signed b) ts x n := by
  intro levels scan after spans stands fits ends
  have power_on := power levels scan after spans stands fits ends
  obtain ⟨less, rfl⟩ : ∃ less, levels = less + 1 := by
    have := fits.room
    have := fits.levels
    exact ⟨levels - 1, by omega⟩
  -- A power does not start with the sign that the reader looks for first.
  have unsigned : scan.nextIs .minus = false := by
    obtain ⟨first, us, rfl, starts⟩ := derives.power_head
    obtain ⟨next, -⟩ := spans.cons
    rw [Scan.nextIs, next]
    rcases first with _ | _ | mark
    · rfl
    · rfl
    · cases mark <;> first | rfl | cases starts
  show (signed (operandWith less)).on scan = _
  rw [signed_on, unsigned]
  exact power_on

/-- What an exponent part reads is a power, one level further out. -/
theorem Completes.power_of_exponent
    (inside : ∀ levels scan after, scan.Spans ts after → scan.barred = b → Fits n levels scan →
      after.EndsOperand → (exponent (operandWith levels)).on scan = (.ok x, after)) :
    Completes (.power b) ts x (n + 1) := by
  intro levels scan after spans stands fits ends
  obtain ⟨less, rfl, room, fits'⟩ := fits.deeper
  have exponent_on' := inside less { scan with nesting := scan.nesting + 1 }
    { after with nesting := scan.nesting + 1 } (spans.withNesting _) stands fits' ends
  exact deeper_done room spans.nesting exponent_on'

theorem Completes.ofAtom (atom : Completes .atom ts x n) : Completes (.power b) ts x (n + 1) := by
  refine power_of_exponent fun levels scan after spans _ fits ends => ?_
  have base_on : (primary (operandWith levels)).on scan = (.ok x, after) :=
    atom levels scan after spans trivial fits
  have plain : after.nextIs .caret = false := ends
  rw [exponent_on, base_on]
  dsimp only
  rw [plain]
  rfl

theorem Completes.raised (atom : Completes .atom ts x n) (exponent : Completes (.signed b) us y m) :
    Completes (.power b) (ts ++ .mark .caret :: us) (.binary .pow x y) (max n m + 1) := by
  refine power_of_exponent fun levels scan after spans stands fits ends => ?_
  obtain ⟨between, spansBase, spansCaret⟩ := spans.append
  obtain ⟨next, spansExponent⟩ := spansCaret.cons
  have base_on : (primary (operandWith levels)).on scan = (.ok x, between) :=
    atom levels scan between spansBase trivial fits.left
  have fits' : Fits m levels between.skipped := fits.right spansBase.nesting
  have exponent_on' := exponent levels between.skipped after spansExponent
    (spansBase.barred.trans stands) fits' ends
  rw [exponent_on, base_on]
  dsimp only
  rw [if_pos (nextIs_of_next? next), exponent_on']

/-! ### Atoms -/

/-- A sum between brackets is read where the brackets end it. -/
theorem bracketed_done (inner : Completes (.sum false) ts x n) {levels : Nat} {scan after : Scan R}
    (spans : scan.Spans ts after) (fits : Fits n levels scan)
    (ends : { after with bars := 0 : Scan R }.EndsSum) :
    (bracketed (sum (operandWith levels))).on scan = (.ok x, after) := by
  have fits' : Fits n levels { scan with bars := 0 } := ⟨fits.room, fits.levels⟩
  have sum_on := sum_done (inner levels { scan with bars := 0 } { after with bars := 0 }
    (spans.withBars 0) rfl fits' ends.1) ends
  rw [bracketed_on, sum_on]
  dsimp only
  rw [← spans.bars]

theorem barred_done (inner : Completes (.sum true) ts x n) {levels : Nat} {scan after : Scan R}
    (spans : scan.Spans ts after) (fits : Fits n levels scan)
    (ends : { after with bars := scan.bars + 1 : Scan R }.EndsSum) :
    (barred (sum (operandWith levels))).on scan = (.ok x, after) := by
  have fits' : Fits n levels { scan with bars := scan.bars + 1 } := ⟨fits.room, fits.levels⟩
  have stands : { scan with bars := scan.bars + 1 : Scan R }.barred = true := by
    simp [Scan.barred]
  have sum_on := sum_done (inner levels { scan with bars := scan.bars + 1 }
    { after with bars := scan.bars + 1 } (spans.withBars _) stands fits' ends.1) ends
  rw [barred_on, sum_on]
  dsimp only
  rw [Nat.add_sub_cancel, ← spans.bars]

theorem Completes.number (value : R) : Completes .atom [.number value] (.number value) 0 := by
  intro levels scan after spans _ _
  obtain ⟨next, rfl⟩ := spans.single
  exact primary_of_number next

theorem Completes.named {name : String} (free : name ∉ reservedNames) :
    Completes (R := R) .atom [.name name] (.named name) 0 := by
  intro levels scan after spans _ _
  obtain ⟨next, rfl⟩ := spans.single
  refine (primary_of_name next).trans ?_
  rw [Parse.named, meaning_free_iff.mpr free]
  rfl

theorem Completes.constant {name : String} {c : Constant} (known : (name, c) ∈ constantNames) :
    Completes (R := R) .atom [.name name] (.constant c) 0 := by
  intro levels scan after spans _ _
  obtain ⟨next, rfl⟩ := spans.single
  refine (primary_of_name next).trans ?_
  rw [Parse.named, meaning_constant_iff.mpr known]
  rfl

theorem Completes.parenthesized (inner : Completes (.sum false) ts x n) :
    Completes .atom (.mark .opening :: (ts ++ [.mark .closing])) x n := by
  intro levels scan after spans _ fits
  obtain ⟨next, spans'⟩ := spans.cons
  obtain ⟨between, spansInner, spansClosing⟩ := spans'.append
  have fits' : Fits n levels scan.skipped := ⟨fits.room, fits.levels⟩
  have inside := bracketed_done inner spansInner fits' (Scan.endsSum_of_closing spansClosing.cons.1)
  show (primary (operandWith levels)).on scan = _
  rw [primary_on, next]
  dsimp only
  rw [inside]
  exact closing_done spansClosing

theorem Completes.absolute (inner : Completes (.sum true) ts x n) :
    Completes .atom (.mark .bar :: (ts ++ [.mark .bar])) (.unary .abs x) n := by
  intro levels scan after spans _ fits
  obtain ⟨next, spans'⟩ := spans.cons
  obtain ⟨between, spansInner, spansClosing⟩ := spans'.append
  have fits' : Fits n levels scan.skipped := ⟨fits.room, fits.levels⟩
  have inside := barred_done inner spansInner fits'
    (Scan.endsSum_of_bar spansClosing.cons.1 (by simp [Scan.barred]))
  show (primary (operandWith levels)).on scan = _
  rw [primary_on, next]
  dsimp only
  rw [inside]
  exact closing_done spansClosing

/-- A function of one argument, by what its name means. -/
theorem Completes.function {name : String} {finish : Formula R → Formula R}
    (meaning : ∀ (operand : Operand R) (start : Nat), Parse.named operand name start =
      arguments name start (bracketed (sum operand) >>= fun x => pure (finish x)))
    (inner : Completes (.sum false) ts x n) :
    Completes .atom (.name name :: .mark .opening :: (ts ++ [.mark .closing])) (finish x) n := by
  intro levels scan after spans _ fits
  obtain ⟨next, spansArguments⟩ := spans.cons
  obtain ⟨opening, spans'⟩ := spansArguments.cons
  obtain ⟨between, spansInner, spansClosing⟩ := spans'.append
  have fits' : Fits n levels scan.skipped.skipped := ⟨fits.room, fits.levels⟩
  have inside := bracketed_done inner spansInner fits' (Scan.endsSum_of_closing spansClosing.cons.1)
  refine (primary_of_name next).trans ?_
  rw [meaning]
  refine arguments_done opening ?_ spansClosing
  rw [on_bind, inside]
  rfl

theorem Completes.applied {name : String} {op : UnaryOp} (known : (name, op) ∈ functionNames)
    (inner : Completes (.sum false) ts x n) :
    Completes .atom (.name name :: .mark .opening :: (ts ++ [.mark .closing])) (.unary op x) n := by
  refine .function (fun operand start => ?_) inner
  rw [Parse.named, meaning_function_iff.mpr known]

theorem Completes.naturalLogarithm (inner : Completes (.sum false) ts x n) :
    Completes .atom (.name "ln" :: .mark .opening :: (ts ++ [.mark .closing]))
      (.binary .log (.constant .euler) x) n := by
  refine .function (fun operand start => ?_) inner
  rw [Parse.named, meaning_naturalLogarithm_iff.mpr rfl]

theorem Completes.logarithm (base : Completes (.sum false) ts x n)
    (antilogarithm : Completes (.sum false) us y m) :
    Completes .atom
      (.name "log" :: .mark .opening :: (ts ++ .mark .comma :: (us ++ [.mark .closing])))
      (.binary .log x y) (max n m) := by
  intro levels scan after spans _ fits
  obtain ⟨next, spansArguments⟩ := spans.cons
  obtain ⟨opening, spans'⟩ := spansArguments.cons
  obtain ⟨afterBase, spansBase, spansComma⟩ := spans'.append
  obtain ⟨comma, spans''⟩ := spansComma.cons
  obtain ⟨between, spansOther, spansClosing⟩ := spans''.append
  have fits' : Fits (max n m) levels scan.skipped.skipped := ⟨fits.room, fits.levels⟩
  have base_on := bracketed_done base spansBase fits'.left (Scan.endsSum_of_comma comma)
  have fits'' : Fits m levels afterBase.skipped := fits'.right spansBase.nesting
  have other_on := bracketed_done antilogarithm spansOther fits''
    (Scan.endsSum_of_closing spansClosing.cons.1)
  refine (primary_of_name next).trans ?_
  rw [Parse.named, meaning_logarithm_iff.mpr rfl]
  refine arguments_done opening ?_ spansClosing
  rw [on_bind, base_on]
  dsimp only
  rw [on_bind, expect_on, if_pos (nextIs_of_next? comma)]
  dsimp only
  rw [on_bind, other_on]
  rfl

end Rules

theorem complete {symbol : Symbol} {ts : List (Token R)} {x : Formula R} {n : Nat}
    (derives : Derives symbol ts x n) : Completes symbol ts x n := by
  induction derives with
  | ofTerm _ ih =>
      intro levels scan after spans stands fits ends
      have goesOn := ih levels scan after spans stands fits ends.1
      exact goesOn_of_first (term_done goesOn ends)
  | ofProduct _ ih =>
      intro levels scan after spans stands fits ends
      have goesOn := ih levels scan after spans stands fits ends.1
      exact goesOn_of_first (juxtaposition_done goesOn ends)
  | ofSigned _ ih =>
      intro levels scan after spans stands fits ends
      exact goesOn_of_first (ih levels scan after spans stands fits ends)
  | added operator _ _ left right => exact left.added right operator
  | multiplied operator _ _ left right => exact left.multiplied right operator
  | beside starts _ _ left right => exact left.beside right starts
  | ofPower derives power => exact .ofPower derives power
  | negativeNumber _ operand => exact operand.negated
  | negated other _ operand => exact negative_of_ne other ▸ operand.negated
  | ofAtom _ atom => exact atom.ofAtom
  | raised _ _ atom exponent => exact atom.raised exponent
  | number value => exact .number value
  | named free => exact .named free
  | constant known => exact .constant known
  | parenthesized _ inner => exact inner.parenthesized
  | absolute _ inner => exact inner.absolute
  | applied known _ inner => exact inner.applied known
  | naturalLogarithm _ inner => exact inner.naturalLogarithm
  | logarithm _ _ base antilogarithm => exact base.logarithm antilogarithm

/-- A sum that is derived with a nesting that fits is read where something ends it. -/
theorem formula_complete {ts : List (Token R)} {x : Formula R} {n : Nat} {scan after : Scan R}
    (derives : Derives (.sum false) ts x n) (spans : scan.Spans ts after)
    (stands : scan.barred = false) (room : n + scan.nesting ≤ Formula.maxDepth)
    (ends : after.EndsSum) : formula.on scan = (.ok x, after) := by
  have fits : Fits n (Formula.maxDepth + 1 - scan.nesting) scan := ⟨room, by omega⟩
  rw [formula_on]
  exact sum_done (complete derives _ scan after spans stands fits ends.1) ends

end Parse

/-! ## Whole formulas -/

namespace Formula

variable {R : Type} [OfScientific R] [Neg R]

/-- A list of tokens is a formula with this tree: it is not too long, a sum derives it with a
nesting that is not too great, and the tree is not too deep. -/
structure Grammatical (tokens : List (PlacedToken R)) (x : Formula R) : Prop where
  length : tokens.length ≤ 4096
  derived : ∃ n ≤ 256, Derives (.sum false) (tokens.map (·.token)) x n
  depth : x.depth ≤ 256

omit [OfScientific R] in
theorem formula_on_iff {tokens : List (PlacedToken R)} {stop : Nat} {x : Formula R} :
    (∃ after, Parse.formula.on ⟨tokens, stop, 0, 0⟩ = (.ok x, after) ∧ after.rest = []) ↔
      ∃ n ≤ maxDepth, Derives (.sum false) (tokens.map (·.token)) x n := by
  constructor
  · rintro ⟨after, read_on, ended⟩
    obtain ⟨read, n, passes, derives, fits⟩ := Parse.formula_sound read_on
    have all : tokens = read := by
      have rest := passes.rest
      rw [ended, List.append_nil] at rest
      exact rest
    rw [all]
    exact ⟨n, fits, derives⟩
  · rintro ⟨n, fits, derives⟩
    have spans : Scan.Spans ⟨tokens, stop, 0, 0⟩ (tokens.map (·.token)) ⟨[], stop, 0, 0⟩ :=
      ⟨tokens, ⟨(List.append_nil tokens).symm, rfl, rfl, rfl⟩, rfl⟩
    exact ⟨_, Parse.formula_complete derives spans rfl fits (Scan.endsSum_of_none rfl), rfl⟩

omit [OfScientific R] in
/-- A list of tokens is read as what the reader reads of it, when that is all of it and not too
deep. -/
theorem ofTokens_eq_ok_iff_on {tokens : List (PlacedToken R)} {stop : Nat} {x : Formula R} :
    ofTokens tokens stop = .ok x ↔
      (∃ after, Parse.formula.on ⟨tokens, stop, 0, 0⟩ = (.ok x, after) ∧ after.rest = []) ∧
        x.depth ≤ maxDepth := by
  rcases ran : Parse.formula.on ⟨tokens, stop, 0, 0⟩ with ⟨result, after⟩
  rw [Parse.on] at ran
  rw [ofTokens, ran]
  dsimp only [bind]
  cases result with
  | error fault =>
      constructor
      · intro parsed
        cases parsed
      · rintro ⟨⟨after', read_on, _⟩, _⟩
        cases read_on
  | ok formula =>
      simp only [Except.bind]
      cases rest : after.rest with
      | nil =>
          by_cases deep : maxDepth < formula.depth
          · simp only [deep, if_true]
            constructor
            · intro parsed
              cases parsed
            · rintro ⟨⟨after', read_on, _⟩, shallow⟩
              cases read_on
              omega
          · simp only [deep, if_false]
            constructor
            · intro parsed
              cases parsed
              exact ⟨⟨after, rfl, rest⟩, by omega⟩
            · rintro ⟨⟨after', read_on, _⟩, _⟩
              cases read_on
              rfl
      | cons extra others =>
          constructor
          · intro parsed
            cases parsed
          · rintro ⟨⟨after', read_on, ended⟩, _⟩
            cases read_on
            rw [rest] at ended
            cases ended

omit [OfScientific R] in
theorem ofTokens_eq_ok_iff {tokens : List (PlacedToken R)} {stop : Nat} {x : Formula R} :
    ofTokens tokens stop = .ok x ↔
      (∃ n ≤ maxDepth, Derives (.sum false) (tokens.map (·.token)) x n) ∧ x.depth ≤ maxDepth := by
  rw [ofTokens_eq_ok_iff_on, formula_on_iff]

theorem parse_eq_ok_iff_ofTokens {text : String} {x : Formula R} :
    parse text = .ok x ↔ ∃ tokens : List (PlacedToken R), tokenize text.toList = .ok tokens ∧
      tokens.length ≤ maxTokens ∧ ofTokens tokens (Text.byteLength text.toList) = .ok x := by
  rw [parse]
  dsimp only [bind]
  rcases tokenize (R := R) text.toList with fault | tokens
  · constructor
    · intro parsed
      cases parsed
    · rintro ⟨tokens, tokenized, _⟩
      cases tokenized
  · simp only [Except.bind]
    cases at_limit : tokens[maxTokens]? with
    | none =>
        have fits : tokens.length ≤ maxTokens := List.getElem?_eq_none_iff.mp at_limit
        constructor
        · intro parsed
          exact ⟨tokens, rfl, fits, parsed⟩
        · rintro ⟨tokens', tokenized, _, parsed⟩
          cases tokenized
          exact parsed
    | some extra =>
        have long : maxTokens < tokens.length := (List.getElem?_eq_some_iff.mp at_limit).1
        constructor
        · intro parsed
          cases parsed
        · rintro ⟨tokens', tokenized, fits, _⟩
          cases tokenized
          omega

/-- **Reading is parsing.** A text is read as a formula exactly when its tokens are grammatical with
that tree. No list of tokens is grammatical with two trees. -/
theorem parse_eq_ok_iff (text : String) (x : Formula R) :
    (parse text = .ok x ↔ ∃ tokens, tokenize text.toList = .ok tokens ∧ Grammatical tokens x) ∧
      ∀ (tokens : List (PlacedToken R)) (y : Formula R),
        Grammatical tokens x → Grammatical tokens y → x = y := by
  constructor
  · rw [parse_eq_ok_iff_ofTokens]
    constructor
    · rintro ⟨tokens, tokenized, fits, read⟩
      obtain ⟨derived, shallow⟩ := ofTokens_eq_ok_iff.mp read
      exact ⟨tokens, tokenized, fits, derived, shallow⟩
    · rintro ⟨tokens, tokenized, fits, derived, shallow⟩
      exact ⟨tokens, tokenized, fits, ofTokens_eq_ok_iff.mpr ⟨derived, shallow⟩⟩
  · intro tokens y ⟨_, derived, shallow⟩ ⟨_, derived', shallow'⟩
    have read : ofTokens tokens 0 = .ok x := ofTokens_eq_ok_iff.mpr ⟨derived, shallow⟩
    have read' : ofTokens tokens 0 = .ok y := ofTokens_eq_ok_iff.mpr ⟨derived', shallow'⟩
    rw [read] at read'
    cases read'
    rfl

end Formula

end Tonegraph
