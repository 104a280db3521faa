import Tonegraph.Proofs.Formula.Grammar
/-!
# What the reader does

`Parse.on` runs a part of the reader on a scan: it gives the part's result and the scan after it.
For each part one equation says what that is. The loops over operators are `chain_on`, and
`sumStep_on`, `termStep_on` and `factorStep_on` are the three ways to go on from a formula.
-/

set_option autoImplicit false

namespace Tonegraph

namespace Scan

variable {R : Type}

/-- The next token. -/
def next? (scan : Scan R) : Option (Token R) := scan.rest.head?.map (·.token)

/-- The place of the next token, or the end of the text. -/
def position (scan : Scan R) : Nat := (scan.rest.head?.map (·.position)).getD scan.stop

/-- The scan behind the next token. -/
def skipped (scan : Scan R) : Scan R := { scan with rest := scan.rest.tail }

/-- Whether the next token is a mark. -/
def nextIs (scan : Scan R) (mark : Mark) : Bool :=
  match scan.next? with
  | some (.mark found) => found = mark
  | _ => false

/-- Whether the scan stands directly between bars. -/
def barred (scan : Scan R) : Bool := scan.bars ≠ 0

/-- Whether the next token starts a further factor. -/
def startsFactor (scan : Scan R) : Bool :=
  match scan.next? with
  | some token => token.startsFactor scan.barred
  | none => false

/-- The operation of the next token, by a table of the marks that are operators. -/
def operator? (scan : Scan R) (table : Mark → Option BinaryOp) : Option BinaryOp :=
  match scan.next? with
  | some (.mark mark) => table mark
  | _ => none

end Scan

namespace Parse

variable {R α β : Type}

/-- What a part of the reader gives on a scan, and the scan after it. -/
def on (part : Parse R α) (scan : Scan R) : Except SyntaxError α × Scan R := part.run.run scan

@[simp] theorem on_bind (part : Parse R α) (next : α → Parse R β) (scan : Scan R) :
    (part >>= next).on scan =
      match part.on scan with
      | (.ok a, after) => (next a).on after
      | (.error e, after) => (.error e, after) := by
  show (match part scan with | (a, s) => ExceptT.bindCont next a s) =
    match part scan with
    | (.ok a, after) => next a after
    | (.error e, after) => (.error e, after)
  rcases part scan with ⟨_ | _, _⟩ <;> rfl

@[simp] theorem on_pure (a : α) (scan : Scan R) : (pure a : Parse R α).on scan = (.ok a, scan) :=
  rfl

@[simp] theorem on_throw (e : SyntaxError) (scan : Scan R) :
    (throw e : Parse R α).on scan = (.error e, scan) := rfl

@[simp] theorem on_get (scan : Scan R) : (get : Parse R (Scan R)).on scan = (.ok scan, scan) := rfl

/-! ## Single tokens -/

@[simp] theorem next?_on (scan : Scan R) : next?.on scan = (.ok scan.next?, scan) := rfl

@[simp] theorem position_on (scan : Scan R) : position.on scan = (.ok scan.position, scan) := rfl

@[simp] theorem skip_on (scan : Scan R) : skip.on scan = (.ok (), scan.skipped) := rfl

@[simp] theorem fail_on (fault : SyntaxFault) (scan : Scan R) :
    (fail fault : Parse R α).on scan = (.error ⟨fault, scan.position⟩, scan) := rfl

@[simp] theorem nextIs_on (mark : Mark) (scan : Scan R) :
    (nextIs mark).on scan = (.ok (scan.nextIs mark), scan) := by
  simp only [nextIs, on_bind, next?_on, Scan.nextIs]
  split <;> simp_all

theorem expect_on (mark : Mark) (what : Expected) (scan : Scan R) :
    (expect mark what).on scan =
      if scan.nextIs mark then (.ok (), scan.skipped)
      else (.error ⟨.missing what, scan.position⟩, scan) := by
  simp only [expect, on_bind, nextIs_on]
  split <;> rfl

/-! ## Brackets and levels -/

theorem within_on (enter : Scan R → Scan R) (leave : Scan R → Scan R → Scan R) (part : Parse R α)
    (scan : Scan R) :
    (within enter leave part).on scan =
      ((part.on (enter scan)).1, leave scan (part.on (enter scan)).2) := rfl

theorem bracketed_on (part : Parse R α) (scan : Scan R) :
    (bracketed part).on scan =
      ((part.on { scan with bars := 0 }).1,
        { (part.on { scan with bars := 0 }).2 with bars := scan.bars }) :=
  within_on _ _ part scan

theorem barred_on (part : Parse R α) (scan : Scan R) :
    (barred part).on scan =
      let outcome := part.on { scan with bars := scan.bars + 1 }
      (outcome.1, { outcome.2 with bars := outcome.2.bars - 1 }) :=
  within_on _ _ part scan

theorem deeper_on (part : Parse R α) (scan : Scan R) :
    (deeper part).on scan =
      if Formula.maxDepth ≤ scan.nesting then (.error ⟨.tooDeep, scan.position⟩, scan)
      else
        let outcome := part.on { scan with nesting := scan.nesting + 1 }
        (outcome.1, { outcome.2 with nesting := outcome.2.nesting - 1 }) := by
  simp only [deeper, on_bind, on_get]
  split
  · rfl
  · exact within_on _ _ part scan

/-! ## Chains -/

theorem chain_on (step : Formula R → Parse R (Option (Formula R))) (fuel : Nat) (left : Formula R)
    (scan : Scan R) :
    (chain step (fuel + 1) left).on scan =
      match (step left).on scan with
      | (.ok (some longer), after) => (chain step fuel longer).on after
      | (.ok none, after) => (.ok left, after)
      | (.error e, after) => (.error e, after) := by
  rw [chain, on_bind]
  rcases (step left).on scan with ⟨_ | (_ | _), _⟩ <;> rfl

theorem leftChain_on (first : Parse R (Formula R))
    (step : Formula R → Parse R (Option (Formula R))) (scan : Scan R) :
    (leftChain first step).on scan =
      match first.on scan with
      | (.ok left, after) => (chain step after.rest.length left).on after
      | (.error e, after) => (.error e, after) := by
  rw [leftChain, on_bind]
  rcases first.on scan with ⟨_ | _, _⟩ <;> rfl

/-- A formula that goes on with an operation and what was read as its second operand. -/
def joined (op : BinaryOp) (left : Formula R) :
    Except SyntaxError (Formula R) × Scan R → Except SyntaxError (Option (Formula R)) × Scan R
  | (.ok right, after) => (.ok (some (.binary op left right)), after)
  | (.error e, after) => (.error e, after)

theorem joined_on (op : BinaryOp) (left : Formula R) (part : Parse R (Formula R)) (scan : Scan R) :
    (part >>= fun right => (pure (some (.binary op left right)) : Parse R _)).on scan =
      joined op left (part.on scan) := by
  rw [on_bind]
  rcases part.on scan with ⟨_ | _, _⟩ <;> rfl

section Steps

variable (operand : Operand R) (left : Formula R) (scan : Scan R)

theorem factorStep_on :
    (factorStep operand left).on scan =
      if scan.startsFactor then joined .mul left (operand.power.on scan)
      else (.ok none, scan) := by
  rw [factorStep, on_bind, next?_on]
  unfold Scan.startsFactor
  rcases scan.next? with _ | (_ | _ | mark)
  · rfl
  · exact joined_on .mul left operand.power scan
  · exact joined_on .mul left operand.power scan
  · cases mark with
    | opening => exact joined_on .mul left operand.power scan
    | bar =>
        by_cases open' : scan.bars = 0
        · simpa [Token.startsFactor, Scan.barred, open'] using
            joined_on .mul left operand.power scan
        · simp [Token.startsFactor, Scan.barred, open']
    | _ => rfl

theorem termStep_on :
    (termStep operand left).on scan =
      match scan.operator? Mark.multiplicative? with
      | some op => joined op left ((juxtaposition operand).on scan.skipped)
      | none => (.ok none, scan) := by
  rw [termStep, on_bind, next?_on]
  unfold Scan.operator?
  rcases scan.next? with _ | (_ | _ | mark)
  · rfl
  · rfl
  · rfl
  · cases mark with
    | star => exact joined_on .mul left (juxtaposition operand) scan.skipped
    | slash => exact joined_on .div left (juxtaposition operand) scan.skipped
    | percent => exact joined_on .mod left (juxtaposition operand) scan.skipped
    | _ => rfl

theorem sumStep_on :
    (sumStep operand left).on scan =
      match scan.operator? Mark.additive? with
      | some op => joined op left ((term operand).on scan.skipped)
      | none => (.ok none, scan) := by
  rw [sumStep, on_bind, next?_on]
  unfold Scan.operator?
  rcases scan.next? with _ | (_ | _ | mark)
  · rfl
  · rfl
  · rfl
  · cases mark with
    | plus => exact joined_on .add left (term operand) scan.skipped
    | minus => exact joined_on .sub left (term operand) scan.skipped
    | _ => rfl

end Steps

/-! ## Operands -/

section Operands

variable (operand : Operand R) (scan : Scan R)

theorem signed_on [Neg R] :
    (signed operand).on scan =
      if scan.nextIs .minus then
        match (deeper operand.signed).on scan.skipped with
        | (.ok x, after) => (.ok (negative x), after)
        | (.error e, after) => (.error e, after)
      else (power operand).on scan := by
  rw [signed, on_bind, nextIs_on]
  cases scan.nextIs .minus with
  | true =>
      simp only [if_true, on_bind, skip_on]
      rcases (deeper operand.signed).on scan.skipped with ⟨_ | _, _⟩ <;> rfl
  | false => rfl

theorem exponent_on :
    (exponent operand).on scan =
      match (primary operand).on scan with
      | (.ok base, after) =>
        if after.nextIs .caret then
          match operand.signed.on after.skipped with
          | (.ok x, after) => (.ok (.binary .pow base x), after)
          | (.error e, after) => (.error e, after)
        else (.ok base, after)
      | (.error e, after) => (.error e, after) := by
  rw [exponent, on_bind]
  rcases (primary operand).on scan with ⟨_ | base, after⟩
  · rfl
  · simp only [on_bind, nextIs_on]
    cases after.nextIs .caret with
    | true =>
        simp only [if_true, on_bind, skip_on]
        rcases operand.signed.on after.skipped with ⟨_ | _, _⟩ <;> rfl
    | false => rfl

/-- What was read, made into another formula, when a mark follows that is passed over too. -/
def closing (mark : Mark) (what : Expected) (finish : Formula R → Formula R) :
    Except SyntaxError (Formula R) × Scan R → Except SyntaxError (Formula R) × Scan R
  | (.ok x, after) =>
    if after.nextIs mark then (.ok (finish x), after.skipped)
    else (.error ⟨.missing what, after.position⟩, after)
  | (.error e, after) => (.error e, after)

theorem closing_on (part : Parse R (Formula R)) (mark : Mark) (what : Expected)
    (finish : Formula R → Formula R) :
    (part >>= fun x => expect mark what >>= fun _ => (pure (finish x) : Parse R _)).on scan =
      closing mark what finish (part.on scan) := by
  rw [on_bind]
  rcases part.on scan with ⟨_ | x, after⟩
  · rfl
  · simp only [on_bind, expect_on, closing]
    cases after.nextIs mark <;> rfl

theorem arguments_on (name : String) (start : Nat) (content : Parse R (Formula R)) :
    (arguments name start content).on scan =
      if scan.nextIs .opening then
        closing .closing .closingParenthesis id (content.on scan.skipped)
      else (.error ⟨.argumentsMissing name, start⟩, scan) := by
  rw [arguments, on_bind, nextIs_on]
  cases scan.nextIs .opening with
  | true => exact closing_on scan.skipped content .closing .closingParenthesis id
  | false => rfl

theorem primary_on :
    (primary operand).on scan =
      match scan.next? with
      | none => (.error ⟨.endOfInput, scan.position⟩, scan)
      | some (.number value) => (.ok (.number value), scan.skipped)
      | some (.name name) => (named operand name scan.position).on scan.skipped
      | some (.mark .opening) =>
        closing .closing .closingParenthesis id ((bracketed (sum operand)).on scan.skipped)
      | some (.mark .bar) =>
        closing .bar .closingBar (.unary .abs) ((barred (sum operand)).on scan.skipped)
      | some (.mark _) => (.error ⟨.operandMissing, scan.position⟩, scan.skipped) := by
  simp only [primary, on_bind, position_on, next?_on]
  rcases scan.next? with _ | (_ | _ | mark)
  · rfl
  · rfl
  · rfl
  · cases mark with
    | opening =>
        exact closing_on scan.skipped (bracketed (sum operand)) .closing .closingParenthesis id
    | bar => exact closing_on scan.skipped (barred (sum operand)) .bar .closingBar (.unary .abs)
    | _ => rfl

theorem formula_on [Neg R] :
    formula.on scan = (sum (operandWith (Formula.maxDepth + 1 - scan.nesting))).on scan := by
  rw [formula, on_bind, on_get]

end Operands

end Parse

end Tonegraph
