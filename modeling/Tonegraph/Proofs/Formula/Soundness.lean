import Tonegraph.Proofs.Formula.Reading
/-!
# What is read is derived

If a part of the reader succeeds, it has passed over tokens that its symbol derives, with the tree
that it gives, and the nesting of the derivation fits under the levels left (`Parse.Sound`). The
proof goes from the loops (`leftChain_sound`) over the operands to the levels (`operandWith_sound`):
operands with so many levels are sound when those with one level less are.

The scan behind a part has lost the tokens passed over and nothing else (`Scan.Passes`); so the
bars and levels counted on the way in are uncounted on the way out.
-/

set_option autoImplicit false

namespace Tonegraph

namespace Scan

variable {R : Type}

/-- One scan comes from another by passing over tokens. -/
structure Passes (before : Scan R) (read : List (PlacedToken R)) (after : Scan R) : Prop where
  rest : before.rest = read ++ after.rest
  stop : after.stop = before.stop
  bars : after.bars = before.bars
  nesting : after.nesting = before.nesting

theorem Passes.refl (scan : Scan R) : scan.Passes [] scan := ⟨rfl, rfl, rfl, rfl⟩

theorem Passes.trans {a b c : Scan R} {first second : List (PlacedToken R)}
    (left : a.Passes first b) (right : b.Passes second c) : a.Passes (first ++ second) c where
  rest := by rw [left.rest, right.rest, List.append_assoc]
  stop := right.stop.trans left.stop
  bars := right.bars.trans left.bars
  nesting := right.nesting.trans left.nesting

theorem Passes.barred {before after : Scan R} {read : List (PlacedToken R)}
    (passes : before.Passes read after) : after.barred = before.barred := by
  rw [Scan.barred, Scan.barred, passes.bars]

theorem next?_eq_some_iff {scan : Scan R} {token : Token R} :
    scan.next? = some token ↔
      ∃ placed, placed.token = token ∧ scan.Passes [placed] scan.skipped := by
  unfold next? skipped
  constructor
  · intro next
    cases rest : scan.rest with
    | nil => simp [rest] at next
    | cons placed others =>
        simp only [rest, List.head?_cons, Option.map_some, Option.some.injEq] at next
        exact ⟨placed, next, by simp [rest], rfl, rfl, rfl⟩
  · rintro ⟨placed, rfl, passes⟩
    rw [passes.rest]
    rfl

theorem nextIs_eq_true_iff {scan : Scan R} {mark : Mark} :
    scan.nextIs mark = true ↔ scan.next? = some (.mark mark) := by
  unfold nextIs
  rcases scan.next? with _ | (_ | _ | found) <;> simp

theorem operator?_eq_some_iff {scan : Scan R} {table : Mark → Option BinaryOp} {op : BinaryOp} :
    scan.operator? table = some op ↔
      ∃ mark, scan.next? = some (.mark mark) ∧ table mark = some op := by
  unfold operator?
  rcases scan.next? with _ | (_ | _ | found) <;> simp

end Scan

namespace Parse

variable {R : Type}

/-! ## Parts that succeed -/

theorem joined_eq_ok {op : BinaryOp} {left : Formula R} {longer : Option (Formula R)}
    {outcome : Except SyntaxError (Formula R) × Scan R} {after : Scan R}
    (succeeded : joined op left outcome = (.ok longer, after)) :
    ∃ right, outcome = (.ok right, after) ∧ longer = some (.binary op left right) := by
  rcases outcome with ⟨_ | right, _⟩
  · cases succeeded
  · cases succeeded
    exact ⟨right, rfl, rfl⟩

/-- A part one level further in passes over the same tokens, and there was a level left. -/
theorem deeper_eq_ok {α : Type} {part : Parse R α} {scan after : Scan R} {x : α}
    (succeeded : (deeper part).on scan = (.ok x, after)) :
    scan.nesting < Formula.maxDepth ∧ ∃ between,
      part.on { scan with nesting := scan.nesting + 1 } = (.ok x, between) ∧
        ∀ read, { scan with nesting := scan.nesting + 1 : Scan R }.Passes read between →
          scan.Passes read after := by
  rw [deeper_on] at succeeded
  split at succeeded
  · cases succeeded
  · rename_i room
    rcases inside : part.on { scan with nesting := scan.nesting + 1 } with ⟨result, between⟩
    rw [inside] at succeeded
    cases succeeded
    refine ⟨by omega, between, rfl, fun read passes => ?_⟩
    have uncounted : between.nesting - 1 = scan.nesting := by
      rw [passes.nesting]
      rfl
    exact ⟨passes.rest, passes.stop, passes.bars, uncounted⟩

theorem closing_eq_ok {mark : Mark} {what : Expected} {finish : Formula R → Formula R}
    {outcome : Except SyntaxError (Formula R) × Scan R} {y : Formula R} {after : Scan R}
    (succeeded : closing mark what finish outcome = (.ok y, after)) :
    ∃ x between placed, outcome = (.ok x, between) ∧ y = finish x ∧ placed.token = .mark mark ∧
      between.Passes [placed] after := by
  rcases outcome with ⟨_ | x, between⟩
  · cases succeeded
  · simp only [closing] at succeeded
    split at succeeded
    · rename_i follows
      cases succeeded
      obtain ⟨placed, token, passes⟩ :=
        Scan.next?_eq_some_iff.mp (Scan.nextIs_eq_true_iff.mp follows)
      exact ⟨x, between, placed, rfl, rfl, token, passes⟩
    · cases succeeded

theorem bind_eq_ok {α β : Type} {part : Parse R α} {next : α → Parse R β} {scan after : Scan R}
    {y : β} (succeeded : (part >>= next).on scan = (.ok y, after)) :
    ∃ x between, part.on scan = (.ok x, between) ∧ (next x).on between = (.ok y, after) := by
  rw [on_bind] at succeeded
  rcases outcome : part.on scan with ⟨_ | x, between⟩
  · rw [outcome] at succeeded
    cases succeeded
  · rw [outcome] at succeeded
    exact ⟨x, between, rfl, succeeded⟩

theorem expect_eq_ok {mark : Mark} {what : Expected} {scan after : Scan R} {u : Unit}
    (succeeded : (expect mark what).on scan = (.ok u, after)) :
    ∃ placed, placed.token = .mark mark ∧ scan.Passes [placed] after := by
  rw [expect_on] at succeeded
  split at succeeded
  · rename_i follows
    cases succeeded
    exact Scan.next?_eq_some_iff.mp (Scan.nextIs_eq_true_iff.mp follows)
  · cases succeeded

/-- Arguments stand in parentheses, whatever they are. -/
theorem arguments_eq_ok {name : String} {start : Nat} {content : Parse R (Formula R)}
    {scan after : Scan R} {x : Formula R}
    (succeeded : (arguments name start content).on scan = (.ok x, after)) :
    ∃ first between last, first.token = .mark .opening ∧ scan.Passes [first] scan.skipped ∧
      content.on scan.skipped = (.ok x, between) ∧ last.token = .mark .closing ∧
      between.Passes [last] after := by
  rw [arguments_on] at succeeded
  split at succeeded
  · rename_i follows
    obtain ⟨first, token, passes⟩ :=
      Scan.next?_eq_some_iff.mp (Scan.nextIs_eq_true_iff.mp follows)
    obtain ⟨x, between, last, inside, rfl, token', passes'⟩ := closing_eq_ok succeeded
    exact ⟨first, between, last, token, passes, inside, token', passes'⟩
  · cases succeeded

variable [Neg R]

/-! ## Soundness -/

/-- Between two scans tokens were read that a symbol derives, with a nesting that fits. -/
def Reads (symbol : Symbol) (x : Formula R) (before after : Scan R) : Prop :=
  ∃ (read : List (PlacedToken R)) (n : Nat), before.Passes read after ∧
    Derives symbol (read.map (·.token)) x n ∧ n + before.nesting ≤ Formula.maxDepth

/-- What a part reads at a level is derived from its symbol. -/
def Sound (part : Parse R (Formula R)) (symbol : Bool → Symbol) (nesting : Nat) : Prop :=
  ∀ scan x after, scan.nesting = nesting → part.on scan = (.ok x, after) →
    Reads (symbol scan.barred) x scan after

theorem Sound.mono {part : Parse R (Formula R)} {symbol symbol' : Bool → Symbol} {nesting : Nat}
    (sound : Sound part symbol nesting)
    (rule : ∀ {b : Bool} {ts : List (Token R)} {x : Formula R} {n : Nat},
      Derives (symbol b) ts x n → Derives (symbol' b) ts x n) : Sound part symbol' nesting := by
  intro scan x after level succeeded
  obtain ⟨read, n, passes, derives, fits⟩ := sound scan x after level succeeded
  exact ⟨read, n, passes, rule derives, fits⟩

/-! ## Loops -/

/-- A step that goes on from a formula reads what makes of a derivation a longer one; a step that
does not reads nothing. -/
def Extends (step : Formula R → Parse R (Option (Formula R))) (symbol : Bool → Symbol)
    (nesting : Nat) : Prop :=
  ∀ left before scan longer after, before.nesting = nesting →
    Reads (symbol before.barred) left before scan →
    (step left).on scan = (.ok longer, after) →
      Reads (symbol before.barred) (longer.getD left) before after

theorem chain_sound {step : Formula R → Parse R (Option (Formula R))} {symbol : Bool → Symbol}
    {nesting : Nat} (goesOn : Extends step symbol nesting) {before : Scan R}
    (level : before.nesting = nesting) (fuel : Nat) {left x : Formula R} {scan after : Scan R}
    (reads : Reads (symbol before.barred) left before scan)
    (succeeded : (chain step fuel left).on scan = (.ok x, after)) :
    Reads (symbol before.barred) x before after := by
  induction fuel generalizing left scan with
  | zero =>
      cases succeeded
      exact reads
  | succ fuel ih =>
      rw [chain_on] at succeeded
      rcases stepped : (step left).on scan with ⟨_ | longer, between⟩
      · rw [stepped] at succeeded
        cases succeeded
      · have reads' := goesOn left before scan longer between level reads stepped
        rw [stepped] at succeeded
        cases longer with
        | none =>
            cases succeeded
            exact reads'
        | some longer => exact ih reads' succeeded

theorem leftChain_sound {first : Parse R (Formula R)}
    {step : Formula R → Parse R (Option (Formula R))} {symbol : Bool → Symbol} {nesting : Nat}
    (sound : Sound first symbol nesting) (goesOn : Extends step symbol nesting) :
    Sound (leftChain first step) symbol nesting := by
  intro scan x after level succeeded
  rw [leftChain_on] at succeeded
  rcases began : first.on scan with ⟨_ | left, between⟩
  · rw [began] at succeeded
    cases succeeded
  · rw [began] at succeeded
    exact chain_sound goesOn level _ (sound scan left between level began) succeeded

/-- A step over an operator goes on, when the grammar has the rule for it. -/
theorem operatorStep_extends {step : Formula R → Parse R (Option (Formula R))}
    {part : Parse R (Formula R)} {table : Mark → Option BinaryOp} {symbol inner : Bool → Symbol}
    {nesting : Nat} (sound : Sound part inner nesting)
    (step_on : ∀ left scan, (step left).on scan =
      match scan.operator? table with
      | some op => joined op left (part.on scan.skipped)
      | none => (.ok none, scan))
    (rule : ∀ {b : Bool} {mark : Mark} {op : BinaryOp} {ts us : List (Token R)} {x y : Formula R}
      {n m : Nat}, table mark = some op → Derives (symbol b) ts x n → Derives (inner b) us y m →
        Derives (symbol b) (ts ++ .mark mark :: us) (.binary op x y) (max n m)) :
    Extends step symbol nesting := by
  intro left before scan longer after level reads stepped
  rw [step_on] at stepped
  cases found : scan.operator? table with
  | none =>
      rw [found] at stepped
      cases stepped
      exact reads
  | some op =>
      rw [found] at stepped
      obtain ⟨right, part_on, rfl⟩ := joined_eq_ok stepped
      obtain ⟨mark, next, operator⟩ := Scan.operator?_eq_some_iff.mp found
      obtain ⟨placed, token, passed⟩ := Scan.next?_eq_some_iff.mp next
      obtain ⟨read, n, passes, derives, fits⟩ := reads
      have level' : scan.skipped.nesting = nesting :=
        passed.nesting.trans (passes.nesting.trans level)
      obtain ⟨read', m, passes', derives', fits'⟩ := sound _ _ _ level' part_on
      rw [passed.barred, passes.barred] at derives'
      refine ⟨read ++ placed :: read', max n m, passes.trans (passed.trans passes'), ?_, by omega⟩
      rw [List.map_append, List.map_cons, token]
      exact rule operator derives derives'

theorem factorStep_extends {operand : Operand R} {nesting : Nat}
    (sound : Sound operand.power .power nesting) :
    Extends (factorStep operand) .product nesting := by
  intro left before scan longer after level reads stepped
  rw [factorStep_on] at stepped
  cases starts : scan.startsFactor with
  | false =>
      rw [starts] at stepped
      cases stepped
      exact reads
  | true =>
      rw [starts, if_pos rfl] at stepped
      obtain ⟨right, power_on, rfl⟩ := joined_eq_ok stepped
      obtain ⟨read, n, passes, derives, fits⟩ := reads
      have level' : scan.nesting = nesting := passes.nesting.trans level
      obtain ⟨read', m, passes', derives', fits'⟩ := sound _ _ _ level' power_on
      rw [passes.barred] at derives'
      obtain ⟨first, us, head, -⟩ := derives'.power_head
      have next : scan.next? = some first := by
        rw [Scan.next?, passes'.rest, ← List.head?_map, List.map_append, head]
        rfl
      simp only [Scan.startsFactor, next, passes.barred] at starts
      rw [head] at derives'
      refine ⟨read ++ read', max n m, passes.trans passes', ?_, by omega⟩
      rw [List.map_append, head]
      exact .beside starts derives derives'

section Sums

variable {operand : Operand R} {nesting : Nat} (signed : Sound operand.signed .signed nesting)
  (power : Sound operand.power .power nesting)

include signed power

theorem juxtaposition_sound : Sound (juxtaposition operand) .product nesting :=
  leftChain_sound (signed.mono .ofSigned) (factorStep_extends power)

theorem term_sound : Sound (term operand) .term nesting := by
  have product := juxtaposition_sound signed power
  exact leftChain_sound (product.mono .ofProduct)
    (operatorStep_extends product (termStep_on operand) .multiplied)

theorem sum_sound : Sound (sum operand) .sum nesting := by
  have term := term_sound signed power
  exact leftChain_sound (term.mono .ofTerm)
    (operatorStep_extends term (sumStep_on operand) .added)

end Sums

/-! ## Brackets and levels -/

/-- A sum in brackets is one that is not directly between bars, whatever stands around. -/
theorem bracketed_reads {part : Parse R (Formula R)} {symbol : Bool → Symbol} {nesting : Nat}
    (sound : Sound part symbol nesting) {scan after : Scan R} {x : Formula R}
    (level : scan.nesting = nesting) (succeeded : (bracketed part).on scan = (.ok x, after)) :
    Reads (symbol false) x scan after := by
  rw [bracketed_on] at succeeded
  rcases inside : part.on { scan with bars := 0 } with ⟨result, between⟩
  rw [inside] at succeeded
  cases succeeded
  obtain ⟨read, n, passes, derives, fits⟩ := sound { scan with bars := 0 } x between level inside
  exact ⟨read, n, ⟨passes.rest, passes.stop, rfl, passes.nesting⟩, derives, fits⟩

theorem barred_reads {part : Parse R (Formula R)} {symbol : Bool → Symbol} {nesting : Nat}
    (sound : Sound part symbol nesting) {scan after : Scan R} {x : Formula R}
    (level : scan.nesting = nesting) (succeeded : (barred part).on scan = (.ok x, after)) :
    Reads (symbol true) x scan after := by
  rw [barred_on] at succeeded
  rcases inside : part.on { scan with bars := scan.bars + 1 } with ⟨result, between⟩
  rw [inside] at succeeded
  cases succeeded
  obtain ⟨read, n, passes, derives, fits⟩ :=
    sound { scan with bars := scan.bars + 1 } x between level inside
  have bars : between.bars - 1 = scan.bars := by
    rw [passes.bars]
    rfl
  exact ⟨read, n, ⟨passes.rest, passes.stop, bars, passes.nesting⟩, derives, fits⟩

/-! ## Operands -/

/-- What stands between two marks, when the grammar has the rule for it. -/
theorem enclosed_reads {symbol : Symbol} {left right : Mark} {finish : Formula R → Formula R}
    (rule : ∀ {ts : List (Token R)} {x : Formula R} {n : Nat}, Derives symbol ts x n →
      Derives .atom (.mark left :: (ts ++ [.mark right])) (finish x) n)
    {placed last : PlacedToken R} {scan between after : Scan R} {x : Formula R}
    (opened : placed.token = .mark left) (passed : scan.Passes [placed] scan.skipped)
    (reads : Reads symbol x scan.skipped between) (closed : last.token = .mark right)
    (passes : between.Passes [last] after) : Reads .atom (finish x) scan after := by
  obtain ⟨read, n, passes', derives, fits⟩ := reads
  refine ⟨placed :: (read ++ [last]), n, passed.trans (passes'.trans passes), ?_, fits⟩
  simp only [List.map_cons, List.map_append, List.map_nil, opened, closed]
  exact rule derives

section Atoms

variable {operand : Operand R} {nesting : Nat} (sum' : Sound (sum operand) .sum nesting)
  (room : nesting ≤ Formula.maxDepth)

include sum'

/-- A function of one argument, when the grammar has the rule for it. -/
theorem function_reads {name : String} {start : Nat} {finish : Formula R → Formula R}
    (rule : ∀ {ts : List (Token R)} {x : Formula R} {n : Nat}, Derives (.sum false) ts x n →
      Derives .atom (.name name :: .mark .opening :: (ts ++ [.mark .closing])) (finish x) n)
    {placed : PlacedToken R} (token : placed.token = .name name) {before scan after : Scan R}
    {y : Formula R} (level : before.nesting = nesting) (passed : before.Passes [placed] scan)
    (succeeded : (arguments name start
      (bracketed (sum operand) >>= fun x => (pure (finish x) : Parse R _))).on scan =
        (.ok y, after)) :
    Reads .atom y before after := by
  obtain ⟨first, between, last, token', passes, inside, token'', passes'⟩ :=
    arguments_eq_ok succeeded
  obtain ⟨x, between, inside, finished⟩ := bind_eq_ok inside
  cases finished
  have level' : scan.skipped.nesting = nesting :=
    passes.nesting.trans (passed.nesting.trans level)
  obtain ⟨read, n, passes'', derives, fits⟩ := bracketed_reads sum' level' inside
  refine ⟨placed :: first :: (read ++ [last]), n,
    passed.trans (passes.trans (passes''.trans passes')), ?_, by omega⟩
  simp only [List.map_cons, List.map_append, List.map_nil, token, token', token'']
  exact rule derives

theorem logarithm_reads {start : Nat} {placed : PlacedToken R} (token : placed.token = .name "log")
    {before scan after : Scan R} {y : Formula R} (level : before.nesting = nesting)
    (passed : before.Passes [placed] scan)
    (succeeded : (arguments "log" start (do
      let base ← bracketed (sum operand)
      expect .comma .logarithmComma
      return .binary .log base (← bracketed (sum operand)))).on scan = (.ok y, after)) :
    Reads .atom y before after := by
  obtain ⟨first, between, last, opened, passes, inside, closed, passes'⟩ :=
    arguments_eq_ok succeeded
  obtain ⟨base, afterBase, base_on, inside⟩ := bind_eq_ok inside
  obtain ⟨_, afterComma, comma_on, inside⟩ := bind_eq_ok inside
  obtain ⟨x, between, x_on, finished⟩ := bind_eq_ok inside
  cases finished
  have level' : scan.skipped.nesting = nesting :=
    passes.nesting.trans (passed.nesting.trans level)
  obtain ⟨read, n, readBase, derives, fits⟩ := bracketed_reads sum' level' base_on
  obtain ⟨comma, separated, passes''⟩ := expect_eq_ok comma_on
  have level'' : afterComma.nesting = nesting :=
    passes''.nesting.trans (readBase.nesting.trans level')
  obtain ⟨read', m, readX, derives', fits'⟩ := bracketed_reads sum' level'' x_on
  refine ⟨placed :: first :: (read ++ comma :: (read' ++ [last])), max n m,
    passed.trans (passes.trans (readBase.trans (passes''.trans (readX.trans passes')))), ?_,
    by omega⟩
  simp only [List.map_cons, List.map_append, List.map_nil, token, opened, separated, closed]
  exact .logarithm derives derives'

include room

theorem named_reads {name : String} {start : Nat} {placed : PlacedToken R}
    (token : placed.token = .name name) {before scan after : Scan R} {x : Formula R}
    (level : before.nesting = nesting) (passed : before.Passes [placed] scan)
    (succeeded : (named operand name start).on scan = (.ok x, after)) :
    Reads .atom x before after := by
  unfold named at succeeded
  cases meaning : NameMeaning.of name with
  | free =>
      rw [meaning] at succeeded
      cases succeeded
      refine ⟨[placed], 0, passed, ?_, by omega⟩
      rw [List.map_singleton, token]
      exact .named (meaning_free_iff.mp meaning)
  | constant c =>
      rw [meaning] at succeeded
      cases succeeded
      refine ⟨[placed], 0, passed, ?_, by omega⟩
      rw [List.map_singleton, token]
      exact .constant (meaning_constant_iff.mp meaning)
  | function op =>
      rw [meaning] at succeeded
      exact function_reads sum' (.applied (meaning_function_iff.mp meaning)) token level passed
        succeeded
  | naturalLogarithm =>
      obtain rfl := meaning_naturalLogarithm_iff.mp meaning
      rw [meaning] at succeeded
      exact function_reads sum' .naturalLogarithm token level passed succeeded
  | logarithm =>
      obtain rfl := meaning_logarithm_iff.mp meaning
      rw [meaning] at succeeded
      exact logarithm_reads sum' token level passed succeeded

theorem primary_sound : Sound (primary operand) (fun _ => .atom) nesting := by
  intro scan x after level succeeded
  rw [primary_on] at succeeded
  cases next : scan.next? with
  | none =>
      rw [next] at succeeded
      cases succeeded
  | some token =>
      obtain ⟨placed, at_, passed⟩ := Scan.next?_eq_some_iff.mp next
      have level' : scan.skipped.nesting = nesting := passed.nesting.trans level
      rw [next] at succeeded
      rcases token with value | name | mark
      · cases succeeded
        refine ⟨[placed], 0, passed, ?_, by omega⟩
        rw [List.map_singleton, at_]
        exact .number value
      · exact named_reads sum' room at_ level passed succeeded
      · cases mark with
        | opening =>
            obtain ⟨x, between, last, inside, rfl, closed, passes⟩ := closing_eq_ok succeeded
            have reads := bracketed_reads sum' level' inside
            exact enclosed_reads .parenthesized at_ passed reads closed passes
        | bar =>
            obtain ⟨x, between, last, inside, rfl, closed, passes⟩ := closing_eq_ok succeeded
            have reads := barred_reads sum' level' inside
            exact enclosed_reads .absolute at_ passed reads closed passes
        | _ => cases succeeded

end Atoms

/-- Both kinds of operands are sound at a level. -/
structure Operand.IsSound (operand : Operand R) (nesting : Nat) : Prop where
  signed : Sound operand.signed .signed nesting
  power : Sound operand.power .power nesting

theorem Operand.IsSound.sum {operand : Operand R} {nesting : Nat}
    (sound : operand.IsSound nesting) : Sound (sum operand) .sum nesting :=
  sum_sound sound.signed sound.power

section Levels

variable {inner : Operand R} {nesting : Nat} (sound : inner.IsSound (nesting + 1))

include sound

/-- An atom with its exponent is a power, whose own nesting is not counted yet. -/
theorem exponent_reads (room : nesting < Formula.maxDepth) {scan after : Scan R} {x : Formula R}
    (level : scan.nesting = nesting + 1) (succeeded : (exponent inner).on scan = (.ok x, after)) :
    ∃ read n, scan.Passes read after ∧
      Derives (.power scan.barred) (read.map (·.token)) x (n + 1) ∧
      n + scan.nesting ≤ Formula.maxDepth := by
  rw [exponent_on] at succeeded
  rcases base_on : (primary inner).on scan with ⟨_ | base, between⟩
  · rw [base_on] at succeeded
    cases succeeded
  · obtain ⟨read, n, passes, derives, fits⟩ :=
      primary_sound sound.sum room _ _ _ level base_on
    rw [base_on] at succeeded
    dsimp only at succeeded
    split at succeeded
    · rename_i follows
      obtain ⟨placed, caret, passed⟩ :=
        Scan.next?_eq_some_iff.mp (Scan.nextIs_eq_true_iff.mp follows)
      have level' : between.skipped.nesting = nesting + 1 :=
        passed.nesting.trans (passes.nesting.trans level)
      rcases raised : inner.signed.on between.skipped with ⟨_ | y, after'⟩
      · rw [raised] at succeeded
        cases succeeded
      · rw [raised] at succeeded
        cases succeeded
        obtain ⟨read', m, passes', derives', fits'⟩ := sound.signed _ _ _ level' raised
        rw [passed.barred, passes.barred] at derives'
        refine ⟨read ++ placed :: read', max n m, passes.trans (passed.trans passes'), ?_,
          by omega⟩
        rw [List.map_append, List.map_cons, caret]
        exact .raised derives derives'
    · cases succeeded
      exact ⟨read, n, passes, .ofAtom derives, fits⟩

theorem power_sound : Sound (power inner) .power nesting := by
  intro scan x after level succeeded
  obtain ⟨room, between, inside, passing⟩ := deeper_eq_ok succeeded
  rw [level] at room
  obtain ⟨read, n, passes, derives, fits⟩ :=
    exponent_reads sound room (congrArg (· + 1) level) inside
  change n + (scan.nesting + 1) ≤ _ at fits
  exact ⟨read, n + 1, passing read passes, derives, by omega⟩

theorem signed_sound : Sound (signed inner) .signed nesting := by
  intro scan x after level succeeded
  rw [signed_on] at succeeded
  split at succeeded
  · rename_i follows
    obtain ⟨placed, minus, passed⟩ :=
      Scan.next?_eq_some_iff.mp (Scan.nextIs_eq_true_iff.mp follows)
    rcases negated : (deeper inner.signed).on scan.skipped with ⟨_ | y, after'⟩
    · rw [negated] at succeeded
      cases succeeded
    · rw [negated] at succeeded
      cases succeeded
      obtain ⟨-, between, inside, passing⟩ := deeper_eq_ok negated
      have level' : scan.skipped.nesting = nesting := passed.nesting.trans level
      obtain ⟨read, n, passes, derives, fits⟩ :=
        sound.signed _ _ _ (congrArg (· + 1) level') inside
      change n + (scan.skipped.nesting + 1) ≤ _ at fits
      have derives' : Derives (.signed scan.skipped.barred) (read.map (·.token)) y n := derives
      rw [passed.barred] at derives'
      refine ⟨placed :: read, n + 1, passed.trans (passing read passes), ?_, by omega⟩
      rw [List.map_cons, minus]
      exact derives'.negative
  · exact (power_sound sound).mono .ofPower scan x after level succeeded

end Levels

/-- Operands with so many levels are sound where there are so many left, and one that is never
entered. -/
theorem operandWith_sound (levels nesting : Nat) :
    (operandWith (R := R) levels).IsSound nesting := by
  induction levels generalizing nesting with
  | zero =>
      constructor
      · intro scan x after _ succeeded
        cases succeeded
      · intro scan x after _ succeeded
        cases succeeded
  | succ levels ih => exact ⟨signed_sound (ih (nesting + 1)), power_sound (ih (nesting + 1))⟩

/-- What the reader reads of a whole formula is derived from a sum. -/
theorem formula_sound {scan after : Scan R} {x : Formula R}
    (succeeded : formula.on scan = (.ok x, after)) : Reads (.sum scan.barred) x scan after := by
  rw [formula_on] at succeeded
  exact (operandWith_sound _ _).sum scan x after rfl succeeded

end Parse

end Tonegraph
