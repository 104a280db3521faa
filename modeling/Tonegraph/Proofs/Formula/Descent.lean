import Mathlib.Logic.Function.Iterate
import Tonegraph.Proofs.Formula.Counting
/-!
# Reading ends

The operands of the reader are made level by level, each over the one below it
(`Parse.operandWith`), and its loops have the number of tokens left as fuel. Here both are shown to
make no difference. `Parse.operands` are operands made of themselves; they are the only ones, even
if they may do anything on scans that are nested too deeply or have other tokens left
(`Operand.Recurs.agrees`), and it takes no more levels than are left to make them, whatever is
innermost (`iterate_over_agrees`). And to go on from a formula for as long as a step extends it,
without a count, is what a loop with its fuel does (`chain_iff`), since every step that extends
passes over a token.

So the parts of the reader are recursive descent as one would write it down, and it ends. A chain
of operators fails only where one of its operands does, on a scan with the levels and bars of the
first of them (`FailsIn`).
-/

set_option autoImplicit false

namespace Tonegraph

variable {R : Type}

namespace Parse

/-! ## Loops -/

/-- A way to go on from a formula that passes over a token each time it does, and that does not go
on where no token is left. -/
structure Advances (step : Formula R → Parse R (Option (Formula R))) : Prop where
  consumes : ∀ left longer s after, (step left).on s = (.ok (some longer), after) →
    after.rest.length < s.rest.length
  ends : ∀ left s, s.rest = [] → (step left).on s = (.ok none, s)

/-- One turn of a loop: it goes on from a formula that the step extends. -/
def turn (step : Formula R → Parse R (Option (Formula R))) (loop : Formula R → Parse R (Formula R))
    (left : Formula R) : Parse R (Formula R) := do
  match ← step left with
  | some longer => loop longer
  | none => return left

section Loops

variable {step : Formula R → Parse R (Option (Formula R))}

theorem turn_on (loop : Formula R → Parse R (Formula R)) (left : Formula R) (s : Scan R) :
    (turn step loop left).on s =
      match (step left).on s with
      | (.ok (some longer), after) => (loop longer).on after
      | (.ok none, after) => (.ok left, after)
      | (.error e, after) => (.error e, after) := by
  rw [turn, on_bind]
  rcases (step left).on s with ⟨_ | (_ | _), _⟩ <;> rfl

variable (advances : Advances step)

include advances

theorem chain_at_end {s : Scan R} (atEnd : s.rest = []) (fuel : Nat) (left : Formula R) :
    (chain step fuel left).on s = (.ok left, s) := by
  cases fuel with
  | zero => rfl
  | succ fuel => rw [chain_on, advances.ends left s atEnd]

/-- As many turns as tokens are left are enough. -/
theorem chain_of_enough {fuel fuel' : Nat} {left : Formula R} {s : Scan R}
    (enough : s.rest.length ≤ fuel) (enough' : s.rest.length ≤ fuel') :
    (chain step fuel left).on s = (chain step fuel' left).on s := by
  induction fuel generalizing fuel' left s with
  | zero =>
      have atEnd := List.eq_nil_of_length_eq_zero (Nat.le_zero.mp enough)
      rw [chain_at_end advances atEnd, chain_at_end advances atEnd]
  | succ fuel ih =>
      cases fuel' with
      | zero =>
          have atEnd := List.eq_nil_of_length_eq_zero (Nat.le_zero.mp enough')
          rw [chain_at_end advances atEnd, chain_at_end advances atEnd]
      | succ fuel' =>
          rw [chain_on, chain_on]
          rcases stepped : (step left).on s with ⟨_ | _ | longer, after⟩
          · rfl
          · rfl
          · have fewer := advances.consumes left longer s after stepped
            exact ih (by omega) (by omega)

/-- What loops turn by turn does what as many turns as tokens are left do. -/
theorem loop_on {loop : Formula R → Parse R (Formula R)}
    (turns : ∀ left s, (loop left).on s = (turn step loop left).on s) {fuel : Nat}
    {left : Formula R} {s : Scan R} (enough : s.rest.length ≤ fuel) :
    (loop left).on s = (chain step fuel left).on s := by
  induction fuel generalizing left s with
  | zero =>
      have atEnd := List.eq_nil_of_length_eq_zero (Nat.le_zero.mp enough)
      rw [turns, turn_on, advances.ends left s atEnd]
      rfl
  | succ fuel ih =>
      rw [turns, turn_on, chain_on]
      rcases stepped : (step left).on s with ⟨_ | _ | longer, after⟩
      · rfl
      · rfl
      · have fewer := advances.consumes left longer s after stepped
        exact ih (by omega)

/-- To go on turn by turn, without a count, is to do so as often as tokens are left. -/
theorem chain_iff (loop : Formula R → Parse R (Formula R)) :
    (∀ left s, (loop left).on s = (turn step loop left).on s) ↔
      ∀ left s, (loop left).on s = (chain step s.rest.length left).on s := by
  constructor
  · exact fun turns left s => loop_on advances turns (Nat.le_refl _)
  · intro chains left s
    -- with one turn more, the chain is a turn and a chain
    rw [chains, chain_of_enough advances (Nat.le_refl _) (Nat.le_succ s.rest.length), chain_on,
      turn_on]
    rcases stepped : (step left).on s with ⟨_ | _ | longer, after⟩
    · rfl
    · rfl
    · have fewer := advances.consumes left longer s after stepped
      dsimp only
      rw [chains]
      exact chain_of_enough advances (Nat.le_of_lt fewer) (Nat.le_refl _)

end Loops

/-! ## Levels -/

/-- One level further in a part is read only where there is a level left. -/
theorem deeper_congr {α : Type} {inside inside' : Parse R α} {s : Scan R}
    (same : ∀ x : Scan R, x.nesting = s.nesting + 1 → x.nesting ≤ Formula.maxDepth →
      x.rest = s.rest → inside.on x = inside'.on x) :
    (deeper inside).on s = (deeper inside').on s := by
  rw [deeper_on, deeper_on]
  split
  · rfl
  · rw [same { s with nesting := s.nesting + 1 } rfl (by dsimp only; omega) rfl]

/-! ## Failures -/

/-- A part fails only where an operand does, on a scan with the same levels and bars. -/
def FailsIn {α : Type} (operand : Operand R) (part : Parse R α) : Prop :=
  ∀ s e after, part.on s = (.error e, after) → ∃ read x, s.Passes read x ∧
    (operand.signed.on x = (.error e, after) ∨ operand.power.on x = (.error e, after))

section Failures

variable {operand : Operand R}

theorem FailsIn.signed : FailsIn operand operand.signed :=
  fun s _ _ failed => ⟨[], s, .refl s, .inl failed⟩

theorem FailsIn.power : FailsIn operand operand.power :=
  fun s _ _ failed => ⟨[], s, .refl s, .inr failed⟩

theorem chain_failsIn {step : Formula R → Parse R (Option (Formula R))}
    (balanced : ∀ n ts left, Agrees n ts (step left) (step left))
    (steps : ∀ left, FailsIn operand (step left)) (fuel : Nat) (left : Formula R) :
    FailsIn operand (chain step fuel left) := by
  induction fuel generalizing left with
  | zero =>
      intro s e after failed
      cases failed
  | succ fuel ih =>
      intro s e after failed
      obtain ⟨read, passes⟩ := (balanced s.nesting s.rest left).passes
      rw [chain_on] at failed
      rcases stepped : (step left).on s with ⟨_ | _ | longer, between⟩ <;>
        rw [stepped] at failed passes
      · cases failed
        exact steps left s e after stepped
      · cases failed
      · obtain ⟨read', x, passes', fails⟩ := ih longer between e after failed
        exact ⟨_, x, passes.trans passes', fails⟩

theorem leftChain_failsIn {first : Parse R (Formula R)}
    {step : Formula R → Parse R (Option (Formula R))}
    (balanced : ∀ n ts, Agrees n ts first first) (fails : FailsIn operand first)
    (balanced' : ∀ n ts left, Agrees n ts (step left) (step left))
    (fails' : ∀ left, FailsIn operand (step left)) : FailsIn operand (leftChain first step) := by
  intro s e after failed
  obtain ⟨read, passes⟩ := (balanced s.nesting s.rest).passes
  rw [leftChain_on] at failed
  rcases began : first.on s with ⟨_ | left, between⟩ <;> rw [began] at failed passes
  · cases failed
    exact fails s e after began
  · obtain ⟨read', x, passes', stuck⟩ :=
      chain_failsIn balanced' fails' _ left between e after failed
    exact ⟨_, x, passes.trans passes', stuck⟩

theorem joined_eq_error {op : BinaryOp} {left : Formula R} {e : SyntaxError}
    {outcome : Except SyntaxError (Formula R) × Scan R} {after : Scan R}
    (failed : joined op left outcome = (.error e, after)) : outcome = (.error e, after) := by
  rcases outcome with ⟨_ | _, _⟩ <;> cases failed
  rfl

theorem operatorStep_failsIn {step : Formula R → Parse R (Option (Formula R))}
    {part : Parse R (Formula R)} {table : Mark → Option BinaryOp} (fails : FailsIn operand part)
    (step_on : ∀ left s, (step left).on s =
      match s.operator? table with
      | some op => joined op left (part.on s.skipped)
      | none => (.ok none, s)) (left : Formula R) : FailsIn operand (step left) := by
  intro s e after failed
  rw [step_on] at failed
  split at failed
  · obtain ⟨read, x, passes, stuck⟩ := fails _ e after (joined_eq_error failed)
    exact ⟨_, x, s.passes_skipped.trans passes, stuck⟩
  · cases failed

theorem factorStep_failsIn (left : Formula R) : FailsIn operand (factorStep operand left) := by
  intro s e after failed
  rw [factorStep_on] at failed
  split at failed
  · exact FailsIn.power s e after (joined_eq_error failed)
  · cases failed

end Failures

/-! ## Parts of the reader -/

/-- The parts of the reader. A name has been passed over when what it begins is read. -/
inductive Part where
  | sum
  | term
  | juxtaposition
  | signed
  | power
  | exponent
  | primary
  | named (name : String) (start : Nat)

variable [Neg R]

/-- How a part is read, by how operands are. -/
def Part.reader (operand : Operand R) : Part → Parse R (Formula R)
  | .sum => Parse.sum operand
  | .term => Parse.term operand
  | .juxtaposition => Parse.juxtaposition operand
  | .signed => Parse.signed operand
  | .power => Parse.power operand
  | .exponent => Parse.exponent operand
  | .primary => Parse.primary operand
  | .named name start => Parse.named operand name start

theorem Part.reader_agrees {n : Nat} {ts : List (PlacedToken R)} {a b : Operand R} (part : Part)
    (operands : a.Agrees n ts b) (inner : n < Formula.maxDepth → a.Agrees (n + 1) ts b) :
    Agrees n ts (part.reader a) (part.reader b) := by
  cases part with
  | sum => exact sum_agrees operands
  | term => exact term_agrees operands
  | juxtaposition => exact juxtaposition_agrees operands
  | signed => exact signed_agrees inner
  | power => exact power_agrees inner
  | exponent => exact exponent_agrees operands
  | primary => exact primary_agrees operands
  | named name start => exact named_agrees operands name start

/-! ## Operands made of themselves -/

/-- Operands that have these one level below them. -/
def Operand.over (inner : Operand R) : Operand R := ⟨Parse.signed inner, Parse.power inner⟩

/-- Operands with as many levels below them as are left. -/
def operands : Operand R where
  signed := do (operandWith (Formula.maxDepth + 1 - (← get).nesting)).signed
  power := do (operandWith (Formula.maxDepth + 1 - (← get).nesting)).power

/-- Operands that are made of themselves as far as a part that is read from a scan on may ask for
them: where there is a level left, and on no tokens but the last of those left. -/
def Operand.Recurs (a : Operand R) (s : Scan R) : Prop :=
  ∀ x : Scan R, s.nesting ≤ x.nesting → x.nesting ≤ Formula.maxDepth → x.rest <:+ s.rest →
    a.signed.on x = a.over.signed.on x ∧ a.power.on x = a.over.power.on x

section Levels

variable {n : Nat} {ts : List (PlacedToken R)} {a : Operand R}

theorem operandWith_agrees (levels n : Nat) :
    (operandWith (R := R) levels).Agrees n ts (operandWith levels) := by
  induction levels generalizing n with
  | zero => exact ⟨agrees_fail _, agrees_fail _⟩
  | succ levels ih => exact ⟨signed_agrees fun _ => ih (n + 1), power_agrees fun _ => ih (n + 1)⟩

theorem operandWith_agrees_operands (n : Nat) :
    (operandWith (R := R) (Formula.maxDepth + 1 - n)).Agrees n ts operands := by
  have balanced : (operandWith (R := R) (Formula.maxDepth + 1 - n)).Agrees n ts _ :=
    operandWith_agrees _ n
  constructor
  · rintro s ⟨rfl, rest⟩
    exact balanced.signed s ⟨rfl, rest⟩
  · rintro s ⟨rfl, rest⟩
    exact balanced.power s ⟨rfl, rest⟩

theorem operands_agrees (n : Nat) : (operands (R := R)).Agrees n ts operands := by
  have levels : Operand.Agrees (R := R) n ts _ operands := operandWith_agrees_operands n
  exact ⟨fun s within => ⟨rfl, (levels.signed s within).2⟩,
    fun s within => ⟨rfl, (levels.power s within).2⟩⟩

/-- Where there is a level left, operands are made of themselves. -/
theorem operands_on {s : Scan R} (room : s.nesting ≤ Formula.maxDepth) :
    operands.signed.on s = operands.over.signed.on s ∧
      operands.power.on s = operands.over.power.on s := by
  have inner : s.nesting < Formula.maxDepth →
      (operandWith (Formula.maxDepth - s.nesting)).Agrees (s.nesting + 1) s.rest operands := by
    rw [← Nat.add_sub_add_right Formula.maxDepth 1]
    exact fun _ => operandWith_agrees_operands (s.nesting + 1)
  have within : s.Within s.nesting s.rest := ⟨rfl, List.suffix_refl _⟩
  have made : operandWith (R := R) (Formula.maxDepth + 1 - s.nesting) =
      (operandWith (Formula.maxDepth - s.nesting)).over := by
    rw [Nat.sub_add_comm room]
    rfl
  have here : Operand.Agrees s.nesting s.rest _ operands := operandWith_agrees_operands s.nesting
  rw [made] at here
  exact ⟨(here.signed s within).1.symm.trans (signed_agrees inner s within).1,
    (here.power s within).1.symm.trans (power_agrees inner s within).1⟩

theorem operands_recurs (s : Scan R) : (operands (R := R)).Recurs s :=
  fun _ _ room _ => operands_on room

/-- What is over operands of the next level are operands of this one. -/
theorem over_agrees (room : n ≤ Formula.maxDepth)
    (inner : n < Formula.maxDepth → a.Agrees (n + 1) ts operands) :
    a.over.Agrees n ts operands := by
  constructor
  · rintro s ⟨rfl, rest⟩
    rw [(operands_on room).1]
    exact signed_agrees inner s ⟨rfl, rest⟩
  · rintro s ⟨rfl, rest⟩
    rw [(operands_on room).2]
    exact power_agrees inner s ⟨rfl, rest⟩

/-- Operands with more levels than are left agree with each other, whatever is innermost. -/
theorem iterate_over_agrees {levels : Nat} (room : n ≤ Formula.maxDepth)
    (enough : Formula.maxDepth < n + levels) :
    (Operand.over^[levels] a).Agrees n ts operands := by
  induction levels generalizing n with
  | zero => omega
  | succ levels ih =>
      rw [Function.iterate_succ_apply']
      exact over_agrees room fun deeper => ih deeper (by omega)

/-- Operands that are made of themselves where they may be asked for are no others. -/
theorem Operand.Recurs.agrees {s : Scan R} {n : Nat} (recurs : a.Recurs s)
    (below : s.nesting ≤ n) (room : n ≤ Formula.maxDepth) : a.Agrees n s.rest operands := by
  have above : a.over.Agrees n s.rest operands :=
    over_agrees room fun deeper => recurs.agrees (Nat.le_succ_of_le below) deeper
  constructor
  · rintro x ⟨rfl, rest⟩
    rw [(recurs x below room rest).1]
    exact above.signed x ⟨rfl, rest⟩
  · rintro x ⟨rfl, rest⟩
    rw [(recurs x below room rest).2]
    exact above.power x ⟨rfl, rest⟩
termination_by Formula.maxDepth - n

end Levels

/-! ## Progress -/

theorem operands_sound (n : Nat) : (operands (R := R)).IsSound n where
  signed := fun s => (operandWith_sound (Formula.maxDepth + 1 - s.nesting) n).signed s
  power := fun s => (operandWith_sound (Formula.maxDepth + 1 - s.nesting) n).power s

/-- What is derived is not empty, so a sound part that succeeds has passed over a token. -/
theorem Sound.consumes {part : Parse R (Formula R)} {symbol : Bool → Symbol} {s after : Scan R}
    {x : Formula R} (sound : Sound part symbol s.nesting)
    (succeeded : part.on s = (.ok x, after)) : after.rest.length < s.rest.length := by
  obtain ⟨read, n, passes, derives, -⟩ := sound s x after rfl succeeded
  have nonempty : 0 < read.length := by
    rw [← List.length_map (·.token)]
    exact List.length_pos_iff.mpr derives.ne_nil
  rw [passes.rest, List.length_append]
  omega

theorem primary_consumes {s after : Scan R} {x : Formula R} (room : s.nesting ≤ Formula.maxDepth)
    (succeeded : (primary operands).on s = (.ok x, after)) : after.rest.length < s.rest.length :=
  (primary_sound (operands_sound s.nesting).sum room).consumes succeeded

/-- An exponent stands behind a primary. -/
theorem exponent_consumes {s after : Scan R} {x : Formula R} (room : s.nesting ≤ Formula.maxDepth)
    (succeeded : (exponent operands).on s = (.ok x, after)) :
    after.rest.length < s.rest.length := by
  rw [exponent_on] at succeeded
  rcases base_on : (primary operands).on s with ⟨_ | base, between⟩ <;> rw [base_on] at succeeded
  · cases succeeded
  · have consumed := primary_consumes room base_on
    dsimp only at succeeded
    split at succeeded
    · rcases raised : operands.signed.on between.skipped with ⟨_ | y, after'⟩ <;>
        rw [raised] at succeeded <;> cases succeeded
      have further := (operands_sound _).signed.consumes raised
      have passed := between.passes_skipped.length_le
      omega
    · cases succeeded
      exact consumed

/-- Every part that succeeds has passed over a token, but for one that begins behind a name. -/
theorem Part.consumes {s after : Scan R} {x : Formula R} (part : Part)
    (room : s.nesting ≤ Formula.maxDepth)
    (succeeded : (part.reader operands).on s = (.ok x, after)) :
    (∃ name start, part = .named name start) ∨ after.rest.length < s.rest.length := by
  have sound := operands_sound (R := R)
  cases part with
  | sum => exact .inr ((sound _).sum.consumes succeeded)
  | term => exact .inr ((term_sound (sound _).signed (sound _).power).consumes succeeded)
  | juxtaposition =>
      exact .inr ((juxtaposition_sound (sound _).signed (sound _).power).consumes succeeded)
  | signed => exact .inr ((signed_sound (sound _)).consumes succeeded)
  | power => exact .inr ((power_sound (sound _)).consumes succeeded)
  | exponent => exact .inr (exponent_consumes room succeeded)
  | primary => exact .inr (primary_consumes room succeeded)
  | named name start => exact .inl ⟨name, start, rfl⟩

/-! ## Chains of operators -/

/-- A step over an operator advances if the part behind it does. -/
theorem operatorStep_advances {step : Formula R → Parse R (Option (Formula R))}
    {part : Parse R (Formula R)} {table : Mark → Option BinaryOp} {symbol : Bool → Symbol}
    (sound : ∀ n, Sound part symbol n)
    (step_on : ∀ left s, (step left).on s =
      match s.operator? table with
      | some op => joined op left (part.on s.skipped)
      | none => (.ok none, s)) : Advances step where
  consumes := by
    intro left longer s after stepped
    rw [step_on] at stepped
    split at stepped
    · obtain ⟨right, part_on, -⟩ := joined_eq_ok stepped
      exact Nat.lt_of_lt_of_le ((sound _).consumes part_on) s.passes_skipped.length_le
    · cases stepped
  ends := by
    intro left s atEnd
    rw [step_on, Scan.operator?, Scan.next?, atEnd]
    rfl

theorem sumStep_advances : Advances (sumStep (operands (R := R))) :=
  operatorStep_advances (fun n => term_sound (operands_sound n).signed (operands_sound n).power)
    (sumStep_on operands)

theorem termStep_advances : Advances (termStep (operands (R := R))) :=
  operatorStep_advances
    (fun n => juxtaposition_sound (operands_sound n).signed (operands_sound n).power)
    (termStep_on operands)

theorem factorStep_advances : Advances (factorStep (operands (R := R))) where
  consumes := by
    intro left longer s after stepped
    rw [factorStep_on] at stepped
    split at stepped
    · obtain ⟨right, power_on, -⟩ := joined_eq_ok stepped
      exact (operands_sound _).power.consumes power_on
    · cases stepped
  ends := by
    intro left s atEnd
    rw [factorStep_on, Scan.startsFactor, Scan.next?, atEnd]
    rfl

theorem juxtaposition_failsIn : FailsIn operands (juxtaposition (operands (R := R))) :=
  leftChain_failsIn (fun n _ => (operands_agrees n).signed) .signed
    (fun n _ => factorStep_agrees (operands_agrees n)) factorStep_failsIn

theorem term_failsIn : FailsIn operands (term (operands (R := R))) :=
  leftChain_failsIn (fun n _ => juxtaposition_agrees (operands_agrees n)) juxtaposition_failsIn
    (fun n _ => termStep_agrees (operands_agrees n))
    (operatorStep_failsIn juxtaposition_failsIn (termStep_on operands))

theorem sum_failsIn : FailsIn operands (sum (operands (R := R))) :=
  leftChain_failsIn (fun n _ => term_agrees (operands_agrees n)) term_failsIn
    (fun n _ => sumStep_agrees (operands_agrees n))
    (operatorStep_failsIn term_failsIn (sumStep_on operands))

/-! ## Descent -/

/-- What a part of the reader does on a scan. -/
structure Part.Descends (part : Part) (s : Scan R) : Prop where
  /-- Whatever comes of it, it has passed over tokens and left the levels and bars as they were. -/
  counts : ∃ read, s.Passes read ((part.reader operands).on s).2
  /-- If it succeeds it has passed over a token, but for what begins behind a name. -/
  consumes : ∀ x, ((part.reader operands).on s).1 = .ok x →
    (∃ name start, part = .named name start) ∨
      ((part.reader operands).on s).2.rest.length < s.rest.length
  /-- It asks for no operand on a scan that is nested too deeply or has other tokens left. -/
  bounded : ∀ a : Operand R, a.Recurs s → (part.reader a).on s = (part.reader operands).on s
  /-- It asks for no operands below as many levels as are left. -/
  ends : ∀ (innermost : Operand R) (levels : Nat), Formula.maxDepth < s.nesting + levels →
    (part.reader (Operand.over^[levels] innermost)).on s = (part.reader operands).on s

theorem Part.descends (part : Part) {s : Scan R} (room : s.nesting ≤ Formula.maxDepth) :
    part.Descends s where
  counts := (part.reader_agrees (operands_agrees _) fun _ => operands_agrees _).passes
  consumes := fun _ succeeded => part.consumes room (Prod.ext succeeded rfl)
  bounded := by
    intro a recurs
    have agrees := part.reader_agrees (recurs.agrees (Nat.le_refl _) room) fun deeper =>
      recurs.agrees (Nat.le_succ _) deeper
    exact (agrees s ⟨rfl, List.suffix_refl _⟩).1
  ends := by
    intro innermost levels enough
    have agrees : Agrees s.nesting s.rest (part.reader (Operand.over^[levels] innermost)) _ :=
      part.reader_agrees (iterate_over_agrees room enough) fun deeper =>
        iterate_over_agrees deeper (by omega)
    exact (agrees s ⟨rfl, List.suffix_refl _⟩).1

/-- A whole formula is a sum of such operands. -/
theorem formula_on_operands (s : Scan R) : formula.on s = (Part.sum.reader operands).on s := by
  rw [formula_on]
  exact (sum_agrees (operandWith_agrees_operands s.nesting) s ⟨rfl, List.suffix_refl _⟩).1

/-- **Reading keeps count, goes on and ends.** From a scan with no more levels than the limit, every
part of the reader passes over tokens, counts back and asks for no operand beyond the limit or on
other tokens (`Part.Descends`). The operands that a formula is read with are made of themselves,
and what is read one level further in is read within the limit. A loop goes on turn by turn until
its step does not, and every such loop does what its count of turns does. A chain of operators
fails only where an operand of it does by itself, with the levels and bars of the first one. -/
theorem descent_balanced (s : Scan R) (room : s.nesting ≤ Formula.maxDepth) :
    (∀ part : Part, part.Descends s) ∧
      (operands (R := R)).Recurs s ∧
      formula.on s = (Part.sum.reader operands).on s ∧
      (∀ inside inside' : Parse R (Formula R),
        (∀ x : Scan R, x.nesting = s.nesting + 1 → x.nesting ≤ Formula.maxDepth →
          x.rest = s.rest → inside.on x = inside'.on x) →
        (deeper inside).on s = (deeper inside').on s) ∧
      (∀ step ∈ [sumStep (operands (R := R)), termStep operands, factorStep operands],
        ∀ loop : Formula R → Parse R (Formula R),
          (∀ left x, (loop left).on x = (turn step loop left).on x) ↔
            ∀ left x, (loop left).on x = (chain step x.rest.length left).on x) ∧
      ∀ chained ∈ [sum (operands (R := R)), term operands, juxtaposition operands],
        FailsIn operands chained := by
  refine ⟨fun part => part.descends room, operands_recurs s, formula_on_operands s,
    fun _ _ => deeper_congr, ?_, ?_⟩
  · have advances : ∀ step ∈ [sumStep (operands (R := R)), termStep operands, factorStep operands],
        Advances step := by
      simp [sumStep_advances, termStep_advances, factorStep_advances]
    exact fun step member => chain_iff (advances step member)
  · simp [sum_failsIn, term_failsIn, juxtaposition_failsIn]

/-- The scan at the start of `(|t|)`, two levels below the limit and between two bars. -/
def nearLimit : Scan Int :=
  ⟨[⟨.mark .opening, 0⟩, ⟨.mark .bar, 1⟩, ⟨.name "t", 2⟩, ⟨.mark .bar, 3⟩, ⟨.mark .closing, 4⟩], 5,
    2, 254⟩

/-- The formula in the bars is too deep, and behind the failure the levels and bars are those of
the start. -/
theorem nearLimit_counts :
    nearLimit.nesting ≤ Formula.maxDepth ∧
      (∃ read, nearLimit.Passes read ((Part.sum.reader operands).on nearLimit).2) ∧
      (Part.sum.reader operands).on nearLimit =
        (.error ⟨.tooDeep, 2⟩, { nearLimit with rest := nearLimit.rest.drop 2 }) :=
  ⟨by decide, ((descent_balanced nearLimit (by decide)).1 .sum).counts, rfl⟩

end Parse

end Tonegraph
