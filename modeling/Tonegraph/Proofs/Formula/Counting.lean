import Tonegraph.Proofs.Formula.Soundness
/-!
# Reading counts back

Whatever comes of it, a part of the reader leaves the levels and bars counted as it found them, and
has passed over tokens and done nothing else to the scan. And what it does depends on its operands
only where it asks them: on scans of its own nesting or, for a sign or a power, one level further in
where there is a level left, and never on a token before its own.

Both are said of two parts at once (`Parse.Agrees`): on scans of one nesting they do the same and
count back. For a part and itself this is the first, and for parts made of two kinds of operands it
is the second. Every way to make a part keeps it, so each part is gone through once.
-/

set_option autoImplicit false

namespace Tonegraph

variable {R : Type}

/-! ## Scans -/

namespace Scan

variable {s after : Scan R} {read tokens : List (PlacedToken R)} {nesting : Nat}

theorem Passes.suffix (passes : s.Passes read after) : after.rest <:+ s.rest :=
  ⟨read, passes.rest.symm⟩

theorem Passes.length_le (passes : s.Passes read after) : after.rest.length ≤ s.rest.length :=
  passes.suffix.length_le

theorem passes_skipped (s : Scan R) : s.Passes (s.rest.take 1) s.skipped where
  rest := by rw [skipped, ← List.drop_one, List.take_append_drop]
  stop := rfl
  bars := rfl
  nesting := rfl

/-- A scan of a nesting that has the last of some tokens left. -/
structure Within (nesting : Nat) (tokens : List (PlacedToken R)) (s : Scan R) : Prop where
  nesting : s.nesting = nesting
  rest : s.rest <:+ tokens

theorem Within.onward (within : s.Within nesting tokens) (passes : s.Passes read after) :
    after.Within nesting tokens :=
  ⟨passes.nesting.trans within.nesting, passes.suffix.trans within.rest⟩

end Scan

namespace Parse

/-! ## Parts that agree -/

/-- On scans of a nesting with the last of some tokens left, two parts do the same, and they pass
over tokens and change nothing else. -/
def Agrees {α : Type} (nesting : Nat) (tokens : List (PlacedToken R)) (part other : Parse R α) :
    Prop :=
  ∀ s, s.Within nesting tokens → part.on s = other.on s ∧ ∃ read, s.Passes read (other.on s).2

section Agrees

variable {α β : Type} {n : Nat} {ts : List (PlacedToken R)} {part other : Parse R α}

theorem Agrees.bind {next next' : α → Parse R β} (first : Agrees n ts part other)
    (then' : ∀ a, Agrees n ts (next a) (next' a)) :
    Agrees n ts (part >>= next) (other >>= next') := by
  intro s within
  obtain ⟨same, read, passes⟩ := first s within
  rw [on_bind, on_bind, same]
  rcases outcome : other.on s with ⟨_ | a, between⟩ <;> rw [outcome] at passes
  · exact ⟨rfl, read, passes⟩
  · obtain ⟨same', read', passes'⟩ := then' a between (within.onward passes)
    exact ⟨same', _, passes.trans passes'⟩

/-- A part that agrees with itself passes over tokens, whatever comes of it. -/
theorem Agrees.passes {s : Scan R} (balanced : Agrees s.nesting s.rest part part) :
    ∃ read, s.Passes read (part.on s).2 :=
  (balanced s ⟨rfl, List.suffix_refl _⟩).2

/-- A part that stays where it is. -/
theorem agrees_of_stays (stays : ∀ s, (part.on s).2 = s) : Agrees n ts part part :=
  fun s _ => ⟨rfl, [], by rw [stays]; exact .refl s⟩

theorem agrees_pure (a : α) : Agrees n ts (pure a : Parse R α) (pure a) :=
  agrees_of_stays fun _ => rfl

theorem agrees_throw (e : SyntaxError) : Agrees n ts (throw e : Parse R α) (throw e) :=
  agrees_of_stays fun _ => rfl

theorem agrees_fail (fault : SyntaxFault) : Agrees n ts (fail fault : Parse R α) (fail fault) :=
  agrees_of_stays fun _ => rfl

theorem agrees_get : Agrees n ts (get : Parse R (Scan R)) get := agrees_of_stays fun _ => rfl

theorem agrees_next? : Agrees n ts (next? : Parse R _) next? := agrees_of_stays fun _ => rfl

theorem agrees_position : Agrees n ts (position : Parse R _) position :=
  agrees_of_stays fun _ => rfl

theorem agrees_nextIs (mark : Mark) : Agrees n ts (nextIs mark : Parse R _) (nextIs mark) :=
  agrees_of_stays fun s => by rw [nextIs_on]

theorem agrees_skip : Agrees n ts (skip : Parse R _) skip :=
  fun s _ => ⟨rfl, _, s.passes_skipped⟩

theorem agrees_expect (mark : Mark) (what : Expected) :
    Agrees n ts (expect mark what : Parse R _) (expect mark what) :=
  (agrees_nextIs mark).bind fun follows => by
    cases follows
    · exact agrees_fail _
    · exact agrees_skip

/-! ### Counting -/

theorem bracketed_agrees (inside : Agrees n ts part other) :
    Agrees n ts (bracketed part) (bracketed other) := by
  intro s within
  obtain ⟨same, read, passes⟩ := inside { s with bars := 0 } ⟨within.nesting, within.rest⟩
  rw [bracketed_on, bracketed_on, same]
  exact ⟨rfl, read, passes.rest, passes.stop, rfl, passes.nesting⟩

theorem barred_agrees (inside : Agrees n ts part other) :
    Agrees n ts (barred part) (barred other) := by
  intro s within
  obtain ⟨same, read, passes⟩ :=
    inside { s with bars := s.bars + 1 } ⟨within.nesting, within.rest⟩
  rw [barred_on, barred_on, same]
  exact ⟨rfl, read, passes.rest, passes.stop, congrArg (· - 1) passes.bars, passes.nesting⟩

/-- One level further in there is nothing to ask for where no level is left. -/
theorem deeper_agrees (inside : n < Formula.maxDepth → Agrees (n + 1) ts part other) :
    Agrees n ts (deeper part) (deeper other) := by
  intro s within
  rw [deeper_on, deeper_on]
  split
  · exact ⟨rfl, [], .refl s⟩
  · rename_i room
    have nesting := within.nesting
    obtain ⟨same, read, passes⟩ := inside (by omega) { s with nesting := s.nesting + 1 }
      ⟨congrArg (· + 1) nesting, within.rest⟩
    rw [same]
    exact ⟨rfl, read, passes.rest, passes.stop, passes.bars, congrArg (· - 1) passes.nesting⟩

/-! ### Loops -/

theorem chain_agrees {step step' : Formula R → Parse R (Option (Formula R))}
    (steps : ∀ left, Agrees n ts (step left) (step' left)) (fuel : Nat) (left : Formula R) :
    Agrees n ts (chain step fuel left) (chain step' fuel left) := by
  induction fuel generalizing left with
  | zero => exact agrees_pure left
  | succ fuel ih =>
      refine (steps left).bind fun longer => ?_
      cases longer with
      | none => exact agrees_pure left
      | some longer => exact ih longer

theorem leftChain_agrees {first first' : Parse R (Formula R)}
    {step step' : Formula R → Parse R (Option (Formula R))} (firsts : Agrees n ts first first')
    (steps : ∀ left, Agrees n ts (step left) (step' left)) :
    Agrees n ts (leftChain first step) (leftChain first' step') :=
  firsts.bind fun left => agrees_get.bind fun s => chain_agrees steps s.rest.length left

end Agrees

/-! ## Parts made of operands -/

/-- Operands that agree on scans of a nesting, with a sign and without one. -/
structure Operand.Agrees (nesting : Nat) (tokens : List (PlacedToken R)) (a b : Operand R) :
    Prop where
  signed : Parse.Agrees nesting tokens a.signed b.signed
  power : Parse.Agrees nesting tokens a.power b.power

section Operands

variable {n : Nat} {ts : List (PlacedToken R)} {a b : Operand R}

/-- What is read behind an operator, and joined to what stands in front of it. -/
theorem joined_agrees {part other : Parse R (Formula R)} (parts : Agrees n ts part other)
    (op : BinaryOp) (left : Formula R) :
    Agrees n ts (do skip; return some (Formula.binary op left (← part)))
      (do skip; return some (Formula.binary op left (← other))) :=
  agrees_skip.bind fun _ => parts.bind fun _ => agrees_pure _

theorem arguments_agrees {content content' : Parse R (Formula R)}
    (contents : Agrees n ts content content') (name : String) (start : Nat) :
    Agrees n ts (arguments name start content) (arguments name start content') := by
  refine (agrees_nextIs .opening).bind fun follows => ?_
  cases follows
  · exact agrees_throw _
  · exact agrees_skip.bind fun _ => contents.bind fun x =>
      (agrees_expect _ _).bind fun _ => agrees_pure x

section Same

variable (operands : a.Agrees n ts b)

include operands

theorem factorStep_agrees (left : Formula R) :
    Agrees n ts (factorStep a left) (factorStep b left) := by
  have factor := operands.power.bind fun x => agrees_pure (some (Formula.binary .mul left x))
  refine agrees_next?.bind fun token => ?_
  rcases token with _ | _ | _ | mark
  · exact agrees_pure none
  · exact factor
  · exact factor
  · cases mark with
    | opening => exact factor
    | bar =>
        refine agrees_get.bind fun s => ?_
        by_cases free : s.bars = 0
        · simpa only [if_pos free] using factor
        · simpa only [if_neg free] using agrees_pure none
    | _ => exact agrees_pure none

theorem juxtaposition_agrees : Agrees n ts (juxtaposition a) (juxtaposition b) :=
  leftChain_agrees operands.signed (factorStep_agrees operands)

theorem termStep_agrees (left : Formula R) : Agrees n ts (termStep a left) (termStep b left) := by
  have products := juxtaposition_agrees operands
  refine agrees_next?.bind fun token => ?_
  rcases token with _ | _ | _ | mark
  · exact agrees_pure none
  · exact agrees_pure none
  · exact agrees_pure none
  · cases mark with
    | star => exact joined_agrees products .mul left
    | slash => exact joined_agrees products .div left
    | percent => exact joined_agrees products .mod left
    | _ => exact agrees_pure none

theorem term_agrees : Agrees n ts (term a) (term b) :=
  leftChain_agrees (juxtaposition_agrees operands) (termStep_agrees operands)

theorem sumStep_agrees (left : Formula R) : Agrees n ts (sumStep a left) (sumStep b left) := by
  have terms := term_agrees operands
  refine agrees_next?.bind fun token => ?_
  rcases token with _ | _ | _ | mark
  · exact agrees_pure none
  · exact agrees_pure none
  · exact agrees_pure none
  · cases mark with
    | plus => exact joined_agrees terms .add left
    | minus => exact joined_agrees terms .sub left
    | _ => exact agrees_pure none

theorem sum_agrees : Agrees n ts (sum a) (sum b) :=
  leftChain_agrees (term_agrees operands) (sumStep_agrees operands)

theorem named_agrees (name : String) (start : Nat) :
    Agrees n ts (named a name start) (named b name start) := by
  have inside := bracketed_agrees (sum_agrees operands)
  unfold named
  cases NameMeaning.of name with
  | free => exact agrees_pure _
  | constant c => exact agrees_pure _
  | function op => exact arguments_agrees (inside.bind fun x => agrees_pure _) name start
  | naturalLogarithm => exact arguments_agrees (inside.bind fun x => agrees_pure _) name start
  | logarithm =>
      exact arguments_agrees (inside.bind fun base => (agrees_expect _ _).bind fun _ =>
        inside.bind fun x => agrees_pure _) name start

theorem primary_agrees : Agrees n ts (primary a) (primary b) := by
  have sums := sum_agrees operands
  refine agrees_position.bind fun start => agrees_next?.bind fun token => ?_
  cases token with
  | none => exact agrees_throw _
  | some token =>
      refine agrees_skip.bind fun _ => ?_
      rcases token with value | name | mark
      · exact agrees_pure _
      · exact named_agrees operands name start
      · cases mark with
        | opening =>
            exact (bracketed_agrees sums).bind fun x =>
              (agrees_expect _ _).bind fun _ => agrees_pure x
        | bar =>
            exact (barred_agrees sums).bind fun x =>
              (agrees_expect _ _).bind fun _ => agrees_pure _
        | _ => exact agrees_throw _

theorem exponent_agrees : Agrees n ts (exponent a) (exponent b) := by
  refine (primary_agrees operands).bind fun base => (agrees_nextIs .caret).bind fun follows => ?_
  cases follows
  · exact agrees_pure base
  · exact agrees_skip.bind fun _ => operands.signed.bind fun x => agrees_pure _

end Same

section Deeper

variable (operands : n < Formula.maxDepth → a.Agrees (n + 1) ts b)

include operands

theorem power_agrees : Agrees n ts (power a) (power b) :=
  deeper_agrees fun room => exponent_agrees (operands room)

theorem signed_agrees [Neg R] : Agrees n ts (signed a) (signed b) := by
  refine (agrees_nextIs .minus).bind fun follows => ?_
  cases follows
  · exact power_agrees operands
  · exact agrees_skip.bind fun _ =>
      (deeper_agrees fun room => (operands room).signed).bind fun x => agrees_pure _

end Deeper

end Operands

end Parse

end Tonegraph
