import Tonegraph.Proofs.Evaluation
/-!
# The order in which names are looked up

Two parts of the program report a variable that has no value. Creating a segment takes the first
name of the formula from left to right (`Formula.mentions`). Evaluation takes the name that it looks
up first, and `Formula.consulted` lists the names in that order: from left to right as well, but the
argument of a logarithm before its base. What an evaluation reports is the first name of that list
without a value (`failure?_evaluate`).

Both lists have the same members (`consulted_perm`), so the two report some name or none together.
They report the same name unless a logarithm has variables in both of its operands
(`find?_consulted_of_oneSided`).
-/

set_option autoImplicit false

namespace Tonegraph

/-- What a computation failed with. -/
def failure? {ε α : Type} : Except ε α → Option ε
  | .error e => some e
  | .ok _ => none

theorem failure?_eq_some_iff {ε α : Type} {result : Except ε α} {e : ε} :
    failure? result = some e ↔ result = .error e := by
  cases result <;> simp [failure?]

theorem failure?_map {ε α β : Type} (result : Except ε α) (f : α → β) :
    failure? (do
      let v ← result
      return f v) = failure? result := by
  cases result <;> rfl

/-- Of two computations, the one that comes first is the first to fail. -/
theorem failure?_both {ε α β γ : Type} (first : Except ε α) (second : Except ε β)
    (f : α → β → γ) :
    failure? (do
      let v ← first
      let w ← second
      return f v w) = (failure? first).or (failure? second) := by
  cases first <;> cases second <;> rfl

namespace Formula

variable {R : Type}

/-! ## The order of evaluation -/

/-- The variables of a formula in the order in which an evaluation looks them up. -/
def consulted : Formula R → List String
  | .named name => [name]
  | .unary _ x => x.consulted
  | .binary .log base x => x.consulted ++ base.consulted
  | .binary _ x y => x.consulted ++ y.consulted
  | _ => []

/-- The variables of the operands, those of the first operand before those of the second unless the
operation is a logarithm. -/
theorem consulted_binary (op : BinaryOp) (x y : Formula R) :
    (binary op x y).consulted =
      if op = .log then y.consulted ++ x.consulted else x.consulted ++ y.consulted := by
  cases op <;> rfl

theorem consulted_perm (x : Formula R) : x.consulted.Perm x.mentions := by
  induction x with
  | number _ | constant _ | named _ => exact .refl _
  | unary op x ih => exact ih
  | binary op x y ihX ihY =>
      rw [consulted_binary, mentions_binary]
      split
      · exact List.perm_append_comm.trans (ihX.append ihY)
      · exact ihX.append ihY

/-- An evaluation reports the first of the names it looks up that has no value. -/
theorem failure?_evaluate [Arithmetic R] (b : Bindings R) (x : Formula R) :
    failure? (x.evaluate b) =
      (x.consulted.find? fun name => (b.get? name).isNone).map .unbound := by
  induction x with
  | number _ | constant _ => rfl
  | named name =>
      rw [evaluate_named]
      cases found : b.get? name <;> simp [failure?, consulted, found]
  | unary op x ih =>
      rw [evaluate_unary, failure?_map]
      exact ih
  | binary op x y ihX ihY =>
      rw [consulted_binary]
      cases op with
      | log =>
          rw [if_pos rfl, List.find?_append, Option.map_or, ← ihX, ← ihY]
          exact failure?_both (y.evaluate b) (x.evaluate b) _
      | add | sub | mul | div | mod | pow =>
          rw [if_neg (by decide), List.find?_append, Option.map_or, ← ihX, ← ihY]
          exact failure?_both (x.evaluate b) (y.evaluate b) _

theorem evaluateAt_eq_error_iff [Arithmetic R] {x : Formula R} {t : R} {name : String} :
    x.evaluateAt t = .error (.unbound name) ↔
      x.consulted.find? (· ≠ timeName) = some name := by
  have unbound : (fun name => ((Bindings.atTime t).get? name).isNone) = (· ≠ timeName) := by
    funext name
    rw [Bindings.get?_atTime]
    by_cases time : name = timeName <;> simp [time]
  rw [evaluateAt, ← failure?_eq_some_iff, failure?_evaluate, unbound]
  simp

/-! ## Where both orders give the same -/

/-- The formula has no variable but the time. -/
def Timed (x : Formula R) : Prop := ∀ name ∈ x.mentions, name = timeName

/-- Each logarithm of the formula has an operand without variables other than the time. -/
def OneSided : Formula R → Prop
  | .unary _ x => x.OneSided
  | .binary op x y => (op = .log → x.Timed ∨ y.Timed) ∧ x.OneSided ∧ y.OneSided
  | _ => True

theorem Timed.filter_mentions {x : Formula R} (timed : x.Timed) :
    x.mentions.filter (· ≠ timeName) = [] := by
  rw [List.filter_eq_nil_iff]
  intro name member
  simpa using timed name member

/-- The orders differ by swaps of a logarithm's operands, and one of the two has nothing to swap. -/
theorem filter_consulted_of_oneSided {x : Formula R} (oneSided : x.OneSided) :
    x.consulted.filter (· ≠ timeName) = x.mentions.filter (· ≠ timeName) := by
  induction x with
  | number _ | constant _ | named _ => rfl
  | unary op x ih => exact ih oneSided
  | binary op x y ihX ihY =>
      obtain ⟨timed, left, right⟩ := oneSided
      rw [consulted_binary, mentions_binary, List.filter_append]
      split
      · rename_i log
        rw [List.filter_append, ihX left, ihY right]
        rcases timed log with base | argument
        · rw [base.filter_mentions, List.append_nil, List.nil_append]
        · rw [argument.filter_mentions, List.append_nil, List.nil_append]
      · rw [List.filter_append, ihX left, ihY right]

theorem find?_consulted_of_oneSided {x : Formula R} (oneSided : x.OneSided) :
    x.consulted.find? (· ≠ timeName) = x.mentions.find? (· ≠ timeName) := by
  rw [← List.head?_filter, ← List.head?_filter, filter_consulted_of_oneSided oneSided]

/-- **Two reports of one formula.** For a formula with a variable other than the time, creating a
segment reports the first such variable from left to right, whatever the window, and evaluation at
any time reports the first one that it looks up. So the two name the same variable exactly if those
agree, and they do in a formula whose logarithms each have an operand without such a variable. -/
theorem reported_names {S : Type} [Arithmetic R] {x : Formula R}
    (foreign : ∃ name ∈ x.names, name ≠ timeName) :
    ∃ first next,
      x.mentions.find? (· ≠ timeName) = some first ∧
      x.consulted.find? (· ≠ timeName) = some next ∧
      (∀ text start stop (voice : Voice R S),
        Segment.create text x start stop voice = .error (.eval (.unbound first))) ∧
      (∀ t, x.evaluateAt t = .error (.unbound next)) ∧
      (first = next ↔
        x.consulted.find? (· ≠ timeName) = x.mentions.find? (· ≠ timeName)) ∧
      (x.OneSided → first = next) := by
  obtain ⟨name, named, other⟩ := foreign
  have mentioned : name ∈ x.mentions := mem_names.mp named
  have someMentioned : (x.mentions.find? (· ≠ timeName)).isSome :=
    List.find?_isSome.mpr ⟨name, mentioned, by simpa using other⟩
  have someConsulted : (x.consulted.find? (· ≠ timeName)).isSome :=
    List.find?_isSome.mpr ⟨name, x.consulted_perm.mem_iff.mpr mentioned, by simpa using other⟩
  obtain ⟨first, first_eq⟩ := Option.isSome_iff_exists.mp someMentioned
  obtain ⟨next, next_eq⟩ := Option.isSome_iff_exists.mp someConsulted
  have agree : first = next ↔
      x.consulted.find? (· ≠ timeName) = x.mentions.find? (· ≠ timeName) := by
    rw [first_eq, next_eq, Option.some.injEq, eq_comm]
  have firstForeign : x.foreignName? = some first := by rw [foreignName?, find?_names, first_eq]
  exact ⟨first, next, first_eq, next_eq,
    fun text start stop voice => Segment.create_of_foreign firstForeign,
    fun t => evaluateAt_eq_error_iff.mpr next_eq, agree,
    fun oneSided => agree.mpr (find?_consulted_of_oneSided oneSided)⟩

/-- A logarithm of `a` to the base of the time, and `b` added to it: both reports name `a`. -/
theorem reported_names_logarithm_of_time :
    let x : Formula Fraction :=
      .binary .add (.binary .log (.named timeName) (.named "a")) (.named "b")
    (∃ name ∈ x.names, name ≠ timeName) ∧ x.OneSided ∧
      (∀ text start stop (voice : Voice Fraction ℚ),
        Segment.create text x start stop voice = .error (.eval (.unbound "a"))) ∧
      ∀ t, x.evaluateAt t = .error (.unbound "a") := by
  intro x
  have foreign : ∃ name ∈ x.names, name ≠ timeName := ⟨"a", by decide, by decide⟩
  have oneSided : x.OneSided := by simp [x, OneSided, Timed]
  obtain ⟨first, next, first_eq, -, creates, evaluates, -, agree⟩ :=
    reported_names (S := ℚ) foreign
  have first_a : "a" = first := by
    rw [show x.mentions.find? (· ≠ timeName) = some "a" by decide, Option.some.injEq] at first_eq
    exact first_eq
  rw [← agree oneSided, ← first_a] at evaluates
  rw [← first_a] at creates
  exact ⟨foreign, oneSided, creates, evaluates⟩

/-- The logarithm of `b` to the base `a`: creating a segment reports the base, evaluation the
argument. -/
theorem reported_names_differ :
    let x : Formula Fraction := .binary .log (.named "a") (.named "b")
    (∃ name ∈ x.names, name ≠ timeName) ∧
      (∀ voice : Voice Fraction ℚ,
        Segment.create "log(a,b)" x 0 1 voice = .error (.eval (.unbound "a"))) ∧
      ∀ t, x.evaluateAt t = .error (.unbound "b") := by
  intro x
  exact ⟨⟨"a", by decide, by decide⟩, fun voice => Segment.create_of_foreign (by decide),
    fun t => evaluateAt_eq_error_iff.mpr (by decide)⟩

end Formula

end Tonegraph
