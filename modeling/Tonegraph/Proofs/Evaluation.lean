import Tonegraph.Proofs.Segment
import Tonegraph.Proofs.Formula.Names
import Tonegraph.Proofs.Arithmetic.Fraction
/-!
# What the value of a formula depends on

A formula is evaluated under bindings of names, and only the names in it count: it has a value where
they are all bound (`evaluate_isOk_iff`), the error is one of them that is not (`unbound_of_error`),
and bindings that agree on them give the same (`evaluate_congr`). Each is an induction on the
formula. A logarithm evaluates its second operand first, so what goes wrong first depends on the
order, but that something goes wrong does not.

A segment's formula has no name but the time, which is bound when it is played. So silence in a
segment is always a value without a place on the keyboard, never a value that is missing.
-/

set_option autoImplicit false

namespace Tonegraph

variable {R S : Type}

/-! ## Bindings -/

namespace Bindings

/-- Every name of a list is bound. -/
def Covers (b : Bindings R) (names : List String) : Prop :=
  ∀ name ∈ names, ∃ value, b.get? name = some value

/-- Two bindings give the same for every name of a list. -/
def AgreeOn (names : List String) (a b : Bindings R) : Prop :=
  ∀ name ∈ names, a.get? name = b.get? name

theorem covers_append {b : Bindings R} {first second : List String} :
    b.Covers (first ++ second) ↔ b.Covers first ∧ b.Covers second := List.forall_mem_append

theorem agreeOn_append {a b : Bindings R} {first second : List String} :
    AgreeOn (first ++ second) a b ↔ AgreeOn first a b ∧ AgreeOn second a b :=
  List.forall_mem_append

theorem get?_atTime (t : R) (name : String) :
    (atTime t).get? name = if name = timeName then some t else none := by
  by_cases time : timeName = name
  · simp [get?, atTime, time]
  · simp [get?, atTime, time, Ne.symm time]

theorem covers_atTime {t : R} {names : List String} :
    (atTime t).Covers names ↔ ∀ name ∈ names, name = timeName := by
  refine forall₂_congr fun name _ => ?_
  rw [get?_atTime]
  by_cases time : name = timeName
  · simp [time]
  · simp [time]

end Bindings

/-! ## Evaluation -/

namespace Formula

variable {b : Bindings R}

theorem covers_names_iff {x : Formula R} : b.Covers x.names ↔ b.Covers x.mentions := by
  simp only [Bindings.Covers, mem_names]

variable [Arithmetic R]

theorem evaluate_named (name : String) :
    (named name : Formula R).evaluate b =
      match b.get? name with
      | some value => .ok value
      | none => .error (.unbound name) := rfl

theorem evaluate_unary (op : UnaryOp) (x : Formula R) :
    (unary op x).evaluate b = (do
      let v ← x.evaluate b
      return op.value v) := rfl

/-- Either operand may be the one that is evaluated first, as the operation has it. -/
theorem evaluate_binary (op : BinaryOp) (x y : Formula R) :
    ((binary op x y).evaluate b = do
      let v ← x.evaluate b
      let w ← y.evaluate b
      return op.value v w) ∨
    (binary op x y).evaluate b = do
      let w ← y.evaluate b
      let v ← x.evaluate b
      return op.value v w := by
  cases op with
  | log => exact .inr rfl
  | _ => exact .inl rfl

theorem evaluate_unary_eq_ok {op : UnaryOp} {x : Formula R} {value : R} :
    (unary op x).evaluate b = .ok value ↔ ∃ v, x.evaluate b = .ok v ∧ op.value v = value := by
  rw [evaluate_unary]
  cases x.evaluate b <;> simp [bind, Except.bind, pure, Except.pure]

theorem evaluate_unary_eq_error {op : UnaryOp} {x : Formula R} {e : EvalError} :
    (unary op x).evaluate b = .error e ↔ x.evaluate b = .error e := by
  rw [evaluate_unary]
  cases x.evaluate b <;> simp [bind, Except.bind, pure, Except.pure]

theorem evaluate_binary_eq_ok {op : BinaryOp} {x y : Formula R} {value : R} :
    (binary op x y).evaluate b = .ok value ↔
      ∃ v w, x.evaluate b = .ok v ∧ y.evaluate b = .ok w ∧ op.value v w = value := by
  obtain order | order := evaluate_binary (b := b) op x y <;> rw [order] <;>
    cases x.evaluate b <;> cases y.evaluate b <;> simp [bind, Except.bind, pure, Except.pure]

/-- Either operand may be the one that goes wrong first. -/
theorem evaluate_binary_eq_error {op : BinaryOp} {x y : Formula R} {e : EvalError}
    (wrong : (binary op x y).evaluate b = .error e) :
    x.evaluate b = .error e ∨ y.evaluate b = .error e := by
  obtain order | order := evaluate_binary (b := b) op x y <;> rw [order] at wrong <;>
    cases hx : x.evaluate b <;> cases hy : y.evaluate b <;>
      simp_all [bind, Except.bind, pure, Except.pure]

theorem evaluate_binary_congr {c : Bindings R} {op : BinaryOp} {x y : Formula R}
    (left : x.evaluate b = x.evaluate c) (right : y.evaluate b = y.evaluate c) :
    (binary op x y).evaluate b = (binary op x y).evaluate c := by
  cases op <;> simp only [evaluate, left, right]

/-- A formula has a value exactly where all its names are bound. -/
theorem evaluate_isOk_iff {x : Formula R} :
    (∃ value, x.evaluate b = .ok value) ↔ b.Covers x.mentions := by
  induction x with
  | number value => simpa [mentions, Bindings.Covers] using ⟨value, rfl⟩
  | constant c => simpa [mentions, Bindings.Covers] using ⟨c.value, rfl⟩
  | named name =>
      rw [evaluate_named]
      cases found : b.get? name <;> simp [Bindings.Covers, found]
  | unary op x ih =>
      rw [mentions_unary, ← ih]
      simp only [evaluate_unary_eq_ok]
      constructor
      · rintro ⟨_, v, evaluated, -⟩
        exact ⟨v, evaluated⟩
      · rintro ⟨v, evaluated⟩
        exact ⟨_, v, evaluated, rfl⟩
  | binary op x y ihX ihY =>
      rw [mentions_binary, Bindings.covers_append, ← ihX, ← ihY]
      simp only [evaluate_binary_eq_ok]
      constructor
      · rintro ⟨_, v, w, left, right, -⟩
        exact ⟨⟨v, left⟩, w, right⟩
      · rintro ⟨⟨v, left⟩, w, right⟩
        exact ⟨_, v, w, left, right, rfl⟩

/-- What goes wrong is that a name of the formula is not bound. -/
theorem unbound_of_error {x : Formula R} {e : EvalError} (wrong : x.evaluate b = .error e) :
    ∃ name ∈ x.mentions, b.get? name = none ∧ e = .unbound name := by
  induction x with
  | number value => cases wrong
  | constant c => cases wrong
  | named name =>
      rw [evaluate_named] at wrong
      cases found : b.get? name with
      | some value =>
          rw [found] at wrong
          cases wrong
      | none =>
          rw [found] at wrong
          cases wrong
          exact ⟨name, by simp, found, rfl⟩
  | unary op x ih => exact ih (evaluate_unary_eq_error.mp wrong)
  | binary op x y ihX ihY =>
      rw [mentions_binary]
      rcases evaluate_binary_eq_error wrong with left | right
      · obtain ⟨name, member, rest⟩ := ihX left
        exact ⟨name, List.mem_append_left _ member, rest⟩
      · obtain ⟨name, member, rest⟩ := ihY right
        exact ⟨name, List.mem_append_right _ member, rest⟩

theorem evaluate_congr {c : Bindings R} {x : Formula R}
    (agree : Bindings.AgreeOn x.mentions b c) : x.evaluate b = x.evaluate c := by
  induction x with
  | number value => rfl
  | constant c => rfl
  | named name => rw [evaluate_named, evaluate_named, agree name (by simp)]
  | unary op x ih => rw [evaluate_unary, evaluate_unary, ih agree]
  | binary op x y ihX ihY =>
      rw [mentions_binary, Bindings.agreeOn_append] at agree
      exact evaluate_binary_congr (ihX agree.1) (ihY agree.2)

/-- A formula has a value at every time, or at none. -/
theorem evaluateAt_isOk_iff {x : Formula R} {t : R} :
    (∃ value, x.evaluateAt t = .ok value) ↔ x.foreignName? = none := by
  rw [evaluateAt, evaluate_isOk_iff, ← covers_names_iff, Bindings.covers_atTime,
    foreignName?_eq_none_iff]

end Formula

/-! ## Segments -/

namespace Segment

variable [Arithmetic R]

theorem evaluateAt_isOk (s : Segment R S) (t : R) : ∃ value, s.formula.evaluateAt t = .ok value :=
  Formula.evaluateAt_isOk_iff.mpr s.closed

theorem valueAt?_of_evaluateAt {s : Segment R S} {t value : R}
    (evaluated : s.formula.evaluateAt t = .ok value) : s.valueAt? t = some value := by
  rw [valueAt?, evaluated, Except.toOption]

/-- With bounds in order, creation asks that the formula has a value at every time. -/
theorem create_isOk_iff {text : String} {x : Formula R} {start stop : Int32} {voice : Voice R S}
    (ordered : start < stop) :
    (∃ s, Segment.create text x start stop voice = .ok s) ↔
      ∀ t, ∃ value, x.evaluateAt t = .ok value := by
  simp only [Formula.evaluateAt_isOk_iff]
  constructor
  · rintro ⟨s, created⟩ _
    cases foreign : x.foreignName? with
    | none => rfl
    | some name =>
        rw [create_of_foreign foreign] at created
        cases created
  · intro closed
    exact ⟨_, create_of_lt (closed Arithmetic.undefined) ordered⟩

/-- A segment is silent where its value has no place on the keyboard. -/
theorem frequencyAt?_eq_none_iff {s : Segment R S} {t : R} :
    s.frequencyAt? t = none ↔
      ∃ value, s.formula.evaluateAt t = .ok value ∧ s.voice.keyboard.keyIndex? value = none := by
  obtain ⟨value, evaluated⟩ := s.evaluateAt_isOk t
  rw [frequencyAt?, valueAt?_of_evaluateAt evaluated, Option.bind_some, Keyboard.frequencyOf?,
    Option.map_eq_none_iff]
  constructor
  · intro silent
    exact ⟨value, evaluated, silent⟩
  · rintro ⟨other, evaluated', silent⟩
    rw [evaluated, Except.ok.injEq] at evaluated'
    rwa [evaluated']

/-- The points of a preview are values of the formula. -/
theorem evaluateAt_of_mem_preview {s : Segment R S} {point : PreviewPoint R}
    (member : point ∈ s.preview) :
    s.formula.evaluateAt (Scalar.ofInt point.time) = .ok point.value := by
  obtain ⟨time, -, rfl⟩ := List.mem_map.mp member
  obtain ⟨value, evaluated⟩ := s.evaluateAt_isOk (Scalar.ofInt time)
  show s.formula.evaluateAt (Scalar.ofInt time) = _
  rw [valueAt?_of_evaluateAt evaluated, Option.getD_some]
  exact evaluated

end Segment

/-- A formula has a value where its names are bound, and else the error is a name of it that is not
bound; what the names are bound to is all that counts. So a segment, whose formula is created with
time for its only name, has a value at every time: it is silent only where that value has no place
on the keyboard, and no point of its preview stands in for a missing value. -/
theorem Formula.value_of_names [Arithmetic R] (x : Formula R) :
    (∀ b : Bindings R,
      ((∃ value, x.evaluate b = .ok value) ↔ b.Covers x.names) ∧
      (¬b.Covers x.names →
        ∃ name ∈ x.names, b.get? name = none ∧ x.evaluate b = .error (.unbound name))) ∧
    (∀ b c : Bindings R, Bindings.AgreeOn x.names b c → x.evaluate b = x.evaluate c) ∧
    (∀ text start stop (voice : Voice R S), start < stop →
      ((∃ s, Segment.create text x start stop voice = .ok s) ↔
        ∀ t, ∃ value, x.evaluateAt t = .ok value)) ∧
    ∀ s : Segment R S, s.formula = x →
      (∀ t, s.frequencyAt? t = none ↔
        ∃ value, x.evaluateAt t = .ok value ∧ s.voice.keyboard.keyIndex? value = none) ∧
      ∀ point ∈ s.preview, x.evaluateAt (Scalar.ofInt point.time) = .ok point.value := by
  refine ⟨fun b => ⟨?_, fun uncovered => ?_⟩, fun b c agree => ?_,
    fun text start stop voice ordered => Segment.create_isOk_iff ordered, ?_⟩
  · rw [covers_names_iff, evaluate_isOk_iff]
  · rw [covers_names_iff, ← evaluate_isOk_iff] at uncovered
    cases evaluated : x.evaluate b with
    | ok value => exact absurd ⟨value, evaluated⟩ uncovered
    | error e =>
        obtain ⟨name, member, free, rfl⟩ := unbound_of_error evaluated
        exact ⟨name, mem_names.mpr member, free, rfl⟩
  · exact evaluate_congr fun name member => agree name (mem_names.mpr member)
  · rintro s rfl
    exact ⟨fun t => Segment.frequencyAt?_eq_none_iff,
      fun point member => Segment.evaluateAt_of_mem_preview member⟩

/-- One divided by the time less two. -/
def shiftedReciprocal : Formula Fraction :=
  .binary .div (.number ⟨some 1⟩) (.binary .sub (.named timeName) (.number ⟨some 2⟩))

theorem covers_shiftedReciprocal {b : Bindings Fraction} :
    b.Covers shiftedReciprocal.names ↔ ∃ t, b.get? timeName = some t := by
  have only : shiftedReciprocal.names = [timeName] := by decide
  rw [only, Bindings.Covers, List.forall_mem_singleton]

/-- It takes a time and nothing else, and two seconds into a segment of it there is silence. -/
theorem shiftedReciprocal_value :
    let nothing : Bindings Fraction := .empty
    let three : Bindings Fraction := .atTime ⟨some 3⟩
    let more : Bindings Fraction := ⟨[("u", ⟨none⟩), (timeName, ⟨some 3⟩)], by decide⟩
    let s : Segment Fraction ℚ :=
      ⟨"1/(t-2)", shiftedReciprocal, ⟨0, 4, by decide⟩, ⟨Scalar.ofNat 0, 1, .piano⟩, false, 0,
        ⟨some 0⟩, by decide⟩
    ¬nothing.Covers shiftedReciprocal.names ∧
      shiftedReciprocal.evaluate nothing = .error (.unbound timeName) ∧
      Bindings.AgreeOn shiftedReciprocal.names three more ∧
      shiftedReciprocal.evaluate more = .ok ⟨some 1⟩ ∧
      (0 : Int32) < 4 ∧
      (∃ made, Segment.create s.text shiftedReciprocal 0 4 s.voice = .ok made) ∧
      s.frequencyAt? ⟨some 2⟩ = none ∧
      ∀ point ∈ s.preview,
        shiftedReciprocal.evaluateAt (Scalar.ofInt point.time) = .ok point.value := by
  intro nothing three more s
  obtain ⟨bound, congr, creates, plays⟩ := Formula.value_of_names (S := ℚ) shiftedReciprocal
  have uncovered : ¬nothing.Covers shiftedReciprocal.names := by
    rw [covers_shiftedReciprocal]
    rintro ⟨t, found⟩
    cases found
  have unbound : shiftedReciprocal.evaluate nothing = .error (.unbound timeName) := by
    obtain ⟨name, member, -, error⟩ := (bound nothing).2 uncovered
    have time : name = timeName := Formula.foreignName?_eq_none_iff.mp s.closed name member
    rwa [time] at error
  have agree : Bindings.AgreeOn shiftedReciprocal.names three more := by
    intro name member
    rw [Formula.foreignName?_eq_none_iff.mp s.closed name member]
    rfl
  have value : shiftedReciprocal.evaluate three = .ok ⟨some 1⟩ := by decide +kernel
  have everywhere : ∀ t, ∃ value, shiftedReciprocal.evaluateAt t = .ok value := by
    intro t
    exact (bound (.atTime t)).1.mpr (covers_shiftedReciprocal.mpr ⟨t, rfl⟩)
  have undefined : shiftedReciprocal.evaluateAt ⟨some 2⟩ = .ok ⟨none⟩ := by decide +kernel
  have ordered : (0 : Int32) < 4 := by decide
  exact ⟨uncovered, unbound, agree, (congr three more agree).symm.trans value, ordered,
    (creates s.text 0 4 s.voice ordered).mpr everywhere,
    ((plays s rfl).1 _).mpr ⟨_, undefined, rfl⟩, (plays s rfl).2⟩

end Tonegraph
