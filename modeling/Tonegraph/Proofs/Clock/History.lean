import Tonegraph.Proofs.Arithmetic.Exact
import Tonegraph.Proofs.Clock
/-!
# What a clock shows after any operations

Three of the things that a clock keeps follow from others: the second from the absolute time, the
elapsed time from the absolute time and the origin, and that the clock is not paused from its
tracking. Every operation keeps them so (`Clock.Act.on_consistent`).

The absolute time and the change of second follow from what was done. Some operations give a new
absolute time, and all others move it by their `movement`; some say whether the second has changed,
and all others leave that as it was said. So after any operations it is the latest of these that
counts, and what moved the clock behind it: `Clock.after_history`.
-/

set_option autoImplicit false

namespace Tonegraph.Clock

/-! ## Operations -/

/-- An operation on a clock, with its argument. -/
inductive Act (T : Type) where
  | tick (delta : T)
  | pause
  | unpause
  | beginTracking
  | trackFrom (origin : T)
  | resetTracking
  | endTracking
  | seek (time : T)
  | reset

/-- What a clock answers to an operation. -/
inductive Answer where
  | done
  | ticked (moved : Bool)
  | refused (error : ClockError)
deriving DecidableEq

/-- The answer of an operation that may be refused, and the clock after it. -/
def settled {T : Type} (c : Clock T) : Except ClockError (Clock T) → Answer × Clock T
  | .ok after => (.done, after)
  | .error error => (.refused error, c)

namespace Act

variable {T : Type}

/-- The absolute time that an operation gives to a clock, if it gives one. -/
def target? [Scalar T] : Act T → Option T
  | .seek time => some time
  | .reset => some (Scalar.ofNat 0)
  | _ => none

/-- Operations that say whether the second has changed. -/
def Announces : Act T → Prop
  | .tick _ | .seek _ | .reset => True
  | _ => False

variable [Scalar T]

/-- The answer to an operation, and the clock after it. -/
def on (act : Act T) (c : Clock T) : Answer × Clock T :=
  match act with
  | .tick delta => (.ticked (c.tick delta).1, (c.tick delta).2)
  | .pause => c.settled c.pause
  | .unpause => c.settled c.unpause
  | .beginTracking => c.settled c.beginTracking
  | .trackFrom origin => c.settled (c.trackFrom origin)
  | .resetTracking => c.settled c.resetTracking
  | .endTracking => c.settled c.endTracking
  | .seek time => (.done, c.seek time)
  | .reset => (.done, initial)

/-- By how much an operation moves a clock: a tick that is granted moves it by its seconds. -/
def movement (act : Act T) (c : Clock T) : T :=
  match act, (act.on c).1 with
  | .tick delta, .ticked true => delta
  | _, _ => Scalar.ofNat 0

end Act

section

variable {T : Type} [Scalar T]

/-- A clock after operations, one after the other. -/
def after (c : Clock T) (acts : List (Act T)) : Clock T := acts.foldl (fun c act => (act.on c).2) c

/-- By how much operations move a clock, one after the other. -/
def moved (c : Clock T) : List (Act T) → T
  | [] => Scalar.ofNat 0
  | act :: acts => act.movement c + moved (act.on c).2 acts

/-- One of some operations is the latest of its kind. -/
structure Latest (kind : Act T → Prop) (acts before : List (Act T)) (act : Act T)
    (later : List (Act T)) : Prop where
  split : acts = before ++ act :: later
  ofKind : kind act
  noneLater : ∀ other ∈ later, ¬kind other

theorem after_append (c : Clock T) (before later : List (Act T)) :
    c.after (before ++ later) = (c.after before).after later := List.foldl_append

theorem after_concat (c : Clock T) (before : List (Act T)) (act : Act T) :
    c.after (before ++ [act]) = (act.on (c.after before)).2 := after_append c before [act]

/-- After operations, a clock is as it was after the latest of a kind, and then moved on. -/
theorem Latest.after_eq {kind : Act T → Prop} {acts before later : List (Act T)} {act : Act T}
    (latest : Latest kind acts before act later) (c : Clock T) :
    c.after acts = (c.after (before ++ [act])).after later := by
  rw [latest.split, List.append_cons, after_append]

/-! ## One operation -/

/-- What refuses an operation does nothing. -/
theorem Act.on_refused {act : Act T} {c : Clock T} {error : ClockError}
    (refused : (act.on c).1 = .refused error) : (act.on c).2 = c := by
  have left (outcome : Except ClockError (Clock T)) :
      (c.settled outcome).1 = .refused error → (c.settled outcome).2 = c := by
    cases outcome with
    | ok after => exact nofun
    | error e => exact fun _ => rfl
  cases act with
  | tick delta => cases refused
  | seek time => cases refused
  | reset => cases refused
  | _ => exact left _ refused

theorem Act.on_tick_of_paused {c : Clock T} (paused : c.paused = true) (delta : T) :
    (Act.tick delta).on c = (.ticked false, { c with changed := false }) := by
  rw [on, Clock.tick, if_pos paused]

theorem tick_of_running {c : Clock T} (running : c.paused = false) (delta : T) :
    c.tick delta = (true, { c with
      absolute := c.absolute + delta
      rounded := secondOf (c.absolute + delta)
      changed := secondOf (c.absolute + delta) != c.rounded }.measured) := by
  rw [tick, if_neg (by simp [running])]

@[simp] theorem measured_absolute (c : Clock T) : c.measured.absolute = c.absolute := by
  unfold measured; split <;> rfl

@[simp] theorem measured_rounded (c : Clock T) : c.measured.rounded = c.rounded := by
  unfold measured; split <;> rfl

@[simp] theorem measured_changed (c : Clock T) : c.measured.changed = c.changed := by
  unfold measured; split <;> rfl

@[simp] theorem measured_trackingStart (c : Clock T) :
    c.measured.trackingStart = c.trackingStart := by
  unfold measured; split <;> rfl

/-- An operation that does not say whether the second has changed leaves that as it was, and the
time with it. -/
theorem Act.on_of_silent {act : Act T} (silent : ¬act.Announces) (c : Clock T) :
    (act.on c).2.absolute = c.absolute ∧ (act.on c).2.rounded = c.rounded ∧
      (act.on c).2.changed = c.changed := by
  cases act with
  | tick delta => exact absurd trivial silent
  | seek time => exact absurd trivial silent
  | reset => exact absurd trivial silent
  | pause => rw [on, Clock.pause]; split <;> exact ⟨rfl, rfl, rfl⟩
  | unpause => rw [on, Clock.unpause]; split <;> exact ⟨rfl, rfl, rfl⟩
  | beginTracking =>
      rw [on, Clock.beginTracking, trackFrom_eq]
      split <;> exact ⟨rfl, rfl, rfl⟩
  | trackFrom origin => rw [on, trackFrom_eq]; split <;> exact ⟨rfl, rfl, rfl⟩
  | resetTracking => rw [on, Clock.resetTracking]; split <;> exact ⟨rfl, rfl, rfl⟩
  | endTracking => rw [on, Clock.endTracking]; split <;> exact ⟨rfl, rfl, rfl⟩

theorem Act.target?_of_silent {act : Act T} (silent : ¬act.Announces) : act.target? = none := by
  cases act with
  | seek time => exact absurd trivial silent
  | reset => exact absurd trivial silent
  | _ => rfl

theorem Act.movement_of_silent {act : Act T} (silent : ¬act.Announces) (c : Clock T) :
    act.movement c = Scalar.ofNat 0 := by
  cases act with
  | tick delta => exact absurd trivial silent
  | _ => rfl

/-- The second has changed exactly after a tick that was granted and has led into another one. -/
theorem Act.on_changed_iff {act : Act T} (announces : act.Announces) (c : Clock T) :
    (act.on c).2.changed = true ↔
      (∃ delta, act = .tick delta) ∧ (act.on c).1 = .ticked true ∧
        (act.on c).2.rounded ≠ c.rounded := by
  cases act with
  | tick delta =>
      cases paused : c.paused with
      | true => simp [on_tick_of_paused paused]
      | false => simp [on, tick_of_running paused]
  | seek time => simp [on, Clock.seek]
  | reset => simp [on, initial]
  | _ => cases announces

end

/-! ## Exact clocks -/

/-- An operation puts a clock to a time or moves it. -/
theorem Act.on_absolute (act : Act ℚ) (c : Clock ℚ) :
    (act.on c).2.absolute = act.target?.getD (c.absolute + act.movement c) := by
  by_cases announces : act.Announces
  · cases act with
    | tick delta =>
        cases paused : c.paused with
        | true => simp [movement, target?, on_tick_of_paused paused]
        | false => simp [movement, target?, on, tick_of_running paused]
    | seek time => exact seek_absolute c time
    | reset => rfl
    | _ => cases announces
  · rw [(on_of_silent announces c).1, target?_of_silent announces, movement_of_silent announces,
      ofNat_rat, Nat.cast_zero, add_zero, Option.getD_none]

/-- What a clock keeps beside its absolute time and its origin follows from these. -/
structure Consistent (c : Clock ℚ) : Prop where
  exclusive : c.tracking = true → c.paused = false
  rounded : c.rounded = secondOf c.absolute
  elapsed : c.tracking = true → c.elapsed = c.absolute - c.trackingStart

theorem initial_consistent : (initial : Clock ℚ).Consistent :=
  ⟨nofun, by simp [initial, secondOf_rat]; decide, nofun⟩

/-- A clock that has a new absolute time is brought up to date. -/
theorem Consistent.measured {c : Clock ℚ} (exclusive : c.tracking = true → c.paused = false)
    (rounded : c.rounded = secondOf c.absolute) : c.measured.Consistent := by
  refine ⟨by simpa using exclusive, by simpa using rounded, fun tracking => ?_⟩
  rw [measured_tracking] at tracking
  simp [Clock.measured, tracking]

/-- Every operation keeps a clock consistent, granted or refused. -/
theorem Act.on_consistent {c : Clock ℚ} (consistent : c.Consistent) (act : Act ℚ) :
    (act.on c).2.Consistent := by
  obtain ⟨exclusive, rounded, elapsed⟩ := consistent
  have tracked (origin : ℚ) : ((Act.trackFrom origin).on c).2.Consistent := by
    rw [on, trackFrom_eq]
    split
    · exact ⟨exclusive, rounded, elapsed⟩
    · next running => exact ⟨fun _ => Bool.not_eq_true _ ▸ running, rounded, fun _ => rfl⟩
  cases act with
  | tick delta =>
      cases paused : c.paused with
      | true =>
          rw [on_tick_of_paused paused]
          exact ⟨exclusive, rounded, elapsed⟩
      | false =>
          rw [on, tick_of_running paused]
          exact .measured exclusive rfl
  | pause =>
      rw [on, Clock.pause]
      split
      · exact ⟨exclusive, rounded, elapsed⟩
      · next idle => exact ⟨fun tracking => absurd tracking idle, rounded, elapsed⟩
  | unpause =>
      rw [on, Clock.unpause]
      split
      · exact ⟨fun _ => rfl, rounded, elapsed⟩
      · exact ⟨exclusive, rounded, elapsed⟩
  | beginTracking => exact tracked c.absolute
  | trackFrom origin => exact tracked origin
  | resetTracking =>
      rw [on, Clock.resetTracking]
      split
      · exact ⟨exclusive, rounded, fun _ => by simp [settled]⟩
      · exact ⟨exclusive, rounded, elapsed⟩
  | endTracking =>
      rw [on, Clock.endTracking]
      split
      · exact ⟨nofun, rounded, nofun⟩
      · exact ⟨exclusive, rounded, elapsed⟩
  | seek time => exact .measured exclusive rfl
  | reset => exact initial_consistent

/-! ## Any operations -/

theorem Consistent.after {c : Clock ℚ} (consistent : c.Consistent) (acts : List (Act ℚ)) :
    (c.after acts).Consistent := by
  induction acts generalizing c with
  | nil => exact consistent
  | cons act acts ih => exact ih (act.on_consistent consistent)

/-- Operations that give no absolute time move the clock from where it is. -/
theorem after_absolute (c : Clock ℚ) {acts : List (Act ℚ)}
    (none : ∀ act ∈ acts, act.target? = none) :
    (c.after acts).absolute = c.absolute + c.moved acts := by
  induction acts generalizing c with
  | nil => simp [after, moved]
  | cons act acts ih =>
      have first := act.on_absolute c
      rw [none act List.mem_cons_self, Option.getD_none] at first
      have rest := ih (act.on c).2 fun other member => none other (List.mem_cons_of_mem _ member)
      rw [moved, ← add_assoc, ← first]
      exact rest

theorem after_changed {T : Type} [Scalar T] (c : Clock T) {acts : List (Act T)}
    (silent : ∀ act ∈ acts, ¬act.Announces) : (c.after acts).changed = c.changed := by
  induction acts generalizing c with
  | nil => rfl
  | cons act acts ih =>
      have rest := ih (act.on c).2 fun other member => silent other (List.mem_cons_of_mem _ member)
      exact rest.trans (Act.on_of_silent (silent act List.mem_cons_self) c).2.2

/-- **What a clock shows.** After any operations on a new clock, granted or refused, it is not
paused and tracking at once, its second is the floor of its absolute time as far as 64 bits go, and
its elapsed time is counted from the origin while it is tracking and is zero otherwise. The absolute
time is where the latest seek or reset has put it, or zero before any, and the sum of the ticks
granted since. The second has changed exactly if the latest tick, seek or reset was a tick that was
granted and has led into another second. An operation that is refused leaves the clock as it is, and
so does a tick of a paused clock, but for the change of second. -/
theorem after_history (acts : List (Act ℚ)) :
    let c := (initial : Clock ℚ).after acts
    ¬(c.paused = true ∧ c.tracking = true) ∧
    c.rounded = max Int64.minValue.toInt (min Int64.maxValue.toInt ⌊c.absolute⌋) ∧
    c.elapsedTime = (if c.tracking then c.absolute - c.trackingStart else 0) ∧
    (∀ before act later target, Latest (·.target? ≠ none) acts before act later →
      act.target? = some target →
        c.absolute = target + (initial.after (before ++ [act])).moved later) ∧
    ((∀ act ∈ acts, act.target? = none) → c.absolute = initial.moved acts) ∧
    (∀ before act later, Latest Act.Announces acts before act later →
      (c.changed = true ↔ (∃ delta, act = .tick delta) ∧
        (act.on (initial.after before)).1 = .ticked true ∧
        (initial.after (before ++ [act])).rounded ≠ (initial.after before).rounded)) ∧
    ((∀ act ∈ acts, ¬act.Announces) → c.changed = false) ∧
    (∀ (act : Act ℚ) error, (act.on c).1 = .refused error → (act.on c).2 = c) ∧
    ∀ delta, c.paused = true →
      (Act.tick delta).on c = (.ticked false, { c with changed := false }) := by
  intro c
  have consistent : c.Consistent := initial_consistent.after acts
  refine ⟨?_, ?_, ?_, fun before act later target latest isTarget => ?_, fun none => ?_,
    fun before act later latest => ?_, fun silent => after_changed initial silent,
    fun act error refused => Act.on_refused refused,
    fun delta paused => Act.on_tick_of_paused paused delta⟩
  · rintro ⟨paused, tracking⟩
    rw [consistent.exclusive tracking] at paused
    cases paused
  · rw [consistent.rounded, secondOf_rat]
  · rw [elapsedTime]
    split
    · next tracking => exact consistent.elapsed tracking
    · rfl
  · have placed : (initial.after (before ++ [act])).absolute = target := by
      rw [after_concat, Act.on_absolute, isTarget, Option.getD_some]
    have still : ∀ other ∈ later, other.target? = none := fun other member =>
      not_not.mp (latest.noneLater other member)
    have now := after_absolute (initial.after (before ++ [act])) still
    rw [placed, ← latest.after_eq] at now
    exact now
  · have now := after_absolute initial none
    rw [show (initial : Clock ℚ).absolute = 0 from ofNat_rat 0, zero_add] at now
    exact now
  · have same : c.changed = (initial.after (before ++ [act])).changed := by
      rw [show c = _ from latest.after_eq initial]
      exact after_changed _ latest.noneLater
    rw [same, after_concat]
    exact Act.on_changed_iff latest.ofKind (initial.after before)

end Tonegraph.Clock
