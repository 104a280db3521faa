import Tonegraph.Clock
/-!
# Clocks that measure and clocks that are halted

Two operations on clocks that can be refused are given as plain functions here: `Clock.tracked` is
what `trackFrom` makes of a clock that is not paused, and `Clock.halted` what a timeline leaves its
clock as when it ends playing. `Clock.Measures` says that a clock runs and measures from an origin;
ticks keep it so.
-/

set_option autoImplicit false

namespace Tonegraph.Clock

variable {T : Type}

section

variable [Scalar T]

/-- A clock that measures from an origin. -/
def tracked (c : Clock T) (origin : T) : Clock T :=
  { c with tracking := true, trackingStart := origin, elapsed := c.absolute - origin }

/-- A clock that measures no more and is paused. -/
def halted (c : Clock T) : Clock T :=
  if c.tracking then { c with tracking := false, elapsed := Scalar.ofNat 0, paused := true }
  else { c with paused := true }

theorem trackFrom_eq (c : Clock T) (origin : T) :
    c.trackFrom origin = if c.paused then .error .trackWhilePaused else .ok (c.tracked origin) :=
  rfl

@[simp] theorem tracked_paused (c : Clock T) (origin : T) : (c.tracked origin).paused = c.paused :=
  rfl

@[simp] theorem halted_paused (c : Clock T) : c.halted.paused = true := by
  unfold halted; split <;> rfl

@[simp] theorem halted_tracking (c : Clock T) : c.halted.tracking = false := by
  unfold halted; split <;> simp_all

@[simp] theorem halted_absolute (c : Clock T) : c.halted.absolute = c.absolute := by
  unfold halted; split <;> rfl

@[simp] theorem halted_rounded (c : Clock T) : c.halted.rounded = c.rounded := by
  unfold halted; split <;> rfl

@[simp] theorem measured_paused (c : Clock T) : c.measured.paused = c.paused := by
  unfold measured; split <;> rfl

@[simp] theorem measured_tracking (c : Clock T) : c.measured.tracking = c.tracking := by
  unfold measured; split <;> rfl

@[simp] theorem seek_paused (c : Clock T) (time : T) : (c.seek time).paused = c.paused := by
  simp [seek]

@[simp] theorem tick_paused (c : Clock T) (delta : T) : (c.tick delta).2.paused = c.paused := by
  unfold tick; split <;> simp_all

@[simp] theorem tick_tracking (c : Clock T) (delta : T) :
    (c.tick delta).2.tracking = c.tracking := by
  unfold tick; split <;> simp

@[simp] theorem tracked_absolute (c : Clock T) (origin : T) :
    (c.tracked origin).absolute = c.absolute := rfl

@[simp] theorem seek_absolute (c : Clock T) (time : T) : (c.seek time).absolute = time := by
  simp only [seek, measured]
  split <;> rfl

/-- A clock that runs, and measures from an origin. -/
structure Measures (c : Clock T) (origin : T) : Prop where
  unpaused : c.paused = false
  tracking : c.tracking = true
  trackingStart : c.trackingStart = origin
  elapsedTime : c.elapsedTime = c.absolute - origin

theorem tracked_measures {c : Clock T} (unpaused : c.paused = false) (origin : T) :
    (c.tracked origin).Measures origin := ⟨unpaused, rfl, rfl, rfl⟩

section

variable {c : Clock T} {origin : T}

theorem Measures.tick_eq (measures : c.Measures origin) (delta : T) :
    (c.tick delta).2.Measures origin ∧ (c.tick delta).2.absolute = c.absolute + delta ∧
      (c.tick delta).2.rounded = secondOf (c.absolute + delta) := by
  obtain ⟨unpaused, tracking, start, -⟩ := measures
  have moved : (c.tick delta).2 = { c with
      absolute := c.absolute + delta
      rounded := secondOf (c.absolute + delta)
      changed := secondOf (c.absolute + delta) != c.rounded
      elapsed := c.absolute + delta - origin } := by
    simp [tick, unpaused, measured, tracking, start]
  rw [moved]
  refine ⟨⟨unpaused, tracking, start, ?_⟩, rfl, rfl⟩
  simp [Clock.elapsedTime, tracking]

end

end

end Tonegraph.Clock
