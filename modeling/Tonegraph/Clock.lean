import Tonegraph.Arithmetic
/-!
# The clock

A clock is moved by ticks. It keeps the absolute time, the whole second that it lies in, and,
while it is tracking, the time elapsed since an origin. A clock that is paused does not move, and
a clock is never paused and tracking at once. An operation that does not apply is refused, and
then there is no new clock.
-/

set_option autoImplicit false

namespace Tonegraph

/-- Why an operation does not apply to a clock. -/
inductive ClockError where
  | pauseWhileTracking
  | notPaused
  | trackWhilePaused
  | notTracking
deriving DecidableEq, Repr

/-- What a clock error says. -/
def ClockError.message : ClockError → String
  | .pauseWhileTracking => "cannot pause while tracking elapsed time"
  | .notPaused => "clock is not paused"
  | .trackWhilePaused => "cannot track elapsed time while paused"
  | .notTracking => "clock is not tracking"

/-- A clock over the times `T`. -/
structure Clock (T : Type) where
  /-- Seconds since the last reset, or since the time last sought. -/
  absolute : T
  /-- The whole second of the absolute time. -/
  rounded : Int
  /-- Whether the last tick led into another second. -/
  changed : Bool
  paused : Bool
  tracking : Bool
  /-- The origin of tracking. -/
  trackingStart : T
  /-- Seconds since the origin, up to date while tracking. -/
  elapsed : T
deriving Repr

namespace Clock

variable {T : Type} [Scalar T]

/-- A clock that has not moved. -/
def initial : Clock T :=
  let zero := Scalar.ofNat 0
  ⟨zero, 0, false, false, false, zero, zero⟩

/-- The whole second that a time lies in, as far as 64 bits go. -/
def secondOf (time : T) : Int :=
  Scalar.truncate Int64.minValue.toInt Int64.maxValue.toInt (Scalar.floor time)

/-- The clock with its elapsed time brought up to date, if it is tracking. -/
def measured (c : Clock T) : Clock T :=
  if c.tracking then { c with elapsed := c.absolute - c.trackingStart } else c

/-- Moves the clock by `delta` seconds unless it is paused, and says whether it moved. -/
def tick (c : Clock T) (delta : T) : Bool × Clock T :=
  if c.paused then (false, { c with changed := false })
  else
    let absolute := c.absolute + delta
    let rounded := secondOf absolute
    (true, { c with absolute, rounded, changed := rounded != c.rounded }.measured)

/-- Stops the clock from moving. -/
def pause (c : Clock T) : Except ClockError (Clock T) :=
  if c.tracking then .error .pauseWhileTracking else .ok { c with paused := true }

/-- Lets a paused clock move again. -/
def unpause (c : Clock T) : Except ClockError (Clock T) :=
  if c.paused then .ok { c with paused := false } else .error .notPaused

/-- Measures elapsed time from an origin. -/
def trackFrom (c : Clock T) (origin : T) : Except ClockError (Clock T) :=
  if c.paused then .error .trackWhilePaused
  else .ok { c with tracking := true, trackingStart := origin, elapsed := c.absolute - origin }

/-- Measures elapsed time from now. -/
def beginTracking (c : Clock T) : Except ClockError (Clock T) := c.trackFrom c.absolute

/-- Moves the origin of tracking to now. -/
def resetTracking (c : Clock T) : Except ClockError (Clock T) :=
  if c.tracking then .ok { c with trackingStart := c.absolute, elapsed := Scalar.ofNat 0 }
  else .error .notTracking

/-- Ends tracking. -/
def endTracking (c : Clock T) : Except ClockError (Clock T) :=
  if c.tracking then .ok { c with tracking := false, elapsed := Scalar.ofNat 0 }
  else .error .notTracking

/-- Jumps to a time. The jump is no change of second; the next tick compares with the new one. -/
def seek (c : Clock T) (time : T) : Clock T :=
  { c with absolute := time, rounded := secondOf time, changed := false }.measured

/-- Seconds since the origin of tracking; zero without tracking. -/
def elapsedTime (c : Clock T) : T := if c.tracking then c.elapsed else Scalar.ofNat 0

end Clock

end Tonegraph
