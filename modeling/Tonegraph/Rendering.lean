import Tonegraph.Sink.Recorder
import Tonegraph.Timeline.Deck
/-!
# Rendering: playing a timeline as fast as it goes

`Timeline.render` plays a timeline into a recorder, in steps of a fixed length. Each step ticks the
deck and then lets the recorder's device consume the frames of one step. A `RenderPlan` gives the
rate, the steps per second, the length of the device buffer and the time after which rendering is
broken off.

The buffer has room for one step at least, and a step for one frame, so rendering goes on at any
rate; and `RenderPlan.maxTicks` bounds it.
-/

set_option autoImplicit false

namespace Tonegraph

/-- How a timeline is rendered. -/
structure RenderPlan (T : Type) where
  /-- Frames per second. -/
  rate : UInt32
  /-- Steps per second. -/
  tickRate : UInt32
  /-- The length of the device buffer. -/
  bufferSeconds : T
  /-- The time after which rendering is broken off. -/
  maxSeconds : UInt32

namespace RenderPlan

variable {T : Type} [Scalar T]

/-- Rendering at 44100 frames and 100 steps per second, with a buffer of a fifth of a second, for
ten minutes at most. -/
def standard [OfScientific T] : RenderPlan T :=
  ⟨44100, 100, OfScientific.ofScientific 2 true 1, 600⟩

/-- The frames of a step. -/
def framesPerTick (plan : RenderPlan T) : Nat :=
  max (plan.rate.toNat / max plan.tickRate.toNat 1) 1

/-- The seconds that a step takes. -/
def secondsPerTick (plan : RenderPlan T) : T :=
  Scalar.ofNat plan.framesPerTick / Scalar.ofNat plan.rate.toNat

/-- The frames that the device buffer holds. -/
def capacity (plan : RenderPlan T) : Nat :=
  max (Scalar.truncate 0 (UInt64.size - 1) (Scalar.ofNat plan.rate.toNat * plan.bufferSeconds)).toNat
    plan.framesPerTick

/-- The most steps that are taken. -/
def maxTicks (plan : RenderPlan T) : Nat :=
  plan.maxSeconds.toNat * plan.rate.toNat / plan.framesPerTick

end RenderPlan

namespace Deck

variable {T R S : Type} [Scalar T] [Arithmetic R] [Scalar S] [Narrowing R S]

/-- The device of a recorder plays frames. -/
def consume (count : Nat) : Transport T R S (Recorder S) Unit :=
  modify fun deck => { deck with sink := deck.sink.consume count }

/-- Takes steps while the timeline plays. When no step is left, playing is interrupted. -/
def runTicks (secondsPerTick : T) (framesPerTick : Nat) : Nat → Transport T R S (Recorder S) Unit
  | 0 => do
    if (← getTimeline).playing then stop true
  | ticks + 1 => do
    if (← getTimeline).playing then
      discard (tick secondsPerTick)
      consume framesPerTick
      runTicks secondsPerTick framesPerTick ticks

/-- Plays a timeline from its beginning to its end, as a plan says. -/
def play (plan : RenderPlan T) : Transport T R S (Recorder S) Unit := do
  start
  runTicks plan.secondsPerTick plan.framesPerTick plan.maxTicks

end Deck

/-- Every frame that a timeline gives when it is rendered. -/
def Timeline.render {T R S : Type} [Scalar T] [Arithmetic R] [Scalar S] [Narrowing R S]
    (tl : Timeline T R S) (plan : RenderPlan T) : Except TransportError (Array (Frame S)) :=
  let deck : Deck T R S (Recorder S) := ⟨tl, .ofCapacity plan.rate.toNat plan.capacity⟩
  match (Deck.play plan).run.run deck with
  | (.ok (), deck) => .ok deck.sink.frames
  | (.error e, _) => .error e

end Tonegraph
