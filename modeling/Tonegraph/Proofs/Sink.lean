import Tonegraph.Sink.Recorder
import Tonegraph.Sink.Ring
/-!
# Watched sinks, and sinks with a buffer

A `Tape` is a sink together with all frames that were pushed into it: what a call pushes into any
sink is what it leaves on a blank tape before that sink.

Playing asks a sink for its rate and its room and does three things to it. `FrameSink.Matching`
says of a relation between two sinks that related sinks answer the same and stay related when the
same is done to both; so one call does the same to both. Sinks with a device buffer behind them
(`BufferedSink`) are matched as soon as their gauges are equal, whatever they hold.
-/

set_option autoImplicit false

namespace Tonegraph

variable {K K₁ K₂ S : Type}

/-- What each push keeps, with the frames that are still to be pushed, holds when none are left. -/
theorem FrameSink.pushAll_of_push [FrameSink K S] (so : K → List (Frame S) → Prop)
    (step : ∀ {sink frame rest}, so sink (frame :: rest) → so (FrameSink.push sink frame) rest)
    {sink : K} {frames : Array (Frame S)} (before : so sink frames.toList) :
    so (FrameSink.pushAll sink frames) [] := by
  obtain ⟨frames⟩ := frames
  simp only [FrameSink.pushAll, List.foldl_toArray']
  induction frames generalizing sink with
  | nil => exact before
  | cons frame rest ih => exact ih (step before)

/-! ## Tapes -/

/-- A sink, and the frames pushed into it in the order of pushing. -/
structure Tape (K S : Type) where
  sink : K
  frames : List (Frame S)

namespace Tape

/-- A tape before a sink, with nothing on it. -/
def blank (sink : K) : Tape K S := ⟨sink, []⟩

instance [FrameSink K S] : FrameSink (Tape K S) S where
  rate tape := FrameSink.rate tape.sink
  available tape := FrameSink.available tape.sink
  push tape frame := ⟨FrameSink.push tape.sink frame, tape.frames ++ [frame]⟩
  start tape := ⟨FrameSink.start tape.sink, tape.frames⟩
  stop tape := ⟨FrameSink.stop tape.sink, tape.frames⟩

theorem pushAll_eq [FrameSink K S] (tape : Tape K S) (frames : Array (Frame S)) :
    FrameSink.pushAll tape frames =
      ⟨FrameSink.pushAll tape.sink frames, tape.frames ++ frames.toList⟩ := by
  obtain ⟨frames⟩ := frames
  simp only [FrameSink.pushAll, List.foldl_toArray']
  induction frames generalizing tape with
  | nil => simp
  | cons frame rest ih =>
      rw [List.foldl_cons, ih]
      simp [FrameSink.push]

end Tape

/-! ## Sinks that answer the same -/

/-- Related sinks have one rate and one room, and stay related when the same is done to both. -/
structure FrameSink.Matching [FrameSink K₁ S] [FrameSink K₂ S] (related : K₁ → K₂ → Prop) :
    Prop where
  rate {a : K₁} {b : K₂} : related a b → FrameSink.rate a = FrameSink.rate b
  available {a : K₁} {b : K₂} : related a b → FrameSink.available a = FrameSink.available b
  push {a : K₁} {b : K₂} (frame : Frame S) :
    related a b → related (FrameSink.push a frame) (FrameSink.push b frame)
  start {a : K₁} {b : K₂} : related a b → related (FrameSink.start a) (FrameSink.start b)
  stop {a : K₁} {b : K₂} : related a b → related (FrameSink.stop a) (FrameSink.stop b)

theorem FrameSink.Matching.pushAll [FrameSink K₁ S] [FrameSink K₂ S] {related : K₁ → K₂ → Prop}
    (matching : FrameSink.Matching related) {a : K₁} {b : K₂} (before : related a b)
    (frames : Array (Frame S)) :
    related (FrameSink.pushAll a frames) (FrameSink.pushAll b frames) := by
  obtain ⟨frames⟩ := frames
  simp only [FrameSink.pushAll, List.foldl_toArray']
  induction frames generalizing a b with
  | nil => exact before
  | cons frame rest ih => exact ih (matching.push frame before)

/-! ## Buffers -/

/-- What can be read off a device buffer. -/
structure Gauge where
  /-- The frames played in a second. -/
  rate : Nat
  /-- The frames that the buffer can hold. -/
  capacity : Nat
  /-- The frames that wait to be played. -/
  queued : Nat
deriving DecidableEq, Repr

namespace Gauge

/-- The frames that there is room for. -/
def free (gauge : Gauge) : Nat := gauge.capacity - gauge.queued

/-- The gauge after one more frame has been pushed. A full buffer drops it. -/
def pushed (gauge : Gauge) : Gauge :=
  if gauge.queued < gauge.capacity then { gauge with queued := gauge.queued + 1 } else gauge

/-- The gauge after the device has played so many frames, or all there are. -/
def consumed (gauge : Gauge) (count : Nat) : Gauge :=
  { gauge with queued := gauge.queued - count }

end Gauge

/-- A sink that queues frames in a buffer, from which a device plays them. -/
class BufferedSink (K : Type) (S : outParam Type) extends FrameSink K S where
  gauge : K → Gauge
  /-- The device plays so many of the queued frames, or all there are. -/
  consume : K → Nat → K
  rate_eq : ∀ sink, rate sink = (gauge sink).rate
  available_eq : ∀ sink, available sink = (gauge sink).free
  gauge_push : ∀ sink frame, gauge (push sink frame) = (gauge sink).pushed
  gauge_start : ∀ sink, gauge (start sink) = gauge sink
  gauge_stop : ∀ sink, gauge (stop sink) = gauge sink
  gauge_consume : ∀ sink count, gauge (consume sink count) = (gauge sink).consumed count

instance : BufferedSink (Recorder S) S where
  gauge r := ⟨r.rate, r.capacity, r.queued⟩
  consume := Recorder.consume
  rate_eq _ := rfl
  available_eq _ := rfl
  gauge_push r frame := by
    show Gauge.mk (r.push frame).rate (r.push frame).capacity (r.push frame).queued = _
    unfold Recorder.push Gauge.pushed
    split <;> rfl
  gauge_start _ := rfl
  gauge_stop _ := rfl
  gauge_consume _ _ := rfl

instance [Scalar S] : BufferedSink (Ring S) S where
  gauge r := ⟨r.rate, r.capacity, r.queue.size⟩
  consume r count := (r.callback count 1).2
  rate_eq _ := rfl
  available_eq _ := rfl
  gauge_push r frame := by
    show Gauge.mk (r.push frame).rate (r.push frame).capacity (r.push frame).queue.size = _
    unfold Ring.push Gauge.pushed
    split <;> simp
  gauge_start _ := rfl
  gauge_stop _ := rfl
  gauge_consume r count := by simp [Ring.callback, Gauge.consumed]

instance [BufferedSink K S] : BufferedSink (Tape K S) S where
  gauge tape := BufferedSink.gauge tape.sink
  consume tape count := ⟨BufferedSink.consume tape.sink count, tape.frames⟩
  rate_eq tape := BufferedSink.rate_eq tape.sink
  available_eq tape := BufferedSink.available_eq tape.sink
  gauge_push tape := BufferedSink.gauge_push tape.sink
  gauge_start tape := BufferedSink.gauge_start tape.sink
  gauge_stop tape := BufferedSink.gauge_stop tape.sink
  gauge_consume tape := BufferedSink.gauge_consume tape.sink

namespace BufferedSink

variable [BufferedSink K₁ S] [BufferedSink K₂ S]

/-- Two sinks of one rate, with the same room and as many frames queued. Neither holds more than it
can. -/
structure SameRoom (a : K₁) (b : K₂) : Prop where
  rate : FrameSink.rate a = FrameSink.rate b
  available : FrameSink.available a = FrameSink.available b
  queued : (gauge a).queued = (gauge b).queued
  fits_left : (gauge a).queued ≤ (gauge a).capacity
  fits_right : (gauge b).queued ≤ (gauge b).capacity

theorem SameRoom.gauge_eq {a : K₁} {b : K₂} (same : SameRoom a b) : gauge a = gauge b := by
  obtain ⟨rate, available, queued, left, right⟩ := same
  rw [rate_eq, rate_eq] at rate
  rw [available_eq, available_eq, Gauge.free, Gauge.free] at available
  have capacity : (gauge a).capacity = (gauge b).capacity := by omega
  rcases ga : gauge a with ⟨_, _, _⟩
  rcases gb : gauge b with ⟨_, _, _⟩
  simp_all

/-- Related sinks also stay related when their devices play as many frames. -/
structure Matching (related : K₁ → K₂ → Prop) : Prop extends FrameSink.Matching related where
  consume {a : K₁} {b : K₂} (count : Nat) :
    related a b → related (BufferedSink.consume a count) (BufferedSink.consume b count)

theorem gauge_matching : Matching fun (a : K₁) (b : K₂) => gauge a = gauge b where
  rate same := by rw [rate_eq, rate_eq, same]
  available same := by rw [available_eq, available_eq, same]
  push frame same := by rw [gauge_push, gauge_push, same]
  start same := by rw [gauge_start, gauge_start, same]
  stop same := by rw [gauge_stop, gauge_stop, same]
  consume count same := by rw [gauge_consume, gauge_consume, same]

/-- Tapes before matched sinks get the same frames, on top of those that one has already. -/
theorem tape_matching (already : List (Frame S)) :
    Matching fun (a : Tape K₁ S) (b : Tape K₂ S) =>
      gauge a = gauge b ∧ a.frames = already ++ b.frames where
  rate same := gauge_matching.rate same.1
  available same := gauge_matching.available same.1
  push frame same := by
    refine ⟨gauge_matching.push frame same.1, ?_⟩
    show _ ++ [frame] = already ++ (_ ++ [frame])
    rw [same.2, List.append_assoc]
  start same := ⟨gauge_matching.start same.1, same.2⟩
  stop same := ⟨gauge_matching.stop same.1, same.2⟩
  consume count same := ⟨gauge_matching.consume count same.1, same.2⟩

/-- A tape before a sink changes nothing for the sink. -/
theorem behind_matching : Matching fun (tape : Tape K₁ S) (sink : K₁) => tape.sink = sink where
  rate same := congrArg FrameSink.rate same
  available same := congrArg FrameSink.available same
  push frame same := congrArg (FrameSink.push · frame) same
  start same := congrArg FrameSink.start same
  stop same := congrArg FrameSink.stop same
  consume count same := congrArg (BufferedSink.consume · count) same

end BufferedSink

end Tonegraph
