import Tonegraph.Proofs.Deck.Calls
import Tonegraph.Proofs.Sink
/-!
# Rendering within the room

Whoever renders into a sink asks how many frames there is room for and then pushes no more than
so many, until it asks again. `FrameSink.Written` says this of two moments of a sink: between them
output was begun and ended, and frames were pushed in portions, each of which had room when it
began.

Starting, filling and stopping a segment do so (`SegmentCall.on_written`), whatever the segment and
the length of its ramps. So does every call of a host (`Call.on_written`): it asks anew for each
segment that it stops, starts or fills. Nothing is assumed of the timeline or of the arithmetic.
-/

set_option autoImplicit false

namespace Tonegraph

variable {T R S K : Type}

/-- From one sink to another output is begun and ended, and frames are pushed in portions for which
there is room. -/
inductive FrameSink.Written [FrameSink K S] (first : K) : K → Prop
  | idle : Written first first
  | started {sink : K} (written : Written first sink) : Written first (FrameSink.start sink)
  | stopped {sink : K} (written : Written first sink) : Written first (FrameSink.stop sink)
  | pushed {sink : K} (written : Written first sink) {frames : Array (Frame S)}
      (fits : frames.size ≤ FrameSink.available sink) :
      Written first (FrameSink.pushAll sink frames)

/-- A call on a segment that plays into a sink. The segment is given as it is when it is called. -/
inductive SegmentCall (R S : Type) where
  | start (segment : Segment R S)
  | fill (segment : Segment R S)
  | stop (segment : Segment R S)

variable [Arithmetic R] [Scalar S] [Narrowing R S] [FrameSink K S]

/-! ## Segments -/

namespace Segment

/-- A ramp is shortened to the room there is. -/
theorem rampAt_size_le (s : Segment R S) (ramp : Ramp) (t : R) (rate room : Nat) :
    (s.rampAt ramp t rate room).1.size ≤ room := by
  unfold rampAt
  split
  · exact Nat.zero_le room
  · simp only [rampAfter_size, List.size_toArray, List.length_nil, Nat.zero_add]
    exact Nat.min_le_right _ _

theorem contentAfter_size_le (rate room : Nat) (s : Segment R S) (frames : Array (Frame S)) :
    (contentAfter rate room s frames).1.size ≤ frames.size + room := by
  induction room generalizing s frames with
  | zero => exact Nat.le_refl _
  | succ room ih =>
      rw [contentAfter]
      split
      · exact Nat.le_add_right _ _
      · have rest := ih (s.contentFrame rate).2 (frames.push (s.contentFrame rate).1)
        rw [Array.size_push] at rest
        exact Nat.le_trans rest (by omega)

theorem content_size_le (s : Segment R S) (rate room : Nat) :
    (s.content rate room).1.size ≤ room := by
  simpa [content] using contentAfter_size_le rate room s #[]

variable {first sink : K}

theorem started_written (s : Segment R S) (written : FrameSink.Written first sink) :
    FrameSink.Written first (s.started sink).2 :=
  written.started.pushed (rampAt_size_le _ _ _ _ _)

theorem stopped_written (s : Segment R S) (written : FrameSink.Written first sink) :
    FrameSink.Written first (s.stopped sink).2 :=
  (written.pushed (rampAt_size_le _ _ _ _ _)).stopped

theorem fill_written (s : Segment R S) (written : FrameSink.Written first sink) :
    FrameSink.Written first (s.fill sink).2.2 := by
  unfold fill
  split
  · exact written.pushed (content_size_le _ _ _)
  · exact written

end Segment

namespace SegmentCall

/-- The sink after a call on a segment, which may be refused. -/
def on (call : SegmentCall R S) (sink : K) : K :=
  match call with
  | .start segment =>
    match segment.start sink with
    | .ok (_, after) => after
    | .error _ => sink
  | .fill segment => (segment.fill sink).2.2
  | .stop segment =>
    match segment.stop sink with
    | .ok (_, after) => after
    | .error _ => sink

/-- A call on a segment pushes no more than there is room for when it asks. -/
theorem on_written (call : SegmentCall R S) (sink : K) :
    FrameSink.Written sink (call.on sink) := by
  cases call with
  | start segment =>
      simp only [on, Segment.start]
      cases segment.playing with
      | true => exact .idle
      | false => exact segment.started_written .idle
  | fill segment => exact segment.fill_written .idle
  | stop segment =>
      simp only [on, Segment.stop]
      cases segment.playing with
      | true => exact segment.stopped_written .idle
      | false => exact .idle

end SegmentCall

/-! ## Calls of a host -/

namespace Deck

variable {first : K} {deck : Deck T R S K}

theorem silenced_written (written : FrameSink.Written first deck.sink) :
    FrameSink.Written first deck.silenced.sink := by
  unfold silenced
  split
  · exact written
  · rename_i index entry _
    exact entry.2.stopped_written written

theorem filled_written (written : FrameSink.Written first deck.sink) :
    FrameSink.Written first (filled deck).2.sink := by
  obtain ⟨tl, sink⟩ := deck
  simp only [filled]
  split
  · exact written
  · split
    · exact written
    · rename_i handle segment _
      exact segment.fill_written written

theorem startAt_written (index : Nat) (written : FrameSink.Written first deck.sink) :
    FrameSink.Written first (perform (startAt index) deck).2.sink := by
  rw [perform_startAt]
  split
  · exact written
  · rename_i entry _
    split
    · exact written
    · exact entry.2.started_written written

variable [Scalar T]

theorem stop_written (interrupted : Bool) (written : FrameSink.Written first deck.sink) :
    FrameSink.Written first (perform (stop interrupted) deck).2.sink := by
  rw [perform_stop]
  split
  · exact written
  · split
    · exact written
    · exact silenced_written written

theorem seekTo_written (index : Nat) (written : FrameSink.Written first deck.sink) :
    FrameSink.Written first (perform (seekTo index) deck).2.sink := by
  rw [perform_seekTo]
  split
  · exact written
  · split
    · exact written
    · dsimp only
      split
      · exact silenced_written written
      · exact startAt_written index (silenced_written written)

/-- A step to a neighbour is refused or is a jump. -/
theorem neighbour_written {call : Transport T R S K Unit}
    (leads : (∃ e, perform call deck = (.error e, deck)) ∨
      ∃ index, perform call deck = perform (seekTo index) deck)
    (written : FrameSink.Written first deck.sink) :
    FrameSink.Written first (perform call deck).2.sink := by
  obtain ⟨e, refused⟩ | ⟨index, jump⟩ := leads
  · rw [refused]
    exact written
  · rw [jump]
    exact seekTo_written index written

theorem start_written (written : FrameSink.Written first deck.sink) :
    FrameSink.Written first (perform start deck).2.sink := by
  rw [perform_start]
  split
  · exact written
  · split
    · exact written
    · exact startAt_written 0 written

theorem step_written (written : FrameSink.Written first deck.sink) :
    FrameSink.Written first (perform step deck).2.sink := by
  rw [perform_step]
  split
  · exact stop_written false written
  · split
    · exact written
    · exact startAt_written 0 written
  · rename_i index _
    dsimp only
    split
    · exact written
    · split
      · split
        · exact silenced_written written
        · exact startAt_written (index + 1) (silenced_written written)
      · exact stop_written false (silenced_written written)

end Deck

/-- A call of a host pushes no more than there is room for when it asks, in whatever state the
timeline is. -/
theorem Call.on_written [Scalar T] (call : Call T R S) (deck : Deck T R S K) :
    FrameSink.Written deck.sink (call.on deck).2.sink := by
  cases call with
  | edit change =>
      rw [on_edit]
      split <;> exact .idle
  | start => exact Deck.start_written .idle
  | stop interrupted => exact Deck.stop_written interrupted .idle
  | seekForward => exact Deck.neighbour_written (Deck.seekForward_cases deck) .idle
  | seekBackward => exact Deck.neighbour_written (Deck.seekBackward_cases deck) .idle
  | seekTo index => exact Deck.seekTo_written index .idle
  | tick delta =>
      rw [on_tick]
      split
      · have stepped : FrameSink.Written deck.sink
            (Deck.perform Deck.step (deck.ticked delta)).2.sink := Deck.step_written .idle
        rcases outcome : Deck.perform Deck.step (deck.ticked delta) with ⟨_ | _, after⟩
        · rw [outcome] at stepped
          exact stepped
        · rw [outcome] at stepped
          exact Deck.filled_written stepped
      · exact .idle
  | takeEvents count => exact .idle

end Tonegraph
