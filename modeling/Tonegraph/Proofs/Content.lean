import Mathlib.Data.ENat.Lattice
import Tonegraph.Proofs.Segment
import Tonegraph.Proofs.Sink
/-!
# The content of a segment, frame by frame

What a segment has to say on its window is a sequence of frames that depends on nothing but the
segment as it was when it had been started: `Segment.frameOf` gives each of them by its number,
`Segment.phaseAfter` the phase of the oscillator between two of them, and `Segment.contentLength`
how many there are before the end of the window.

Filling a sink takes the next of these frames, as many as the sink has room for. So however the
room comes, in one piece or in many, with calls between that find none, the frames pushed are the
first ones of the sequence: `started_content`. No law of the arithmetic is used; that the sequence
may never come to the end of the window is not excluded.
-/

set_option autoImplicit false

namespace Tonegraph.Segment

variable {R S K : Type} [Arithmetic R]

/-! ## The sequence -/

/-- The time of a frame of content. -/
def timeOf (s : Segment R S) (rate frame : Nat) : R :=
  Scalar.ofInt s.window.start.toInt + Scalar.ofNat frame / Scalar.ofNat rate

/-- The phase after so many frames of content, from the phase that the segment has. Each frame with
a frequency turns it on, and only the part of a turn is kept. -/
def phaseAfter (s : Segment R S) (rate : Nat) : Nat → R
  | 0 => s.phase
  | frame + 1 =>
    match s.frequencyAt? (s.timeOf rate frame) with
    | some frequency =>
      let turned := s.phaseAfter rate frame + frequency / Scalar.ofNat rate
      turned - Scalar.floor turned
    | none => s.phaseAfter rate frame

section

variable [Scalar S] [Narrowing R S]

/-- A frame of content: the sine at the phase that the frame turns the oscillator to, or silence. -/
def frameOf (s : Segment R S) (rate frame : Nat) : Frame S :=
  match s.frequencyAt? (s.timeOf rate frame) with
  | some _ =>
    let angle : R := Scalar.ofNat 2 * Arithmetic.pi * s.phaseAfter rate (frame + 1)
    .mono (Narrowing.narrow (Arithmetic.sin angle * Narrowing.widen s.voice.amplitude))
  | none => .silence

end

/-- The time of a frame is the end of the window or later. -/
def EndedAt (s : Segment R S) (rate frame : Nat) : Prop :=
  Scalar.ofInt s.window.stop.toInt ≤ s.timeOf rate frame

/-- How many frames of content there are: those before the first one at which the window has
ended. -/
noncomputable def contentLength (s : Segment R S) (rate : Nat) : ℕ∞ :=
  ⨅ (frame : Nat) (_ : s.EndedAt rate frame), (frame : ℕ∞)

/-- The segment with so many frames of content behind it. -/
def played (s : Segment R S) (rate frames : Nat) : Segment R S :=
  { s with rendered := frames, phase := s.phaseAfter rate frames }

theorem played_zero {s : Segment R S} (rendered : s.rendered = 0) (rate : Nat) :
    s.played rate 0 = s := by
  rw [played, phaseAfter, ← rendered]

section

variable {s : Segment R S} {rate : Nat}

theorem le_contentLength {frames : Nat}
    (before : ∀ frame < frames, ¬s.EndedAt rate frame) :
    (frames : ℕ∞) ≤ s.contentLength rate := by
  refine le_iInf₂ fun frame ended => ?_
  by_contra early
  exact before frame (by exact_mod_cast not_le.mp early) ended

theorem contentLength_eq {frames : Nat}
    (before : ∀ frame < frames, ¬s.EndedAt rate frame)
    (ended : s.EndedAt rate frames) :
    s.contentLength rate = frames :=
  le_antisymm (iInf₂_le frames ended) (le_contentLength before)

/-! ## Rendering goes through the sequence -/

/-- A segment has come to the end of its window when the next frame is at it. -/
theorem isExhausted_iff : s.isExhausted rate = true ↔ s.EndedAt rate s.rendered :=
  decide_eq_true_iff

theorem played_isExhausted (frames : Nat) :
    (s.played rate frames).isExhausted rate = true ↔
      s.EndedAt rate frames :=
  isExhausted_iff

variable [Scalar S] [Narrowing R S]

/-- Rendering one frame of content gives the next one of the sequence. -/
theorem played_contentFrame (frames : Nat) :
    (s.played rate frames).contentFrame rate =
      (s.frameOf rate frames, s.played rate (frames + 1)) := by
  have heard : (s.played rate frames).frequencyAt? ((s.played rate frames).localTime rate) =
      s.frequencyAt? (s.timeOf rate frames) := rfl
  rw [contentFrame, heard, frameOf, played, played, phaseAfter]
  cases s.frequencyAt? (s.timeOf rate frames) <;> rfl

/-- Content for a room goes on with the sequence until the room is full or the window ends. -/
theorem played_contentAfter (rate room frames : Nat) (pushed : Array (Frame S)) :
    ∃ count ≤ room,
      contentAfter rate room (s.played rate frames) pushed =
        (pushed ++ ((List.range' frames count).map (s.frameOf rate)).toArray,
          s.played rate (frames + count)) ∧
      (∀ frame, frames ≤ frame → frame < frames + count →
        ¬s.EndedAt rate frame) ∧
      (count < room → s.EndedAt rate (frames + count)) := by
  induction room generalizing frames pushed with
  | zero => exact ⟨0, le_refl _, by simp [contentAfter], by omega, by omega⟩
  | succ room ih =>
      rw [contentAfter]
      by_cases ended : s.EndedAt rate frames
      · rw [if_pos (played_isExhausted frames |>.mpr ended)]
        exact ⟨0, Nat.zero_le _, by simp, by omega, fun _ => ended⟩
      · rw [if_neg (played_isExhausted frames |>.not.mpr ended), played_contentFrame]
        obtain ⟨count, within, rendered, before, after⟩ :=
          ih (frames + 1) (pushed.push (s.frameOf rate frames))
        have next : frames + 1 + count = frames + (count + 1) := by omega
        rw [next] at rendered before after
        refine ⟨count + 1, by omega, ?_, fun frame from_ upto => ?_, fun short => after (by omega)⟩
        · show contentAfter rate room (s.played rate (frames + 1)) _ = _
          rw [rendered, List.range'_succ, List.map_cons, List.toArray_cons, Array.push_eq_append,
            Array.append_assoc]
        · obtain rfl | later : frame = frames ∨ frames + 1 ≤ frame := by omega
          · exact ended
          · exact before frame later upto

end

/-! ## Filling sinks -/

section

variable [Scalar S] [Narrowing R S] [FrameSink K S]

/-- The frames that filling a sink pushes. -/
def pushed (s : Segment R S) (sink : K) : List (Frame S) :=
  (s.fill (Tape.blank sink)).2.2.frames

/-- The segment after filling one sink after the other. -/
def afterFills (s : Segment R S) (sinks : List K) : Segment R S :=
  sinks.foldl (fun s sink => (s.fill sink).2.1) s

/-- The frames that filling one sink after the other pushes, sink by sink. -/
def pushes (s : Segment R S) : List K → List (List (Frame S))
  | [] => []
  | sink :: rest => s.pushed sink :: (s.fill sink).2.1.pushes rest

theorem fill_of_playing {s : Segment R S} (playing : s.playing = true) (sink : K) :
    s.fill sink =
      let (frames, after) :=
        contentAfter (FrameSink.rate sink) (FrameSink.available sink) s #[]
      (frames.size, after, FrameSink.pushAll sink frames) :=
  if_pos playing

/-- A playing segment pushes the next frames of its sequence, as many as there is room for or as
are left. -/
theorem played_fill {s : Segment R S} (playing : s.playing = true) {rate frames : Nat}
    (before : ∀ frame < frames, ¬s.EndedAt rate frame)
    (sink : K) (same : FrameSink.rate sink = rate) :
    ∃ count, ((s.played rate frames).fill sink).1 = count ∧
      (s.played rate frames).pushed sink = (List.range' frames count).map (s.frameOf rate) ∧
      ((s.played rate frames).fill sink).2.1 = s.played rate (frames + count) ∧
      (∀ frame < frames + count, ¬s.EndedAt rate frame) ∧
      (count : ℕ∞) = min (FrameSink.available sink : ℕ∞) (s.contentLength rate - frames) := by
  have playing' : (s.played rate frames).playing = true := playing
  obtain ⟨count, within, rendered, during, after⟩ :=
    s.played_contentAfter rate (FrameSink.available sink) frames #[]
  have before' : ∀ frame < frames + count,
      ¬s.EndedAt rate frame := by
    intro frame upto
    obtain earlier | later := Nat.lt_or_ge frame frames
    · exact before frame earlier
    · exact during frame later upto
  have tape : FrameSink.rate (Tape.blank sink : Tape K S) = rate ∧
      FrameSink.available (Tape.blank sink : Tape K S) = FrameSink.available sink := ⟨same, rfl⟩
  refine ⟨count, ?_, ?_, ?_, before', ?_⟩
  · rw [fill_of_playing playing', same, rendered]
    simp
  · rw [pushed, fill_of_playing playing', tape.1, tape.2, rendered]
    simp only [Tape.pushAll_eq, Tape.blank]
    simp
  · rw [fill_of_playing playing', same, rendered]
  · obtain short | full := Nat.lt_or_ge count (FrameSink.available sink)
    · have left : ((frames + count : Nat) : ℕ∞) - frames = count := by
        exact_mod_cast (by omega : frames + count - frames = count)
      rw [contentLength_eq before' (after short), left]
      exact (min_eq_right (by exact_mod_cast within)).symm
    · have filled : count = FrameSink.available sink := le_antisymm within full
      have left : (count : ℕ∞) ≤ s.contentLength rate - frames := by
        refine ENat.le_sub_of_add_le_left (ENat.natCast_ne_top _) ?_
        exact_mod_cast le_contentLength before'
      rw [← filled, min_eq_left left]

/-- Filling sink after sink pushes the next frames of the sequence. -/
theorem played_fills {s : Segment R S} (playing : s.playing = true) {rate : Nat} (sinks : List K)
    (rates : ∀ sink ∈ sinks, FrameSink.rate sink = rate) (frames : Nat)
    (before : ∀ frame < frames, ¬s.EndedAt rate frame) :
    ∃ total, (s.played rate frames).afterFills sinks = s.played rate (frames + total) ∧
      ((s.played rate frames).pushes sinks).flatten =
        (List.range' frames total).map (s.frameOf rate) ∧
      ∀ frame < frames + total, ¬s.EndedAt rate frame := by
  induction sinks generalizing frames with
  | nil => exact ⟨0, rfl, rfl, before⟩
  | cons sink rest ih =>
      obtain ⟨count, -, first, filled, during, -⟩ :=
        played_fill playing before sink (rates sink List.mem_cons_self)
      obtain ⟨total, after, later, before'⟩ :=
        ih (fun sink member => rates sink (List.mem_cons_of_mem _ member)) (frames + count) during
      refine ⟨count + total, ?_, ?_, ?_⟩
      · rw [afterFills, List.foldl_cons, filled, ← Nat.add_assoc]
        exact after
      · rw [pushes, List.flatten_cons, first, filled, later, ← List.map_append,
          List.range'_append_1]
      · rw [← Nat.add_assoc]
        exact before'

theorem rampAfter_rendered (ramp : Ramp) (frequency : R) (rate length left : Nat)
    (s : Segment R S) (frames : Array (Frame S)) :
    (rampAfter ramp frequency rate length left s frames).2.rendered = s.rendered := by
  induction left generalizing s frames with
  | zero => rfl
  | succ left ih => exact ih _ _

theorem started_rendered (s : Segment R S) (sink : K) : (s.started sink).1.rendered = 0 := by
  simp only [started, rampAt]
  split
  · rfl
  · exact rampAfter_rendered _ _ _ _ _ _ _

/-- A segment that has been started plays, and no content of it has been rendered. -/
theorem start_eq_ok {idle s : Segment R S} {sink sink' : K}
    (starts : idle.start sink = .ok (s, sink')) : s.playing = true ∧ s.rendered = 0 := by
  rw [start] at starts
  split at starts
  · cases starts
  · cases starts
    exact ⟨started_playing _ _, started_rendered _ _⟩

/-- **Content in any portions.** Let a segment have been started, and let it then fill any sinks of
one rate, one after the other. Altogether it has pushed the first frames of its sequence, as many
as it counts; and into whatever sink of that rate comes next it pushes the frames behind them, as
many as the sink has room for or as are left before the end of the window. -/
theorem started_content {K' : Type} [FrameSink K' S] {idle s : Segment R S} {sink₀ sink₁ : K'}
    (starts : idle.start sink₀ = .ok (s, sink₁)) {rate : Nat} (sinks : List K)
    (rates : ∀ sink ∈ sinks, FrameSink.rate sink = rate) :
    let now := s.afterFills sinks
    (s.pushes sinks).flatten = (List.range now.rendered).map (s.frameOf rate) ∧
      (now.rendered : ℕ∞) ≤ s.contentLength rate ∧
      ∀ sink : K, FrameSink.rate sink = rate →
        let count := (now.fill sink).1
        (count : ℕ∞) =
            min (FrameSink.available sink : ℕ∞) (s.contentLength rate - now.rendered) ∧
          now.pushed sink = (List.range' now.rendered count).map (s.frameOf rate) ∧
          (now.fill sink).2.1.rendered = now.rendered + count := by
  obtain ⟨playing, none⟩ := start_eq_ok starts
  have zero : s.played rate 0 = s := played_zero none rate
  obtain ⟨total, after, pushed, before⟩ :=
    played_fills playing sinks rates 0 fun frame early => by omega
  rw [zero, Nat.zero_add] at after
  rw [zero, ← List.range_eq_range'] at pushed
  rw [Nat.zero_add] at before
  intro now
  have now_eq : now = s.played rate total := after
  rw [now_eq]
  refine ⟨pushed, le_contentLength before, fun sink same => ?_⟩
  obtain ⟨count, counted, next, filled, -, least⟩ := played_fill playing before sink same
  rw [counted]
  exact ⟨least, next, congrArg rendered filled⟩

end

/-- After a ramp of one frame, three sinks, one of them full, get three, none and one of the four
frames. At all of their times there is something to be heard. -/
theorem acrossZero_content :
    let started := acrossZero.started (Ring.ofCapacity 2 5 : Ring Float32)
    let sinks : List (Ring Float32) := [.ofCapacity 2 3, .ofCapacity 2 0, .ofCapacity 2 5]
    acrossZero.start (Ring.ofCapacity 2 5 : Ring Float32) = .ok started ∧
      started.2.queue.size = 1 ∧
      (∀ frame < 4, (acrossZero.frequencyAt? (acrossZero.timeOf 2 frame)).isSome = true) ∧
      (∀ sink ∈ sinks, FrameSink.rate sink = 2) ∧
      (started.1.pushes sinks).map List.length = [3, 0, 1] ∧
      (started.1.pushes sinks).flatten = (List.range 4).map (started.1.frameOf 2) := by
  intro started sinks
  have starts : acrossZero.start (Ring.ofCapacity 2 5 : Ring Float32) = .ok started :=
    if_neg (by decide)
  have ramp : started.2.queue.size = 1 := by decide +kernel
  have heard : ∀ frame < 4, (acrossZero.frequencyAt? (acrossZero.timeOf 2 frame)).isSome = true := by
    decide +kernel
  have rates : ∀ sink ∈ sinks, FrameSink.rate sink = 2 := by
    simp only [sinks, List.mem_cons, List.not_mem_nil, or_false]
    rintro sink (rfl | rfl | rfl) <;> rfl
  have rendered : (started.1.afterFills sinks).rendered = 4 := by decide +kernel
  have lengths : (started.1.pushes sinks).map List.length = [3, 0, 1] := by decide +kernel
  clear_value started
  obtain ⟨content, -⟩ := started_content starts sinks rates
  rw [rendered] at content
  exact ⟨starts, ramp, heard, rates, lengths, content⟩

end Tonegraph.Segment
