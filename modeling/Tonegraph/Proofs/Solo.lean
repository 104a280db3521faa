import Tonegraph.Proofs.Arithmetic.Exact
import Tonegraph.Proofs.Duration
import Tonegraph.Proofs.Rendering.Buffer
/-!
# A segment played into a recorder

Into a recorder a segment pushes its ramp from silence, then content, and a ramp to silence, each as
far as there is room. `Segment.heard` is what has been heard of it in the end, given how many frames
of each part found room, and `Segment.whole` when all did. Which frames a ramp consists of depends
on how many there are, and the phase of the content on the ramp before.

Content ends with the window. There are as many frames of it for each second as the rate says,
unless their times round onto the end of the window (`Segment.Timely`). No segment is such an
exception where times do not round (`Segment.timely_of_exact`), nor where they round within the
bounds of numbers of 64 bits (`Segment.timely_of_rounded`).

`Segment.started_holds`, `Segment.fill_holds` and `Segment.stopped_holds` say which frames the
recorder holds afterwards; `Segment.alone_eq_whole` puts them together for a recorder with room for
all.
-/

set_option autoImplicit false

namespace Tonegraph

namespace Segment

variable {R S : Type} [Arithmetic R]

/-! ## The parts of a segment -/

/-- The frames of a ramp that nothing cuts short. -/
def rampFrames (s : Segment R S) (rate : Nat) : Nat :=
  (Scalar.truncate 0 (UInt64.size - 1) (s.voice.fade * Scalar.ofNat rate)).toNat

/-- The frames of a ramp at the frequency of a time. In silence there are none. -/
def rampSize (s : Segment R S) (t : R) (rate : Nat) : Nat :=
  if (s.frequencyAt? t).isSome then s.rampFrames rate else 0

/-- Something is to be heard at both ends of the window, so that there are ramps. -/
structure Audible (s : Segment R S) (rate : Nat) : Prop where
  start : (s.frequencyAt? (Scalar.ofInt s.window.start.toInt)).isSome = true
  stop : (s.frequencyAt? (s.timeOf rate (rate * s.runTime))).isSome = true

/-- The window ends with the last second of content, and not before. -/
structure Timely (s : Segment R S) (rate : Nat) : Prop where
  during : ∀ frame < rate * s.runTime, ¬s.EndedAt rate frame
  ended : s.EndedAt rate (rate * s.runTime)

/-- The segment at the start of its window, before anything of it has sounded. -/
def fresh (s : Segment R S) : Segment R S := { s with rendered := 0, phase := Scalar.ofNat 0 }

variable [Scalar S] [Narrowing R S]

/-- The segment after so many frames of its ramp from silence. -/
def opened (s : Segment R S) (rate fadeIn : Nat) : Segment R S :=
  { (s.fresh.rampAt .fadeIn (Scalar.ofInt s.window.start.toInt) rate fadeIn).2 with playing := true }

/-- The segment after so many frames of its ramp from silence and of its content. -/
def midway (s : Segment R S) (rate fadeIn content : Nat) : Segment R S :=
  (s.opened rate fadeIn).played rate content

/-- The first frames of a segment: of its ramp from silence, and of its content. -/
def heardSoFar (s : Segment R S) (rate fadeIn content : Nat) : List (Frame S) :=
  (s.fresh.rampAt .fadeIn (Scalar.ofInt s.window.start.toInt) rate fadeIn).1.toList ++
    (List.range content).map ((s.opened rate fadeIn).frameOf rate)

/-- The frames that are heard of a segment of which a share found room. Behind the first ones come
those of its ramp to silence, at the frequency that the content has come to. -/
def heard (s : Segment R S) (rate : Nat) (share : Share) : List (Frame S) :=
  s.heardSoFar rate share.fadeIn share.content ++
    ((s.midway rate share.fadeIn share.content).rampAt .fadeOut (s.timeOf rate share.content) rate
      share.fadeOut).1.toList

/-- All frames of a segment: both ramps, and the content of its whole window. -/
def whole (s : Segment R S) (rate : Nat) : List (Frame S) :=
  s.heard rate ⟨s.rampFrames rate, rate * s.runTime, s.rampFrames rate⟩

/-- What a recorder gets when a segment is played alone: started, filled from, and stopped. -/
def alone (s : Segment R S) (rate room : Nat) : List (Frame S) :=
  let (s, sink) := s.started (Recorder.ofCapacity rate room : Recorder S)
  let (_, s, sink) := s.fill sink
  (s.stopped sink).2.frames.toList

section

omit [Narrowing R S] [Scalar S]

theorem rampSize_le (s : Segment R S) (t : R) (rate : Nat) :
    s.rampSize t rate ≤ s.rampFrames rate := by
  unfold rampSize
  split <;> omega

theorem SamePiece.frequencyAt? {a b : Segment R S} (same : a.SamePiece b) (t : R) :
    a.frequencyAt? t = b.frequencyAt? t := by
  unfold Segment.frequencyAt? valueAt?
  rw [same.formula, same.voice]

theorem SamePiece.rampSize {a b : Segment R S} (same : a.SamePiece b) (t : R) (rate : Nat) :
    a.rampSize t rate = b.rampSize t rate := by
  unfold Segment.rampSize rampFrames
  rw [same.frequencyAt?, same.voice]

/-- Where times do not round there are as many frames of content to a second as the rate says. -/
theorem timely_of_exact [ExactTimes R] (s : Segment R S) {rate : Nat} (positive : 0 < rate) :
    s.Timely rate := by
  have scaled : ((rate * s.runTime : Nat) : Int) =
      s.window.stop.toInt * rate - s.window.start.toInt * rate := by
    push_cast
    rw [s.runTime_eq.1]
    ring
  constructor
  · intro frame early
    rw [EndedAt, timeOf, ExactTimes.le_iff _ _ _ _ positive]
    omega
  · rw [EndedAt, timeOf, ExactTimes.le_iff _ _ _ _ positive]
    omega

/-- Where times round there are too, up to 192000 frames in a second. -/
theorem timely_of_rounded {ρ : Rounding} [RoundedTimes ρ R] (s : Segment R S) {rate : Nat}
    (positive : 0 < rate) (slow : rate ≤ 192000) : s.Timely rate := by
  have ends {frame : Nat} (within : frame ≤ s.runTime * rate) :=
    s.endedAt_iff_of_le (ρ := ρ) positive slow within
  rw [Nat.mul_comm] at ends
  exact ⟨fun frame early => (ends early.le).not.mpr early.ne, (ends le_rfl).mpr rfl⟩

end

theorem opened_samePiece (s : Segment R S) (rate fadeIn : Nat) :
    (s.opened rate fadeIn).SamePiece s := by
  have ramp := rampAt_samePiece s.fresh .fadeIn (Scalar.ofInt s.window.start.toInt) rate fadeIn
  exact ⟨ramp.text, ramp.formula, ramp.window, ramp.voice⟩

theorem midway_samePiece (s : Segment R S) (rate fadeIn content : Nat) :
    (s.midway rate fadeIn content).SamePiece s :=
  have opened := s.opened_samePiece rate fadeIn
  ⟨opened.text, opened.formula, opened.window, opened.voice⟩

theorem midway_zero (s : Segment R S) (rate fadeIn : Nat) :
    s.midway rate fadeIn 0 = s.opened rate fadeIn := by
  refine played_zero ?_ rate
  simp only [opened, rampAt]
  split
  · rfl
  · exact rampAfter_rendered _ _ _ _ _ _ _

theorem heardSoFar_zero (s : Segment R S) (rate fadeIn : Nat) :
    s.heardSoFar rate fadeIn 0 =
      (s.fresh.rampAt .fadeIn (Scalar.ofInt s.window.start.toInt) rate fadeIn).1.toList :=
  List.append_nil _

theorem heardSoFar_add (s : Segment R S) (rate fadeIn before count : Nat) :
    s.heardSoFar rate fadeIn (before + count) = s.heardSoFar rate fadeIn before ++
      (List.range' before count).map ((s.opened rate fadeIn).frameOf rate) := by
  rw [heardSoFar, heardSoFar, List.append_assoc, ← List.map_append, List.range_eq_range',
    List.range_eq_range', List.range'_append_1.symm.trans (by rw [Nat.zero_add])]

/-! ### Ramps -/

theorem rampAt_size (s : Segment R S) (dir : Ramp) (t : R) (rate room : Nat) :
    (s.rampAt dir t rate room).1.size = min (s.rampSize t rate) room := by
  unfold rampAt rampSize
  cases s.frequencyAt? t with
  | none => exact (Nat.zero_min room).symm
  | some frequency =>
      simp only [rampAfter_size, List.size_toArray, List.length_nil, Nat.zero_add,
        Option.isSome_some, if_true]
      rfl

/-- A ramp does not depend on the room beyond its length. -/
theorem rampAt_min (s : Segment R S) (dir : Ramp) (t : R) (rate room : Nat) :
    s.rampAt dir t rate (min (s.rampSize t rate) room) = s.rampAt dir t rate room := by
  unfold rampAt rampSize
  cases s.frequencyAt? t with
  | none => rfl
  | some frequency =>
      have length : s.rampLength rate (min (s.rampFrames rate) room) = s.rampLength rate room := by
        show min (s.rampFrames rate) (min (s.rampFrames rate) room) = min (s.rampFrames rate) room
        omega
      simp only [Option.isSome_some, if_true, length]

omit [Scalar S] [Narrowing R S] in
theorem fresh_rampSize (s : Segment R S) (t : R) (rate : Nat) :
    s.fresh.rampSize t rate = s.rampSize t rate := rfl

/-- How many frames are heard of a segment. -/
theorem length_heard (s : Segment R S) (rate : Nat) (share : Share) :
    (s.heard rate share).length =
      min (s.rampSize (Scalar.ofInt s.window.start.toInt) rate) share.fadeIn + share.content +
        min (s.rampSize (s.timeOf rate share.content) rate) share.fadeOut := by
  have length (s : Segment R S) (dir : Ramp) (t : R) (room : Nat) :
      (s.rampAt dir t rate room).1.toList.length = min (s.rampSize t rate) room := by
    rw [Array.length_toList, rampAt_size]
  rw [heard, heardSoFar, List.length_append, List.length_append, length, length,
    List.length_map, List.length_range, fresh_rampSize,
    (s.midway_samePiece rate share.fadeIn share.content).rampSize]

/-- What is heard does not depend on a share beyond the lengths of the ramps. -/
theorem heard_min (s : Segment R S) (rate fadeIn content fadeOut : Nat) :
    s.heard rate ⟨min (s.rampSize (Scalar.ofInt s.window.start.toInt) rate) fadeIn, content,
        min (s.rampSize (s.timeOf rate content) rate) fadeOut⟩ =
      s.heard rate ⟨fadeIn, content, fadeOut⟩ := by
  have first := s.fresh.rampAt_min .fadeIn (Scalar.ofInt s.window.start.toInt) rate fadeIn
  have last := (s.midway rate fadeIn content).rampAt_min .fadeOut (s.timeOf rate content) rate
    fadeOut
  rw [fresh_rampSize] at first
  rw [(s.midway_samePiece rate fadeIn content).rampSize] at last
  have opened : s.opened rate (min (s.rampSize (Scalar.ofInt s.window.start.toInt) rate) fadeIn) =
      s.opened rate fadeIn := by
    rw [Segment.opened, first]
    rfl
  simp only [heard, heardSoFar, midway, first, opened]
  rw [← midway, last]

/-- Whole, a segment is heard with the ramps that it has. -/
theorem whole_eq (s : Segment R S) (rate : Nat) :
    s.whole rate = s.heard rate ⟨s.rampSize (Scalar.ofInt s.window.start.toInt) rate,
      rate * s.runTime, s.rampSize (s.timeOf rate (rate * s.runTime)) rate⟩ := by
  rw [whole, ← heard_min, Nat.min_eq_left (s.rampSize_le _ _), Nat.min_eq_left (s.rampSize_le _ _)]

theorem length_whole {s : Segment R S} {rate : Nat} (audible : s.Audible rate) :
    (s.whole rate).length = s.rampFrames rate + rate * s.runTime + s.rampFrames rate := by
  rw [whole, length_heard, rampSize, rampSize, if_pos audible.start, if_pos audible.stop,
    Nat.min_self]

end Segment

/-! ## Into a recorder -/

namespace Recorder

variable {S : Type}

/-- What a recorder of a rate and a capacity holds: so many frames in its buffer, and these
recorded. -/
structure Holds (r : Recorder S) (rate capacity queued : Nat) (frames : List (Frame S)) :
    Prop where
  rate : r.rate = rate
  capacity : r.capacity = capacity
  queued : r.queued = queued
  frames : r.frames.toList = frames

variable {r : Recorder S} {rate capacity queued : Nat} {frames : List (Frame S)}

theorem ofCapacity_holds (rate capacity : Nat) :
    (ofCapacity rate capacity : Recorder S).Holds rate capacity 0 [] := ⟨rfl, rfl, rfl, rfl⟩

theorem Holds.start (holds : r.Holds rate capacity queued frames) :
    r.start.Holds rate capacity queued frames :=
  ⟨holds.rate, holds.capacity, holds.queued, holds.frames⟩

theorem Holds.stop (holds : r.Holds rate capacity queued frames) :
    r.stop.Holds rate capacity queued frames :=
  ⟨holds.rate, holds.capacity, holds.queued, holds.frames⟩

theorem Holds.consume (holds : r.Holds rate capacity queued frames) (count : Nat) :
    (r.consume count).Holds rate capacity (queued - count) frames :=
  ⟨holds.rate, holds.capacity, congrArg (· - count) holds.queued, holds.frames⟩

theorem Holds.available (holds : r.Holds rate capacity queued frames) :
    FrameSink.available r = capacity - queued := by
  show r.capacity - r.queued = _
  rw [holds.capacity, holds.queued]

/-- Frames for which there is room are all recorded. -/
theorem Holds.pushAll (holds : r.Holds rate capacity queued frames) (more : Array (Frame S))
    (room : queued + more.size ≤ capacity) :
    (FrameSink.pushAll r more).Holds rate capacity (queued + more.size)
      (frames ++ more.toList) := by
  obtain ⟨more⟩ := more
  simp only [FrameSink.pushAll, List.foldl_toArray', List.size_toArray] at room ⊢
  induction more generalizing r queued frames with
  | nil => simpa using holds
  | cons frame rest ih =>
      simp only [List.length_cons] at room
      have free : r.queued < r.capacity := by
        rw [holds.queued, holds.capacity]
        omega
      have pushed : (FrameSink.push r frame).Holds rate capacity (queued + 1)
          (frames ++ [frame]) := by
        show (r.push frame).Holds _ _ _ _
        rw [push, if_pos free]
        exact ⟨holds.rate, holds.capacity, congrArg (· + 1) holds.queued, by simp [holds.frames]⟩
      have after := ih pushed (by omega)
      rw [Nat.add_assoc, Nat.add_comm 1, List.append_assoc, List.singleton_append] at after
      exact after

end Recorder

namespace Segment

variable {R S : Type} [Arithmetic R] [Scalar S] [Narrowing R S]
variable {s : Segment R S} {r : Recorder S} {rate capacity queued : Nat} {frames : List (Frame S)}

/-- A ramp pushes as many frames as it has or as there is room for. -/
theorem rampAt_holds (holds : r.Holds rate capacity queued frames) (bounded : queued ≤ capacity)
    (dir : Ramp) (t : R) :
    let count := min (s.rampSize t rate) (capacity - queued)
    let ramp := s.rampAt dir t rate count
    s.rampAt dir t (FrameSink.rate r) (FrameSink.available r) = ramp ∧
      (FrameSink.pushAll r ramp.1).Holds rate capacity (queued + count)
        (frames ++ ramp.1.toList) := by
  intro count ramp
  have rates : FrameSink.rate r = rate := holds.rate
  have size : ramp.1.size = count := by
    rw [rampAt_size]
    omega
  refine ⟨by rw [rates, holds.available, ← rampAt_min], ?_⟩
  rw [← size]
  exact holds.pushAll ramp.1 (by omega)

/-- A segment that is started pushes as much of its ramp as there is room for. -/
theorem started_holds (holds : r.Holds rate capacity queued frames) (bounded : queued ≤ capacity) :
    let count := min (s.rampSize (Scalar.ofInt s.window.start.toInt) rate) (capacity - queued)
    (s.started r).1 = s.midway rate count 0 ∧
      (s.started r).2.Holds rate capacity (queued + count)
        (frames ++ s.heardSoFar rate count 0) := by
  intro count
  obtain ⟨cut, pushed⟩ := rampAt_holds (s := s.fresh) holds.start bounded .fadeIn
    (Scalar.ofInt s.window.start.toInt)
  let after := fun ramp : Array (Frame S) × Segment R S =>
    (({ ramp.2 with playing := true } : Segment R S), FrameSink.pushAll r.start ramp.1)
  have started : s.started r = after (s.fresh.rampAt .fadeIn (Scalar.ofInt s.window.start.toInt)
      (FrameSink.rate r.start) (FrameSink.available r.start)) := rfl
  rw [started, cut, midway_zero, heardSoFar_zero]
  exact ⟨rfl, pushed⟩

/-- A segment pushes the next of its content, as much as there is room for or is left. -/
theorem fill_holds {fadeIn before : Nat} (timely : s.Timely rate) (left : before ≤ rate * s.runTime)
    (holds : r.Holds rate capacity queued (frames ++ s.heardSoFar rate fadeIn before))
    (bounded : queued ≤ capacity) :
    let count := min (capacity - queued) (rate * s.runTime - before)
    ((s.midway rate fadeIn before).fill r).2.1 = s.midway rate fadeIn (before + count) ∧
      ((s.midway rate fadeIn before).fill r).2.2.Holds rate capacity (queued + count)
        (frames ++ s.heardSoFar rate fadeIn (before + count)) := by
  intro count
  have playing : (s.midway rate fadeIn before).playing = true := rfl
  have window := (opened_samePiece s rate fadeIn).window
  have ends (frame : Nat) : (s.opened rate fadeIn).EndedAt rate frame ↔ s.EndedAt rate frame := by
    unfold EndedAt timeOf
    rw [window]
  obtain ⟨pushed, within, rendered, during, after⟩ :=
    (s.opened rate fadeIn).played_contentAfter rate (capacity - queued) before #[]
  simp only [ends] at during after
  have same : pushed = count := by
    have upto : before + pushed ≤ rate * s.runTime := by
      by_contra beyond
      exact during (rate * s.runTime) (by omega) (by omega) timely.ended
    have enough : pushed < capacity - queued → ¬before + pushed < rate * s.runTime :=
      fun short early => timely.during _ early (after short)
    omega
  have rates : FrameSink.rate r = rate := holds.rate
  rw [fill_of_playing playing, holds.available, rates, midway, rendered, same, heardSoFar_add,
    ← List.append_assoc]
  refine ⟨rfl, ?_⟩
  let content := (List.range' before count).map ((s.opened rate fadeIn).frameOf rate)
  have size : content.toArray.size = count := by simp [content]
  have pushes := holds.pushAll content.toArray (by omega)
  rw [size] at pushes
  rwa [Array.empty_append]

/-- A segment that is stopped pushes as much of its ramp as there is room for. -/
theorem stopped_holds {fadeIn content : Nat}
    (holds : r.Holds rate capacity queued (frames ++ s.heardSoFar rate fadeIn content))
    (bounded : queued ≤ capacity) :
    let count := min (s.rampSize (s.timeOf rate content) rate) (capacity - queued)
    ((s.midway rate fadeIn content).stopped r).2.Holds rate capacity (queued + count)
      (frames ++ s.heard rate ⟨fadeIn, content, count⟩) := by
  intro count
  have same := s.midway_samePiece rate fadeIn content
  have time : (s.midway rate fadeIn content).localTime rate = s.timeOf rate content := by
    rw [localTime, same.window]
    rfl
  obtain ⟨cut, pushed⟩ := rampAt_holds (s := s.midway rate fadeIn content) holds bounded .fadeOut
    (s.timeOf rate content)
  rw [same.rampSize] at cut pushed
  have rates : FrameSink.rate r = rate := holds.rate
  have parts : ((s.midway rate fadeIn content).stopped r).2 =
      Recorder.stop (FrameSink.pushAll r ((s.midway rate fadeIn content).rampAt .fadeOut
        (s.timeOf rate content) rate count).1) := by
    rw [stopped, rates, time, ← cut, rates]
    rfl
  rw [parts, heard, ← List.append_assoc]
  exact pushed.stop

/-- Alone and with room for all, a segment is heard whole. -/
theorem alone_eq_whole (timely : s.Timely rate) {room : Nat}
    (enough : s.rampFrames rate + rate * s.runTime + s.rampFrames rate ≤ room) :
    s.alone rate room = s.whole rate := by
  let start := s.rampSize (Scalar.ofInt s.window.start.toInt) rate
  let stop := s.rampSize (s.timeOf rate (rate * s.runTime)) rate
  have start_le : start ≤ s.rampFrames rate := s.rampSize_le _ rate
  have stop_le : stop ≤ s.rampFrames rate := s.rampSize_le _ rate
  let empty : Recorder S := .ofCapacity rate room
  have holds : empty.Holds rate room 0 [] := Recorder.ofCapacity_holds rate room
  obtain ⟨begun, started⟩ := started_holds (s := s) holds (Nat.zero_le room)
  have first : min start (room - 0) = start := by omega
  rw [first] at begun started
  rw [Nat.zero_add] at started
  obtain ⟨filled, content⟩ := fill_holds timely (Nat.zero_le _) started (by omega)
  have all : min (room - start) (rate * s.runTime - 0) = rate * s.runTime := by omega
  rw [all, Nat.zero_add] at filled content
  have ended := (stopped_holds content (by omega)).frames
  have last : min stop (room - (start + rate * s.runTime)) = stop := by omega
  rw [last] at ended
  have parts : s.alone rate room =
      (((s.started empty).1.fill (s.started empty).2).2.1.stopped
        ((s.started empty).1.fill (s.started empty).2).2.2).2.frames.toList := rfl
  rw [parts, begun, filled, ended, List.nil_append, whole_eq]

end Segment

end Tonegraph
