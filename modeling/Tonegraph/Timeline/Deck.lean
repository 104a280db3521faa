import Tonegraph.Timeline
/-!
# The transport: playing a timeline into a sink

A deck is a timeline together with the sink that it is played into. The host calls `tick` once in
every turn of its loop: the clock moves, the schedule decides whether the segment goes on, gives
way to the next or was the last, and the segment being played fills the sink. The other calls are
those of a tape deck: `start`, `stop`, and jumps to the beginning of a segment.

The schedule measures each segment from its nominal beginning and not from the tick that crossed
it, so lateness does not add up. A jump moves the clock to the beginning of the segment on the
timeline and measures from there, so the segment plays in full.

A call that fails part way leaves what it has done up to there.
-/

set_option autoImplicit false

namespace Tonegraph

/-- A timeline and the sink `K` that it is played into. -/
structure Deck (T R S K : Type) where
  timeline : Timeline T R S
  sink : K

/-- A call that works on a deck. -/
abbrev Transport (T R S K : Type) := ExceptT TransportError (StateM (Deck T R S K))

namespace Deck

variable {T R S K : Type} [Scalar T] [Arithmetic R] [Scalar S] [Narrowing R S] [FrameSink K S]

/-- The timeline of the deck. -/
def getTimeline : Transport T R S K (Timeline T R S) := do
  return (← get).timeline

/-- Changes the timeline of the deck. -/
def modifyTimeline (f : Timeline T R S → Timeline T R S) : Transport T R S K Unit :=
  modify fun deck => { deck with timeline := f deck.timeline }

/-- Keeps an event for the host. -/
def emit (event : PlaybackEvent) : Transport T R S K Unit :=
  modifyTimeline fun tl => tl.emit event

/-- Applies an operation to the clock. -/
def onClock (operation : Clock T → Except ClockError (Clock T)) : Transport T R S K Unit := do
  match operation (← getTimeline).clock with
  | .error e => throw (.clock e)
  | .ok clock => modifyTimeline fun tl => { tl with clock }

/-- Refuses while the timeline does not play. -/
def ensurePlaying : Transport T R S K Unit := do
  unless (← getTimeline).playing do throw .notPlaying

/-- Starts the segment at a place and puts the cursor there. -/
def startAt (index : Nat) : Transport T R S K Unit := do
  let ⟨tl, sink⟩ ← get
  match tl.entries[index]? with
  | none => throw (.outOfRange index tl.size)
  | some (handle, segment) =>
    match segment.start sink with
    | .error e => throw (.segment e)
    | .ok (segment, sink) =>
      let entries := tl.entries.set index (handle, segment)
      set ({ timeline := { tl with entries, cursor := .segment index }, sink } : Deck T R S K)
      emit (.segmentStarted index handle)

/-- Stops the segment at the cursor if it is playing. -/
def stopActive : Transport T R S K Unit := do
  let ⟨tl, sink⟩ ← get
  match tl.currentIndex? with
  | none => return
  | some index =>
    match tl.entries[index]? with
    | none => return
    | some (handle, segment) =>
      if segment.playing then
        match segment.stop sink with
        | .error e => throw (.segment e)
        | .ok (segment, sink) =>
          let entries := tl.entries.set index (handle, segment)
          set ({ timeline := { tl with entries }, sink } : Deck T R S K)
          emit (.segmentStopped index handle)

/-- The deck with its sink filled from the segment at the cursor, and how many frames that took. -/
def filled : Deck T R S K → Nat × Deck T R S K
  | ⟨tl, sink⟩ =>
    match tl.currentIndex? with
    | none => (0, ⟨tl, sink⟩)
    | some index =>
      match tl.entries[index]? with
      | none => (0, ⟨tl, sink⟩)
      | some (handle, segment) =>
        let (count, segment, sink) := segment.fill sink
        (count, ⟨{ tl with entries := tl.entries.set index (handle, segment) }, sink⟩)

/-- Fills the sink from the segment at the cursor, and says with how many frames. -/
def fill : Transport T R S K Nat := modifyGet filled

/-- Stops playing. When this is no interruption, the clock has to have reached the end of the
timeline. -/
def stop (interrupted : Bool) : Transport T R S K Unit := do
  ensurePlaying
  let tl ← getTimeline
  if !interrupted && tl.clock.rounded < tl.signedRunTime then throw .notFinished
  stopActive
  modifyTimeline fun tl => { tl with cursor := .notStarted, playing := false }
  if (← getTimeline).clock.tracking then onClock Clock.endTracking
  onClock Clock.pause
  emit (.playbackFinished interrupted)

/-- The schedule: ends playing, goes on to the next segment, or lets the current one go on. -/
def step : Transport T R S K Unit := do
  let tl ← getTimeline
  match tl.cursor with
  | .finished => stop false
  | .notStarted =>
    onClock fun clock => clock.trackFrom (Scalar.ofNat 0)
    startAt 0
  | .segment index =>
    let length := ((tl.segmentAt? index).map Segment.runTime).getD 0
    if tl.clock.elapsedTime < Scalar.ofNat length then return
    stopActive
    if index + 1 < tl.size then
      onClock fun clock => clock.trackFrom (Scalar.ofNat (tl.offsetOf (index + 1)))
      startAt (index + 1)
    else
      modifyTimeline fun tl => { tl with cursor := .finished }
      stop false

/-- Plays from the first segment on. -/
def start : Transport T R S K Unit := do
  let tl ← getTimeline
  if tl.entries.isEmpty then throw .empty
  if tl.playing then throw .alreadyPlaying
  modifyTimeline fun tl => { tl with clock := .initial, cursor := .notStarted, playing := true }
  onClock Clock.beginTracking
  step

/-- Jumps to the beginning of the segment at a place. -/
def seekTo (index : Nat) : Transport T R S K Unit := do
  ensurePlaying
  let tl ← getTimeline
  if tl.size ≤ index then throw (.outOfRange index tl.size)
  stopActive
  let origin : T := Scalar.ofNat (tl.offsetOf index)
  modifyTimeline fun tl => { tl with clock := tl.clock.seek origin }
  onClock fun clock => clock.trackFrom origin
  emit (.sought index)
  startAt index

/-- Jumps to the beginning of the next segment. -/
def seekForward : Transport T R S K Unit := do
  ensurePlaying
  let tl ← getTimeline
  match tl.cursor with
  | .segment index => if index + 1 < tl.size then seekTo (index + 1) else throw .noNextSegment
  | _ => throw .noNextSegment

/-- Jumps to the beginning of the previous segment. -/
def seekBackward : Transport T R S K Unit := do
  ensurePlaying
  match (← getTimeline).cursor with
  | .segment (index + 1) => seekTo index
  | _ => throw .noPreviousSegment

/-- Moves the clock by `delta` seconds, runs the schedule and fills the sink. The result is the
number of frames of content. While nothing plays only the clock moves. -/
def tick (delta : T) : Transport T R S K Nat := do
  modifyTimeline fun tl => { tl with clock := (tl.clock.tick delta).2 }
  if (← getTimeline).playing then
    step
    fill
  else return 0

end Deck

end Tonegraph
