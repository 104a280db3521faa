import Tonegraph.Timeline.Deck
import Tonegraph.Proofs.Clock
import Tonegraph.Proofs.Timeline
/-!
# What the transport calls do

`Deck.perform` runs a call on a deck: it gives the call's result and the deck after it. For each
call of the transport one equation says what `perform` gives, with every refusal and what a refused
call leaves behind. The decks in these equations are plain functions of the deck before:

* `Deck.ended` and `Deck.begun` -- the segment of an entry has been stopped or started;
* `Deck.silenced` -- the segment at the cursor has been stopped, if it was playing;
* `Timeline.rewound`, `Timeline.passed`, `Timeline.jumped`, `Timeline.halted` -- what starting,
  going on, jumping and stopping do to a timeline beside its segments.

Nothing here depends on the arithmetic. Stopping the segment at the cursor never fails
(`perform_stopActive`), so past its first checks a call is refused only by a clock that is paused
while the timeline plays, or by the segment that it has to start.
-/

set_option autoImplicit false

namespace Tonegraph

/-! ## Timelines -/

namespace Timeline

variable {T R S : Type}

/-- The place and the entry at the cursor, if its segment is playing. -/
def active? (tl : Timeline T R S) : Option (Nat × Handle × Segment R S) := do
  let index ← tl.currentIndex?
  let entry ← tl.entries[index]?
  if entry.2.playing then some (index, entry) else none

theorem active?_eq_some_iff {tl : Timeline T R S} {index : Nat} {entry : Handle × Segment R S} :
    tl.active? = some (index, entry) ↔
      tl.cursor = .segment index ∧ tl.entries[index]? = some entry ∧ entry.2.playing = true := by
  unfold active? currentIndex?
  cases tl.cursor with
  | notStarted => simp
  | finished => simp
  | segment place =>
      cases found : tl.entries[place]? with
      | none =>
          simp only [found, Option.bind_eq_bind, Option.bind_some, Option.bind_none]
          constructor
          · intro active
            cases active
          · rintro ⟨here, found', -⟩
            cases here
            rw [found] at found'
            cases found'
      | some entry' =>
          simp only [found, Option.bind_eq_bind, Option.bind_some]
          constructor
          · intro active
            split at active
            · cases active
              exact ⟨rfl, found, by assumption⟩
            · cases active
          · rintro ⟨here, found', playing⟩
            cases here
            rw [found] at found'
            cases found'
            rw [if_pos playing]

@[simp] theorem emit_entries (tl : Timeline T R S) (event : PlaybackEvent) :
    (tl.emit event).entries = tl.entries := rfl

@[simp] theorem emit_clock (tl : Timeline T R S) (event : PlaybackEvent) :
    (tl.emit event).clock = tl.clock := rfl

@[simp] theorem emit_cursor (tl : Timeline T R S) (event : PlaybackEvent) :
    (tl.emit event).cursor = tl.cursor := rfl

@[simp] theorem emit_playing (tl : Timeline T R S) (event : PlaybackEvent) :
    (tl.emit event).playing = tl.playing := rfl

section

variable [Scalar T]

/-- A timeline at the beginning of playing, before its first segment starts. -/
def rewound (tl : Timeline T R S) : Timeline T R S :=
  { tl with clock := Clock.initial.tracked (Scalar.ofNat 0), cursor := .notStarted, playing := true }

/-- A timeline that measures from an origin. -/
def passed (tl : Timeline T R S) (origin : T) : Timeline T R S :=
  { tl with clock := tl.clock.tracked origin }

/-- A timeline whose clock has jumped to a time and measures from there, on the way to a place. -/
def jumped (tl : Timeline T R S) (index : Nat) (origin : T) : Timeline T R S :=
  { tl with clock := (tl.clock.seek origin).tracked origin }.emit (.sought index)

/-- A timeline that has ended playing. -/
def halted (tl : Timeline T R S) (interrupted : Bool) : Timeline T R S :=
  { tl with cursor := .notStarted, playing := false, clock := tl.clock.halted }.emit
    (.playbackFinished interrupted)

end

end Timeline

namespace Deck

/-! ## Performing a call -/

section

variable {T R S K α β : Type}

/-- What a call on a deck gives, and the deck after it. -/
def perform (call : Transport T R S K α) (deck : Deck T R S K) :
    Except TransportError α × Deck T R S K :=
  call.run.run deck

@[simp] theorem perform_bind (call : Transport T R S K α) (next : α → Transport T R S K β)
    (deck : Deck T R S K) :
    perform (call >>= next) deck =
      match perform call deck with
      | (.ok a, after) => perform (next a) after
      | (.error e, after) => (.error e, after) := by
  show (match call deck with | (a, s) => ExceptT.bindCont next a s) =
    match call deck with
    | (.ok a, after) => next a after
    | (.error e, after) => (.error e, after)
  rcases call deck with ⟨_ | _, _⟩ <;> rfl

@[simp] theorem perform_pure (a : α) (deck : Deck T R S K) :
    perform (pure a) deck = (.ok a, deck) := rfl

@[simp] theorem perform_throw (e : TransportError) (deck : Deck T R S K) :
    perform (throw e : Transport T R S K α) deck = (.error e, deck) := rfl

@[simp] theorem perform_get (deck : Deck T R S K) : perform get deck = (.ok deck, deck) := rfl

@[simp] theorem perform_set (deck after : Deck T R S K) :
    perform (set after) deck = (.ok (), after) := rfl

@[simp] theorem perform_getTimeline (deck : Deck T R S K) :
    perform getTimeline deck = (.ok deck.timeline, deck) := rfl

@[simp] theorem perform_modifyTimeline (f : Timeline T R S → Timeline T R S)
    (deck : Deck T R S K) :
    perform (modifyTimeline f) deck = (.ok (), { deck with timeline := f deck.timeline }) := rfl

@[simp] theorem perform_emit (event : PlaybackEvent) (deck : Deck T R S K) :
    perform (emit event) deck = (.ok (), { deck with timeline := deck.timeline.emit event }) := rfl

theorem perform_onClock (operation : Clock T → Except ClockError (Clock T))
    (deck : Deck T R S K) :
    perform (onClock operation) deck =
      match operation deck.timeline.clock with
      | .error e => (.error (.clock e), deck)
      | .ok clock => (.ok (), { deck with timeline := { deck.timeline with clock } }) := by
  simp only [onClock, perform_bind, perform_getTimeline]
  cases operation deck.timeline.clock <;> rfl

@[simp] theorem perform_ensurePlaying (deck : Deck T R S K) :
    perform ensurePlaying deck =
      (if deck.timeline.playing then .ok () else .error .notPlaying, deck) := by
  simp only [ensurePlaying, perform_bind, perform_getTimeline]
  cases deck.timeline.playing <;> rfl

end

section

variable {T R S K : Type} [Arithmetic R] [Scalar S] [Narrowing R S] [FrameSink K S]

/-! ## Starting and stopping one segment -/

/-- The deck after the segment of an entry has been stopped at its place. -/
def ended (deck : Deck T R S K) (index : Nat) (entry : Handle × Segment R S) : Deck T R S K :=
  let after := entry.2.stopped deck.sink
  { timeline := { deck.timeline with
      entries := deck.timeline.entries.set index (entry.1, after.1) }.emit
        (.segmentStopped index entry.1)
    sink := after.2 }

/-- The deck after the segment of an entry has been started at its place. -/
def begun (deck : Deck T R S K) (index : Nat) (entry : Handle × Segment R S) : Deck T R S K :=
  let after := entry.2.started deck.sink
  { timeline := { deck.timeline with
      entries := deck.timeline.entries.set index (entry.1, after.1), cursor := .segment index }.emit
        (.segmentStarted index entry.1)
    sink := after.2 }

/-- The deck after the segment at the cursor has been stopped, if it was playing. -/
def silenced (deck : Deck T R S K) : Deck T R S K :=
  match deck.timeline.active? with
  | none => deck
  | some (index, entry) => deck.ended index entry

@[simp] theorem perform_stopActive (deck : Deck T R S K) :
    perform stopActive deck = (.ok (), deck.silenced) := by
  obtain ⟨tl, sink⟩ := deck
  simp only [stopActive, perform_bind, perform_get, silenced, Timeline.active?]
  cases tl.currentIndex? with
  | none => rfl
  | some index =>
      cases hentry : tl.entries[index]? with
      | none => simp [hentry]
      | some entry =>
          obtain ⟨handle, segment⟩ := entry
          by_cases playing : segment.playing
          · simp [hentry, playing, Segment.stop, ended]
          · simp [hentry, playing]

theorem perform_startAt (index : Nat) (deck : Deck T R S K) :
    perform (startAt index) deck =
      match deck.timeline.entries[index]? with
      | none => (.error (.outOfRange index deck.timeline.size), deck)
      | some entry =>
        if entry.2.playing then (.error (.segment .alreadyPlaying), deck)
        else (.ok (), deck.begun index entry) := by
  obtain ⟨tl, sink⟩ := deck
  simp only [startAt, perform_bind, perform_get]
  cases hentry : tl.entries[index]? with
  | none => simp
  | some entry =>
      obtain ⟨handle, segment⟩ := entry
      by_cases playing : segment.playing
      · simp [playing, Segment.start]
      · simp [playing, Segment.start, begun]

@[simp] theorem silenced_clock (deck : Deck T R S K) :
    deck.silenced.timeline.clock = deck.timeline.clock := by
  unfold silenced; split <;> rfl

@[simp] theorem silenced_cursor (deck : Deck T R S K) :
    deck.silenced.timeline.cursor = deck.timeline.cursor := by
  unfold silenced; split <;> rfl

@[simp] theorem silenced_playing (deck : Deck T R S K) :
    deck.silenced.timeline.playing = deck.timeline.playing := by
  unfold silenced; split <;> rfl

@[simp] theorem silenced_size (deck : Deck T R S K) :
    deck.silenced.timeline.size = deck.timeline.size := by
  unfold silenced
  split
  · rfl
  · exact List.length_set

theorem filled_eq {deck : Deck T R S K} {index : Nat} {entry : Handle × Segment R S}
    (cursor : deck.timeline.cursor = .segment index)
    (found : deck.timeline.entries[index]? = some entry) :
    (filled deck).2 = ⟨{ deck.timeline with
      entries := deck.timeline.entries.set index (entry.1, (entry.2.fill deck.sink).2.1) },
      (entry.2.fill deck.sink).2.2⟩ := by
  obtain ⟨tl, sink⟩ := deck
  simp only at cursor found
  simp only [filled, Timeline.currentIndex?, cursor, found]

theorem filled_of_notStarted {deck : Deck T R S K}
    (cursor : deck.timeline.cursor = .notStarted) : (filled deck).2 = deck := by
  obtain ⟨tl, sink⟩ := deck
  simp only at cursor
  simp only [filled, Timeline.currentIndex?, cursor]

/-- Filling leaves the timeline, or puts a segment back in its place with more of it rendered. -/
theorem filled_timeline (deck : Deck T R S K) :
    (filled deck).2.timeline = deck.timeline ∨
      ∃ (index : Nat) (entry : Handle × Segment R S), deck.timeline.entries[index]? = some entry ∧
        (filled deck).2.timeline = { deck.timeline with
          entries := deck.timeline.entries.set index (entry.1, (entry.2.fill deck.sink).2.1) } := by
  obtain ⟨tl, sink⟩ := deck
  simp only [filled]
  cases tl.currentIndex? with
  | none => exact .inl rfl
  | some index =>
      dsimp only
      cases found : tl.entries[index]? with
      | none => exact .inl rfl
      | some entry => exact .inr ⟨index, entry, found, rfl⟩

@[simp] theorem filled_clock (deck : Deck T R S K) :
    (filled deck).2.timeline.clock = deck.timeline.clock := by
  obtain same | ⟨_, _, _, same⟩ := filled_timeline deck <;> rw [same]

@[simp] theorem filled_cursor (deck : Deck T R S K) :
    (filled deck).2.timeline.cursor = deck.timeline.cursor := by
  obtain same | ⟨_, _, _, same⟩ := filled_timeline deck <;> rw [same]

@[simp] theorem filled_playing (deck : Deck T R S K) :
    (filled deck).2.timeline.playing = deck.timeline.playing := by
  obtain same | ⟨_, _, _, same⟩ := filled_timeline deck <;> rw [same]

theorem filled_sounds {deck : Deck T R S K} {place? : Option Nat}
    (sounds : Timeline.Sounds deck.timeline.entries place?) :
    Timeline.Sounds (filled deck).2.timeline.entries place? := by
  obtain same | ⟨index, entry, found, same⟩ := filled_timeline deck
  · rw [same]
    exact sounds
  · rw [same]
    exact sounds.set_same found (Segment.fill_playing _ _)

/-! ### The outline and the events -/

section Emits

variable {deck : Deck T R S K} {index : Nat} {entry : Handle × Segment R S}

theorem ended_emits (found : deck.timeline.entries[index]? = some entry) :
    deck.timeline.Emits (deck.ended index entry).timeline [.segmentStopped index entry.1] where
  outline := Timeline.outline_set found (Segment.stopped_samePiece _ _)
  events := Timeline.emit_events _ _

theorem begun_emits (found : deck.timeline.entries[index]? = some entry) :
    deck.timeline.Emits (deck.begun index entry).timeline [.segmentStarted index entry.1] where
  outline := Timeline.outline_set found (Segment.started_samePiece _ _)
  events := Timeline.emit_events _ _

theorem filled_emits (deck : Deck T R S K) :
    deck.timeline.Emits (filled deck).2.timeline [] := by
  obtain same | ⟨index, entry, found, same⟩ := filled_timeline deck
  · rw [same]
    exact .refl _
  · rw [same]
    exact ⟨Timeline.outline_set found (Segment.fill_samePiece _ _), rfl⟩

end Emits

/-! ## The calls -/

variable [Scalar T]

theorem perform_stop (interrupted : Bool) (deck : Deck T R S K) :
    perform (stop interrupted) deck =
      if deck.timeline.playing = false then (.error .notPlaying, deck)
      else if interrupted = false ∧
          deck.timeline.clock.rounded < deck.timeline.signedRunTime then
        (.error .notFinished, deck)
      else (.ok (), ⟨deck.silenced.timeline.halted interrupted, deck.silenced.sink⟩) := by
  cases playing : deck.timeline.playing with
  | false => simp [stop, playing]
  | true =>
      simp only [stop, perform_bind, perform_ensurePlaying, playing, perform_getTimeline]
      by_cases early : interrupted = false ∧
          deck.timeline.clock.rounded < deck.timeline.signedRunTime
      · simp [early]
      · cases tracking : deck.timeline.clock.tracking <;>
          simp [early, tracking, perform_onClock, Clock.endTracking, Clock.pause, Timeline.halted,
            Clock.halted]

theorem perform_seekTo (index : Nat) (deck : Deck T R S K) :
    perform (seekTo index) deck =
      if deck.timeline.playing = false then (.error .notPlaying, deck)
      else if deck.timeline.size ≤ index then
        (.error (.outOfRange index deck.timeline.size), deck)
      else
        let origin : T := Scalar.ofNat (deck.timeline.offsetOf index)
        if deck.timeline.clock.paused then
          (.error (.clock .trackWhilePaused),
            { deck.silenced with timeline := { deck.silenced.timeline with
              clock := deck.timeline.clock.seek origin } })
        else
          perform (startAt index)
            { deck.silenced with timeline := deck.silenced.timeline.jumped index origin } := by
  cases playing : deck.timeline.playing with
  | false => simp [seekTo, playing]
  | true =>
      simp only [seekTo, perform_bind, perform_ensurePlaying, playing, perform_getTimeline]
      by_cases beyond : deck.timeline.size ≤ index
      · simp [beyond]
      · cases paused : deck.timeline.clock.paused <;>
          simp [beyond, paused, perform_onClock, Clock.trackFrom_eq, Timeline.jumped]

theorem perform_seekForward (deck : Deck T R S K) :
    perform seekForward deck =
      if deck.timeline.playing = false then (.error .notPlaying, deck)
      else
        match deck.timeline.cursor with
        | .segment index =>
          if index + 1 < deck.timeline.size then perform (seekTo (index + 1)) deck
          else (.error .noNextSegment, deck)
        | _ => (.error .noNextSegment, deck) := by
  cases playing : deck.timeline.playing with
  | false => simp [seekForward, playing]
  | true =>
      cases cursor : deck.timeline.cursor with
      | segment index =>
          by_cases next : index + 1 < deck.timeline.size <;>
            simp [seekForward, playing, cursor, next]
      | _ => simp [seekForward, playing, cursor]

theorem perform_seekBackward (deck : Deck T R S K) :
    perform seekBackward deck =
      if deck.timeline.playing = false then (.error .notPlaying, deck)
      else
        match deck.timeline.cursor with
        | .segment (index + 1) => perform (seekTo index) deck
        | _ => (.error .noPreviousSegment, deck) := by
  cases playing : deck.timeline.playing with
  | false => simp [seekBackward, playing]
  | true =>
      cases cursor : deck.timeline.cursor with
      | segment index => cases index <;> simp [seekBackward, playing, cursor]
      | _ => simp [seekBackward, playing, cursor]

/-- A step forward is refused with nothing changed, or is a jump. -/
theorem seekForward_cases (deck : Deck T R S K) :
    (∃ e, perform seekForward deck = (.error e, deck)) ∨
      ∃ index, perform seekForward deck = perform (seekTo index) deck := by
  rw [perform_seekForward]
  split
  · exact .inl ⟨_, rfl⟩
  · split
    · split
      · exact .inr ⟨_, rfl⟩
      · exact .inl ⟨_, rfl⟩
    · exact .inl ⟨_, rfl⟩

theorem seekBackward_cases (deck : Deck T R S K) :
    (∃ e, perform seekBackward deck = (.error e, deck)) ∨
      ∃ index, perform seekBackward deck = perform (seekTo index) deck := by
  rw [perform_seekBackward]
  split
  · exact .inl ⟨_, rfl⟩
  · split
    · exact .inr ⟨_, rfl⟩
    · exact .inl ⟨_, rfl⟩

theorem perform_start (deck : Deck T R S K) :
    perform start deck =
      if deck.timeline.entries = [] then (.error .empty, deck)
      else if deck.timeline.playing then (.error .alreadyPlaying, deck)
      else perform (startAt 0) { deck with timeline := deck.timeline.rewound } := by
  by_cases empty : deck.timeline.entries = []
  · simp [start, empty]
  · cases playing : deck.timeline.playing with
    | true => simp [start, empty, playing]
    | false =>
        simp [start, step, empty, playing, perform_onClock, Clock.beginTracking,
          Clock.trackFrom_eq, Clock.tracked, Clock.initial, Timeline.rewound]

theorem perform_step (deck : Deck T R S K) :
    perform step deck =
      match deck.timeline.cursor with
      | .finished => perform (stop false) deck
      | .notStarted =>
        if deck.timeline.clock.paused then (.error (.clock .trackWhilePaused), deck)
        else
          perform (startAt 0) { deck with timeline := deck.timeline.passed (Scalar.ofNat 0) }
      | .segment index =>
        let length := ((deck.timeline.segmentAt? index).map Segment.runTime).getD 0
        if deck.timeline.clock.elapsedTime < Scalar.ofNat length then (.ok (), deck)
        else if index + 1 < deck.timeline.size then
          let origin : T := Scalar.ofNat (deck.timeline.offsetOf (index + 1))
          if deck.timeline.clock.paused then (.error (.clock .trackWhilePaused), deck.silenced)
          else
            perform (startAt (index + 1))
              { deck.silenced with timeline := deck.silenced.timeline.passed origin }
        else
          perform (stop false)
            { deck.silenced with timeline := { deck.silenced.timeline with cursor := .finished } }
      := by
  simp only [step, perform_bind, perform_getTimeline]
  cases cursor : deck.timeline.cursor with
  | finished => rfl
  | notStarted =>
      cases paused : deck.timeline.clock.paused <;>
        simp [paused, perform_onClock, Clock.trackFrom_eq, Timeline.passed]
  | segment index =>
      by_cases waits : deck.timeline.clock.elapsedTime <
          Scalar.ofNat (((deck.timeline.segmentAt? index).map Segment.runTime).getD 0)
      · simp [waits]
      · by_cases next : index + 1 < deck.timeline.size
        · cases paused : deck.timeline.clock.paused <;>
            simp [waits, next, paused, perform_onClock, Clock.trackFrom_eq, Timeline.passed]
        · simp [waits, next]

/-- A deck whose clock has been ticked. -/
def ticked (deck : Deck T R S K) (delta : T) : Deck T R S K :=
  { deck with timeline := { deck.timeline with clock := (deck.timeline.clock.tick delta).2 } }

theorem perform_tick (delta : T) (deck : Deck T R S K) :
    perform (tick delta) deck =
      if deck.timeline.playing then
        match perform step (deck.ticked delta) with
        | (.ok (), after) => (.ok (filled after).1, (filled after).2)
        | (.error e, after) => (.error e, after)
      else (.ok 0, deck.ticked delta) := by
  cases playing : deck.timeline.playing with
  | false => simp [tick, playing, ticked]
  | true =>
      simp only [tick, perform_bind, perform_modifyTimeline, perform_getTimeline, playing, if_true,
        ticked]
      rcases perform step _ with ⟨_ | _, _⟩ <;> rfl

end

end Deck

end Tonegraph
