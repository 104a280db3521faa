import Tonegraph.Proofs.Arithmetic.Exact
import Tonegraph.Proofs.Deck.Calls
/-!
# The cursor, the clock and the segments keep together

A timeline is either at rest (`Timeline.AtRest`) or plays one segment (`Timeline.PlaysAt`): the
cursor is at that segment, it alone sounds, and the clock measures from where it begins. Every call
of the transport and every tick leads from one of these to one of these:

* `start_yields` -- from silence to the first segment;
* `seekTo_yields` -- from any segment to any other;
* `stop_yields` -- from any segment to rest;
* `tick_goesOn`, `tick_over`, `tick_last` -- a tick before the end of the segment, past it, and past
  the end of the last one; `tick_atRest` -- a tick when nothing plays.

`Deck.Yields` is the form of these statements: the call succeeds, emits exactly these events and
leaves a timeline that is so. From them and from the edits comes `Reached.coherent`.

In exact time the end of the last segment and the end of the timeline are the same instant, so the
schedule is never refused the stop that it asks for, and every tick is granted (`tick_onTime`). Where
all times are exact, `tick_within`, `tick_across` and `tick_past` say where the ticks lead.
-/

set_option autoImplicit false

namespace Tonegraph

namespace Timeline

variable {T R S : Type}

/-- A timeline that does not play. -/
structure AtRest (tl : Timeline T R S) : Prop where
  stopped : tl.playing = false
  cursor : tl.cursor = .notStarted
  silent : Sounds tl.entries none
  untracked : tl.clock.tracking = false

theorem AtRest.takeEvents {tl : Timeline T R S} (rest : tl.AtRest) (count : Nat) :
    (tl.takeEvents count).2.AtRest :=
  ⟨rest.stopped, rest.cursor, rest.silent, rest.untracked⟩

variable [Scalar T]

/-- A timeline that plays the segment at a place. -/
structure PlaysAt (tl : Timeline T R S) (index : Nat) : Prop where
  playing : tl.playing = true
  within : index < tl.size
  cursor : tl.cursor = .segment index
  sounds : Sounds tl.entries (some index)
  measures : tl.clock.Measures (Scalar.ofNat (tl.offsetOf index))

/-- The segment at a place has not yet been played for its length. -/
def GoesOn (tl : Timeline T R S) (index : Nat) : Prop :=
  tl.clock.elapsedTime < Scalar.ofNat (((tl.segmentAt? index).map Segment.runTime).getD 0)

/-- A timeline is at rest, or it plays one segment and its clock is at an exact time. -/
def OnTime [ExactClock T] (tl : Timeline T R S) : Prop :=
  tl.AtRest ∨ ∃ index, tl.PlaysAt index ∧ ∃ time, tl.position = ExactClock.ofRat time

theorem PlaysAt.takeEvents {tl : Timeline T R S} {index : Nat} (plays : tl.PlaysAt index)
    (count : Nat) : (tl.takeEvents count).2.PlaysAt index :=
  ⟨plays.playing, plays.within, plays.cursor, plays.sounds, plays.measures⟩

theorem empty_atRest : (empty : Timeline T R S).AtRest where
  stopped := rfl
  cursor := rfl
  silent := by
    intro place entry found
    simp [empty] at found
  untracked := rfl

end Timeline

/-! ## Edits -/

section

variable {T R S : Type} [Scalar T] {tl after : Timeline T R S}

theorem Edit.apply_atRest {edit : Edit R S} (rest : tl.AtRest)
    (idle : edit.Inserts fun segment => segment.playing = false)
    (applied : edit.apply tl = .ok after) : after.AtRest := by
  obtain ⟨entries, issued, silent, rfl | rfl⟩ :=
    apply_of_stopped rest.stopped (Timeline.sounds_none_iff.mp rest.silent) idle
      (fun windowed _ => Segment.setWindow_playing windowed) applied
  · exact ⟨rest.stopped, rest.cursor, Timeline.sounds_none_iff.mpr silent, rest.untracked⟩
  · exact ⟨rfl, rfl, Timeline.sounds_none_iff.mpr silent, rfl⟩

end

/-- A clock that has come to the end of the timeline shows so. -/
theorem Timeline.signedRunTime_le_secondOf {T R S : Type} {tl : Timeline T R S} {time : ℚ}
    (late : tl.offsetOf tl.size ≤ time) : tl.signedRunTime ≤ Clock.secondOf time := by
  obtain ⟨most, fits⟩ := tl.signedRunTime_le
  refine Clock.le_secondOf (le_trans ?_ late) fits
  rw [← Timeline.runTime_eq_offsetOf]
  exact_mod_cast most

theorem Timeline.signedRunTime_le_rounded {R S : Type} {tl : Timeline ℚ R S}
    (late : tl.offsetOf tl.size ≤ tl.position)
    (rounded : tl.clock.rounded = Clock.secondOf tl.position) :
    tl.signedRunTime ≤ tl.clock.rounded := by
  rw [rounded]
  exact Timeline.signedRunTime_le_secondOf late

/-! ## Transport -/

namespace Deck

variable {T R S K : Type}

/-- A call on a deck has succeeded: it emitted these events, and the timeline that it left is so. -/
def Yields {α : Type} (before : Deck T R S K) (outcome : Except TransportError α × Deck T R S K)
    (emitted : List PlaybackEvent) (holds : Timeline T R S → Prop) : Prop :=
  (∃ a, outcome.1 = .ok a) ∧ before.timeline.Emits outcome.2.timeline emitted ∧
    holds outcome.2.timeline

section Yields

variable {α : Type} {before : Deck T R S K}
  {outcome : Except TransportError α × Deck T R S K} {emitted : List PlaybackEvent}
  {holds holds' : Timeline T R S → Prop}

theorem Yields.mono (yields : before.Yields outcome emitted holds)
    (weaker : ∀ tl, holds tl → holds' tl) : before.Yields outcome emitted holds' :=
  ⟨yields.1, yields.2.1, weaker _ yields.2.2⟩

end Yields

section

variable [Scalar T] {deck : Deck T R S K} {index : Nat}

/-- While a timeline plays, its clock moves by all of a tick. -/
theorem ticked_playsAt (plays : deck.timeline.PlaysAt index) (delta : T) :
    (deck.ticked delta).timeline.PlaysAt index ∧
      (deck.ticked delta).timeline.position = deck.timeline.position + delta ∧
      (deck.ticked delta).timeline.clock.rounded =
        Clock.secondOf (deck.timeline.position + delta) := by
  obtain ⟨measures, absolute, rounded⟩ := plays.measures.tick_eq delta
  exact ⟨⟨plays.playing, plays.within, plays.cursor, plays.sounds, measures⟩, absolute, rounded⟩

/-- The segment that plays has run for its length when the next is to begin. -/
theorem goesOn_iff [ExactClock T] (plays : deck.timeline.PlaysAt index) {time : ℚ}
    (position : deck.timeline.position = ExactClock.ofRat time) :
    deck.timeline.GoesOn index ↔ time < deck.timeline.offsetOf (index + 1) := by
  obtain ⟨entry, found⟩ : ∃ entry, deck.timeline.entries[index]? = some entry :=
    ⟨_, List.getElem?_eq_getElem plays.within⟩
  rw [Timeline.position] at position
  rw [Timeline.GoesOn, plays.measures.elapsedTime, Timeline.offsetOf_succ found,
    Timeline.segmentAt?, found]
  simp only [Option.map_some, Option.getD_some]
  rw [position, ExactClock.ofNat, ExactClock.ofNat, ExactClock.sub, ExactClock.lt_iff]
  push_cast
  exact sub_lt_iff_lt_add'

end

section

variable {deck : Deck ℚ R S K} {index : Nat}

theorem elapsed_lt_iff (plays : deck.timeline.PlaysAt index) :
    deck.timeline.clock.elapsedTime <
        Scalar.ofNat (((deck.timeline.segmentAt? index).map Segment.runTime).getD 0) ↔
      deck.timeline.position < deck.timeline.offsetOf (index + 1) :=
  goesOn_iff plays rfl

theorem not_goesOn (plays : deck.timeline.PlaysAt index)
    (late : deck.timeline.offsetOf (index + 1) ≤ deck.timeline.position) :
    ¬deck.timeline.GoesOn index :=
  mt (goesOn_iff plays rfl).mp (not_lt.mpr late)

end

variable [Arithmetic R] [Scalar S] [Narrowing R S] [FrameSink K S]
variable {deck : Deck T R S K} {index : Nat} {handle : Handle}

theorem startAt_eq {between : Deck T R S K} {entry : Handle × Segment R S}
    (silent : Timeline.Sounds between.timeline.entries none)
    (found : between.timeline.entries[index]? = some entry) :
    perform (startAt index) between = (.ok (), between.begun index entry) := by
  have idle : entry.2.playing = false := by simpa using silent index _ found
  rw [perform_startAt, found]
  simp [idle]

theorem filled_atRest (deck : Deck T R S K) (rest : deck.timeline.AtRest) :
    (filled deck).2.timeline.AtRest := by
  refine ⟨?_, ?_, filled_sounds rest.silent, ?_⟩
  · rw [filled_playing, rest.stopped]
  · rw [filled_cursor, rest.cursor]
  · rw [filled_clock, rest.untracked]

variable [Scalar T]

/-- When a deck has come to silence, and its clock measures from the beginning of a segment,
starting that segment makes it play. -/
theorem startAt_yields (between : Deck T R S K) {emitted : List PlaybackEvent}
    (emits : deck.timeline.Emits between.timeline emitted)
    (silent : Timeline.Sounds between.timeline.entries none)
    (playing : between.timeline.playing = true)
    (measures : between.timeline.clock.Measures (Scalar.ofNat (deck.timeline.offsetOf index)))
    (named : deck.timeline.handleAt? index = some handle) :
    deck.Yields (perform (startAt index) between) (emitted ++ [.segmentStarted index handle])
      fun after => after.PlaysAt index ∧ after.position = between.timeline.position := by
  rw [← Timeline.handleAt?_of_outline emits.outline] at named
  obtain ⟨segment, found⟩ := Timeline.entry_of_handleAt? named
  have emits' := emits.trans (begun_emits found)
  rw [startAt_eq silent found]
  refine ⟨⟨(), rfl⟩, emits', ⟨playing, ?_, rfl, ?_, ?_⟩, rfl⟩
  · rw [Timeline.size_of_outline (begun_emits found).outline]
    exact (List.getElem?_eq_some_iff.mp found).1
  · exact silent.set_playing (Segment.started_playing _ _)
  · rw [Timeline.offsetOf_of_outline emits'.outline]
    exact measures

theorem silenced_eq {entry : Handle × Segment R S} (plays : deck.timeline.PlaysAt index)
    (found : deck.timeline.entries[index]? = some entry) :
    deck.silenced = deck.ended index entry := by
  have sounding : entry.2.playing = true := (plays.sounds index _ found).mpr rfl
  have active : deck.timeline.active? = some (index, entry) :=
    Timeline.active?_eq_some_iff.mpr ⟨plays.cursor, found, sounding⟩
  rw [silenced, active]

/-- Stopping the segment that a timeline plays makes it silent. -/
theorem silenced_yields (plays : deck.timeline.PlaysAt index)
    (named : deck.timeline.handleAt? index = some handle) :
    deck.timeline.Emits deck.silenced.timeline [.segmentStopped index handle] ∧
      Timeline.Sounds deck.silenced.timeline.entries none := by
  obtain ⟨segment, found⟩ := Timeline.entry_of_handleAt? named
  rw [silenced_eq plays found]
  exact ⟨ended_emits found, plays.sounds.set_idle (Segment.stopped_playing _ _)⟩

theorem start_eq (stopped : deck.timeline.playing = false)
    (named : deck.timeline.handleAt? 0 = some handle) :
    perform start deck = perform (startAt 0) { deck with timeline := deck.timeline.rewound } := by
  obtain ⟨segment, found⟩ := Timeline.entry_of_handleAt? named
  have some : deck.timeline.entries ≠ [] := by
    intro none
    simp [none] at found
  rw [perform_start, if_neg some, if_neg (by simp [stopped])]

/-- A timeline that does not play and is silent plays its first segment when it is started, from
the time zero. -/
theorem start_yields (deck : Deck T R S K) (stopped : deck.timeline.playing = false)
    (silent : Timeline.Sounds deck.timeline.entries none)
    (named : deck.timeline.handleAt? 0 = some handle) :
    deck.Yields (perform start deck) [.segmentStarted 0 handle] fun after =>
      after.PlaysAt 0 ∧ after.position = Scalar.ofNat 0 := by
  rw [start_eq stopped named]
  have emits : deck.timeline.Emits deck.timeline.rewound [] := ⟨rfl, rfl⟩
  exact startAt_yields ⟨deck.timeline.rewound, deck.sink⟩ emits silent rfl
    (Clock.tracked_measures rfl _) named

theorem seekTo_eq (plays : deck.timeline.PlaysAt index) {target : Nat}
    (within : target < deck.timeline.size) :
    perform (seekTo target) deck = perform (startAt target) { deck.silenced with
      timeline := deck.silenced.timeline.jumped target
        (Scalar.ofNat (deck.timeline.offsetOf target)) } := by
  rw [perform_seekTo, if_neg (by simp [plays.playing]), if_neg (Nat.not_le.mpr within)]
  exact if_neg (by simp [plays.measures.unpaused])

/-- A jump from the segment that plays leads to the beginning of another, or of the same. -/
theorem seekTo_yields (plays : deck.timeline.PlaysAt index)
    (named : deck.timeline.handleAt? index = some handle) {target : Nat} {handle' : Handle}
    (named' : deck.timeline.handleAt? target = some handle') :
    deck.Yields (perform (seekTo target) deck)
      [.segmentStopped index handle, .sought target, .segmentStarted target handle'] fun after =>
      after.PlaysAt target ∧ after.position = Scalar.ofNat (deck.timeline.offsetOf target) := by
  obtain ⟨emits, silent⟩ := silenced_yields plays named
  have unpaused := plays.measures.unpaused
  rw [seekTo_eq plays (Timeline.lt_size_of_handleAt? named')]
  let landed : Timeline T R S :=
    deck.silenced.timeline.jumped target (Scalar.ofNat (deck.timeline.offsetOf target))
  have emits' : deck.timeline.Emits landed [.segmentStopped index handle, .sought target] :=
    emits.trans ⟨rfl, rfl⟩
  have playing : landed.playing = true := (silenced_playing deck).trans plays.playing
  have measures : landed.clock.Measures (Scalar.ofNat (deck.timeline.offsetOf target)) :=
    Clock.tracked_measures (by simp [unpaused]) _
  have position : landed.position = Scalar.ofNat (deck.timeline.offsetOf target) := by
    simp [Timeline.position, landed, Timeline.jumped]
  have yields := startAt_yields ⟨landed, deck.silenced.sink⟩ emits' silent playing measures named'
  exact yields.mono fun _ h => ⟨h.1, h.2.trans position⟩

theorem stop_eq (plays : deck.timeline.PlaysAt index) {interrupted : Bool}
    (reached : interrupted = true ∨ deck.timeline.signedRunTime ≤ deck.timeline.clock.rounded) :
    perform (stop interrupted) deck =
      (.ok (), ⟨deck.silenced.timeline.halted interrupted, deck.silenced.sink⟩) := by
  have granted : ¬(interrupted = false ∧
      deck.timeline.clock.rounded < deck.timeline.signedRunTime) := by
    rintro ⟨rfl, early⟩
    obtain wanted | late := reached
    · cases wanted
    · omega
  rw [perform_stop, if_neg (by simp [plays.playing]), if_neg granted]

/-- A stop that the clock does not refuse leads from the segment that plays to rest. -/
theorem stop_yields (plays : deck.timeline.PlaysAt index)
    (named : deck.timeline.handleAt? index = some handle) {interrupted : Bool}
    (reached : interrupted = true ∨ deck.timeline.signedRunTime ≤ deck.timeline.clock.rounded) :
    deck.Yields (perform (stop interrupted) deck)
      [.segmentStopped index handle, .playbackFinished interrupted] Timeline.AtRest := by
  obtain ⟨emits, silent⟩ := silenced_yields plays named
  rw [stop_eq plays reached]
  exact ⟨⟨(), rfl⟩, emits.trans ⟨rfl, rfl⟩, rfl, rfl, silent, Clock.halted_tracking _⟩

theorem filled_playsAt {now : T} (deck : Deck T R S K)
    (holds : deck.timeline.PlaysAt index ∧ deck.timeline.position = now) :
    (filled deck).2.timeline.PlaysAt index ∧ (filled deck).2.timeline.position = now := by
  obtain ⟨plays, position⟩ := holds
  have outline := (filled_emits deck).outline
  refine ⟨⟨?_, ?_, ?_, filled_sounds plays.sounds, ?_⟩, ?_⟩
  · rw [filled_playing, plays.playing]
  · rw [Timeline.size_of_outline outline]
    exact plays.within
  · rw [filled_cursor, plays.cursor]
  · rw [filled_clock, Timeline.offsetOf_of_outline outline]
    exact plays.measures
  · rw [Timeline.position, filled_clock]
    exact position

/-- What the schedule makes of a deck whose clock has moved, a tick makes of the deck. -/
theorem tick_yields {delta : T} {emitted : List PlaybackEvent} {holds : Timeline T R S → Prop}
    (playing : deck.timeline.playing = true)
    (yields : (deck.ticked delta).Yields (perform step (deck.ticked delta)) emitted holds)
    (filling : ∀ after : Deck T R S K, holds after.timeline → holds (filled after).2.timeline) :
    deck.Yields ((Call.tick delta).on deck) emitted holds := by
  obtain ⟨⟨_, performed⟩, emits, h⟩ := yields
  rw [Call.on_tick, if_pos playing]
  rcases outcome : perform step (deck.ticked delta) with ⟨_ | _, after⟩
  · simp [outcome] at performed
  · rw [outcome] at emits h
    have emits' := emits.trans (filled_emits after)
    rw [List.append_nil] at emits'
    exact ⟨⟨(), rfl⟩, ⟨emits'.outline, emits'.events⟩, filling after h⟩

/-- At rest a tick moves nothing but the clock. -/
theorem tick_atRest (rest : deck.timeline.AtRest) (delta : T) :
    deck.Yields ((Call.tick delta).on deck) [] Timeline.AtRest := by
  rw [Call.on_tick, if_neg (by simp [rest.stopped])]
  refine ⟨⟨(), rfl⟩, ⟨rfl, rfl⟩, rest.stopped, rest.cursor, rest.silent, ?_⟩
  exact (Clock.tick_tracking _ _).trans rest.untracked

/-! ### Steps -/

theorem step_goesOn_eq (plays : deck.timeline.PlaysAt index)
    (goesOn : deck.timeline.GoesOn index) : perform step deck = (.ok (), deck) := by
  rw [perform_step, plays.cursor]
  exact if_pos goesOn

theorem step_over_eq (plays : deck.timeline.PlaysAt index) (ran : ¬deck.timeline.GoesOn index)
    (next : index + 1 < deck.timeline.size) :
    perform step deck = perform (startAt (index + 1)) { deck.silenced with
      timeline := deck.silenced.timeline.passed
        (Scalar.ofNat (deck.timeline.offsetOf (index + 1))) } := by
  unfold Timeline.GoesOn at ran
  rw [perform_step, plays.cursor]
  simp only [if_neg ran, if_pos next]
  exact if_neg (by simp [plays.measures.unpaused])

/-- A segment that has been played for its length gives way to the next. -/
theorem step_over (plays : deck.timeline.PlaysAt index) (ran : ¬deck.timeline.GoesOn index)
    (named : deck.timeline.handleAt? index = some handle) {handle' : Handle}
    (named' : deck.timeline.handleAt? (index + 1) = some handle') :
    deck.Yields (perform step deck)
      [.segmentStopped index handle, .segmentStarted (index + 1) handle'] fun after =>
      after.PlaysAt (index + 1) ∧ after.position = deck.timeline.position := by
  obtain ⟨emits, silent⟩ := silenced_yields plays named
  have unpaused := plays.measures.unpaused
  rw [step_over_eq plays ran (Timeline.lt_size_of_handleAt? named')]
  let passed := deck.silenced.timeline.passed (Scalar.ofNat (deck.timeline.offsetOf (index + 1)))
  have emits' : deck.timeline.Emits passed [.segmentStopped index handle] :=
    emits.trans ⟨rfl, rfl⟩
  have playing : passed.playing = true := (silenced_playing deck).trans plays.playing
  have measures : passed.clock.Measures (Scalar.ofNat (deck.timeline.offsetOf (index + 1))) :=
    Clock.tracked_measures (by simp [unpaused]) _
  have position : passed.position = deck.timeline.position := by
    simp [Timeline.position, passed, Timeline.passed]
  have yields := startAt_yields ⟨passed, deck.silenced.sink⟩ emits' silent playing measures named'
  exact yields.mono fun _ h => ⟨h.1, h.2.trans position⟩

theorem step_last_eq (plays : deck.timeline.PlaysAt index) (ran : ¬deck.timeline.GoesOn index)
    (reached : deck.timeline.signedRunTime ≤ deck.timeline.clock.rounded)
    (last : deck.timeline.size = index + 1) :
    perform step deck =
      (.ok (), ⟨{ deck.silenced.timeline with cursor := .finished }.halted false,
        deck.silenced.sink⟩) := by
  obtain ⟨handle, named⟩ := Timeline.exists_handleAt? plays.within
  obtain ⟨emits, -⟩ := silenced_yields plays named
  let between : Deck T R S K := { deck.silenced with
    timeline := { deck.silenced.timeline with cursor := .finished } }
  unfold Timeline.GoesOn at ran
  have performed : perform step deck = perform (stop false) between := by
    rw [perform_step, plays.cursor]
    simp only [if_neg ran, last, lt_self_iff_false, if_false, between]
  have granted : ¬between.timeline.clock.rounded < between.timeline.signedRunTime := by
    have outline : between.timeline.outline = deck.timeline.outline := emits.outline
    have clock : between.timeline.clock = deck.timeline.clock := silenced_clock deck
    rw [clock, Timeline.signedRunTime_of_outline outline, not_lt]
    exact reached
  have playing : between.timeline.playing = true := (silenced_playing deck).trans plays.playing
  have same : between.silenced = between := rfl
  rw [performed, perform_stop, if_neg (by simp [playing]), if_neg fun early => granted early.2,
    same]

/-- When the last segment has been played for its length, playing ends, if the clock has come to the
end of the timeline. -/
theorem step_last (plays : deck.timeline.PlaysAt index) (ran : ¬deck.timeline.GoesOn index)
    (reached : deck.timeline.signedRunTime ≤ deck.timeline.clock.rounded)
    (named : deck.timeline.handleAt? index = some handle)
    (last : deck.timeline.size = index + 1) :
    deck.Yields (perform step deck)
      [.segmentStopped index handle, .playbackFinished false] Timeline.AtRest := by
  obtain ⟨emits, silent⟩ := silenced_yields plays named
  rw [step_last_eq plays ran reached last]
  exact ⟨⟨(), rfl⟩, emits.trans ⟨rfl, rfl⟩, rfl, rfl, silent, Clock.halted_tracking _⟩

/-! ### Ticks -/

variable {delta : T}

theorem tick_goesOn (plays : deck.timeline.PlaysAt index)
    (goesOn : (deck.ticked delta).timeline.GoesOn index) :
    deck.Yields ((Call.tick delta).on deck) [] fun after =>
      after.PlaysAt index ∧ after.position = deck.timeline.position + delta := by
  obtain ⟨plays', position, -⟩ := ticked_playsAt plays delta
  refine tick_yields plays.playing ?_ filled_playsAt
  rw [step_goesOn_eq plays' goesOn]
  exact ⟨⟨(), rfl⟩, .refl _, plays', position⟩

theorem tick_over (plays : deck.timeline.PlaysAt index)
    (ran : ¬(deck.ticked delta).timeline.GoesOn index)
    (named : deck.timeline.handleAt? index = some handle) {handle' : Handle}
    (named' : deck.timeline.handleAt? (index + 1) = some handle') :
    deck.Yields ((Call.tick delta).on deck)
      [.segmentStopped index handle, .segmentStarted (index + 1) handle'] fun after =>
      after.PlaysAt (index + 1) ∧ after.position = deck.timeline.position + delta := by
  obtain ⟨plays', position, -⟩ := ticked_playsAt plays delta
  rw [← position]
  exact tick_yields plays.playing (step_over plays' ran named named') filled_playsAt

theorem tick_last (plays : deck.timeline.PlaysAt index)
    (ran : ¬(deck.ticked delta).timeline.GoesOn index)
    (reached : deck.timeline.signedRunTime ≤ Clock.secondOf (deck.timeline.position + delta))
    (named : deck.timeline.handleAt? index = some handle)
    (last : deck.timeline.size = index + 1) :
    deck.Yields ((Call.tick delta).on deck)
      [.segmentStopped index handle, .playbackFinished false] Timeline.AtRest := by
  obtain ⟨plays', -, rounded⟩ := ticked_playsAt plays delta
  rw [← rounded] at reached
  exact tick_yields plays.playing (step_last plays' ran reached named last) filled_atRest

/-! ### Where a tick leads -/

variable {entry next : Handle × Segment R S}

theorem tick_eq {after : Deck T R S K} (plays : deck.timeline.PlaysAt index)
    (performed : perform step (deck.ticked delta) = (.ok (), after)) :
    (Call.tick delta).on deck = (.ok (), (filled after).2) := by
  rw [Call.on_tick, if_pos plays.playing, performed]

theorem tick_goesOn_eq (plays : deck.timeline.PlaysAt index)
    (goesOn : (deck.ticked delta).timeline.GoesOn index) :
    (Call.tick delta).on deck = (.ok (), (filled (deck.ticked delta)).2) :=
  tick_eq plays (step_goesOn_eq (ticked_playsAt plays delta).1 goesOn)

/-- The deck after a tick on which the segment that plays has given way to the next. -/
def crossed (deck : Deck T R S K) (delta : T) (index : Nat) (entry next : Handle × Segment R S) :
    Deck T R S K :=
  let ended := (deck.ticked delta).ended index entry
  let origin : T := Scalar.ofNat (deck.timeline.offsetOf (index + 1))
  begun { ended with timeline := ended.timeline.passed origin } (index + 1) next

theorem tick_over_eq (plays : deck.timeline.PlaysAt index)
    (ran : ¬(deck.ticked delta).timeline.GoesOn index)
    (found : deck.timeline.entries[index]? = some entry)
    (found' : deck.timeline.entries[index + 1]? = some next) :
    (Call.tick delta).on deck = (.ok (), (filled (deck.crossed delta index entry next)).2) := by
  obtain ⟨ticked, -, -⟩ := ticked_playsAt plays delta
  have silenced := silenced_eq ticked found
  have within : index + 1 < (deck.ticked delta).timeline.size :=
    (List.getElem?_eq_some_iff.mp found').1
  obtain ⟨handle, named⟩ := Timeline.exists_handleAt? ticked.within
  let passed : Deck T R S K := { (deck.ticked delta).silenced with
    timeline := (deck.ticked delta).silenced.timeline.passed
      (Scalar.ofNat (deck.timeline.offsetOf (index + 1))) }
  have silent : Timeline.Sounds passed.timeline.entries none := (silenced_yields ticked named).2
  have waiting : passed.timeline.entries[index + 1]? = some next := by
    show (deck.ticked delta).silenced.timeline.entries[index + 1]? = _
    rw [silenced]
    exact (List.getElem?_set_ne (Nat.ne_of_lt index.lt_succ_self)).trans found'
  have crossed : passed.begun (index + 1) next = deck.crossed delta index entry next := by
    simp only [passed, silenced]
    rfl
  have performed := step_over_eq ticked ran within
  exact tick_eq plays (crossed ▸ performed.trans (startAt_eq silent waiting))

theorem tick_last_eq (plays : deck.timeline.PlaysAt index)
    (ran : ¬(deck.ticked delta).timeline.GoesOn index)
    (reached : deck.timeline.signedRunTime ≤ Clock.secondOf (deck.timeline.position + delta))
    (found : deck.timeline.entries[index]? = some entry)
    (last : deck.timeline.size = index + 1) :
    let ended := (deck.ticked delta).ended index entry
    (Call.tick delta).on deck =
      (.ok (), ⟨{ ended.timeline with cursor := .finished }.halted false, ended.sink⟩) := by
  obtain ⟨ticked, -, rounded⟩ := ticked_playsAt plays delta
  have performed := step_last_eq ticked ran (rounded ▸ reached) last
  rw [silenced_eq ticked found] at performed
  exact (tick_eq plays performed).trans (congrArg (Except.ok (), ·) (filled_of_notStarted rfl))

/-! ### In exact time -/

/-- A tick of an exact length is granted. The segment goes on, gives way to the next one, or was the
last. -/
theorem tick_onTime [ExactClock T] (onTime : deck.timeline.OnTime) (delta : ℚ) :
    (∃ a, ((Call.tick (ExactClock.ofRat delta)).on deck).1 = .ok a) ∧
      ((Call.tick (ExactClock.ofRat delta)).on deck).2.timeline.OnTime := by
  obtain rest | ⟨index, plays, time, position⟩ := onTime
  · obtain ⟨granted, -, rest⟩ := tick_atRest rest (ExactClock.ofRat delta)
    exact ⟨granted, .inl rest⟩
  · have moved : deck.timeline.position + ExactClock.ofRat delta =
        ExactClock.ofRat (time + delta) := by
      rw [position, ExactClock.add]
    obtain ⟨ticked, position', -⟩ := ticked_playsAt plays (ExactClock.ofRat delta)
    obtain ⟨handle, named⟩ := Timeline.exists_handleAt? plays.within
    by_cases goesOn : (deck.ticked (ExactClock.ofRat delta)).timeline.GoesOn index
    · obtain ⟨granted, -, plays, here⟩ := tick_goesOn plays goesOn
      exact ⟨granted, .inr ⟨index, plays, _, here.trans moved⟩⟩
    · by_cases next : index + 1 < deck.timeline.size
      · obtain ⟨handle', named'⟩ := Timeline.exists_handleAt? next
        obtain ⟨granted, -, plays, here⟩ := tick_over plays goesOn named named'
        exact ⟨granted, .inr ⟨index + 1, plays, _, here.trans moved⟩⟩
      · have last : deck.timeline.size = index + 1 := by
          have within := plays.within
          omega
        have late : deck.timeline.offsetOf (index + 1) ≤ time + delta :=
          not_lt.mp (mt (goesOn_iff ticked (position'.trans moved)).mpr goesOn)
        have reached : deck.timeline.signedRunTime ≤
            Clock.secondOf (deck.timeline.position + ExactClock.ofRat delta) := by
          rw [moved, ExactClock.secondOf]
          exact Timeline.signedRunTime_le_secondOf (last ▸ late)
        obtain ⟨granted, -, rest⟩ := tick_last plays goesOn reached named last
        exact ⟨granted, .inl rest⟩

section Exact

variable {deck : Deck ℚ R S K}

variable {delta : ℚ}

theorem tick_within_eq (plays : deck.timeline.PlaysAt index)
    (early : deck.timeline.position + delta < deck.timeline.offsetOf (index + 1)) :
    (Call.tick delta).on deck = (.ok (), (filled (deck.ticked delta)).2) := by
  obtain ⟨plays', position, -⟩ := ticked_playsAt plays delta
  exact tick_goesOn_eq plays ((goesOn_iff plays' position).mpr early)

theorem tick_across_eq (plays : deck.timeline.PlaysAt index)
    (late : deck.timeline.offsetOf (index + 1) ≤ deck.timeline.position + delta)
    (found : deck.timeline.entries[index]? = some entry)
    (found' : deck.timeline.entries[index + 1]? = some next) :
    (Call.tick delta).on deck = (.ok (), (filled (deck.crossed delta index entry next)).2) := by
  obtain ⟨plays', position, -⟩ := ticked_playsAt plays delta
  exact tick_over_eq plays (not_goesOn plays' (position ▸ late)) found found'

theorem tick_past_eq (plays : deck.timeline.PlaysAt index)
    (late : deck.timeline.offsetOf (index + 1) ≤ deck.timeline.position + delta)
    (found : deck.timeline.entries[index]? = some entry)
    (last : deck.timeline.size = index + 1) :
    let ended := (deck.ticked delta).ended index entry
    (Call.tick delta).on deck =
      (.ok (), ⟨{ ended.timeline with cursor := .finished }.halted false, ended.sink⟩) := by
  obtain ⟨plays', position, -⟩ := ticked_playsAt plays delta
  have reached := Timeline.signedRunTime_le_secondOf (last ▸ late)
  exact tick_last_eq plays (not_goesOn plays' (position ▸ late)) reached found last

theorem tick_within (plays : deck.timeline.PlaysAt index)
    (early : deck.timeline.position + delta < deck.timeline.offsetOf (index + 1)) :
    deck.Yields ((Call.tick delta).on deck) [] fun after =>
      after.PlaysAt index ∧ after.position = deck.timeline.position + delta := by
  obtain ⟨plays', position, -⟩ := ticked_playsAt plays delta
  exact tick_goesOn plays ((goesOn_iff plays' position).mpr early)

theorem tick_across (plays : deck.timeline.PlaysAt index)
    (late : deck.timeline.offsetOf (index + 1) ≤ deck.timeline.position + delta)
    (named : deck.timeline.handleAt? index = some handle) {handle' : Handle}
    (named' : deck.timeline.handleAt? (index + 1) = some handle') :
    deck.Yields ((Call.tick delta).on deck)
      [.segmentStopped index handle, .segmentStarted (index + 1) handle'] fun after =>
      after.PlaysAt (index + 1) ∧ after.position = deck.timeline.position + delta := by
  obtain ⟨plays', position, -⟩ := ticked_playsAt plays delta
  exact tick_over plays (not_goesOn plays' (position ▸ late)) named named'

theorem tick_past (plays : deck.timeline.PlaysAt index)
    (late : deck.timeline.offsetOf (index + 1) ≤ deck.timeline.position + delta)
    (named : deck.timeline.handleAt? index = some handle)
    (last : deck.timeline.size = index + 1) :
    deck.Yields ((Call.tick delta).on deck)
      [.segmentStopped index handle, .playbackFinished false] Timeline.AtRest := by
  obtain ⟨plays', position, -⟩ := ticked_playsAt plays delta
  have reached := Timeline.signedRunTime_le_secondOf (last ▸ late)
  exact tick_last plays (not_goesOn plays' (position ▸ late)) reached named last

end Exact

end Deck

/-! ## Every timeline that is reached -/

variable {R S K : Type}

/-- A timeline is at rest, or it plays one segment. -/
def Timeline.Coherent (tl : Timeline ℚ R S) : Prop := tl.AtRest ∨ ∃ index, tl.PlaysAt index

theorem Timeline.onTime_iff_coherent {tl : Timeline ℚ R S} : tl.OnTime ↔ tl.Coherent := by
  constructor
  · rintro (rest | ⟨index, plays, -⟩)
    · exact .inl rest
    · exact .inr ⟨index, plays⟩
  · rintro (rest | ⟨index, plays⟩)
    · exact .inl rest
    · exact .inr ⟨index, plays, tl.position, rfl⟩

variable [Arithmetic R] [Scalar S] [Narrowing R S] [FrameSink K S]

namespace Deck

variable {deck : Deck ℚ R S K}

theorem start_coherent (coherent : deck.timeline.Coherent) :
    (perform start deck).2.timeline.Coherent := by
  by_cases empty : deck.timeline.entries = []
  · rw [perform_start, if_pos empty]
    exact coherent
  · obtain rest | ⟨index, plays⟩ := coherent
    · obtain ⟨handle, named⟩ := Timeline.exists_handleAt? (List.length_pos_iff.mpr empty)
      obtain ⟨-, -, plays, -⟩ := start_yields deck rest.stopped rest.silent named
      exact .inr ⟨0, plays⟩
    · rw [perform_start, if_neg empty, if_pos plays.playing]
      exact .inr ⟨index, plays⟩

theorem stop_coherent (coherent : deck.timeline.Coherent) (interrupted : Bool) :
    (perform (stop interrupted) deck).2.timeline.Coherent := by
  obtain rest | ⟨index, plays⟩ := coherent
  · rw [perform_stop, if_pos rest.stopped]
    exact .inl rest
  · by_cases early : interrupted = false ∧
        deck.timeline.clock.rounded < deck.timeline.signedRunTime
    · rw [perform_stop, if_neg (by simp [plays.playing]), if_pos early]
      exact .inr ⟨index, plays⟩
    · obtain ⟨handle, named⟩ := Timeline.exists_handleAt? plays.within
      have reached : interrupted = true ∨
          deck.timeline.signedRunTime ≤ deck.timeline.clock.rounded := by
        cases interrupted with
        | true => exact .inl rfl
        | false => exact .inr (not_lt.mp fun before => early ⟨rfl, before⟩)
      obtain ⟨-, -, rest⟩ := stop_yields plays named reached
      exact .inl rest

theorem seekTo_coherent (coherent : deck.timeline.Coherent) (target : Nat) :
    (perform (seekTo target) deck).2.timeline.Coherent := by
  obtain rest | ⟨index, plays⟩ := coherent
  · rw [perform_seekTo, if_pos rest.stopped]
    exact .inl rest
  · by_cases beyond : deck.timeline.size ≤ target
    · rw [perform_seekTo, if_neg (by simp [plays.playing]), if_pos beyond]
      exact .inr ⟨index, plays⟩
    · obtain ⟨handle, named⟩ := Timeline.exists_handleAt? plays.within
      obtain ⟨handle', named'⟩ := Timeline.exists_handleAt? (not_le.mp beyond)
      obtain ⟨-, -, plays, -⟩ := seekTo_yields plays named named'
      exact .inr ⟨target, plays⟩

theorem seekForward_coherent (coherent : deck.timeline.Coherent) :
    (perform seekForward deck).2.timeline.Coherent := by
  obtain ⟨e, refused⟩ | ⟨index, jumps⟩ := seekForward_cases deck
  · rw [refused]
    exact coherent
  · rw [jumps]
    exact seekTo_coherent coherent index

theorem seekBackward_coherent (coherent : deck.timeline.Coherent) :
    (perform seekBackward deck).2.timeline.Coherent := by
  obtain ⟨e, refused⟩ | ⟨index, jumps⟩ := seekBackward_cases deck
  · rw [refused]
    exact coherent
  · rw [jumps]
    exact seekTo_coherent coherent index

theorem tick_coherent (coherent : deck.timeline.Coherent) (delta : ℚ) :
    ((Call.tick delta).on deck).2.timeline.Coherent :=
  Timeline.onTime_iff_coherent.mp
    (tick_onTime (Timeline.onTime_iff_coherent.mpr coherent) delta).2

end Deck

theorem Call.on_coherent {deck : Deck ℚ R S K} (coherent : deck.timeline.Coherent)
    {call : Call ℚ R S} (idle : call.InsertsIdle) : (call.on deck).2.timeline.Coherent := by
  cases call with
  | edit change =>
      rw [on_edit]
      cases applied : change.apply deck.timeline with
      | error e => exact coherent
      | ok after =>
          obtain rest | ⟨index, plays⟩ := coherent
          · exact .inl (Edit.apply_atRest rest idle applied)
          · rw [Edit.apply_of_playing plays.playing] at applied
            cases applied
  | start => exact Deck.start_coherent coherent
  | stop interrupted => exact Deck.stop_coherent coherent interrupted
  | seekForward => exact Deck.seekForward_coherent coherent
  | seekBackward => exact Deck.seekBackward_coherent coherent
  | seekTo index => exact Deck.seekTo_coherent coherent index
  | tick delta => exact Deck.tick_coherent coherent delta
  | takeEvents count =>
      obtain rest | ⟨index, plays⟩ := coherent
      · exact .inl (rest.takeEvents count)
      · exact .inr ⟨index, plays.takeEvents count⟩

/-- **Coherence.** A timeline that was reached without bringing in a playing segment is at rest when
it does not play. When it plays, the cursor is at a segment, that segment alone sounds, and the
clock measures from where it begins. -/
theorem Timeline.Reached.coherent {tl : Timeline ℚ R S} (reached : tl.Reached Call.InsertsIdle) :
    (tl.playing = false → tl.AtRest) ∧ (tl.playing = true → ∃ index, tl.PlaysAt index) := by
  have coherent : tl.Coherent := by
    induction reached with
    | empty => exact .inl empty_atRest
    | call call sink _ idle ih => exact Call.on_coherent ih idle
  obtain rest | ⟨index, plays⟩ := coherent
  · refine ⟨fun _ => rest, fun playing => ?_⟩
    rw [rest.stopped] at playing
    cases playing
  · refine ⟨fun stopped => ?_, fun _ => ⟨index, plays⟩⟩
    rw [plays.playing] at stopped
    cases stopped

/-- A timeline of two seconds. -/
def Timeline.twoSeconds : Timeline ℚ Float Float32 := .ofSegment .twoSeconds

theorem Timeline.twoSeconds_silent : Sounds twoSeconds.entries none :=
  sounds_none_iff.mpr (by simp [twoSeconds, ofSegment, Segment.twoSeconds])

theorem Timeline.coherent_started :
    ∃ tl : Timeline ℚ Float Float32, tl.Reached Call.InsertsIdle ∧ tl.playing = true ∧
      ∃ index, tl.PlaysAt index := by
  have ring : Ring Float32 := .ofCapacity 100 100
  have pushed : twoSeconds.Reached Call.InsertsIdle := ofSegment_reached rfl
  have reached := pushed.call .start ring True.intro
  obtain ⟨-, -, plays, -⟩ := Deck.start_yields ⟨twoSeconds, ring⟩ rfl twoSeconds_silent rfl
  rw [← Call.on_start] at plays
  exact ⟨_, reached, plays.playing, reached.coherent.2 plays.playing⟩

end Tonegraph
