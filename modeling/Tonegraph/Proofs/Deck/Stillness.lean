import Tonegraph.Proofs.Clock.History
import Tonegraph.Proofs.Content
import Tonegraph.Proofs.Deck.Calls
/-!
# Ticks while nothing plays

Only the clock takes part in a tick while nothing plays, and the clock stands still when it is
paused. A timeline pauses its clock whenever it ends playing (`Call.on_pauses`). A new timeline has
a clock that runs, and a reset brings that clock back; no other call on a timeline that does not
play touches the pause unless playing begins (`Call.on_of_stopped`). So whether time stands still
depends on how the timeline came to its stop, and `Timeline.Past` keeps a record of that: time
stands still exactly if playing has ended since the last reset (`Timeline.Past.paused_iff`).
-/

set_option autoImplicit false

namespace Tonegraph

variable {T R S K : Type} [Arithmetic R] [Scalar S] [Narrowing R S] [FrameSink K S]

/-! ## One call -/

namespace Timeline

/-- A timeline plays, or its clock is paused. -/
def PlaysOrRests (tl : Timeline T R S) : Prop := tl.playing = true ∨ tl.clock.paused = true

end Timeline

theorem Deck.startAt_playing (index : Nat) (deck : Deck T R S K) :
    (perform (startAt index) deck).2.timeline.playing = deck.timeline.playing := by
  rw [perform_startAt]
  split
  · rfl
  · split <;> rfl

variable [Scalar T]

namespace Deck

variable {deck : Deck T R S K}

theorem stop_pauses (deck : Deck T R S K) (playing : deck.timeline.playing = true)
    (interrupted : Bool) :
    (perform (stop interrupted) deck).2.timeline.PlaysOrRests := by
  rw [perform_stop, if_neg (by simp [playing])]
  split
  · exact .inl playing
  · exact .inr (Clock.halted_paused _)

theorem seekTo_playing (index : Nat) (deck : Deck T R S K) :
    (perform (seekTo index) deck).2.timeline.playing = deck.timeline.playing := by
  rw [perform_seekTo]
  split
  · rfl
  · split
    · rfl
    · dsimp only
      split
      · exact silenced_playing deck
      · exact (startAt_playing _ _).trans (silenced_playing deck)

theorem seekForward_playing (deck : Deck T R S K) :
    (perform seekForward deck).2.timeline.playing = deck.timeline.playing := by
  obtain ⟨e, refused⟩ | ⟨index, jumps⟩ := seekForward_cases deck
  · rw [refused]
  · rw [jumps, seekTo_playing]

theorem seekBackward_playing (deck : Deck T R S K) :
    (perform seekBackward deck).2.timeline.playing = deck.timeline.playing := by
  obtain ⟨e, refused⟩ | ⟨index, jumps⟩ := seekBackward_cases deck
  · rw [refused]
  · rw [jumps, seekTo_playing]

theorem step_pauses (deck : Deck T R S K) (playing : deck.timeline.playing = true) :
    (perform step deck).2.timeline.PlaysOrRests := by
  have playing' : deck.silenced.timeline.playing = true := (silenced_playing deck).trans playing
  rw [perform_step]
  split
  · exact stop_pauses deck playing false
  · split
    · exact .inl playing
    · exact .inl ((startAt_playing _ _).trans playing)
  · dsimp only
    split
    · exact .inl playing
    · split
      · split
        · exact .inl playing'
        · exact .inl ((startAt_playing _ _).trans playing')
      · exact stop_pauses ⟨{ deck.silenced.timeline with cursor := .finished }, _⟩ playing' false

theorem tick_pauses (playing : deck.timeline.playing = true) (delta : T) :
    ((Call.tick delta).on deck).2.timeline.PlaysOrRests := by
  have stepped := step_pauses (deck.ticked delta) playing
  rw [Call.on_tick, if_pos playing]
  split
  · rename_i after performed
    rw [performed] at stepped
    rw [Timeline.PlaysOrRests, filled_playing, filled_clock]
    exact stepped
  · rename_i e after performed
    rw [performed] at stepped
    exact stepped

end Deck

namespace Call

/-- The call that takes all segments away and begins anew. -/
def Resets : Call T R S → Prop
  | .edit .reset => True
  | _ => False

variable {deck : Deck T R S K}

/-- Whatever ends playing pauses the clock. -/
theorem on_pauses (playing : deck.timeline.playing = true) (call : Call T R S) :
    (call.on deck).2.timeline.PlaysOrRests := by
  cases call with
  | edit change =>
      rw [on_edit, Edit.apply_of_playing playing]
      exact .inl playing
  | start =>
      rw [on_start, Deck.perform_start, if_pos playing]
      split <;> exact .inl playing
  | stop interrupted => exact Deck.stop_pauses deck playing interrupted
  | seekForward => exact .inl ((Deck.seekForward_playing deck).trans playing)
  | seekBackward => exact .inl ((Deck.seekBackward_playing deck).trans playing)
  | seekTo index => exact .inl ((Deck.seekTo_playing index deck).trans playing)
  | tick delta => exact Deck.tick_pauses playing delta
  | takeEvents count => exact .inl playing

end Call

omit [Arithmetic R] [Scalar S] [Narrowing R S] in
/-- An edit leaves the clock of a timeline that does not play, unless it is a reset. -/
theorem Edit.apply_clock {tl after : Timeline T R S} {change : Edit R S}
    (stopped : tl.playing = false) (applied : change.apply tl = .ok after) :
    (change = .reset ∧ after.clock = .initial) ∨ (change ≠ .reset ∧ after.clock = tl.clock) := by
  cases change with
  | push segment =>
      rw [apply, Timeline.push_of_stopped stopped] at applied
      cases applied
      exact .inr ⟨by simp, rfl⟩
  | insert index segment =>
      rw [apply, Timeline.insert_of_stopped stopped] at applied
      split at applied
      · cases applied
      · cases applied
        exact .inr ⟨by simp, rfl⟩
  | remove handle =>
      rw [apply, Timeline.remove_of_stopped stopped] at applied
      split at applied
      · cases applied
      · cases applied
        exact .inr ⟨by simp, rfl⟩
  | moveTo handle index =>
      rw [apply, Timeline.moveTo_of_stopped stopped] at applied
      split at applied
      · cases applied
      · split at applied
        · cases applied
        · cases applied
          exact .inr ⟨by simp, rfl⟩
  | setWindow handle start stop =>
      rw [apply, Timeline.setWindow_of_stopped stopped] at applied
      split at applied
      · cases applied
      · split at applied
        · cases applied
        · cases applied
          exact .inr ⟨by simp, rfl⟩
  | reset =>
      rw [apply, Timeline.reset_of_stopped stopped] at applied
      cases applied
      exact .inl ⟨rfl, rfl⟩

namespace Call

variable {deck : Deck T R S K}

/-- A timeline that does not play refuses all calls of the transport but the start of playing. -/
theorem on_eq_refused (stopped : deck.timeline.playing = false) {call : Call T R S}
    (transport : call.IsTransport) (other : call ≠ .start) :
    call.on deck = (.error .notPlaying, deck) := by
  cases call with
  | edit | tick | takeEvents => cases transport
  | start => exact absurd rfl other
  | stop interrupted => exact (Deck.perform_stop interrupted deck).trans (if_pos stopped)
  | seekForward => exact (Deck.perform_seekForward deck).trans (if_pos stopped)
  | seekBackward => exact (Deck.perform_seekBackward deck).trans (if_pos stopped)
  | seekTo index => exact (Deck.perform_seekTo index deck).trans (if_pos stopped)

/-- On a timeline that does not play, a call begins playing, is a reset, after which the clock runs,
or leaves the clock paused or running as it was. -/
theorem on_of_stopped (stopped : deck.timeline.playing = false) (call : Call T R S) :
    (call.on deck).2.timeline.playing = true ∨
      (call.Resets ∧ (call.on deck).2.timeline.clock.paused = false) ∨
      (¬call.Resets ∧ (call.on deck).2.timeline.clock.paused = deck.timeline.clock.paused) := by
  cases call with
  | edit change =>
      rw [on_edit]
      cases applied : change.apply deck.timeline with
      | error e =>
          refine .inr (.inr ⟨?_, rfl⟩)
          cases change with
          | reset =>
              rw [Edit.apply, Timeline.reset_of_stopped stopped] at applied
              cases applied
          | _ => exact id
      | ok after =>
          rcases Edit.apply_clock stopped applied with ⟨rfl, clock⟩ | ⟨other, clock⟩
          · exact .inr (.inl ⟨trivial, congrArg Clock.paused clock⟩)
          · refine .inr (.inr ⟨?_, congrArg Clock.paused clock⟩)
            cases change with
            | reset => exact absurd rfl other
            | _ => exact id
  | start =>
      rw [on_start, Deck.perform_start]
      split
      · exact .inr (.inr ⟨id, rfl⟩)
      · rw [if_neg (by simp [stopped])]
        exact .inl (Deck.startAt_playing _ _)
  | stop | seekForward | seekBackward | seekTo =>
      rw [on_eq_refused stopped (by trivial) (by simp)]
      exact .inr (.inr ⟨id, rfl⟩)
  | tick delta =>
      rw [on_tick, if_neg (by simp [stopped])]
      exact .inr (.inr ⟨id, Clock.tick_paused _ _⟩)
  | takeEvents count => exact .inr (.inr ⟨id, rfl⟩)

end Call

/-! ## How a timeline came to its stop -/

/-- A call, and the timeline before and after it. -/
structure Moment (T R S : Type) where
  call : Call T R S
  before : Timeline T R S
  after : Timeline T R S

namespace Moment

/-- The call has ended playing. -/
def Ends (m : Moment T R S) : Prop := m.before.playing = true ∧ m.after.playing = false

/-- The call was a reset, and not refused. -/
def Resets (m : Moment T R S) : Prop := m.call.Resets ∧ m.before.playing = false

/-- Playing has ended, and there was no reset since. -/
def EndedSinceReset (past : List (Moment T R S)) : Prop :=
  ∃ earlier m later, past = earlier ++ m :: later ∧ m.Ends ∧ ∀ other ∈ later, ¬other.Resets

omit [Scalar T] [Arithmetic R] [Scalar S] [Narrowing R S] in
theorem endedSinceReset_concat {past : List (Moment T R S)} {m : Moment T R S} :
    EndedSinceReset (past ++ [m]) ↔ m.Ends ∨ (EndedSinceReset past ∧ ¬m.Resets) := by
  constructor
  · rintro ⟨earlier, last, later, split, ends, noReset⟩
    rcases List.eq_nil_or_concat later with rfl | ⟨between, newest, rfl⟩
    · obtain ⟨-, same⟩ := List.append_inj' split rfl
      rw [List.cons.injEq] at same
      exact .inl (same.1 ▸ ends)
    · have longer : past ++ [m] = (earlier ++ last :: between) ++ [newest] := by simpa using split
      obtain ⟨past_eq, same⟩ := List.append_inj' longer rfl
      rw [List.concat_eq_append, List.forall_mem_append, List.forall_mem_singleton] at noReset
      rw [List.cons.injEq] at same
      exact .inr ⟨⟨earlier, last, between, past_eq, ends, noReset.1⟩, same.1 ▸ noReset.2⟩
  · rintro (ends | ⟨⟨earlier, last, later, rfl, ends, noReset⟩, noReset'⟩)
    · exact ⟨past, m, [], rfl, ends, List.forall_mem_nil _⟩
    · refine ⟨earlier, last, later ++ [m], by simp, ends, ?_⟩
      rw [List.forall_mem_append, List.forall_mem_singleton]
      exact ⟨noReset, noReset'⟩

end Moment

namespace Timeline

/-- What has happened to a timeline since it was empty: any calls, each with a sink of its own. -/
inductive Past : List (Moment T R S) → Timeline T R S → Prop
  | empty : Past [] .empty
  | call {past : List (Moment T R S)} {tl : Timeline T R S} (call : Call T R S) {K : Type}
      [FrameSink K S] (sink : K) :
      Past past tl →
        Past (past ++ [⟨call, tl, (call.on ⟨tl, sink⟩).2.timeline⟩]) (call.on ⟨tl, sink⟩).2.timeline

/-- Every timeline that calls lead to has a past, and no other has one. -/
theorem reached_iff_past {tl : Timeline T R S} :
    tl.Reached (fun _ => True) ↔ ∃ past, Past past tl := by
  constructor
  · intro reached
    induction reached with
    | empty => exact ⟨[], .empty⟩
    | call call sink _ _ ih =>
        obtain ⟨past, before⟩ := ih
        exact ⟨_, before.call call sink⟩
  · rintro ⟨past, before⟩
    induction before with
    | empty => exact .empty
    | call call sink _ ih => exact ih.call call sink trivial

/-- While nothing plays, the clock is paused exactly if playing has ended since the last reset. -/
theorem Past.paused_iff {past : List (Moment T R S)} {tl : Timeline T R S} (before : Past past tl)
    (stopped : tl.playing = false) :
    tl.clock.paused = true ↔ Moment.EndedSinceReset past := by
  induction before with
  | empty =>
      refine iff_of_false Bool.false_ne_true ?_
      rintro ⟨earlier, m, later, split, -⟩
      simp at split
  | @call past tl call K _ sink _ ih =>
      rw [Moment.endedSinceReset_concat]
      -- The clock is paused by what ends playing, and only a reset undoes that before the next start.
      cases playing : tl.playing with
      | true =>
          refine iff_of_true ?_ (.inl ⟨playing, stopped⟩)
          have pauses : (call.on ⟨tl, sink⟩).2.timeline.PlaysOrRests := call.on_pauses playing
          exact pauses.resolve_left fun plays => by cases stopped.symm.trans plays
      | false =>
          have notEnding : ¬Moment.Ends ⟨call, tl, (call.on ⟨tl, sink⟩).2.timeline⟩ := by
            rintro ⟨plays, -⟩
            cases playing.symm.trans plays
          rw [or_iff_right notEnding]
          rcases call.on_of_stopped (show (⟨tl, sink⟩ : Deck T R S K).timeline.playing = false
            from playing) with plays | ⟨resets, runs⟩ | ⟨noReset, same⟩
          · cases stopped.symm.trans plays
          · refine iff_of_false (by simp [runs]) ?_
            rintro ⟨-, noReset⟩
            exact noReset ⟨resets, playing⟩
          · rw [same, ih playing]
            exact (and_iff_left fun resets => noReset resets.1).symm

/-- **Time while nothing plays.** After any calls, a tick of a timeline that does not play gives no
frames and changes nothing but the clock. If playing has ended since the last reset, the clock
stands still as well, and forgets at most that a second was reached. If not, as on a timeline that
has never played, the position moves by the tick. -/
theorem Past.tick_of_stopped {past : List (Moment T R S)} {tl : Timeline T R S}
    (before : Past past tl) (stopped : tl.playing = false) (sink : K) (delta : T) :
    Deck.perform (Deck.tick delta) ⟨tl, sink⟩ =
        (.ok 0, ⟨{ tl with clock := (tl.clock.tick delta).2 }, sink⟩) ∧
      (Moment.EndedSinceReset past → (tl.clock.tick delta).2 = { tl.clock with changed := false }) ∧
      (¬Moment.EndedSinceReset past →
        (tl.clock.tick delta).2.absolute = tl.position + delta) := by
  rw [← before.paused_iff stopped]
  refine ⟨?_, fun paused => ?_, fun runs => ?_⟩
  · rw [Deck.perform_tick, if_neg (by simp [stopped])]
    rfl
  · rw [Clock.tick, if_pos paused]
  · rw [Clock.tick_of_running (Bool.eq_false_iff.mpr runs), Clock.measured_absolute]
    rfl

/-- Two seconds are started and stopped before their end. A tick after that changes nothing:
the clock had stopped at zero. -/
theorem Past.tick_of_interrupted :
    let idle : Timeline ℚ Float Float32 := .ofSegment .acrossZero
    let ring : Ring Float32 := .ofCapacity 2 3
    let started := (Call.start.on ⟨idle, ring⟩).2.timeline
    let tl := ((Call.stop true).on ⟨started, ring⟩).2.timeline
    let past : List (Moment ℚ Float Float32) :=
      [⟨.edit (.push .acrossZero), .empty, idle⟩, ⟨.start, idle, started⟩,
        ⟨.stop true, started, tl⟩]
    Past past tl ∧ tl.playing = false ∧ Moment.EndedSinceReset past ∧
      ∀ delta, Deck.perform (Deck.tick delta) ⟨tl, ring⟩ = (.ok 0, ⟨tl, ring⟩) := by
  intro idle ring started tl past
  have inserted : Past [⟨.edit (.push .acrossZero), .empty, idle⟩] idle :=
    Past.empty.call (.edit (.push .acrossZero)) ring
  have played : started.playing = true := by decide +kernel
  have stopped : tl.playing = false := by decide +kernel
  have unchanged : tl.clock.changed = false := by decide +kernel
  have begun : Past [⟨.edit (.push .acrossZero), .empty, idle⟩, ⟨.start, idle, started⟩] started :=
    inserted.call .start ring
  clear_value started
  have before : Past past tl := begun.call (.stop true) ring
  clear_value tl
  have ended : Moment.EndedSinceReset past :=
    ⟨past.dropLast, ⟨.stop true, started, tl⟩, [], rfl, ⟨played, stopped⟩, List.forall_mem_nil _⟩
  refine ⟨before, stopped, ended, fun delta => ?_⟩
  obtain ⟨ticked, still, -⟩ := before.tick_of_stopped stopped ring delta
  rw [ticked, still ended, ← unchanged]

/-- The position of an empty timeline that was never played moves, and so does the one of a timeline
that was played, stopped and reset. -/
theorem Past.tick_moves :
    let ring : Ring Float32 := .ofCapacity 2 3
    let idle : Timeline ℚ Float Float32 := .ofSegment .acrossZero
    let started := (Call.start.on ⟨idle, ring⟩).2.timeline
    let stopped := ((Call.stop true).on ⟨started, ring⟩).2.timeline
    let reset := ((Call.edit .reset).on ⟨stopped, ring⟩).2.timeline
    ∀ tl ∈ [Timeline.empty, reset],
      tl.Reached (fun _ => True) ∧ tl.playing = false ∧ tl.position = 0 ∧
        (Deck.perform (Deck.tick (1 / 2)) ⟨tl, ring⟩).1 = .ok 0 ∧
        (Deck.perform (Deck.tick (1 / 2)) ⟨tl, ring⟩).2.timeline.position = 1 / 2 := by
  intro ring idle started stopped reset
  have still : reset.playing = false := by decide +kernel
  have rewound : reset.position = 0 := by decide +kernel
  have granted : (Deck.perform (Deck.tick (1 / 2)) ⟨reset, ring⟩).1 = .ok 0 := by decide +kernel
  have moved : (Deck.perform (Deck.tick (1 / 2)) ⟨reset, ring⟩).2.timeline.position = 1 / 2 := by
    decide +kernel
  have pushed : idle.Reached fun _ => True := ofSegment_reached trivial
  have began : started.Reached fun _ => True := pushed.call .start ring trivial
  have ended : stopped.Reached fun _ => True := began.call (.stop true) ring trivial
  have cleared : reset.Reached fun _ => True := ended.call (.edit .reset) ring trivial
  clear_value reset
  intro tl listed
  rcases List.mem_pair.mp listed with rfl | rfl
  · exact ⟨.empty, rfl, by decide +kernel, by decide +kernel, by decide +kernel⟩
  · exact ⟨cleared, still, rewound, granted, moved⟩

end Timeline

end Tonegraph
