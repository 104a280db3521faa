import Tonegraph.Proofs.Arithmetic.Exact
import Tonegraph.Proofs.Content
import Tonegraph.Proofs.Deck.Refusal
import Tonegraph.Proofs.Deck.Turns
/-!
# Playing again leaves no trace

A timeline that has been played, stopped and edited plays like one that is built anew of the same
pieces. What playing leaves behind is the phase and the count of each segment, the time and the
origin of the clock, and whether the clock is paused; a start sets all of it anew before the first
frame.

* `Timeline.Poised` -- nothing sounds but the segment at the cursor. This holds of every timeline
  reached without bringing in a playing segment, so all segments of a stopped one are idle.
* `Timeline.InStep` -- two timelines go on alike from the beginning and have one clock. Every turn
  leads from there to there, and a start leads there from any clocks.
* `Timeline.Reached.replay_agrees` -- the result. It holds of any arithmetic, rounding or not.

Only a timeline without segments keeps something: a start is refused there before it sets the clock,
so the position stays where the last playing left it.
-/

set_option autoImplicit false

namespace Tonegraph

variable {T R S K K₁ K₂ : Type}

/-! ## Timelines that go on alike -/

namespace Timeline

variable {a b : Timeline T R S}

/-- Two timelines that go on alike from the beginning and have one clock. -/
structure InStep (a b : Timeline T R S) : Prop where
  parallel : a.Parallel 0 b
  clock : a.clock = b.clock

theorem InStep.drained (inStep : a.InStep b) : a.drain.2.InStep b.drain.2 :=
  ⟨inStep.parallel.drained, inStep.clock⟩

/-- Two timelines without segments that do not play. Their clocks may differ. -/
structure Vacant (a b : Timeline T R S) : Prop where
  parallel : a.Parallel 0 b
  stopped : b.playing = false
  empty : b.entries = []

theorem Vacant.drained (vacant : a.Vacant b) : a.drain.2.Vacant b.drain.2 :=
  ⟨vacant.parallel.drained, vacant.stopped, vacant.empty⟩

end Timeline

/-! ## Nothing sounds but the segment at the cursor -/

/-- The segment at the cursor plays, if the cursor is at one, and no other. -/
def Timeline.Poised (tl : Timeline T R S) : Prop := Timeline.Sounds tl.entries tl.currentIndex?

namespace Timeline

theorem Poised.silent {tl : Timeline T R S} (poised : tl.Poised)
    (cursor : tl.cursor = .notStarted) : Sounds tl.entries none := by
  rw [Poised, currentIndex?, cursor] at poised
  exact poised

theorem currentIndex?_eq_some {tl : Timeline T R S} {index : Nat}
    (at? : tl.currentIndex? = some index) : tl.cursor = .segment index := by
  unfold currentIndex? at at?
  split at at?
  · rename_i cursor
    cases at?
    exact cursor
  · cases at?

end Timeline

variable [Arithmetic R] [Scalar S] [Narrowing R S]

namespace Deck

variable [FrameSink K S] {deck : Deck T R S K}

theorem silenced_silent (poised : deck.timeline.Poised) :
    Timeline.Sounds deck.silenced.timeline.entries none := by
  unfold silenced
  split
  · rename_i inactive
    intro place entry found
    suffices idle : ¬entry.2.playing = true by simpa using idle
    intro playing
    have cursor := Timeline.currentIndex?_eq_some ((poised place entry found).mp playing)
    rw [Timeline.active?_eq_some_iff.mpr ⟨cursor, found, playing⟩] at inactive
    cases inactive
  · rename_i index entry active
    obtain ⟨cursor, found, -⟩ := Timeline.active?_eq_some_iff.mp active
    rw [Timeline.Poised, Timeline.currentIndex?, cursor] at poised
    exact poised.set_idle (Segment.stopped_playing _ _)

theorem startAt_poised (deck : Deck T R S K) (silent : Timeline.Sounds deck.timeline.entries none)
    {index : Nat} (within : index < deck.timeline.size ∨ deck.timeline.currentIndex? = none) :
    (perform (startAt index) deck).2.timeline.Poised := by
  rw [perform_startAt]
  split
  · rename_i beyond
    have elsewhere : deck.timeline.currentIndex? = none :=
      within.resolve_left (Nat.not_lt.mpr (List.getElem?_eq_none_iff.mp beyond))
    rw [Timeline.Poised, elsewhere]
    exact silent
  · rename_i entry found
    have idle : entry.2.playing = false := by simpa using silent index entry found
    rw [if_neg (by simp [idle])]
    exact silent.set_playing (Segment.started_playing _ _)

theorem filled_poised (poised : deck.timeline.Poised) : (filled deck).2.timeline.Poised := by
  rw [Timeline.Poised, Timeline.currentIndex?, filled_cursor]
  exact filled_sounds poised

end Deck

variable [Scalar T]

namespace Deck

variable [FrameSink K S] {deck : Deck T R S K}

theorem stop_poised (poised : deck.timeline.Poised) (interrupted : Bool) :
    (perform (stop interrupted) deck).2.timeline.Poised := by
  rw [perform_stop]
  split
  · exact poised
  · split
    · exact poised
    · exact silenced_silent poised

theorem seekTo_poised (settled : deck.timeline.Settled) (poised : deck.timeline.Poised)
    (index : Nat) : (perform (seekTo index) deck).2.timeline.Poised := by
  cases playing : deck.timeline.playing with
  | false =>
      rw [perform_seekTo, if_pos playing]
      exact poised
  | true =>
      have unpaused := settled.unpaused playing
      rw [perform_seekTo, if_neg (by simp [playing])]
      split
      · exact poised
      · rename_i within
        rw [if_neg (by simp [unpaused])]
        have silent := silenced_silent poised
        have within' : index < deck.silenced.timeline.size := by
          rw [silenced_size]
          exact Nat.not_le.mp within
        exact startAt_poised ⟨deck.silenced.timeline.jumped index _, deck.silenced.sink⟩ silent
          (.inl within')

theorem seekForward_poised (settled : deck.timeline.Settled) (poised : deck.timeline.Poised) :
    (perform seekForward deck).2.timeline.Poised := by
  obtain ⟨e, refused⟩ | ⟨index, jumps⟩ := seekForward_cases deck
  · rw [refused]
    exact poised
  · rw [jumps]
    exact seekTo_poised settled poised index

theorem seekBackward_poised (settled : deck.timeline.Settled) (poised : deck.timeline.Poised) :
    (perform seekBackward deck).2.timeline.Poised := by
  obtain ⟨e, refused⟩ | ⟨index, jumps⟩ := seekBackward_cases deck
  · rw [refused]
    exact poised
  · rw [jumps]
    exact seekTo_poised settled poised index

theorem start_poised (settled : deck.timeline.Settled) (poised : deck.timeline.Poised) :
    (perform start deck).2.timeline.Poised := by
  rw [perform_start]
  split
  · exact poised
  · split
    · exact poised
    · rename_i idle
      have silent := poised.silent (settled.notStarted (Bool.not_eq_true _ ▸ idle))
      exact startAt_poised ⟨deck.timeline.rewound, deck.sink⟩ silent (.inr rfl)

theorem step_poised (settled : deck.timeline.Settled) (poised : deck.timeline.Poised)
    (playing : deck.timeline.playing = true) : (perform step deck).2.timeline.Poised := by
  have unpaused := settled.unpaused playing
  have silent := silenced_silent poised
  rw [perform_step]
  split
  · exact stop_poised poised _
  · rename_i cursor
    rw [if_neg (by simp [unpaused])]
    refine startAt_poised ⟨deck.timeline.passed _, deck.sink⟩ (poised.silent cursor) (.inr ?_)
    show deck.timeline.currentIndex? = none
    rw [Timeline.currentIndex?, cursor]
  · rename_i index cursor
    dsimp only
    split
    · exact poised
    · split
      · rename_i next
        rw [if_neg (by simp [unpaused])]
        have within : index + 1 < deck.silenced.timeline.size := by
          rw [silenced_size]
          exact next
        exact startAt_poised ⟨deck.silenced.timeline.passed _, deck.silenced.sink⟩ silent
          (.inl within)
      · let finished : Deck T R S K :=
          ⟨{ deck.silenced.timeline with cursor := .finished }, deck.silenced.sink⟩
        have poised' : finished.timeline.Poised := silent
        exact stop_poised poised' false

theorem tick_poised (settled : deck.timeline.Settled) (poised : deck.timeline.Poised) (delta : T) :
    ((Call.tick delta).on deck).2.timeline.Poised := by
  have ticked : (deck.ticked delta).timeline.Poised := poised
  rw [Call.on_tick]
  split
  · rename_i playing
    have settled' : (deck.ticked delta).timeline.Settled :=
      ⟨fun playing => (Clock.tick_paused _ _).trans (settled.unpaused playing), settled.notStarted,
        settled.bounded⟩
    have stepped := step_poised settled' ticked playing
    split
    · rename_i after performed
      rw [performed] at stepped
      exact filled_poised stepped
    · rename_i e after performed
      rw [performed] at stepped
      exact stepped
  · exact ticked

end Deck

theorem Call.on_poised [FrameSink K S] {deck : Deck T R S K} (settled : deck.timeline.Settled)
    (poised : deck.timeline.Poised) {call : Call T R S} (idle : call.InsertsIdle) :
    (call.on deck).2.timeline.Poised := by
  cases call with
  | edit change =>
      rw [on_edit]
      cases applied : change.apply deck.timeline with
      | error e => exact poised
      | ok after =>
          cases playing : deck.timeline.playing with
          | true =>
              rw [Edit.apply_of_playing playing] at applied
              cases applied
          | false =>
              have cursor := settled.notStarted playing
              have silent := Timeline.sounds_none_iff.mp (poised.silent cursor)
              obtain ⟨entries, issued, idle', rfl | rfl⟩ :=
                Edit.apply_of_stopped playing silent idle
                  (fun windowed _ => Segment.setWindow_playing windowed) applied
              · show Timeline.Sounds entries deck.timeline.currentIndex?
                rw [Timeline.currentIndex?, cursor]
                exact Timeline.sounds_none_iff.mpr idle'
              · exact Timeline.sounds_none_iff.mpr idle'
  | start => exact Deck.start_poised settled poised
  | stop interrupted => exact Deck.stop_poised poised interrupted
  | seekForward => exact Deck.seekForward_poised settled poised
  | seekBackward => exact Deck.seekBackward_poised settled poised
  | seekTo index => exact Deck.seekTo_poised settled poised index
  | tick delta => exact Deck.tick_poised settled poised delta
  | takeEvents count => exact poised

/-- Whatever the arithmetic, nothing sounds but the segment at the cursor. -/
theorem Timeline.Reached.poised {tl : Timeline T R S} (reached : tl.Reached Call.InsertsIdle) :
    tl.Poised := by
  induction reached with
  | empty => exact sounds_none_iff.mpr fun _ member => absurd member List.not_mem_nil
  | call call sink before idle ih => exact Call.on_poised before.settled ih idle

/-- All segments of a timeline that does not play are idle. -/
theorem Timeline.Reached.idle {tl : Timeline T R S} (reached : tl.Reached Call.InsertsIdle)
    (stopped : tl.playing = false) : ∀ e ∈ tl.entries, e.2.playing = false :=
  sounds_none_iff.mp (reached.poised.silent (reached.settled.notStarted stopped))

/-! ## In step -/

namespace Deck

variable [FrameSink K₁ S] [FrameSink K₂ S] {related : K₁ → K₂ → Prop}
variable (matching : FrameSink.Matching related) {a : Deck T R S K₁} {b : Deck T R S K₂}

section

variable (parallel : a.timeline.Parallel 0 b.timeline) (sinks : related a.sink b.sink)

include matching parallel sinks

/-- A start that is not refused brings any clocks in step. -/
theorem rewound_together :
    Together related Eq 0 a b (perform (startAt 0) ⟨a.timeline.rewound, a.sink⟩)
      (perform (startAt 0) ⟨b.timeline.rewound, b.sink⟩) := by
  refine .after ⟨a.timeline.rewound, a.sink⟩ ⟨b.timeline.rewound, b.sink⟩
    ⟨[], [], ⟨rfl, rfl⟩, ⟨rfl, rfl⟩, .nil⟩ ?_
  have parallel' : a.timeline.rewound.Parallel 0 b.timeline.rewound := ⟨rfl, rfl, parallel.entries⟩
  have sameNumber : 0 = 0 ∨ 0 < b.timeline.rewound.size := .inl rfl
  simpa using startAt_together (a := ⟨a.timeline.rewound, a.sink⟩)
    (b := ⟨b.timeline.rewound, b.sink⟩) matching parallel' sinks rfl sameNumber

end

variable (inStep : a.timeline.InStep b.timeline) (sinks : related a.sink b.sink)

include matching inStep sinks

theorem start_inStep : Together related Eq 0 a b (perform start a) (perform start b) := by
  obtain ⟨parallel, clock⟩ := inStep
  rw [perform_start, perform_start]
  simp only [parallel.entries_eq_nil, parallel.playing]
  split
  · exact .same parallel clock sinks _
  · split
    · exact .same parallel clock sinks _
    · exact rewound_together matching parallel sinks

theorem stop_inStep (interrupted : Bool) :
    Together related Eq 0 a b (perform (stop interrupted) a) (perform (stop interrupted) b) := by
  obtain ⟨parallel, clock⟩ := inStep
  refine stop_together matching parallel sinks clock (congrArg _ clock) fun _ => ?_
  rw [clock, parallel.signedRunTime_eq]

theorem seekTo_inStep (index : Nat) :
    Together related Eq 0 a b (perform (seekTo index) a) (perform (seekTo index) b) := by
  obtain ⟨parallel, clock⟩ := inStep
  have silenced := silenced_together matching parallel sinks clock
  rw [perform_seekTo, perform_seekTo]
  simp only [parallel.playing, parallel.size_eq, parallel.offsetOf_eq, clock]
  split
  · exact .same parallel clock sinks _
  · split
    · exact .same parallel clock sinks _
    · split
      · refine ⟨rfl, ⟨silenced.parallel.playing, silenced.parallel.cursor,
          silenced.parallel.entries⟩, rfl, silenced.sinks, silenced.told.trans ?_⟩
        exact ⟨[], [], ⟨rfl, rfl⟩, ⟨rfl, rfl⟩, .nil⟩
      · let origin : T := Scalar.ofNat (b.timeline.offsetOf index)
        let left : Deck T R S K₁ := ⟨a.silenced.timeline.jumped index origin, a.silenced.sink⟩
        let right : Deck T R S K₂ := ⟨b.silenced.timeline.jumped index origin, b.silenced.sink⟩
        have sought : Timeline.Tallies 0 a.silenced.timeline b.silenced.timeline (.sought index)
            (.sought index) := by
          have sought : Timeline.Tallies 0 a.silenced.timeline b.silenced.timeline
              (.sought (0 + index)) (.sought index) := .sought index
          rwa [Nat.zero_add] at sought
        refine .after left right (silenced.told.trans
          ⟨[.sought index], [.sought index], ⟨rfl, rfl⟩, ⟨rfl, rfl⟩, .cons sought .nil⟩) ?_
        have parallel' : left.timeline.Parallel 0 right.timeline :=
          ⟨silenced.parallel.playing, silenced.parallel.cursor, silenced.parallel.entries⟩
        have clock' : left.timeline.clock = right.timeline.clock :=
          congrArg (fun c => (c.seek origin).tracked origin) silenced.clocks
        have sameNumber : 0 = 0 ∨ index < right.timeline.size := .inl rfl
        simpa using startAt_together matching parallel' silenced.sinks clock' sameNumber

theorem seekForward_inStep :
    Together related Eq 0 a b (perform seekForward a) (perform seekForward b) := by
  have parallel := inStep.parallel
  have clock := inStep.clock
  rw [perform_seekForward, perform_seekForward]
  rw [parallel.playing, parallel.cursor, parallel.size_eq]
  split
  · exact .same parallel clock sinks _
  · cases b.timeline.cursor with
    | segment index =>
        simp only [Cursor.later, Nat.zero_add]
        split
        · exact seekTo_inStep matching inStep sinks (index + 1)
        · exact .same parallel clock sinks _
    | _ => exact .same parallel clock sinks _

theorem seekBackward_inStep :
    Together related Eq 0 a b (perform seekBackward a) (perform seekBackward b) := by
  have parallel := inStep.parallel
  have clock := inStep.clock
  rw [perform_seekBackward, perform_seekBackward]
  rw [parallel.playing, parallel.cursor]
  split
  · exact .same parallel clock sinks _
  · cases b.timeline.cursor with
    | segment index =>
        simp only [Cursor.later, Nat.zero_add]
        cases index with
        | zero => exact .same parallel clock sinks _
        | succ index => exact seekTo_inStep matching inStep sinks index
    | _ => exact .same parallel clock sinks _

theorem step_inStep : Together related Eq 0 a b (perform step a) (perform step b) := by
  obtain ⟨parallel, clock⟩ := inStep
  refine step_together matching parallel sinks clock (by rw [clock]) (by rw [clock])
    (fun index => ?_) (congrArg _ clock) (fun _ => rfl) fun _ => ?_
  · rw [clock, Nat.zero_add, parallel.offsetOf_eq]
  · rw [clock, parallel.signedRunTime_eq]

theorem tick_inStep (delta : T) :
    Together related Eq 0 a b (perform (tick delta) a) (perform (tick delta) b) := by
  have clock : (a.ticked delta).timeline.clock = (b.ticked delta).timeline.clock :=
    congrArg (fun c => (c.tick delta).2) inStep.clock
  have ticked : (a.ticked delta).timeline.InStep (b.ticked delta).timeline :=
    ⟨⟨inStep.parallel.playing, inStep.parallel.cursor, inStep.parallel.entries⟩, clock⟩
  exact tick_together matching inStep.parallel sinks clock fun _ =>
    step_inStep matching ticked sinks

end Deck

/-! ## Turns -/

namespace Turn

/-- Timelines in step stay in step. -/
theorem leads_inStep (turn : Turn T) :
    turn.Leads 0 (Timeline.InStep (T := T) (R := R) (S := S)) Timeline.InStep := by
  intro K₁ K₂ _ _ related matching a b inStep sinks
  suffices together : Deck.Together related Eq 0 a b (turn.on a) (turn.on b) from
    ⟨Eq, together, together.parallel, together.clocks⟩
  have matching' := matching.toMatching
  cases turn with
  | start => exact (Deck.start_inStep matching' inStep sinks).returning 0
  | stop interrupted => exact (Deck.stop_inStep matching' inStep sinks interrupted).returning 0
  | seekForward => exact (Deck.seekForward_inStep matching' inStep sinks).returning 0
  | seekBackward => exact (Deck.seekBackward_inStep matching' inStep sinks).returning 0
  | seekTo index => exact (Deck.seekTo_inStep matching' inStep sinks index).returning 0
  | tick delta => exact Deck.tick_inStep matching' inStep sinks delta
  | consume count =>
      rw [on_consume, on_consume]
      exact ⟨rfl, inStep.parallel, inStep.clock, matching.consume count sinks, .refl⟩

/-- A start that is not refused brings timelines in step that go on alike. -/
theorem start_leads :
    Turn.start.Leads 0
      (fun a b : Timeline T R S => a.Parallel 0 b ∧ b.playing = false ∧ b.entries ≠ [])
      Timeline.InStep := by
  rintro K₁ K₂ _ _ related matching a b ⟨parallel, stopped, nonempty⟩ sinks
  have nonempty' : a.timeline.entries ≠ [] := mt parallel.entries_eq_nil.mp nonempty
  have stopped' : a.timeline.playing = false := parallel.playing.trans stopped
  have together : Deck.Together related Eq 0 a b (Turn.start.on a) (Turn.start.on b) := by
    refine Deck.Together.returning ?_ 0
    rw [Deck.perform_start, Deck.perform_start, if_neg nonempty, if_neg nonempty',
      if_neg (by simp [stopped']), if_neg (by simp [stopped])]
    exact Deck.rewound_together matching.toMatching parallel sinks
  exact ⟨Eq, together, together.parallel, together.clocks⟩

end Turn

/-- Where there are no segments and nothing plays, the calls of the transport are refused, each for
a cause of its own. -/
theorem Turn.refused_of_bare (turn : Turn T) :
    (∃ delta, turn = .tick delta) ∨ (∃ count, turn = .consume count) ∨
      ∃ e, ∀ {K : Type} [BufferedSink K S] (deck : Deck T R S K), deck.timeline.playing = false →
        deck.timeline.entries = [] → turn.on deck = (.error e, deck) := by
  cases turn with
  | tick delta => exact .inl ⟨delta, rfl⟩
  | consume count => exact .inr (.inl ⟨count, rfl⟩)
  | start =>
      refine .inr (.inr ⟨.empty, fun deck _ bare => ?_⟩)
      rw [on_eq, run, Deck.perform_bind, Deck.perform_start, if_pos bare]
  | stop interrupted =>
      refine .inr (.inr ⟨.notPlaying, fun deck stopped _ => ?_⟩)
      rw [on_eq, run, Deck.perform_bind, Deck.perform_stop, if_pos stopped]
  | seekForward =>
      refine .inr (.inr ⟨.notPlaying, fun deck stopped _ => ?_⟩)
      rw [on_eq, run, Deck.perform_bind, Deck.perform_seekForward, if_pos stopped]
  | seekBackward =>
      refine .inr (.inr ⟨.notPlaying, fun deck stopped _ => ?_⟩)
      rw [on_eq, run, Deck.perform_bind, Deck.perform_seekBackward, if_pos stopped]
  | seekTo index =>
      refine .inr (.inr ⟨.notPlaying, fun deck stopped _ => ?_⟩)
      rw [on_eq, run, Deck.perform_bind, Deck.perform_seekTo, if_pos stopped]

/-- Two timelines without segments stay alike: the transport is refused, and a tick moves the clock
and nothing else. -/
theorem Turn.leads_vacant (turn : Turn T) :
    turn.Leads 0 (Timeline.Vacant (T := T) (R := R) (S := S)) Timeline.Vacant := by
  intro K₁ K₂ _ _ related matching a b vacant sinks
  have parallel := vacant.parallel
  have stopped : a.timeline.playing = false := parallel.playing.trans vacant.stopped
  refine ⟨fun _ _ => True, ?_⟩
  obtain ⟨delta, rfl⟩ | ⟨count, rfl⟩ | ⟨e, refused⟩ := turn.refused_of_bare (R := R) (S := S)
  · have ticked : (a.ticked delta).timeline.Parallel 0 (b.ticked delta).timeline :=
      ⟨parallel.playing, parallel.cursor, parallel.entries⟩
    rw [on_tick, on_tick, Deck.perform_tick, Deck.perform_tick, if_neg (by simp [stopped]),
      if_neg (by simp [vacant.stopped])]
    exact ⟨⟨rfl, ticked, trivial, sinks, ⟨[], [], ⟨rfl, rfl⟩, ⟨rfl, rfl⟩, .nil⟩⟩,
      ⟨ticked, vacant.stopped, vacant.empty⟩⟩
  · rw [on_consume, on_consume]
    exact ⟨⟨rfl, parallel, trivial, matching.consume count sinks, .refl⟩, vacant⟩
  · rw [refused a stopped (parallel.entries_eq_nil.mpr vacant.empty),
      refused b vacant.stopped vacant.empty]
    exact ⟨.same parallel trivial sinks _, vacant⟩

/-! ## The result -/

/-- **Replay.** Take a timeline that was reached in any way without bringing in a playing segment
and that does not play, and one built anew of its segments. Let all events be taken, and start both
on sinks of one rate, with the same room and as many frames queued. Then every run goes on alike on
both: results, frames, events and whether they play are the same, and unless there are no segments
so are the positions. -/
theorem Timeline.Reached.replay_agrees {tl : Timeline T R S}
    (reached : tl.Reached Call.InsertsIdle) (stopped : tl.playing = false) :
    ∃ fresh, rebuild (tl.entries.map (·.2)) = .ok fresh ∧
      ∀ {K₁ K₂ : Type} [BufferedSink K₁ S] [BufferedSink K₂ S] {a : K₁} {b : K₂},
        BufferedSink.SameRoom a b → ∀ turns : List (Turn T),
          Deck.Agree 0 (fun old new => tl.entries ≠ [] → old = new) ⟨tl.drain.2, a⟩ ⟨fresh, b⟩
            (.start :: turns) := by
  refine ⟨anew (tl.entries.map (·.2)), rebuild_eq _, fun {K₁ K₂ _ _ a b} same turns => ?_⟩
  have gauges : BufferedSink.gauge a = BufferedSink.gauge b := same.gauge_eq
  have parallel : tl.drain.2.Parallel 0 (anew (tl.entries.map (·.2))) :=
    ⟨stopped, reached.settled.notStarted stopped,
      alikeFrom_renewed (Nat.zero_le _) (reached.idle stopped)⟩
  by_cases bare : tl.entries = []
  · have vacant : tl.drain.2.Vacant (anew (tl.entries.map (·.2))) :=
      ⟨parallel, rfl, parallel.entries_eq_nil.mp bare⟩
    exact Deck.agree_of_leads (fun turn _ => turn.leads_vacant) Vacant.drained
      (fun _ nonempty => absurd bare nonempty) vacant gauges
  · have position : ∀ {old new : Timeline T R S}, old.InStep new → tl.entries ≠ [] →
        old.position = new.position := fun inStep _ => congrArg Clock.absolute inStep.clock
    obtain ⟨agrees, inStep, gauges'⟩ := Turn.start_leads.agrees
      (a := ⟨tl.drain.2, a⟩) (b := ⟨anew (tl.entries.map (·.2)), b⟩)
      (fun old new => tl.entries ≠ [] → old = new)
      (fun alike => ⟨alike.1.drained, alike.2⟩) position
      ⟨parallel, rfl, mt parallel.entries_eq_nil.mpr bare⟩ gauges
    exact ⟨agrees, Deck.agree_of_leads (fun turn _ => turn.leads_inStep) InStep.drained position
      inStep gauges'⟩

namespace Timeline

/-- Two seconds, played for half a second, stopped, and perhaps edited. -/
def halfPlayed (edits : List (Edit Float Float32)) : Timeline ℚ Float Float32 :=
  (Deck.after ([.start, .tick (1 / 2), .stop true] ++ edits.map .edit)
    ⟨ofSegment .acrossZero, (Ring.ofCapacity 2 3 : Ring Float32)⟩).timeline

theorem halfPlayed_reached {edits : List (Edit Float Float32)}
    (idle : ∀ edit ∈ edits, edit.Inserts fun segment => segment.playing = false) :
    (halfPlayed edits).Reached Call.InsertsIdle := by
  have pushed : (ofSegment .acrossZero : Timeline ℚ Float Float32).Reached Call.InsertsIdle :=
    ofSegment_reached rfl
  apply Reached.after pushed
  intro call member
  rw [List.mem_append, List.mem_map] at member
  obtain transport | ⟨edit, among, rfl⟩ := member
  · simp only [List.mem_cons, List.not_mem_nil, or_false] at transport
    obtain rfl | rfl | rfl := transport <;> trivial
  · exact idle edit among

/-- A recorder takes from the timeline what a ring takes from one built anew. -/
theorem halfPlayed_replay :
    let tl := halfPlayed []
    let recorder : Recorder Float32 := .ofCapacity 2 3
    let ring : Ring Float32 := .ofCapacity 2 3
    tl.Reached Call.InsertsIdle ∧ tl.playing = false ∧ tl.position = 1 / 2 ∧ tl.entries ≠ [] ∧
      BufferedSink.SameRoom recorder ring ∧
      ∃ fresh, rebuild (tl.entries.map (·.2)) = .ok fresh ∧ fresh.position = 0 ∧
        Deck.Agree 0 (fun old new => tl.entries ≠ [] → old = new) ⟨tl.drain.2, recorder⟩
          ⟨fresh, ring⟩ [.start, .consume 2, .tick (3 / 2), .seekBackward, .tick 1] := by
  intro tl recorder ring
  have reached : tl.Reached Call.InsertsIdle := halfPlayed_reached (by simp)
  have stopped : tl.playing = false := by decide +kernel
  have position : tl.position = 1 / 2 := by decide +kernel
  have nonempty : tl.entries ≠ [] := by
    rw [← List.length_pos_iff]
    decide +kernel
  have same : BufferedSink.SameRoom recorder ring := ⟨rfl, rfl, rfl, by decide, by decide⟩
  clear_value tl
  obtain ⟨fresh, rebuilt, agree⟩ := reached.replay_agrees stopped
  have rewound : fresh.position = 0 := by
    rw [rebuild_eq] at rebuilt
    cases rebuilt
    rfl
  exact ⟨reached, stopped, position, nonempty, same, fresh, rebuilt, rewound, agree same _⟩

/-- A timeline that has lost its segments keeps its position through a start that is refused. And
where there is the same room but another number of frames queued, the device makes unequal room by
playing one frame. -/
theorem replay_differs :
    (∃ tl fresh : Timeline ℚ Float Float32, ∃ ring : Ring Float32,
      tl.Reached Call.InsertsIdle ∧ tl.playing = false ∧
        rebuild (tl.entries.map (·.2)) = .ok fresh ∧
        ¬Deck.Agree 0 Eq ⟨tl.drain.2, ring⟩ ⟨fresh, ring⟩ [.start]) ∧
    (∃ tl fresh : Timeline ℚ Float Float32, ∃ a b : Ring Float32,
      tl.Reached Call.InsertsIdle ∧ tl.playing = false ∧
        rebuild (tl.entries.map (·.2)) = .ok fresh ∧
        FrameSink.rate a = FrameSink.rate b ∧ FrameSink.available a = FrameSink.available b ∧
        ¬Deck.Agree 0 (fun _ _ => True) ⟨tl.drain.2, a⟩ ⟨fresh, b⟩
          [.start, .consume 1, .tick 0]) := by
  constructor
  · let tl := halfPlayed [.remove ⟨0⟩]
    let fresh : Timeline ℚ Float Float32 := anew (tl.entries.map (·.2))
    let ring : Ring Float32 := .ofCapacity 2 3
    have reached : tl.Reached Call.InsertsIdle := halfPlayed_reached (by simp [Edit.Inserts])
    refine ⟨tl, fresh, ring, reached, by decide +kernel, rebuild_eq _, ?_⟩
    intro agree
    have old : (Turn.start.on ⟨tl.drain.2, ring⟩).2.timeline.position = 1 / 2 := by decide +kernel
    have new : (Turn.start.on ⟨fresh, ring⟩).2.timeline.position = 0 := by decide +kernel
    have same := agree.1.position
    rw [old, new] at same
    norm_num at same
  · let tl := halfPlayed []
    let fresh : Timeline ℚ Float Float32 := anew (tl.entries.map (·.2))
    let a : Ring Float32 := (Ring.ofCapacity 1 2).push .silence
    let b : Ring Float32 := .ofCapacity 1 1
    refine ⟨tl, fresh, a, b, halfPlayed_reached (by simp), by decide +kernel, rebuild_eq _, rfl,
      rfl, ?_⟩
    intro agree
    -- One frame was queued in the first ring and none in the second; there was room for one.
    have same := agree.2.2.1.result
    have more : (Turn.on (.tick 0) (Turn.on (.consume 1)
        (Turn.start.on ⟨tl.drain.2, a⟩).2).2).1 = .ok 2 := by decide +kernel
    have fewer : (Turn.on (.tick 0) (Turn.on (.consume 1)
        (Turn.start.on ⟨fresh, b⟩).2).2).1 = .ok 1 := by decide +kernel
    rw [more, fewer] at same
    cases same

end Timeline

end Tonegraph
