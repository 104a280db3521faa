import Tonegraph.Proofs.Content
import Tonegraph.Proofs.Deck.Coherence
import Tonegraph.Proofs.Deck.Turns
/-!
# A jump is a start on what is left

A jump to a segment leads where a start leads on a timeline of only that segment and those behind
it. What came before shows in nothing but the numbers of the places and in the time, which is later
by the offset of the segment.

* `Clock.Ahead` -- a clock is some time ahead of another and shows the same time elapsed.
* `Timeline.Trails` -- a timeline goes on alike with a shorter one, and its clock is ahead by the
  offset. Ticks, the device playing and an interruption lead from there to there.
* `Timeline.Reached.seek_agrees` -- the result.

Times are exact here. The end is where this is needed: both clocks are asked whether their second
has come to the end of their timeline, and the seconds are not those of one time. That neither is
refused comes from the coherence of both (`Timeline.signedRunTime_le_rounded`).
-/

set_option autoImplicit false

namespace Tonegraph

variable {R S K₁ K₂ : Type}

/-! ## Clocks -/

namespace Clock

/-- A clock is some time ahead of another, and shows the same time elapsed. -/
structure Ahead (lead : ℚ) (c d : Clock ℚ) : Prop where
  absolute : c.absolute = d.absolute + lead
  trackingStart : c.trackingStart = d.trackingStart + lead
  elapsed : c.elapsed = d.elapsed
  paused : c.paused = d.paused
  tracking : c.tracking = d.tracking

variable {lead : ℚ} {c d : Clock ℚ}

theorem Ahead.elapsedTime (ahead : c.Ahead lead d) : c.elapsedTime = d.elapsedTime := by
  rw [Clock.elapsedTime, Clock.elapsedTime, ahead.tracking, ahead.elapsed]

theorem Ahead.tick (ahead : c.Ahead lead d) (delta : ℚ) :
    (c.tick delta).2.Ahead lead (d.tick delta).2 := by
  obtain ⟨absolute, start, elapsed, paused, tracking⟩ := ahead
  simp only [Clock.tick, paused]
  split
  · exact ⟨absolute, start, elapsed, rfl, tracking⟩
  · simp only [measured, tracking]
    split
    · refine ⟨?_, start, ?_, rfl, rfl⟩ <;> simp only [absolute, start] <;> ring
    · refine ⟨?_, start, elapsed, rfl, rfl⟩
      simp only [absolute]
      ring

theorem Ahead.tracked (ahead : c.Ahead lead d) {origin origin' : ℚ}
    (origins : origin = origin' + lead) : (c.tracked origin).Ahead lead (d.tracked origin') := by
  refine ⟨ahead.absolute, origins, ?_, ahead.paused, rfl⟩
  simp only [Clock.tracked, ahead.absolute, origins]
  ring

theorem Ahead.halted (ahead : c.Ahead lead d) : c.halted.Ahead lead d.halted := by
  obtain ⟨absolute, start, elapsed, paused, tracking⟩ := ahead
  simp only [Clock.halted, tracking]
  split
  · exact ⟨absolute, start, rfl, rfl, rfl⟩
  · exact ⟨absolute, start, elapsed, rfl, rfl⟩

/-- A clock that has jumped and measures from where it is, is ahead of one that begins. -/
theorem jumped_ahead (unpaused : c.paused = false) (lead : ℚ) :
    ((c.seek lead).tracked lead).Ahead lead (initial.tracked (Scalar.ofNat 0)) where
  absolute := by simp [initial]
  trackingStart := by simp [Clock.tracked]
  elapsed := by simp [Clock.tracked, initial]
  paused := by simp [initial, unpaused]
  tracking := rfl

end Clock

/-! ## Timelines -/

namespace Timeline

/-- A timeline goes on alike with a shorter one, its clock is ahead by the offset of where that one
begins, and both cohere. -/
structure Trails (first offset : Nat) (a b : Timeline ℚ R S) : Prop where
  parallel : a.Parallel first b
  begins : a.offsetOf first = offset
  clock : a.clock.Ahead offset b.clock
  coherent : a.Coherent
  coherent' : b.Coherent

theorem Coherent.drained {tl : Timeline ℚ R S} (coherent : tl.Coherent) :
    tl.drain.2.Coherent := by
  obtain rest | ⟨index, plays⟩ := coherent
  · exact .inl (rest.takeEvents _)
  · exact .inr ⟨index, plays.takeEvents _⟩

theorem Coherent.plays {tl : Timeline ℚ R S} (coherent : tl.Coherent)
    (playing : tl.playing = true) : ∃ index, tl.PlaysAt index := by
  obtain rest | plays := coherent
  · cases rest.stopped.symm.trans playing
  · exact plays

variable {first offset : Nat} {a b : Timeline ℚ R S}

theorem Trails.drained (trails : a.Trails first offset b) : a.drain.2.Trails first offset b.drain.2 :=
  ⟨trails.parallel.drained, trails.begins, trails.clock, trails.coherent.drained,
    trails.coherent'.drained⟩

theorem Trails.position (trails : a.Trails first offset b) :
    a.position = b.position + offset := trails.clock.absolute

end Timeline

variable [Arithmetic R] [Scalar S] [Narrowing R S]

namespace Deck

variable [FrameSink K₁ S] [FrameSink K₂ S] {related : K₁ → K₂ → Prop}
variable (matching : FrameSink.Matching related)
variable {a : Deck ℚ R S K₁} {b : Deck ℚ R S K₂} {first offset : Nat}
variable (trails : a.timeline.Trails first offset b.timeline) (sinks : related a.sink b.sink)

include matching trails sinks

theorem stop_trails :
    Together related (Clock.Ahead offset) first a b (perform (stop true) a)
      (perform (stop true) b) :=
  stop_together matching trails.parallel sinks trails.clock trails.clock.halted
    fun impossible => by cases impossible

theorem tick_trails (delta : ℚ) :
    Together related (Clock.Ahead offset) first a b (perform (tick delta) a)
      (perform (tick delta) b) := by
  have clocks := trails.clock.tick delta
  refine tick_together matching trails.parallel sinks clocks fun playing => ?_
  obtain ⟨_, plays⟩ := trails.coherent.plays (trails.parallel.playing.trans playing)
  obtain ⟨place, plays'⟩ := trails.coherent'.plays playing
  obtain ⟨-, position, rounded⟩ := ticked_playsAt plays delta
  obtain ⟨ticked, position', rounded'⟩ := ticked_playsAt plays' delta
  have parallel : (a.ticked delta).timeline.Parallel first (b.ticked delta).timeline :=
    ⟨trails.parallel.playing, trails.parallel.cursor, trails.parallel.entries⟩
  have begins : (a.ticked delta).timeline.offsetOf first = offset := trails.begins
  have passes : ∀ index, ((a.ticked delta).timeline.clock.tracked
      (Scalar.ofNat ((a.ticked delta).timeline.offsetOf (first + index)))).Ahead offset
        ((b.ticked delta).timeline.clock.tracked
          (Scalar.ofNat ((b.ticked delta).timeline.offsetOf index))) := by
    intro index
    apply clocks.tracked
    rw [parallel.offsetOf, begins, ofNat_rat, ofNat_rat, Nat.cast_add, add_comm]
  refine step_together matching parallel sinks clocks clocks.elapsedTime clocks.paused passes
    clocks.halted (fun none => ?_) fun ended => ?_
  · cases ticked.cursor.symm.trans none
  · -- The shorter timeline is over, so its time has come to its end, and that of the longer to its.
    have late : (b.ticked delta).timeline.offsetOf (b.ticked delta).timeline.size ≤
        (b.ticked delta).timeline.position := by
      obtain finished | ⟨index, cursor, last, ran⟩ := ended
      · cases ticked.cursor.symm.trans finished
      · cases ticked.cursor.symm.trans cursor
        have end' : (b.ticked delta).timeline.size = place + 1 :=
          le_antisymm last ticked.within
        rw [elapsed_lt_iff ticked, not_lt] at ran
        rw [end']
        exact ran
    have late' : (a.ticked delta).timeline.offsetOf (a.ticked delta).timeline.size ≤
        (a.ticked delta).timeline.position := by
      have ahead : (a.ticked delta).timeline.position =
          (b.ticked delta).timeline.position + offset := clocks.absolute
      rw [parallel.size, parallel.offsetOf, begins, ahead, Nat.cast_add, add_comm]
      exact add_le_add_left late _
    rw [← position'] at rounded'
    rw [← position] at rounded
    exact iff_of_false (not_lt.mpr (Timeline.signedRunTime_le_rounded late' rounded))
      (not_lt.mpr (Timeline.signedRunTime_le_rounded late rounded'))

end Deck

/-! ## Turns -/

namespace Turn

/-- A turn that goes on with what plays, or breaks it off. -/
def Onward {T : Type} : Turn T → Prop
  | .tick _ | .stop true | .consume _ => True
  | _ => False

theorem leads_trails {first offset : Nat} {turn : Turn ℚ} (onward : turn.Onward) :
    turn.Leads first (Timeline.Trails (R := R) (S := S) first offset)
      (Timeline.Trails first offset) := by
  intro K₁ K₂ _ _ related matching a b trails sinks
  suffices together : Deck.Together related (Clock.Ahead offset) first a b (turn.on a) (turn.on b) ∧
      (turn.on a).2.timeline.Coherent ∧ (turn.on b).2.timeline.Coherent by
    obtain ⟨together, coherent, coherent'⟩ := together
    refine ⟨_, together, together.parallel, ?_, together.clocks, coherent, coherent'⟩
    rw [Timeline.offsetOf_of_outline together.told.outline_left]
    exact trails.begins
  have matching' := matching.toMatching
  cases turn with
  | tick delta =>
      refine ⟨Deck.tick_trails matching' trails sinks delta, ?_, ?_⟩
      · rw [on_tick, ← Deck.perform_returning]
        exact Deck.tick_coherent trails.coherent delta
      · rw [on_tick, ← Deck.perform_returning]
        exact Deck.tick_coherent trails.coherent' delta
  | stop interrupted =>
      cases interrupted with
      | false => cases onward
      | true =>
          refine ⟨(Deck.stop_trails matching' trails sinks).returning 0, ?_, ?_⟩
          · rw [on_eq, run, Deck.perform_returning]
            exact Deck.stop_coherent trails.coherent true
          · rw [on_eq, run, Deck.perform_returning]
            exact Deck.stop_coherent trails.coherent' true
  | consume count =>
      rw [on_consume, on_consume]
      exact ⟨⟨rfl, trails.parallel, trails.clock, matching.consume count sinks, .refl⟩,
        trails.coherent, trails.coherent'⟩
  | _ => cases onward

end Turn

/-! ## The jump and the start -/

namespace Timeline

/-- The timeline of the segments from a place on, built anew. -/
def leftFrom (tl : Timeline ℚ R S) (index : Nat) : Timeline ℚ R S :=
  anew ((tl.entries.drop index).map (·.2))

omit [Scalar S] [Narrowing R S] in
theorem leftFrom_coherent (tl : Timeline ℚ R S) (index : Nat) : (tl.leftFrom index).Coherent := by
  refine .inl ⟨rfl, rfl, sounds_none_iff.mpr fun e member => ?_, rfl⟩
  simp only [leftFrom, anew, appended, empty, List.nil_append, List.mem_map] at member
  obtain ⟨⟨segment, place⟩, among, rfl⟩ := member
  obtain ⟨old, -, rfl⟩ := List.mem_map.mp (List.fst_mem_of_mem_zipIdx among)
  rfl

end Timeline

namespace Deck

variable [FrameSink K₁ S] [FrameSink K₂ S]

theorem silenced_leftFrom (deck : Deck ℚ R S K₁) (index : Nat) :
    deck.silenced.timeline.leftFrom index = deck.timeline.leftFrom index := by
  have pieces := Timeline.pieces_of_register deck.silenced_register
  have same := congrArg (List.drop index) pieces
  rw [Timeline.pieces, Timeline.pieces, ← List.map_drop, ← List.map_drop] at same
  simp only [Timeline.leftFrom, Timeline.anew, List.map_map, Function.comp_def, same]

variable {related : K₁ → K₂ → Prop} (matching : FrameSink.Matching related)
variable {tl : Timeline ℚ R S} {place index : Nat} {a : K₁} {b : K₂}

include matching

/-- Once the old segment has been stopped, a jump does to the sink what a start does on the timeline
that is left. -/
theorem seekTo_together (plays : tl.PlaysAt place) (within : index < tl.size)
    (sinks : related (silenced ⟨tl, a⟩).sink b) :
    Together related (Clock.Ahead (tl.offsetOf index)) index
      ⟨(silenced ⟨tl, a⟩).timeline.jumped index (Scalar.ofNat (tl.offsetOf index)),
        (silenced ⟨tl, a⟩).sink⟩
      ⟨(tl.leftFrom index).rewound, b⟩
      (perform (seekTo index) ⟨tl, a⟩) (perform start ⟨tl.leftFrom index, b⟩) := by
  have unpaused := plays.measures.unpaused
  obtain ⟨handle, named⟩ := Timeline.exists_handleAt? plays.within
  have plays' : (⟨tl, a⟩ : Deck ℚ R S K₁).timeline.PlaysAt place := plays
  obtain ⟨-, silent⟩ := silenced_yields plays' named
  have idle := Timeline.sounds_none_iff.mp silent
  have within' : index < (silenced ⟨tl, a⟩).timeline.entries.length := by
    show index < (silenced ⟨tl, a⟩).timeline.size
    rw [silenced_size]
    exact within
  have entries : Timeline.AlikeFrom index (silenced ⟨tl, a⟩).timeline.entries
      (tl.leftFrom index).entries := by
    rw [← silenced_leftFrom ⟨tl, a⟩ index]
    exact Timeline.alikeFrom_renewed within'.le fun e member => idle e (List.mem_of_mem_drop member)
  have left : 0 < (tl.leftFrom index).entries.length := by
    have := entries.length
    omega
  have found' : (tl.leftFrom index).entries[0]? = _ := List.getElem?_eq_getElem left
  obtain ⟨x, found, alike⟩ := entries.getElem? found'
  have idle' : x.2.playing = false := idle x (List.mem_of_getElem? found)
  have sought : perform (seekTo index) ⟨tl, a⟩ = (.ok (), begun
      ⟨(silenced ⟨tl, a⟩).timeline.jumped index (Scalar.ofNat (tl.offsetOf index)),
        (silenced ⟨tl, a⟩).sink⟩ (index + 0) x) := by
    have found'' : ((silenced ⟨tl, a⟩).timeline.jumped index
        (Scalar.ofNat (tl.offsetOf index))).entries[index]? = some x := found
    rw [perform_seekTo, if_neg (by simp [plays.playing]), if_neg (Nat.not_le.mpr within),
      if_neg (by simp [unpaused]), perform_startAt, found'']
    exact if_neg (by simp [idle'])
  have started : perform start ⟨tl.leftFrom index, b⟩ =
      (.ok (), begun ⟨(tl.leftFrom index).rewound, b⟩ 0 (tl.leftFrom index).entries[0]) := by
    have found'' : (tl.leftFrom index).rewound.entries[0]? = _ := found'
    have stopped : ¬(tl.leftFrom index).playing = true := Bool.false_ne_true
    rw [perform_start, if_neg (List.length_pos_iff.mp left), if_neg stopped, perform_startAt,
      found'']
    exact if_neg (by simp [← alike.playing_eq, idle'])
  have clocks : ((silenced ⟨tl, a⟩).timeline.jumped index
      (Scalar.ofNat (tl.offsetOf index))).clock.Ahead (tl.offsetOf index)
        (tl.leftFrom index).rewound.clock := by
    have clock : (silenced ⟨tl, a⟩).timeline.clock.paused = false := by
      rw [silenced_clock]
      exact unpaused
    rw [ofNat_rat]
    exact Clock.jumped_ahead clock _
  rw [sought, started]
  exact begun_together
    (a := ⟨(silenced ⟨tl, a⟩).timeline.jumped index (Scalar.ofNat (tl.offsetOf index)), _⟩)
    (b := ⟨(tl.leftFrom index).rewound, b⟩) matching sinks
    ((silenced_playing _).trans plays.playing) entries clocks found found' alike

end Deck

/-! ## The result -/

variable [BufferedSink K₁ S]

/-- What a tape before a sink hands on when the active segment stops is what the sink would get. -/
theorem Deck.silenced_taped {T : Type} (deck : Deck T R S K₁) :
    deck.taped.silenced.sink.sink = deck.silenced.sink := by
  have together : Together _ (fun _ _ => True) 0 deck.taped deck _ _ :=
    silenced_together BufferedSink.behind_matching.toMatching (.refl deck.timeline) rfl trivial
  exact together.sinks

/-- **Seeking.** Let a timeline play that was reached without bringing in a playing segment, and
build another anew of its segments from some place on. A jump to this place succeeds, and so does a
start of the other timeline, on a sink of the same rate that has the same room and as many frames
queued as the first one has once the old segment has been stopped. The jump pushes what stopping
the old segment does and then what the start does. From there on both go on alike for as long as
there are only ticks, frames played by the device and interruptions: results, frames, events and
whether they play are the same, and the positions differ by the offset of the place. -/
theorem Timeline.Reached.seek_agrees {tl : Timeline ℚ R S} (reached : tl.Reached Call.InsertsIdle)
    (playing : tl.playing = true) {index : Nat} (within : index < tl.size) (a : K₁) :
    ∃ fresh, rebuild ((tl.entries.drop index).map (·.2)) = .ok fresh ∧
      ∀ {K₂ : Type} [BufferedSink K₂ S] (b : K₂),
        BufferedSink.SameRoom (Deck.perform Deck.stopActive ⟨tl, a⟩).2.sink b →
        let sought := (Turn.seekTo index).on ⟨tl, a⟩
        let begun := Turn.start.on ⟨fresh, b⟩
        sought.1 = .ok 0 ∧ begun.1 = .ok 0 ∧
          (Turn.seekTo index).pushed ⟨tl, a⟩ =
            (Deck.perform Deck.stopActive (Deck.taped ⟨tl, a⟩)).2.sink.frames ++
              Turn.start.pushed ⟨fresh, b⟩ ∧
          sought.2.timeline.position = begun.2.timeline.position + tl.offsetOf index ∧
          ∀ turns : List (Turn ℚ), (∀ turn ∈ turns, turn.Onward) →
            Deck.Agree index (fun later earlier : ℚ => later = earlier + tl.offsetOf index)
              sought.2 begun.2 turns := by
  obtain ⟨place, plays⟩ := reached.coherent.2 playing
  obtain ⟨handle, named⟩ := exists_handleAt? plays.within
  obtain ⟨handle', named'⟩ := exists_handleAt? within
  have plays' : (⟨tl, a⟩ : Deck ℚ R S K₁).timeline.PlaysAt place := plays
  obtain ⟨⟨_, succeeds⟩, emits, -⟩ := Deck.seekTo_yields plays' named named'
  refine ⟨tl.leftFrom index, rebuild_eq _, fun {K₂ _} b same => ?_⟩
  rw [Deck.perform_stopActive] at same ⊢
  have gauges := same.gauge_eq
  intro sought begun
  have together : Deck.Together _ (Clock.Ahead (tl.offsetOf index)) index _ _ sought begun :=
    (Deck.seekTo_together BufferedSink.gauge_matching.toMatching plays within gauges).returning 0
  have jumped : sought.1 = .ok 0 := Deck.perform_returning_ok succeeds 0
  have pushed : (Turn.seekTo index).pushed ⟨tl, a⟩ =
      (Deck.taped ⟨tl, a⟩).silenced.sink.frames ++ Turn.start.pushed ⟨tl.leftFrom index, b⟩ := by
    have blank : BufferedSink.gauge (Deck.taped ⟨tl, a⟩).silenced.sink =
        BufferedSink.gauge (Tape.blank b : Tape K₂ S) := by
      show BufferedSink.gauge (Deck.taped ⟨tl, a⟩).silenced.sink.sink = _
      rw [Deck.silenced_taped]
      exact gauges
    have taped := Deck.seekTo_together (BufferedSink.tape_matching _).toMatching plays within
      ⟨blank, (List.append_nil _).symm⟩
    exact (taped.returning 0).sinks.2
  have trails : sought.2.timeline.Trails index (tl.offsetOf index) begun.2.timeline := by
    have after : sought.2 = (Deck.perform (Deck.seekTo index) ⟨tl, a⟩).2 :=
      Deck.perform_returning _ _ _
    have after' : begun.2 = (Deck.perform Deck.start ⟨tl.leftFrom index, b⟩).2 :=
      Deck.perform_returning _ _ _
    refine ⟨together.parallel, ?_, together.clocks, ?_, ?_⟩
    · rw [after]
      exact offsetOf_of_outline emits.outline index
    · rw [after]
      exact Deck.seekTo_coherent (.inr ⟨place, plays⟩) index
    · rw [after']
      exact Deck.start_coherent (tl.leftFrom_coherent index)
  refine ⟨jumped, together.result.symm.trans jumped, pushed, trails.position, ?_⟩
  intro turns onward
  exact Deck.agree_of_leads (fun turn member => Turn.leads_trails (onward turn member))
    Trails.drained Trails.position trails together.sinks

namespace Timeline

/-- Twice two seconds, played for half a second. -/
def twiceAcross : Timeline ℚ Float Float32 :=
  (Deck.after [.edit (.push .acrossZero), .start, .tick (1 / 2)]
    ⟨ofSegment .acrossZero, (Ring.ofCapacity 2 3 : Ring Float32)⟩).timeline

theorem twiceAcross_reached : twiceAcross.Reached Call.InsertsIdle := by
  have pushed : (ofSegment .acrossZero : Timeline ℚ Float Float32).Reached Call.InsertsIdle :=
    ofSegment_reached rfl
  apply Reached.after pushed
  intro call member
  simp only [List.mem_cons, List.not_mem_nil, or_false] at member
  obtain rfl | rfl | rfl := member
  · exact rfl
  · trivial
  · trivial

/-- The second half goes on alone from a ring into a recorder that holds as much, two seconds
earlier. One frame of the ramp that ends the first half is still queued in the ring. -/
theorem twiceAcross_seek :
    let tl := twiceAcross
    let ring : Ring Float32 := .ofCapacity 2 3
    let recorder : Recorder Float32 := (Recorder.ofCapacity 2 3).push .silence
    let turns : List (Turn ℚ) := [.tick (1 / 2), .consume 2, .tick 1, .stop true, .tick 1]
    tl.Reached Call.InsertsIdle ∧ tl.playing = true ∧ 1 < tl.size ∧
      BufferedSink.SameRoom (Deck.perform Deck.stopActive ⟨tl, ring⟩).2.sink recorder ∧
      (∀ turn ∈ turns, turn.Onward) ∧
      ∃ fresh, rebuild ((tl.entries.drop 1).map (·.2)) = .ok fresh ∧
        Deck.Agree 1 (fun later earlier : ℚ => later = earlier + tl.offsetOf 1)
          ((Turn.seekTo 1).on ⟨tl, ring⟩).2 (Turn.start.on ⟨fresh, recorder⟩).2 turns := by
  intro tl ring recorder turns
  have reached : tl.Reached Call.InsertsIdle := twiceAcross_reached
  have playing : tl.playing = true := by decide +kernel
  have within : 1 < tl.size := by decide +kernel
  have same : BufferedSink.SameRoom (Deck.perform Deck.stopActive ⟨tl, ring⟩).2.sink recorder := by
    constructor <;> decide +kernel
  have onward : ∀ turn ∈ turns, turn.Onward := by simp [turns, Turn.Onward]
  clear_value tl
  obtain ⟨fresh, rebuilt, agree⟩ := reached.seek_agrees playing within ring
  exact ⟨reached, playing, within, same, onward, fresh, rebuilt,
    (agree recorder same).2.2.2.2 turns onward⟩

end Timeline

end Tonegraph
