import Mathlib.Data.List.Induction
import Tonegraph.Proofs.Content
import Tonegraph.Proofs.Deck.Protocol
/-!
# The history of a deck

A history is what happens to one timeline and one recorder from their beginning: calls of the host,
the device playing what is queued, and the host collecting what was recorded. Beside the deck goes a
`Chronicle` of everything that was told. `Deck.history_protocol` is what holds of every history.
-/

set_option autoImplicit false

namespace Tonegraph

/-! ## The events not yet taken -/

namespace Timeline

/-- The last of some events, as many as are kept. -/
def latest (events : List PlaybackEvent) : List PlaybackEvent :=
  events.drop (events.length - eventCapacity)

theorem length_latest (events : List PlaybackEvent) :
    (latest events).length = min eventCapacity events.length := by
  rw [latest, List.length_drop]
  omega

/-- One more event leaves the last ones. -/
theorem enqueue_latest (events : List PlaybackEvent) (event : PlaybackEvent) :
    enqueue (latest events) event = latest (events ++ [event]) := by
  have length := length_latest events
  unfold enqueue
  split
  · rename_i room
    have few : events.length < eventCapacity := by omega
    have all : latest events = events := by
      rw [latest, Nat.sub_eq_zero_of_le (Nat.le_of_lt few), List.drop_zero]
    rw [all, latest, List.length_append, List.length_singleton, Nat.sub_eq_zero_of_le few,
      List.drop_zero]
  · rename_i full
    have many : eventCapacity ≤ events.length := by omega
    rw [latest, latest, List.drop_drop, List.length_append, List.length_singleton,
      Nat.sub_add_comm many, List.drop_append_of_le_length (by
        have capacity : eventCapacity = 32 := rfl
        omega)]

theorem foldl_enqueue_latest (since events : List PlaybackEvent) :
    events.foldl enqueue (latest since) = latest (since ++ events) := by
  induction events generalizing since with
  | nil => rw [List.foldl_nil, List.append_nil]
  | cons event rest ih =>
      rw [List.foldl_cons, enqueue_latest, ih, List.append_assoc, List.singleton_append]

theorem foldl_enqueue_suffix {pending since : List PlaybackEvent} (suffix : pending <:+ since)
    (events : List PlaybackEvent) : events.foldl enqueue pending <:+ since ++ events := by
  induction events generalizing pending since with
  | nil => simpa using suffix
  | cons event rest ih =>
      have kept : enqueue pending event <:+ since ++ [event] := by
        obtain ⟨front, rfl⟩ := suffix
        unfold enqueue
        split
        · exact ⟨front, by simp⟩
        · refine ⟨front ++ pending.take 1, ?_⟩
          rw [List.append_assoc, ← List.append_assoc (pending.take 1), List.take_append_drop,
            List.append_assoc]
      have next := ih kept
      rwa [List.append_assoc, List.singleton_append] at next

theorem length_foldl_enqueue_le {pending : List PlaybackEvent}
    (bounded : pending.length ≤ eventCapacity) (events : List PlaybackEvent) :
    (events.foldl enqueue pending).length ≤ eventCapacity := by
  induction events generalizing pending with
  | nil => exact bounded
  | cons event rest ih => exact ih (length_enqueue_le event bounded)

end Timeline

/-! ## The recorder -/

namespace PlaybackEvent

/-- A segment starts. -/
def isStart : PlaybackEvent → Bool
  | .segmentStarted _ _ => true
  | _ => false

/-- A segment stops. -/
def isStop : PlaybackEvent → Bool
  | .segmentStopped _ _ => true
  | _ => false

/-- Whether a sink runs after an event, if it ran or not before. -/
def runs (running : Bool) : PlaybackEvent → Bool
  | .segmentStarted _ _ => true
  | .segmentStopped _ _ => false
  | _ => running

end PlaybackEvent

/-- A recorder counts the starts and stops of segments, and runs after a start. -/
theorem FrameSink.Driven.counts {S : Type} {first last : Recorder S} {events : List PlaybackEvent}
    (driven : FrameSink.Driven first events last) :
    last.starts = first.starts + events.countP (·.isStart) ∧
      last.stops = first.stops + events.countP (·.isStop) ∧
      last.running = events.foldl PlaybackEvent.runs first.running := by
  induction driven with
  | idle => exact ⟨rfl, rfl, rfl⟩
  | @pushed events sink frame _ ih =>
      have same : (sink.push frame).starts = sink.starts ∧ (sink.push frame).stops = sink.stops ∧
          (sink.push frame).running = sink.running := by
        unfold Recorder.push
        split <;> exact ⟨rfl, rfl, rfl⟩
      obtain ⟨starts, stops, running⟩ := ih
      exact ⟨same.1.trans starts, same.2.1.trans stops, same.2.2.trans running⟩
  | started index handle _ ih =>
      obtain ⟨starts, stops, -⟩ := ih
      rw [List.countP_append, List.countP_append, List.foldl_append, ← Nat.add_assoc,
        ← Nat.add_assoc, ← starts, ← stops]
      exact ⟨rfl, rfl, rfl⟩
  | stopped index handle _ ih =>
      obtain ⟨starts, stops, -⟩ := ih
      rw [List.countP_append, List.countP_append, List.foldl_append, ← Nat.add_assoc,
        ← Nat.add_assoc, ← starts, ← stops]
      exact ⟨rfl, rfl, rfl⟩
  | sought index _ ih =>
      obtain ⟨starts, stops, running⟩ := ih
      rw [List.countP_append, List.countP_append, List.foldl_append, ← Nat.add_assoc,
        ← Nat.add_assoc, ← starts, ← stops, ← running]
      exact ⟨rfl, rfl, rfl⟩
  | finished interrupted _ ih =>
      obtain ⟨starts, stops, running⟩ := ih
      rw [List.countP_append, List.countP_append, List.foldl_append, ← Nat.add_assoc,
        ← Nat.add_assoc, ← starts, ← stops, ← running]
      exact ⟨rfl, rfl, rfl⟩

/-- After what a call tells a recorder runs just when a performance goes on. -/
theorem Told.runs {order : List Handle} {before after : Option Nat} {events : List PlaybackEvent}
    (told : Told order before events after) :
    events.foldl PlaybackEvent.runs before.isSome = after.isSome := by
  cases told <;> rfl

/-! ## Histories -/

variable {R S : Type} [Arithmetic R] [Scalar S] [Narrowing R S]

/-- What happens to a deck: the host makes a call, the device plays queued frames, or the host
collects the recorded frames. -/
inductive Act (R S : Type) where
  | call (made : Call ℚ R S)
  | consume (count : Nat)
  | collect

/-- What a host has been told. -/
structure Chronicle where
  /-- All events ever emitted. -/
  told : List PlaybackEvent
  /-- The events emitted since none was left or the timeline was reset. -/
  since : List PlaybackEvent
  /-- Whether none of these has been taken. -/
  untaken : Bool

namespace Act

/-- A segment that is brought in is idle. -/
def InsertsIdle : Act R S → Prop
  | .call made => made.InsertsIdle
  | _ => True

/-- The deck after something has happened. -/
def on (act : Act R S) (deck : Deck ℚ R S (Recorder S)) : Deck ℚ R S (Recorder S) :=
  match act with
  | .call made => (made.on deck).2
  | .consume count => { deck with sink := deck.sink.consume count }
  | .collect => { deck with sink := deck.sink.take.2 }

/-- The events that it emits. -/
def emitted (act : Act R S) (deck : Deck ℚ R S (Recorder S)) : List PlaybackEvent :=
  match act with
  | .call made => made.emitted deck
  | _ => []

/-- The chronicle after it. -/
def note (act : Act R S) (deck : Deck ℚ R S (Recorder S)) (chronicle : Chronicle) : Chronicle :=
  let told := chronicle.told ++ act.emitted deck
  match act with
  | .call (.takeEvents count) =>
    if deck.timeline.events.length ≤ count then ⟨told, [], true⟩
    else ⟨told, chronicle.since, chronicle.untaken && count == 0⟩
  | .call (.edit .reset) =>
    if deck.timeline.playing then { chronicle with told } else ⟨told, [], true⟩
  | _ => ⟨told, chronicle.since ++ act.emitted deck, chronicle.untaken⟩

end Act

/-- The deck and the chronicle after some acts, from a timeline without segments and a recorder that
has seen nothing. -/
def Deck.history (rate capacity : Nat) (acts : List (Act R S)) :
    Deck ℚ R S (Recorder S) × Chronicle :=
  acts.foldl (fun now act => (act.on now.1, act.note now.1 now.2))
    (⟨.empty, .ofCapacity rate capacity⟩, ⟨[], [], true⟩)

omit [Arithmetic R] [Scalar S] [Narrowing R S] in
/-- An edit leaves the events that wait, but for a reset. -/
theorem Edit.apply_events {T : Type} [Scalar T] {tl after : Timeline T R S} {edit : Edit R S}
    (applied : edit.apply tl = .ok after) :
    after.events = if edit matches .reset then [] else tl.events := by
  cases playing : tl.playing with
  | true =>
      rw [apply_of_playing playing] at applied
      cases applied
  | false =>
      cases edit <;>
        simp only [apply, Timeline.push_of_stopped playing, Timeline.insert_of_stopped playing,
          Timeline.remove_of_stopped playing, Timeline.moveTo_of_stopped playing,
          Timeline.setWindow_of_stopped playing, Timeline.reset_of_stopped playing] at applied <;>
        (repeat' split at applied) <;> cases applied <;> rfl

theorem Call.emitted_edit {T K : Type} [Scalar T] [FrameSink K S] (edit : Edit R S)
    (deck : Deck T R S K) : (Call.edit edit).emitted deck = [] := by
  have none : deck.timeline.drain.2.events = [] := List.drop_length
  rw [emitted, on_edit]
  cases applied : edit.apply deck.timeline.drain.2 with
  | error e => exact none
  | ok after =>
      show after.events = []
      rw [edit.apply_events applied, none, ite_self]

theorem Call.emitted_takeEvents {T K : Type} [Scalar T] [FrameSink K S] (count : Nat)
    (deck : Deck T R S K) : (Call.takeEvents count).emitted deck = [] := by
  have none : deck.timeline.drain.2.events = [] := List.drop_length
  show deck.timeline.drain.2.events.drop count = []
  rw [none, List.drop_nil]

/-- Events that consist of performances which are over and, with a segment last started, one that
goes on. -/
def Performances (order : List Handle) (told : List PlaybackEvent) (place? : Option Nat) : Prop :=
  ∃ (complete : List (List PlaybackEvent)) (ongoing : List PlaybackEvent),
    told = complete.flatten ++ ongoing ∧
      (∀ performance ∈ complete, ∃ order, Performance.Complete order performance) ∧
      match place? with
      | none => ongoing = []
      | some index => Performance order ongoing index

/-- What a call tells carries the performances on. -/
theorem Performances.append {order : List Handle} {sofar events : List PlaybackEvent}
    {before after : Option Nat} (performances : Performances order sofar before)
    (told : Told order before events after) : Performances order (sofar ++ events) after := by
  obtain ⟨complete, ongoing, rfl, whole, on⟩ := performances
  cases told with
  | nothing =>
      rw [List.append_nil]
      exact ⟨complete, ongoing, rfl, whole, on⟩
  | start named =>
      obtain rfl : ongoing = [] := on
      exact ⟨complete, _, by rw [List.append_nil], whole, .start named⟩
  | next named named' =>
      exact ⟨complete, _, List.append_assoc _ _ _, whole, on.next named named'⟩
  | jump named named' =>
      exact ⟨complete, _, List.append_assoc _ _ _, whole, on.jump named named'⟩
  | @finish index here named interrupted =>
      let performance := ongoing ++ [.segmentStopped index here, .playbackFinished interrupted]
      refine ⟨complete ++ [performance], [], ?_, ?_, rfl⟩
      · simp [performance]
      · intro some_ member
        obtain old | new := List.mem_append.mp member
        · exact whole some_ old
        · obtain rfl := List.mem_singleton.mp new
          exact ⟨order, .finish on named interrupted⟩

/-- What a history keeps: the chronicle consists of performances and, while the timeline plays, one
that goes on; the recorder counts with them; and the events that wait are the last ones. -/
structure Kept (deck : Deck ℚ R S (Recorder S)) (chronicle : Chronicle) (place? : Option Nat) :
    Prop where
  stands : deck.timeline.Stands place?
  performances : Performances deck.timeline.order chronicle.told place?
  starts : deck.sink.starts = chronicle.told.countP (·.isStart)
  stops : deck.sink.stops = chronicle.told.countP (·.isStop)
  running : deck.sink.running = place?.isSome
  waiting : deck.timeline.events <:+ chronicle.since
  bounded : deck.timeline.events.length ≤ Timeline.eventCapacity
  latest : chronicle.untaken = true → deck.timeline.events = Timeline.latest chronicle.since

theorem Kept.call {deck : Deck ℚ R S (Recorder S)} {chronicle : Chronicle} {place? : Option Nat}
    (kept : Kept deck chronicle place?) {call : Call ℚ R S} (does : call.Does deck place?) :
    (∃ next?, Kept (call.on deck).2
      ⟨chronicle.told ++ call.emitted deck, chronicle.since ++ call.emitted deck,
        chronicle.untaken⟩ next?) ∧
      ∀ event ∈ call.emitted deck, event.Names deck.timeline.order := by
  obtain ⟨emitted, next?, told, leads⟩ := does
  have same : call.emitted deck = emitted := by
    obtain ⟨tells, -⟩ := leads (deck.timeline.drain.2).events
    have none : (deck.timeline.drain.2).events = [] := List.drop_length
    exact tells.emits.events_eq none told.length_le
  obtain ⟨tells, stands⟩ : deck.Tells (call.on deck).2 emitted ∧ _ := leads deck.timeline.events
  obtain ⟨starts, stops, running⟩ := tells.driven.counts
  rw [same]
  refine ⟨⟨next?, stands, ?_, ?_, ?_, ?_, ?_, ?_, ?_⟩, told.names⟩
  · rw [Timeline.order_of_outline tells.emits.outline]
    exact kept.performances.append told
  · rw [starts, kept.starts, List.countP_append]
  · rw [stops, kept.stops, List.countP_append]
  · rw [running, kept.running, told.runs]
  · rw [tells.emits.events]
    exact Timeline.foldl_enqueue_suffix kept.waiting emitted
  · rw [tells.emits.events]
    exact Timeline.length_foldl_enqueue_le kept.bounded emitted
  · intro untaken
    rw [tells.emits.events, kept.latest untaken]
    exact Timeline.foldl_enqueue_latest _ _

section

omit [Arithmetic R] [Scalar S] [Narrowing R S]

/-- Something that emits nothing and leaves who plays and what waits. -/
theorem Kept.quiet {deck after : Deck ℚ R S (Recorder S)} {chronicle : Chronicle}
    {place? : Option Nat} (kept : Kept deck chronicle place?)
    (stands : after.timeline.Stands place?)
    (order : place? = none ∨ after.timeline.order = deck.timeline.order)
    (waiting : after.timeline.events = deck.timeline.events)
    (starts : after.sink.starts = deck.sink.starts) (stops : after.sink.stops = deck.sink.stops)
    (running : after.sink.running = deck.sink.running) : Kept after chronicle place? where
  stands := stands
  performances := by
    obtain rfl | same := order
    · exact kept.performances
    · rw [same]
      exact kept.performances
  starts := starts.trans kept.starts
  stops := stops.trans kept.stops
  running := running.trans kept.running
  waiting := by
    rw [waiting]
    exact kept.waiting
  bounded := by
    rw [waiting]
    exact kept.bounded
  latest untaken := waiting.trans (kept.latest untaken)

theorem Timeline.Stands.eq_none {tl : Timeline ℚ R S} {place? : Option Nat}
    (stands : tl.Stands place?) (stopped : tl.playing = false) : place? = none := by
  cases place? with
  | none => rfl
  | some index =>
      have playing : tl.playing = true := stands.playing
      rw [stopped] at playing
      cases playing

/-- What waits is gone: taken, or with the timeline that was reset. -/
theorem Kept.cleared {deck after : Deck ℚ R S (Recorder S)} {chronicle : Chronicle}
    {place? : Option Nat} (kept : Kept deck chronicle place?)
    (stands : after.timeline.Stands place?)
    (order : place? = none ∨ after.timeline.order = deck.timeline.order)
    (cleared : after.timeline.events = []) (sink : after.sink = deck.sink) :
    Kept after ⟨chronicle.told, [], true⟩ place? where
  stands := stands
  performances := by
    obtain rfl | same := order
    · exact kept.performances
    · rw [same]
      exact kept.performances
  starts := sink ▸ kept.starts
  stops := sink ▸ kept.stops
  running := sink ▸ kept.running
  waiting := by simp [cleared]
  bounded := by
    rw [cleared]
    exact Nat.zero_le _
  latest _ := cleared

end

theorem Kept.edit {deck : Deck ℚ R S (Recorder S)} {chronicle : Chronicle} {place? : Option Nat}
    (kept : Kept deck chronicle place?) {edit : Edit R S}
    (idle : edit.Inserts fun segment => segment.playing = false) :
    Kept ((Call.edit edit).on deck).2 ((Act.call (.edit edit)).note deck chronicle) place? := by
  have silent := Call.emitted_edit edit deck
  rw [Call.on_edit]
  cases applied : edit.apply deck.timeline with
  | error e =>
      have same : (Act.call (.edit edit)).note deck chronicle = chronicle := by
        cases edit with
        | reset =>
            have playing : deck.timeline.playing = true := by
              by_contra stopped
              rw [Edit.apply, Timeline.reset_of_stopped (Bool.eq_false_iff.mpr stopped)] at applied
              cases applied
            simp [Act.note, Act.emitted, silent, playing]
        | _ => simp [Act.note, Act.emitted, silent]
      rw [same]
      exact kept
  | ok after =>
      have stopped : deck.timeline.playing = false := by
        by_contra playing
        rw [Edit.apply_of_playing (Bool.not_eq_false _ ▸ playing)] at applied
        cases applied
      obtain rfl := kept.stands.eq_none stopped
      have rest : after.AtRest := Edit.apply_atRest kept.stands idle applied
      have events := edit.apply_events applied
      cases edit with
      | reset =>
          have noted : (Act.call (.edit .reset)).note deck chronicle =
              ⟨chronicle.told, [], true⟩ := by
            simp [Act.note, Act.emitted, silent, stopped]
          rw [noted]
          exact kept.cleared rest (.inl rfl) events rfl
      | _ =>
          simp only [Act.note, Act.emitted, silent, List.append_nil]
          exact kept.quiet rest (.inl rfl) events rfl rfl rfl

theorem Kept.takeEvents {deck : Deck ℚ R S (Recorder S)} {chronicle : Chronicle}
    {place? : Option Nat} (kept : Kept deck chronicle place?) (count : Nat) :
    Kept ((Call.takeEvents count).on deck).2 ((Act.call (.takeEvents count)).note deck chronicle)
      place? := by
  have silent := Call.emitted_takeEvents count deck
  have stands : ((Call.takeEvents count).on deck).2.timeline.Stands place? :=
    kept.stands.holding (deck.timeline.events.drop count)
  simp only [Act.note, Act.emitted, silent, List.append_nil]
  split
  · rename_i all
    exact kept.cleared stands (.inr rfl) (List.drop_eq_nil_of_le all) rfl
  · refine ⟨stands, kept.performances, kept.starts, kept.stops, kept.running, ?_, ?_, ?_⟩
    · exact (List.drop_suffix count _).trans kept.waiting
    · have bounded := kept.bounded
      show (deck.timeline.events.drop count).length ≤ _
      rw [List.length_drop]
      omega
    · intro untaken
      obtain ⟨before, none⟩ := Bool.and_eq_true_iff.mp untaken
      obtain rfl : count = 0 := by simpa using none
      exact kept.latest before

/-- A history keeps what it keeps, whatever happens next. -/
theorem Kept.act {deck : Deck ℚ R S (Recorder S)} {chronicle : Chronicle} {place? : Option Nat}
    (kept : Kept deck chronicle place?) {act : Act R S} (idle : act.InsertsIdle) :
    (∃ next?, Kept (act.on deck) (act.note deck chronicle) next?) ∧
      ∀ event ∈ act.emitted deck, event.Names deck.timeline.order := by
  cases act with
  | consume count =>
      refine ⟨⟨place?, ?_⟩, by simp [Act.emitted]⟩
      have same : (Act.consume count : Act R S).note deck chronicle = chronicle := by
        simp [Act.note, Act.emitted]
      rw [same]
      exact kept.quiet kept.stands (.inr rfl) rfl rfl rfl rfl
  | collect =>
      refine ⟨⟨place?, ?_⟩, by simp [Act.emitted]⟩
      have same : (Act.collect : Act R S).note deck chronicle = chronicle := by
        simp [Act.note, Act.emitted]
      rw [same]
      exact kept.quiet kept.stands (.inr rfl) rfl rfl rfl rfl
  | call made =>
      cases made with
      | edit change =>
          refine ⟨⟨place?, kept.edit idle⟩, ?_⟩
          rw [Act.emitted, Call.emitted_edit]
          simp
      | takeEvents count =>
          have silent := Call.emitted_takeEvents count deck
          exact ⟨⟨place?, kept.takeEvents count⟩, by simp [Act.emitted, silent]⟩
      | start => exact kept.call (Deck.start_does kept.stands)
      | stop interrupted => exact kept.call (Deck.stop_does kept.stands interrupted)
      | seekForward =>
          exact kept.call (Call.does kept.stands (by simp) (by simp))
      | seekBackward =>
          exact kept.call (Call.does kept.stands (by simp) (by simp))
      | seekTo target =>
          exact kept.call (Call.does kept.stands (by simp) (by simp))
      | tick delta => exact kept.call (Deck.tick_does kept.stands delta)

theorem Deck.history_append (rate capacity : Nat) (before after : List (Act R S)) :
    history rate capacity (before ++ after) =
      after.foldl (fun now act => (act.on now.1, act.note now.1 now.2))
        (history rate capacity before) := List.foldl_append

theorem Kept.history (rate capacity : Nat) {acts : List (Act R S)}
    (idle : ∀ act ∈ acts, act.InsertsIdle) :
    ∃ place?,
      Kept (Deck.history rate capacity acts).1 (Deck.history rate capacity acts).2 place? := by
  induction acts using List.reverseRecOn with
  | nil =>
      refine ⟨none, Timeline.empty_atRest, ⟨[], [], rfl, by simp, rfl⟩, rfl, rfl, rfl, ?_, ?_, ?_⟩
      · exact List.nil_suffix
      · exact Nat.zero_le _
      · exact fun _ => rfl
  | append_singleton before act ih =>
      obtain ⟨place?, kept⟩ := ih fun act member => idle act (List.mem_append_left _ member)
      rw [Deck.history_append]
      exact (kept.act (idle act (by simp))).1

/-- **The protocol of events.** Let anything happen to a timeline and a recorder, from their
beginning on, as long as only idle segments are brought in.

All that was ever told is one performance after the other, each complete but for one at the end that
goes on while the timeline plays; its last started segment is the one at the cursor. Every event
carried the handle at its place when it was emitted. The recorder was started as often as a segment,
and stopped as often, and it runs just when the timeline plays. The events that wait are the last
of those emitted since none was left or the timeline was reset, at most 32; and if none of these has
been taken, they are exactly the last 32, or all if there are fewer. -/
theorem Deck.history_protocol (rate capacity : Nat) (acts : List (Act R S))
    (idle : ∀ act ∈ acts, act.InsertsIdle) :
    let deck : Deck ℚ R S (Recorder S) := (history rate capacity acts).1
    let chronicle : Chronicle := (history rate capacity acts).2
    (∃ (complete : List (List PlaybackEvent)) (ongoing : List PlaybackEvent),
        chronicle.told = complete.flatten ++ ongoing ∧
          (∀ performance ∈ complete, ∃ order, Performance.Complete order performance) ∧
          (deck.timeline.playing = false ∧ ongoing = [] ∨
            ∃ index, deck.timeline.playing = true ∧ deck.timeline.cursor = .segment index ∧
              Performance deck.timeline.order ongoing index)) ∧
      (∀ before act after, acts = before ++ act :: after →
        ∀ event ∈ act.emitted (history rate capacity before).1,
          event.Names (history rate capacity before).1.timeline.order) ∧
      deck.sink.starts = chronicle.told.countP (·.isStart) ∧
      deck.sink.stops = chronicle.told.countP (·.isStop) ∧
      deck.sink.running = deck.timeline.playing ∧
      deck.timeline.events <:+ chronicle.since ∧ deck.timeline.events.length ≤ 32 ∧
      (chronicle.untaken = true →
        deck.timeline.events = chronicle.since.drop (chronicle.since.length - 32)) := by
  intro deck chronicle
  obtain ⟨place?, kept⟩ : ∃ place?, Kept deck chronicle place? := Kept.history rate capacity idle
  obtain ⟨complete, ongoing, told, whole, on⟩ := kept.performances
  have running := kept.running
  have stands := kept.stands
  refine ⟨⟨complete, ongoing, told, whole, ?_⟩, ?_, kept.starts, kept.stops, ?_, kept.waiting,
    kept.bounded, kept.latest⟩
  · cases place? with
    | none => exact .inl ⟨stands.stopped, on⟩
    | some index => exact .inr ⟨index, stands.playing, stands.cursor, on⟩
  · intro before act after split
    have idle' : ∀ act ∈ before, act.InsertsIdle := by
      intro act member
      exact idle act (by rw [split]; exact List.mem_append_left _ member)
    obtain ⟨place?, kept⟩ := Kept.history rate capacity idle'
    exact (kept.act (idle act (by rw [split]; simp))).2
  · cases place? with
    | none => exact running.trans stands.stopped.symm
    | some index => exact running.trans stands.playing.symm

/-- A performance with a jump that is broken off while one event has been taken, and the beginning
of another. -/
theorem Deck.acrossZero_history :
    let acts : List (Act Float Float32) :=
      [.call (.edit (.push .acrossZero)), .call (.edit (.push .acrossZero)),
        .call .start, .call (.seekTo 1), .consume 1, .call (.takeEvents 1), .call (.stop true),
        .call .start]
    let deck := (history 2 8 acts).1
    let chronicle := (history 2 8 acts).2
    (∀ act ∈ acts, act.InsertsIdle) ∧
      chronicle.told =
        [.segmentStarted 0 ⟨0⟩, .segmentStopped 0 ⟨0⟩, .sought 1, .segmentStarted 1 ⟨1⟩,
          .segmentStopped 1 ⟨1⟩, .playbackFinished true, .segmentStarted 0 ⟨0⟩] ∧
      deck.sink.starts = 3 ∧ deck.sink.stops = 2 ∧ deck.sink.running = true ∧
      deck.timeline.events <:+ chronicle.since ∧
      ∃ (complete : List (List PlaybackEvent)) (ongoing : List PlaybackEvent),
        chronicle.told = complete.flatten ++ ongoing ∧
          ∀ performance ∈ complete, ∃ order, Performance.Complete order performance := by
  intro acts deck chronicle
  have idle : ∀ act ∈ acts, act.InsertsIdle := by
    simp [acts, Act.InsertsIdle, Call.InsertsIdle, Edit.Inserts, Segment.acrossZero]
  have told : chronicle.told =
      [.segmentStarted 0 ⟨0⟩, .segmentStopped 0 ⟨0⟩, .sought 1, .segmentStarted 1 ⟨1⟩,
        .segmentStopped 1 ⟨1⟩, .playbackFinished true, .segmentStarted 0 ⟨0⟩] := by
    decide +kernel
  have playing : deck.timeline.playing = true := by decide +kernel
  clear_value acts
  obtain ⟨⟨complete, ongoing, split, whole, -⟩, -, starts, stops, running, waiting, -, -⟩ :=
    history_protocol 2 8 acts idle
  refine ⟨idle, told, ?_, ?_, running.trans playing, waiting, complete, ongoing, split, whole⟩
  · exact starts.trans (congrArg (List.countP (·.isStart)) told)
  · exact stops.trans (congrArg (List.countP (·.isStop)) told)

end Tonegraph
