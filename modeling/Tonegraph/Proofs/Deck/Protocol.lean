import Tonegraph.Proofs.Deck.Coherence
import Tonegraph.Proofs.Sink
/-!
# What a host is told

A host that plays a timeline is told of it in performances. A performance begins with the start of
the first segment; the segment last started stops and the next starts, or it stops, a jump is told
and the segment jumped to starts; and it is complete when the segment last started stops and playing
is finished (`Performance`, `Performance.Complete`). The sink is started and stopped with the
segments, in the order of the events (`FrameSink.Driven`).

`Call.Does` is what one call adds to this, whatever events wait to be taken: nothing, or one of the
steps of a performance (`Told`). Every call of the transport and every tick does so (`Call.does`),
if the timeline plays a segment or is at rest before it.
-/

set_option autoImplicit false

namespace Tonegraph

variable {R S K : Type}

/-! ## Performances -/

/-- A performance that goes on, and the place of the segment last started. Handles are those at the
places in an order. -/
inductive Performance (order : List Handle) : List PlaybackEvent → Nat → Prop
  | start {first : Handle} (named : order[0]? = some first) :
      Performance order [.segmentStarted 0 first] 0
  | next {events : List PlaybackEvent} {index : Nat} {here there : Handle}
      (sofar : Performance order events index) (named : order[index]? = some here)
      (named' : order[index + 1]? = some there) :
      Performance order
        (events ++ [.segmentStopped index here, .segmentStarted (index + 1) there]) (index + 1)
  | jump {events : List PlaybackEvent} {index target : Nat} {here there : Handle}
      (sofar : Performance order events index) (named : order[index]? = some here)
      (named' : order[target]? = some there) :
      Performance order
        (events ++ [.segmentStopped index here, .sought target, .segmentStarted target there])
        target

/-- A performance that is over. -/
inductive Performance.Complete (order : List Handle) : List PlaybackEvent → Prop
  | finish {events : List PlaybackEvent} {index : Nat} {here : Handle}
      (sofar : Performance order events index) (named : order[index]? = some here)
      (interrupted : Bool) :
      Complete order (events ++ [.segmentStopped index here, .playbackFinished interrupted])

/-- What a call adds to what is told, with the place of the segment last started before it and
after it, if a performance goes on. -/
inductive Told (order : List Handle) : Option Nat → List PlaybackEvent → Option Nat → Prop
  | nothing (place? : Option Nat) : Told order place? [] place?
  | start {first : Handle} (named : order[0]? = some first) :
      Told order none [.segmentStarted 0 first] (some 0)
  | next {index : Nat} {here there : Handle} (named : order[index]? = some here)
      (named' : order[index + 1]? = some there) :
      Told order (some index)
        [.segmentStopped index here, .segmentStarted (index + 1) there] (some (index + 1))
  | jump {index target : Nat} {here there : Handle} (named : order[index]? = some here)
      (named' : order[target]? = some there) :
      Told order (some index)
        [.segmentStopped index here, .sought target, .segmentStarted target there] (some target)
  | finish {index : Nat} {here : Handle} (named : order[index]? = some here)
      (interrupted : Bool) :
      Told order (some index)
        [.segmentStopped index here, .playbackFinished interrupted] none

/-- An event carries the handle at the place that it tells of. -/
def PlaybackEvent.Names (order : List Handle) : PlaybackEvent → Prop
  | .segmentStarted index handle | .segmentStopped index handle => order[index]? = some handle
  | .sought index => index < order.length
  | .playbackFinished _ => True

theorem Told.names {order : List Handle} {before after : Option Nat} {events : List PlaybackEvent}
    (told : Told order before events after) : ∀ event ∈ events, event.Names order := by
  have within : ∀ {index : Nat} {handle : Handle}, order[index]? = some handle →
      index < order.length := fun named => (List.getElem?_eq_some_iff.mp named).1
  cases told with
  | nothing => simp
  | start named => simpa [PlaybackEvent.Names] using named
  | next named named' => simpa [PlaybackEvent.Names] using ⟨named, named'⟩
  | jump named named' => simpa [PlaybackEvent.Names] using ⟨named, within named', named'⟩
  | finish named => simpa [PlaybackEvent.Names] using named

theorem Told.length_le {order : List Handle} {before after : Option Nat}
    {events : List PlaybackEvent} (told : Told order before events after) :
    events.length ≤ Timeline.eventCapacity := by
  have capacity : Timeline.eventCapacity = 32 := rfl
  cases told <;> simp [capacity]

/-! ## Events that wait -/

/-- The deck with other events waiting to be taken. -/
def Deck.holding {T : Type} (deck : Deck T R S K) (pending : List PlaybackEvent) : Deck T R S K :=
  { deck with timeline := { deck.timeline with events := pending } }

/-- A timeline plays the segment at a place, or is at rest if there is none. -/
def Timeline.Stands (tl : Timeline ℚ R S) : Option Nat → Prop
  | none => tl.AtRest
  | some index => tl.PlaysAt index

theorem Timeline.order_getElem? {T : Type} (tl : Timeline T R S) (index : Nat) :
    tl.order[index]? = tl.handleAt? index := List.getElem?_map

section

variable {deck : Deck ℚ R S K}

theorem Timeline.AtRest.holding (rest : deck.timeline.AtRest) (pending : List PlaybackEvent) :
    (deck.holding pending).timeline.AtRest :=
  ⟨rest.stopped, rest.cursor, rest.silent, rest.untracked⟩

theorem Timeline.PlaysAt.holding {index : Nat}
    (plays : deck.timeline.PlaysAt index) (pending : List PlaybackEvent) :
    (deck.holding pending).timeline.PlaysAt index :=
  ⟨plays.playing, plays.within, plays.cursor, plays.sounds, plays.measures⟩

theorem Timeline.Stands.holding {place? : Option Nat} (stands : deck.timeline.Stands place?)
    (pending : List PlaybackEvent) : (deck.holding pending).timeline.Stands place? := by
  cases place? with
  | none => exact AtRest.holding stands pending
  | some index => exact PlaysAt.holding stands pending

end

/-! ## The sink -/

section

variable [FrameSink K S]

/-- What becomes of a sink while some events are emitted: it is started with every segment that
starts, stopped with every one that stops, and frames are pushed in between. -/
inductive FrameSink.Driven (first : K) : List PlaybackEvent → K → Prop
  | idle : Driven first [] first
  | pushed {events : List PlaybackEvent} {sink : K} (frame : Frame S)
      (driven : Driven first events sink) : Driven first events (FrameSink.push sink frame)
  | started {events : List PlaybackEvent} {sink : K} (index : Nat) (handle : Handle)
      (driven : Driven first events sink) :
      Driven first (events ++ [.segmentStarted index handle]) (FrameSink.start sink)
  | stopped {events : List PlaybackEvent} {sink : K} (index : Nat) (handle : Handle)
      (driven : Driven first events sink) :
      Driven first (events ++ [.segmentStopped index handle]) (FrameSink.stop sink)
  | sought {events : List PlaybackEvent} {sink : K} (index : Nat)
      (driven : Driven first events sink) : Driven first (events ++ [.sought index]) sink
  | finished {events : List PlaybackEvent} {sink : K} (interrupted : Bool)
      (driven : Driven first events sink) :
      Driven first (events ++ [.playbackFinished interrupted]) sink

namespace FrameSink.Driven

variable {first sink : K} {events : List PlaybackEvent}

theorem pushedAll (driven : Driven first events sink) (frames : Array (Frame S)) :
    Driven first events (FrameSink.pushAll sink frames) :=
  FrameSink.pushAll_of_push (fun sink _ => Driven first events sink)
    (fun driven => driven.pushed _) driven

end FrameSink.Driven

namespace Deck

/-- From one deck to another some events are emitted, and the sink is driven so. -/
structure Tells {T : Type} (before after : Deck T R S K) (emitted : List PlaybackEvent) :
    Prop where
  emits : before.timeline.Emits after.timeline emitted
  driven : FrameSink.Driven before.sink emitted after.sink

theorem Tells.refl {T : Type} (deck : Deck T R S K) : deck.Tells deck [] := ⟨.refl _, .idle⟩

/-- What a call does to the timeline beside the segments. -/
theorem Tells.onTimeline {T : Type} {first deck : Deck T R S K} {sofar : List PlaybackEvent}
    (tells : first.Tells deck sofar) {changed : Timeline T R S}
    (outline : changed.outline = deck.timeline.outline)
    (events : changed.events = deck.timeline.events) :
    first.Tells { deck with timeline := changed } sofar where
  emits := ⟨outline.trans tells.emits.outline, events.trans tells.emits.events⟩
  driven := tells.driven

end Deck

/-! ## Calls -/

variable [Arithmetic R] [Scalar S] [Narrowing R S]

namespace Deck

section

variable {T : Type} {first deck : Deck T R S K} {sofar : List PlaybackEvent} {index : Nat}
  {entry : Handle × Segment R S}

theorem Tells.begun (tells : first.Tells deck sofar)
    (found : deck.timeline.entries[index]? = some entry) :
    first.Tells (deck.begun index entry) (sofar ++ [.segmentStarted index entry.1]) where
  emits := tells.emits.trans (begun_emits found)
  driven := (tells.driven.started index entry.1).pushedAll _

theorem Tells.ended (tells : first.Tells deck sofar)
    (found : deck.timeline.entries[index]? = some entry) :
    first.Tells (deck.ended index entry) (sofar ++ [.segmentStopped index entry.1]) where
  emits := tells.emits.trans (ended_emits found)
  driven := (tells.driven.pushedAll _).stopped index entry.1

theorem Tells.filled (tells : first.Tells deck sofar) : first.Tells (filled deck).2 sofar where
  emits := by
    have emits := tells.emits.trans (filled_emits deck)
    rwa [List.append_nil] at emits
  driven := by
    obtain ⟨tl, sink⟩ := deck
    simp only [Deck.filled]
    split
    · exact tells.driven
    · split
      · exact tells.driven
      · rename_i handle segment _
        show FrameSink.Driven _ _ (segment.fill sink).2.2
        unfold Segment.fill
        split
        · exact tells.driven.pushedAll _
        · exact tells.driven

end

end Deck

/-- What a call tells and leads to is a step of a performance, whatever events wait to be taken. -/
def Call.Does (call : Call ℚ R S) (deck : Deck ℚ R S K) (place? : Option Nat) : Prop :=
  ∃ emitted next?, Told deck.timeline.order place? emitted next? ∧
    ∀ pending, (deck.holding pending).Tells (call.on (deck.holding pending)).2 emitted ∧
      (call.on (deck.holding pending)).2.timeline.Stands next?

section

variable {deck : Deck ℚ R S K} {index : Nat} {handle : Handle}

/-- A call that is refused and changes nothing. -/
theorem Call.does_nothing {call : Call ℚ R S} {place? : Option Nat}
    (stands : deck.timeline.Stands place?)
    (same : ∀ pending, (call.on (deck.holding pending)).2 = deck.holding pending) :
    call.Does deck place? := by
  refine ⟨[], place?, .nothing place?, fun pending => ?_⟩
  rw [same]
  exact ⟨.refl _, stands.holding pending⟩

namespace Deck

theorem silenced_tells {between : Deck ℚ R S K} (tells : deck.Tells between [])
    (plays : between.timeline.PlaysAt index)
    (named : deck.timeline.handleAt? index = some handle) :
    deck.Tells between.silenced [.segmentStopped index handle] := by
  rw [← Timeline.handleAt?_of_outline tells.emits.outline] at named
  obtain ⟨segment, found⟩ := Timeline.entry_of_handleAt? named
  rw [silenced_eq plays found]
  exact tells.ended found

theorem startAt_tells {between : Deck ℚ R S K} {sofar : List PlaybackEvent}
    (tells : deck.Tells between sofar) (silent : Timeline.Sounds between.timeline.entries none)
    (named : deck.timeline.handleAt? index = some handle) :
    deck.Tells (perform (startAt index) between).2 (sofar ++ [.segmentStarted index handle]) := by
  rw [← Timeline.handleAt?_of_outline tells.emits.outline] at named
  obtain ⟨segment, found⟩ := Timeline.entry_of_handleAt? named
  rw [startAt_eq silent found]
  exact tells.begun found

theorem start_does {place? : Option Nat} (stands : deck.timeline.Stands place?) :
    Call.start.Does deck place? := by
  cases place? with
  | some index =>
      refine Call.does_nothing stands fun pending => ?_
      have plays : (deck.holding pending).timeline.PlaysAt index := stands.holding pending
      rw [Call.on_start, perform_start]
      split
      · rfl
      · rw [if_pos plays.playing]
  | none =>
      by_cases empty : deck.timeline.entries = []
      · refine Call.does_nothing stands fun pending => ?_
        have empty' : (deck.holding pending).timeline.entries = [] := empty
        rw [Call.on_start, perform_start, if_pos empty']
      · obtain ⟨handle, named⟩ := Timeline.exists_handleAt? (List.length_pos_iff.mpr empty)
        refine ⟨_, some 0, .start ((Timeline.order_getElem? _ _).trans named), fun pending => ?_⟩
        have rest : (deck.holding pending).timeline.AtRest := stands.holding pending
        have named' : (deck.holding pending).timeline.handleAt? 0 = some handle := named
        obtain ⟨-, -, plays, -⟩ := start_yields _ rest.stopped rest.silent named'
        refine ⟨?_, plays⟩
        have rewinds : (deck.holding pending).Tells
            ⟨(deck.holding pending).timeline.rewound, (deck.holding pending).sink⟩ [] :=
          (Tells.refl _).onTimeline rfl rfl
        rw [Call.on_start, start_eq rest.stopped named']
        exact startAt_tells rewinds rest.silent named'

theorem stop_does {place? : Option Nat} (stands : deck.timeline.Stands place?)
    (interrupted : Bool) : (Call.stop interrupted).Does deck place? := by
  cases place? with
  | none =>
      refine Call.does_nothing stands fun pending => ?_
      have rest : (deck.holding pending).timeline.AtRest := stands.holding pending
      exact congrArg Prod.snd ((perform_stop _ _).trans (if_pos rest.stopped))
  | some index =>
      by_cases early : interrupted = false ∧
          deck.timeline.clock.rounded < deck.timeline.signedRunTime
      · refine Call.does_nothing stands fun pending => ?_
        have plays : (deck.holding pending).timeline.PlaysAt index := stands.holding pending
        show (perform (stop interrupted) _).2 = _
        rw [perform_stop, if_neg (by simp [plays.playing])]
        exact congrArg Prod.snd (if_pos early)
      · have plays : deck.timeline.PlaysAt index := stands
        obtain ⟨handle, named⟩ := Timeline.exists_handleAt? plays.within
        have reached : interrupted = true ∨
            deck.timeline.signedRunTime ≤ deck.timeline.clock.rounded := by
          cases interrupted with
          | true => exact .inl rfl
          | false => exact .inr (not_lt.mp fun before => early ⟨rfl, before⟩)
        refine ⟨_, none, .finish ((Timeline.order_getElem? _ _).trans named) interrupted,
          fun pending => ?_⟩
        have plays' := plays.holding pending
        have named' : (deck.holding pending).timeline.handleAt? index = some handle := named
        obtain ⟨-, -, rest⟩ := stop_yields plays' named' reached
        refine ⟨?_, rest⟩
        show (deck.holding pending).Tells (perform (stop interrupted) _).2 _
        rw [stop_eq plays' reached]
        have tells := silenced_tells (.refl _) plays' named'
        exact ⟨tells.emits.trans ⟨rfl, rfl⟩, tells.driven.finished interrupted⟩

theorem seekTo_does (plays : deck.timeline.PlaysAt index) (target : Nat) :
    (Call.seekTo target).Does deck (some index) := by
  by_cases within : target < deck.timeline.size
  · obtain ⟨handle, named⟩ := Timeline.exists_handleAt? plays.within
    obtain ⟨handle', named'⟩ := Timeline.exists_handleAt? within
    refine ⟨_, some target, .jump ((Timeline.order_getElem? _ _).trans named)
      ((Timeline.order_getElem? _ _).trans named'), fun pending => ?_⟩
    have plays' := plays.holding pending
    have here : (deck.holding pending).timeline.handleAt? index = some handle := named
    have there : (deck.holding pending).timeline.handleAt? target = some handle' := named'
    obtain ⟨-, -, lands, -⟩ := seekTo_yields plays' here there
    refine ⟨?_, lands⟩
    show (deck.holding pending).Tells (perform (seekTo target) _).2 _
    rw [seekTo_eq plays' within]
    have tells := silenced_tells (.refl _) plays' here
    have silent := (silenced_yields plays' here).2
    have jumps : (deck.holding pending).Tells { (deck.holding pending).silenced with
        timeline := (deck.holding pending).silenced.timeline.jumped target
          (Scalar.ofNat ((deck.holding pending).timeline.offsetOf target)) }
        ([.segmentStopped index handle] ++ [.sought target]) :=
      ⟨tells.emits.trans ⟨rfl, rfl⟩, tells.driven.sought target⟩
    exact startAt_tells jumps silent there
  · refine Call.does_nothing plays fun pending => ?_
    have plays' := plays.holding pending
    show (perform (seekTo target) _).2 = _
    rw [perform_seekTo, if_neg (by simp [plays'.playing])]
    exact congrArg Prod.snd (if_pos (not_lt.mp within))

/-- A call that jumps to one place, whatever waits to be taken, does what the jump does. -/
theorem does_of_seekTo {call : Call ℚ R S} {place? : Option Nat} {target : Nat}
    (jumps : ∀ pending, call.on (deck.holding pending) =
      (Call.seekTo target).on (deck.holding pending))
    (does : (Call.seekTo target).Does deck place?) : call.Does deck place? := by
  obtain ⟨emitted, next?, told, leads⟩ := does
  refine ⟨emitted, next?, told, fun pending => ?_⟩
  rw [jumps]
  exact leads pending

theorem seekForward_does (plays : deck.timeline.PlaysAt index) :
    Call.seekForward.Does deck (some index) := by
  have performed : ∀ pending, Call.seekForward.on (deck.holding pending) =
      if index + 1 < deck.timeline.size then perform (seekTo (index + 1)) (deck.holding pending)
      else (.error .noNextSegment, deck.holding pending) := by
    intro pending
    have plays' := plays.holding pending
    show perform seekForward _ = _
    rw [perform_seekForward, if_neg (by simp [plays'.playing]), plays'.cursor]
    rfl
  by_cases next : index + 1 < deck.timeline.size
  · exact does_of_seekTo (fun pending => (performed pending).trans (if_pos next))
      (seekTo_does plays (index + 1))
  · exact Call.does_nothing plays fun pending =>
      congrArg Prod.snd ((performed pending).trans (if_neg next))

theorem seekBackward_does (plays : deck.timeline.PlaysAt index) :
    Call.seekBackward.Does deck (some index) := by
  cases index with
  | zero =>
      refine Call.does_nothing plays fun pending => ?_
      have plays' := plays.holding pending
      show (perform seekBackward _).2 = _
      rw [perform_seekBackward, if_neg (by simp [plays'.playing]), plays'.cursor]
  | succ before =>
      refine does_of_seekTo (fun pending => ?_) (seekTo_does plays before)
      have plays' := plays.holding pending
      show perform seekBackward _ = _
      rw [perform_seekBackward, if_neg (by simp [plays'.playing]), plays'.cursor]
      rfl

theorem tick_does {place? : Option Nat} (stands : deck.timeline.Stands place?) (delta : ℚ) :
    (Call.tick delta).Does deck place? := by
  cases place? with
  | none =>
      refine ⟨[], none, .nothing none, fun pending => ?_⟩
      have rest : (deck.holding pending).timeline.AtRest := stands.holding pending
      obtain ⟨-, -, rest'⟩ := tick_atRest rest delta
      refine ⟨?_, rest'⟩
      rw [Call.on_tick, if_neg (by simp [rest.stopped])]
      exact (Tells.refl _).onTimeline rfl rfl
  | some index =>
      have plays : deck.timeline.PlaysAt index := stands
      obtain ⟨entry, found⟩ : ∃ entry, deck.timeline.entries[index]? = some entry :=
        ⟨_, List.getElem?_eq_getElem plays.within⟩
      have named : deck.timeline.handleAt? index = some entry.1 := by
        rw [Timeline.handleAt?, found, Option.map_some]
      have here := (Timeline.order_getElem? _ _).trans named
      have moves (pending) :
          (deck.holding pending).Tells ((deck.holding pending).ticked delta) [] :=
        (Tells.refl _).onTimeline rfl rfl
      have ends (pending) := (moves pending).ended found
      obtain early | late := lt_or_ge (deck.timeline.position + delta)
        (deck.timeline.offsetOf (index + 1))
      · refine ⟨[], some index, .nothing _, fun pending => ?_⟩
        have plays' := plays.holding pending
        obtain ⟨-, -, plays'', -⟩ := tick_within plays' early
        refine ⟨?_, plays''⟩
        rw [tick_within_eq plays' early]
        exact (moves pending).filled
      obtain next | last := Nat.lt_or_ge (index + 1) deck.timeline.size
      · obtain ⟨entry', found'⟩ : ∃ entry', deck.timeline.entries[index + 1]? = some entry' :=
          ⟨_, List.getElem?_eq_getElem next⟩
        have named' : deck.timeline.handleAt? (index + 1) = some entry'.1 := by
          rw [Timeline.handleAt?, found', Option.map_some]
        refine ⟨_, some (index + 1), .next here ((Timeline.order_getElem? _ _).trans named'),
          fun pending => ?_⟩
        have plays' := plays.holding pending
        obtain ⟨-, -, plays'', -⟩ := tick_across plays' late named named'
        refine ⟨?_, plays''⟩
        let ended := ((deck.holding pending).ticked delta).ended index entry
        let passed : Deck ℚ R S K := { ended with
          timeline := ended.timeline.passed (Scalar.ofNat (deck.timeline.offsetOf (index + 1))) }
        have passes : (deck.holding pending).Tells passed [.segmentStopped index entry.1] :=
          (ends pending).onTimeline rfl rfl
        have waiting : passed.timeline.entries[index + 1]? = some entry' :=
          (List.getElem?_set_ne (Nat.ne_of_lt index.lt_succ_self)).trans found'
        rw [tick_across_eq plays' late found found']
        exact (passes.begun waiting).filled
      · have size : deck.timeline.size = index + 1 := by
          have within := plays.within
          omega
        refine ⟨_, none, .finish here false, fun pending => ?_⟩
        have plays' := plays.holding pending
        obtain ⟨-, -, rest⟩ := tick_past plays' late named size
        refine ⟨?_, rest⟩
        rw [tick_past_eq plays' late found size]
        exact ⟨(ends pending).emits.trans ⟨rfl, rfl⟩, (ends pending).driven.finished false⟩

end Deck

/-- Every call of the transport and every tick tells a step of a performance. -/
theorem Call.does {call : Call ℚ R S} {place? : Option Nat}
    (stands : deck.timeline.Stands place?) (edits : ∀ change, call ≠ .edit change)
    (takes : ∀ count, call ≠ .takeEvents count) : call.Does deck place? := by
  have refused : place? = none → ∀ pending, (deck.holding pending).timeline.playing = false := by
    rintro rfl pending
    exact stands.stopped
  cases call with
  | edit change => exact absurd rfl (edits change)
  | takeEvents count => exact absurd rfl (takes count)
  | start => exact Deck.start_does stands
  | stop interrupted => exact Deck.stop_does stands interrupted
  | tick delta => exact Deck.tick_does stands delta
  | seekForward =>
      cases place? with
      | none =>
          refine does_nothing stands fun pending => ?_
          exact congrArg Prod.snd
            ((Deck.perform_seekForward _).trans (if_pos (refused rfl pending)))
      | some index => exact Deck.seekForward_does stands
  | seekBackward =>
      cases place? with
      | none =>
          refine does_nothing stands fun pending => ?_
          exact congrArg Prod.snd
            ((Deck.perform_seekBackward _).trans (if_pos (refused rfl pending)))
      | some index => exact Deck.seekBackward_does stands
  | seekTo target =>
      cases place? with
      | none =>
          refine does_nothing stands fun pending => ?_
          exact congrArg Prod.snd ((Deck.perform_seekTo _ _).trans (if_pos (refused rfl pending)))
      | some index => exact Deck.seekTo_does stands target

end

end

end Tonegraph
