import Tonegraph.Proofs.Rendering
import Tonegraph.Proofs.Rendering.Buffer
import Tonegraph.Proofs.Solo
/-!
# What a rendering records

The clock of a rendering is read once in a step, and its sums may round. Which segment plays after
how many steps is a matter of these readings alone: a `RenderPlan.Schedule` gives the step in which
each segment begins. All else is counting. Each segment is rendered into the device buffer as far as
there is room, once in every step, and `Device.shares` says how much of it that is.

The invariant is `Deck.Underway`: the segments before the one that plays have been recorded as far
as they found room, of that one a part, and so many frames are queued. A step keeps it
(`Deck.Underway.next`), or it was the last (`Deck.Underway.last`). So a rendering records the shares
of its segments, one after the other, whatever the clock rounds: `Timeline.render_eq_heard`.
-/

set_option autoImplicit false

namespace Tonegraph

/-! ## When segments begin -/

namespace RenderPlan

variable {T : Type}

/-- The buffer of a plan as a device. -/
def device [Scalar T] (plan : RenderPlan T) : Device where
  capacity := plan.capacity
  step := plan.framesPerTick
  step_le := le_max_right _ _

variable [Scalar T]

/-- What the clock shows after so many steps. -/
def timeAfter (plan : RenderPlan T) : Nat → T
  | 0 => Scalar.ofNat 0
  | ticks + 1 => plan.timeAfter ticks + plan.secondsPerTick

/-- The clock shows that a segment goes on: one that begins at a second and takes so many. -/
def GoesOn (plan : RenderPlan T) (offset seconds tick : Nat) : Prop :=
  plan.timeAfter tick - Scalar.ofNat offset < Scalar.ofNat seconds

/-- A segment that began in one step plays until another one. -/
structure Spans (plan : RenderPlan T) (offset seconds first last : Nat) : Prop where
  lt : first < last
  during : ∀ tick, first < tick → tick < last → plan.GoesOn offset seconds tick
  passed : ¬plan.GoesOn offset seconds last

variable {R S : Type}

/-- The steps in which the segments of a timeline begin, as the clock shows. The last of these steps
is the one in which the last segment ends, and the clock has come to the end of the timeline. -/
structure Schedule (plan : RenderPlan T) (tl : Timeline T R S) (begins : Nat → Nat) : Prop where
  first : begins 0 = 0
  spans {index : Nat} {entry : Handle × Segment R S} : tl.entries[index]? = some entry →
    plan.Spans (tl.offsetOf index) entry.2.runTime (begins index) (begins (index + 1))
  reached : tl.signedRunTime ≤ Clock.secondOf (plan.timeAfter (begins tl.size))

theorem Schedule.le_last {plan : RenderPlan T} {tl : Timeline T R S} {begins : Nat → Nat}
    (schedule : plan.Schedule tl begins) {index : Nat} (within : index ≤ tl.size) :
    begins index ≤ begins tl.size := by
  induction within using Nat.decreasingInduction with
  | self => exact Nat.le_refl _
  | of_succ index within ih =>
      exact (Nat.le_of_lt (schedule.spans (List.getElem?_eq_getElem within)).lt).trans ih

end RenderPlan

/-! ## What there is to record -/

variable {T R S : Type} [Scalar T] [Arithmetic R]

/-- What a segment has for the buffer that is filled so many times. -/
def Segment.part (s : Segment R S) (rate fills : Nat) : Part where
  fadeIn := s.rampSize (Scalar.ofInt s.window.start.toInt) rate
  content := rate * s.runTime
  fadeOut count := s.rampSize (s.timeOf rate count) rate
  fills := fills

namespace Timeline

/-- What the segment at a place has for the buffer. It is filled in each step from the one in which
the segment begins to the one before the next; the first segment begins before the first step. -/
def part (tl : Timeline T R S) (rate : Nat) (begins : Nat → Nat) (index : Nat) : Part :=
  (tl.entries[index]?).elim ⟨0, 0, fun _ => 0, 0⟩ fun entry =>
    entry.2.part rate (begins (index + 1) - max (begins index) 1)

variable {tl : Timeline T R S} {rate index : Nat} {entry : Handle × Segment R S}

omit [Scalar T] in
theorem part_of_found (found : tl.entries[index]? = some entry) (begins : Nat → Nat) :
    tl.part rate begins index =
      entry.2.part rate (begins (index + 1) - max (begins index) 1) := by
  rw [part, found, Option.elim_some]

end Timeline

/-- How much of each segment of a timeline finds room in the buffer of a plan. -/
def RenderPlan.shares (plan : RenderPlan T) (tl : Timeline T R S) (begins : Nat → Nat) :
    Nat → Share :=
  plan.device.shares (tl.part plan.rate.toNat begins)

theorem RenderPlan.shares_within (plan : RenderPlan T) (tl : Timeline T R S) (begins : Nat → Nat)
    (index : Nat) :
    (plan.shares tl begins index).Within (tl.part plan.rate.toNat begins index) :=
  Device.share_within _ _

variable [Scalar S] [Narrowing R S]

namespace Timeline

variable {tl : Timeline T R S} {rate index : Nat} {entry : Handle × Segment R S}

/-- The frames that are heard of the segments before a place, each with its share. -/
def heardBefore (tl : Timeline T R S) (rate : Nat) (shares : Nat → Share) (index : Nat) :
    List (Frame S) :=
  ((tl.entries.take index).mapIdx fun place entry => entry.2.heard rate (shares place)).flatten

omit [Scalar T] in
theorem heardBefore_succ (found : tl.entries[index]? = some entry) (shares : Nat → Share) :
    tl.heardBefore rate shares (index + 1) =
      tl.heardBefore rate shares index ++ entry.2.heard rate (shares index) := by
  have within := (List.getElem?_eq_some_iff.mp found).1
  rw [heardBefore, heardBefore, List.take_add_one, found, Option.toList_some, List.mapIdx_append,
    List.flatten_append, List.length_take, Nat.min_eq_left (Nat.le_of_lt within)]
  simp

omit [Scalar T] in
theorem heardBefore_congr {shares shares' : Nat → Share} (upto : index ≤ tl.size)
    (same : ∀ place < index, shares place = shares' place) :
    tl.heardBefore rate shares index = tl.heardBefore rate shares' index := by
  induction index with
  | zero => rfl
  | succ index ih =>
      have found := List.getElem?_eq_getElem upto
      rw [heardBefore_succ found, heardBefore_succ found, same index (Nat.lt_succ_self index),
        ih (Nat.le_of_succ_le upto) fun place sooner => same place (Nat.lt_succ_of_lt sooner)]

omit [Scalar T] in
/-- Segments that have found room for everything are heard whole. -/
theorem heardBefore_all (tl : Timeline T R S) (rate : Nat) (begins : Nat → Nat) :
    tl.heardBefore rate (fun index => (tl.part rate begins index).all) tl.size =
      tl.entries.flatMap fun entry => entry.2.whole rate := by
  have each : tl.entries.mapIdx (fun place entry => entry.2.heard rate
      (tl.part rate begins place).all) = tl.entries.map fun entry => entry.2.whole rate := by
    refine List.ext_getElem (by simp) fun index within _ => ?_
    have found := List.getElem?_eq_getElem (List.length_mapIdx ▸ within)
    rw [List.getElem_mapIdx, List.getElem_map, part_of_found found, Segment.whole_eq]
    rfl
  rw [heardBefore, size, List.take_length, each, List.flatMap]

end Timeline

/-! ## One segment in the buffer -/

namespace Deck

variable {tl : Timeline T R S} {plan : RenderPlan T} {shares : Nat → Share}
  {index content queued : Nat} {entry : Handle × Segment R S} {deck : Deck T R S (Recorder S)}

/-- The segments before a place have been recorded with their shares, and the one at the place up to
some of its content. So many frames are queued, and the later segments wait. -/
structure Sounding (tl : Timeline T R S) (plan : RenderPlan T) (shares : Nat → Share)
    (index : Nat) (entry : Handle × Segment R S) (content queued : Nat)
    (deck : Deck T R S (Recorder S)) : Prop where
  current : deck.timeline.entries[index]? =
    some (entry.1, entry.2.midway plan.rate.toNat (shares index).fadeIn content)
  later {place : Nat} : index < place → deck.timeline.entries[place]? = tl.entries[place]?
  holds : deck.sink.Holds plan.rate.toNat plan.capacity queued
    (tl.heardBefore plan.rate.toNat shares index ++
      entry.2.heardSoFar plan.rate.toNat (shares index).fadeIn content)

/-- Filling the buffer takes the next of the content. -/
theorem Sounding.filled (sounding : Sounding tl plan shares index entry content queued deck)
    (timely : entry.2.Timely plan.rate.toNat) (cursor : deck.timeline.cursor = .segment index)
    (bounded : queued ≤ plan.capacity) (left : content ≤ plan.rate.toNat * entry.2.runTime) :
    let more := min (plan.capacity - queued) (plan.rate.toNat * entry.2.runTime - content)
    Sounding tl plan shares index entry (content + more) (queued + more) (filled deck).2 := by
  intro more
  obtain ⟨after, holds⟩ := Segment.fill_holds timely left sounding.holds bounded
  have here := (List.getElem?_eq_some_iff.mp sounding.current).1
  rw [filled_eq cursor sounding.current]
  refine ⟨?_, fun later => ?_, holds⟩
  · exact (List.getElem?_set_self here).trans (congrArg (fun s => some (entry.1, s)) after)
  · exact (List.getElem?_set_ne (Nat.ne_of_lt later)).trans (sounding.later later)

theorem Sounding.consume (sounding : Sounding tl plan shares index entry content queued deck)
    (count : Nat) : Sounding tl plan shares index entry content (queued - count)
      { deck with sink := deck.sink.consume count } :=
  ⟨sounding.current, sounding.later, sounding.holds.consume count⟩

/-- Where the segment has come as far as its share says, stopping it completes the share. -/
theorem Sounding.stopped (sounding : Sounding tl plan shares index entry content queued deck)
    (found : tl.entries[index]? = some entry) (bounded : queued ≤ plan.capacity)
    (come : (shares index).content = content)
    (fadeOut : (shares index).fadeOut = min (entry.2.rampSize
      (entry.2.timeOf plan.rate.toNat content) plan.rate.toNat) (plan.capacity - queued)) :
    ((entry.2.midway plan.rate.toNat (shares index).fadeIn content).stopped deck.sink).2.Holds
      plan.rate.toNat plan.capacity (queued + (shares index).fadeOut)
      (tl.heardBefore plan.rate.toNat shares (index + 1)) := by
  subst come
  have stopped := Segment.stopped_holds sounding.holds bounded
  rw [← fadeOut] at stopped
  rw [Timeline.heardBefore_succ found]
  exact stopped

/-- A segment that starts behind the shares of those before it. -/
theorem begun_sounding {between : Deck T R S (Recorder S)}
    (found : tl.entries[index]? = some entry)
    (waiting : ∀ {place}, index ≤ place → between.timeline.entries[place]? = tl.entries[place]?)
    (holds : between.sink.Holds plan.rate.toNat plan.capacity queued
      (tl.heardBefore plan.rate.toNat shares index)) (bounded : queued ≤ plan.capacity)
    (fadeIn : (shares index).fadeIn = min (entry.2.rampSize
      (Scalar.ofInt entry.2.window.start.toInt) plan.rate.toNat) (plan.capacity - queued)) :
    Sounding tl plan shares index entry 0 (queued + (shares index).fadeIn)
      (between.begun index entry) := by
  obtain ⟨opened, started⟩ := Segment.started_holds (s := entry.2) holds bounded
  rw [← fadeIn] at opened started
  have here := (List.getElem?_eq_some_iff.mp ((waiting (Nat.le_refl index)).trans found)).1
  refine ⟨?_, fun later => ?_, started⟩
  · exact (List.getElem?_set_self here).trans (congrArg (fun s => some (entry.1, s)) opened)
  · exact (List.getElem?_set_ne (Nat.ne_of_lt later)).trans (waiting (Nat.le_of_lt later))

/-! ## The invariant -/

/-- The buffer has been filled so many times from the segment at a place. -/
abbrev SoundingAfter (tl : Timeline T R S) (plan : RenderPlan T) (begins : Nat → Nat) (index : Nat)
    (entry : Handle × Segment R S) (fills : Nat) (deck : Deck T R S (Recorder S)) : Prop :=
  let parts := tl.part plan.rate.toNat begins
  Sounding tl plan (plan.shares tl begins) index entry (plan.device.contentAfter parts index fills)
    (plan.device.queuedAfter parts index fills) deck

/-- A segment that starts where the shares of all before it have been recorded. -/
theorem begun_soundingAfter {begins : Nat → Nat} {between : Deck T R S (Recorder S)}
    (found : tl.entries[index]? = some entry)
    (waiting : ∀ {place}, index ≤ place → between.timeline.entries[place]? = tl.entries[place]?)
    (holds : between.sink.Holds plan.rate.toNat plan.capacity
      (plan.device.queuedBefore (tl.part plan.rate.toNat begins) index)
      (tl.heardBefore plan.rate.toNat (plan.shares tl begins) index)) :
    SoundingAfter tl plan begins index entry 0 (between.begun index entry) := by
  let parts := tl.part plan.rate.toNat begins
  have part : parts index = entry.2.part plan.rate.toNat _ := Timeline.part_of_found found begins
  have fadeIn : (plan.shares tl begins index).fadeIn = min (entry.2.rampSize
      (Scalar.ofInt entry.2.window.start.toInt) plan.rate.toNat)
      (plan.capacity - plan.device.queuedBefore parts index) :=
    congrArg₂ min (congrArg Part.fadeIn part) rfl
  rw [SoundingAfter, Device.contentAfter_zero, Device.queuedAfter_zero]
  exact begun_sounding found waiting holds (Device.queuedBefore_le _ _ index) fadeIn

/-- After so many steps the segment at a place plays. The buffer has been filled from it in each step
since it began, and what is queued is what that leaves. -/
structure Underway (tl : Timeline T R S) (plan : RenderPlan T) (begins : Nat → Nat)
    (tick index : Nat) (entry : Handle × Segment R S) (deck : Deck T R S (Recorder S)) : Prop where
  found : tl.entries[index]? = some entry
  plays : deck.timeline.PlaysAt index
  outline : deck.timeline.outline = tl.outline
  position : deck.timeline.position = plan.timeAfter tick
  since : begins index ≤ tick
  before : tick < begins (index + 1)
  sounding : SoundingAfter tl plan begins index entry (tick + 1 - max (begins index) 1) deck

variable {begins : Nat → Nat} {tick : Nat}

theorem turned_eq {delta : T} {after : Deck T R S (Recorder S)}
    (performed : (Call.tick delta).on deck = (.ok (), after)) (frames : Nat) :
    deck.turned delta frames = { after with sink := after.sink.consume frames } := by
  rw [turned, performed]

/-- The segment goes on after a step if the clock shows so. -/
theorem Underway.goesOn_iff (under : Underway tl plan begins tick index entry deck) :
    (deck.ticked plan.secondsPerTick).timeline.GoesOn index ↔
      plan.GoesOn (tl.offsetOf index) entry.2.runTime (tick + 1) := by
  obtain ⟨ticked, position, -⟩ := ticked_playsAt under.plays plan.secondsPerTick
  have same := entry.2.midway_samePiece plan.rate.toNat (plan.shares tl begins index).fadeIn
  have current : (deck.ticked plan.secondsPerTick).timeline.entries[index]? = _ :=
    under.sounding.current
  have outline : (deck.ticked plan.secondsPerTick).timeline.outline = tl.outline := under.outline
  rw [Timeline.position, under.position] at position
  rw [Timeline.GoesOn, ticked.measures.elapsedTime, position, Timeline.segmentAt?, current,
    Timeline.offsetOf_of_outline outline]
  simp only [Option.map_some, Option.getD_some, (same _).runTime]
  rfl

/-- Filling the buffer from the segment that plays, and playing a step of it. -/
theorem SoundingAfter.succ {fills : Nat} (found : tl.entries[index]? = some entry)
    (timely : entry.2.Timely plan.rate.toNat) (cursor : deck.timeline.cursor = .segment index)
    (sounding : SoundingAfter tl plan begins index entry fills deck) :
    SoundingAfter tl plan begins index entry (fills + 1) { (filled deck).2 with
      sink := (filled deck).2.sink.consume plan.framesPerTick } := by
  let parts := tl.part plan.rate.toNat begins
  have all : (parts index).content = plan.rate.toNat * entry.2.runTime :=
    congrArg Part.content (Timeline.part_of_found found begins)
  have content := plan.device.contentAfter_le parts index fills
  have queued := plan.device.queuedAfter_le parts index fills
  obtain ⟨more, less⟩ := plan.device.after_succ parts index fills
  rw [all] at content more less
  rw [SoundingAfter, more, less]
  exact (sounding.filled timely cursor queued content).consume plan.framesPerTick

/-- A segment that goes on is underway after the next step. -/
theorem Underway.goesOn (under : Underway tl plan begins tick index entry deck)
    (timely : entry.2.Timely plan.rate.toNat)
    (goesOn : plan.GoesOn (tl.offsetOf index) entry.2.runTime (tick + 1))
    (before : tick + 1 < begins (index + 1)) :
    (∃ a, ((Call.tick plan.secondsPerTick).on deck).1 = .ok a) ∧
      Underway tl plan begins (tick + 1) index entry
        (deck.turned plan.secondsPerTick plan.framesPerTick) := by
  have goesOn := under.goesOn_iff.mpr goesOn
  obtain ⟨granted, emits, plays, position⟩ := tick_goesOn under.plays goesOn
  have performed := tick_goesOn_eq under.plays goesOn
  rw [performed] at emits plays position
  have since := under.since
  have fills : tick + 1 + 1 - max (begins index) 1 = tick + 1 - max (begins index) 1 + 1 := by
    omega
  have ticked : SoundingAfter tl plan begins index entry (tick + 1 - max (begins index) 1)
      (deck.ticked plan.secondsPerTick) :=
    ⟨under.sounding.current, under.sounding.later, under.sounding.holds⟩
  rw [turned_eq performed]
  refine ⟨granted, under.found, plays, emits.outline.trans under.outline, ?_, by omega, before, ?_⟩
  · rw [RenderPlan.timeAfter, ← under.position]
    exact position
  · rw [fills]
    exact ticked.succ under.found timely under.plays.cursor

/-- A segment that ends has had its share. -/
theorem Underway.ended (under : Underway tl plan begins tick index entry deck)
    (ends : begins (index + 1) = tick + 1) :
    let parts := tl.part plan.rate.toNat begins
    ((deck.ticked plan.secondsPerTick).ended index (entry.1, entry.2.midway plan.rate.toNat
        (plan.shares tl begins index).fadeIn
        (plan.device.contentAfter parts index (tick + 1 - max (begins index) 1)))).sink.Holds
      plan.rate.toNat plan.capacity (plan.device.queuedBefore parts (index + 1))
      (tl.heardBefore plan.rate.toNat (plan.shares tl begins) (index + 1)) := by
  intro parts
  have part : parts index =
      entry.2.part plan.rate.toNat (begins (index + 1) - max (begins index) 1) :=
    Timeline.part_of_found under.found begins
  have fills : tick + 1 - max (begins index) 1 = (parts index).fills := by
    rw [part, ← ends]
    rfl
  have sounding := under.sounding
  rw [fills] at sounding ⊢
  refine sounding.stopped under.found (plan.device.queuedAfter_le parts index _) rfl ?_
  have fadeOut : (parts index).fadeOut = fun count =>
    entry.2.rampSize (entry.2.timeOf plan.rate.toNat count) plan.rate.toNat :=
      congrArg Part.fadeOut part
  exact congrArg₂ min (congrFun fadeOut _) rfl

/-- A segment gives way to the next, which is underway after the same step. -/
theorem Underway.crosses (under : Underway tl plan begins tick index entry deck)
    (ran : ¬plan.GoesOn (tl.offsetOf index) entry.2.runTime (tick + 1))
    (ends : begins (index + 1) = tick + 1) {next : Handle × Segment R S}
    (found : tl.entries[index + 1]? = some next) (timely : next.2.Timely plan.rate.toNat)
    (lt : begins (index + 1) < begins (index + 1 + 1)) :
    (∃ a, ((Call.tick plan.secondsPerTick).on deck).1 = .ok a) ∧
      Underway tl plan begins (tick + 1) (index + 1) next
        (deck.turned plan.secondsPerTick plan.framesPerTick) := by
  have ran := mt under.goesOn_iff.mp ran
  obtain ⟨handle, named⟩ := Timeline.exists_handleAt? under.plays.within
  have waiting := (under.sounding.later index.lt_succ_self).trans found
  obtain ⟨handle', named'⟩ :=
    Timeline.exists_handleAt? (List.getElem?_eq_some_iff.mp waiting).1
  obtain ⟨granted, emits, plays, position⟩ := tick_over under.plays ran named named'
  have performed := tick_over_eq under.plays ran under.sounding.current waiting
  rw [performed] at emits plays position
  rw [turned_eq performed]
  refine ⟨granted, found, plays, emits.outline.trans under.outline, ?_, by omega, by omega, ?_⟩
  · rw [RenderPlan.timeAfter, ← under.position]
    exact position
  · have fills : tick + 1 + 1 - max (begins (index + 1)) 1 = 0 + 1 := by omega
    rw [fills]
    refine SoundingAfter.succ found timely rfl (begun_soundingAfter found (fun {place} onward => ?_)
      (under.ended ends))
    have later : index < place := onward
    exact (List.getElem?_set_ne (Nat.ne_of_lt later)).trans (under.sounding.later later)

/-- After the last segment a rendering is over. -/
theorem Underway.last (under : Underway tl plan begins tick index entry deck)
    (ran : ¬plan.GoesOn (tl.offsetOf index) entry.2.runTime (tick + 1))
    (ends : begins (index + 1) = tick + 1) (size : tl.size = index + 1)
    (reached : tl.signedRunTime ≤ Clock.secondOf (plan.timeAfter (tick + 1))) :
    (∃ a, ((Call.tick plan.secondsPerTick).on deck).1 = .ok a) ∧
      (deck.turned plan.secondsPerTick plan.framesPerTick).timeline.playing = false ∧
      (deck.turned plan.secondsPerTick plan.framesPerTick).sink.frames.toList =
        tl.heardBefore plan.rate.toNat (plan.shares tl begins) tl.size := by
  have ran := mt under.goesOn_iff.mp ran
  have reached : deck.timeline.signedRunTime ≤
      Clock.secondOf (deck.timeline.position + plan.secondsPerTick) := by
    rw [Timeline.signedRunTime_of_outline under.outline, under.position]
    exact reached
  have performed := tick_last_eq under.plays ran reached under.sounding.current
    ((Timeline.size_of_outline under.outline).trans size)
  rw [turned_eq performed, size]
  exact ⟨⟨(), congrArg Prod.fst performed⟩, rfl, (under.ended ends).frames⟩

/-- What a step does: the segment goes on, it gives way to the next one, or it was the last one and
the shares of all segments have been recorded. -/
theorem Underway.next (schedule : plan.Schedule tl begins)
    (timely : ∀ entry ∈ tl.entries, entry.2.Timely plan.rate.toNat)
    (under : Underway tl plan begins tick index entry deck) :
    let after := deck.turned plan.secondsPerTick plan.framesPerTick
    (∃ a, ((Call.tick plan.secondsPerTick).on deck).1 = .ok a) ∧
      ((∃ index' entry', Underway tl plan begins (tick + 1) index' entry' after) ∨
        after.timeline.playing = false ∧ after.sink.frames.toList =
          tl.heardBefore plan.rate.toNat (plan.shares tl begins) tl.size) := by
  have since := under.since
  have before := under.before
  have within := (List.getElem?_eq_some_iff.mp under.found).1
  have spans := schedule.spans under.found
  obtain early | late := Nat.lt_or_ge (tick + 1) (begins (index + 1))
  · obtain ⟨granted, onward⟩ := under.goesOn (timely _ (List.mem_of_getElem? under.found))
      (spans.during (tick + 1) (by omega) early) early
    exact ⟨granted, .inl ⟨index, entry, onward⟩⟩
  · have ends : begins (index + 1) = tick + 1 := by omega
    have ran := ends ▸ spans.passed
    obtain next | last := Nat.lt_or_ge (index + 1) tl.size
    · have found := List.getElem?_eq_getElem next
      obtain ⟨granted, onward⟩ := under.crosses ran ends found
        (timely _ (List.mem_of_getElem? found)) (schedule.spans found).lt
      exact ⟨granted, .inl ⟨index + 1, _, onward⟩⟩
    · have size : tl.size = index + 1 := Nat.le_antisymm last within
      have reached := schedule.reached
      rw [size, ends] at reached
      obtain ⟨granted, ended⟩ := under.last ran ends size reached
      exact ⟨granted, .inr ended⟩

/-- When a timeline that is stopped and silent has been started, its first segment is underway. -/
theorem start_underway (schedule : plan.Schedule tl begins) (stopped : tl.playing = false)
    (silent : Timeline.Sounds tl.entries none) (found : tl.entries[0]? = some entry) :
    ∃ begun, perform start ⟨tl, .ofCapacity plan.rate.toNat plan.capacity⟩ = (.ok (), begun) ∧
      Underway tl plan begins 0 0 entry begun := by
  let blank : Deck T R S (Recorder S) := ⟨tl, .ofCapacity plan.rate.toNat plan.capacity⟩
  have named : tl.handleAt? 0 = some entry.1 := by rw [Timeline.handleAt?, found, Option.map_some]
  have performed : perform start blank = (.ok (), begun ⟨tl.rewound, blank.sink⟩ 0 entry) := by
    rw [start_eq stopped named]
    exact startAt_eq silent found
  obtain ⟨-, emits, plays, position⟩ := start_yields blank stopped silent named
  rw [performed] at emits plays position
  have first := schedule.first
  have fills : 0 + 1 - max (begins 0) 1 = 0 := by omega
  refine ⟨_, performed, found, plays, emits.outline, position, by omega, ?_, ?_⟩
  · have after := (schedule.spans found).lt
    rwa [first] at after
  · rw [fills]
    exact begun_soundingAfter found (fun _ => rfl) (Recorder.ofCapacity_holds _ _)

end Deck

/-- **What a rendering records.** A timeline that is stopped and idle is rendered to the shares of
its segments, one after the other, if there are steps enough. This is so for any clock, when the
steps in which segments begin are those that the clock shows. -/
theorem Timeline.render_eq_heard {tl : Timeline T R S} {plan : RenderPlan T} {begins : Nat → Nat}
    (stopped : tl.playing = false) (silent : Sounds tl.entries none) (nonempty : tl.entries ≠ [])
    (timely : ∀ entry ∈ tl.entries, entry.2.Timely plan.rate.toNat)
    (schedule : plan.Schedule tl begins) (enough : begins tl.size ≤ plan.maxTicks) :
    ∃ frames, tl.render plan = .ok frames ∧
      frames.toList = tl.heardBefore plan.rate.toNat (plan.shares tl begins) tl.size := by
  have found := List.getElem?_eq_getElem (List.length_pos_iff.mpr nonempty)
  obtain ⟨begun, started, underway⟩ := Deck.start_underway schedule stopped silent found
  let so := fun tick deck => ∃ index entry, Deck.Underway tl plan begins tick index entry deck
  have early : ∀ {tick deck}, so tick deck → tick < begins tl.size := by
    rintro tick deck ⟨index, entry, under⟩
    exact under.before.trans_le (schedule.le_last (List.getElem?_eq_some_iff.mp under.found).1)
  obtain ⟨final, performed, ended⟩ := Deck.runTicks_of_steps so
    (fun deck => deck.sink.frames.toList = tl.heardBefore plan.rate.toNat (plan.shares tl begins)
      tl.size) early
    (fun ⟨_, _, under⟩ => under.plays.playing)
    (fun ⟨_, _, under⟩ => under.next schedule timely)
    ⟨0, _, underway⟩ enough
  exact ⟨final.sink.frames, render_of_runTicks started performed, ended⟩

end Tonegraph
