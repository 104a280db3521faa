import Mathlib.Data.List.InsertIdx
import Tonegraph.Arithmetic.FloatingPoint
import Tonegraph.Proofs.Deck.Effects
import Tonegraph.Sink.Ring
/-!
# The calls of a host, and the timelines they lead to

A host edits a timeline, plays it, ticks it and takes its events. `Edit` and `Call` are these
operations as data, `Call.run` is what they do on a deck, and `Timeline.Reached` holds of every
timeline that calls lead to from the empty one. Each call may come with a sink of its own, of any
kind, and it counts whether it succeeds or is refused.
-/

set_option autoImplicit false

namespace Tonegraph

/-- A change of the list of segments. -/
inductive Edit (R S : Type) where
  | push (segment : Segment R S)
  | insert (index : Nat) (segment : Segment R S)
  | remove (handle : Handle)
  | moveTo (handle : Handle) (index : Nat)
  | setWindow (handle : Handle) (start stop : Int32)
  | reset

/-- A call that a host makes on a timeline. -/
inductive Call (T R S : Type) where
  | edit (change : Edit R S)
  | start
  | stop (interrupted : Bool)
  | seekForward
  | seekBackward
  | seekTo (index : Nat)
  | tick (delta : T)
  | takeEvents (count : Nat)

namespace Edit

variable {T R S : Type} [Scalar T]

/-- What an edit makes of a timeline. -/
def apply (tl : Timeline T R S) : Edit R S → Except TransportError (Timeline T R S)
  | .push segment => (tl.push segment).map (·.2)
  | .insert index segment => (tl.insert index segment).map (·.2)
  | .remove handle => (tl.remove handle).map (·.2)
  | .moveTo handle index => tl.moveTo handle index
  | .setWindow handle start stop => tl.setWindow handle start stop
  | .reset => tl.reset

/-- A segment that an edit brings in is so. -/
def Inserts (so : Segment R S → Prop) : Edit R S → Prop
  | .push segment | .insert _ segment => so segment
  | _ => True

theorem apply_of_playing {tl : Timeline T R S} (playing : tl.playing = true) (edit : Edit R S) :
    edit.apply tl = .error .playing := by
  have refused : tl.ensureStopped = .error .playing := by simp [Timeline.ensureStopped, playing]
  cases edit <;>
    simp [apply, Timeline.push, Timeline.insert, Timeline.remove, Timeline.moveTo,
      Timeline.setWindow, Timeline.reset, refused, bind, Except.bind, Except.map]

theorem of_mem_insertIdx {so : Segment R S → Prop} {entries : List (Handle × Segment R S)}
    {index : Nat} {handle : Handle} {segment : Segment R S} (all : ∀ e ∈ entries, so e.2)
    (new : so segment) : ∀ e ∈ entries.insertIdx index (handle, segment), so e.2 := by
  intro e member
  obtain rfl | old := List.eq_or_mem_of_mem_insertIdx member
  · exact new
  · exact all e old

/-- An edit gives a timeline that does not play other entries, or all of it begins anew. What holds
of its segments and of what the edit brings in, and is kept by another window, holds after it. -/
theorem apply_of_stopped {so : Segment R S → Prop} {tl after : Timeline T R S} {edit : Edit R S}
    (stopped : tl.playing = false) (all : ∀ e ∈ tl.entries, so e.2) (inserts : edit.Inserts so)
    (windowed : ∀ {segment changed : Segment R S} {start stop : Int32},
      segment.setWindow start stop = .ok changed → so segment → so changed)
    (applied : edit.apply tl = .ok after) :
    ∃ entries issued, (∀ e ∈ entries, so e.2) ∧
      (after = { tl with entries, issued } ∨
        after = { (Timeline.empty : Timeline T R S) with entries, issued }) := by
  cases edit with
  | push segment =>
      rw [apply, Timeline.push_of_stopped stopped] at applied
      cases applied
      exact ⟨_, _, of_mem_insertIdx all inserts, .inl rfl⟩
  | insert index segment =>
      rw [apply, Timeline.insert_of_stopped stopped] at applied
      split at applied
      · cases applied
      · cases applied
        exact ⟨_, _, of_mem_insertIdx all inserts, .inl rfl⟩
  | remove handle =>
      rw [apply, Timeline.remove_of_stopped stopped] at applied
      split at applied
      · cases applied
      · cases applied
        exact ⟨_, _, fun e member => all e (List.mem_filter.mp member).1, .inl rfl⟩
  | moveTo handle index =>
      rw [apply, Timeline.moveTo_of_stopped stopped] at applied
      split at applied
      · cases applied
      · rename_i entry found
        split at applied
        · cases applied
        · cases applied
          have others : ∀ e ∈ tl.entries.filter fun e => e.1 ≠ handle, so e.2 :=
            fun e member => all e (List.mem_filter.mp member).1
          have moved : so entry.2 := all entry (List.mem_of_find?_eq_some found)
          exact ⟨_, _, of_mem_insertIdx others moved, .inl rfl⟩
  | setWindow handle start stop =>
      rw [apply, Timeline.setWindow_of_stopped stopped] at applied
      split at applied
      · cases applied
      · rename_i segment found
        split at applied
        · cases applied
        · rename_i changed changing
          cases applied
          have present : so segment := by
            obtain ⟨entry, listed, rfl⟩ := Option.map_eq_some_iff.mp found
            exact all entry (List.mem_of_find?_eq_some listed)
          refine ⟨_, _, fun e member => ?_, .inl rfl⟩
          obtain ⟨old, among, rfl⟩ := List.mem_map.mp member
          split
          · exact windowed changing present
          · exact all old among
  | reset =>
      rw [apply, Timeline.reset_of_stopped stopped] at applied
      cases applied
      exact ⟨[], _, by simp, .inr rfl⟩

end Edit

namespace Call

variable {T R S K : Type} [Scalar T] [Arithmetic R] [Scalar S] [Narrowing R S] [FrameSink K S]

/-- What a call does on a deck. -/
def run : Call T R S → Transport T R S K Unit
  | .edit change => do
    match change.apply (← Deck.getTimeline) with
    | .error e => throw e
    | .ok tl => Deck.modifyTimeline fun _ => tl
  | .start => Deck.start
  | .stop interrupted => Deck.stop interrupted
  | .seekForward => Deck.seekForward
  | .seekBackward => Deck.seekBackward
  | .seekTo index => Deck.seekTo index
  | .tick delta => do let _ ← Deck.tick delta
  | .takeEvents count => Deck.modifyTimeline fun tl => (tl.takeEvents count).2

/-- A segment that a call brings in is idle. -/
def InsertsIdle : Call T R S → Prop
  | .edit change => change.Inserts fun segment => segment.playing = false
  | _ => True

/-- The calls of the transport. -/
def IsTransport : Call T R S → Prop
  | .start | .stop _ | .seekForward | .seekBackward | .seekTo _ => True
  | _ => False

/-- What a call gives on a deck, and the deck after it. -/
def on (call : Call T R S) (deck : Deck T R S K) : Except TransportError Unit × Deck T R S K :=
  Deck.perform call.run deck

/-- The events that a call emits on a deck: what it leaves to be taken when there was nothing. -/
def emitted (call : Call T R S) (deck : Deck T R S K) : List PlaybackEvent :=
  (call.on { deck with timeline := deck.timeline.drain.2 }).2.timeline.events

theorem on_edit (change : Edit R S) (deck : Deck T R S K) :
    (Call.edit change).on deck =
      match change.apply deck.timeline with
      | .error e => (.error e, deck)
      | .ok tl => (.ok (), { deck with timeline := tl }) := by
  simp only [on, run, Deck.perform_bind, Deck.perform_getTimeline]
  cases change.apply deck.timeline <;> rfl

theorem on_start (deck : Deck T R S K) : Call.start.on deck = Deck.perform Deck.start deck := rfl

theorem on_tick (delta : T) (deck : Deck T R S K) :
    (Call.tick delta).on deck =
      if deck.timeline.playing then
        match Deck.perform Deck.step (deck.ticked delta) with
        | (.ok (), after) => (.ok (), (Deck.filled after).2)
        | (.error e, after) => (.error e, after)
      else (.ok (), deck.ticked delta) := by
  simp only [on, run, Deck.perform_bind, Deck.perform_tick]
  cases deck.timeline.playing with
  | false => rfl
  | true => rcases Deck.perform Deck.step (deck.ticked delta) with ⟨_ | _, _⟩ <;> rfl

end Call

/-- The deck after one call after the other. -/
def Deck.after {T R S K : Type} [Scalar T] [Arithmetic R] [Scalar S] [Narrowing R S]
    [FrameSink K S] (calls : List (Call T R S)) (deck : Deck T R S K) : Deck T R S K :=
  calls.foldl (fun deck call => (call.on deck).2) deck

/-- The timelines that a host comes to from an empty one by calls that it is allowed to make. -/
inductive Timeline.Reached {T R S : Type} [Scalar T] [Arithmetic R] [Scalar S] [Narrowing R S]
    (allowed : Call T R S → Prop) : Timeline T R S → Prop
  | empty : Reached allowed .empty
  | call {tl : Timeline T R S} (call : Call T R S) {K : Type} [FrameSink K S] (sink : K) :
      Reached allowed tl → allowed call → Reached allowed (call.on ⟨tl, sink⟩).2.timeline

/-- One call after the other on a deck leads on. -/
theorem Timeline.Reached.after {T R S K : Type} [Scalar T] [Arithmetic R] [Scalar S]
    [Narrowing R S] [FrameSink K S] {allowed : Call T R S → Prop} {deck : Deck T R S K}
    (reached : deck.timeline.Reached allowed) {calls : List (Call T R S)}
    (all : ∀ call ∈ calls, allowed call) : (Deck.after calls deck).timeline.Reached allowed := by
  induction calls generalizing deck with
  | nil => exact reached
  | cons call rest ih =>
      have next := reached.call call deck.sink (all call List.mem_cons_self)
      exact ih next fun call member => all call (List.mem_cons_of_mem _ member)

/-! ## A small timeline -/

namespace Timeline

variable {T R S : Type} [Scalar T]

/-- The timeline of one segment. -/
def ofSegment (segment : Segment R S) : Timeline T R S :=
  { (empty : Timeline T R S) with entries := [(⟨0⟩, segment)], issued := 1 }

theorem ofSegment_reached [Arithmetic R] [Scalar S] [Narrowing R S] {allowed : Call T R S → Prop}
    {segment : Segment R S} (pushing : allowed (.edit (.push segment))) :
    (ofSegment segment).Reached allowed :=
  .call (.edit (.push segment)) (Ring.ofCapacity 1 1 : Ring S) .empty pushing

end Timeline

end Tonegraph
