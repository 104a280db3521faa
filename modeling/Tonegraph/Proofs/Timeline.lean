import Mathlib.Algebra.GroupWithZero.Nat
import Tonegraph.Timeline
import Tonegraph.Proofs.Segment
/-!
# What playing leaves alone on a timeline, and what it changes

The outline of a timeline is its handles with the run times of their segments, in the order of
playing. Places, offsets and the length of the timeline are read off the outline, and putting a
segment with the same piece in the place of another leaves it as it is.

`Timeline.Sounds` says which segment plays, if any. `Timeline.enqueue` is what one event does to
the events not yet taken, and `Timeline.Emits` what playing is, seen from outside: the outline stays
and some events are emitted.
-/

set_option autoImplicit false

namespace Tonegraph.Timeline

variable {T R S : Type}

/-! ## The outline -/

/-- The handles and run times, in the order of playing. -/
def outline (tl : Timeline T R S) : List (Handle × Nat) :=
  tl.entries.map fun entry => (entry.1, entry.2.runTime)

theorem seconds_eq (entries : List (Handle × Segment R S)) :
    seconds entries = (entries.map fun entry => entry.2.runTime).sum := by
  induction entries with
  | nil => rfl
  | cons entry rest ih => simp [seconds, ih]

theorem size_eq_outline (tl : Timeline T R S) : tl.size = tl.outline.length := by
  simp [size, outline]

theorem offsetOf_eq_outline (tl : Timeline T R S) (index : Nat) :
    tl.offsetOf index = ((tl.outline.take index).map (·.2)).sum := by
  simp [offsetOf, seconds_eq, outline, List.map_take, Function.comp_def]

theorem runTime_eq_offsetOf (tl : Timeline T R S) : tl.runTime = tl.offsetOf tl.size := by
  simp [runTime, offsetOf, size]

theorem handleAt?_eq_outline (tl : Timeline T R S) (index : Nat) :
    tl.handleAt? index = tl.outline[index]?.map (·.1) := by
  simp [handleAt?, outline, Function.comp_def]

theorem order_eq_outline (tl : Timeline T R S) : tl.order = tl.outline.map (·.1) := by
  simp [order, outline, Function.comp_def]

section Outline

variable {a b : Timeline T R S} (same : a.outline = b.outline)

include same

theorem size_of_outline : a.size = b.size := by
  rw [size_eq_outline, size_eq_outline, same]

theorem offsetOf_of_outline (index : Nat) : a.offsetOf index = b.offsetOf index := by
  rw [offsetOf_eq_outline, offsetOf_eq_outline, same]

theorem runTime_of_outline : a.runTime = b.runTime := by
  rw [runTime_eq_offsetOf, runTime_eq_offsetOf, size_of_outline same, offsetOf_of_outline same]

theorem signedRunTime_of_outline : a.signedRunTime = b.signedRunTime := by
  rw [signedRunTime, signedRunTime, runTime_of_outline same]

theorem handleAt?_of_outline (index : Nat) : a.handleAt? index = b.handleAt? index := by
  rw [handleAt?_eq_outline, handleAt?_eq_outline, same]

theorem order_of_outline : a.order = b.order := by
  rw [order_eq_outline, order_eq_outline, same]

end Outline

/-- The segment after a place begins when the one at the place has run. -/
theorem offsetOf_succ {tl : Timeline T R S} {index : Nat} {entry : Handle × Segment R S}
    (found : tl.entries[index]? = some entry) :
    tl.offsetOf (index + 1) = tl.offsetOf index + entry.2.runTime := by
  simp [offsetOf, seconds_eq, List.take_add_one, found]

theorem offsetOf_le_runTime (tl : Timeline T R S) (index : Nat) :
    tl.offsetOf index ≤ tl.runTime := by
  have parts : tl.runTime = tl.offsetOf index + seconds (tl.entries.drop index) := by
    rw [runTime, offsetOf, seconds_eq, seconds_eq, seconds_eq, ← List.sum_append,
      ← List.map_append, List.take_append_drop]
  omega

theorem runTime_le_of_mem {tl : Timeline T R S} {entry : Handle × Segment R S}
    (member : entry ∈ tl.entries) : entry.2.runTime ≤ tl.runTime := by
  obtain ⟨index, found⟩ := List.mem_iff_getElem?.mp member
  have bound := tl.offsetOf_le_runTime (index + 1)
  rw [offsetOf_succ found] at bound
  omega

/-- Putting an item in the place of another leaves all that they share. -/
theorem map_set_of_same {α β : Type} {items : List α} {index : Nat} {old new : α} {f : α → β}
    (found : items[index]? = some old) (same : f new = f old) :
    (items.set index new).map f = items.map f := by
  obtain ⟨within, rfl⟩ := List.getElem?_eq_some_iff.mp found
  have within' : index < (items.map f).length := by simpa using within
  rw [List.map_set, same, ← List.getElem_map f (h := within'), List.set_getElem_self]

/-- Putting a segment back with the same piece leaves the outline. -/
theorem outline_set {entries : List (Handle × Segment R S)} {index : Nat}
    {entry : Handle × Segment R S} (found : entries[index]? = some entry) {segment : Segment R S}
    (same : segment.SamePiece entry.2) :
    ((entries.set index (entry.1, segment)).map fun e => (e.1, e.2.runTime)) =
      entries.map fun e => (e.1, e.2.runTime) :=
  map_set_of_same found (by rw [same.runTime])

/-- The length of a timeline as a signed number is at most its length, and fits 64 bits. -/
theorem signedRunTime_le (tl : Timeline T R S) :
    tl.signedRunTime ≤ tl.runTime ∧ tl.signedRunTime ≤ Int64.maxValue.toInt := by
  have wrapped : tl.signedRunTime = (tl.runTime : Int).bmod Int64.size := Int64.toInt_ofNat'
  have most : Int64.maxValue.toInt = 9223372036854775807 := by decide
  have size : (Int64.size : Int) = 18446744073709551616 := rfl
  rw [wrapped, most, Int.bmod, size]
  split <;> omega

/-- The handle at a place and the entry that it names. -/
theorem entry_of_handleAt? {tl : Timeline T R S} {index : Nat} {handle : Handle}
    (named : tl.handleAt? index = some handle) :
    ∃ segment, tl.entries[index]? = some (handle, segment) := by
  simp only [handleAt?, Option.map_eq_some_iff] at named
  obtain ⟨⟨_, segment⟩, found, rfl⟩ := named
  exact ⟨segment, found⟩

theorem lt_size_of_handleAt? {tl : Timeline T R S} {index : Nat} {handle : Handle}
    (named : tl.handleAt? index = some handle) : index < tl.size := by
  obtain ⟨_, found⟩ := entry_of_handleAt? named
  exact (List.getElem?_eq_some_iff.mp found).1

theorem exists_handleAt? {tl : Timeline T R S} {index : Nat} (within : index < tl.size) :
    ∃ handle, tl.handleAt? index = some handle := by
  have found : tl.entries[index]? = some tl.entries[index] := List.getElem?_eq_getElem within
  exact ⟨_, by rw [handleAt?, found, Option.map_some]⟩

/-! ## Edits of a timeline that does not play -/

section Edits

variable {tl : Timeline T R S} (stopped : tl.playing = false)

include stopped

theorem ensureStopped_of_stopped : tl.ensureStopped = .ok () := by
  simp [ensureStopped, stopped]

theorem insert_of_stopped (index : Nat) (segment : Segment R S) :
    tl.insert index segment =
      if tl.size < index then .error (.outOfRange index tl.size)
      else .ok (⟨tl.issued⟩, { tl with
        entries := tl.entries.insertIdx index (⟨tl.issued⟩, segment)
        issued := tl.issued + 1 }) := by
  rw [insert, ensureStopped_of_stopped stopped]
  by_cases beyond : tl.size < index
  · rw [if_pos beyond, if_pos beyond]
    rfl
  · rw [if_neg beyond, if_neg beyond]
    rfl

theorem push_of_stopped (segment : Segment R S) :
    tl.push segment = .ok (⟨tl.issued⟩, { tl with
      entries := tl.entries.insertIdx tl.size (⟨tl.issued⟩, segment)
      issued := tl.issued + 1 }) := by
  rw [push, insert_of_stopped stopped, if_neg (Nat.lt_irrefl _)]

theorem remove_of_stopped (handle : Handle) :
    tl.remove handle =
      match tl.get? handle with
      | none => .error .unknownSegment
      | some segment =>
        .ok (segment, { tl with entries := tl.entries.filter fun e => e.1 ≠ handle }) := by
  rw [remove, ensureStopped_of_stopped stopped]
  cases tl.get? handle <;> rfl

theorem moveTo_of_stopped (handle : Handle) (index : Nat) :
    tl.moveTo handle index =
      match tl.entries.find? (·.1 = handle) with
      | none => .error .unknownSegment
      | some entry =>
        if tl.size ≤ index then .error (.outOfRange index tl.size)
        else .ok { tl with
          entries := (tl.entries.filter fun e => e.1 ≠ handle).insertIdx index entry } := by
  rw [moveTo, ensureStopped_of_stopped stopped]
  cases found : tl.entries.find? (·.1 = handle) with
  | none => rfl
  | some entry =>
      by_cases beyond : tl.size ≤ index
      · simp only [if_pos beyond]
        rfl
      · simp only [if_neg beyond]
        rfl

theorem setWindow_of_stopped (handle : Handle) (start stop : Int32) :
    tl.setWindow handle start stop =
      match tl.get? handle with
      | none => .error .unknownSegment
      | some segment =>
        match segment.setWindow start stop with
        | .error e => .error (.segment e)
        | .ok changed => .ok { tl with
            entries := tl.entries.map fun e => if e.1 = handle then (handle, changed) else e } := by
  rw [setWindow, ensureStopped_of_stopped stopped]
  cases found : tl.get? handle with
  | none => rfl
  | some segment =>
      cases changed : segment.setWindow start stop <;> simp only [changed] <;> rfl

theorem reset_of_stopped [Scalar T] :
    tl.reset = .ok { (empty : Timeline T R S) with issued := tl.issued } := by
  rw [reset, ensureStopped_of_stopped stopped]
  rfl

end Edits

/-! ## The segment that plays -/

/-- Of the segments of some entries exactly the one at a place plays, or none does. -/
def Sounds (entries : List (Handle × Segment R S)) (place? : Option Nat) : Prop :=
  ∀ (place : Nat) (entry : Handle × Segment R S), entries[place]? = some entry →
    (entry.2.playing = true ↔ place? = some place)

section Sounds

variable {entries : List (Handle × Segment R S)} {index : Nat} {entry : Handle × Segment R S}

theorem sounds_none_iff : Sounds entries none ↔ ∀ e ∈ entries, e.2.playing = false := by
  constructor
  · intro silent e member
    obtain ⟨place, found⟩ := List.mem_iff_getElem?.mp member
    simpa using silent place e found
  · intro idle place e found
    simp [idle e (List.mem_of_getElem? found)]

/-- Putting a segment that plays among silent ones makes it the one that plays. -/
theorem Sounds.set_playing (silent : Sounds entries none) (playing : entry.2.playing = true) :
    Sounds (entries.set index entry) (some index) := by
  intro place e found
  rw [List.getElem?_set] at found
  split at found
  · rename_i here
    split at found
    · cases found
      simp [playing, here]
    · cases found
  · rename_i elsewhere
    have := silent place e found
    simp only [this, reduceCtorEq, Option.some.injEq, elsewhere]

/-- Putting an idle segment in the place of the one that plays makes all silent. -/
theorem Sounds.set_idle (sounds : Sounds entries (some index)) (idle : entry.2.playing = false) :
    Sounds (entries.set index entry) none := by
  intro place e found
  rw [List.getElem?_set] at found
  split at found
  · split at found
    · cases found
      simp [idle]
    · cases found
  · rename_i elsewhere
    have := sounds place e found
    simp only [this, reduceCtorEq, Option.some.injEq, elsewhere]

/-- Putting a segment in the place of one that plays as it does leaves who plays. -/
theorem Sounds.set_same {place? : Option Nat} (sounds : Sounds entries place?)
    {before : Handle × Segment R S} (found : entries[index]? = some before)
    (same : entry.2.playing = before.2.playing) : Sounds (entries.set index entry) place? := by
  intro place e found'
  rw [List.getElem?_set] at found'
  split at found'
  · rename_i here
    split at found'
    · cases found'
      subst here
      rw [same]
      exact sounds _ _ found
    · cases found'
  · exact sounds place e found'

end Sounds

/-! ## Events -/

/-- The events not yet taken, after one more event. -/
def enqueue (pending : List PlaybackEvent) (event : PlaybackEvent) : List PlaybackEvent :=
  (if pending.length < eventCapacity then pending else pending.drop 1) ++ [event]

theorem emit_events (tl : Timeline T R S) (event : PlaybackEvent) :
    (tl.emit event).events = enqueue tl.events event := rfl

theorem length_enqueue_le {pending : List PlaybackEvent} (event : PlaybackEvent)
    (bounded : pending.length ≤ eventCapacity) :
    (enqueue pending event).length ≤ eventCapacity := by
  have capacity : eventCapacity = 32 := rfl
  unfold enqueue
  split <;> simp only [List.length_append, List.length_drop, List.length_singleton] <;> omega

/-- One timeline comes from another with the same outline, and some events are emitted. -/
structure Emits (before after : Timeline T R S) (emitted : List PlaybackEvent) : Prop where
  outline : after.outline = before.outline
  events : after.events = emitted.foldl enqueue before.events

theorem Emits.refl (tl : Timeline T R S) : tl.Emits tl [] := ⟨rfl, rfl⟩

theorem Emits.trans {a b c : Timeline T R S} {first second : List PlaybackEvent}
    (left : a.Emits b first) (right : b.Emits c second) : a.Emits c (first ++ second) where
  outline := right.outline.trans left.outline
  events := by rw [right.events, left.events, List.foldl_append]

/-- Events for which there is room come behind those that wait. -/
theorem foldl_enqueue {pending events : List PlaybackEvent}
    (room : pending.length + events.length ≤ eventCapacity) :
    events.foldl enqueue pending = pending ++ events := by
  induction events generalizing pending with
  | nil => simp
  | cons event rest ih =>
      simp only [List.length_cons] at room
      have free : pending.length < eventCapacity := by omega
      have room' : (pending ++ [event]).length + rest.length ≤ eventCapacity := by
        rw [List.length_append, List.length_singleton]
        omega
      rw [List.foldl_cons, enqueue, if_pos free, ih room', List.append_assoc, List.singleton_append]

/-- Few events that are emitted when there are none to be taken all stay. -/
theorem Emits.events_eq {before after : Timeline T R S} {emitted : List PlaybackEvent}
    (emits : before.Emits after emitted) (taken : before.events = [])
    (few : emitted.length ≤ eventCapacity) : after.events = emitted := by
  rw [emits.events, taken, foldl_enqueue (by simpa using few), List.nil_append]

end Tonegraph.Timeline
