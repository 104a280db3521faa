import Tonegraph.Clock
import Tonegraph.Segment
/-!
# Timelines

A timeline is a list of segments in the order of playing, each under a handle that stays with it
when the order changes and is never given out again. Beside the list it holds what playing needs:
the clock, the cursor, whether it is playing, and the events that the host has not yet taken.

This module holds the list and its editing. An edit is refused while the timeline plays, and a
refused edit yields no new timeline. Playing is `Timeline/Deck`.
-/

set_option autoImplicit false

namespace Tonegraph

/-- The name of a segment on a timeline, counted from zero in the order of insertion. -/
structure Handle where
  serial : Nat
deriving DecidableEq, Repr

/-- Where playing has got to. -/
inductive Cursor where
  | notStarted
  | segment (index : Nat)
  | finished
deriving DecidableEq, Repr

/-- What the host is told. -/
inductive PlaybackEvent where
  | segmentStarted (index : Nat) (handle : Handle)
  | segmentStopped (index : Nat) (handle : Handle)
  | sought (index : Nat)
  | playbackFinished (interrupted : Bool)
deriving DecidableEq, Repr

/-- Why a timeline refuses an edit or a transport call. -/
inductive TransportError where
  | empty
  | alreadyPlaying
  | notPlaying
  | playing
  | noNextSegment
  | noPreviousSegment
  | notFinished
  | unknownSegment
  | outOfRange (index size : Nat)
  | clock (error : ClockError)
  | segment (error : SegmentError)
deriving DecidableEq, Repr

/-- What a transport error says. -/
def TransportError.message : TransportError → String
  | .empty => "timeline is empty"
  | .alreadyPlaying => "timeline is already playing"
  | .notPlaying => "timeline is not playing"
  | .playing => "timeline cannot be edited while playing"
  | .noNextSegment => "no segment after the current one"
  | .noPreviousSegment => "no segment before the current one"
  | .notFinished => "playback has not reached the end of the timeline"
  | .unknownSegment => "unknown segment"
  | .outOfRange index size =>
    "index " ++ toString index ++ " out of range for " ++ toString size ++ " segments"
  | .clock error => error.message
  | .segment error => error.message

/-- Segments in the order of playing, and the state of playing them. Times are in `T`, values in
`R` and samples in `S`. -/
structure Timeline (T R S : Type) where
  entries : List (Handle × Segment R S)
  /-- How many handles have been given out. -/
  issued : Nat
  clock : Clock T
  cursor : Cursor
  playing : Bool
  /-- The events not yet taken, the oldest first. -/
  events : List PlaybackEvent

namespace Timeline

variable {T R S : Type} [Scalar T] [Arithmetic R] [Scalar S]

/-- A timeline without segments. -/
def empty : Timeline T R S := ⟨[], 0, .initial, .notStarted, false, []⟩

/-! ## Looking -/

/-- The number of segments. -/
def size (tl : Timeline T R S) : Nat := tl.entries.length

/-- The handles in the order of playing. -/
def order (tl : Timeline T R S) : List Handle := tl.entries.map (·.1)

/-- The place of a handle in the order of playing. -/
def indexOf? (tl : Timeline T R S) (handle : Handle) : Option Nat :=
  tl.entries.findIdx? (·.1 = handle)

/-- The segment under a handle. -/
def get? (tl : Timeline T R S) (handle : Handle) : Option (Segment R S) :=
  (tl.entries.find? (·.1 = handle)).map (·.2)

/-- The segment at a place in the order of playing. -/
def segmentAt? (tl : Timeline T R S) (index : Nat) : Option (Segment R S) :=
  tl.entries[index]?.map (·.2)

/-- The handle at a place in the order of playing. -/
def handleAt? (tl : Timeline T R S) (index : Nat) : Option Handle :=
  tl.entries[index]?.map (·.1)

/-- The seconds that entries take together. -/
def seconds : List (Handle × Segment R S) → Nat
  | [] => 0
  | entry :: rest => entry.2.runTime + seconds rest

/-- The time at which the segment at a place begins: the seconds of all before it. -/
def offsetOf (tl : Timeline T R S) (index : Nat) : Nat := seconds (tl.entries.take index)

/-- The seconds of all segments. -/
def runTime (tl : Timeline T R S) : Nat := seconds tl.entries

/-- The seconds of all segments, read as a signed number of 64 bits as the clock's second is. -/
def signedRunTime (tl : Timeline T R S) : Int := (Int64.ofNat tl.runTime).toInt

/-- The place of the segment being played. -/
def currentIndex? (tl : Timeline T R S) : Option Nat :=
  match tl.cursor with
  | .segment index => some index
  | _ => none

/-- Seconds since playing began, on the axis of the timeline. -/
def position (tl : Timeline T R S) : T := tl.clock.absolute

/-! ## Editing -/

/-- Refuses while the timeline plays. -/
def ensureStopped (tl : Timeline T R S) : Except TransportError Unit :=
  if tl.playing then .error .playing else .ok ()

/-- Puts a segment at a place, and says what handle it got. -/
def insert (tl : Timeline T R S) (index : Nat) (segment : Segment R S) :
    Except TransportError (Handle × Timeline T R S) := do
  tl.ensureStopped
  if tl.size < index then throw (.outOfRange index tl.size)
  let handle : Handle := ⟨tl.issued⟩
  return (handle,
    { tl with entries := tl.entries.insertIdx index (handle, segment), issued := tl.issued + 1 })

/-- Puts a segment at the end. -/
def push (tl : Timeline T R S) (segment : Segment R S) :
    Except TransportError (Handle × Timeline T R S) :=
  tl.insert tl.size segment

/-- Takes a segment away. -/
def remove (tl : Timeline T R S) (handle : Handle) :
    Except TransportError (Segment R S × Timeline T R S) := do
  tl.ensureStopped
  match tl.get? handle with
  | none => throw .unknownSegment
  | some segment =>
    return (segment, { tl with entries := tl.entries.filter fun e => e.1 ≠ handle })

/-- Moves a segment to a place. -/
def moveTo (tl : Timeline T R S) (handle : Handle) (index : Nat) :
    Except TransportError (Timeline T R S) := do
  tl.ensureStopped
  match tl.entries.find? (·.1 = handle) with
  | none => throw .unknownSegment
  | some entry =>
    if tl.size ≤ index then throw (.outOfRange index tl.size)
    let others := tl.entries.filter fun e => e.1 ≠ handle
    return { tl with entries := others.insertIdx index entry }

/-- Gives a segment another window. -/
def setWindow (tl : Timeline T R S) (handle : Handle) (start stop : Int32) :
    Except TransportError (Timeline T R S) := do
  tl.ensureStopped
  match tl.get? handle with
  | none => throw .unknownSegment
  | some segment =>
    match segment.setWindow start stop with
    | .error e => throw (.segment e)
    | .ok changed =>
      return { tl with
        entries := tl.entries.map fun e => if e.1 = handle then (handle, changed) else e }

/-- Takes all segments away and begins anew, but for the handles given out. -/
def reset (tl : Timeline T R S) : Except TransportError (Timeline T R S) := do
  tl.ensureStopped
  return { (empty : Timeline T R S) with issued := tl.issued }

/-! ## Events -/

/-- The most events kept for the host. -/
def eventCapacity : Nat := 32

/-- Keeps an event for the host. When there is no room the oldest goes. -/
def emit (tl : Timeline T R S) (event : PlaybackEvent) : Timeline T R S :=
  let kept := if tl.events.length < eventCapacity then tl.events else tl.events.drop 1
  { tl with events := kept ++ [event] }

/-- Takes so many events, or all there are, the oldest first. -/
def takeEvents (tl : Timeline T R S) (count : Nat) : List PlaybackEvent × Timeline T R S :=
  (tl.events.take count, { tl with events := tl.events.drop count })

/-- Takes all events, the oldest first. -/
def drain (tl : Timeline T R S) : List PlaybackEvent × Timeline T R S :=
  tl.takeEvents tl.events.length

end Timeline

end Tonegraph
