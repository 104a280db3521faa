import Tonegraph.Formula.Value
import Tonegraph.Window
import Tonegraph.Keyboard
import Tonegraph.Sink
/-!
# Segments: a formula on a window, made audible

A segment plays its formula over its window as a sine whose frequency follows the value. One
oscillator runs through the whole of it: each frame moves the phase on by the share of a turn that
the frequency covers in a frame, so the wave stays whole while the frequency glides. Where there
is no frequency the frame is silent and the phase rests.

A played segment has three parts. `start` pushes a ramp from silence at the first frequency,
`fill` pushes content, frame after frame, as far as the sink has room and the window goes, and
`stop` pushes a ramp to silence at the frequency reached. Ramps move the phase but not the local
time. They are shortened to the room there is, so that they always reach their end.

Every part is first rendered as frames (`content`, `ramp`) and then pushed, so what is heard does
not depend on the sink beyond the room that it had.
-/

set_option autoImplicit false

namespace Tonegraph

/-- Why a segment cannot be made or played. -/
inductive SegmentError where
  | eval (error : EvalError)
  | window (error : WindowError)
  | alreadyPlaying
  | notPlaying
deriving DecidableEq, Repr

/-- What a segment error says. -/
def SegmentError.message : SegmentError → String
  | .eval error => error.message
  | .window error => error.message
  | .alreadyPlaying => "segment is already playing"
  | .notPlaying => "segment is not playing"

/-- How segments sound. -/
structure Voice (R S : Type) where
  /-- The length of the ramps at both ends, in seconds. -/
  fade : R
  /-- The greatest sample of the sine. -/
  amplitude : S
  /-- From values to frequencies. -/
  keyboard : Keyboard R

/-- Ramps of a twentieth of a second, full amplitude, and the keyboard of a piano. -/
def Voice.standard {R S : Type} [OfScientific R] [Scalar R] [Scalar S] : Voice R S :=
  ⟨OfScientific.ofScientific 5 true 2, Scalar.ofNat 1, .piano⟩

/-- A formula on a window, with its oscillator. The formula has no variable but the time. -/
structure Segment (R S : Type) where
  /-- The text the formula was read from, for display. -/
  text : String
  formula : Formula R
  window : Window
  voice : Voice R S
  playing : Bool
  /-- The frames of content rendered since the segment was started. -/
  rendered : Nat
  /-- Where the oscillator is in its turn, from 0 to 1. -/
  phase : R
  /-- Only the time is free in the formula. -/
  closed : formula.foreignName? = none

/-- The formula's value and frequency at a whole second. -/
structure PreviewPoint (R : Type) where
  time : Int
  value : R
  frequency : Option R

/-- The two directions of a ramp. -/
inductive Ramp where
  | fadeIn
  | fadeOut
deriving DecidableEq, Repr

namespace Segment

variable {R S : Type} [Arithmetic R] [Scalar S]

/-! ## Making and changing a segment -/

/-- An idle segment. The formula is checked before the window. -/
def create (text : String) (formula : Formula R) (start stop : Int32) (voice : Voice R S) :
    Except SegmentError (Segment R S) :=
  match closed : formula.foreignName? with
  | some name => .error (.eval (.unbound name))
  | none =>
    match Window.ofBounds start stop with
    | .error e => .error (.window e)
    | .ok window => .ok ⟨text, formula, window, voice, false, 0, Scalar.ofNat 0, closed⟩

/-- Gives an idle segment another window. -/
def setWindow (s : Segment R S) (start stop : Int32) : Except SegmentError (Segment R S) :=
  if s.playing then .error .alreadyPlaying
  else
    match Window.ofBounds start stop with
    | .error e => .error (.window e)
    | .ok window => .ok { s with window }

/-- Gives an idle segment another voice. -/
def setVoice (s : Segment R S) (voice : Voice R S) : Except SegmentError (Segment R S) :=
  if s.playing then .error .alreadyPlaying else .ok { s with voice }

/-- The length of the window in seconds. -/
def runTime (s : Segment R S) : Nat := s.window.runTime

/-- The window and the text of a segment. -/
def display (s : Segment R S) : String :=
  "[" ++ toString s.window.start.toInt ++ ", " ++ toString s.window.stop.toInt ++ "] " ++ s.text

/-! ## Values, frequencies and times -/

/-- The value at a time. -/
def valueAt? (s : Segment R S) (t : R) : Option R := (s.formula.evaluateAt t).toOption

/-- The frequency heard at a time; nothing where there is silence. -/
def frequencyAt? (s : Segment R S) (t : R) : Option R :=
  (s.valueAt? t).bind s.voice.keyboard.frequencyOf?

/-- The time that the content rendered so far has come to, at a rate of frames per second. -/
def localTime (s : Segment R S) (rate : Nat) : R :=
  Scalar.ofInt s.window.start.toInt + Scalar.ofNat s.rendered / Scalar.ofNat rate

/-- Whether the content has come to the end of the window. -/
def isExhausted (s : Segment R S) (rate : Nat) : Bool :=
  Scalar.ofInt s.window.stop.toInt ≤ s.localTime rate

/-- The most points of a preview. -/
def maxPreviewPoints : Nat := 1024

/-- The seconds between the points of the preview of a window: the least number that keeps the
points few enough. -/
def previewStride (runTime : Nat) : Nat :=
  (runTime + (maxPreviewPoints - 2)) / (maxPreviewPoints - 1)

/-- The whole seconds of a preview: from the start of the window on in even strides, and its
end. -/
def previewTimes (window : Window) : List Int :=
  let stride := previewStride window.runTime
  let count := (window.runTime + (stride - 1)) / stride
  (List.range count).map (fun i => window.start.toInt + (i * stride : Nat)) ++ [window.stop.toInt]

/-- The formula's course over the window. -/
def preview (s : Segment R S) : List (PreviewPoint R) :=
  (previewTimes s.window).map fun time =>
    let value := (s.valueAt? (Scalar.ofInt time)).getD Arithmetic.undefined
    ⟨time, value, s.voice.keyboard.frequencyOf? value⟩

/-! ## The oscillator -/

/-- Turns the oscillator on by one frame at a frequency. Only the part of a turn is kept. -/
def advance (s : Segment R S) (frequency : R) (rate : Nat) : Segment R S :=
  let phase := s.phase + frequency / Scalar.ofNat rate
  { s with phase := phase - Scalar.floor phase }

/-- The sample where the oscillator is. -/
def sample [Narrowing R S] (s : Segment R S) : S :=
  let turn : R := Scalar.ofNat 2 * Arithmetic.pi
  Narrowing.narrow
    (Arithmetic.sin (turn * s.phase) * (Narrowing.widen s.voice.amplitude : R))

variable [Narrowing R S]

/-- One frame of content, and the segment after it. -/
def contentFrame (s : Segment R S) (rate : Nat) : Frame S × Segment R S :=
  match s.frequencyAt? (s.localTime rate) with
  | some frequency =>
    let s := s.advance frequency rate
    (.mono s.sample, { s with rendered := s.rendered + 1 })
  | none => (.silence, { s with rendered := s.rendered + 1 })

/-- Content for `room` frames, or up to the end of the window, put behind the frames given. -/
def contentAfter (rate : Nat) :
    Nat → Segment R S → Array (Frame S) → Array (Frame S) × Segment R S
  | 0, s, frames => (frames, s)
  | room + 1, s, frames =>
    if s.isExhausted rate then (frames, s)
    else
      let (frame, s) := s.contentFrame rate
      contentAfter rate room s (frames.push frame)

/-- The frames of content that a segment has for `room` frames, and the segment after them. -/
def content (s : Segment R S) (rate room : Nat) : Array (Frame S) × Segment R S :=
  contentAfter rate room s #[]

/-- The gain at frame `i` of a ramp of `length` frames. -/
def gain (ramp : Ramp) (i length : Nat) : S :=
  let progress := Scalar.ofNat i / Scalar.ofNat length
  match ramp with
  | .fadeIn => progress
  | .fadeOut => Scalar.ofNat 1 - progress

/-- The last `left` frames of a ramp of `length` frames, put behind the frames given. -/
def rampAfter (ramp : Ramp) (frequency : R) (rate length : Nat) :
    Nat → Segment R S → Array (Frame S) → Array (Frame S) × Segment R S
  | 0, s, frames => (frames, s)
  | left + 1, s, frames =>
    let s := s.advance frequency rate
    let frame := (Frame.mono s.sample).scaled (gain ramp (length - (left + 1)) length)
    rampAfter ramp frequency rate length left s (frames.push frame)

/-- How many frames a ramp takes, given the room for them. -/
def rampLength (s : Segment R S) (rate room : Nat) : Nat :=
  min (Scalar.truncate 0 (UInt64.size - 1) (s.voice.fade * Scalar.ofNat rate)).toNat room

/-- The frames of a ramp at the frequency of a time, and the segment after them. In silence there
is no ramp. -/
def rampAt (s : Segment R S) (ramp : Ramp) (t : R) (rate room : Nat) :
    Array (Frame S) × Segment R S :=
  match s.frequencyAt? t with
  | none => (#[], s)
  | some frequency =>
    let length := s.rampLength rate room
    rampAfter ramp frequency rate length length s #[]

/-! ## Playing into a sink -/

variable {K : Type} [FrameSink K S]

/-- A segment at the start of its window, and the sink after it has begun output and taken the
ramp. -/
def started (s : Segment R S) (sink : K) : Segment R S × K :=
  let fresh := { s with rendered := 0, phase := Scalar.ofNat 0 }
  let sink := FrameSink.start sink
  let (frames, s) := fresh.rampAt .fadeIn (Scalar.ofInt s.window.start.toInt)
    (FrameSink.rate sink) (FrameSink.available sink)
  ({ s with playing := true }, FrameSink.pushAll sink frames)

/-- Starts an idle segment at the start of its window. -/
def start (s : Segment R S) (sink : K) : Except SegmentError (Segment R S × K) :=
  if s.playing then .error .alreadyPlaying else .ok (s.started sink)

/-- Pushes as much content as the sink has room for, and says how many frames that were. An idle
segment has none. -/
def fill (s : Segment R S) (sink : K) : Nat × Segment R S × K :=
  if s.playing then
    let (frames, s) := s.content (FrameSink.rate sink) (FrameSink.available sink)
    (frames.size, s, FrameSink.pushAll sink frames)
  else (0, s, sink)

/-- A segment that ends where it is, and the sink after it has taken the ramp and ended output. -/
def stopped (s : Segment R S) (sink : K) : Segment R S × K :=
  let rate := FrameSink.rate sink
  let (frames, s) := s.rampAt .fadeOut (s.localTime rate) rate (FrameSink.available sink)
  ({ s with playing := false }, FrameSink.stop (FrameSink.pushAll sink frames))

/-- Stops a playing segment where it is. -/
def stop (s : Segment R S) (sink : K) : Except SegmentError (Segment R S × K) :=
  if s.playing then .ok (s.stopped sink) else .error .notPlaying

end Segment

end Tonegraph
