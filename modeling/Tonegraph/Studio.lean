import Tonegraph.Rendering
import Tonegraph.Session.Document
import Tonegraph.Wav
/-!
# The studio: editing, keeping, rendering and playing one timeline

A studio holds a timeline, the voice that loaded sessions get, and how far playback has come.
Rendering works on a copy of the timeline, so the studio's own stays as it is.

`play` hands a copy of the timeline to an audio device. This studio has none, so that playback is
finished as soon as it has begun, and no call reaches it any more.
-/

set_option autoImplicit false

namespace Tonegraph

/-- How far playback has come. -/
inductive Playback where
  | none
  | finished
deriving DecidableEq, Repr

/-- What a player shows. -/
structure PlaybackStatus (T : Type) where
  playing : Bool
  finished : Bool
  position : Option T
  segment : Option Nat

/-- Why a studio refuses a call. -/
inductive StudioError where
  | session (error : SessionError)
  | transport (error : TransportError)
  | notPlaying
deriving DecidableEq, Repr

/-- What a studio error says. -/
def StudioError.message : StudioError → String
  | .session error => error.message
  | .transport error => error.message
  | .notPlaying => "nothing is playing"

/-- A timeline with what is needed to load, render and play it. -/
structure Studio (T R S : Type) where
  timeline : Timeline T R S
  /-- The voice of loaded segments. -/
  voice : Voice R S
  playback : Playback

namespace Studio

variable {T R S : Type} [Scalar T] [Arithmetic R] [Scalar S]

/-- A studio without segments. -/
def ofVoice (voice : Voice R S) : Studio T R S := ⟨.empty, voice, .none⟩

/-! ## Playback -/

/-- Ends playback. -/
def stop (s : Studio T R S) : Studio T R S := { s with playback := .none }

/-- Plays the timeline from its beginning, after what is being played. With no device, playback is
finished at once. -/
def play (s : Studio T R S) : Except StudioError Unit × Studio T R S :=
  if s.timeline.entries.isEmpty then (.error (.transport .empty), s.stop)
  else (.ok (), { s with playback := .finished })

/-- Asks for a jump to the next or the previous segment. Playback that is finished takes no
requests. -/
def seek (_ : Studio T R S) : Except StudioError Unit := .error .notPlaying

/-- What the player shows: with no device nothing ever plays. -/
def status (s : Studio T R S) : PlaybackStatus T :=
  ⟨false, s.playback = .finished, none, none⟩

/-! ## Sessions -/

/-- Ends playback and replaces the timeline by that of a document. A document that cannot be read
leaves the timeline as it is. -/
def load [OfScientific R] (s : Studio T R S) (text : String) :
    Except StudioError Unit × Studio T R S :=
  match Session.readTimeline text s.voice with
  | .ok timeline => (.ok (), { s.stop with timeline })
  | .error e => (.error (.session e), s.stop)

/-- The timeline as a document. -/
def save (s : Studio T R S) : String := Session.writeTimeline s.timeline

/-! ## Rendering -/

variable [Narrowing R S]

/-- Every frame that the timeline gives. -/
def render (s : Studio T R S) (plan : RenderPlan T) : Except StudioError (Array (Frame S)) :=
  (s.timeline.render plan).mapError .transport

/-- The timeline as a WAV file, unless computing its sizes breaks the program off. -/
def renderWav (s : Studio T R S) (plan : RenderPlan T) :
    Except Overflow (Except StudioError (List UInt8)) :=
  match s.render plan with
  | .error e => .ok (.error e)
  | .ok frames => (Wav.encode plan.rate frames.toList).map .ok

end Studio

end Tonegraph
