import Tonegraph.Arithmetic.FloatingPoint
import Tonegraph.Formula.Value
import Tonegraph.Formula.Latex
import Tonegraph.Formula.Parse
import Tonegraph.Timeline.Deck
import Tonegraph.Sink.Recorder
import Tonegraph.Sink.Ring
import Tonegraph.Main
import Tonegraph.Segment.Charted
import Tonegraph.Proofs.Clock
import Tonegraph.Proofs.Deck.Effects
import Tonegraph.Proofs.Deck.Calls
import Tonegraph.Proofs.Arithmetic.Exact
import Tonegraph.Proofs.Segment
import Tonegraph.Proofs.Timeline
import Tonegraph.Proofs.Deck.Coherence
import Tonegraph.Proofs.Deck.Schedule
import Tonegraph.Proofs.Deck.Refusal
import Tonegraph.Proofs.Formula.Grammar
import Tonegraph.Proofs.Formula.Reading
import Tonegraph.Proofs.Formula.Soundness
import Tonegraph.Proofs.Formula.Completeness
import Tonegraph.Proofs.Content
import Tonegraph.Proofs.Deck.Replay
import Tonegraph.Proofs.Deck.Seek
import Tonegraph.Proofs.Document.Layout
import Tonegraph.Proofs.Session
import Tonegraph.Proofs.Editing
import Tonegraph.Proofs.Shelf
import Tonegraph.Proofs.Deck.Protocol
import Tonegraph.Proofs.Deck.History
import Tonegraph.Proofs.Solo
import Tonegraph.Proofs.Rendering
import Tonegraph.Proofs.Rendering.Trace
import Tonegraph.Proofs.Rendering.Alone
import Tonegraph.Proofs.Rendering.Fades
import Tonegraph.Proofs.Rendering.Bounds
import Tonegraph.Proofs.Sink.Recorder
import Tonegraph.Proofs.Sink.Ring
import Tonegraph.Proofs.Wav
import Tonegraph.Proofs.Display
import Tonegraph.Proofs.Evaluation
import Tonegraph.Proofs.Formula.UnknownName
import Tonegraph.Proofs.Loading
import Tonegraph.Proofs.Formula.Scanning
import Tonegraph.Proofs.Preview
import Tonegraph.Proofs.Duration
import Tonegraph.Proofs.Keyboard
import Tonegraph.Proofs.Arithmetic.Precision
import Tonegraph.Proofs.Wav.Sizes
import Tonegraph.Proofs.Clock.History
import Tonegraph.Proofs.Session.Tables
import Tonegraph.Proofs.Modulo
import Tonegraph.Proofs.Wav.Layout
import Tonegraph.Proofs.Formula.Consulted
import Tonegraph.Proofs.Deck.Stillness
import Tonegraph.Proofs.Arithmetic.Reals
import Tonegraph.Proofs.Oscillator
import Tonegraph.Proofs.Oscillator.Moves
import Tonegraph.Proofs.Formula.Bindings
import Tonegraph.Proofs.CommandLine
import Tonegraph.Proofs.Formula.Descent
