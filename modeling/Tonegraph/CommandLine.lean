import Tonegraph.CommandLine.Report
import Tonegraph.CommandLine.Request
import Tonegraph.CommandLine.Terminal
import Tonegraph.CommandLine.Triples
import Tonegraph.Studio
/-!
# The command line

`CommandLine.run` takes the arguments of the program, does what they ask for on a terminal, and
gives the code that the program exits with: 0 when all went well, 2 when the arguments are not
understood, 101 when an overflow broke the program off, and 1 when anything else failed. A command
that fails says why and stops; what it has printed before stays.
-/

set_option autoImplicit false

namespace Tonegraph.CommandLine

open Terminal

variable {m : Type → Type} [Monad m] [Terminal m]

/-- A piece of work that may end the program with an exit code. -/
abbrev Work (m : Type → Type) := ExceptT UInt32 m

/-- Says why a command fails, and ends the program. -/
def fail {α : Type} (message : String) : Work m α := do
  (printError (message ++ "\n") : m Unit)
  throw 1

/-- A result, or the end of the program by an overflow. -/
def orBreakOff {α : Type} : Except Overflow α → Work m α
  | .ok a => return a
  | .error overflow => do
    (printError (overflow.message ++ "\n") : m Unit)
    throw 101

/-- Prints a line. -/
def printLine (text : String) : Work m Unit := (print (text ++ "\n") : m Unit)

/-- A result, or the end of the program with what its error says behind a title. -/
def orFail {ε α : Type} (title : String) (message : ε → String) : Except ε α → Work m α
  | .ok a => return a
  | .error e => fail (title ++ message e)

/-- Replaces a file. -/
def writeFile (path : String) (bytes : ByteArray) : Work m Unit := do
  orFail ("Failed to write " ++ path ++ ": ") FileFault.message
    (← (writeBytes path bytes : m (Except FileFault Unit)))

/-- A studio with a session loaded. A length of ramps that is not above zero counts as zero. -/
def openSession (path : String) (fade : Float) : Work m (Studio Float Float Float32) := do
  let text ← orFail ("Failed to read " ++ path ++ ": ") FileFault.message
    (← (readText path : m (Except FileFault String)))
  let fade := if 0 < fade then fade else 0
  let (result, studio) := (Studio.ofVoice { Voice.standard with fade }).load text
  orFail ("Failed to load " ++ path ++ ": ") StudioError.message result
  return studio

/-! ## The commands -/

/-- Shows the value of a formula at a time. -/
def evaluate (text : String) (time : Float) : Work m Unit := do
  let formula ← orFail "Parse error: " SyntaxError.message (Formula.parse text)
  let value ← orFail "Evaluation error: " EvalError.message (formula.evaluateAt time)
  (print (evaluationReport formula time value) : m Unit)

/-- Renders a studio's timeline into a WAV file. -/
def render (studio : Studio Float Float Float32) (wav : String) (plan : RenderPlan Float) :
    Work m Unit := do
  printLine ("Rendering to " ++ wav ++ " at " ++ toString plan.rate.toNat ++ " Hz...")
  let bytes ← orFail "Render failed: " StudioError.message (← orBreakOff (studio.renderWav plan))
  printLine ("Rendered " ++ toString bytes.length ++ " bytes")
  writeFile wav bytes.toByteArray
  printLine "Done."

/-- Plays a studio's timeline to its end. -/
def play (studio : Studio Float Float Float32) : Work m Unit := do
  orFail "Failed to start playback: " StudioError.message studio.play.1
  printLine "Playing..."
  printLine ""
  printLine "\x0dDone.                          "

/-- Writes a session of segments given as words. -/
def create (out : String) (words : List String) : Work m Unit := do
  let records ← orFail "" TripleError.message (recordsOf words)
  writeFile out (Session.ofRecords records).write.toUTF8
  printLine ("Wrote " ++ toString records.length ++ " segments to " ++ out)

/-- Does what a command says, with ramps of a length in seconds. -/
def Command.perform (fade : Float) : Command → Work m Unit
  | .evaluate text time => CommandLine.evaluate text time
  | .info session => do
    let studio ← openSession session fade
    (print (timelineReport studio.timeline) : m Unit)
  | .render session wav rate maxSeconds => do
    let studio ← openSession session fade
    CommandLine.render studio wav { RenderPlan.standard with rate, maxSeconds }
  | .play session => do
    let studio ← openSession session fade
    CommandLine.play studio
  | .create out words => CommandLine.create out words

/-- The name and the version of the program. -/
def versionText : String := "sonify 0.1.0"

/-- Runs the program, for the code that it exits with. -/
def run (arguments : List String) : m UInt32 := do
  match Request.ofArguments arguments with
  | .error e => do
    printError (e.message ++ "\n")
    return 2
  | .ok .version => do
    print (versionText ++ "\n")
    return 0
  | .ok (.command fade command) => do
    match ← (command.perform fade).run with
    | .ok () => return 0
    | .error code => return code

end Tonegraph.CommandLine
