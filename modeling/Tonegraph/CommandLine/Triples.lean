import Tonegraph.Arithmetic.FloatingPoint
import Tonegraph.Decimal.Integer
import Tonegraph.Session
/-!
# Segments given as words

On the command line segments are given by three words each: the text of a formula, the start and
the end of the window. `recordsOf` reads all words as records. Of the faults of a segment, a bad
time comes first, then a formula that cannot be read, then a window that is empty.
-/

set_option autoImplicit false

namespace Tonegraph.CommandLine

/-- Why words are not read as segments. -/
inductive TripleError where
  | incomplete
  | badTime (index : Nat) (text : String) (fault : IntegerFault)
  | formula (index : Nat) (error : SyntaxError)
  | window (index : Nat) (start stop : Int32)
deriving DecidableEq, Repr

/-- What stands in front of what is said of a segment. -/
def segmentTitle (index : Nat) : String := "Segment " ++ toString index ++ ": "

/-- What a triple error says. -/
def TripleError.message : TripleError → String
  | .incomplete => "Segments are given as <expr> <start> <end> triples"
  | .badTime index text fault =>
    segmentTitle index ++ "bad time '" ++ text ++ "': " ++ fault.message
  | .formula index error => segmentTitle index ++ error.message
  | .window index start stop =>
    segmentTitle index ++ "start " ++ toString start.toInt ++ " must be before end " ++
      toString stop.toInt

/-- Reads a word as a whole second. -/
def secondOf (index : Nat) (text : String) : Except TripleError Int32 :=
  match Decimal.readInteger Int32.minValue.toInt Int32.maxValue.toInt text.toList with
  | .ok n => .ok (.ofInt n)
  | .error fault => .error (.badTime index text fault)

/-- Reads three words as a record. -/
def recordOf (index : Nat) (text start stop : String) : Except TripleError Session.Record := do
  let start ← secondOf index start
  let stop ← secondOf index stop
  let _formula : Formula Float ← (Formula.parsePlayable text).mapError (.formula index)
  if start < stop then return ⟨text, start, stop⟩ else throw (.window index start stop)

/-- Reads words as records, the first of them at an index. -/
def recordsFrom (index : Nat) : List String → Except TripleError (List Session.Record)
  | text :: start :: stop :: rest => do
    let record ← recordOf index text start stop
    return record :: (← recordsFrom (index + 1) rest)
  | _ => .ok []

/-- Reads words as records. -/
def recordsOf (words : List String) : Except TripleError (List Session.Record) :=
  if words.length % 3 = 0 then recordsFrom 0 words else .error .incomplete

end Tonegraph.CommandLine
