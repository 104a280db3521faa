import Tonegraph.Arithmetic.FloatingPoint
import Tonegraph.Formula.Latex
import Tonegraph.Timeline
/-!
# What the command line shows of formulas and segments

Numbers are shown with all their digits, or with a fixed number of places behind the point. In a
table they are set to the right of a column.
-/

set_option autoImplicit false

namespace Tonegraph.CommandLine

/-- A number with all its digits. -/
def shortNumber (x : Float) : String := (Binary.ofFloat x).shortText

/-- A number with a fixed number of places behind the point. -/
def rounded (places : Nat) (x : Float) : String := (Binary.ofFloat x).textWithPlaces places

/-- A text at the right end of a column. -/
def column (width : Nat) (text : String) : String :=
  String.ofList (List.replicate (width - text.length) ' ') ++ text

/-- Several lines of text, each of them ended. -/
def lines (texts : List String) : String := String.join (texts.map (· ++ "\n"))

/-- The value of a formula at a time, and the key and the frequency of that value. -/
def evaluationReport (formula : Formula Float) (time value : Float) : String :=
  let keyboard : Keyboard Float := .piano
  let pitch :=
    match keyboard.keyIndex? value, keyboard.frequencyOf? value with
    | some key, some frequency =>
      ["Key:       " ++ rounded 3 key, "Frequency: " ++ rounded 2 frequency ++ " Hz"]
    | _, _ => ["Frequency: (silent)"]
  lines (["LaTeX:     " ++ formula.latex,
    "f(" ++ shortNumber time ++ ") =    " ++ shortNumber value] ++ pitch)

/-- A line of a preview table. -/
def previewLine (point : PreviewPoint Float) : String :=
  let sound :=
    match point.frequency with
    | some frequency => column 9 (rounded 2 frequency) ++ " Hz"
    | none => "silent"
  "  t=" ++ column 4 (toString point.time) ++ "  f=" ++ column 12 (rounded 4 point.value) ++
    "  " ++ sound

/-- A segment at an index of a timeline, which begins at an offset, with its preview table. -/
def segmentReport (index offset : Nat) (segment : Segment Float Float32) : List String :=
  ["", "#" ++ toString index ++ " " ++ segment.display ++ " (at " ++ toString offset ++ " s)",
    "  LaTeX: " ++ segment.formula.latex] ++ segment.preview.map previewLine

/-- All segments of a timeline. -/
def timelineReport (tl : Timeline Float Float Float32) : String :=
  lines (["Segments: " ++ toString tl.size, "Run time: " ++ toString tl.runTime ++ " s"] ++
    tl.entries.zipIdx.flatMap fun (entry, index) =>
      segmentReport index (tl.offsetOf index) entry.2)

end Tonegraph.CommandLine
