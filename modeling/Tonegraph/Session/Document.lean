import Tonegraph.Document.Members
import Tonegraph.Document.Layout
import Tonegraph.Session
/-!
# Sessions as documents

A session is kept as a JSON document of three nested records:

    {
      "LowerTimeline": {
        "Count": 1,
        "Functions": {
          "0": {
            "TextRepresentation": "t",
            "StartTime": 0,
            "EndTime": 5
          }
        }
      }
    }

`Session.write` writes it in this layout, the functions by ascending index. `Session.read` reads it
in any layout that JSON allows. `readTimeline` and `writeTimeline` go all the way from a text to a
timeline and back.
-/

set_option autoImplicit false

namespace Tonegraph.Session

open Document

/-! ## Reading -/

/-- A record while its members are read. -/
structure RecordDraft where
  text : Option String
  start : Option Int32
  stop : Option Int32

/-- Reads a whole second. -/
def readSecond : Reader Int32 := do
  return Int32.ofInt (← integer Int32.minValue.toInt Int32.maxValue.toInt)

/-- The members of a record. -/
def recordMembers : List (Member RecordDraft) :=
  [⟨"TextRepresentation", (·.text.isSome), fun d => do return { d with text := ← string }⟩,
    ⟨"StartTime", (·.start.isSome), fun d => do return { d with start := ← readSecond }⟩,
    ⟨"EndTime", (·.stop.isSome), fun d => do return { d with stop := ← readSecond }⟩]

/-- Reads a record. -/
def readRecord : Reader Record :=
  recordOf recordMembers ⟨none, none, none⟩ fun d => do return ⟨← d.text, ← d.start, ← d.stop⟩

/-- Reads a table of records. -/
def readTable : Reader Table :=
  tableOf UInt64.size readRecord (fun index => Table.insert (.ofNat index)) .empty

/-- A session while its members are read. -/
structure Draft where
  count : Option UInt64
  table : Option Table

/-- The members of a session. -/
def sessionMembers : List (Member Draft) :=
  [⟨"Count", (·.count.isSome), fun d => do
      return { d with count := some (.ofNat (← integer 0 (UInt64.size - 1)).toNat) }⟩,
    ⟨"Functions", (·.table.isSome), fun d => do return { d with table := ← readTable }⟩]

/-- Reads a session. -/
def readSession : Reader Session :=
  recordOf sessionMembers ⟨none, none⟩ fun d => do return ⟨← d.count, ← d.table⟩

/-- The one member of a document. -/
def documentMembers : List (Member (Option Session)) :=
  [⟨"LowerTimeline", (·.isSome), fun _ => do return some (← readSession)⟩]

/-- Reads a document as a session. -/
def read (text : String) : Except SessionError Session :=
  (readAll (recordOf documentMembers none id) text.toList).mapError .document

/-! ## Writing -/

/-- A record on a line that begins `depth` steps in. -/
def writeRecord (depth : Nat) (r : Record) : List Char :=
  object depth
    [("TextRepresentation".toList, quoted r.text.toList),
      ("StartTime".toList, integerText r.start.toInt),
      ("EndTime".toList, integerText r.stop.toInt)]

/-- A table on a line that begins `depth` steps in. -/
def writeTable (depth : Nat) (t : Table) : List Char :=
  object depth (t.entries.map fun (index, r) =>
    (naturalText index.toNat, writeRecord (depth + 1) r))

/-- Writes a session as a document. -/
def write (s : Session) : String :=
  String.ofList (object 0
    [("LowerTimeline".toList, object 1
      [("Count".toList, naturalText s.count.toNat),
        ("Functions".toList, writeTable 2 s.table)])])

/-! ## Timelines -/

variable {T R S : Type} [Scalar T] [Arithmetic R] [Scalar S]

/-- Reads a document as a timeline. -/
def readTimeline [OfScientific R] (text : String) (voice : Voice R S) :
    Except SessionError (Timeline T R S) := do
  (← read text).toTimeline voice

/-- Writes a timeline as a document. -/
def writeTimeline (tl : Timeline T R S) : String := (ofTimeline tl).write

end Tonegraph.Session
