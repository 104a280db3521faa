import Tonegraph.Document
import Tonegraph.Formula.Parse
import Tonegraph.Timeline
/-!
# Sessions

What is kept of a timeline from one time to the next: for each segment the text of its formula and
its window, in the order of playing. Formulas are not kept, they are read again from their texts.

A `Session` is a table of such records under indices, and the number of segments it is to have.
The two need not fit together: `records` fails when an index below the count has no record, and
passes over records beyond it. `ofTimeline` and `toTimeline` lead from timelines and back.
-/

set_option autoImplicit false

namespace Tonegraph

namespace Session

/-- What is kept of a segment. -/
structure Record where
  text : String
  start : Int32
  stop : Int32
deriving DecidableEq, Repr

/-- Records under indices, in ascending order of the indices. -/
structure Table where
  entries : List (UInt64 × Record)
  ascending : entries.Pairwise fun a b => a.1 < b.1

namespace Table

/-- A table without records. -/
def empty : Table := ⟨[], .nil⟩

/-- Puts a record into its place. It replaces the record under the same index. -/
def insertEntry (index : UInt64) (record : Record) :
    List (UInt64 × Record) → List (UInt64 × Record)
  | [] => [(index, record)]
  | entry :: rest =>
    if index < entry.1 then (index, record) :: entry :: rest
    else if index = entry.1 then (index, record) :: rest
    else entry :: insertEntry index record rest

theorem mem_insertEntry {index : UInt64} {record : Record} {entries : List (UInt64 × Record)}
    {entry : UInt64 × Record} (member : entry ∈ insertEntry index record entries) :
    entry = (index, record) ∨ entry ∈ entries := by
  induction entries with
  | nil => simpa [insertEntry] using member
  | cons first rest ih =>
    rw [insertEntry] at member
    split at member
    · simpa using member
    · split at member
      · rcases List.mem_cons.1 member with rfl | inRest
        · exact .inl rfl
        · exact .inr (List.mem_cons_of_mem _ inRest)
      · rcases List.mem_cons.1 member with rfl | inRest
        · exact .inr List.mem_cons_self
        · exact (ih inRest).imp_right (List.mem_cons_of_mem _)

theorem ascending_insertEntry {index : UInt64} {record : Record}
    {entries : List (UInt64 × Record)} (ascending : entries.Pairwise fun a b => a.1 < b.1) :
    (insertEntry index record entries).Pairwise fun a b => a.1 < b.1 := by
  induction entries with
  | nil => simp [insertEntry]
  | cons first rest ih =>
    have ⟨below, restAscending⟩ := List.pairwise_cons.1 ascending
    rw [insertEntry]
    split
    · rename_i isBelow
      refine List.pairwise_cons.2 ⟨fun entry member => ?_, ascending⟩
      rcases List.mem_cons.1 member with rfl | inRest
      · exact isBelow
      · exact UInt64.lt_trans isBelow (below entry inRest)
    · split
      · rename_i isSame
        refine List.pairwise_cons.2 ⟨fun entry member => ?_, restAscending⟩
        exact isSame ▸ below entry member
      · rename_i notBelow notSame
        refine List.pairwise_cons.2 ⟨fun entry member => ?_, ih restAscending⟩
        rcases mem_insertEntry member with rfl | inRest
        · exact UInt64.lt_of_le_of_ne (UInt64.not_lt.1 notBelow) (Ne.symm notSame)
        · exact below entry inRest

/-- Puts a record under an index. -/
def insert (index : UInt64) (record : Record) (table : Table) : Table :=
  ⟨insertEntry index record table.entries, ascending_insertEntry table.ascending⟩

end Table

end Session

/-- Records of segments, and the number of segments that there are to be. -/
structure Session where
  count : UInt64
  table : Session.Table

/-- Why a session cannot be read, or makes no timeline. -/
inductive SessionError where
  | formula (index : Nat) (error : SyntaxError)
  | segment (index : Nat) (error : SegmentError)
  | missing (index : Nat)
  | transport (error : TransportError)
  | document (fault : Document.Fault)
deriving DecidableEq, Repr

/-- What a session error says. -/
def SessionError.message : SessionError → String
  | .formula index error => "function " ++ toString index ++ ": " ++ error.message
  | .segment index error => "function " ++ toString index ++ ": " ++ error.message
  | .missing index => "function " ++ toString index ++ " is missing from the session"
  | .transport error => error.message
  | .document fault => "session JSON: " ++ fault.message

namespace Session

/-! ## Records -/

/-- The session of a list of records, under the indices from zero on. -/
def ofRecords (records : List Record) : Session :=
  let table := records.zipIdx.foldl
    (fun table (record, index) => table.insert (.ofNat index) record) Table.empty
  ⟨.ofNat table.entries.length, table⟩

/-- The records under `count` indices from `index` on, given the entries from `index` on. Entries
ascend, so an index that is not the next one is missing. The first missing one fails. -/
def recordsFrom (index : Nat) :
    Nat → List (UInt64 × Record) → Except SessionError (List Record)
  | 0, _ => .ok []
  | _ + 1, [] => .error (.missing index)
  | count + 1, (key, record) :: rest =>
    if key.toNat = index then do return record :: (← recordsFrom (index + 1) count rest)
    else .error (.missing index)

/-- The records of a session in the order of playing. -/
def records (s : Session) : Except SessionError (List Record) :=
  recordsFrom 0 s.count.toNat s.table.entries

/-! ## Timelines -/

variable {T R S : Type} [Scalar T] [Arithmetic R] [Scalar S]

/-- What is kept of a segment. -/
def Record.ofSegment (segment : Segment R S) : Record :=
  ⟨segment.text, segment.window.start, segment.window.stop⟩

/-- The session of a timeline. -/
def ofTimeline (tl : Timeline T R S) : Session :=
  ofRecords (tl.entries.map fun entry => .ofSegment entry.2)

variable [OfScientific R]

/-- The segment that a record was kept of, at its index in the order of playing. -/
def Record.toSegment (record : Record) (index : Nat) (voice : Voice R S) :
    Except SessionError (Segment R S) := do
  let formula ← (Formula.parsePlayable record.text).mapError (.formula index)
  (Segment.create record.text formula record.start record.stop voice).mapError (.segment index)

/-- The timeline of a session. All its segments get one voice. -/
def toTimeline (s : Session) (voice : Voice R S) : Except SessionError (Timeline T R S) := do
  (← s.records).zipIdx.foldlM
    (fun tl (record, index) => do
      let segment ← record.toSegment index voice
      return (← (tl.push segment).mapError .transport).2)
    .empty

end Session

end Tonegraph
