import Tonegraph.Proofs.Document.Layout
import Tonegraph.Proofs.Rebuild
import Tonegraph.Session.Document
/-!
# Sessions are read back

A session that is written as a document is read back as it was (`Session.read_write`): strings and
integers by what is known of literals, records and tables by what is known of objects. A table holds
its records in ascending order of their indices, so putting them in one after the other in the order
they are written makes the same table again.

A timeline keeps less of itself in its session: the texts and windows of its segments, but not the
formulas. If every segment was made of the formula that its text is read as, then reading the
document builds the timeline anew (`Session.readTimeline_writeTimeline`).
-/

set_option autoImplicit false

namespace Tonegraph

namespace Session

open Document

/-! ## Records -/

theorem readSecond_takes (second : Int32) {rest : List Char} (ends : EndsNumber rest) :
    Takes readSecond ([' '] ++ integerText second.toInt ++ rest) second rest := by
  have least : Int32.minValue.toInt ≤ second.toInt := Int32.minValue_le_toInt second
  have most : second.toInt ≤ Int32.maxValue.toInt := Int32.toInt_le second
  have floor : Int64.minValue.toInt ≤ Int32.minValue.toInt := by decide
  have ceiling : Int32.maxValue.toInt < UInt64.size := by decide
  refine (integer_takes blank_isBlank ⟨least, most⟩ (by omega) (by omega) ends).bind ?_
  rw [Int32.ofInt_toInt]
  exact takes_pure second rest

theorem readRecord_takes (depth : Nat) (record : Record) (rest : List Char) :
    Takes readRecord ([' '] ++ writeRecord depth record ++ rest) record rest := by
  have filled : ∀ {fuel}, 3 < fuel →
      Takes (objectMembers recordMembers fuel true ⟨none, none, none⟩)
        (entriesText depth true
          [("TextRepresentation".toList, quoted record.text.toList),
            ("StartTime".toList, integerText record.start.toInt),
            ("EndTime".toList, integerText record.stop.toInt)] ++ rest)
        ⟨some record.text, some record.start, some record.stop⟩ rest := by
    intro fuel enough
    have text := (string_takes blank_isBlank record.text (entriesText depth false
      [("StartTime".toList, integerText record.start.toInt),
        ("EndTime".toList, integerText record.stop.toInt)] ++ rest)).into
      fun text => (⟨some text, none, none⟩ : RecordDraft)
    have start := (readSecond_takes record.start (endsNumber_entriesText depth
      [("EndTime".toList, integerText record.stop.toInt)] rest)).into
      fun start => (⟨some record.text, some start, none⟩ : RecordDraft)
    have stop := (readSecond_takes record.stop (endsNumber_entriesText depth [] rest)).into
      fun stop => (⟨some record.text, some record.start, some stop⟩ : RecordDraft)
    refine members_of_entry (fun enough => ?_) rfl rfl text enough
    refine members_of_entry (fun enough => ?_) rfl rfl start enough
    refine members_of_entry (fun enough => ?_) rfl rfl stop enough
    exact members_of_end recordMembers false depth _ rest enough
  unfold readRecord writeRecord
  refine recordOf_takes filled ?_ (List.cons_ne_nil _ _) blank_isBlank
  rfl

/-! ## Tables -/

namespace Table

theorem insertEntry_of_greatest {index : UInt64} (record : Record)
    {entries : List (UInt64 × Record)} (greatest : ∀ e ∈ entries, e.1 < index) :
    insertEntry index record entries = entries ++ [(index, record)] := by
  induction entries with
  | nil => rfl
  | cons first rest ih =>
      have below : first.1 < index := greatest first List.mem_cons_self
      rw [insertEntry, if_neg (UInt64.not_lt.mpr (UInt64.le_of_lt below)),
        if_neg (UInt64.ne_of_lt below).symm,
        ih fun e member => greatest e (List.mem_cons_of_mem _ member)]
      rfl

/-- Entries that go on ascending are put behind those that a table has. -/
theorem foldl_insert_entries {table : Table} {more : List (UInt64 × Record)}
    (ascending : (table.entries ++ more).Pairwise fun a b => a.1 < b.1) :
    (more.foldl (fun table e => table.insert e.1 e.2) table).entries = table.entries ++ more := by
  induction more generalizing table with
  | nil => simp
  | cons e more ih =>
      have greatest : ∀ old ∈ table.entries, old.1 < e.1 := fun old member =>
        (List.pairwise_append.mp ascending).2.2 old member e List.mem_cons_self
      have put : (table.insert e.1 e.2).entries = table.entries ++ [e] :=
        insertEntry_of_greatest e.2 greatest
      have behind := @ih (table.insert e.1 e.2) (by simpa [put] using ascending)
      rw [List.foldl_cons, behind, put, List.append_assoc]
      rfl

/-- A table is made of its own entries. -/
theorem foldl_insert (table : Table) :
    table.entries.foldl (fun table e => table.insert e.1 e.2) empty = table := by
  have entries := @foldl_insert_entries empty table.entries table.ascending
  cases table
  cases made : List.foldl _ _ _
  rw [made] at entries
  simpa [empty] using entries

end Table

theorem readTable_takes (depth : Nat) (table : Table) (rest : List Char) :
    Takes readTable ([' '] ++ writeTable depth table ++ rest) table rest := by
  have small : ∀ e ∈ table.entries.map fun e => (e.1.toNat, e.2),
      e.1 < UInt64.size ∧ e.1 < UInt64.size := by
    intro e member
    obtain ⟨entry, -, rfl⟩ := List.mem_map.mp member
    exact ⟨entry.1.toNat_lt_size, entry.1.toNat_lt_size⟩
  have taken : Takes readTable ([' '] ++ object depth _ ++ rest) _ rest :=
    tableOf_takes small (readRecord_takes (depth + 1)) Table.empty blank_isBlank rest
  simp only [List.map_map, List.foldl_map, UInt64.ofNat_toNat] at taken
  rw [Table.foldl_insert] at taken
  exact taken

/-! ## Documents -/

/-- A session as it stands in its document. -/
def sessionText (s : Session) : List Char :=
  object 1
    [("Count".toList, naturalText s.count.toNat), ("Functions".toList, writeTable 2 s.table)]

theorem readSession_takes (s : Session) (rest : List Char) :
    Takes readSession ([' '] ++ sessionText s ++ rest) s rest := by
  have filled : ∀ {fuel}, 2 < fuel →
      Takes (objectMembers sessionMembers fuel true ⟨none, none⟩)
        (entriesText 1 true
          [("Count".toList, naturalText s.count.toNat),
            ("Functions".toList, writeTable 2 s.table)] ++ rest)
        ⟨some s.count, some s.table⟩ rest := by
    intro fuel enough
    have small : s.count.toNat < UInt64.size := s.count.toNat_lt_size
    have within : (0 : Int) ≤ s.count.toNat ∧ (s.count.toNat : Int) ≤ UInt64.size - 1 := by omega
    have least : Int64.minValue.toInt ≤ 0 := by decide
    have count := (integer_takes blank_isBlank within (by omega) (by omega)
      (endsNumber_entriesText 1 [("Functions".toList, writeTable 2 s.table)] rest)).into
      fun count => (⟨some (.ofNat count.toNat), none⟩ : Draft)
    rw [integerText_natCast, Int.toNat_natCast, UInt64.ofNat_toNat] at count
    have table := (readTable_takes 2 s.table (entriesText 1 false [] ++ rest)).into
      fun table => (⟨some s.count, some table⟩ : Draft)
    refine members_of_entry (fun enough => ?_) rfl rfl count enough
    refine members_of_entry (fun enough => ?_) rfl rfl table enough
    exact members_of_end sessionMembers false 1 _ rest enough
  unfold readSession sessionText
  refine recordOf_takes filled ?_ (List.cons_ne_nil _ _) blank_isBlank
  rfl

theorem readDocument_takes (s : Session) (rest : List Char) :
    Takes (recordOf documentMembers none id)
      ([] ++ object 0 [("LowerTimeline".toList, sessionText s)] ++ rest) s rest := by
  have filled : ∀ {fuel}, 1 < fuel →
      Takes (objectMembers documentMembers fuel true none)
        (entriesText 0 true [("LowerTimeline".toList, sessionText s)] ++ rest) (some s) rest := by
    intro fuel enough
    have session := (readSession_takes s (entriesText 0 false [] ++ rest)).into Option.some
    have found : documentMembers.find? (·.name = "LowerTimeline") =
        some ⟨"LowerTimeline", (·.isSome), fun _ => do return some (← readSession)⟩ := rfl
    refine members_of_entry (fun enough => ?_) found rfl session enough
    exact members_of_end documentMembers false 0 _ rest enough
  refine recordOf_takes filled ?_ (List.cons_ne_nil _ _) nothing_isBlank
  rfl

/-- A session that is written is read back. -/
theorem read_write (s : Session) : read s.write = .ok s := by
  have text : s.write.toList = object 0 [("LowerTimeline".toList, sessionText s)] :=
    String.toList_ofList
  have taken := readDocument_takes s []
  rw [List.append_nil, List.nil_append] at taken
  rw [read, text, readAll_of_takes taken]
  rfl

/-! ## Records in their order -/

/-- Records under the indices from one on. -/
def indexedFrom (index : Nat) (records : List Record) : List (UInt64 × Record) :=
  (records.zipIdx index).map fun e => (.ofNat e.2, e.1)

theorem indexedFrom_cons (index : Nat) (record : Record) (records : List Record) :
    indexedFrom index (record :: records) =
      (.ofNat index, record) :: indexedFrom (index + 1) records := rfl

theorem indexedFrom_ascending {index : Nat} {records : List Record}
    (small : index + records.length ≤ UInt64.size) :
    (indexedFrom index records).Pairwise fun a b => a.1 < b.1 := by
  induction records generalizing index with
  | nil => exact .nil
  | cons record records ih =>
      rw [List.length_cons] at small
      rw [indexedFrom_cons]
      refine .cons (fun e member => ?_) (ih (by omega))
      obtain ⟨later, among, rfl⟩ := List.mem_map.mp member
      have bounds := List.mem_zipIdx among
      dsimp only
      rw [UInt64.lt_iff_toNat_lt, UInt64.toNat_ofNat_of_lt' (by omega),
        UInt64.toNat_ofNat_of_lt' (by omega)]
      omega

theorem recordsFrom_indexedFrom {index : Nat} {records : List Record}
    (small : index + records.length ≤ UInt64.size) :
    recordsFrom index records.length (indexedFrom index records) = .ok records := by
  induction records generalizing index with
  | nil => rfl
  | cons record records ih =>
      rw [List.length_cons] at small ⊢
      rw [indexedFrom_cons, recordsFrom, if_pos (UInt64.toNat_ofNat_of_lt' (by omega)),
        ih (by omega)]
      rfl

theorem ofRecords_entries {records : List Record} (small : records.length < UInt64.size) :
    (ofRecords records).table.entries = indexedFrom 0 records := by
  have ascending : (indexedFrom 0 records).Pairwise fun a b => a.1 < b.1 :=
    indexedFrom_ascending (by omega)
  have made := @Table.foldl_insert_entries .empty (indexedFrom 0 records) ascending
  rw [indexedFrom, List.foldl_map] at made
  exact made

/-- The records that a session is made of are those that it holds. -/
theorem records_ofRecords {records : List Record} (small : records.length < UInt64.size) :
    (ofRecords records).records = .ok records := by
  have entries := ofRecords_entries small
  have count : (ofRecords records).count.toNat = records.length := by
    have all : (ofRecords records).table.entries.length = records.length := by
      rw [entries, indexedFrom, List.length_map, List.length_zipIdx]
    exact (congrArg (fun n => (UInt64.ofNat n).toNat) all).trans (UInt64.toNat_ofNat_of_lt' small)
  rw [Session.records, count, entries]
  exact recordsFrom_indexedFrom (by omega)

end Session

/-! ## Timelines -/

section

variable {T R S : Type} [Scalar T] [Arithmetic R] [OfScientific R]

namespace Segment

/-- A segment that was created with a voice, of a text and of the formula that the text is read as,
however far it has been played since. -/
def Authored (voice : Voice R S) (s : Segment R S) : Prop :=
  ∃ text formula start stop created, Formula.parsePlayable text = .ok formula ∧
    Segment.create text formula start stop voice = .ok created ∧ created.SamePiece s

theorem authored_iff {voice : Voice R S} {s : Segment R S} :
    s.Authored voice ↔ Formula.parsePlayable s.text = .ok s.formula ∧ s.voice = voice := by
  constructor
  · rintro ⟨text, formula, start, stop, created, parsed, creates, same⟩
    obtain ⟨rfl, rfl, rfl⟩ := create_eq_ok creates
    rw [← same.text, ← same.formula, ← same.voice]
    exact ⟨parsed, rfl⟩
  · rintro ⟨parsed, rfl⟩
    exact ⟨_, _, _, _, _, parsed, s.create_eq_renewed, s.renewed_samePiece⟩

theorem Authored.setWindow {voice : Voice R S} {s changed : Segment R S} {start stop : Int32}
    (windowed : s.setWindow start stop = .ok changed) (authored : s.Authored voice) :
    changed.Authored voice := by
  obtain ⟨-, window, rfl⟩ := setWindow_eq_ok windowed
  rw [authored_iff] at authored ⊢
  exact authored

end Segment

namespace Session

/-- What is kept of a segment is enough to create it again. -/
theorem Record.toSegment_ofSegment {voice : Voice R S} {s : Segment R S}
    (authored : s.Authored voice) (index : Nat) :
    (Record.ofSegment s).toSegment index voice = .ok s.renewed := by
  obtain ⟨parsed, rfl⟩ := Segment.authored_iff.mp authored
  have parsed' : Formula.parsePlayable (Record.ofSegment s).text = .ok s.formula := parsed
  have created : Segment.create (Record.ofSegment s).text s.formula (Record.ofSegment s).start
      (Record.ofSegment s).stop s.voice = .ok s.renewed := s.create_eq_renewed
  rw [toSegment, parsed']
  exact congrArg (Except.mapError (SessionError.segment index)) created

/-- Reading what is kept of a timeline builds the timeline anew. -/
theorem toTimeline_ofTimeline {voice : Voice R S} {tl : Timeline T R S}
    (authored : ∀ e ∈ tl.entries, e.2.Authored voice) (small : tl.size < UInt64.size) :
    (ofTimeline tl).toTimeline voice = .ok (Timeline.anew (T := T) (tl.entries.map (·.2))) := by
  have kept : (ofTimeline tl).records = .ok (tl.entries.map fun e => .ofSegment e.2) :=
    records_ofRecords (by rwa [List.length_map])
  have segments : tl.entries.zipIdx.map (fun item => item.1.2.renewed) =
      (tl.entries.map (·.2)).map Segment.renewed := by
    calc tl.entries.zipIdx.map (fun item => item.1.2.renewed)
        = (tl.entries.zipIdx.map (·.1)).map (·.2.renewed) := by rw [List.map_map]; rfl
      _ = (tl.entries.map (·.2)).map Segment.renewed := by
          rw [List.zipIdx_map_fst, List.map_map]
          rfl
  rw [toTimeline, kept, Timeline.anew, ← segments]
  show List.foldlM _ _ _ = _
  rw [List.zipIdx_map, List.foldlM_map]
  refine Timeline.foldlM_push (fun before stopped item member => ?_) rfl
  have made := Record.toSegment_ofSegment (authored _ (List.fst_mem_of_mem_zipIdx member)) item.2
  show (do
    let segment ← (Record.ofSegment item.1.2).toSegment item.2 voice
    return (← (before.push segment).mapError SessionError.transport).2) = _
  rw [made]
  show (do return (← (before.push item.1.2.renewed).mapError SessionError.transport).2) = _
  rw [Timeline.push_eq_appended stopped]
  rfl

end Session

end

namespace Session

/-- A timeline of authored segments that is written as a document is read back. The timeline that
is read does not play, and its segments have the same texts, formulas, windows, lengths and
previews in the same order. The document counts the segments in 64 bits, so there must not be more
of them. -/
theorem readTimeline_writeTimeline {T R S : Type} [Scalar T] [Arithmetic R] [Scalar S]
    [OfScientific R] [Narrowing R S] {voice : Voice R S} {tl : Timeline T R S}
    (reached : tl.Reached (Call.Inserts (Segment.Authored voice)))
    (small : tl.size < UInt64.size) :
    ∃ back : Timeline T R S, readTimeline (writeTimeline tl) voice = .ok back ∧
      back.playing = false ∧
      back.entries.map (fun e => (e.2.text, e.2.formula, e.2.window, e.2.runTime, e.2.preview)) =
        tl.entries.map
          fun e => (e.2.text, e.2.formula, e.2.window, e.2.runTime, e.2.preview) := by
  have authored : ∀ e ∈ tl.entries, e.2.Authored voice := by
    refine reached.all (fun s => ?_) Segment.Authored.setWindow
    rw [Segment.authored_iff, Segment.authored_iff]
    rfl
  refine ⟨Timeline.anew (tl.entries.map (·.2)), ?_, rfl, ?_⟩
  · rw [readTimeline, writeTimeline, read_write]
    exact toTimeline_ofTimeline authored small
  · have same := congrArg
      (List.map fun s : Segment R S => (s.text, s.formula, s.window, s.runTime, s.preview))
      (Timeline.anew_segments (T := T) (tl.entries.map (·.2)))
    rw [List.map_map, List.map_map, List.map_map] at same
    exact same

/-! ## A rearranged timeline -/

/-- Two segments of one formula, the later one brought forward and given another window. -/
def rearranged : Timeline Float Float Float32 :=
  (Deck.after [.edit (.push .twoSeconds), .edit (.moveTo ⟨1⟩ 0), .edit (.setWindow ⟨1⟩ (-4) 4)]
    ⟨.ofSegment .twoSeconds, (Ring.ofCapacity 1 1 : Ring Float32)⟩).timeline

theorem twoSeconds_authored : Segment.twoSeconds.Authored .standard :=
  Segment.authored_iff.mpr ⟨rfl, rfl⟩

theorem rearranged_reached : rearranged.Reached (Call.Inserts (Segment.Authored .standard)) := by
  have pushed : (Timeline.ofSegment .twoSeconds : Timeline Float Float Float32).Reached
      (Call.Inserts (Segment.Authored .standard)) := Timeline.ofSegment_reached twoSeconds_authored
  apply Timeline.Reached.after pushed
  intro call member
  simp only [List.mem_cons, List.not_mem_nil, or_false] at member
  obtain rfl | rfl | rfl := member
  · exact twoSeconds_authored
  · trivial
  · trivial

/-- It is read back with the segments in their new order. -/
theorem rearranged_read_back :
    rearranged.Reached (Call.Inserts (Segment.Authored .standard)) ∧
      rearranged.size < UInt64.size ∧
      rearranged.entries.map (·.2.window.start.toInt) = [-4, 0] ∧
      ∃ back : Timeline Float Float Float32,
        readTimeline (writeTimeline rearranged) .standard = .ok back ∧ back.playing = false ∧
          back.entries.map (fun e =>
              (e.2.text, e.2.formula, e.2.window, e.2.runTime, e.2.preview)) =
            rearranged.entries.map
              fun e => (e.2.text, e.2.formula, e.2.window, e.2.runTime, e.2.preview) := by
  have small : rearranged.size < UInt64.size := by decide +kernel
  have order : rearranged.entries.map (·.2.window.start.toInt) = [-4, 0] := by decide +kernel
  exact ⟨rearranged_reached, small, order, readTimeline_writeTimeline rearranged_reached small⟩

end Session

end Tonegraph
