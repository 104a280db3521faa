import Mathlib.Data.List.Perm.Subperm
import Tonegraph.Proofs.Arithmetic.Fraction
import Tonegraph.Proofs.Formula.Names
import Tonegraph.Proofs.Session
import Tonegraph.Proofs.Traversal
/-!
# Which sessions make a timeline

A session makes a timeline when there is a sound record under each index below its count: one whose
text is a playable formula and whose bounds are in order. Otherwise the error names an index. The
records are looked up first, one index after the other, so a missing record is reported before a
record that is not sound (`records_eq_mapM`); of the records that are not sound the first is
reported, for its text before its bounds. Loading is thus two passes through lists, and what each
of them gives is known of lists in general.

The lookups end with the first index that is missing. The indices before it are among those of the
table, so there are few lookups however great the count is (`lookUps_run`).
-/

set_option autoImplicit false

namespace Tonegraph

namespace Session

/-! ## Lookups -/

namespace Table

/-- The record under an index. -/
def get? (table : Table) (index : Nat) : Option Record :=
  (table.entries.find? (·.1.toNat = index)).map (·.2)

/-- The record under an index; it is an error if there is none. -/
def find (table : Table) (index : Nat) : Except SessionError Record :=
  match table.get? index with
  | some record => .ok record
  | none => .error (.missing index)

variable {table : Table} {index : Nat}

theorem find_eq_ok_iff {record : Record} :
    table.find index = .ok record ↔ table.get? index = some record := by
  rw [find]
  cases table.get? index <;> simp

theorem find_eq_error_iff {e : SessionError} :
    table.find index = .error e ↔ table.get? index = none ∧ e = .missing index := by
  rw [find]
  cases table.get? index <;> simp [eq_comm]

theorem mem_keys_of_get? {record : Record} (found : table.get? index = some record) :
    index ∈ table.entries.map (·.1.toNat) := by
  obtain ⟨entry, first, -⟩ := Option.map_eq_some_iff.mp found
  have key : entry.1.toNat = index := by simpa using List.find?_some first
  exact List.mem_map.mpr ⟨entry, List.mem_of_find?_eq_some first, key⟩

theorem get?_eq_none (absent : ∀ e ∈ table.entries, e.1.toNat ≠ index) :
    table.get? index = none := by
  rw [get?, Option.map_eq_none_iff, List.find?_eq_none]
  intro e member
  simpa using absent e member

/-- What stands in front of an entry is below it, and what stands behind it is above. -/
theorem ordered_of_entries {passed left : List (UInt64 × Record)} {entry : UInt64 × Record}
    (entries : table.entries = passed ++ entry :: left) :
    (∀ e ∈ passed, e.1.toNat < entry.1.toNat) ∧ ∀ e ∈ left, entry.1.toNat < e.1.toNat := by
  have ascending := table.ascending
  rw [entries] at ascending
  obtain ⟨-, behind, across⟩ := List.pairwise_append.mp ascending
  constructor
  · intro e member
    exact UInt64.lt_iff_toNat_lt.mp (across e member entry List.mem_cons_self)
  · intro e member
    exact UInt64.lt_iff_toNat_lt.mp (List.rel_of_pairwise_cons behind member)

theorem get?_of_entries {passed left : List (UInt64 × Record)} {entry : UInt64 × Record}
    (entries : table.entries = passed ++ entry :: left) :
    table.get? entry.1.toNat = some entry.2 := by
  have first : table.entries.find? (·.1.toNat = entry.1.toNat) = some entry := by
    refine List.find?_eq_some_iff_append.mpr ⟨by simp, passed, left, entries, fun e member => ?_⟩
    simpa using ((ordered_of_entries entries).1 e member).ne
  rw [get?, first, Option.map_some]

end Table

/-- Entries that ascend from an index on are what lookups from there on find. -/
theorem recordsFrom_eq_mapM {table : Table} {index count : Nat}
    {passed left : List (UInt64 × Record)} (entries : table.entries = passed ++ left)
    (below : ∀ e ∈ passed, e.1.toNat < index) (above : ∀ e ∈ left, index ≤ e.1.toNat) :
    recordsFrom index count left = (List.range' index count).mapM table.find := by
  induction count generalizing index passed left with
  | zero => cases left <;> rfl
  | succ count ih =>
      rw [List.range'_succ]
      cases left with
      | nil =>
          have absent : table.get? index = none := Table.get?_eq_none fun e member => by
            rw [entries, List.append_nil] at member
            exact (below e member).ne
          rw [mapM_cons_of_error (Table.find_eq_error_iff.mpr ⟨absent, rfl⟩)]
          rfl
      | cons entry rest =>
          obtain ⟨before, behind⟩ := Table.ordered_of_entries entries
          rw [recordsFrom]
          by_cases next : entry.1.toNat = index
          · subst next
            have found := Table.find_eq_ok_iff.mpr (Table.get?_of_entries entries)
            rw [if_pos rfl, mapM_cons_of_ok found]
            have below' : ∀ e ∈ passed ++ [entry], e.1.toNat < entry.1.toNat + 1 := by
              intro e member
              rcases List.mem_append.mp member with old | new
              · exact (before e old).trans (Nat.lt_succ_self _)
              · rw [List.mem_singleton.mp new]
                exact Nat.lt_succ_self _
            rw [← ih (by rw [entries, List.append_cons]) below' behind]
            cases recordsFrom (entry.1.toNat + 1) count rest <;> rfl
          · have least : index ≤ entry.1.toNat := above entry List.mem_cons_self
            have absent : table.get? index = none := Table.get?_eq_none fun e member => by
              rw [entries, List.mem_append, List.mem_cons] at member
              rcases member with old | rfl | later
              · exact (below e old).ne
              · exact next
              · have := behind e later
                omega
            rw [if_neg next, mapM_cons_of_error (Table.find_eq_error_iff.mpr ⟨absent, rfl⟩)]

theorem records_eq_mapM (s : Session) :
    s.records = (List.range s.count.toNat).mapM s.table.find := by
  rw [List.range_eq_range']
  exact recordsFrom_eq_mapM (List.nil_append _).symm (by simp) (by simp)

/-- The lookups of all records, each noted. -/
def lookUps (s : Session) : ExceptT SessionError (StateM (List Nat)) (List Record) :=
  (List.range s.count.toNat).mapM (noted s.table.find)

/-- A table has records under few indices from zero on. -/
theorem Table.le_length {table : Table} {n : Nat}
    (present : ∀ i < n, ∃ record, table.get? i = some record) : n ≤ table.entries.length := by
  have among : List.range n ⊆ table.entries.map (·.1.toNat) := by
    intro i member
    obtain ⟨record, found⟩ := present i (List.mem_range.mp member)
    exact Table.mem_keys_of_get? found
  have fewer := (List.subperm_of_subset List.nodup_range among).length_le
  rwa [List.length_range, List.length_map] at fewer

/-- The lookups go on from index to index, and no further than to one that is not in the table. -/
theorem lookUps_run (s : Session) :
    ∃ looked, s.lookUps.run.run [] = (s.records, List.range looked) ∧
      looked ≤ s.table.entries.length + 1 := by
  obtain ⟨looked, looked_eq⟩ : ∃ looked,
      visited s.table.find (List.range s.count.toNat) = List.range looked := by
    have front := visited_prefix (f := s.table.find) (List.range s.count.toNat)
    rw [List.prefix_iff_eq_take, List.take_range] at front
    exact ⟨_, front⟩
  refine ⟨looked, ?_, ?_⟩
  · rw [lookUps, run_mapM_noted, ← records_eq_mapM, looked_eq, List.nil_append]
  · have present : ∀ i < looked - 1, ∃ record, s.table.get? i = some record := by
      intro i small
      have member : i ∈ (visited s.table.find (List.range s.count.toNat)).dropLast := by
        rw [looked_eq, List.dropLast_eq_take, List.take_range, List.length_range, List.mem_range]
        omega
      obtain ⟨record, found⟩ := succeeds_of_mem_dropLast member
      exact ⟨record, Table.find_eq_ok_iff.mp found⟩
    have := Table.le_length present
    omega

/-! ## Records -/

theorem exists_records_iff {s : Session} :
    (∃ records, s.records = .ok records) ↔
      ∀ i < s.count.toNat, ∃ record, s.table.get? i = some record := by
  simp only [records_eq_mapM, exists_mapM_eq_ok_iff, List.mem_range, Table.find_eq_ok_iff]

theorem length_of_records {s : Session} {records : List Record} (kept : s.records = .ok records) :
    records.length = s.count.toNat := by
  rw [records_eq_mapM, mapM_eq_ok_iff] at kept
  have lengths := congrArg List.length kept
  rw [List.length_map, List.length_map, List.length_range] at lengths
  exact lengths.symm

theorem getElem?_of_records {s : Session} {records : List Record} (kept : s.records = .ok records)
    {i : Nat} (within : i < s.count.toNat) : records[i]? = s.table.get? i := by
  rw [records_eq_mapM, mapM_eq_ok_iff] at kept
  have at_i := congrArg (·[i]?) kept
  simp only [List.getElem?_map, List.getElem?_range within, Option.map_some] at at_i
  obtain ⟨record, at_place, found⟩ := Option.map_eq_some_iff.mp at_i.symm
  rw [at_place, Table.find_eq_ok_iff.mp found.symm]

theorem getElem?_records_eq_some_iff {s : Session} {records : List Record}
    (kept : s.records = .ok records) {i : Nat} {record : Record} :
    records[i]? = some record ↔ i < s.count.toNat ∧ s.table.get? i = some record := by
  rw [← length_of_records kept]
  constructor
  · intro at_i
    obtain ⟨within, -⟩ := List.getElem?_eq_some_iff.mp at_i
    exact ⟨within, by rwa [← getElem?_of_records kept (length_of_records kept ▸ within)]⟩
  · rintro ⟨within, found⟩
    rwa [getElem?_of_records kept (length_of_records kept ▸ within)]

/-- The records with their indices. -/
theorem getElem?_zipIdx_records_iff {s : Session} {records : List Record}
    (kept : s.records = .ok records) {i j : Nat} {record : Record} :
    records.zipIdx[i]? = some (record, j) ↔
      j = i ∧ i < s.count.toNat ∧ s.table.get? i = some record := by
  rw [List.getElem?_zipIdx, Option.map_eq_some_iff, ← getElem?_records_eq_some_iff kept]
  simp [and_comm, eq_comm]

theorem records_eq_error_iff {s : Session} {e : SessionError} :
    s.records = .error e ↔
      ∃ m < s.count.toNat, s.table.get? m = none ∧
        (∀ i < m, ∃ record, s.table.get? i = some record) ∧ e = .missing m := by
  rw [records_eq_mapM, mapM_eq_error_iff]
  constructor
  · rintro ⟨m, x, at_m, fails, before⟩
    obtain ⟨within, rfl⟩ := List.getElem?_eq_some_iff.mp at_m
    rw [List.length_range] at within
    rw [List.getElem_range] at fails
    obtain ⟨absent, rfl⟩ := Table.find_eq_error_iff.mp fails
    refine ⟨m, within, absent, fun i small => ?_, rfl⟩
    obtain ⟨record, found⟩ := before i small i (List.getElem?_range (small.trans within))
    exact ⟨record, Table.find_eq_ok_iff.mp found⟩
  · rintro ⟨m, within, absent, before, rfl⟩
    refine ⟨m, m, List.getElem?_range within, Table.find_eq_error_iff.mpr ⟨absent, rfl⟩, ?_⟩
    intro j small i at_j
    rw [List.getElem?_range (small.trans within), Option.some.injEq] at at_j
    subst at_j
    obtain ⟨record, found⟩ := before j small
    exact ⟨record, Table.find_eq_ok_iff.mpr found⟩

/-! ## Segments -/

section

variable {T R S : Type} [Arithmetic R]

section

omit [Arithmetic R]

/-- Making segments and putting each behind those before it is making all of them first. -/
theorem foldlM_push_eq {α : Type} {make : α → Except SessionError (Segment R S)} {items : List α}
    {tl : Timeline T R S} (stopped : tl.playing = false) :
    items.foldlM
        (fun tl item => do
          let segment ← make item
          return (← (tl.push segment).mapError .transport).2) tl =
      (items.mapM make).map tl.appended := by
  induction items generalizing tl with
  | nil => exact congrArg Except.ok tl.appended_nil.symm
  | cons item rest ih =>
      rw [List.foldlM_cons]
      cases made : make item with
      | error e =>
          rw [mapM_cons_of_error made]
          rfl
      | ok segment =>
          rw [mapM_cons_of_ok made]
          have stopped' : (tl.appended [segment]).playing = false := stopped
          have pushed : (do return (← (tl.push segment).mapError SessionError.transport).2) =
              Except.ok (tl.appended [segment]) := by
            rw [Timeline.push_eq_appended stopped]
            rfl
          dsimp only [bind, Except.bind] at pushed ⊢
          rw [pushed]
          refine (ih stopped').trans ?_
          cases rest.mapM make with
          | error e => rfl
          | ok segments => exact congrArg Except.ok (tl.appended_append [segment] segments)

end

variable [OfScientific R]

/-- A record that a segment can be made of. -/
def Record.Sound (R : Type) [Arithmetic R] [OfScientific R] (record : Record) : Prop :=
  (∃ x : Formula R, Formula.parsePlayable record.text = .ok x) ∧ record.start < record.stop

/-- A segment that is made of a record with a voice, and not played. -/
structure Record.Makes (record : Record) (voice : Voice R S) (segment : Segment R S) : Prop where
  text : segment.text = record.text
  formula : Formula.parsePlayable record.text = .ok segment.formula
  start : segment.window.start = record.start
  stop : segment.window.stop = record.stop
  voice : segment.voice = voice
  idle : segment.playing = false

namespace Record

variable {record : Record} {index : Nat} {voice : Voice R S}

theorem toSegment_of_refused {fault : SyntaxError}
    (refused : Formula.parsePlayable (R := R) record.text = .error fault) :
    record.toSegment index voice = .error (.formula index fault) := by
  rw [toSegment, refused]
  rfl

theorem toSegment_of_parsed {x : Formula R} (parsed : Formula.parsePlayable record.text = .ok x) :
    record.toSegment index voice =
      (Segment.create record.text x record.start record.stop voice).mapError (.segment index) := by
  rw [toSegment, parsed]
  rfl

theorem toSegment_of_sound (sound : record.Sound R) :
    ∃ segment, record.toSegment index voice = .ok segment ∧ record.Makes voice segment := by
  obtain ⟨⟨x, parsed⟩, ordered⟩ := sound
  have closed := (Formula.parsePlayable_eq_ok_iff.mp parsed).2
  rw [toSegment_of_parsed parsed, Segment.create_of_lt closed ordered]
  exact ⟨_, rfl, rfl, parsed, rfl, rfl, rfl, rfl⟩

theorem toSegment_of_empty {x : Formula R} (parsed : Formula.parsePlayable record.text = .ok x)
    (empty : ¬record.start < record.stop) :
    record.toSegment index voice =
      .error (.segment index (.window (.empty record.start record.stop))) := by
  have closed := (Formula.parsePlayable_eq_ok_iff.mp parsed).2
  rw [toSegment_of_parsed parsed, Segment.create_of_not_lt closed empty]
  rfl

/-- What is wrong with a record: its text, or else its bounds. -/
inductive Blames (R : Type) [Arithmetic R] [OfScientific R] (record : Record) (index : Nat) :
    SessionError → Prop
  | formula {fault : SyntaxError}
      (refused : Formula.parsePlayable (R := R) record.text = .error fault) :
      Blames R record index (.formula index fault)
  | window {x : Formula R} (parsed : Formula.parsePlayable record.text = .ok x)
      (empty : ¬record.start < record.stop) :
      Blames R record index (.segment index (.window (.empty record.start record.stop)))

theorem toSegment_of_blames {e : SessionError} (blames : record.Blames R index e) :
    record.toSegment index voice = .error e := by
  cases blames with
  | formula refused => exact toSegment_of_refused refused
  | window parsed empty => exact toSegment_of_empty parsed empty

theorem sound_or_blames (R : Type) [Arithmetic R] [OfScientific R] (record : Record) (index : Nat) :
    record.Sound R ∨ ∃ e, record.Blames R index e := by
  cases parsed : Formula.parsePlayable (R := R) record.text with
  | error fault => exact .inr ⟨_, .formula parsed⟩
  | ok x =>
      by_cases ordered : record.start < record.stop
      · exact .inl ⟨⟨x, parsed⟩, ordered⟩
      · exact .inr ⟨_, .window parsed ordered⟩

theorem toSegment_isOk_iff :
    (∃ segment, record.toSegment index voice = .ok segment) ↔ record.Sound R := by
  constructor
  · rintro ⟨segment, made⟩
    rcases sound_or_blames R record index with sound | ⟨e, blames⟩
    · exact sound
    · rw [toSegment_of_blames blames] at made
      cases made
  · intro sound
    obtain ⟨segment, made, -⟩ := toSegment_of_sound sound
    exact ⟨segment, made⟩

theorem makes_of_toSegment {segment : Segment R S}
    (made : record.toSegment index voice = .ok segment) : record.Makes voice segment := by
  obtain ⟨segment', made', makes⟩ := toSegment_of_sound (toSegment_isOk_iff.mp ⟨segment, made⟩)
  rw [made, Except.ok.injEq] at made'
  rwa [made']

theorem toSegment_eq_error_iff {e : SessionError} :
    record.toSegment index voice = .error e ↔ record.Blames R index e := by
  constructor
  · intro fails
    rcases sound_or_blames R record index with sound | ⟨e', blames⟩
    · obtain ⟨segment, made, -⟩ := toSegment_of_sound sound
      rw [made] at fails
      cases fails
    · rw [toSegment_of_blames blames] at fails
      cases fails
      exact blames
  · exact toSegment_of_blames

end Record

/-! ## Timelines -/

variable [Scalar T]

theorem toTimeline_of_error {s : Session} {e : SessionError} {voice : Voice R S}
    (fails : s.records = .error e) : s.toTimeline (T := T) voice = .error e := by
  rw [toTimeline, fails]
  rfl

/-- The segments that records make, each at its index. -/
def segmentsOf (records : List Record) (voice : Voice R S) :
    Except SessionError (List (Segment R S)) :=
  records.zipIdx.mapM fun item => item.1.toSegment item.2 voice

/-- The timeline that a session makes: for each index its record's segment, in this order. -/
structure Loads (s : Session) (voice : Voice R S) (tl : Timeline T R S) : Prop where
  stopped : tl.playing = false
  size : tl.entries.length = s.count.toNat
  entry : ∀ i < s.count.toNat, ∃ record segment,
    s.table.get? i = some record ∧ tl.entries[i]? = some (⟨i⟩, segment) ∧
      record.Makes voice segment

/-- There is a sound record under an index. -/
def SoundAt (R : Type) [Arithmetic R] [OfScientific R] (s : Session) (index : Nat) : Prop :=
  ∃ record, s.table.get? index = some record ∧ record.Sound R

/-- What is wrong with a session: the first index without a record or, where there are records
under all, the first record that is not sound. -/
inductive Blames (R : Type) [Arithmetic R] [OfScientific R] (s : Session) : SessionError → Prop
  | missing {m : Nat} (within : m < s.count.toNat) (absent : s.table.get? m = none)
      (before : ∀ i < m, ∃ record, s.table.get? i = some record) : Blames R s (.missing m)
  | record {i : Nat} {record : Record} {e : SessionError}
      (complete : ∀ j < s.count.toNat, ∃ record, s.table.get? j = some record)
      (within : i < s.count.toNat) (before : ∀ j < i, s.SoundAt R j)
      (found : s.table.get? i = some record) (blames : record.Blames R i e) : Blames R s e

section

variable {s : Session} {records : List Record} {voice : Voice R S} (kept : s.records = .ok records)

include kept

/-- With records under all indices, a record under an index is sound when the index has one that
is. -/
theorem soundAt_iff {i : Nat} (within : i < s.count.toNat) :
    s.SoundAt R i ↔ ∀ record, s.table.get? i = some record → record.Sound R := by
  obtain ⟨record, found⟩ := exists_records_iff.mp ⟨records, kept⟩ i within
  simp [SoundAt, found]

theorem segmentsOf_eq_error_iff {e : SessionError} :
    segmentsOf records voice = .error e ↔
      ∃ i record, i < s.count.toNat ∧ s.table.get? i = some record ∧ record.Blames R i e ∧
        ∀ j < i, s.SoundAt R j := by
  rw [segmentsOf, mapM_eq_error_iff]
  simp only [Prod.exists, Prod.forall, getElem?_zipIdx_records_iff kept,
    Record.toSegment_eq_error_iff, Record.toSegment_isOk_iff]
  constructor
  · rintro ⟨i, record, _, ⟨rfl, within, found⟩, blames, before⟩
    refine ⟨_, record, within, found, blames, fun j earlier => ?_⟩
    have within' := earlier.trans within
    exact (soundAt_iff kept within').mpr fun record' found' =>
      before j earlier record' j ⟨rfl, within', found'⟩
  · rintro ⟨i, record, within, found, blames, before⟩
    refine ⟨i, record, i, ⟨rfl, within, found⟩, blames, ?_⟩
    rintro j earlier record' _ ⟨rfl, within', found'⟩
    exact (soundAt_iff kept within').mp (before _ earlier) record' found'

theorem exists_segmentsOf_iff :
    (∃ segments, segmentsOf records voice = .ok segments) ↔
      ∀ i < s.count.toNat, s.SoundAt R i := by
  rw [segmentsOf, exists_mapM_eq_ok_iff]
  simp only [Prod.forall, List.mem_iff_getElem?, getElem?_zipIdx_records_iff kept,
    Record.toSegment_isOk_iff]
  constructor
  · intro all i within
    exact (soundAt_iff kept within).mpr fun record found => all record i ⟨i, rfl, within, found⟩
  · rintro all record _ ⟨i, rfl, within, found⟩
    exact (soundAt_iff kept within).mp (all _ within) record found

theorem makes_of_segmentsOf {segments : List (Segment R S)}
    (made : segmentsOf records voice = .ok segments) :
    segments.length = s.count.toNat ∧ ∀ i < s.count.toNat, ∃ record segment,
      s.table.get? i = some record ∧ segments[i]? = some segment ∧ record.Makes voice segment := by
  rw [segmentsOf, mapM_eq_ok_iff] at made
  constructor
  · have lengths := congrArg List.length made
    rw [List.length_map, List.length_map, List.length_zipIdx, length_of_records kept] at lengths
    exact lengths.symm
  · intro i within
    obtain ⟨record, found⟩ := exists_records_iff.mp ⟨records, kept⟩ i within
    have at_i : records.zipIdx[i]? = some (record, i) :=
      (getElem?_zipIdx_records_iff kept).mpr ⟨rfl, within, found⟩
    have made_i := congrArg (·[i]?) made
    simp only [List.getElem?_map, at_i, Option.map_some] at made_i
    obtain ⟨segment, at_place, made'⟩ := Option.map_eq_some_iff.mp made_i.symm
    exact ⟨record, segment, found, at_place, Record.makes_of_toSegment made'.symm⟩

end

section

variable {s : Session} {voice : Voice R S}

theorem toTimeline_of_records {records : List Record} (kept : s.records = .ok records) :
    s.toTimeline (T := T) voice = (segmentsOf records voice).map Timeline.empty.appended := by
  rw [toTimeline, kept]
  exact foldlM_push_eq rfl

theorem exists_toTimeline_iff :
    (∃ tl : Timeline T R S, s.toTimeline voice = .ok tl) ↔ ∀ i < s.count.toNat, s.SoundAt R i := by
  cases kept : s.records with
  | error e =>
      rw [toTimeline_of_error kept]
      obtain ⟨m, within, absent, -⟩ := records_eq_error_iff.mp kept
      constructor
      · rintro ⟨tl, ⟨⟩⟩
      · intro all
        obtain ⟨record, found, -⟩ := all m within
        rw [absent] at found
        cases found
  | ok records =>
      have made : (∃ segments, segmentsOf records voice = .ok segments) ↔ _ :=
        exists_segmentsOf_iff kept
      rw [toTimeline_of_records kept, ← made]
      cases segmentsOf records voice <;> simp [Except.map]

theorem loads_of_toTimeline {tl : Timeline T R S} (made : s.toTimeline voice = .ok tl) :
    s.Loads voice tl := by
  cases kept : s.records with
  | error e =>
      rw [toTimeline_of_error kept] at made
      cases made
  | ok records =>
      rw [toTimeline_of_records kept] at made
      cases segments_eq : segmentsOf records voice with
      | error e =>
          rw [segments_eq] at made
          cases made
      | ok segments =>
          rw [segments_eq] at made
          cases made
          obtain ⟨length, makes⟩ := makes_of_segmentsOf kept segments_eq
          refine ⟨rfl, ?_, fun i within => ?_⟩
          · simpa [Timeline.appended, Timeline.empty] using length
          · obtain ⟨record, segment, found, at_i, makes⟩ := makes i within
            refine ⟨record, segment, found, ?_, makes⟩
            simp [Timeline.appended, Timeline.empty, at_i]

theorem toTimeline_eq_error_iff {e : SessionError} :
    s.toTimeline (T := T) voice = .error e ↔ s.Blames R e := by
  cases kept : s.records with
  | error e' =>
      rw [toTimeline_of_error kept, Except.error.injEq]
      constructor
      · rintro rfl
        obtain ⟨m, within, absent, before, rfl⟩ := records_eq_error_iff.mp kept
        exact .missing within absent before
      · intro blames
        cases blames with
        | missing within absent before =>
            have missing := records_eq_error_iff.mpr ⟨_, within, absent, before, rfl⟩
            rw [kept, Except.error.injEq] at missing
            exact missing
        | record complete =>
            obtain ⟨records, kept'⟩ := exists_records_iff.mpr complete
            rw [kept] at kept'
            cases kept'
  | ok records =>
      have refused : (segmentsOf records voice).map (Timeline.empty (T := T)).appended = .error e ↔
          segmentsOf records voice = .error e := by
        cases segmentsOf records voice <;> simp [Except.map]
      rw [toTimeline_of_records kept, refused, segmentsOf_eq_error_iff kept]
      have complete := exists_records_iff.mp ⟨records, kept⟩
      constructor
      · rintro ⟨i, record, within, found, blames, before⟩
        exact .record complete within before found blames
      · intro blames
        cases blames with
        | missing within absent =>
            obtain ⟨record, found⟩ := complete _ within
            rw [absent] at found
            cases found
        | record _ within before found blames =>
            exact ⟨_, _, within, found, blames, before⟩

/-- **Loading accepts the sound sessions and names what is wrong with the others.** A session makes
a timeline just when there is a sound record under each index below its count, and then it is the
timeline of these records. Otherwise the error is what the session is to blame for; it is never one
of the transport, nor one of a segment other than that its window is empty. However great the count
is, no more indices are looked up than there are records, and one more. -/
theorem toTimeline_blames (s : Session) (voice : Voice R S) :
    ((∃ tl : Timeline T R S, s.toTimeline voice = .ok tl) ↔
      ∀ i < s.count.toNat, s.SoundAt R i) ∧
    (∀ tl : Timeline T R S, s.toTimeline voice = .ok tl → s.Loads voice tl) ∧
    (∀ e, s.toTimeline (T := T) voice = .error e ↔ s.Blames R e) ∧
    (∀ e, s.toTimeline (T := T) voice ≠ .error (.transport e)) ∧
    (∀ i e, s.toTimeline (T := T) voice = .error (.segment i e) →
      ∃ start stop, e = .window (.empty start stop)) ∧
    ∃ looked, s.lookUps.run.run [] = (s.records, List.range looked) ∧
      looked ≤ s.table.entries.length + 1 := by
  refine ⟨exists_toTimeline_iff, fun tl made => loads_of_toTimeline made,
    fun e => toTimeline_eq_error_iff, fun e fails => ?_, fun i e fails => ?_, lookUps_run s⟩
  · rcases toTimeline_eq_error_iff.mp fails with _ | ⟨_, _, _, _, blames⟩
    cases blames
  · rcases toTimeline_eq_error_iff.mp fails with _ | ⟨_, _, _, _, blames⟩
    cases blames
    exact ⟨_, _, rfl⟩

end

end

/-- A sound record, one without a length, and behind a gap one that cannot be read. -/
def gapped (count : UInt64) : Session where
  count := count
  table := ⟨[(0, ⟨"t", 0, 1⟩), (1, ⟨"t", 2, 2⟩), (5, ⟨"t+", 0, 1⟩)], by decide⟩

/-- One record is loaded, with two the second is at fault, and with three there is one missing. -/
theorem gapped_blames :
    let voice : Voice Fraction ℚ := ⟨Scalar.ofNat 0, 1, .piano⟩
    (∀ i < (gapped 1).count.toNat, (gapped 1).SoundAt Fraction i) ∧
      (∃ tl : Timeline ℚ Fraction ℚ,
        (gapped 1).toTimeline voice = .ok tl ∧ (gapped 1).Loads voice tl) ∧
      (gapped 2).Blames Fraction (.segment 1 (.window (.empty 2 2))) ∧
      (gapped 2).toTimeline (T := ℚ) voice = .error (.segment 1 (.window (.empty 2 2))) ∧
      (∃ start stop, SegmentError.window (.empty 2 2) = .window (.empty start stop)) ∧
      (gapped 3).Blames Fraction (.missing 2) ∧
      (gapped 3).toTimeline (T := ℚ) voice = .error (.missing 2) := by
  intro voice
  have read : Formula.parsePlayable "t" = .ok (.named "t" : Formula Fraction) := by decide +kernel
  have first (count : UInt64) : (gapped count).SoundAt Fraction 0 :=
    ⟨⟨"t", 0, 1⟩, rfl, ⟨_, read⟩, by decide⟩
  have present (count : UInt64) : ∀ i < 2, ∃ record, (gapped count).table.get? i = some record
    | 0, _ => ⟨_, rfl⟩
    | 1, _ => ⟨_, rfl⟩
  have sound : ∀ i < (gapped 1).count.toNat, (gapped 1).SoundAt Fraction i
    | 0, _ => first 1
  have window_empty :
      Record.Blames Fraction ⟨"t", 2, 2⟩ 1 (.segment 1 (.window (.empty 2 2))) :=
    .window read (by decide)
  have before : ∀ j < 1, (gapped 2).SoundAt Fraction j
    | 0, _ => first 2
  have within : 1 < (gapped 2).count.toNat := by decide
  have empty : (gapped 2).Blames Fraction (.segment 1 (.window (.empty 2 2))) :=
    .record (present 2) within before rfl window_empty
  have missing : (gapped 3).Blames Fraction (.missing 2) := .missing (by decide) rfl (present 3)
  obtain ⟨accepts, loads, -⟩ := toTimeline_blames (T := ℚ) (gapped 1) voice
  obtain ⟨-, -, refuses, -, window, -⟩ := toTimeline_blames (T := ℚ) (gapped 2) voice
  obtain ⟨-, -, refuses', -⟩ := toTimeline_blames (T := ℚ) (gapped 3) voice
  obtain ⟨tl, made⟩ := accepts.mpr sound
  have refused := (refuses _).mpr empty
  exact ⟨sound, ⟨tl, made, loads tl made⟩, empty, refused, window 1 _ refused, missing,
    (refuses' _).mpr missing⟩

end Session

end Tonegraph
