import Tonegraph.CommandLine
import Tonegraph.Proofs.Decimal.Integer
import Tonegraph.Proofs.Loading
/-!
# What is created can be loaded

The command that creates a session looks at its words by itself: whether they come in threes, say
whole seconds, and make sound records (`recordsOf_eq_ok_iff`). Loading a document looks at records
in its own way and its own order. Both accept the same records, so every document that is created
can be loaded, whatever the voice, and what can be loaded can be created
(`create_agrees_with_load`). On the way from the one to the other lies the document's text.
-/

set_option autoImplicit false

namespace Tonegraph

/-! ## Loading records -/

section

variable {T R S : Type} [Arithmetic R] [OfScientific R]

/-- The timeline that a session makes lists its records. -/
theorem Session.Loads.listed {s : Session} {records : List Session.Record} {voice : Voice R S}
    {tl : Timeline T R S} (loads : s.Loads voice tl) (kept : s.records = .ok records) :
    tl.entries.map (fun e => .ofSegment e.2) = records := by
  apply List.ext_getElem?
  intro i
  by_cases within : i < s.count.toNat
  · obtain ⟨record, segment, found, at_i, makes⟩ := loads.entry i within
    rw [List.getElem?_map, at_i, getElem?_of_records kept within, found, Option.map_some,
      Record.ofSegment, makes.text, makes.start, makes.stop]
  · have size := loads.size
    have length := length_of_records kept
    rw [List.getElem?_eq_none (by rw [List.length_map]; omega), List.getElem?_eq_none (by omega)]

variable [Scalar T]

theorem Studio.load_eq_ok_iff {studio loaded : Studio T R S} {text : String} :
    studio.load text = (.ok (), loaded) ↔
      ∃ tl, Session.readTimeline text studio.voice = .ok tl ∧
        { studio.stop with timeline := tl } = loaded := by
  rw [load]
  cases Session.readTimeline (T := T) text studio.voice <;> simp

/-- A session makes a timeline when all its records are sound. -/
theorem Session.exists_toTimeline_iff_sound {s : Session} {records : List Session.Record}
    (voice : Voice R S) (kept : s.records = .ok records) :
    (∃ tl : Timeline T R S, s.toTimeline voice = .ok tl) ↔
      ∀ record ∈ records, record.Sound R := by
  rw [exists_toTimeline_iff]
  constructor
  · intro all record member
    obtain ⟨i, at_i⟩ := List.mem_iff_getElem?.mp member
    obtain ⟨within, found⟩ := (getElem?_records_eq_some_iff kept).mp at_i
    exact (soundAt_iff kept within).mp (all i within) record found
  · intro all i within
    refine (soundAt_iff kept within).mpr fun record found => all record ?_
    exact List.mem_of_getElem? ((getElem?_records_eq_some_iff kept).mpr ⟨within, found⟩)

namespace Studio

variable {studio loaded : Studio T R S} {records : List Session.Record}

/-- A document of records is loaded when they are all sound. -/
theorem exists_load_iff (studio : Studio T R S) (few : records.length < UInt64.size) :
    (∃ loaded, studio.load (Session.ofRecords records).write = (.ok (), loaded)) ↔
      ∀ record ∈ records, record.Sound R := by
  rw [← Session.exists_toTimeline_iff_sound (T := T) studio.voice
    (Session.records_ofRecords few)]
  simp only [load_eq_ok_iff, Session.readTimeline, Session.read_write]
  constructor
  · rintro ⟨loaded, tl, made, -⟩
    exact ⟨tl, made⟩
  · rintro ⟨tl, made⟩
    exact ⟨_, tl, made, rfl⟩

theorem listed_of_load (few : records.length < UInt64.size)
    (done : studio.load (Session.ofRecords records).write = (.ok (), loaded)) :
    loaded.timeline.entries.map (fun e => .ofSegment e.2) = records := by
  obtain ⟨tl, made, rfl⟩ := load_eq_ok_iff.mp done
  rw [Session.readTimeline, Session.read_write] at made
  exact (Session.loads_of_toTimeline made).listed (Session.records_ofRecords few)

end Studio

end

/-! ## Words -/

namespace CommandLine

open Session (Record)

/-- Words that tell records: three for each, its text and what spells its bounds. -/
inductive Tell : List String → List Record → Prop
  | nil : Tell [] []
  | cons {start stop : String} {record : Record} {words : List String} {records : List Record}
      (start_spelled : Decimal.Spells start.toList record.start.toInt)
      (stop_spelled : Decimal.Spells stop.toList record.stop.toInt) (rest : Tell words records) :
      Tell (record.text :: start :: stop :: words) (record :: records)

/-- The words for records, with the bounds in decimal. -/
def wordsOf (records : List Record) : List String :=
  records.flatMap fun record =>
    [record.text, toString record.start.toInt, toString record.stop.toInt]

theorem tell_wordsOf (records : List Record) : Tell (wordsOf records) records := by
  induction records with
  | nil => exact .nil
  | cons record records ih =>
      exact .cons (Decimal.spells_toString _) (Decimal.spells_toString _) ih

theorem Tell.length {words : List String} {records : List Record} (tell : Tell words records) :
    words.length = 3 * records.length := by
  induction tell with
  | nil => rfl
  | cons _ _ _ ih =>
      simp only [List.length_cons, ih]
      omega

/-! ## Reading words -/

theorem secondOf_eq_ok_iff {index : Nat} {word : String} {second : Int32} :
    secondOf index word = .ok second ↔ Decimal.Spells word.toList second.toInt := by
  have read (n : Int) :
      Decimal.readInteger Int32.minValue.toInt Int32.maxValue.toInt word.toList = .ok n ↔ _ :=
    Decimal.readInteger_eq_ok_iff (by decide) (by decide)
  constructor
  · intro done
    unfold secondOf at done
    split at done
    · rename_i n found
      cases done
      obtain ⟨spells, least, most⟩ := (read n).mp found
      have least' : -2 ^ 31 ≤ n := least
      have most' : n ≤ 2 ^ 31 - 1 := most
      rwa [Int32.toInt_ofInt_of_le least' (by omega)]
    · cases done
  · intro spells
    have found := (read second.toInt).mpr
      ⟨spells, Int32.minValue_le_toInt second, Int32.toInt_le second⟩
    rw [secondOf, found]
    dsimp only
    rw [Int32.ofInt_toInt]

/-- Three words are read as the record that they tell, when it is sound. -/
theorem recordOf_eq_ok_iff {index : Nat} {text start stop : String} {record : Record} :
    recordOf index text start stop = .ok record ↔
      record.text = text ∧ Decimal.Spells start.toList record.start.toInt ∧
        Decimal.Spells stop.toList record.stop.toInt ∧ record.Sound Float := by
  simp only [recordOf, bind_eq_ok_iff, secondOf_eq_ok_iff]
  constructor
  · rintro ⟨first, first_spelled, last, last_spelled, x, parsed, ordered⟩
    split at ordered
    · rename_i before
      cases ordered
      rcases found : Formula.parsePlayable (R := Float) text with fault | y
      · rw [found] at parsed
        cases parsed
      · exact ⟨rfl, first_spelled, last_spelled, ⟨y, found⟩, before⟩
    · cases ordered
  · rintro ⟨rfl, first_spelled, last_spelled, ⟨x, parsed⟩, before⟩
    refine ⟨_, first_spelled, _, last_spelled, x, ?_, ?_⟩
    · rw [parsed]
      rfl
    · rw [if_pos before]
      rfl

/-- Words in threes are read as the records that they tell, when these are sound. -/
theorem recordsFrom_eq_ok_iff {index : Nat} {words : List String} {records : List Record}
    (threes : words.length % 3 = 0) :
    recordsFrom index words = .ok records ↔
      Tell words records ∧ ∀ record ∈ records, record.Sound Float := by
  induction index, words using recordsFrom.induct generalizing records with
  | case1 index text start stop rest ih =>
      have threes' : rest.length % 3 = 0 := by
        simp only [List.length_cons] at threes
        omega
      simp only [recordsFrom, bind_eq_ok_iff, recordOf_eq_ok_iff, ih threes']
      constructor
      · rintro ⟨record, ⟨rfl, first, last, sound⟩, others, ⟨told, all⟩, ⟨⟩⟩
        exact ⟨.cons first last told, List.forall_mem_cons.mpr ⟨sound, all⟩⟩
      · rintro ⟨told, all⟩
        cases told with
        | cons first last told =>
            obtain ⟨sound, all⟩ := List.forall_mem_cons.mp all
            exact ⟨_, ⟨rfl, first, last, sound⟩, _, ⟨told, all⟩, rfl⟩
  | case2 words index other =>
      have none : words = [] := by
        rcases words with _ | ⟨_, _ | ⟨_, _ | ⟨_, _⟩⟩⟩
        · rfl
        · cases threes
        · cases threes
        · exact absurd rfl (other _ _ _ _)
      subst none
      constructor
      · rintro ⟨⟩
        exact ⟨.nil, by simp⟩
      · rintro ⟨⟨⟩, -⟩
        rfl

/-- Words are read as records when they tell them and these are sound. -/
theorem recordsOf_eq_ok_iff {words : List String} {records : List Record} :
    recordsOf words = .ok records ↔
      Tell words records ∧ ∀ record ∈ records, record.Sound Float := by
  rw [recordsOf]
  split
  · rename_i threes
    exact recordsFrom_eq_ok_iff threes
  · rename_i other
    refine iff_of_false (fun read => by cases read) fun told => other ?_
    rw [told.1.length, Nat.mul_mod_right]

/-! ## Creating -/

/-- A transcript after a document of so many segments was written into a file, or after it was said
why that cannot be. -/
def Transcript.saved (t : Transcript) (out document : String) (count : Nat) :
    Except UInt32 Unit × Transcript :=
  match t.folder.write out document.toUTF8 with
  | .ok folder =>
    (.ok (), { t with
      folder
      output := t.output ++ ("Wrote " ++ toString count ++ " segments to " ++ out ++ "\n") })
  | .error fault =>
    (.error 1, { t with
      errors := t.errors ++ ("Failed to write " ++ out ++ ": " ++ fault.message ++ "\n") })

theorem run_bind {α β : Type} (work : Work (StateM Transcript) α)
    (next : α → Work (StateM Transcript) β) (before : Transcript) :
    (work >>= next).run.run before =
      match work.run.run before with
      | (.ok a, after) => (next a).run.run after
      | (.error code, after) => (.error code, after) := by
  show (ExceptT.bindCont next (work.run.run before).1).run (work.run.run before).2 = _
  rcases work.run.run before with ⟨_ | _, _⟩ <;> rfl

theorem writeFile_run (out : String) (bytes : ByteArray) (before : Transcript) :
    (writeFile out bytes : Work (StateM Transcript) Unit).run.run before =
      match before.folder.write out bytes with
      | .ok folder => (.ok (), { before with folder })
      | .error fault =>
        (.error 1, { before with
          errors :=
            before.errors ++ ("Failed to write " ++ out ++ ": " ++ fault.message ++ "\n") }) := by
  have written : (Terminal.writeBytes out bytes : StateM Transcript _).run before =
      match before.folder.write out bytes with
      | .ok folder => (.ok (), { before with folder })
      | .error fault => (.error fault, before) := by
    show (match before.folder.write out bytes with
      | .ok folder => _
      | .error fault => _ : StateM Transcript (Except FileFault Unit)).run before = _
    cases before.folder.write out bytes <;> rfl
  show (match (Terminal.writeBytes out bytes : StateM Transcript _).run before with
    | (result, after) => (orFail ("Failed to write " ++ out ++ ": ") FileFault.message result :
        Work (StateM Transcript) Unit).run.run after) = _
  rw [written]
  cases before.folder.write out bytes <;> rfl

/-- What the command that creates a session does with words that it accepts. -/
theorem create_of_ok {words : List String} {records : List Record}
    (accepted : recordsOf words = .ok records) (out : String) (before : Transcript) :
    (create out words : Work (StateM Transcript) Unit).run.run before =
      before.saved out (Session.ofRecords records).write records.length := by
  rw [create, accepted, Transcript.saved]
  show ((writeFile out (Session.ofRecords records).write.toUTF8 >>= fun _ =>
    printLine ("Wrote " ++ toString records.length ++ " segments to " ++ out)) :
      Work (StateM Transcript) Unit).run.run before = _
  rw [run_bind, writeFile_run]
  cases before.folder.write out (Session.ofRecords records).write.toUTF8 with
  | ok folder => rfl
  | error fault => rfl

theorem textOfBytes_toUTF8 (text : String) : textOfBytes text.toUTF8 = .ok text := by
  have valid : text.toUTF8.IsValidUTF8 := text.isValidUTF8
  rw [textOfBytes, String.fromUTF8?, dif_pos valid]
  rfl

section

variable {T S : Type} [Scalar T]

/-- **What is created can be loaded, and what can be loaded can be created.** From words that it
accepts, the command writes the document of the records that they tell. Every studio loads it,
whatever its voice, as a timeline that lists these records. If a studio loads the document of some
records, then the command accepts them, with the bounds in decimal, and writes the same document.
The document counts the segments in 64 bits, so there must not be more of them. -/
theorem create_agrees_with_load (out : String) (before : Transcript) :
    (∀ words records, words.length < UInt64.size → recordsOf words = .ok records →
      Tell words records ∧
        (create out words : Work (StateM Transcript) Unit).run.run before =
          before.saved out (Session.ofRecords records).write records.length ∧
        textOfBytes (Session.ofRecords records).write.toUTF8 =
          .ok (Session.ofRecords records).write ∧
        ∀ studio : Studio T Float S, ∃ loaded,
          studio.load (Session.ofRecords records).write = (.ok (), loaded) ∧
            loaded.timeline.entries.map (fun e => .ofSegment e.2) = records) ∧
      ∀ records, records.length < UInt64.size → ∀ studio loaded : Studio T Float S,
        studio.load (Session.ofRecords records).write = (.ok (), loaded) →
          recordsOf (wordsOf records) = .ok records ∧
            (create out (wordsOf records) : Work (StateM Transcript) Unit).run.run before =
              before.saved out (Session.ofRecords records).write records.length := by
  constructor
  · intro words records few accepted
    obtain ⟨told, sound⟩ := recordsOf_eq_ok_iff.mp accepted
    have length := told.length
    have few' : records.length < UInt64.size := by omega
    refine ⟨told, create_of_ok accepted out before, textOfBytes_toUTF8 _, fun studio => ?_⟩
    obtain ⟨loaded, done⟩ := (Studio.exists_load_iff studio few').mpr sound
    exact ⟨loaded, done, Studio.listed_of_load few' done⟩
  · intro records few studio loaded done
    have sound := (Studio.exists_load_iff studio few).mp ⟨loaded, done⟩
    have accepted := recordsOf_eq_ok_iff.mpr ⟨tell_wordsOf records, sound⟩
    exact ⟨accepted, create_of_ok accepted out before⟩

end

/-- Two segments, one of them with signs in front of both of its bounds. -/
def twoTriples : List String := ["t", "0", "5", "2t - |t|", "-3", "+3"]

/-- They are accepted, written and loaded, and the document that was loaded can be created from the
same segments in plain decimal. -/
theorem twoTriples_loaded :
    let records : List Record := [⟨"t", 0, 5⟩, ⟨"2t - |t|", -3, 3⟩]
    let before := Transcript.ofFolder [("old", .empty)]
    twoTriples.length < UInt64.size ∧ recordsOf twoTriples = .ok records ∧
      (create "new" twoTriples : Work (StateM Transcript) Unit).run.run before =
        before.saved "new" (Session.ofRecords records).write 2 ∧
      (∃ loaded : Studio Float Float Float32,
        (Studio.ofVoice .standard).load (Session.ofRecords records).write = (.ok (), loaded) ∧
          loaded.timeline.entries.map (fun e => .ofSegment e.2) = records) ∧
      records.length < UInt64.size ∧
      recordsOf ["t", "0", "5", "2t - |t|", "-3", "3"] = .ok records := by
  intro records before
  have few : twoTriples.length < UInt64.size := by decide
  have few' : records.length < UInt64.size := by decide
  have accepted : recordsOf twoTriples = .ok records := by decide +kernel
  obtain ⟨creates, loads⟩ := create_agrees_with_load (T := Float) (S := Float32) "new" before
  obtain ⟨-, written, -, everyStudio⟩ := creates twoTriples records few accepted
  obtain ⟨loaded, done, listed⟩ := everyStudio (Studio.ofVoice .standard)
  exact ⟨few, accepted, written, ⟨loaded, done, listed⟩, few',
    (loads records few' _ loaded done).1⟩

end CommandLine

end Tonegraph
