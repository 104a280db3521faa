import Mathlib.Data.List.Nodup
import Tonegraph.Proofs.Rebuild
/-!
# What edits do to the list of segments

`Edit.Rearranges` says what an edit makes of a plain list of segments under handles, and
`Edit.Refuses` for what such a list an edit is refused. Both show the list around the place where
something happens, and know nothing of how a timeline goes about it. One of them always applies.

A timeline that does not play follows them (`Edit.apply_eq_ok_iff`, `Edit.apply_eq_error_iff`), as
long as no handle is on it twice and none is still to be given out. That is so of every timeline
that is reached (`Timeline.Reached.filed`), and it is why a handle that has been taken off a
timeline never comes back (`Timeline.Filed.lasts`).
-/

set_option autoImplicit false

namespace Tonegraph

/-! ## Plain lists -/

namespace Edit

variable {R S : Type}

/-- What an edit makes of a list of segments under handles. A segment that it brings in gets the
handle `new`. -/
inductive Rearranges (new : Handle) : Edit R S → List (Handle × Segment R S) →
    List (Handle × Segment R S) → Prop
  | push (entries : List (Handle × Segment R S)) (segment : Segment R S) :
      Rearranges new (.push segment) entries (entries ++ [(new, segment)])
  | insert (front back : List (Handle × Segment R S)) (segment : Segment R S) :
      Rearranges new (.insert front.length segment) (front ++ back)
        (front ++ (new, segment) :: back)
  | remove (front back : List (Handle × Segment R S)) (handle : Handle) (segment : Segment R S) :
      Rearranges new (.remove handle) (front ++ (handle, segment) :: back) (front ++ back)
  | moveTo {front back front' back' : List (Handle × Segment R S)} (handle : Handle)
      (segment : Segment R S) (others : front' ++ back' = front ++ back) :
      Rearranges new (.moveTo handle front'.length) (front ++ (handle, segment) :: back)
        (front' ++ (handle, segment) :: back')
  | setWindow (front back : List (Handle × Segment R S)) (handle : Handle) {segment : Segment R S}
      (idle : segment.playing = false) (window : Window) :
      Rearranges new (.setWindow handle window.start window.stop)
        (front ++ (handle, segment) :: back) (front ++ (handle, { segment with window }) :: back)
  | reset (entries : List (Handle × Segment R S)) : Rearranges new .reset entries []

/-- Why an edit of a list of segments under handles is refused. -/
inductive Refuses : Edit R S → List (Handle × Segment R S) → TransportError → Prop
  | insert {entries : List (Handle × Segment R S)} {index : Nat} (segment : Segment R S)
      (beyond : entries.length < index) :
      Refuses (.insert index segment) entries (.outOfRange index entries.length)
  | remove {entries : List (Handle × Segment R S)} {handle : Handle}
      (unknown : ∀ e ∈ entries, e.1 ≠ handle) :
      Refuses (.remove handle) entries .unknownSegment
  | moveTo {entries : List (Handle × Segment R S)} {handle : Handle} (index : Nat)
      (unknown : ∀ e ∈ entries, e.1 ≠ handle) :
      Refuses (.moveTo handle index) entries .unknownSegment
  | moveTo_beyond {entries : List (Handle × Segment R S)} {handle : Handle} {index : Nat}
      {segment : Segment R S} (known : (handle, segment) ∈ entries)
      (beyond : entries.length ≤ index) :
      Refuses (.moveTo handle index) entries (.outOfRange index entries.length)
  | setWindow {entries : List (Handle × Segment R S)} {handle : Handle} (start stop : Int32)
      (unknown : ∀ e ∈ entries, e.1 ≠ handle) :
      Refuses (.setWindow handle start stop) entries .unknownSegment
  | setWindow_playing {entries : List (Handle × Segment R S)} {handle : Handle}
      {segment : Segment R S} (start stop : Int32) (known : (handle, segment) ∈ entries)
      (playing : segment.playing = true) :
      Refuses (.setWindow handle start stop) entries (.segment .alreadyPlaying)
  | setWindow_empty {entries : List (Handle × Segment R S)} {handle : Handle}
      {segment : Segment R S} {start stop : Int32} (known : (handle, segment) ∈ entries)
      (idle : segment.playing = false) (empty : ¬start < stop) :
      Refuses (.setWindow handle start stop) entries (.segment (.window (.empty start stop)))

/-- An edit of a list is granted or refused. -/
theorem rearranges_or_refuses (new : Handle) (edit : Edit R S)
    (entries : List (Handle × Segment R S)) :
    (∃ after, edit.Rearranges new entries after) ∨ ∃ e, edit.Refuses entries e := by
  have finds : ∀ handle : Handle, (∀ e ∈ entries, e.1 ≠ handle) ∨
      ∃ segment front back, entries = front ++ (handle, segment) :: back := by
    intro handle
    by_cases known : ∃ e ∈ entries, e.1 = handle
    · obtain ⟨⟨_, segment⟩, member, rfl⟩ := known
      obtain ⟨front, back, rfl⟩ := List.append_of_mem member
      exact .inr ⟨segment, front, back, rfl⟩
    · exact .inl fun e member same => known ⟨e, member, same⟩
  cases edit with
  | push segment => exact .inl ⟨_, .push entries segment⟩
  | insert index segment =>
      rcases Nat.lt_or_ge entries.length index with beyond | within
      · exact .inr ⟨_, .insert segment beyond⟩
      · have put : Rearranges new _ _ _ :=
          .insert (entries.take index) (entries.drop index) segment
        rw [List.take_append_drop, List.length_take_of_le within] at put
        exact .inl ⟨_, put⟩
  | remove handle =>
      obtain unknown | ⟨segment, front, back, rfl⟩ := finds handle
      · exact .inr ⟨_, .remove unknown⟩
      · exact .inl ⟨_, .remove front back handle segment⟩
  | moveTo handle index =>
      obtain unknown | ⟨segment, front, back, rfl⟩ := finds handle
      · exact .inr ⟨_, .moveTo index unknown⟩
      · rcases Nat.lt_or_ge index (front ++ (handle, segment) :: back).length with within | beyond
        · have others := List.take_append_drop index (front ++ back)
          have put : Rearranges new _ _ _ := .moveTo handle segment others
          rw [List.length_take_of_le (by simp at within ⊢; omega)] at put
          exact .inl ⟨_, put⟩
        · have known : (handle, segment) ∈ front ++ (handle, segment) :: back := by simp
          exact .inr ⟨_, .moveTo_beyond known beyond⟩
  | setWindow handle start stop =>
      obtain unknown | ⟨segment, front, back, rfl⟩ := finds handle
      · exact .inr ⟨_, .setWindow start stop unknown⟩
      · cases playing : segment.playing with
        | true => exact .inr ⟨_, .setWindow_playing start stop (by simp) playing⟩
        | false =>
            by_cases ordered : start < stop
            · exact .inl ⟨_, .setWindow front back handle playing ⟨start, stop, ordered⟩⟩
            · exact .inr ⟨_, .setWindow_empty (by simp) playing ordered⟩
  | reset => exact .inl ⟨_, .reset entries⟩

/-- How many handles an edit gives out. -/
def newcomers : Edit R S → Nat
  | .push _ | .insert _ _ => 1
  | _ => 0

/-- What the edits of a list lead to, one after the other: each is granted or is refused and
changes nothing. Beside the list it is counted how many handles have been given out. -/
inductive Leads : List (Edit R S) → List (Handle × Segment R S) × Nat →
    List (Handle × Segment R S) × Nat → Prop
  | nil (list : List (Handle × Segment R S) × Nat) : Leads [] list list
  | granted {edit : Edit R S} {rest : List (Edit R S)} {entries after : List (Handle × Segment R S)}
      {issued : Nat} {last : List (Handle × Segment R S) × Nat}
      (rearranges : edit.Rearranges ⟨issued⟩ entries after)
      (further : Leads rest (after, issued + edit.newcomers) last) :
      Leads (edit :: rest) (entries, issued) last
  | refused {edit : Edit R S} {rest : List (Edit R S)} {entries : List (Handle × Segment R S)}
      {issued : Nat} {last : List (Handle × Segment R S) × Nat} {e : TransportError}
      (refuses : edit.Refuses entries e) (further : Leads rest (entries, issued) last) :
      Leads (edit :: rest) (entries, issued) last

end Edit

/-! ## Looking things up -/

namespace Timeline

variable {T R S : Type}

/-- What lies under a handle in some entries. -/
def lookup (entries : List (Handle × Segment R S)) (handle : Handle) : Option (Segment R S) :=
  (entries.find? (·.1 = handle)).map (·.2)

theorem lookup_eq_none_iff {entries : List (Handle × Segment R S)} {handle : Handle} :
    lookup entries handle = none ↔ ∀ e ∈ entries, e.1 ≠ handle := by
  simp [lookup]

section Middle

variable {front back : List (Handle × Segment R S)} {handle : Handle} {segment : Segment R S}

/-- An entry whose handle no entry before it has. -/
theorem find?_middle (first : ∀ e ∈ front, e.1 ≠ handle) :
    (front ++ (handle, segment) :: back).find? (·.1 = handle) = some (handle, segment) := by
  have none : front.find? (·.1 = handle) = none := by simpa using first
  rw [List.find?_append, none, List.find?_cons_of_pos (by simp), Option.none_or]

/-- An entry more changes what lies under its handle, if no entry before it has the same. -/
theorem lookup_middle (first : ∀ e ∈ front, e.1 ≠ handle) :
    lookup (front ++ (handle, segment) :: back) =
      Function.update (lookup (front ++ back)) handle (some segment) := by
  funext other
  by_cases same : other = handle
  · subst same
    rw [lookup, find?_middle first, Function.update_self, Option.map_some]
  · have passed : ¬(handle, segment).1 = other := Ne.symm same
    rw [Function.update_of_ne same, lookup, lookup, List.find?_append, List.find?_append,
      List.find?_cons_of_neg (by simpa using passed)]

theorem mem_handles_middle {other : Handle} :
    other ∈ (front ++ (handle, segment) :: back).map (·.1) ↔
      other = handle ∨ other ∈ (front ++ back).map (·.1) := by
  simp only [List.map_append, List.map_cons, List.mem_append, List.mem_cons]
  exact or_left_comm

theorem nodup_handles_middle :
    ((front ++ (handle, segment) :: back).map (·.1)).Nodup ↔
      handle ∉ (front ++ back).map (·.1) ∧ ((front ++ back).map (·.1)).Nodup := by
  rw [List.map_append, List.map_cons, List.nodup_middle, ← List.map_append, List.nodup_cons]

variable (unique : ((front ++ (handle, segment) :: back).map (·.1)).Nodup)

include unique

theorem ne_of_unique : ∀ e ∈ front ++ back, e.1 ≠ handle := by
  intro e member same
  exact (nodup_handles_middle.mp unique).1 (List.mem_map.mpr ⟨e, member, same⟩)

theorem ne_front : ∀ e ∈ front, e.1 ≠ handle :=
  fun e member => ne_of_unique unique e (List.mem_append_left _ member)

theorem filter_middle :
    (front ++ (handle, segment) :: back).filter (fun e => e.1 ≠ handle) = front ++ back := by
  have others := ne_of_unique unique
  rw [List.filter_append, List.filter_cons_of_neg (by simp), ← List.filter_append,
    List.filter_eq_self.mpr (by simpa using others)]

theorem map_middle (changed : Segment R S) :
    (front ++ (handle, segment) :: back).map
        (fun e => if e.1 = handle then (handle, changed) else e) =
      front ++ (handle, changed) :: back := by
  have others := ne_of_unique unique
  have kept : ∀ part ⊆ front ++ back,
      part.map (fun e => if e.1 = handle then (handle, changed) else e) = part := by
    intro part within
    rw [List.map_congr_left fun e member => if_neg (others e (within member)), List.map_id']
  rw [List.map_append, List.map_cons, if_pos rfl, kept front (List.subset_append_left _ _),
    kept back (List.subset_append_right _ _)]

end Middle

/-- Under each handle of some entries lies the segment beside it. -/
theorem lookup_eq_some_iff {entries : List (Handle × Segment R S)}
    (unique : (entries.map (·.1)).Nodup) {handle : Handle} {segment : Segment R S} :
    lookup entries handle = some segment ↔ (handle, segment) ∈ entries := by
  constructor
  · intro found
    obtain ⟨entry, first, rfl⟩ := Option.map_eq_some_iff.mp found
    have named : entry.1 = handle := by simpa using List.find?_some first
    rw [← named]
    exact List.mem_of_find?_eq_some first
  · intro member
    obtain ⟨front, back, rfl⟩ := List.append_of_mem member
    rw [lookup, find?_middle (ne_front unique), Option.map_some]

end Timeline

/-! ## Timelines follow the lists -/

theorem insertIdx_middle {α : Type} (front back : List α) (item : α) :
    (front ++ back).insertIdx front.length item = front ++ item :: back := by
  induction front with
  | nil => rfl
  | cons first rest ih => simp [ih]

section

variable {T R S : Type} [Scalar T] {tl after : Timeline T R S}

namespace Edit

/-- The timeline that an edit leaves with some entries. -/
def leaving (tl : Timeline T R S) (entries : List (Handle × Segment R S)) :
    Edit R S → Timeline T R S
  | .reset => { (Timeline.empty : Timeline T R S) with entries, issued := tl.issued }
  | edit => { tl with entries, issued := tl.issued + edit.newcomers }

variable (stopped : tl.playing = false) (unique : tl.order.Nodup)

include stopped unique

theorem apply_of_rearranges {edit : Edit R S} {entries : List (Handle × Segment R S)}
    (rearranges : edit.Rearranges ⟨tl.issued⟩ tl.entries entries) :
    edit.apply tl = .ok (edit.leaving tl entries) := by
  rw [Timeline.order] at unique
  generalize listed : tl.entries = old at rearranges unique
  cases rearranges with
  | push segment =>
      rw [apply, Timeline.push_of_stopped stopped, Timeline.size, listed,
        List.insertIdx_length_self]
      rfl
  | insert front back segment =>
      have within : ¬tl.size < front.length := by simp [Timeline.size, listed]
      rw [apply, Timeline.insert_of_stopped stopped, if_neg within, listed, insertIdx_middle]
      rfl
  | remove front back handle segment =>
      have found : tl.get? handle = some segment := by
        rw [Timeline.get?, listed, Timeline.find?_middle (Timeline.ne_front unique)]
        rfl
      rw [apply, Timeline.remove_of_stopped stopped, found, listed, Timeline.filter_middle unique]
      rfl
  | @moveTo front back front' back' handle segment others =>
      have length : front'.length < tl.size := by
        have := congrArg List.length others
        simp [Timeline.size, listed] at this ⊢
        omega
      rw [apply, Timeline.moveTo_of_stopped stopped, listed,
        Timeline.find?_middle (Timeline.ne_front unique)]
      simp only [if_neg (Nat.not_le.mpr length)]
      rw [Timeline.filter_middle unique, ← others, insertIdx_middle]
      rfl
  | @setWindow front back handle segment idle window =>
      have found : tl.get? handle = some segment := by
        rw [Timeline.get?, listed, Timeline.find?_middle (Timeline.ne_front unique)]
        rfl
      have windowed : segment.setWindow window.start window.stop = .ok { segment with window } := by
        simp [Segment.setWindow, idle, Window.ofBounds, window.start_lt_stop]
      rw [apply, Timeline.setWindow_of_stopped stopped, found]
      simp only [windowed]
      rw [listed, Timeline.map_middle unique]
      rfl
  | reset => rw [apply, Timeline.reset_of_stopped stopped]; rfl

theorem apply_of_refuses {edit : Edit R S} {e : TransportError}
    (refuses : edit.Refuses tl.entries e) : edit.apply tl = .error e := by
  rw [Timeline.order] at unique
  have missing : ∀ {handle : Handle}, (∀ e ∈ tl.entries, e.1 ≠ handle) → tl.get? handle = none :=
    fun unknown => Timeline.lookup_eq_none_iff.mpr unknown
  have present : ∀ {handle : Handle} {segment : Segment R S}, (handle, segment) ∈ tl.entries →
      tl.get? handle = some segment :=
    fun known => (Timeline.lookup_eq_some_iff unique).mpr known
  cases refuses with
  | @insert _ index segment beyond =>
      rw [apply, Timeline.insert_of_stopped stopped, Timeline.size, if_pos beyond]
      rfl
  | remove unknown =>
      rw [apply, Timeline.remove_of_stopped stopped, missing unknown]
      rfl
  | @moveTo _ handle index unknown =>
      have none : tl.entries.find? (·.1 = handle) = none := by simpa using unknown
      rw [apply, Timeline.moveTo_of_stopped stopped, none]
  | moveTo_beyond known beyond =>
      obtain ⟨entry, first, -⟩ := Option.map_eq_some_iff.mp (present known)
      rw [apply, Timeline.moveTo_of_stopped stopped, first]
      exact if_pos beyond
  | setWindow start stop unknown =>
      rw [apply, Timeline.setWindow_of_stopped stopped, missing unknown]
  | @setWindow_playing _ handle segment start stop known playing =>
      have refused : segment.setWindow start stop = .error .alreadyPlaying := if_pos playing
      rw [apply, Timeline.setWindow_of_stopped stopped, present known]
      simp only [refused]
  | @setWindow_empty _ handle segment start stop known idle empty =>
      have refused : segment.setWindow start stop = .error (.window (.empty start stop)) := by
        simp [Segment.setWindow, idle, Window.ofBounds, empty]
      rw [apply, Timeline.setWindow_of_stopped stopped, present known]
      simp only [refused]

/-- **An edit does to a timeline what it does to a list.** It is granted just when the list can be
rearranged so, and leaves the list that this gives. -/
theorem apply_eq_ok_iff (edit : Edit R S) :
    edit.apply tl = .ok after ↔
      ∃ entries, edit.Rearranges ⟨tl.issued⟩ tl.entries entries ∧
        after = edit.leaving tl entries := by
  constructor
  · intro applied
    obtain ⟨entries, rearranges⟩ | ⟨e, refuses⟩ :=
      edit.rearranges_or_refuses ⟨tl.issued⟩ tl.entries
    · rw [apply_of_rearranges stopped unique rearranges] at applied
      cases applied
      exact ⟨entries, rearranges, rfl⟩
    · rw [apply_of_refuses stopped unique refuses] at applied
      cases applied
  · rintro ⟨entries, rearranges, rfl⟩
    exact apply_of_rearranges stopped unique rearranges

/-- An edit is refused just when the list has a reason for it. -/
theorem apply_eq_error_iff (edit : Edit R S) (e : TransportError) :
    edit.apply tl = .error e ↔ edit.Refuses tl.entries e := by
  constructor
  · intro refused
    obtain ⟨entries, rearranges⟩ | ⟨e', refuses⟩ :=
      edit.rearranges_or_refuses ⟨tl.issued⟩ tl.entries
    · rw [apply_of_rearranges stopped unique rearranges] at refused
      cases refused
    · rw [apply_of_refuses stopped unique refuses] at refused
      cases refused
      exact refuses
  · exact apply_of_refuses stopped unique

end Edit

/-! ## Handles -/

namespace Edit.Rearranges

variable {new : Handle} {edit : Edit R S} {entries changed : List (Handle × Segment R S)}

/-- The handles after an edit were there before it, but for the one that it gives out. -/
theorem handles (rearranges : edit.Rearranges new entries changed) {handle : Handle}
    (listed : handle ∈ changed.map (·.1)) :
    handle ∈ entries.map (·.1) ∨ handle = new ∧ edit.newcomers = 1 := by
  cases rearranges with
  | push segment =>
      rw [Timeline.mem_handles_middle, List.append_nil] at listed
      exact listed.symm.imp_right fun same => ⟨same, rfl⟩
  | insert front back segment =>
      rw [Timeline.mem_handles_middle] at listed
      exact listed.symm.imp_right fun same => ⟨same, rfl⟩
  | remove front back handle segment =>
      exact .inl (Timeline.mem_handles_middle.mpr (.inr listed))
  | moveTo handle segment others =>
      rw [Timeline.mem_handles_middle, others] at listed
      exact .inl (Timeline.mem_handles_middle.mpr listed)
  | setWindow front back handle idle window =>
      rw [Timeline.mem_handles_middle] at listed
      exact .inl (Timeline.mem_handles_middle.mpr listed)
  | reset => cases listed

/-- An edit that gives out a fresh handle leaves no handle twice. -/
theorem unique (rearranges : edit.Rearranges new entries changed)
    (unique : (entries.map (·.1)).Nodup) (fresh : new ∉ entries.map (·.1)) :
    (changed.map (·.1)).Nodup := by
  cases rearranges with
  | push segment =>
      rw [Timeline.nodup_handles_middle, List.append_nil]
      exact ⟨fresh, unique⟩
  | insert front back segment => exact Timeline.nodup_handles_middle.mpr ⟨fresh, unique⟩
  | remove front back handle segment => exact (Timeline.nodup_handles_middle.mp unique).2
  | moveTo handle segment others =>
      rw [Timeline.nodup_handles_middle] at unique ⊢
      rw [others]
      exact unique
  | setWindow front back handle idle window =>
      exact Timeline.nodup_handles_middle.mpr (Timeline.nodup_handles_middle.mp unique)
  | reset => exact List.nodup_nil

end Edit.Rearranges

end

namespace Timeline

variable {T R S : Type}

/-- Every handle of a timeline names one entry, and has been given out. -/
structure Filed (tl : Timeline T R S) : Prop where
  unique : tl.order.Nodup
  given : ∀ handle ∈ tl.order, handle.serial < tl.issued

/-- A handle that is yet to be given out names nothing. -/
theorem Filed.fresh {tl : Timeline T R S} (filed : tl.Filed) : ⟨tl.issued⟩ ∉ tl.order :=
  fun listed => Nat.lt_irrefl _ (filed.given _ listed)

/-- From one timeline to another no handle is given out again: those that were given out and name
nothing come back no more. -/
structure Precedes (before after : Timeline T R S) : Prop where
  issued : before.issued ≤ after.issued
  gone : ∀ handle : Handle, handle.serial < before.issued → handle ∉ before.order →
    handle ∉ after.order

theorem Precedes.refl (tl : Timeline T R S) : tl.Precedes tl :=
  ⟨Nat.le_refl _, fun _ _ gone => gone⟩

theorem Precedes.trans {a b c : Timeline T R S} (first : a.Precedes b) (second : b.Precedes c) :
    a.Precedes c where
  issued := Nat.le_trans first.issued second.issued
  gone handle given gone :=
    second.gone handle (Nat.lt_of_lt_of_le given first.issued) (first.gone handle given gone)

theorem get?_eq_none_iff {tl : Timeline T R S} {handle : Handle} :
    tl.get? handle = none ↔ handle ∉ tl.order := by
  rw [order, List.mem_map, not_exists]
  exact lookup_eq_none_iff.trans (forall_congr' fun e => not_and.symm)

theorem empty_filed [Scalar T] : (empty : Timeline T R S).Filed :=
  ⟨List.nodup_nil, fun _ member => absurd member List.not_mem_nil⟩

theorem filed_of_register [Arithmetic R] [Scalar S] {a b : Timeline T R S}
    (same : a.register = b.register) (filed : b.Filed) : a.Filed := by
  obtain ⟨unique, given⟩ := filed
  rw [← order_of_register same] at unique given
  rw [← issued_of_register same] at given
  exact ⟨unique, given⟩

theorem precedes_of_register [Arithmetic R] [Scalar S] {a b : Timeline T R S}
    (same : a.register = b.register) : b.Precedes a where
  issued := Nat.le_of_eq (issued_of_register same).symm
  gone handle _ gone := by
    rw [order_of_register same]
    exact gone

end Timeline

section

variable {T R S : Type} [Scalar T] {tl after : Timeline T R S}

theorem Edit.leaving_entries (tl : Timeline T R S) (entries : List (Handle × Segment R S))
    (edit : Edit R S) : (edit.leaving tl entries).entries = entries := by
  cases edit <;> rfl

theorem Edit.leaving_issued (tl : Timeline T R S) (entries : List (Handle × Segment R S))
    (edit : Edit R S) : (edit.leaving tl entries).issued = tl.issued + edit.newcomers := by
  cases edit <;> rfl

theorem Edit.leaving_playing {tl : Timeline T R S} (stopped : tl.playing = false)
    (entries : List (Handle × Segment R S)) (edit : Edit R S) :
    (edit.leaving tl entries).playing = false := by
  cases edit <;> first | rfl | exact stopped

/-- A granted edit keeps every handle to one entry, and brings back no handle. -/
theorem Edit.apply_filed {edit : Edit R S} (filed : tl.Filed)
    (applied : edit.apply tl = .ok after) :
    after.Filed ∧ tl.Precedes after := by
  cases playing : tl.playing with
  | true =>
      rw [apply_of_playing playing] at applied
      cases applied
  | false =>
      obtain ⟨entries, rearranges, rfl⟩ := (apply_eq_ok_iff playing filed.unique edit).mp applied
      have order : (edit.leaving tl entries).order = entries.map (·.1) := by
        rw [Timeline.order, leaving_entries]
      refine ⟨⟨?_, ?_⟩, ⟨?_, ?_⟩⟩
      · rw [order]
        exact rearranges.unique filed.unique filed.fresh
      · intro handle listed
        rw [order] at listed
        rw [leaving_issued]
        obtain old | ⟨rfl, one⟩ := rearranges.handles listed
        · exact Nat.lt_of_lt_of_le (filed.given handle old) (Nat.le_add_right _ _)
        · rw [one]
          exact Nat.lt_succ_self _
      · rw [leaving_issued]
        exact Nat.le_add_right _ _
      · intro handle given gone listed
        rw [order] at listed
        obtain old | ⟨rfl, -⟩ := rearranges.handles listed
        · exact gone old
        · exact Nat.lt_irrefl _ given

/-- A segment that is put in is found under the handle that it got, which nothing was under. -/
theorem Timeline.Filed.insert_new (filed : tl.Filed) {index : Nat}
    {segment : Segment R S} {handle : Handle}
    (put : tl.insert index segment = .ok (handle, after)) :
    handle = ⟨tl.issued⟩ ∧ tl.get? handle = none ∧ after.get? handle = some segment := by
  have applied : (Edit.insert index segment).apply tl = .ok after := by
    rw [Edit.apply, put]
    rfl
  cases playing : tl.playing with
  | true =>
      rw [Edit.apply_of_playing playing] at applied
      cases applied
  | false =>
      have named : handle = ⟨tl.issued⟩ := by
        rw [insert_of_stopped playing] at put
        split at put
        · cases put
        · cases put
          rfl
      subst named
      obtain ⟨entries, rearranges, rfl⟩ := (Edit.apply_eq_ok_iff playing filed.unique _).mp applied
      refine ⟨rfl, get?_eq_none_iff.mpr filed.fresh, ?_⟩
      have unique := rearranges.unique filed.unique filed.fresh
      refine (lookup_eq_some_iff (by rwa [Edit.leaving_entries])).mpr ?_
      rw [Edit.leaving_entries]
      generalize tl.entries = old at rearranges
      cases rearranges with
      | insert front back segment => simp

/-- A segment that is taken away is the one that lay under its handle, where nothing is left. -/
theorem Timeline.get?_of_remove {handle : Handle}
    {segment : Segment R S} (taken : tl.remove handle = .ok (segment, after)) :
    tl.get? handle = some segment ∧ after.get? handle = none := by
  have applied : (Edit.remove handle).apply tl = .ok after := by
    rw [Edit.apply, taken]
    rfl
  cases playing : tl.playing with
  | true =>
      rw [Edit.apply_of_playing playing] at applied
      cases applied
  | false =>
      rw [remove_of_stopped playing] at taken
      cases found : tl.get? handle with
      | none => simp [found] at taken
      | some segment' =>
          rw [found] at taken
          cases taken
          exact ⟨rfl, lookup_eq_none_iff.mpr (by simp)⟩

variable {K : Type} [Arithmetic R] [Scalar S] [Narrowing R S] [FrameSink K S]

theorem Call.on_filed (call : Call T R S) {deck : Deck T R S K} (filed : deck.timeline.Filed) :
    (call.on deck).2.timeline.Filed ∧ deck.timeline.Precedes (call.on deck).2.timeline := by
  obtain ⟨change, rfl⟩ | same := call.on_register deck
  · rw [on_edit]
    cases applied : change.apply deck.timeline with
    | error e => exact ⟨filed, .refl _⟩
    | ok after => exact change.apply_filed filed applied
  · exact ⟨Timeline.filed_of_register same filed, Timeline.precedes_of_register same⟩

/-- On every timeline that is reached each handle names one entry and has been given out. -/
theorem Timeline.Reached.filed {allowed : Call T R S → Prop} (reached : tl.Reached allowed) :
    tl.Filed := by
  induction reached with
  | empty => exact empty_filed
  | call call sink _ _ ih => exact (call.on_filed ih).1

/-- Whatever calls are made, a handle that has been taken off a timeline never comes back. -/
theorem Timeline.Filed.lasts {deck : Deck T R S K} (filed : deck.timeline.Filed)
    (calls : List (Call T R S)) :
    (Deck.after calls deck).timeline.Filed ∧
      deck.timeline.Precedes (Deck.after calls deck).timeline := by
  induction calls generalizing deck with
  | nil => exact ⟨filed, .refl _⟩
  | cons call rest ih =>
      obtain ⟨filed', precedes⟩ := call.on_filed filed
      obtain ⟨filed'', precedes'⟩ := ih filed'
      exact ⟨filed'', precedes.trans precedes'⟩

/-- An edit on a deck is granted just when the timeline does not play and its list can be rearranged
so. -/
theorem Call.on_edit_granted_iff {deck after : Deck T R S K} (filed : deck.timeline.Filed)
    (edit : Edit R S) :
    (Call.edit edit).on deck = (.ok (), after) ↔
      deck.timeline.playing = false ∧
        ∃ entries, edit.Rearranges ⟨deck.timeline.issued⟩ deck.timeline.entries entries ∧
          after = { deck with timeline := edit.leaving deck.timeline entries } := by
  rw [Call.on_edit]
  cases playing : deck.timeline.playing with
  | true => simp [Edit.apply_of_playing playing]
  | false =>
      constructor
      · intro granted
        cases applied : edit.apply deck.timeline with
        | error e => simp [applied] at granted
        | ok left =>
            obtain ⟨entries, rearranges, rfl⟩ :=
              (Edit.apply_eq_ok_iff playing filed.unique edit).mp applied
            rw [applied] at granted
            cases granted
            exact ⟨rfl, entries, rearranges, rfl⟩
      · rintro ⟨-, entries, rearranges, rfl⟩
        rw [Edit.apply_of_rearranges playing filed.unique rearranges]

/-- A refused edit leaves the deck, and tells that the timeline plays or what the list is refused
for. -/
theorem Call.on_edit_refused_iff {deck after : Deck T R S K} (filed : deck.timeline.Filed)
    (edit : Edit R S) (e : TransportError) :
    (Call.edit edit).on deck = (.error e, after) ↔
      after = deck ∧ (deck.timeline.playing = true ∧ e = .playing ∨
        deck.timeline.playing = false ∧ edit.Refuses deck.timeline.entries e) := by
  rw [Call.on_edit]
  cases playing : deck.timeline.playing with
  | true =>
      rw [Edit.apply_of_playing playing]
      simp [eq_comm, and_comm]
  | false =>
      have refuses := Edit.apply_eq_error_iff playing filed.unique edit e
      cases applied : edit.apply deck.timeline with
      | error e' =>
          rw [applied, Except.error.injEq] at refuses
          simp [← refuses, eq_comm, and_comm]
      | ok left =>
          rw [applied] at refuses
          simp [← refuses]

/-- While a timeline plays, edits leave it as it is. -/
theorem Timeline.after_edits_of_playing {deck : Deck T R S K}
    (playing : deck.timeline.playing = true) (edits : List (Edit R S)) :
    Deck.after (edits.map Call.edit) deck = deck := by
  induction edits with
  | nil => rfl
  | cons edit rest ih =>
      have refused : ((Call.edit edit).on deck).2 = deck := by
        rw [Call.on_edit, Edit.apply_of_playing playing]
      rw [List.map_cons, Deck.after, List.foldl_cons, refused]
      exact ih

/-- **Edit after edit.** Edits of a timeline that does not play lead to the list that they lead to
by themselves, and it still does not play. -/
theorem Timeline.Filed.leads {deck : Deck T R S K} (filed : deck.timeline.Filed)
    (stopped : deck.timeline.playing = false) (edits : List (Edit R S)) :
    let now := (Deck.after (edits.map Call.edit) deck).timeline
    Edit.Leads edits (deck.timeline.entries, deck.timeline.issued) (now.entries, now.issued) ∧
      now.playing = false := by
  induction edits generalizing deck with
  | nil => exact ⟨.nil _, stopped⟩
  | cons edit rest ih =>
      rw [List.map_cons, Deck.after, List.foldl_cons, ← Deck.after, Call.on_edit]
      obtain ⟨entries, rearranges⟩ | ⟨e, refuses⟩ :=
        edit.rearranges_or_refuses ⟨deck.timeline.issued⟩ deck.timeline.entries
      · have applied := Edit.apply_of_rearranges stopped filed.unique rearranges
        rw [applied]
        obtain ⟨leads, stopped'⟩ := @ih ⟨edit.leaving deck.timeline entries, deck.sink⟩
          (edit.apply_filed filed applied).1 (Edit.leaving_playing stopped entries edit)
        dsimp only at leads
        rw [Edit.leaving_entries, Edit.leaving_issued] at leads
        exact ⟨.granted rearranges leads, stopped'⟩
      · rw [Edit.apply_of_refuses stopped filed.unique refuses]
        obtain ⟨leads, stopped'⟩ := ih filed stopped
        exact ⟨.refused refuses leads, stopped'⟩

end

end Tonegraph
