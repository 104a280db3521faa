import Mathlib.Logic.Function.Basic
import Tonegraph.Proofs.Editing
/-!
# A timeline in two containers

The list of a timeline can be kept in two containers: a map from the handles given out to the
segments that are left (`slots`), and the handles in the order of playing (`order`). A `Shelf` is
these two. Its edits change one container after the other, step by step, and what they have changed
stays changed when a later step is refused; its readers go from handle to handle and pass over those
under which nothing lies.

`Edit.perform_onShelf` says that nothing of this shows: an edit of the shelf of a timeline gives the
shelf of the edited timeline, or is refused with the shelf as it was. So the two containers always
correspond (`Shelf.Serves`), and every reader reads the list.
-/

set_option autoImplicit false

namespace Tonegraph

/-- The segments of a timeline under their handles, and the handles in the order of playing. -/
structure Shelf (R S : Type) where
  /-- What lies under a handle. -/
  slots : Handle → Option (Segment R S)
  /-- How many handles have been given out. -/
  issued : Nat
  order : List Handle
  /-- Whether the timeline plays. -/
  playing : Bool

/-- A call that works on a shelf. -/
abbrev Shelving (R S : Type) := ExceptT TransportError (StateM (Shelf R S))

namespace Shelf

variable {R S : Type}

/-! ## Editing -/

/-- Lays a segment under a handle that was never given out. -/
def lay (segment : Segment R S) : Shelving R S Handle := do
  let shelf ← get
  let handle : Handle := ⟨shelf.issued⟩
  set { shelf with
    slots := Function.update shelf.slots handle (some segment)
    issued := shelf.issued + 1 }
  return handle

/-- Takes away what lies under a handle. -/
def take (handle : Handle) : Shelving R S (Option (Segment R S)) := do
  let shelf ← get
  set { shelf with slots := Function.update shelf.slots handle none }
  return shelf.slots handle

/-- Puts another segment under a handle. -/
def replace (handle : Handle) (segment : Segment R S) : Shelving R S Unit :=
  modify fun shelf => { shelf with slots := Function.update shelf.slots handle (some segment) }

/-- Changes the order of playing. -/
def reorder (change : List Handle → List Handle) : Shelving R S Unit :=
  modify fun shelf => { shelf with order := change shelf.order }

/-- Refuses while the timeline plays. -/
def ensureStopped : Shelving R S Unit := do
  if (← get).playing then throw .playing

/-- Puts a segment at a place. -/
def insert (index : Nat) (segment : Segment R S) : Shelving R S Handle := do
  ensureStopped
  let shelf ← get
  if shelf.order.length < index then throw (.outOfRange index shelf.order.length)
  let handle ← lay segment
  reorder fun order => order.insertIdx index handle
  return handle

/-- Takes a segment away. -/
def remove (handle : Handle) : Shelving R S (Segment R S) := do
  ensureStopped
  match ← take handle with
  | none => throw .unknownSegment
  | some segment =>
    reorder fun order => order.filter (· ≠ handle)
    return segment

/-- Moves a segment to a place. -/
def moveTo (handle : Handle) (index : Nat) : Shelving R S Unit := do
  ensureStopped
  let shelf ← get
  match shelf.order.findIdx? (· = handle) with
  | none => throw .unknownSegment
  | some place =>
    if shelf.order.length ≤ index then throw (.outOfRange index shelf.order.length)
    reorder fun order => order.eraseIdx place
    reorder fun order => order.insertIdx index handle

/-- Gives a segment another window. -/
def setWindow (handle : Handle) (start stop : Int32) : Shelving R S Unit := do
  ensureStopped
  match (← get).slots handle with
  | none => throw .unknownSegment
  | some segment =>
    match segment.setWindow start stop with
    | .error e => throw (.segment e)
    | .ok changed => replace handle changed

/-- Takes all segments away. -/
def reset : Shelving R S Unit := do
  ensureStopped
  modify fun shelf => { shelf with slots := fun _ => none }
  reorder fun _ => []

/-! ## Looking -/

/-- The entries in the order of playing. Handles without a segment are passed over. -/
def entries (shelf : Shelf R S) : List (Handle × Segment R S) :=
  shelf.order.filterMap fun handle => (shelf.slots handle).map fun segment => (handle, segment)

/-- The segment at a place. -/
def segmentAt? (shelf : Shelf R S) (index : Nat) : Option (Segment R S) :=
  shelf.order[index]?.bind shelf.slots

/-- The seconds that the segments under some handles take together. -/
def seconds (shelf : Shelf R S) (handles : List Handle) : Nat :=
  ((handles.filterMap shelf.slots).map Segment.runTime).sum

end Shelf

/-- What an edit does on a shelf. -/
def Edit.onShelf {R S : Type} : Edit R S → Shelving R S Unit
  | .push segment => do let _ ← Shelf.insert (← get).order.length segment
  | .insert index segment => do let _ ← Shelf.insert index segment
  | .remove handle => do let _ ← Shelf.remove handle
  | .moveTo handle index => Shelf.moveTo handle index
  | .setWindow handle start stop => Shelf.setWindow handle start stop
  | .reset => Shelf.reset

/-- The shelf of a timeline. -/
def Timeline.shelf {T R S : Type} (tl : Timeline T R S) : Shelf R S :=
  ⟨tl.get?, tl.issued, tl.order, tl.playing⟩

/-! ## What the edits of a shelf do -/

namespace Shelf

variable {R S α β : Type}

/-- What a call on a shelf gives, and the shelf after it. -/
def perform (call : Shelving R S α) (shelf : Shelf R S) : Except TransportError α × Shelf R S :=
  call.run.run shelf

@[simp] theorem perform_bind (call : Shelving R S α) (next : α → Shelving R S β)
    (shelf : Shelf R S) :
    perform (call >>= next) shelf =
      match perform call shelf with
      | (.ok a, after) => perform (next a) after
      | (.error e, after) => (.error e, after) := by
  show (match call shelf with | (a, s) => ExceptT.bindCont next a s) =
    match call shelf with
    | (.ok a, after) => next a after
    | (.error e, after) => (.error e, after)
  rcases call shelf with ⟨_ | _, _⟩ <;> rfl

@[simp] theorem perform_pure (a : α) (shelf : Shelf R S) :
    perform (pure a) shelf = (.ok a, shelf) := rfl

@[simp] theorem perform_throw (e : TransportError) (shelf : Shelf R S) :
    perform (throw e : Shelving R S α) shelf = (.error e, shelf) := rfl

@[simp] theorem perform_get (shelf : Shelf R S) : perform get shelf = (.ok shelf, shelf) := rfl

@[simp] theorem perform_set (shelf after : Shelf R S) :
    perform (set after) shelf = (.ok (), after) := rfl

@[simp] theorem perform_modify (f : Shelf R S → Shelf R S) (shelf : Shelf R S) :
    perform (modify f) shelf = (.ok (), f shelf) := rfl

@[simp] theorem perform_ensureStopped (shelf : Shelf R S) :
    perform ensureStopped shelf =
      (if shelf.playing then .error .playing else .ok (), shelf) := by
  simp only [ensureStopped, perform_bind, perform_get]
  cases shelf.playing <;> rfl

theorem perform_insert (index : Nat) (segment : Segment R S) {shelf : Shelf R S}
    (stopped : shelf.playing = false) :
    perform (insert index segment) shelf =
      if shelf.order.length < index then
        (.error (.outOfRange index shelf.order.length), shelf)
      else
        (.ok ⟨shelf.issued⟩, { shelf with
          slots := Function.update shelf.slots ⟨shelf.issued⟩ (some segment)
          issued := shelf.issued + 1
          order := shelf.order.insertIdx index ⟨shelf.issued⟩ }) := by
  by_cases beyond : shelf.order.length < index
  · simp [insert, stopped, beyond]
  · simp [insert, lay, reorder, stopped, beyond]
    rfl

theorem perform_remove (handle : Handle) {shelf : Shelf R S} (stopped : shelf.playing = false) :
    perform (remove handle) shelf =
      match shelf.slots handle with
      | none => (.error .unknownSegment, shelf)
      | some segment =>
        (.ok segment, { shelf with
          slots := Function.update shelf.slots handle none
          order := shelf.order.filter (· ≠ handle) }) := by
  cases found : shelf.slots handle with
  | none =>
      have same : { shelf with slots := Function.update shelf.slots handle none } = shelf := by
        rw [← found, Function.update_eq_self]
      simpa [remove, take, stopped, found] using same
  | some segment =>
      simp [remove, take, reorder, stopped, found]
      rfl

theorem perform_moveTo (handle : Handle) (index : Nat) {shelf : Shelf R S}
    (stopped : shelf.playing = false) :
    perform (moveTo handle index) shelf =
      match shelf.order.findIdx? (· = handle) with
      | none => (.error .unknownSegment, shelf)
      | some place =>
        if shelf.order.length ≤ index then
          (.error (.outOfRange index shelf.order.length), shelf)
        else
          (.ok (),
            { shelf with order := (shelf.order.eraseIdx place).insertIdx index handle }) := by
  cases found : shelf.order.findIdx? (· = handle) with
  | none => simp [moveTo, stopped, found]
  | some place =>
      by_cases beyond : shelf.order.length ≤ index <;>
        simp [moveTo, reorder, stopped, found, beyond]

theorem perform_setWindow (handle : Handle) (start stop : Int32) {shelf : Shelf R S}
    (stopped : shelf.playing = false) :
    perform (setWindow handle start stop) shelf =
      match shelf.slots handle with
      | none => (.error .unknownSegment, shelf)
      | some segment =>
        match segment.setWindow start stop with
        | .error e => (.error (.segment e), shelf)
        | .ok changed =>
          (.ok (), { shelf with slots := Function.update shelf.slots handle (some changed) }) := by
  cases found : shelf.slots handle with
  | none => simp [setWindow, stopped, found]
  | some segment =>
      cases windowed : segment.setWindow start stop <;>
        simp [setWindow, replace, stopped, found, windowed]

theorem perform_reset {shelf : Shelf R S} (stopped : shelf.playing = false) :
    perform reset shelf = (.ok (), { shelf with slots := fun _ => none, order := [] }) := by
  simp [reset, reorder, stopped]

end Shelf

/-! ## Two containers for a list -/

namespace Shelf

variable {R S : Type}

/-- The shelf of a list of segments under handles. -/
def ofList (entries : List (Handle × Segment R S)) (issued : Nat) : Shelf R S :=
  ⟨Timeline.lookup entries, issued, entries.map (·.1), false⟩

variable {front back : List (Handle × Segment R S)} {handle : Handle} {segment : Segment R S}

theorem findIdx?_middle (first : ∀ e ∈ front, e.1 ≠ handle) :
    ((front ++ (handle, segment) :: back).map (·.1)).findIdx? (· = handle) =
      some front.length := by
  induction front with
  | nil => rw [List.nil_append, List.map_cons, List.findIdx?_cons, if_pos (by simp)]; rfl
  | cons e rest ih =>
      have other : e.1 ≠ handle := first e List.mem_cons_self
      have found := ih fun e member => first e (List.mem_cons_of_mem _ member)
      rw [List.cons_append, List.map_cons, List.findIdx?_cons, if_neg (by simpa using other), found]
      rfl

theorem perform_insert_ofList {issued : Nat} (fresh : ∀ e ∈ front, e.1 ≠ ⟨issued⟩) :
    perform (insert front.length segment) (ofList (front ++ back) issued) =
      (.ok ⟨issued⟩, ofList (front ++ (⟨issued⟩, segment) :: back) (issued + 1)) := by
  have within : ¬(ofList (front ++ back) issued).order.length < front.length := by simp [ofList]
  have order : ((front ++ back).map (·.1)).insertIdx front.length ⟨issued⟩ =
      (front ++ (⟨issued⟩, segment) :: back).map (·.1) := by
    have put := insertIdx_middle (front.map (·.1)) (back.map (·.1)) (⟨issued⟩ : Handle)
    rw [List.length_map] at put
    simpa using put
  rw [perform_insert _ _ rfl, if_neg within, ofList, ofList, order,
    Timeline.lookup_middle fresh]

theorem perform_remove_ofList (unique : ((front ++ (handle, segment) :: back).map (·.1)).Nodup)
    (issued : Nat) :
    perform (remove handle) (ofList (front ++ (handle, segment) :: back) issued) =
      (.ok segment, ofList (front ++ back) issued) := by
  have slots : Timeline.lookup (front ++ (handle, segment) :: back) = _ :=
    Timeline.lookup_middle (Timeline.ne_front unique)
  have gone : Timeline.lookup (front ++ back) handle = none :=
    Timeline.lookup_eq_none_iff.mpr (Timeline.ne_of_unique unique)
  have order : ((front ++ (handle, segment) :: back).map (·.1)).filter (· ≠ handle) =
      (front ++ back).map (·.1) := by
    rw [List.filter_map]
    exact congrArg (List.map (·.1)) (Timeline.filter_middle unique)
  have found :
      (ofList (front ++ (handle, segment) :: back) issued).slots handle = some segment := by
    show Timeline.lookup (front ++ (handle, segment) :: back) handle = some segment
    rw [slots, Function.update_self]
  rw [perform_remove _ rfl, found]
  simp only [ofList, slots, order, Function.update_idem]
  rw [← gone, Function.update_eq_self]

theorem perform_moveTo_ofList {front' back' : List (Handle × Segment R S)}
    (unique : ((front ++ (handle, segment) :: back).map (·.1)).Nodup)
    (others : front' ++ back' = front ++ back) (issued : Nat) :
    perform (moveTo handle front'.length) (ofList (front ++ (handle, segment) :: back) issued) =
      (.ok (), ofList (front' ++ (handle, segment) :: back') issued) := by
  have before := Timeline.ne_front unique
  have before' : ∀ e ∈ front', e.1 ≠ handle := by
    intro e member
    refine Timeline.ne_of_unique unique e ?_
    rw [← others]
    exact List.mem_append_left _ member
  have length := congrArg List.length others
  simp only [List.length_append] at length
  have within : ¬(front ++ (handle, segment) :: back).length ≤ front'.length := by
    simp only [List.length_append, List.length_cons]
    omega
  have order : (((front ++ (handle, segment) :: back).map (·.1)).eraseIdx front.length).insertIdx
      front'.length handle = (front' ++ (handle, segment) :: back').map (·.1) := by
    have erased : ((front ++ (handle, segment) :: back).map (·.1)).eraseIdx front.length =
        (front' ++ back').map (·.1) := by
      rw [others]
      simp [List.eraseIdx_append_of_length_le]
    have put := insertIdx_middle (front'.map (·.1)) (back'.map (·.1)) handle
    rw [List.length_map] at put
    rw [erased]
    simpa using put
  rw [perform_moveTo _ _ rfl]
  simp only [ofList, findIdx?_middle before, List.length_map, if_neg within, order,
    Timeline.lookup_middle before, Timeline.lookup_middle before', others]

theorem perform_of_rearranges {edit : Edit R S} {entries after : List (Handle × Segment R S)}
    {issued : Nat} (rearranges : edit.Rearranges ⟨issued⟩ entries after)
    (unique : (entries.map (·.1)).Nodup) (fresh : ⟨issued⟩ ∉ entries.map (·.1)) :
    perform edit.onShelf (ofList entries issued) =
      (.ok (), ofList after (issued + edit.newcomers)) := by
  have new : ∀ e ∈ entries, e.1 ≠ ⟨issued⟩ :=
    fun e member same => fresh (List.mem_map.mpr ⟨e, member, same⟩)
  cases rearranges with
  | push _ segment =>
      have put := @perform_insert_ofList R S entries [] segment issued new
      have place : (ofList entries issued).order.length = entries.length := List.length_map _
      rw [List.append_nil] at put
      simp only [Edit.onShelf, perform_bind, perform_get, place, put, perform_pure]
      rfl
  | insert front back segment =>
      have new' : ∀ e ∈ front, e.1 ≠ ⟨issued⟩ :=
        fun e member => new e (List.mem_append_left _ member)
      simp only [Edit.onShelf, perform_bind, perform_insert_ofList new', perform_pure]
      rfl
  | remove front back handle segment =>
      simp only [Edit.onShelf, perform_bind, perform_remove_ofList unique, perform_pure]
      rfl
  | moveTo handle segment others => exact perform_moveTo_ofList unique others issued
  | @setWindow front back handle segment idle window =>
      have before := Timeline.ne_front unique
      have windowed : segment.setWindow window.start window.stop = .ok { segment with window } := by
        simp [Segment.setWindow, idle, Window.ofBounds, window.start_lt_stop]
      rw [Edit.onShelf, perform_setWindow _ _ _ rfl]
      simp only [ofList, Timeline.lookup_middle before, Function.update_self, windowed,
        Function.update_idem]
      simp [Edit.newcomers]
  | reset =>
      rw [Edit.onShelf, perform_reset rfl]
      rfl

theorem perform_of_refuses {edit : Edit R S} {entries : List (Handle × Segment R S)}
    {e : TransportError} (refuses : edit.Refuses entries e)
    (unique : (entries.map (·.1)).Nodup) (issued : Nat) :
    perform edit.onShelf (ofList entries issued) = (.error e, ofList entries issued) := by
  have stopped : (ofList entries issued).playing = false := rfl
  have missing : ∀ {handle : Handle}, (∀ e ∈ entries, e.1 ≠ handle) →
      (ofList entries issued).slots handle = none :=
    fun unknown => Timeline.lookup_eq_none_iff.mpr unknown
  have present : ∀ {handle : Handle} {segment : Segment R S}, (handle, segment) ∈ entries →
      (ofList entries issued).slots handle = some segment :=
    fun known => (Timeline.lookup_eq_some_iff unique).mpr known
  have length : (ofList entries issued).order.length = entries.length := List.length_map _
  cases refuses with
  | @insert _ index segment beyond =>
      rw [← length] at beyond ⊢
      simp only [Edit.onShelf, perform_bind, perform_insert _ _ stopped, if_pos beyond]
  | remove unknown =>
      simp only [Edit.onShelf, perform_bind, perform_remove _ stopped, missing unknown]
  | @moveTo _ handle index unknown =>
      have none : (ofList entries issued).order.findIdx? (· = handle) = none := by
        simpa [ofList] using fun handle segment => unknown (handle, segment)
      simp only [Edit.onShelf, perform_moveTo _ _ stopped, none]
  | @moveTo_beyond _ handle index segment known beyond =>
      obtain ⟨front, back, rfl⟩ := List.append_of_mem known
      have found : ((front ++ (handle, segment) :: back).map (·.1)).findIdx? (· = handle) = _ :=
        findIdx?_middle (Timeline.ne_front unique)
      rw [← length] at beyond ⊢
      rw [Edit.onShelf, perform_moveTo _ _ stopped]
      simp only [ofList, found]
      exact if_pos beyond
  | setWindow start stop unknown =>
      simp only [Edit.onShelf, perform_setWindow _ _ _ stopped, missing unknown]
  | @setWindow_playing _ handle segment start stop known playing =>
      have refused : segment.setWindow start stop = .error .alreadyPlaying := if_pos playing
      simp only [Edit.onShelf, perform_setWindow _ _ _ stopped, present known, refused]
  | @setWindow_empty _ handle segment start stop known idle empty =>
      have refused : segment.setWindow start stop = .error (.window (.empty start stop)) := by
        simp [Segment.setWindow, idle, Window.ofBounds, empty]
      simp only [Edit.onShelf, perform_setWindow _ _ _ stopped, present known, refused]

/-- While the timeline plays every edit is refused. -/
theorem perform_of_playing {shelf : Shelf R S} (playing : shelf.playing = true)
    (edit : Edit R S) : perform edit.onShelf shelf = (.error .playing, shelf) := by
  cases edit <;>
    simp [Edit.onShelf, insert, remove, moveTo, setWindow, reset, playing]

end Shelf

section

variable {T R S : Type}

theorem Timeline.shelf_of_stopped {tl : Timeline T R S} (stopped : tl.playing = false) :
    tl.shelf = .ofList tl.entries tl.issued := by
  rw [Shelf.ofList, ← stopped]
  rfl

/-- **Two containers for one list.** An edit of the shelf of a timeline is granted or refused as the
edit of the timeline is. It leads to the shelf of the edited timeline, or leaves the shelf. -/
theorem Edit.perform_onShelf [Scalar T] {tl : Timeline T R S} (filed : tl.Filed)
    (edit : Edit R S) :
    Shelf.perform edit.onShelf tl.shelf =
      match edit.apply tl with
      | .ok after => (.ok (), after.shelf)
      | .error e => (.error e, tl.shelf) := by
  cases playing : tl.playing with
  | true => rw [Shelf.perform_of_playing playing, apply_of_playing playing]
  | false =>
      rw [Timeline.shelf_of_stopped playing]
      obtain ⟨entries, rearranges⟩ | ⟨e, refuses⟩ :=
        edit.rearranges_or_refuses ⟨tl.issued⟩ tl.entries
      · have shelf : (edit.leaving tl entries).shelf =
            .ofList entries (tl.issued + edit.newcomers) := by
          rw [Timeline.shelf_of_stopped (leaving_playing playing entries edit), leaving_entries,
            leaving_issued]
        rw [apply_of_rearranges playing filed.unique rearranges,
          Shelf.perform_of_rearranges rearranges filed.unique filed.fresh]
        exact congrArg (Prod.mk _) shelf.symm
      · rw [apply_of_refuses playing filed.unique refuses,
          Shelf.perform_of_refuses refuses filed.unique]

end

/-! ## Readers -/

/-- What a timeline says when it is asked is what a list says. -/
structure Timeline.Reads {T R S : Type} (tl : Timeline T R S)
    (list : List (Handle × Segment R S)) : Prop where
  nodup : (list.map (·.1)).Nodup
  size : tl.size = list.length
  order : tl.order = list.map (·.1)
  handleAt? : ∀ index, tl.handleAt? index = list[index]?.map (·.1)
  segmentAt? : ∀ index, tl.segmentAt? index = list[index]?.map (·.2)
  get? : ∀ handle segment, tl.get? handle = some segment ↔ (handle, segment) ∈ list
  indexOf? : ∀ handle index,
    tl.indexOf? handle = some index ↔ ∃ segment, list[index]? = some (handle, segment)
  offsetOf : ∀ index, tl.offsetOf index = ((list.take index).map fun e => e.2.runTime).sum
  runTime : tl.runTime = (list.map fun e => e.2.runTime).sum

/-- The two containers of a timeline correspond, and going through them gives what the timeline
says. -/
structure Shelf.Serves {T R S : Type} (shelf : Shelf R S) (tl : Timeline T R S) : Prop where
  nodup : shelf.order.Nodup
  mem_order : ∀ handle, handle ∈ shelf.order ↔ (shelf.slots handle).isSome
  entries : shelf.entries = tl.entries
  size : shelf.order.length = tl.size
  handleAt? : ∀ index, shelf.order[index]? = tl.handleAt? index
  segmentAt? : ∀ index, shelf.segmentAt? index = tl.segmentAt? index
  get? : ∀ handle, shelf.slots handle = tl.get? handle
  indexOf? : ∀ handle, shelf.order.findIdx? (· = handle) = tl.indexOf? handle
  offsetOf : ∀ index, shelf.seconds (shelf.order.take index) = tl.offsetOf index
  runTime : shelf.seconds shelf.order = tl.runTime

namespace Timeline

variable {T R S : Type} {tl : Timeline T R S}

/-- With every handle in one entry, the place of a handle is the place of its entry. -/
theorem indexOf?_eq_some_iff (unique : tl.order.Nodup) {handle : Handle} {index : Nat} :
    tl.indexOf? handle = some index ↔ ∃ segment, tl.entries[index]? = some (handle, segment) := by
  constructor
  · intro found
    obtain ⟨within, named, -⟩ := List.findIdx?_eq_some_iff_getElem.mp found
    have same : tl.entries[index].1 = handle := by simpa using named
    exact ⟨tl.entries[index].2, by rw [List.getElem?_eq_getElem within, ← same]⟩
  · rintro ⟨segment, found⟩
    obtain ⟨within, here⟩ := List.getElem?_eq_some_iff.mp found
    refine List.findIdx?_eq_some_iff_getElem.mpr ⟨within, by simp [here], fun place before => ?_⟩
    have earlier : place < tl.order.length := by simp [order]; omega
    have later : index < tl.order.length := by simpa [order] using within
    have apart : tl.order[place] ≠ tl.order[index] := fun same =>
      Nat.ne_of_lt before ((unique.getElem_inj_iff).mp same)
    simpa [order, here] using apart

theorem reads_entries (unique : tl.order.Nodup) : tl.Reads tl.entries where
  nodup := unique
  size := rfl
  order := rfl
  handleAt? _ := rfl
  segmentAt? _ := rfl
  get? _ _ := lookup_eq_some_iff unique
  indexOf? _ _ := indexOf?_eq_some_iff unique
  offsetOf index := seconds_eq (tl.entries.take index)
  runTime := seconds_eq tl.entries

/-- Going from handle to handle over entries of the timeline finds just these. -/
theorem seconds_shelf (unique : tl.order.Nodup) {part : List (Handle × Segment R S)}
    (among : part ⊆ tl.entries) : tl.shelf.seconds (part.map (·.1)) = seconds part := by
  have found : ∀ e ∈ part, tl.get? e.1 = some e.2 :=
    fun e member => (lookup_eq_some_iff unique).mpr (among member)
  have segments : (part.map (·.1)).filterMap tl.get? = part.map (·.2) := by
    rw [List.filterMap_map]
    exact (List.filterMap_congr found).trans (congrFun List.filterMap_eq_map part)
  rw [Shelf.seconds, seconds_eq]
  show (((part.map (·.1)).filterMap tl.get?).map Segment.runTime).sum = _
  rw [segments, List.map_map]
  rfl

theorem shelf_serves (unique : tl.order.Nodup) : tl.shelf.Serves tl where
  nodup := unique
  mem_order handle := by
    show handle ∈ tl.order ↔ (tl.get? handle).isSome
    rw [← Option.ne_none_iff_isSome, Ne, get?_eq_none_iff, not_not]
  entries := by
    have found : ∀ e ∈ tl.entries, (tl.get? e.1).map (fun segment => (e.1, segment)) = some e := by
      intro e member
      have here : tl.get? e.1 = some e.2 := (lookup_eq_some_iff unique).mpr member
      rw [here]
      rfl
    show (tl.entries.map (·.1)).filterMap _ = _
    rw [List.filterMap_map]
    exact (List.filterMap_congr found).trans List.filterMap_some
  size := List.length_map _
  handleAt? index := List.getElem?_map
  segmentAt? index := by
    show (tl.entries.map (·.1))[index]?.bind tl.get? = tl.entries[index]?.map (·.2)
    rw [List.getElem?_map]
    cases found : tl.entries[index]? with
    | none => rfl
    | some e => exact (lookup_eq_some_iff unique).mpr (List.mem_of_getElem? found)
  get? _ := rfl
  indexOf? handle := List.findIdx?_map
  offsetOf index := by
    have part := seconds_shelf unique (List.take_subset index tl.entries)
    rw [List.map_take] at part
    exact part
  runTime := seconds_shelf unique (List.Subset.refl tl.entries)

end Timeline

/-! ## Edit after edit -/

section

variable {T R S K : Type} [Scalar T] [Arithmetic R] [Scalar S] [Narrowing R S] [FrameSink K S]

/-- Edits of the shelf of a timeline lead to the shelf of the timeline that they lead to. -/
theorem Timeline.Filed.shelf_after {deck : Deck T R S K} (filed : deck.timeline.Filed)
    (edits : List (Edit R S)) :
    (Deck.after (edits.map Call.edit) deck).timeline.shelf =
      edits.foldl (fun shelf edit => (Shelf.perform edit.onShelf shelf).2) deck.timeline.shelf := by
  induction edits generalizing deck with
  | nil => rfl
  | cons edit rest ih =>
      have step : (Shelf.perform edit.onShelf deck.timeline.shelf).2 =
          ((Call.edit edit).on deck).2.timeline.shelf := by
        rw [edit.perform_onShelf filed, Call.on_edit]
        cases edit.apply deck.timeline <;> rfl
      rw [List.foldl_cons, step]
      exact ih (Call.on_filed (.edit edit) filed).1

/-- **Editing refines a list.** Take a timeline that was reached by any calls, and edit it any
number of times.

The two containers that the edits change one after the other are those of the timeline they lead
to; they correspond, and every reader of them and of the timeline reads off the list. If the
timeline does not play, the list is the one that the edits of plain lists lead to; if it plays,
nothing has changed. The next edit is granted just when the list can be rearranged so, and leaves
the list that this gives; one that is refused leaves everything. A segment that is put in gets a
handle that was never given out, and one that is taken away is the one that lay under its handle. A
handle that has gone in the meantime is unknown whatever calls follow. -/
theorem Timeline.Reached.edits_refine {allowed : Call T R S → Prop} {tl : Timeline T R S}
    (reached : tl.Reached allowed) (sink : K) (edits : List (Edit R S)) :
    let deck : Deck T R S K := Deck.after (edits.map Call.edit) ⟨tl, sink⟩
    let now := deck.timeline
    let shelf := edits.foldl (fun shelf edit => (Shelf.perform edit.onShelf shelf).2) tl.shelf
    shelf = now.shelf ∧ shelf.Serves now ∧ now.Reads now.entries ∧
      (tl.playing = false →
        Edit.Leads edits (tl.entries, tl.issued) (now.entries, now.issued)) ∧
      (tl.playing = true → deck = ⟨tl, sink⟩) ∧
      (∀ (edit : Edit R S) (after : Deck T R S K),
        (Call.edit edit).on deck = (.ok (), after) ↔
          now.playing = false ∧ ∃ entries, edit.Rearranges ⟨now.issued⟩ now.entries entries ∧
            after = { deck with timeline := edit.leaving now entries }) ∧
      (∀ (edit : Edit R S) (e : TransportError) (after : Deck T R S K),
        (Call.edit edit).on deck = (.error e, after) ↔
          after = deck ∧ (now.playing = true ∧ e = .playing ∨
            now.playing = false ∧ edit.Refuses now.entries e)) ∧
      (∀ index segment handle after, now.insert index segment = .ok (handle, after) →
        handle = ⟨now.issued⟩ ∧ now.get? handle = none ∧ after.get? handle = some segment) ∧
      (∀ handle segment after, now.remove handle = .ok (segment, after) →
        now.get? handle = some segment ∧ after.get? handle = none) ∧
      ∀ handle, tl.get? handle ≠ none → now.get? handle = none →
        ∀ calls : List (Call T R S), (Deck.after calls deck).timeline.get? handle = none := by
  intro deck now shelf
  have filed : (⟨tl, sink⟩ : Deck T R S K).timeline.Filed := reached.filed
  obtain ⟨filed', precedes⟩ : deck.timeline.Filed ∧ tl.Precedes now := filed.lasts _
  have same : shelf = now.shelf := (filed.shelf_after edits).symm
  refine ⟨same, same ▸ shelf_serves filed'.unique, reads_entries filed'.unique, ?_, ?_, ?_, ?_, ?_,
    ?_, ?_⟩
  · intro stopped
    exact (filed.leads stopped edits).1
  · intro playing
    exact after_edits_of_playing playing edits
  · exact fun edit after => Call.on_edit_granted_iff filed' edit
  · exact fun edit e after => Call.on_edit_refused_iff filed' edit e
  · exact fun index segment handle after => filed'.insert_new
  · exact fun handle segment after => get?_of_remove
  · intro handle known gone calls
    have given : handle.serial < tl.issued := by
      refine filed.given handle ?_
      by_contra unknown
      exact known (get?_eq_none_iff.mpr unknown)
    have given' := Nat.lt_of_lt_of_le given precedes.issued
    have later := (filed'.lasts calls).2
    exact get?_eq_none_iff.mpr (later.gone handle given' (get?_eq_none_iff.mp gone))

/-- A second segment comes in, the first moves behind it and is taken away. -/
theorem Timeline.twoSeconds_edited :
    let edits : List (Edit Float Float32) :=
      [.push .twoSeconds, .moveTo ⟨0⟩ 1, .moveTo ⟨0⟩ 2, .remove ⟨0⟩]
    let deck : Deck Float Float Float32 (Ring Float32) :=
      Deck.after (edits.map Call.edit) ⟨.ofSegment .twoSeconds, .ofCapacity 1 1⟩
    (ofSegment .twoSeconds : Timeline Float Float Float32).Reached (fun _ => True) ∧
      deck.timeline.order = [⟨1⟩] ∧
      Edit.Leads edits ([(⟨0⟩, .twoSeconds)], 1) ([(⟨1⟩, .twoSeconds)], 2) ∧
      deck.timeline.Reads [(⟨1⟩, .twoSeconds)] ∧
      ∀ calls : List (Call Float Float Float32),
        (Deck.after calls deck).timeline.get? ⟨0⟩ = none := by
  intro edits deck
  have reached : (ofSegment .twoSeconds : Timeline Float Float Float32).Reached (fun _ => True) :=
    ofSegment_reached True.intro
  obtain ⟨-, -, reads, leads, -, -, -, -, -, forgotten⟩ :=
    reached.edits_refine (.ofCapacity 1 1 : Ring Float32) edits
  exact ⟨reached, rfl, leads rfl, reads, forgotten ⟨0⟩ (by simp [get?, ofSegment]) rfl⟩

end

end Tonegraph
