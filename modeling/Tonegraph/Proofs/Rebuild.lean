import Tonegraph.Proofs.Deck.Calls
/-!
# Building a timeline anew

A segment is renewed when it is created again with the same text, formula, window and voice. What
playing does to a segment shows no more in the renewed one. So the register of a timeline, which is
its segments renewed, each under its handle, and how many handles have been given out, is left
alone by all calls but edits (`Call.on_register`). Hence what an edit brings in stays true of a
timeline if it is about its pieces only (`Timeline.Reached.all`).

`Timeline.rebuild` creates the segments of a list again and pushes them one behind the other. It
always succeeds, and `Timeline.anew` is what it gives.
-/

set_option autoImplicit false

namespace Tonegraph

variable {T R S K : Type} [Arithmetic R]

/-! ## Pieces -/

namespace Segment

/-- A segment as it is when it is created with the same text, formula, window and voice. -/
def renewed (s : Segment R S) : Segment R S :=
  { s with playing := false, rendered := 0, phase := Scalar.ofNat 0 }

theorem renewed_samePiece (s : Segment R S) : s.renewed.SamePiece s := ⟨rfl, rfl, rfl, rfl⟩

theorem SamePiece.renewed_eq {a b : Segment R S} (same : a.SamePiece b) :
    a.renewed = b.renewed := by
  obtain ⟨text, formula, window, voice⟩ := same
  obtain ⟨_, _, _, _, _, _, _, _⟩ := a
  obtain ⟨_, _, _, _, _, _, _, _⟩ := b
  dsimp only at text formula window voice
  subst text formula window voice
  rfl

theorem create_eq_renewed (s : Segment R S) :
    Segment.create s.text s.formula s.window.start s.window.stop s.voice = .ok s.renewed :=
  create_of_lt s.closed s.window.start_lt_stop

theorem create_eq_ok {text : String} {formula : Formula R} {start stop : Int32}
    {voice : Voice R S} {s : Segment R S}
    (created : Segment.create text formula start stop voice = .ok s) :
    s.text = text ∧ s.formula = formula ∧ s.voice = voice := by
  unfold create at created
  split at created
  · cases created
  · split at created
    · cases created
    · cases created
      exact ⟨rfl, rfl, rfl⟩

end Segment

namespace Timeline

/-- The segments of a timeline, renewed. -/
def pieces (tl : Timeline T R S) : List (Segment R S) := tl.entries.map (·.2.renewed)

/-- How many handles have been given out, and what lies under those that are left. -/
def register (tl : Timeline T R S) : Nat × List (Handle × Segment R S) :=
  (tl.issued, tl.entries.map fun e => (e.1, e.2.renewed))

section Register

variable {a b : Timeline T R S} (same : a.register = b.register)

include same

theorem issued_of_register : a.issued = b.issued := congrArg Prod.fst same

theorem pieces_of_register : a.pieces = b.pieces := by
  have pieces := congrArg (fun register => register.2.map (·.2)) same
  simp only [register, List.map_map] at pieces
  exact pieces

theorem order_of_register : a.order = b.order := by
  have handles := congrArg (fun register => register.2.map (·.1)) same
  simp only [register, List.map_map] at handles
  exact handles

end Register

/-- Putting a segment back with the same piece leaves the register. -/
theorem register_of_set {before after : Timeline T R S} {index : Nat}
    {entry : Handle × Segment R S} {segment : Segment R S}
    (found : before.entries[index]? = some entry) (same : segment.SamePiece entry.2)
    (put : after.entries = before.entries.set index (entry.1, segment))
    (issued : after.issued = before.issued) : after.register = before.register := by
  rw [register, register, put, issued]
  exact congrArg (Prod.mk _) (map_set_of_same found (congrArg (Prod.mk _) same.renewed_eq))

end Timeline

namespace Deck

variable [Scalar S] [Narrowing R S] [FrameSink K S]

theorem silenced_register (deck : Deck T R S K) :
    deck.silenced.timeline.register = deck.timeline.register := by
  unfold silenced
  split
  · rfl
  · rename_i index entry active
    obtain ⟨-, found, -⟩ := Timeline.active?_eq_some_iff.mp active
    exact Timeline.register_of_set found (Segment.stopped_samePiece _ _) rfl rfl

theorem startAt_register (index : Nat) (deck : Deck T R S K) :
    (perform (startAt index) deck).2.timeline.register = deck.timeline.register := by
  rw [perform_startAt]
  split
  · rfl
  · rename_i entry found
    split
    · rfl
    · exact Timeline.register_of_set found (Segment.started_samePiece _ _) rfl rfl

theorem filled_register (deck : Deck T R S K) :
    (filled deck).2.timeline.register = deck.timeline.register := by
  obtain same | ⟨index, entry, found, same⟩ := filled_timeline deck
  · rw [same]
  · rw [same]
    exact Timeline.register_of_set found (Segment.fill_samePiece _ _) rfl rfl

variable [Scalar T]

theorem stop_register (interrupted : Bool) (deck : Deck T R S K) :
    (perform (stop interrupted) deck).2.timeline.register = deck.timeline.register := by
  rw [perform_stop]
  split
  · rfl
  · split
    · rfl
    · exact silenced_register deck

theorem seekTo_register (index : Nat) (deck : Deck T R S K) :
    (perform (seekTo index) deck).2.timeline.register = deck.timeline.register := by
  rw [perform_seekTo]
  split
  · rfl
  · split
    · rfl
    · dsimp only
      split
      · exact silenced_register deck
      · exact (startAt_register index _).trans (silenced_register deck)

theorem seekForward_register (deck : Deck T R S K) :
    (perform seekForward deck).2.timeline.register = deck.timeline.register := by
  obtain ⟨e, refused⟩ | ⟨index, jumps⟩ := seekForward_cases deck
  · rw [refused]
  · rw [jumps]
    exact seekTo_register index deck

theorem seekBackward_register (deck : Deck T R S K) :
    (perform seekBackward deck).2.timeline.register = deck.timeline.register := by
  obtain ⟨e, refused⟩ | ⟨index, jumps⟩ := seekBackward_cases deck
  · rw [refused]
  · rw [jumps]
    exact seekTo_register index deck

theorem start_register (deck : Deck T R S K) :
    (perform start deck).2.timeline.register = deck.timeline.register := by
  rw [perform_start]
  split
  · rfl
  · split
    · rfl
    · exact startAt_register 0 _

theorem step_register (deck : Deck T R S K) :
    (perform step deck).2.timeline.register = deck.timeline.register := by
  rw [perform_step]
  split
  · exact stop_register false deck
  · split
    · rfl
    · exact startAt_register 0 _
  · dsimp only
    split
    · rfl
    · split
      · split
        · exact silenced_register deck
        · exact (startAt_register _ _).trans (silenced_register deck)
      · exact (stop_register false _).trans (silenced_register deck)

theorem tick_register (delta : T) (deck : Deck T R S K) :
    ((Call.tick delta).on deck).2.timeline.register = deck.timeline.register := by
  have stepped := step_register (deck.ticked delta)
  rw [Call.on_tick]
  split
  · split
    · rename_i after performed
      rw [performed] at stepped
      exact (filled_register after).trans stepped
    · rename_i e after performed
      rw [performed] at stepped
      exact stepped
  · rfl

end Deck

section

variable [Scalar T] [Scalar S] [Narrowing R S]

namespace Call

/-- A segment that a call brings in is so. -/
def Inserts (so : Segment R S → Prop) : Call T R S → Prop
  | .edit change => change.Inserts so
  | _ => True

/-- Only edits give out handles, and change what lies under one. -/
theorem on_register [FrameSink K S] (call : Call T R S) (deck : Deck T R S K) :
    (∃ change, call = .edit change) ∨
      (call.on deck).2.timeline.register = deck.timeline.register := by
  cases call with
  | edit change => exact .inl ⟨change, rfl⟩
  | start => exact .inr (Deck.start_register deck)
  | stop interrupted => exact .inr (Deck.stop_register interrupted deck)
  | seekForward => exact .inr (Deck.seekForward_register deck)
  | seekBackward => exact .inr (Deck.seekBackward_register deck)
  | seekTo index => exact .inr (Deck.seekTo_register index deck)
  | tick delta => exact .inr (Deck.tick_register delta deck)
  | takeEvents count => exact .inr rfl

/-- Only edits change the pieces of a timeline. -/
theorem on_pieces [FrameSink K S] (call : Call T R S) (deck : Deck T R S K) :
    (∃ change, call = .edit change) ∨
      (call.on deck).2.timeline.pieces = deck.timeline.pieces := by
  exact (call.on_register deck).imp_right Timeline.pieces_of_register

end Call

/-- What holds of all segments that are brought in, tells nothing of how far they are played and is
kept by another window, holds of all segments. -/
theorem Timeline.Reached.all {so : Segment R S → Prop} {tl : Timeline T R S}
    (reached : tl.Reached (Call.Inserts so)) (ofPiece : ∀ segment, so segment ↔ so segment.renewed)
    (windowed : ∀ {segment changed : Segment R S} {start stop : Int32},
      segment.setWindow start stop = .ok changed → so segment → so changed) :
    ∀ e ∈ tl.entries, so e.2 := by
  have byPieces : ∀ {tl : Timeline T R S},
      (∀ e ∈ tl.entries, so e.2) ↔ ∀ piece ∈ tl.pieces, so piece := by
    intro tl
    simp only [Timeline.pieces, List.forall_mem_map, ← ofPiece]
  induction reached with
  | empty => exact fun _ member => absurd member List.not_mem_nil
  | @call tl call K _ sink _ inserts ih =>
      obtain ⟨change, rfl⟩ | same := call.on_pieces ⟨tl, sink⟩
      · rw [Call.on_edit]
        cases applied : change.apply tl with
        | error e => exact ih
        | ok after =>
            cases playing : tl.playing with
            | true =>
                rw [Edit.apply_of_playing playing] at applied
                cases applied
            | false =>
                obtain ⟨entries, issued, all, rfl | rfl⟩ :=
                  Edit.apply_of_stopped playing ih inserts windowed applied
                · exact all
                · exact all
      · rw [byPieces, same, ← byPieces]
        exact ih

end

/-! ## Building anew -/

namespace Timeline

section

omit [Arithmetic R]

/-- A timeline with segments put behind those it has. -/
def appended (tl : Timeline T R S) (segments : List (Segment R S)) : Timeline T R S :=
  { tl with
    entries := tl.entries ++ (segments.zipIdx tl.issued).map fun e => (⟨e.2⟩, e.1)
    issued := tl.issued + segments.length }

theorem appended_nil (tl : Timeline T R S) : tl.appended [] = tl := by
  simp [appended]

theorem push_eq_appended {tl : Timeline T R S} (stopped : tl.playing = false)
    (segment : Segment R S) : tl.push segment = .ok (⟨tl.issued⟩, tl.appended [segment]) := by
  rw [push_of_stopped stopped, size, List.insertIdx_length_self]
  rfl

theorem appended_append (tl : Timeline T R S) (segments more : List (Segment R S)) :
    (tl.appended segments).appended more = tl.appended (segments ++ more) := by
  simp [appended, List.zipIdx_append, Nat.add_assoc]

/-- Pushing what each of some things makes, one behind the other. -/
theorem foldlM_push {α ε : Type} {make : α → Segment R S}
    {step : Timeline T R S → α → Except ε (Timeline T R S)} {items : List α}
    (steps : ∀ tl, tl.playing = false → ∀ item ∈ items,
      step tl item = .ok (tl.appended [make item]))
    {tl : Timeline T R S} (stopped : tl.playing = false) :
    items.foldlM step tl = .ok (tl.appended (items.map make)) := by
  induction items generalizing tl with
  | nil => rw [List.map_nil, appended_nil]; rfl
  | cons item rest ih =>
      rw [List.foldlM_cons, steps tl stopped item List.mem_cons_self]
      have stopped' : (tl.appended [make item]).playing = false := stopped
      have behind := ih (fun tl stopped item member =>
        steps tl stopped item (List.mem_cons_of_mem _ member)) stopped'
      rw [appended_append] at behind
      exact behind

end

variable [Scalar T]

/-- A timeline built anew of segments: each is created with the text, the formula, the window and
the voice that it has, and pushed behind those before it. -/
def rebuild (segments : List (Segment R S)) : Except TransportError (Timeline T R S) :=
  segments.foldlM
    (fun tl s => do
      let segment ← (Segment.create s.text s.formula s.window.start s.window.stop s.voice).mapError
        .segment
      return (← tl.push segment).2)
    .empty

/-- The timeline built anew of segments. -/
def anew (segments : List (Segment R S)) : Timeline T R S :=
  empty.appended (segments.map Segment.renewed)

theorem anew_segments (segments : List (Segment R S)) :
    (anew (T := T) segments).entries.map (·.2) = segments.map Segment.renewed := by
  rw [anew, appended, empty, List.nil_append, List.map_map]
  exact List.zipIdx_map_fst 0 _

/-- Segments can always be used to build a timeline anew. -/
theorem rebuild_eq (segments : List (Segment R S)) :
    rebuild (T := T) segments = .ok (anew segments) := by
  refine foldlM_push (fun tl stopped s _ => ?_) rfl
  rw [Segment.create_eq_renewed]
  show (do return (← tl.push s.renewed).2) = _
  rw [push_eq_appended stopped]
  rfl

end Timeline

end Tonegraph
