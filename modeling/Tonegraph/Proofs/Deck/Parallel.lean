import Mathlib.Data.List.Forall2
import Mathlib.Tactic.ByContra
import Tonegraph.Proofs.Deck.Effects
import Tonegraph.Proofs.Sink
/-!
# Timelines that go on alike

Two segments go on alike when they are equal, or idle both and of one piece: a start forgets what
an idle segment was left with. `Timeline.Parallel` lifts this to two timelines, of which one may
have some segments more in front: place by place the segments go on alike, and the cursors stand at
the same place, counted from where the shorter one begins.

What a call of the transport does to the segments and to the sinks of two parallel decks is the
same; each call of `Deck` has a lemma here that says so in the form of `Deck.Together`. The clocks
are left open: a call decides by them whether a segment has run and whether a stop is granted, so
the lemmas ask for agreement in just that, and say what becomes of the clocks through `keeps`, a
relation between two clocks that is chosen where the lemmas are used. The sinks may be of different
kinds as long as they are matched.
-/

set_option autoImplicit false

namespace Tonegraph

variable {T R S K₁ K₂ : Type}

/-! ## Segments -/

namespace Segment

/-- Two segments that are equal, or idle both and of one piece. -/
def Alike (a b : Segment R S) : Prop :=
  a = b ∨ a.SamePiece b ∧ a.playing = false ∧ b.playing = false

section

variable {a b : Segment R S}

theorem Alike.samePiece (alike : a.Alike b) : a.SamePiece b := by
  obtain rfl | ⟨same, -, -⟩ := alike
  · exact .refl a
  · exact same

theorem Alike.playing_eq (alike : a.Alike b) : a.playing = b.playing := by
  obtain rfl | ⟨-, left, right⟩ := alike
  · rfl
  · rw [left, right]

theorem Alike.eq_of_playing (alike : a.Alike b) (playing : b.playing = true) : a = b := by
  obtain same | ⟨-, -, idle⟩ := alike
  · exact same
  · rw [idle] at playing
    cases playing

end

variable [Arithmetic R] [Scalar S] [Narrowing R S] [FrameSink K₁ S] [FrameSink K₂ S]
variable {related : K₁ → K₂ → Prop} (matching : FrameSink.Matching related)
variable {x : K₁} {y : K₂} (sinks : related x y)

include matching sinks

/-- Starting makes segments that go on alike equal. -/
theorem Alike.started {a b : Segment R S} (alike : a.Alike b) :
    (a.started x).1 = (b.started y).1 ∧ related (a.started x).2 (b.started y).2 := by
  obtain ⟨text, formula, window, voice⟩ := alike.samePiece
  have playing := alike.playing_eq
  have begun := matching.start sinks
  -- What is left to tell the two apart is the phase and the count, which a start sets anew.
  obtain ⟨_, _, _, _, _, _, _, _⟩ := a
  obtain ⟨_, _, _, _, _, _, _, _⟩ := b
  dsimp only at text formula window voice playing
  subst text formula window voice playing
  simp only [Segment.started, matching.rate begun, matching.available begun, true_and]
  exact matching.pushAll begun _

theorem stopped_eq (s : Segment R S) :
    (s.stopped x).1 = (s.stopped y).1 ∧ related (s.stopped x).2 (s.stopped y).2 := by
  simp only [Segment.stopped, matching.rate sinks, matching.available sinks, true_and]
  exact matching.stop (matching.pushAll sinks _)

/-- Segments that go on alike have the same content for sinks that are matched. -/
theorem Alike.fill {a b : Segment R S} (alike : a.Alike b) :
    (a.fill x).1 = (b.fill y).1 ∧ (a.fill x).2.1.Alike (b.fill y).2.1 ∧
      related (a.fill x).2.2 (b.fill y).2.2 := by
  simp only [Segment.fill, matching.rate sinks, matching.available sinks]
  obtain rfl | ⟨same, left, right⟩ := alike
  · split
    · exact ⟨rfl, .inl rfl, matching.pushAll sinks _⟩
    · exact ⟨rfl, .inl rfl, sinks⟩
  · rw [left, right]
    exact ⟨rfl, .inr ⟨same, left, right⟩, sinks⟩

end Segment

/-! ## Timelines -/

/-- The cursor on a timeline that has some segments more in front. -/
def Cursor.later (first : Nat) : Cursor → Cursor
  | .segment index => .segment (first + index)
  | cursor => cursor

namespace Timeline

/-- From a place on, the segments of some entries go on alike with those of others. -/
structure AlikeFrom (first : Nat) (xs ys : List (Handle × Segment R S)) : Prop where
  length : xs.length = first + ys.length
  alike {place : Nat} {x y : Handle × Segment R S} :
    xs[first + place]? = some x → ys[place]? = some y → x.2.Alike y.2

section

variable {first index : Nat} {xs ys : List (Handle × Segment R S)}
variable {x y : Handle × Segment R S}

theorem AlikeFrom.getElem? (alike : AlikeFrom first xs ys) (found : ys[index]? = some y) :
    ∃ x, xs[first + index]? = some x ∧ x.2.Alike y.2 := by
  obtain ⟨within, -⟩ := List.getElem?_eq_some_iff.mp found
  have there : first + index < xs.length := by
    have := alike.length
    omega
  have found' : xs[first + index]? = some xs[first + index] := List.getElem?_eq_getElem there
  exact ⟨_, found', alike.alike found' found⟩

theorem AlikeFrom.getElem?_eq_none (alike : AlikeFrom first xs ys) (beyond : ys[index]? = none) :
    xs[first + index]? = none := by
  rw [List.getElem?_eq_none_iff] at beyond ⊢
  have := alike.length
  omega

theorem AlikeFrom.set (alike : AlikeFrom first xs ys) (same : x.2.Alike y.2) :
    AlikeFrom first (xs.set (first + index) x) (ys.set index y) where
  length := by simpa using alike.length
  alike {place x' y'} found found' := by
    rw [List.getElem?_set] at found found'
    by_cases here : index = place
    · subst here
      rw [if_pos rfl] at found found'
      split at found
      · split at found'
        · cases found
          cases found'
          exact same
        · cases found'
      · cases found
    · rw [if_neg (by omega)] at found
      rw [if_neg here] at found'
      exact alike.alike found found'

end

theorem offsetOf_zero (tl : Timeline T R S) : tl.offsetOf 0 = 0 := rfl

/-- The schedule has come to the end: the last segment has run, or all are behind. -/
def Over [Scalar T] (tl : Timeline T R S) : Prop :=
  tl.cursor = .finished ∨ ∃ index, tl.cursor = .segment index ∧ tl.size ≤ index + 1 ∧
    ¬tl.clock.elapsedTime <
      Scalar.ofNat (((tl.segmentAt? index).map Segment.runTime).getD 0)

/-- From a place on, a timeline goes on alike with another. Their clocks may differ. -/
structure Parallel (first : Nat) (a b : Timeline T R S) : Prop where
  playing : a.playing = b.playing
  cursor : a.cursor = b.cursor.later first
  entries : AlikeFrom first a.entries b.entries

section

variable {first : Nat} {a b : Timeline T R S}

theorem Parallel.refl (tl : Timeline T R S) : tl.Parallel 0 tl where
  playing := rfl
  cursor := by cases tl.cursor <;> simp [Cursor.later]
  entries :=
    ⟨(Nat.zero_add _).symm, fun {place x y} found found' => by
      rw [Nat.zero_add, found'] at found
      cases found
      exact .inl rfl⟩

theorem Parallel.size (parallel : a.Parallel first b) : a.size = first + b.size :=
  parallel.entries.length

/-- Segments that go on alike run for the same time. -/
theorem Parallel.runTimeAt (parallel : a.Parallel first b) (index : Nat) :
    ((a.segmentAt? (first + index)).map Segment.runTime).getD 0 =
      ((b.segmentAt? index).map Segment.runTime).getD 0 := by
  cases found : b.entries[index]? with
  | none => simp [segmentAt?, found, parallel.entries.getElem?_eq_none found]
  | some y =>
      obtain ⟨x, found', alike⟩ := parallel.entries.getElem? found
      simp [segmentAt?, found, found', alike.samePiece.runTime]

theorem seconds_of_alikeFrom {xs ys : List (Handle × Segment R S)}
    (alike : AlikeFrom first xs ys) (index : Nat) :
    seconds (xs.take (first + index)) = seconds (xs.take first) + seconds (ys.take index) := by
  induction index with
  | zero => simp [seconds]
  | succ index ih =>
      simp only [seconds_eq] at ih ⊢
      rw [← Nat.add_assoc, List.take_add_one, List.take_add_one, List.map_append, List.map_append,
        List.sum_append, List.sum_append, ih]
      cases found : ys[index]? with
      | none => simp [alike.getElem?_eq_none found]
      | some y =>
          obtain ⟨x, found', same⟩ := alike.getElem? found
          simp [found', same.samePiece.runTime, Nat.add_assoc]

/-- Offsets differ by that of the place from which on the two are alike. -/
theorem Parallel.offsetOf (parallel : a.Parallel first b) (index : Nat) :
    a.offsetOf (first + index) = a.offsetOf first + b.offsetOf index :=
  seconds_of_alikeFrom parallel.entries index

/-- The cursor of the longer timeline is at a playing segment when that of the shorter one is, and
it is at the same one. -/
theorem Parallel.active? (parallel : a.Parallel first b) :
    (a.active? = none ∧ b.active? = none) ∨
      ∃ index x y, a.active? = some (first + index, x) ∧ b.active? = some (index, y) ∧
        a.entries[first + index]? = some x ∧ b.entries[index]? = some y ∧ x.2 = y.2 := by
  cases active : b.active? with
  | some at? =>
      obtain ⟨index, y⟩ := at?
      obtain ⟨cursor, found, playing⟩ := active?_eq_some_iff.mp active
      obtain ⟨x, found', alike⟩ := parallel.entries.getElem? found
      have same := alike.eq_of_playing playing
      refine .inr ⟨index, x, y, active?_eq_some_iff.mpr ⟨?_, found', same ▸ playing⟩, rfl, found',
        found, same⟩
      rw [parallel.cursor, cursor]
      rfl
  | none =>
      refine .inl ⟨?_, rfl⟩
      by_contra some
      obtain ⟨⟨place, x⟩, active'⟩ := Option.ne_none_iff_exists'.mp some
      obtain ⟨cursor, found, playing⟩ := active?_eq_some_iff.mp active'
      rw [parallel.cursor] at cursor
      cases at? : b.cursor with
      | segment index =>
          rw [at?] at cursor
          cases cursor
          cases found' : b.entries[index]? with
          | none =>
              rw [parallel.entries.getElem?_eq_none found'] at found
              cases found
          | some y =>
              have same := parallel.entries.alike found found'
              have active'' := active?_eq_some_iff.mpr ⟨at?, found', same.playing_eq ▸ playing⟩
              rw [active] at active''
              cases active''
      | _ =>
          rw [at?] at cursor
          cases cursor

theorem Parallel.drained (parallel : a.Parallel first b) :
    a.drain.2.Parallel first b.drain.2 := ⟨parallel.playing, parallel.cursor, parallel.entries⟩

/-! ### From the beginning -/

theorem Parallel.size_eq (parallel : a.Parallel 0 b) : a.size = b.size := by
  simpa using parallel.size

theorem Parallel.entries_eq_nil (parallel : a.Parallel 0 b) : a.entries = [] ↔ b.entries = [] := by
  rw [← List.length_eq_zero_iff, ← List.length_eq_zero_iff]
  exact Eq.congr_left parallel.size_eq

theorem Parallel.offsetOf_eq (parallel : a.Parallel 0 b) (index : Nat) :
    a.offsetOf index = b.offsetOf index := by
  simpa [offsetOf_zero] using parallel.offsetOf index

theorem Parallel.signedRunTime_eq (parallel : a.Parallel 0 b) :
    a.signedRunTime = b.signedRunTime := by
  rw [signedRunTime, signedRunTime, runTime_eq_offsetOf, runTime_eq_offsetOf, parallel.size_eq,
    parallel.offsetOf_eq]

end

/-! ### Events -/

/-- Two events tell the same of two parallel timelines: the places differ by the number of segments
in front, and the handles are those of the segments at these places. -/
inductive Tallies (first : Nat) (a b : Timeline T R S) : PlaybackEvent → PlaybackEvent → Prop
  | segmentStarted {index : Nat} {left right : Handle} :
      a.handleAt? (first + index) = some left → b.handleAt? index = some right →
        Tallies first a b (.segmentStarted (first + index) left) (.segmentStarted index right)
  | segmentStopped {index : Nat} {left right : Handle} :
      a.handleAt? (first + index) = some left → b.handleAt? index = some right →
        Tallies first a b (.segmentStopped (first + index) left) (.segmentStopped index right)
  | sought (index : Nat) : Tallies first a b (.sought (first + index)) (.sought index)
  | playbackFinished (interrupted : Bool) :
      Tallies first a b (.playbackFinished interrupted) (.playbackFinished interrupted)

section

variable {first : Nat} {a a' b b' : Timeline T R S}

theorem Tallies.of_outline (left : a'.outline = a.outline) (right : b'.outline = b.outline)
    {x y : PlaybackEvent} (tallies : Tallies first a' b' x y) : Tallies first a b x y := by
  cases tallies with
  | segmentStarted here there =>
      exact .segmentStarted (handleAt?_of_outline left _ ▸ here)
        (handleAt?_of_outline right _ ▸ there)
  | segmentStopped here there =>
      exact .segmentStopped (handleAt?_of_outline left _ ▸ here)
        (handleAt?_of_outline right _ ▸ there)
  | sought index => exact .sought index
  | playbackFinished interrupted => exact .playbackFinished interrupted

theorem tallies_enqueue {xs ys : List PlaybackEvent} {x y : PlaybackEvent}
    (tallies : List.Forall₂ (Tallies first a b) xs ys) (next : Tallies first a b x y) :
    List.Forall₂ (Tallies first a b) (enqueue xs x) (enqueue ys y) := by
  unfold enqueue
  rw [tallies.length_eq]
  refine List.rel_append ?_ (.cons next .nil)
  split
  · exact tallies
  · exact List.forall₂_drop 1 tallies

/-- Events that tally leave events that tally to be taken. -/
theorem tallies_foldl_enqueue {xs ys waiting waiting' : List PlaybackEvent}
    (tallies : List.Forall₂ (Tallies first a b) xs ys)
    (before : List.Forall₂ (Tallies first a b) waiting waiting') :
    List.Forall₂ (Tallies first a b) (xs.foldl enqueue waiting) (ys.foldl enqueue waiting') := by
  induction tallies generalizing waiting waiting' with
  | nil => exact before
  | cons next _ ih => exact ih (tallies_enqueue before next)

/-- Two timelines lead to two others, and the events emitted on both ways tally. -/
def Told (first : Nat) (a b a' b' : Timeline T R S) : Prop :=
  ∃ left right, a.Emits a' left ∧ b.Emits b' right ∧ List.Forall₂ (Tallies first a b) left right

theorem Told.outline_left (told : Told first a b a' b') : a'.outline = a.outline := by
  obtain ⟨_, _, emits, -, -⟩ := told
  exact emits.outline

theorem Told.outline_right (told : Told first a b a' b') : b'.outline = b.outline := by
  obtain ⟨_, _, -, emits, -⟩ := told
  exact emits.outline

theorem Told.refl : Told first a b a b := ⟨[], [], .refl a, .refl b, .nil⟩

theorem Told.trans {a'' b'' : Timeline T R S} (one : Told first a b a' b')
    (two : Told first a' b' a'' b'') : Told first a b a'' b'' := by
  obtain ⟨left, right, emits, emits', tallies⟩ := one
  obtain ⟨left', right', emits'', emits''', tallies'⟩ := two
  exact ⟨_, _, emits.trans emits'', emits'.trans emits''', List.rel_append tallies
    (tallies'.imp fun _ _ => .of_outline emits.outline emits'.outline)⟩

end

end Timeline

/-! ## Calls on parallel decks -/

namespace Deck

/-- A call on one deck and a call on another gave the same and did the same: the timelines are
parallel after it, the clocks are kept in some relation and so are the sinks, and the events
tally. -/
structure Together {α : Type} (related : K₁ → K₂ → Prop) (keeps : Clock T → Clock T → Prop)
    (first : Nat) (a : Deck T R S K₁) (b : Deck T R S K₂)
    (left : Except TransportError α × Deck T R S K₁)
    (right : Except TransportError α × Deck T R S K₂) : Prop where
  result : left.1 = right.1
  parallel : left.2.timeline.Parallel first right.2.timeline
  clocks : keeps left.2.timeline.clock right.2.timeline.clock
  sinks : related left.2.sink right.2.sink
  told : Timeline.Told first a.timeline b.timeline left.2.timeline right.2.timeline

variable {related : K₁ → K₂ → Prop} {keeps : Clock T → Clock T → Prop} {first : Nat}
variable {a : Deck T R S K₁} {b : Deck T R S K₂}

section

variable {α β : Type} {left : Except TransportError α × Deck T R S K₁}
  {right : Except TransportError α × Deck T R S K₂}

/-- Two calls that come after something else. -/
theorem Together.after (a' : Deck T R S K₁) (b' : Deck T R S K₂)
    (told : Timeline.Told first a.timeline b.timeline a'.timeline b'.timeline)
    (together : Together related keeps first a' b' left right) :
    Together related keeps first a b left right :=
  ⟨together.result, together.parallel, together.clocks, together.sinks,
    told.trans together.told⟩

/-- Two calls that do nothing. -/
theorem Together.same (parallel : a.timeline.Parallel first b.timeline)
    (clocks : keeps a.timeline.clock b.timeline.clock) (sinks : related a.sink b.sink)
    (result : Except TransportError α) :
    Together related keeps first a b (result, a) (result, b) :=
  ⟨rfl, parallel, clocks, sinks, .refl⟩

end

variable [Arithmetic R] [Scalar S] [Narrowing R S] [FrameSink K₁ S] [FrameSink K₂ S]
variable (matching : FrameSink.Matching related)
  (parallel : a.timeline.Parallel first b.timeline) (sinks : related a.sink b.sink)

include matching parallel sinks

/-- The decks with their active segments stopped. -/
theorem silenced_together (clocks : keeps a.timeline.clock b.timeline.clock) :
    Together related keeps first a b (.ok (), a.silenced) (.ok (), b.silenced) := by
  obtain ⟨none, none'⟩ | ⟨index, ⟨left, x⟩, ⟨right, y⟩, some, some', found, found', same⟩ :=
    parallel.active?
  · have left : a.silenced = a := by rw [silenced, none]
    have right : b.silenced = b := by rw [silenced, none']
    rw [left, right]
    exact .same parallel clocks sinks _
  · have ended : a.silenced = a.ended (first + index) (left, x) := by rw [silenced, some]
    have ended' : b.silenced = b.ended index (right, y) := by rw [silenced, some']
    dsimp only at same
    subst same
    obtain ⟨stopped, sinks'⟩ := Segment.stopped_eq matching sinks x
    rw [ended, ended']
    refine ⟨rfl, ⟨parallel.playing, parallel.cursor, ?_⟩, clocks, sinks', ?_⟩
    · exact parallel.entries.set (.inl stopped)
    · have named : a.timeline.handleAt? (first + index) = .some left := by
        rw [Timeline.handleAt?, found, Option.map_some]
      have named' : b.timeline.handleAt? index = .some right := by
        rw [Timeline.handleAt?, found', Option.map_some]
      exact ⟨_, _, ended_emits found, ended_emits found',
        .cons (.segmentStopped named named') .nil⟩

omit parallel in
/-- Two segments that go on alike have been started at the same place. The cursors need not have
been at one place before. -/
theorem begun_together (playing : a.timeline.playing = b.timeline.playing)
    (entries : Timeline.AlikeFrom first a.timeline.entries b.timeline.entries)
    (clocks : keeps a.timeline.clock b.timeline.clock) {index : Nat} {x y : Handle × Segment R S}
    (found : a.timeline.entries[first + index]? = some x)
    (found' : b.timeline.entries[index]? = some y) (alike : x.2.Alike y.2) :
    Together related keeps first a b (.ok (), a.begun (first + index) x)
      (.ok (), b.begun index y) := by
  obtain ⟨left, x⟩ := x
  obtain ⟨right, y⟩ := y
  obtain ⟨started, sinks'⟩ := alike.started matching sinks
  refine ⟨rfl, ⟨playing, rfl, entries.set (.inl started)⟩, clocks, sinks', ?_⟩
  have named : a.timeline.handleAt? (first + index) = some left := by
    rw [Timeline.handleAt?, found, Option.map_some]
  have named' : b.timeline.handleAt? index = some right := by
    rw [Timeline.handleAt?, found', Option.map_some]
  exact ⟨_, _, begun_emits found, begun_emits found', .cons (.segmentStarted named named') .nil⟩

/-- Starting the segments at the same place. A place without a segment is told by its number, so
there the two differ unless they begin together. -/
theorem startAt_together (clocks : keeps a.timeline.clock b.timeline.clock) {index : Nat}
    (sameNumber : first = 0 ∨ index < b.timeline.size) :
    Together related keeps first a b (perform (startAt (first + index)) a)
      (perform (startAt index) b) := by
  cases found' : b.timeline.entries[index]? with
  | none =>
      have beyond : ¬index < b.timeline.size :=
        Nat.not_lt.mpr (List.getElem?_eq_none_iff.mp found')
      have together : first = 0 := sameNumber.resolve_right beyond
      have size := parallel.size
      have found := parallel.entries.getElem?_eq_none found'
      subst together
      rw [Nat.zero_add] at found size
      simp only [perform_startAt, found, found', size, Nat.zero_add]
      exact .same parallel clocks sinks _
  | some y =>
      obtain ⟨x, found, alike⟩ := parallel.entries.getElem? found'
      simp only [perform_startAt, found, found', alike.playing_eq]
      split
      · exact .same parallel clocks sinks _
      · exact begun_together matching sinks parallel.playing parallel.entries clocks found found'
          alike

/-- Filling the sinks from the segments at the cursors. -/
theorem filled_together (clocks : keeps a.timeline.clock b.timeline.clock) :
    Together related keeps first a b (.ok (filled a).1, (filled a).2)
      (.ok (filled b).1, (filled b).2) := by
  have told : Timeline.Told first a.timeline b.timeline (filled a).2.timeline
      (filled b).2.timeline := ⟨[], [], filled_emits a, filled_emits b, .nil⟩
  obtain ⟨tl, sink⟩ := a
  obtain ⟨tl', sink'⟩ := b
  have cursor := parallel.cursor
  suffices same : (filled ⟨tl, sink⟩).1 = (filled ⟨tl', sink'⟩).1 ∧
      Timeline.AlikeFrom first (filled ⟨tl, sink⟩).2.timeline.entries
        (filled ⟨tl', sink'⟩).2.timeline.entries ∧
      related (filled ⟨tl, sink⟩).2.sink (filled ⟨tl', sink'⟩).2.sink by
    obtain ⟨counts, entries, sinks'⟩ := same
    refine ⟨congrArg _ counts, ⟨?_, ?_, entries⟩, ?_, sinks', told⟩
    · simpa using parallel.playing
    · simpa using cursor
    · simpa using clocks
  simp only [filled, Timeline.currentIndex?]
  dsimp only at cursor
  rw [cursor]
  cases tl'.cursor with
  | segment index =>
      simp only [Cursor.later]
      cases found' : tl'.entries[index]? with
      | none =>
          rw [parallel.entries.getElem?_eq_none found']
          exact ⟨rfl, parallel.entries, sinks⟩
      | some y =>
          obtain ⟨x, found, alike⟩ := parallel.entries.getElem? found'
          obtain ⟨counts, alike', sinks'⟩ := alike.fill matching sinks
          rw [found]
          exact ⟨counts, parallel.entries.set alike', sinks'⟩
  | _ => exact ⟨rfl, parallel.entries, sinks⟩

variable [Scalar T]

/-- Stopping, when the clocks grant it to both or to neither. -/
theorem stop_together (clocks : keeps a.timeline.clock b.timeline.clock)
    (halts : keeps a.timeline.clock.halted b.timeline.clock.halted) {interrupted : Bool}
    (granted : interrupted = false →
      (a.timeline.clock.rounded < a.timeline.signedRunTime ↔
        b.timeline.clock.rounded < b.timeline.signedRunTime)) :
    Together related keeps first a b (perform (stop interrupted) a)
      (perform (stop interrupted) b) := by
  have refused : (interrupted = false ∧ a.timeline.clock.rounded < a.timeline.signedRunTime) ↔
      (interrupted = false ∧ b.timeline.clock.rounded < b.timeline.signedRunTime) :=
    and_congr_right granted
  rw [perform_stop, perform_stop]
  simp only [parallel.playing, refused]
  split
  · exact .same parallel clocks sinks _
  · split
    · exact .same parallel clocks sinks _
    · have silenced := silenced_together matching parallel sinks clocks
      refine .after a.silenced b.silenced silenced.told ?_
      refine ⟨rfl, ⟨rfl, rfl, silenced.parallel.entries⟩, ?_, silenced.sinks, ?_⟩
      · simpa [Timeline.halted] using halts
      · exact ⟨_, _, ⟨rfl, rfl⟩, ⟨rfl, rfl⟩, .cons (.playbackFinished interrupted) .nil⟩

/-- Starting the segments at the same place, with the clocks measuring from where they begin. -/
theorem startPassed_together {index : Nat} {origin origin' : T}
    (clocks : keeps (a.timeline.clock.tracked origin) (b.timeline.clock.tracked origin'))
    (sameNumber : first = 0 ∨ index < b.timeline.size) :
    Together related keeps first a b
      (perform (startAt (first + index)) ⟨a.timeline.passed origin, a.sink⟩)
      (perform (startAt index) ⟨b.timeline.passed origin', b.sink⟩) := by
  refine .after ⟨a.timeline.passed origin, a.sink⟩ ⟨b.timeline.passed origin', b.sink⟩
    ⟨[], [], ⟨rfl, rfl⟩, ⟨rfl, rfl⟩, .nil⟩ ?_
  have parallel' : (a.timeline.passed origin).Parallel first (b.timeline.passed origin') :=
    ⟨parallel.playing, parallel.cursor, parallel.entries⟩
  exact startAt_together (a := ⟨a.timeline.passed origin, a.sink⟩)
    (b := ⟨b.timeline.passed origin', b.sink⟩) matching parallel' sinks clocks sameNumber

/-- The stop that the schedule asks for behind the last segment. -/
theorem stopOver_together (clocks : keeps a.timeline.clock b.timeline.clock)
    (halts : keeps a.timeline.clock.halted b.timeline.clock.halted)
    (granted : a.timeline.clock.rounded < a.timeline.signedRunTime ↔
      b.timeline.clock.rounded < b.timeline.signedRunTime) :
    Together related keeps first a b
      (perform (stop false) ⟨{ a.timeline with cursor := .finished }, a.sink⟩)
      (perform (stop false) ⟨{ b.timeline with cursor := .finished }, b.sink⟩) := by
  refine .after ⟨{ a.timeline with cursor := .finished }, a.sink⟩
    ⟨{ b.timeline with cursor := .finished }, b.sink⟩
    ⟨[], [], ⟨rfl, rfl⟩, ⟨rfl, rfl⟩, .nil⟩ ?_
  have parallel' : ({ a.timeline with cursor := .finished } : Timeline T R S).Parallel first
      { b.timeline with cursor := .finished } :=
    ⟨parallel.playing, rfl, parallel.entries⟩
  exact stop_together (a := ⟨{ a.timeline with cursor := .finished }, a.sink⟩)
    (b := ⟨{ b.timeline with cursor := .finished }, b.sink⟩) matching parallel' sinks clocks halts
    fun _ => granted

/-- The schedule, when the clocks show the same time elapsed and are paused together. The stop that
it asks for at the end may be refused by both clocks or by neither. -/
theorem step_together (clocks : keeps a.timeline.clock b.timeline.clock)
    (elapsed : a.timeline.clock.elapsedTime = b.timeline.clock.elapsedTime)
    (paused : a.timeline.clock.paused = b.timeline.clock.paused)
    (passes : ∀ index,
      keeps (a.timeline.clock.tracked (Scalar.ofNat (a.timeline.offsetOf (first + index))))
        (b.timeline.clock.tracked (Scalar.ofNat (b.timeline.offsetOf index))))
    (halts : keeps a.timeline.clock.halted b.timeline.clock.halted)
    (begins : b.timeline.cursor = .notStarted → first = 0)
    (granted : b.timeline.Over →
      (a.timeline.clock.rounded < a.timeline.signedRunTime ↔
        b.timeline.clock.rounded < b.timeline.signedRunTime)) :
    Together related keeps first a b (perform step a) (perform step b) := by
  have silenced := silenced_together matching parallel sinks clocks
  have clock : a.silenced.timeline.clock = a.timeline.clock := silenced_clock a
  have clock' : b.silenced.timeline.clock = b.timeline.clock := silenced_clock b
  have size := parallel.size
  rw [perform_step, perform_step, parallel.cursor, elapsed, paused]
  cases cursor : b.timeline.cursor with
  | finished =>
      exact stop_together matching parallel sinks clocks halts fun _ => granted (.inl cursor)
  | notStarted =>
      have together : first = 0 := begins cursor
      subst together
      simp only [Cursor.later]
      split
      · exact .same parallel clocks sinks _
      · have clocks' := passes 0
        rw [Nat.add_zero, Timeline.offsetOf_zero, Timeline.offsetOf_zero] at clocks'
        have sameNumber : 0 = 0 ∨ 0 < b.timeline.size := .inl rfl
        simpa using startPassed_together matching parallel sinks clocks' sameNumber
  | segment index =>
      simp only [Cursor.later, parallel.runTimeAt]
      split
      · exact .same parallel clocks sinks _
      · rename_i ran
        refine .after a.silenced b.silenced silenced.told ?_
        by_cases next : index + 1 < b.timeline.size
        · rw [if_pos next, if_pos (by omega), Nat.add_assoc]
          split
          · exact .same silenced.parallel silenced.clocks silenced.sinks _
          · have within : index + 1 < b.silenced.timeline.size := by
              rw [silenced_size]
              exact next
            have clocks' := passes (index + 1)
            rw [← clock, ← clock'] at clocks'
            exact startPassed_together matching silenced.parallel silenced.sinks clocks'
              (.inr within)
        · have ended : b.timeline.Over := .inr ⟨index, cursor, by omega, ran⟩
          have granted' := granted ended
          rw [← Timeline.signedRunTime_of_outline silenced.told.outline_left,
            ← Timeline.signedRunTime_of_outline silenced.told.outline_right, ← clock, ← clock']
            at granted'
          rw [← clock, ← clock'] at halts
          rw [if_neg next, if_neg (by omega)]
          exact stopOver_together matching silenced.parallel silenced.sinks silenced.clocks halts
            granted'

/-- A tick, when after it the clocks show the same time elapsed and are paused together. -/
theorem tick_together {delta : T}
    (clocks : keeps (a.ticked delta).timeline.clock (b.ticked delta).timeline.clock)
    (stepped : b.timeline.playing = true →
      Together related keeps first (a.ticked delta) (b.ticked delta)
        (perform step (a.ticked delta)) (perform step (b.ticked delta))) :
    Together related keeps first a b (perform (tick delta) a) (perform (tick delta) b) := by
  refine .after (a.ticked delta) (b.ticked delta) ⟨[], [], ⟨rfl, rfl⟩, ⟨rfl, rfl⟩, .nil⟩ ?_
  have parallel' : (a.ticked delta).timeline.Parallel first (b.ticked delta).timeline :=
    ⟨parallel.playing, parallel.cursor, parallel.entries⟩
  rw [perform_tick, perform_tick, parallel.playing]
  cases playing : b.timeline.playing with
  | false => exact .same parallel' clocks sinks _
  | true =>
      have together := stepped playing
      rcases left : perform step (a.ticked delta) with ⟨_ | _, a'⟩ <;>
        rcases right : perform step (b.ticked delta) with ⟨_ | _, b'⟩ <;>
        rw [left, right] at together
      · exact ⟨congrArg _ (Except.error.inj together.result), together.parallel, together.clocks,
          together.sinks, together.told⟩
      · cases together.result
      · cases together.result
      · exact .after a' b' together.told
          (filled_together matching together.parallel together.sinks together.clocks)

end Deck

end Tonegraph
