import Tonegraph.Proofs.Deck.Calls
/-!
# What a refused call leaves behind

A call of the transport checks first and acts then. What it does last is to start a segment, and
that is refused when the segment plays already. Such a segment must have been brought in playing,
since playing never leaves one behind (`Reached.coherent`), but it can be brought in.

* `Timeline.Settled` holds of every timeline that is reached by any calls at all.
* `Call.BlockedAt` -- the call comes to a segment that plays already and that it does not stop.
* `refused_leaves_iff` -- these calls and no others are refused with the timeline changed, up to one
  exception: the same jump refused over and over again in the end finds everything as it leaves it
  (`Timeline.Echoes`).
-/

set_option autoImplicit false

namespace Tonegraph

variable {T R S K : Type}

/-! ## What holds after any calls -/

/-- A clock that runs while the timeline plays, a cursor before the first segment while it does not,
and no more events than there is room for. -/
structure Timeline.Settled (tl : Timeline T R S) : Prop where
  unpaused : tl.playing = true → tl.clock.paused = false
  notStarted : tl.playing = false → tl.cursor = .notStarted
  bounded : tl.events.length ≤ Timeline.eventCapacity

namespace Timeline

theorem empty_settled [Scalar T] : (empty : Timeline T R S).Settled :=
  ⟨fun _ => rfl, fun _ => rfl, Nat.zero_le _⟩

end Timeline

variable [Arithmetic R] [Scalar S] [Narrowing R S] [FrameSink K S]

namespace Deck

variable {deck : Deck T R S K}

theorem silenced_settled (settled : deck.timeline.Settled) : deck.silenced.timeline.Settled := by
  unfold silenced
  split
  · exact settled
  · exact ⟨settled.unpaused, settled.notStarted, Timeline.length_enqueue_le _ settled.bounded⟩

theorem startAt_settled (deck : Deck T R S K) (settled : deck.timeline.Settled)
    (playing : deck.timeline.playing = true) (index : Nat) :
    (perform (startAt index) deck).2.timeline.Settled := by
  rw [perform_startAt]
  split
  · exact settled
  · split
    · exact settled
    · refine ⟨settled.unpaused, fun stopped => ?_, Timeline.length_enqueue_le _ settled.bounded⟩
      cases playing.symm.trans stopped

theorem filled_settled (settled : deck.timeline.Settled) : (filled deck).2.timeline.Settled := by
  refine ⟨?_, ?_, ?_⟩
  · rw [filled_playing, filled_clock]
    exact settled.unpaused
  · rw [filled_playing, filled_cursor]
    exact settled.notStarted
  · rw [(filled_emits deck).events]
    exact settled.bounded

/-- What silencing leaves of the entry at a place plays if it did, and the cursor is elsewhere. -/
theorem silenced_getElem? {index : Nat} {entry : Handle × Segment R S}
    (found : deck.timeline.entries[index]? = some entry) :
    ∃ entry', deck.silenced.timeline.entries[index]? = some entry' ∧
      (entry'.2.playing = true ↔
        entry.2.playing = true ∧ deck.timeline.cursor ≠ .segment index) := by
  cases active : deck.timeline.active? with
  | none =>
      refine ⟨entry, by rw [silenced, active, found], fun playing => ⟨playing, fun here => ?_⟩,
        And.left⟩
      have := Timeline.active?_eq_some_iff.mpr ⟨here, found, playing⟩
      rw [active] at this
      cases this
  | some at? =>
      obtain ⟨place, sounding⟩ := at?
      obtain ⟨cursor, found', playing⟩ := Timeline.active?_eq_some_iff.mp active
      have entries : deck.silenced.timeline.entries = deck.timeline.entries.set place
          (sounding.1, (sounding.2.stopped deck.sink).1) := by
        rw [silenced, active]
        rfl
      rw [entries, List.getElem?_set, cursor]
      by_cases here : place = index
      · subst here
        obtain ⟨within, -⟩ := List.getElem?_eq_some_iff.mp found
        rw [if_pos rfl, if_pos within]
        exact ⟨_, rfl, by simp⟩
      · rw [if_neg here]
        exact ⟨entry, found, by simp [here]⟩

variable [Scalar T]

theorem stop_settled (deck : Deck T R S K) (settled : deck.timeline.Settled) (interrupted : Bool) :
    (perform (stop interrupted) deck).2.timeline.Settled := by
  rw [perform_stop]
  split
  · exact settled
  · split
    · exact settled
    · have bounded := (silenced_settled settled).bounded
      refine ⟨fun playing => ?_, fun _ => rfl, Timeline.length_enqueue_le _ bounded⟩
      cases playing

theorem seekTo_settled (settled : deck.timeline.Settled) (index : Nat) :
    (perform (seekTo index) deck).2.timeline.Settled := by
  cases playing : deck.timeline.playing with
  | false =>
      rw [perform_seekTo, if_pos playing]
      exact settled
  | true =>
      have unpaused := settled.unpaused playing
      have bounded := (silenced_settled settled).bounded
      rw [perform_seekTo, if_neg (by simp [playing])]
      split
      · exact settled
      · rw [if_neg (by simp [unpaused])]
        refine startAt_settled ⟨deck.silenced.timeline.jumped index _, deck.silenced.sink⟩
          ⟨fun _ => ?_, fun stopped => ?_, Timeline.length_enqueue_le _ bounded⟩ ?_ index
        · simp [Timeline.jumped, unpaused]
        · cases playing.symm.trans ((silenced_playing deck).symm.trans stopped)
        · exact (silenced_playing deck).trans playing

theorem seekForward_settled (settled : deck.timeline.Settled) :
    (perform seekForward deck).2.timeline.Settled := by
  obtain ⟨e, refused⟩ | ⟨index, jumps⟩ := seekForward_cases deck
  · rw [refused]
    exact settled
  · rw [jumps]
    exact seekTo_settled settled index

theorem seekBackward_settled (settled : deck.timeline.Settled) :
    (perform seekBackward deck).2.timeline.Settled := by
  obtain ⟨e, refused⟩ | ⟨index, jumps⟩ := seekBackward_cases deck
  · rw [refused]
    exact settled
  · rw [jumps]
    exact seekTo_settled settled index

theorem start_settled (settled : deck.timeline.Settled) :
    (perform start deck).2.timeline.Settled := by
  rw [perform_start]
  split
  · exact settled
  · split
    · exact settled
    · exact startAt_settled ⟨deck.timeline.rewound, deck.sink⟩
        ⟨fun _ => rfl, fun _ => rfl, settled.bounded⟩ rfl _

theorem step_settled (settled : deck.timeline.Settled) (playing : deck.timeline.playing = true) :
    (perform step deck).2.timeline.Settled := by
  have unpaused := settled.unpaused playing
  have silenced := silenced_settled settled
  have playing' := (silenced_playing deck).trans playing
  rw [perform_step]
  split
  · exact stop_settled deck settled _
  · rw [if_neg (by simp [unpaused])]
    exact startAt_settled ⟨deck.timeline.passed _, deck.sink⟩
      ⟨fun _ => unpaused, settled.notStarted, settled.bounded⟩ playing _
  · dsimp only
    split
    · exact settled
    · split
      · rw [if_neg (by simp [unpaused])]
        exact startAt_settled ⟨deck.silenced.timeline.passed _, deck.silenced.sink⟩
          ⟨silenced.unpaused, silenced.notStarted, silenced.bounded⟩ playing' _
      · refine stop_settled ⟨{ deck.silenced.timeline with cursor := .finished }, _⟩
          ⟨silenced.unpaused, fun stopped => ?_, silenced.bounded⟩ _
        cases playing'.symm.trans stopped

theorem tick_settled (settled : deck.timeline.Settled) (delta : T) :
    ((Call.tick delta).on deck).2.timeline.Settled := by
  have ticked : (deck.ticked delta).timeline.Settled := by
    refine ⟨fun playing => ?_, settled.notStarted, settled.bounded⟩
    exact (Clock.tick_paused _ _).trans (settled.unpaused playing)
  rw [Call.on_tick]
  split
  · rename_i playing
    have stepped := step_settled ticked playing
    split
    · rename_i after performed
      rw [performed] at stepped
      exact filled_settled stepped
    · rename_i e after performed
      rw [performed] at stepped
      exact stepped
  · exact ticked

end Deck

variable [Scalar T]

theorem Call.on_settled {deck : Deck T R S K} (settled : deck.timeline.Settled)
    (call : Call T R S) : (call.on deck).2.timeline.Settled := by
  cases call with
  | edit change =>
      rw [on_edit]
      cases applied : change.apply deck.timeline with
      | error e => exact settled
      | ok after =>
          cases playing : deck.timeline.playing with
          | true =>
              rw [Edit.apply_of_playing playing] at applied
              cases applied
          | false =>
              have inserts : change.Inserts fun _ => True := by cases change <;> trivial
              obtain ⟨entries, issued, -, rfl | rfl⟩ :=
                Edit.apply_of_stopped playing (fun _ _ => trivial) inserts (fun _ _ => trivial)
                  applied
              · exact ⟨settled.unpaused, settled.notStarted, settled.bounded⟩
              · exact ⟨fun _ => rfl, fun _ => rfl, Nat.zero_le _⟩
  | start => exact Deck.start_settled settled
  | stop interrupted => exact Deck.stop_settled _ settled interrupted
  | seekForward => exact Deck.seekForward_settled settled
  | seekBackward => exact Deck.seekBackward_settled settled
  | seekTo index => exact Deck.seekTo_settled settled index
  | tick delta => exact Deck.tick_settled settled delta
  | takeEvents count =>
      have fewer : (deck.timeline.events.drop count).length ≤ deck.timeline.events.length := by
        rw [List.length_drop]
        exact Nat.sub_le _ _
      exact ⟨settled.unpaused, settled.notStarted, Nat.le_trans fewer settled.bounded⟩

/-- Every timeline that is reached is settled, whatever was brought in. -/
theorem Timeline.Reached.settled {tl : Timeline T R S} {allowed : Call T R S → Prop}
    (reached : tl.Reached allowed) : tl.Settled := by
  induction reached with
  | empty => exact empty_settled
  | call call sink _ _ ih => exact Call.on_settled ih call

/-! ## Refused calls -/

namespace Timeline

/-- Two timelines of which a host sees the same: whether and where they play, the clock, how far
each segment is, and the events. -/
structure SameState (before after : Timeline T R S) : Prop where
  playing : after.playing = before.playing
  cursor : after.cursor = before.cursor
  clock : after.clock = before.clock
  segments : after.entries.map (fun e => (e.2.playing, e.2.rendered, e.2.phase)) =
    before.entries.map fun e => (e.2.playing, e.2.rendered, e.2.phase)
  events : after.events = before.events

omit [Scalar T] [Arithmetic R] [Scalar S] [Narrowing R S] in
theorem SameState.refl (tl : Timeline T R S) : tl.SameState tl := ⟨rfl, rfl, rfl, rfl, rfl⟩

/-- A timeline as a refused jump leaves it again and again: no segment at the cursor sounds, the
clock measures from the beginning of the place, and all events tell of jumps there. -/
structure Echoes (tl : Timeline T R S) (index : Nat) : Prop where
  playing : tl.playing = true
  silent : tl.active? = none
  clock : (tl.clock.seek (Scalar.ofNat (tl.offsetOf index))).tracked
    (Scalar.ofNat (tl.offsetOf index)) = tl.clock
  events : tl.events = List.replicate eventCapacity (.sought index)

theorem eq_replicate_of_shift {α : Type} {x y : α} {rest : List α}
    (shifted : rest ++ [y] = x :: rest) :
    x :: rest = List.replicate (rest.length + 1) y := by
  induction rest generalizing x with
  | nil => simpa using shifted.symm
  | cons z rest ih =>
      rw [List.cons_append, List.cons.injEq] at shifted
      obtain ⟨rfl, shifted⟩ := shifted
      have same := ih shifted
      rw [List.length_cons, List.replicate_succ, ← same]
      rw [List.replicate_succ, List.cons.injEq] at same
      rw [same.1]

/-- One more event shows, unless all there is room for tell the same. -/
theorem enqueue_eq_self_iff {pending : List PlaybackEvent} {event : PlaybackEvent}
    (bounded : pending.length ≤ eventCapacity) :
    enqueue pending event = pending ↔ pending = List.replicate eventCapacity event := by
  constructor
  · intro same
    unfold enqueue at same
    split at same
    · have longer := congrArg List.length same
      rw [List.length_append, List.length_singleton] at longer
      omega
    · rename_i full
      cases pending with
      | nil =>
          cases same
      | cons first rest =>
          have length : eventCapacity = rest.length + 1 := by
            rw [List.length_cons] at bounded full
            omega
          rw [length]
          exact eq_replicate_of_shift same
  · rintro rfl
    rfl

end Timeline

namespace Call

/-- The place of the segment that a call has to start when it passes its checks. -/
def target? (tl : Timeline T R S) : Call T R S → Option Nat
  | .start => if tl.playing then none else some 0
  | .seekTo index => if tl.playing then some index else none
  | .seekForward => if tl.playing then tl.currentIndex?.map (· + 1) else none
  | .seekBackward =>
    if tl.playing then
      match tl.cursor with
      | .segment (index + 1) => some index
      | _ => none
    else none
  | _ => none

/-- A call has to start a segment that plays already. Only the one at the cursor would have been
stopped before. -/
def BlockedAt (call : Call T R S) (tl : Timeline T R S) (index : Nat) : Prop :=
  call.target? tl = some index ∧ tl.cursor ≠ .segment index ∧
    ∃ entry, tl.entries[index]? = some entry ∧ entry.2.playing = true

section

omit [Scalar T] [Arithmetic R] [Scalar S] [Narrowing R S]
variable {call : Call T R S} {tl : Timeline T R S} {so : Nat → Prop}

theorem forall_blockedAt_of_none (target : call.target? tl = none) :
    ∀ index, call.BlockedAt tl index → so index := by
  rintro index ⟨target', -⟩
  rw [target] at target'
  cases target'

theorem forall_blockedAt_iff {place : Nat} (target : call.target? tl = some place) :
    (∀ index, call.BlockedAt tl index → so index) ↔
      (tl.cursor ≠ .segment place →
        (∃ entry, tl.entries[place]? = some entry ∧ entry.2.playing = true) → so place) := by
  constructor
  · intro all elsewhere plays
    exact all place ⟨target, elsewhere, plays⟩
  · rintro one index ⟨target', elsewhere, plays⟩
    rw [target] at target'
    cases target'
    exact one elsewhere plays

end

end Call

namespace Deck

variable {deck : Deck T R S K}

/-- If a call is refused, it has changed nothing. -/
def Unharmed (deck : Deck T R S K) (outcome : Except TransportError Unit × Deck T R S K) : Prop :=
  (∃ e, outcome.1 = .error e) → deck.timeline.SameState outcome.2.timeline

section

omit [Scalar T] [Arithmetic R] [Scalar S] [Narrowing R S] [FrameSink K S]

theorem unharmed_ok (after : Deck T R S K) : deck.Unharmed (.ok (), after) := by
  rintro ⟨_, refused⟩
  cases refused

theorem unharmed_self (e : TransportError) : deck.Unharmed (.error e, deck) :=
  fun _ => .refl _

end

/-- Silencing and jumping leave a timeline as it was only when it echoes jumps. -/
theorem jumped_sameState_iff (settled : deck.timeline.Settled)
    (playing : deck.timeline.playing = true) (index : Nat) :
    deck.timeline.SameState (deck.silenced.timeline.jumped index
        (Scalar.ofNat (deck.timeline.offsetOf index))) ↔
      deck.timeline.Echoes index := by
  cases active : deck.timeline.active? with
  | none =>
      have silenced : deck.silenced = deck := by rw [silenced, active]
      rw [silenced]
      constructor
      · intro same
        have events := (Timeline.enqueue_eq_self_iff settled.bounded).mp same.events
        exact ⟨playing, active, same.clock, events⟩
      · intro echoes
        have events := (Timeline.enqueue_eq_self_iff settled.bounded).mpr echoes.events
        exact ⟨rfl, rfl, echoes.clock, rfl, events⟩
  | some at? =>
      obtain ⟨place, entry⟩ := at?
      obtain ⟨cursor, found, sounding⟩ := Timeline.active?_eq_some_iff.mp active
      refine iff_of_false (fun same => ?_) fun echoes => ?_
      · -- The segment at the cursor played before, and does not after.
        have segments := congrArg (fun list => list[place]?) same.segments
        obtain ⟨entry', found', sounds⟩ := silenced_getElem? found
        simp only [Timeline.jumped, Timeline.emit_entries, List.getElem?_map, found, found',
          Option.map_some, Option.some.injEq, Prod.mk.injEq] at segments
        exact (sounds.mp (segments.1.trans sounding)).2 cursor
      · rw [echoes.silent] at active
        cases active

theorem seekTo_unharmed_iff (settled : deck.timeline.Settled)
    (playing : deck.timeline.playing = true) (index : Nat) :
    deck.Unharmed (perform (seekTo index) deck) ↔
      (deck.timeline.cursor ≠ .segment index →
        (∃ entry, deck.timeline.entries[index]? = some entry ∧ entry.2.playing = true) →
        deck.timeline.Echoes index) := by
  have unpaused := settled.unpaused playing
  rw [perform_seekTo, if_neg (by simp [playing])]
  cases found : deck.timeline.entries[index]? with
  | none =>
      have beyond : deck.timeline.size ≤ index := List.getElem?_eq_none_iff.mp found
      rw [if_pos beyond]
      exact iff_of_true (unharmed_self _) (by simp)
  | some entry =>
      have within : ¬deck.timeline.size ≤ index :=
        Nat.not_le.mpr (List.getElem?_eq_some_iff.mp found).1
      obtain ⟨entry', found', sounds⟩ := silenced_getElem? found
      rw [if_neg within, if_neg (by simp [unpaused]), perform_startAt]
      simp only [Timeline.jumped, Timeline.emit_entries, found']
      by_cases blocked : entry'.2.playing = true
      · rw [if_pos blocked]
        obtain ⟨sounding, elsewhere⟩ := sounds.mp blocked
        have same := jumped_sameState_iff settled playing index
        refine ⟨fun unharmed _ _ => same.mp (unharmed ⟨_, rfl⟩), fun echoes _ => ?_⟩
        exact same.mpr (echoes elsewhere ⟨entry, rfl, sounding⟩)
      · rw [if_neg blocked]
        refine iff_of_true (unharmed_ok _) ?_
        rintro elsewhere ⟨_, same, sounding⟩
        cases same
        exact absurd (sounds.mpr ⟨sounding, elsewhere⟩) blocked

/-- Whether a call can be refused with something changed depends on what it is blocked at. -/
def Accounted (deck : Deck T R S K) (call : Call T R S) : Prop :=
  deck.Unharmed (call.on deck) ↔
    ∀ index, call.BlockedAt deck.timeline index → deck.timeline.Echoes index

theorem start_accounted (settled : deck.timeline.Settled) :
    deck.Accounted .start := by
  show deck.Unharmed (perform start deck) ↔ _
  cases playing : deck.timeline.playing with
  | true =>
      refine iff_of_true ?_ (Call.forall_blockedAt_of_none (by simp [Call.target?, playing]))
      rw [perform_start, if_pos playing]
      split <;> exact unharmed_self _
  | false =>
      have cursor := settled.notStarted playing
      rw [Call.forall_blockedAt_iff (by simp [Call.target?, playing] : _ = some 0)]
      cases found : deck.timeline.entries[0]? with
      | none =>
          have empty : deck.timeline.entries = [] := by simpa using found
          rw [perform_start, if_pos empty]
          exact iff_of_true (unharmed_self _) (by simp)
      | some entry =>
          have nonempty : deck.timeline.entries ≠ [] := by
            intro empty
            rw [empty] at found
            cases found
          rw [perform_start, if_neg nonempty, if_neg (by simp [playing]), perform_startAt]
          simp only [Timeline.rewound, found]
          by_cases sounding : entry.2.playing = true
          · rw [if_pos sounding]
            refine iff_of_false (fun unharmed => ?_) fun echoes => ?_
            · cases playing.symm.trans (unharmed ⟨_, rfl⟩).playing.symm
            · have := (echoes (by simp [cursor]) ⟨entry, rfl, sounding⟩).playing
              cases playing.symm.trans this
          · rw [if_neg sounding]
            refine iff_of_true (unharmed_ok _) ?_
            rintro _ ⟨_, same, sounding'⟩
            cases same
            exact absurd sounding' sounding

theorem stop_accounted (interrupted : Bool) : deck.Accounted (.stop interrupted) := by
  show deck.Unharmed (perform (stop interrupted) deck) ↔ _
  refine iff_of_true ?_ (Call.forall_blockedAt_of_none rfl)
  rw [perform_stop]
  split
  · exact unharmed_self _
  · split
    · exact unharmed_self _
    · exact unharmed_ok _

theorem seekTo_accounted (settled : deck.timeline.Settled) (index : Nat) :
    deck.Accounted (.seekTo index) := by
  show deck.Unharmed (perform (seekTo index) deck) ↔ _
  cases playing : deck.timeline.playing with
  | false =>
      refine iff_of_true ?_ (Call.forall_blockedAt_of_none (by simp [Call.target?, playing]))
      rw [perform_seekTo, if_pos playing]
      exact unharmed_self _
  | true =>
      have target : (Call.seekTo index).target? deck.timeline = some index := by
        simp [Call.target?, playing]
      rw [Call.forall_blockedAt_iff target]
      exact seekTo_unharmed_iff settled playing index

theorem seekForward_accounted (settled : deck.timeline.Settled) :
    deck.Accounted .seekForward := by
  show deck.Unharmed (perform seekForward deck) ↔ _
  rw [perform_seekForward]
  cases playing : deck.timeline.playing with
  | false =>
      refine iff_of_true (unharmed_self _) (Call.forall_blockedAt_of_none ?_)
      simp [Call.target?, playing]
  | true =>
      cases cursor : deck.timeline.cursor with
      | segment index =>
          have target : Call.seekForward.target? deck.timeline = some (index + 1) := by
            simp [Call.target?, playing, Timeline.currentIndex?, cursor]
          rw [Call.forall_blockedAt_iff target, if_neg (by simp)]
          dsimp only
          split
          · exact seekTo_unharmed_iff settled playing (index + 1)
          · rename_i last
            have beyond : deck.timeline.entries[index + 1]? = none :=
              List.getElem?_eq_none (Nat.not_lt.mp last)
            exact iff_of_true (unharmed_self _) (by simp [beyond])
      | _ =>
          refine iff_of_true (unharmed_self _) (Call.forall_blockedAt_of_none ?_)
          simp [Call.target?, Timeline.currentIndex?, cursor]

theorem seekBackward_accounted (settled : deck.timeline.Settled) :
    deck.Accounted .seekBackward := by
  show deck.Unharmed (perform seekBackward deck) ↔ _
  rw [perform_seekBackward]
  cases playing : deck.timeline.playing with
  | false =>
      refine iff_of_true (unharmed_self _) (Call.forall_blockedAt_of_none ?_)
      simp [Call.target?, playing]
  | true =>
      rcases cursor : deck.timeline.cursor with _ | (_ | index) | _
      case segment.succ =>
          have target : Call.seekBackward.target? deck.timeline = some index := by
            simp [Call.target?, playing, cursor]
          rw [Call.forall_blockedAt_iff target, if_neg (by simp)]
          exact seekTo_unharmed_iff settled playing index
      all_goals
          refine iff_of_true (unharmed_self _) (Call.forall_blockedAt_of_none ?_)
          simp [Call.target?, cursor]

end Deck

/-- **Refused calls.** On a timeline that is reached by any calls, a call of the transport changes
nothing if it is refused, but for a call that comes to a segment which plays already and which it
does not stop. Such a call is refused and has changed something, unless the timeline echoes it. -/
theorem Timeline.Reached.refused_leaves_iff {tl : Timeline T R S} {allowed : Call T R S → Prop}
    (reached : tl.Reached allowed) (sink : K) {call : Call T R S} (transport : call.IsTransport) :
    ((∃ e, (call.on ⟨tl, sink⟩).1 = .error e) → tl.SameState (call.on ⟨tl, sink⟩).2.timeline) ↔
      ∀ index, call.BlockedAt tl index → tl.Echoes index := by
  have settled : (⟨tl, sink⟩ : Deck T R S K).timeline.Settled := reached.settled
  cases call with
  | edit | tick | takeEvents => cases transport
  | start => exact Deck.start_accounted settled
  | stop interrupted => exact Deck.stop_accounted interrupted
  | seekTo index => exact Deck.seekTo_accounted settled index
  | seekForward => exact Deck.seekForward_accounted settled
  | seekBackward => exact Deck.seekBackward_accounted settled

/-- A jump that is refused while nothing plays leaves the timeline as it was. -/
theorem Timeline.seekTo_refused :
    let tl : Timeline Float Float Float32 := ofSegment .twoSeconds
    let after := (Call.seekTo 0).on (⟨tl, .ofCapacity 100 100⟩ : Deck Float _ _ (Ring Float32))
    after.1 = .error .notPlaying ∧ tl.SameState after.2.timeline := by
  intro tl after
  have refused : after.1 = .error .notPlaying := by
    show (Deck.perform (Deck.seekTo 0) _).1 = _
    rw [Deck.perform_seekTo]
    rfl
  have reached : tl.Reached fun _ => True := ofSegment_reached trivial
  have transport : (Call.seekTo 0 : Call Float Float Float32).IsTransport := trivial
  have leaves := reached.refused_leaves_iff (Ring.ofCapacity 100 100 : Ring Float32) transport
  exact ⟨refused, leaves.mpr (Call.forall_blockedAt_of_none rfl) ⟨_, refused⟩⟩

/-- The segment of two seconds, already playing. -/
def Segment.prestarted : Segment Float Float32 := { Segment.twoSeconds with playing := true }

/-- A timeline that holds a playing segment is not started, and plays from then on. -/
theorem Timeline.prestarted_start :
    let tl : Timeline Float Float Float32 := ofSegment .prestarted
    let after := Call.start.on (⟨tl, .ofCapacity 100 100⟩ : Deck Float _ _ (Ring Float32))
    tl.Reached (fun _ => True) ∧ after.1 = .error (.segment .alreadyPlaying) ∧
      tl.playing = false ∧ after.2.timeline.playing = true ∧
      ¬tl.SameState after.2.timeline := by
  intro tl after
  have performed :
      after = (.error (.segment .alreadyPlaying), ⟨tl.rewound, .ofCapacity 100 100⟩) := by
    show Deck.perform Deck.start _ = _
    have nonempty : tl.entries ≠ [] := List.cons_ne_nil _ _
    have stopped : tl.playing ≠ true := Bool.false_ne_true
    rw [Deck.perform_start, if_neg nonempty, if_neg stopped, Deck.perform_startAt]
    rfl
  have playing : after.2.timeline.playing = true := by
    rw [performed]
    rfl
  refine ⟨ofSegment_reached trivial, by rw [performed], rfl, playing, fun same => ?_⟩
  cases playing.symm.trans same.playing

end Tonegraph
