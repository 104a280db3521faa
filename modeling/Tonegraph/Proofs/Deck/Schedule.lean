import Tonegraph.Proofs.Deck.Coherence
/-!
# The schedule of a timeline that is played through

A host starts a timeline and then only ticks it. `arrival` says from the ticks and from where the
segments begin, without any timeline, at which call playing comes to each place; the place behind
the last segment is the end. `Timeline.playThrough_schedule` says that the calls do just that: at
the arrival at a place, and at no other call, the segment before the place stops and the one at the
place starts, or playing ends. No call is refused.

A tick may jump over several beginnings, and time may run backwards. Every call comes to one place
at most (`arrival_inj`), and `Stage` is what holds between two calls.
-/

set_option autoImplicit false

namespace Tonegraph

/-! ## Arrivals -/

/-- The time on the clock after so many ticks. -/
def elapsedAfter (deltas : List ℚ) (ticks : Nat) : ℚ := (deltas.take ticks).sum

/-- The call at which playing comes to a place, if it does: the start comes to the first, and to the
next place comes the first tick after that with the clock at the beginning of the place or later. -/
def arrival (deltas : List ℚ) (beginning : Nat → Nat) : Nat → Option Nat
  | 0 => some 0
  | place + 1 =>
    (arrival deltas beginning place).bind fun before =>
      (List.range (deltas.length + 1)).find? fun call =>
        before < call ∧ (beginning (place + 1) : ℚ) ≤ elapsedAfter deltas call

section Arrivals

variable {deltas : List ℚ} {beginning : Nat → Nat} {place call : Nat}

theorem arrival_succ :
    arrival deltas beginning (place + 1) = some call ↔
      ∃ before, arrival deltas beginning place = some before ∧ before < call ∧
        call ≤ deltas.length ∧ (beginning (place + 1) : ℚ) ≤ elapsedAfter deltas call ∧
        ∀ between, before < between → between < call →
          elapsedAfter deltas between < beginning (place + 1) := by
  rw [arrival, Option.bind_eq_some_iff]
  refine exists_congr fun before => and_congr_right fun _ => ?_
  rw [List.find?_range_eq_some, List.mem_range]
  simp only [decide_eq_true_eq, Bool.not_eq_true', decide_eq_false_iff_not, not_and, not_le]
  constructor
  · rintro ⟨⟨later, late⟩, within, first⟩
    exact ⟨later, by omega, late, fun between after earlier => first between earlier after⟩
  · rintro ⟨later, within, late, first⟩
    exact ⟨⟨later, late⟩, by omega, fun between earlier after => first between after earlier⟩

/-- Playing comes to an earlier place at an earlier call. -/
theorem arrival_lt {earlier : Nat} (before : earlier < place)
    (arrives : arrival deltas beginning place = some call) :
    ∃ call', arrival deltas beginning earlier = some call' ∧ call' < call := by
  induction place generalizing call with
  | zero => omega
  | succ place ih =>
      obtain ⟨call', arrives', sooner, -⟩ := arrival_succ.mp arrives
      obtain rfl | before' : earlier = place ∨ earlier < place := by omega
      · exact ⟨call', arrives', sooner⟩
      · obtain ⟨call'', arrives'', sooner'⟩ := ih before' arrives'
        exact ⟨call'', arrives'', by omega⟩

/-- While playing has been at a place since some call, the next tick can come to the next place and
to no other, and it does when the clock has come to where that place begins. -/
theorem arrival_next {since : Nat} (arrived : arrival deltas beginning place = some since)
    (past : since ≤ call) (within : call < deltas.length)
    (still : ∀ between, since < between → between ≤ call →
      elapsedAfter deltas between < beginning (place + 1)) (other : Nat) :
    arrival deltas beginning other = some (call + 1) ↔
      other = place + 1 ∧ (beginning (place + 1) : ℚ) ≤ elapsedAfter deltas (call + 1) := by
  constructor
  · intro arrives
    obtain before | rfl | after : other < place ∨ other = place ∨ place < other := by omega
    · obtain ⟨call', arrives', sooner⟩ := arrival_lt before arrived
      rw [arrives'] at arrives
      cases arrives
      omega
    · rw [arrived] at arrives
      cases arrives
      omega
    · obtain ⟨call', arrives', reached⟩ : ∃ call',
          arrival deltas beginning (place + 1) = some call' ∧
            (call' < call + 1 ∨ other = place + 1 ∧ call' = call + 1) := by
        obtain rfl | beyond : other = place + 1 ∨ place + 1 < other := by omega
        · exact ⟨_, arrives, .inr ⟨rfl, rfl⟩⟩
        · obtain ⟨call', arrives', sooner⟩ := arrival_lt beyond arrives
          exact ⟨call', arrives', .inl sooner⟩
      obtain ⟨since', arrived', later, -, late, -⟩ := arrival_succ.mp arrives'
      rw [arrived] at arrived'
      cases arrived'
      obtain sooner | ⟨rfl, rfl⟩ := reached
      · have early := still call' later (by omega)
        exact absurd late (not_le.mpr early)
      · exact ⟨rfl, late⟩
  · rintro ⟨rfl, late⟩
    exact arrival_succ.mpr ⟨since, arrived, by omega, by omega, late,
      fun between after earlier => still between after (by omega)⟩

/-- No call comes to two places. -/
theorem arrival_inj {other : Nat} (arrives : arrival deltas beginning place = some call)
    (arrives' : arrival deltas beginning other = some call) : place = other := by
  obtain before | same | after : place < other ∨ place = other ∨ other < place := by omega
  · obtain ⟨call', earlier, sooner⟩ := arrival_lt before arrives'
    rw [arrives] at earlier
    cases earlier
    omega
  · exact same
  · obtain ⟨call', earlier, sooner⟩ := arrival_lt after arrives
    rw [arrives'] at earlier
    cases earlier
    omega

end Arrivals

namespace Timeline

variable {R S : Type}

/-! ## The events at a call -/

/-- The place that a call comes to, if any. -/
def comesTo? (tl : Timeline ℚ R S) (deltas : List ℚ) (call : Nat) : Option Nat :=
  (List.range (tl.size + 1)).find? fun place => arrival deltas tl.offsetOf place = some call

/-- The events of leaving the segment before a place. -/
def leaving (tl : Timeline ℚ R S) : Nat → List PlaybackEvent
  | 0 => []
  | index + 1 => (tl.handleAt? index).toList.map (.segmentStopped index)

/-- The event of coming to a place, which may be the end. -/
def entering (tl : Timeline ℚ R S) (place : Nat) : PlaybackEvent :=
  match tl.handleAt? place with
  | some handle => .segmentStarted place handle
  | none => .playbackFinished false

/-- The events of a call that comes to a place, or to none. -/
def turn (tl : Timeline ℚ R S) : Option Nat → List PlaybackEvent
  | none => []
  | some place => tl.leaving place ++ [tl.entering place]

section

variable {tl : Timeline ℚ R S} {deltas : List ℚ} {place call : Nat}

theorem comesTo?_eq_some_iff :
    tl.comesTo? deltas call = some place ↔
      place ≤ tl.size ∧ arrival deltas tl.offsetOf place = some call := by
  rw [comesTo?, List.find?_range_eq_some, List.mem_range]
  simp only [decide_eq_true_eq, Bool.not_eq_true', decide_eq_false_iff_not]
  constructor
  · rintro ⟨arrives, within, -⟩
    exact ⟨by omega, arrives⟩
  · rintro ⟨within, arrives⟩
    refine ⟨arrives, by omega, fun other before arrives' => ?_⟩
    have := arrival_inj arrives arrives'
    omega

theorem comesTo?_eq_none_iff :
    tl.comesTo? deltas call = none ↔
      ∀ place ≤ tl.size, arrival deltas tl.offsetOf place ≠ some call := by
  rw [Option.eq_none_iff_forall_ne_some]
  constructor
  · intro none place within arrives
    exact none place (comesTo?_eq_some_iff.mpr ⟨within, arrives⟩)
  · intro never place comes
    obtain ⟨within, arrives⟩ := comesTo?_eq_some_iff.mp comes
    exact never place within arrives

theorem entering_of_handleAt? {handle : Handle} (named : tl.handleAt? place = some handle) :
    tl.entering place = .segmentStarted place handle := by
  rw [entering, named]

theorem leaving_of_handleAt? {handle : Handle} (named : tl.handleAt? place = some handle) :
    tl.leaving (place + 1) = [.segmentStopped place handle] := by
  rw [leaving, named]
  rfl

theorem entering_size : tl.entering tl.size = .playbackFinished false := by
  have beyond : tl.entries[tl.size]? = none := List.getElem?_eq_none (le_refl _)
  rw [entering, handleAt?, beyond, Option.map_none]

theorem mem_leaving {event : PlaybackEvent} (member : event ∈ tl.leaving place) :
    ∃ index handle, place = index + 1 ∧ tl.handleAt? index = some handle ∧
      event = .segmentStopped index handle := by
  cases place with
  | zero => cases member
  | succ index =>
      simp only [leaving, List.mem_map, Option.mem_toList] at member
      obtain ⟨handle, named, rfl⟩ := member
      exact ⟨index, handle, rfl, named, rfl⟩

theorem count_leaving_eq_zero {event : PlaybackEvent}
    (other : ∀ index handle, event ≠ .segmentStopped index handle) :
    (tl.leaving place).count event = 0 := by
  refine List.count_eq_zero.mpr fun member => ?_
  obtain ⟨index, handle, -, -, same⟩ := mem_leaving member
  exact other index handle same

theorem entering_cases (tl : Timeline ℚ R S) (place : Nat) :
    (∃ handle, tl.handleAt? place = some handle ∧
        tl.entering place = .segmentStarted place handle) ∨
      tl.size ≤ place ∧ tl.entering place = .playbackFinished false := by
  cases named : tl.handleAt? place with
  | some handle => exact .inl ⟨handle, rfl, entering_of_handleAt? named⟩
  | none =>
      refine .inr ⟨?_, by rw [entering, named]⟩
      by_contra within
      obtain ⟨handle, named'⟩ := exists_handleAt? (not_le.mp within)
      rw [named] at named'
      cases named'

/-! ### How often an event is emitted -/

variable (place? : Option Nat) {index : Nat} {handle : Handle}

theorem count_started (named : tl.handleAt? index = some handle) :
    (tl.turn place?).count (.segmentStarted index handle) =
      if place? = some index then 1 else 0 := by
  cases place? with
  | none => rfl
  | some place =>
      have none : (tl.leaving place).count (.segmentStarted index handle) = 0 :=
        count_leaving_eq_zero (by simp)
      rw [turn, List.count_append, none, List.count_singleton]
      obtain ⟨handle', named', entered⟩ | ⟨beyond, entered⟩ := entering_cases tl place
      · rw [entered]
        by_cases same : place = index
        · subst same
          rw [named] at named'
          cases named'
          simp
        · simp [same]
      · have : place ≠ index := by
          have := lt_size_of_handleAt? named
          omega
        rw [entered]
        simp [this]

theorem count_stopped (named : tl.handleAt? index = some handle) :
    (tl.turn place?).count (.segmentStopped index handle) =
      if place? = some (index + 1) then 1 else 0 := by
  cases place? with
  | none => rfl
  | some place =>
      have none : [tl.entering place].count (.segmentStopped index handle) = 0 := by
        obtain ⟨_, _, entered⟩ | ⟨_, entered⟩ := entering_cases tl place <;> simp [entered]
      rw [turn, List.count_append, none, Nat.add_zero]
      by_cases same : place = index + 1
      · rw [same, leaving_of_handleAt? named]
        simp
      · rw [if_neg (by simpa using same)]
        refine List.count_eq_zero.mpr fun member => ?_
        obtain ⟨_, _, rfl, _, same'⟩ := mem_leaving member
        cases same'
        exact same rfl

theorem count_finished (atMost : ∀ place, place? = some place → place ≤ tl.size) :
    (tl.turn place?).count (.playbackFinished false) =
      if place? = some tl.size then 1 else 0 := by
  cases place? with
  | none => rfl
  | some place =>
      have none : (tl.leaving place).count (.playbackFinished false) = 0 :=
        count_leaving_eq_zero (by simp)
      rw [turn, List.count_append, none, List.count_singleton]
      obtain ⟨handle, named, entered⟩ | ⟨beyond, entered⟩ := entering_cases tl place
      · have := lt_size_of_handleAt? named
        rw [entered, if_neg (by simp), if_neg (by simp; omega)]
      · have : place = tl.size := by
          have := atMost place rfl
          omega
        rw [entered, this]
        simp

theorem turn_cases {event : PlaybackEvent} (member : event ∈ tl.turn place?) :
    (∃ index handle, tl.handleAt? index = some handle ∧
        (event = .segmentStarted index handle ∨ event = .segmentStopped index handle)) ∨
      event = .playbackFinished false := by
  cases place? with
  | none => cases member
  | some place =>
      rw [turn, List.mem_append, List.mem_singleton] at member
      obtain left | rfl := member
      · obtain ⟨index, handle, -, named, rfl⟩ := mem_leaving left
        exact .inl ⟨index, handle, named, .inr rfl⟩
      · obtain ⟨handle, named, entered⟩ | ⟨_, entered⟩ := entering_cases tl place
        · exact .inl ⟨place, handle, named, .inl entered⟩
        · exact .inr entered

theorem length_turn_le : (tl.turn place?).length ≤ eventCapacity := by
  have capacity : eventCapacity = 32 := rfl
  have left : ∀ place, (tl.leaving place).length ≤ 1 := by
    intro place
    cases place with
    | zero => exact Nat.zero_le _
    | succ index => cases named : tl.handleAt? index <;> simp [leaving, named]
  cases place? with
  | none => exact Nat.zero_le _
  | some place =>
      rw [turn, List.length_append, List.length_singleton]
      have := left place
      omega

end

/-! ## Between two calls -/

/-- How a timeline that is played through stands when so many calls have been made: it is yet to be
started; or it is at a place where it has been since some call, and the time of the next place has
not come; or it has ended. -/
inductive Stage (tl : Timeline ℚ R S) (deltas : List ℚ) : Nat → Timeline ℚ R S → Prop
  | fresh {now : Timeline ℚ R S} (stopped : now.playing = false)
      (silent : Sounds now.entries none) (nonempty : now.entries ≠ []) : Stage tl deltas 0 now
  | playing {now : Timeline ℚ R S} {call place since : Nat} (plays : now.PlaysAt place)
      (position : now.position = elapsedAfter deltas call)
      (arrived : arrival deltas tl.offsetOf place = some since) (past : since ≤ call)
      (still : ∀ between, since < between → between ≤ call →
        elapsedAfter deltas between < tl.offsetOf (place + 1)) : Stage tl deltas (call + 1) now
  | ended {now : Timeline ℚ R S} {call since : Nat} (rest : now.AtRest)
      (arrived : arrival deltas tl.offsetOf tl.size = some since) (past : since ≤ call) :
      Stage tl deltas (call + 1) now

section

variable {tl : Timeline ℚ R S} {deltas : List ℚ}

/-- Taking the events changes nothing about where playing is. -/
theorem Stage.drained {number : Nat} {now : Timeline ℚ R S} (stage : Stage tl deltas number now) :
    Stage tl deltas number now.drain.2 := by
  cases stage with
  | fresh stopped silent nonempty => exact .fresh stopped silent nonempty
  | playing plays position arrived past still =>
      exact .playing (plays.takeEvents _) position arrived past still
  | ended rest arrived past => exact .ended (rest.takeEvents _) arrived past

/-- After a call a timeline plays as long as no call has come to the end. -/
theorem Stage.playing_iff {number : Nat} {now : Timeline ℚ R S}
    (stage : Stage tl deltas (number + 1) now) (outline : now.outline = tl.outline) :
    now.playing = true ↔
      ∀ finish, arrival deltas tl.offsetOf tl.size = some finish → number < finish := by
  cases stage with
  | @playing _ _ place since plays position arrived past still =>
      refine iff_of_true plays.playing fun finish arrives => ?_
      have within : place + 1 ≤ tl.size := by
        rw [← size_of_outline outline]
        exact plays.within
      obtain ⟨next, arrives', sooner⟩ : ∃ next,
          arrival deltas tl.offsetOf (place + 1) = some next ∧ next ≤ finish := by
        obtain last | before := within.eq_or_lt
        · exact ⟨finish, by rw [last, arrives], le_refl _⟩
        · obtain ⟨next, arrives', sooner⟩ := arrival_lt before arrives
          exact ⟨next, arrives', sooner.le⟩
      obtain ⟨since', arrived', later, -, late, -⟩ := arrival_succ.mp arrives'
      rw [arrived] at arrived'
      cases arrived'
      by_contra ended
      exact absurd late (not_le.mpr (still next later (by omega)))
  | ended rest arrived past =>
      refine iff_of_false (by simp [rest.stopped]) fun before => ?_
      have := before _ arrived
      omega

end

end Timeline

section

variable {R S K : Type}

/-- The calls of a host that starts a timeline and then only ticks it. -/
def playThrough (deltas : List ℚ) : List (Call ℚ R S) := .start :: deltas.map .tick

theorem playThrough_succ {deltas : List ℚ} {number : Nat} {call : Call ℚ R S}
    (made : (playThrough deltas)[number + 1]? = some call) :
    ∃ delta, deltas[number]? = some delta ∧ Call.tick delta = call := by
  simpa [playThrough] using made

variable [Arithmetic R] [Scalar S] [Narrowing R S] [FrameSink K S]
variable {tl : Timeline ℚ R S} {deltas : List ℚ} {deck : Deck ℚ R S K}

theorem elapsedAfter_succ {call : Nat} (within : call < deltas.length) :
    elapsedAfter deltas (call + 1) = elapsedAfter deltas call + deltas[call] := by
  rw [elapsedAfter, elapsedAfter, List.take_add_one, List.getElem?_eq_getElem within,
    Option.toList_some, List.sum_append, List.sum_singleton]

namespace Timeline

/-- The start comes to the first place. -/
theorem start_stage (stopped : deck.timeline.playing = false)
    (silent : Sounds deck.timeline.entries none) (nonempty : deck.timeline.entries ≠ [])
    (outline : deck.timeline.outline = tl.outline) :
    deck.Yields (Call.start.on deck) (tl.turn (tl.comesTo? deltas 0)) (Stage tl deltas 1) := by
  obtain ⟨handle, named⟩ := exists_handleAt? (List.length_pos_iff.mpr nonempty)
  have comes : tl.comesTo? deltas 0 = some 0 := comesTo?_eq_some_iff.mpr ⟨Nat.zero_le _, rfl⟩
  have turned : tl.turn (some 0) = [.segmentStarted 0 handle] := by
    rw [handleAt?_of_outline outline] at named
    rw [turn, leaving, entering_of_handleAt? named]
    rfl
  rw [comes, turned, Call.on_start]
  refine (Deck.start_yields deck stopped silent named).mono fun now h => ?_
  refine .playing h.1 ?_ rfl (Nat.zero_le _) fun between _ _ => by omega
  rw [h.2, ofNat_rat, elapsedAfter]
  simp

/-- A tick at rest comes to no place. -/
theorem ended_stage {call since : Nat} (rest : deck.timeline.AtRest)
    (arrived : arrival deltas tl.offsetOf tl.size = some since) (past : since ≤ call) (delta : ℚ) :
    deck.Yields ((Call.tick delta).on deck) (tl.turn (tl.comesTo? deltas (call + 1)))
      (Stage tl deltas (call + 2)) := by
  have comes : tl.comesTo? deltas (call + 1) = none := by
    refine comesTo?_eq_none_iff.mpr fun place atMost arrives => ?_
    obtain before | rfl : place < tl.size ∨ place = tl.size := by omega
    · obtain ⟨call', arrives', sooner⟩ := arrival_lt before arrived
      rw [arrives'] at arrives
      cases arrives
      omega
    · rw [arrived] at arrives
      cases arrives
      omega
  rw [comes]
  exact (Deck.tick_atRest rest delta).mono fun now rest => .ended rest arrived (by omega)

/-- A tick while a segment plays leaves the place when the time of the next one has come. -/
theorem playing_stage {call place since : Nat} (within : call < deltas.length)
    (plays : deck.timeline.PlaysAt place)
    (position : deck.timeline.position = elapsedAfter deltas call)
    (arrived : arrival deltas tl.offsetOf place = some since) (past : since ≤ call)
    (still : ∀ between, since < between → between ≤ call →
      elapsedAfter deltas between < tl.offsetOf (place + 1))
    (outline : deck.timeline.outline = tl.outline) :
    deck.Yields ((Call.tick deltas[call]).on deck) (tl.turn (tl.comesTo? deltas (call + 1)))
      (Stage tl deltas (call + 2)) := by
  have next := arrival_next arrived past within still
  have atMost : place < tl.size := by
    rw [← size_of_outline outline]
    exact plays.within
  have now : deck.timeline.position + deltas[call] = elapsedAfter deltas (call + 1) := by
    rw [position, elapsedAfter_succ within]
  obtain ⟨handle, named⟩ := exists_handleAt? plays.within
  rcases lt_or_ge (elapsedAfter deltas (call + 1)) (tl.offsetOf (place + 1)) with early | late
  · have comes : tl.comesTo? deltas (call + 1) = none :=
      comesTo?_eq_none_iff.mpr fun other _ arrives =>
        absurd ((next other).mp arrives).2 (not_le.mpr early)
    rw [comes]
    refine (Deck.tick_within plays ?_).mono fun after h => ?_
    · rw [now, offsetOf_of_outline outline]
      exact early
    · refine .playing h.1 (h.2.trans now) arrived (by omega) fun between later atMost => ?_
      obtain earlier | rfl : between ≤ call ∨ between = call + 1 := by omega
      · exact still between later earlier
      · exact early
  · have arrives := (next (place + 1)).mpr ⟨rfl, late⟩
    have comes : tl.comesTo? deltas (call + 1) = some (place + 1) :=
      comesTo?_eq_some_iff.mpr ⟨by omega, arrives⟩
    have late' : (deck.timeline.offsetOf (place + 1) : ℚ) ≤
        deck.timeline.position + deltas[call] := by
      rw [now, offsetOf_of_outline outline]
      exact late
    have left : tl.leaving (place + 1) = [.segmentStopped place handle] := by
      rw [handleAt?_of_outline outline] at named
      exact leaving_of_handleAt? named
    rw [comes, turn, left]
    obtain next | last : place + 1 < tl.size ∨ tl.size = place + 1 := by omega
    · obtain ⟨handle', named'⟩ := exists_handleAt? next
      rw [entering_of_handleAt? named']
      rw [← handleAt?_of_outline outline] at named'
      refine (Deck.tick_across plays late' named named').mono fun after h => ?_
      exact .playing h.1 (h.2.trans now) arrives (le_refl _) fun between _ _ => by omega
    · rw [← last] at arrives
      rw [← last, entering_size]
      rw [← size_of_outline outline] at last
      exact (Deck.tick_past plays late' named last).mono fun after rest =>
        .ended rest arrives (le_refl _)

/-- Every call of a host that plays a timeline through comes to the place that the arrivals give. -/
theorem Stage.call {number : Nat} {call : Call ℚ R S} (stage : Stage tl deltas number deck.timeline)
    (outline : deck.timeline.outline = tl.outline)
    (made : (playThrough deltas)[number]? = some call) :
    deck.Yields (call.on deck) (tl.turn (tl.comesTo? deltas number))
      (Stage tl deltas (number + 1)) := by
  cases stage with
  | fresh stopped silent nonempty =>
      cases made
      exact start_stage stopped silent nonempty outline
  | playing plays position arrived past still =>
      obtain ⟨delta, found, rfl⟩ := playThrough_succ made
      obtain ⟨within, rfl⟩ := List.getElem?_eq_some_iff.mp found
      exact playing_stage within plays position arrived past still outline
  | ended rest arrived past =>
      obtain ⟨delta, -, rfl⟩ := playThrough_succ made
      exact ended_stage rest arrived past delta

/-- The stages of a timeline that is played through, and its outline. -/
theorem after_stage (sink : K) (stopped : tl.playing = false) (silent : Sounds tl.entries none)
    (nonempty : tl.entries ≠ []) {number : Nat} (within : number ≤ deltas.length + 1) :
    let now := (Deck.after ((playThrough deltas).take number) (⟨tl, sink⟩ : Deck ℚ R S K)).timeline
    now.outline = tl.outline ∧ Stage tl deltas number now := by
  induction number with
  | zero => exact ⟨rfl, .fresh stopped silent nonempty⟩
  | succ number ih =>
      obtain ⟨outline, stage⟩ := ih (by omega)
      obtain ⟨call, made⟩ : ∃ call : Call ℚ R S, (playThrough deltas)[number]? = some call := by
        refine ⟨_, List.getElem?_eq_getElem ?_⟩
        rw [playThrough, List.length_cons, List.length_map]
        omega
      obtain ⟨-, emits, stage'⟩ := stage.call outline made
      rw [List.take_add_one, made, Option.toList_some, Deck.after, List.foldl_append]
      exact ⟨emits.outline.trans outline, stage'⟩

/-- **The schedule.** A host starts a timeline of idle segments that does not play, and then only
ticks it. Then every call succeeds. At the call that comes to a place, and at no other, the segment
there starts and the one before it stops; at the call that comes to the end, and at no other,
playing ends. Nothing else is told, and the timeline plays until the call that comes to the end. -/
theorem playThrough_schedule (tl : Timeline ℚ R S) (stopped : tl.playing = false)
    (idle : ∀ entry ∈ tl.entries, entry.2.playing = false) (nonempty : tl.entries ≠ []) (sink : K)
    (deltas : List ℚ) {number : Nat} {call : Call ℚ R S}
    (made : (playThrough deltas)[number]? = some call) :
    let before := Deck.after ((playThrough deltas).take number) (⟨tl, sink⟩ : Deck ℚ R S K)
    let after := (call.on before).2
    let emitted := call.emitted before
    let comesTo := fun place => arrival deltas tl.offsetOf place = some number
    (call.on before).1 = .ok () ∧
      (∀ index handle, tl.handleAt? index = some handle →
        emitted.count (.segmentStarted index handle) = (if comesTo index then 1 else 0) ∧
        emitted.count (.segmentStopped index handle) = if comesTo (index + 1) then 1 else 0) ∧
      emitted.count (.playbackFinished false) = (if comesTo tl.size then 1 else 0) ∧
      (∀ event ∈ emitted,
        (∃ index handle, tl.handleAt? index = some handle ∧
          (event = .segmentStarted index handle ∨ event = .segmentStopped index handle)) ∨
        event = .playbackFinished false) ∧
      after.timeline.events = emitted.foldl enqueue before.timeline.events ∧
      (after.timeline.playing = true ↔
        ∀ finish, arrival deltas tl.offsetOf tl.size = some finish → number < finish) := by
  intro before after emitted comesTo
  have within : number ≤ deltas.length + 1 := by
    obtain ⟨within, -⟩ := List.getElem?_eq_some_iff.mp made
    rw [playThrough, List.length_cons, List.length_map] at within
    omega
  obtain ⟨outline, stage⟩ := after_stage sink stopped (sounds_none_iff.mpr idle) nonempty within
  obtain ⟨⟨_, succeeded⟩, emits, stage'⟩ := stage.call outline made
  have told : emitted = tl.turn (tl.comesTo? deltas number) := by
    let drained : Deck ℚ R S K := { before with timeline := before.timeline.drain.2 }
    have taken : drained.timeline.events = [] := List.drop_length
    have yields : drained.Yields (call.on drained) _ _ := stage.drained.call outline made
    exact yields.2.1.events_eq taken (length_turn_le _)
  have comesTo_iff : ∀ place, place ≤ tl.size →
      (tl.comesTo? deltas number = some place ↔ comesTo place) :=
    fun place atMost => comesTo?_eq_some_iff.trans (and_iff_right atMost)
  refine ⟨succeeded, fun index handle named => ?_, ?_, ?_, ?_, ?_⟩
  · have within := lt_size_of_handleAt? named
    rw [told, count_started _ named, count_stopped _ named]
    simp only [comesTo_iff index within.le, comesTo_iff (index + 1) within, and_self]
  · rw [told, count_finished _ fun place comes => (comesTo?_eq_some_iff.mp comes).1]
    simp only [comesTo_iff tl.size (le_refl _)]
  · intro event member
    rw [told] at member
    exact turn_cases _ member
  · rw [told]
    exact emits.events
  · exact stage'.playing_iff (emits.outline.trans outline)

/-- Two segments of two seconds are ticked forwards, back, past the end of both, and once more. The
third tick has passed both ends and still only crosses to the second segment; the fourth, of no
length, ends it. -/
theorem overshooting_schedule :
    let tl : Timeline ℚ Float Float32 := { (empty : Timeline ℚ Float Float32) with
      entries := [(⟨0⟩, .twoSeconds), (⟨1⟩, .acrossZero)], issued := 2 }
    let deltas : List ℚ := [1, -1 / 2, 4, 0]
    let deck : Deck ℚ Float Float32 (Ring Float32) := ⟨tl, .ofCapacity 2 3⟩
    let crossing := Deck.after ((playThrough deltas).take 3) deck
    let ending := Deck.after ((playThrough deltas).take 4) deck
    (((Call.tick 4).on crossing).1 = .ok () ∧
      ((Call.tick 4).emitted crossing).count (.segmentStopped 0 ⟨0⟩) = 1 ∧
      ((Call.tick 4).emitted crossing).count (.segmentStarted 1 ⟨1⟩) = 1 ∧
      ((Call.tick 4).emitted crossing).count (.segmentStopped 1 ⟨1⟩) = 0 ∧
      ((Call.tick 4).emitted crossing).count (.playbackFinished false) = 0 ∧
      ((Call.tick 4).on crossing).2.timeline.playing = true) ∧
    ((Call.tick 0).on ending).1 = .ok () ∧
      ((Call.tick 0).emitted ending).count (.segmentStopped 1 ⟨1⟩) = 1 ∧
      ((Call.tick 0).emitted ending).count (.playbackFinished false) = 1 ∧
      ((Call.tick 0).on ending).2.timeline.playing = false := by
  intro tl deltas deck crossing ending
  have idle : ∀ entry ∈ tl.entries, entry.2.playing = false := by
    simp [tl, Segment.twoSeconds, Segment.acrossZero]
  have nonempty : tl.entries ≠ [] := List.cons_ne_nil _ _
  have first : tl.handleAt? 0 = some ⟨0⟩ := rfl
  have second : tl.handleAt? 1 = some ⟨1⟩ := rfl
  have crosses : arrival deltas tl.offsetOf 1 = some 3 := by decide +kernel
  have ends : arrival deltas tl.offsetOf 2 = some 4 := by decide +kernel
  have size : tl.size = 2 := rfl
  have stopped : tl.playing = false := rfl
  have third : (playThrough deltas)[3]? = some (.tick 4 : Call ℚ Float Float32) := rfl
  have fourth : (playThrough deltas)[4]? = some (.tick 0 : Call ℚ Float Float32) := rfl
  clear_value tl
  have across := playThrough_schedule tl stopped idle nonempty deck.sink deltas third
  have past := playThrough_schedule tl stopped idle nonempty deck.sink deltas fourth
  rw [size] at across past
  obtain ⟨granted, told, finished, -, -, playing⟩ := across
  obtain ⟨granted', told', finished', -, -, playing'⟩ := past
  refine ⟨⟨granted, ?_, ?_, ?_, ?_, ?_⟩, granted', ?_, ?_, ?_⟩
  · exact (told 0 ⟨0⟩ first).2.trans (if_pos crosses)
  · exact (told 1 ⟨1⟩ second).1.trans (if_pos crosses)
  · exact (told 1 ⟨1⟩ second).2.trans (if_neg (by simp [ends]))
  · exact finished.trans (if_neg (by simp [ends]))
  · exact playing.mpr fun finish arrives => by
      rw [ends] at arrives
      cases arrives
      decide
  · exact (told' 1 ⟨1⟩ second).2.trans (if_pos ends)
  · exact finished'.trans (if_pos ends)
  · rw [← Bool.not_eq_true, playing']
    exact fun before => absurd (before 4 ends) (by decide)

end Timeline

end

end Tonegraph
