import Tonegraph.Rendering
import Tonegraph.Proofs.Deck.Coherence
import Tonegraph.Proofs.Sink.Room
/-!
# Rendering, step by step

A step of rendering is a tick and then the frames that the device plays (`Deck.turned`). Rendering
takes steps while the timeline plays, until it stops or is interrupted (`Deck.Turns`, `Deck.Ends`).
What holds after the start and is kept by every step holds when they end (`Deck.runTicks_ends`), and
what is kept until a step ends playing leads to that end (`Deck.runTicks_of_steps`).

What is pushed within the room leaves a recorder within its buffer (`Recorder.Keeps`).
-/

set_option autoImplicit false

namespace Tonegraph

variable {S : Type}

/-! ## What is recorded -/

/-- A recorder with a buffer that holds no more than it can. What has been recorded is queued in it,
but for so many frames that the device has played. -/
structure Recorder.Keeps (most played : Nat) (sink : Recorder S) : Prop where
  capacity : sink.capacity = most
  queued_le : sink.queued ≤ most
  size_le : sink.frames.size ≤ sink.queued + played

namespace Recorder

variable {sink : Recorder S} {most played : Nat}

theorem ofCapacity_keeps (rate most : Nat) :
    (ofCapacity rate most : Recorder S).Keeps most 0 :=
  ⟨rfl, Nat.zero_le _, Nat.zero_le _⟩

theorem Keeps.push (keeps : sink.Keeps most played) (frame : Frame S) :
    (sink.push frame).Keeps most played := by
  obtain ⟨same, queued, size⟩ := keeps
  unfold Recorder.push
  split
  · refine ⟨same, ?_, ?_⟩
    · show sink.queued + 1 ≤ most
      omega
    · show (sink.frames.push frame).size ≤ sink.queued + 1 + played
      rw [Array.size_push]
      omega
  · exact ⟨same, queued, size⟩

theorem Keeps.written (keeps : sink.Keeps most played) {last : Recorder S}
    (written : FrameSink.Written sink last) : last.Keeps most played := by
  induction written with
  | idle => exact keeps
  | started _ ih => exact ⟨ih.capacity, ih.queued_le, ih.size_le⟩
  | stopped _ ih => exact ⟨ih.capacity, ih.queued_le, ih.size_le⟩
  | pushed _ _ ih =>
      exact FrameSink.pushAll_of_push (fun (sink : Recorder S) _ => sink.Keeps most played)
        (fun keeps => keeps.push _) ih

theorem Keeps.consume (keeps : sink.Keeps most played) (count : Nat) :
    (sink.consume count).Keeps most (played + count) := by
  obtain ⟨same, queued, size⟩ := keeps
  refine ⟨same, ?_, ?_⟩
  · show sink.queued - count ≤ most
    omega
  · show sink.frames.size ≤ sink.queued - count + (played + count)
    omega

theorem Keeps.size_le_most (keeps : sink.Keeps most played) :
    sink.frames.size ≤ most + played := by
  obtain ⟨-, queued, size⟩ := keeps
  omega

end Recorder

/-! ## Steps -/

variable {T R : Type} [Scalar T] [Arithmetic R] [Scalar S] [Narrowing R S]

namespace Deck

variable {deck after : Deck T R S (Recorder S)} {delta : T} {frames ticks : Nat}

/-- The deck after one step: a tick, and then the device plays frames. -/
def turned (deck : Deck T R S (Recorder S)) (delta : T) (frames : Nat) : Deck T R S (Recorder S) :=
  let after := ((Call.tick delta).on deck).2
  { after with sink := after.sink.consume frames }

theorem runTicks_of_stopped (stopped : deck.timeline.playing = false) :
    perform (runTicks delta frames ticks) deck = (.ok (), deck) := by
  cases ticks <;> simp [runTicks, stopped]

theorem runTicks_of_playing (playing : deck.timeline.playing = true)
    (ticked : ∃ a, ((Call.tick delta).on deck).1 = .ok a) :
    perform (runTicks delta frames (ticks + 1)) deck =
      perform (runTicks delta frames ticks) (deck.turned delta frames) := by
  obtain ⟨a, ok⟩ := ticked
  have discarded : perform (discard (tick delta)) deck = (Call.tick delta).on deck := by
    rw [Functor.discard, LawfulFunctor.map_const, Function.comp_apply, map_eq_pure_bind]
    rfl
  simp only [runTicks, perform_bind, perform_getTimeline, playing, if_true, discarded, turned]
  rcases outcome : (Call.tick delta).on deck with ⟨_ | _, after⟩
  · rw [outcome] at ok
    cases ok
  · rfl

/-- So many steps lead from one deck to another. Before each of them the timeline plays, and its
tick is granted. -/
inductive Turns (delta : T) (frames : Nat) (first : Deck T R S (Recorder S)) :
    Nat → Deck T R S (Recorder S) → Prop
  | none : Turns delta frames first 0 first
  | turn {ticks : Nat} {deck : Deck T R S (Recorder S)}
      (turns : Turns delta frames first ticks deck) (playing : deck.timeline.playing = true)
      (granted : ∃ a, ((Call.tick delta).on deck).1 = .ok a) :
      Turns delta frames first (ticks + 1) (deck.turned delta frames)

/-- How the steps end: the timeline has stopped, or it plays and is interrupted when as many steps
have been taken as may be. -/
inductive Ends (limit ticks : Nat) (after : Deck T R S (Recorder S)) :
    Deck T R S (Recorder S) → Prop
  | played (stopped : after.timeline.playing = false) : Ends limit ticks after after
  | interrupted {final : Deck T R S (Recorder S)} (playing : after.timeline.playing = true)
      (exhausted : ticks = limit) (granted : perform (stop true) after = (.ok (), final)) :
      Ends limit ticks after final

/-- What every step keeps holds when the steps end, and they do end. -/
theorem runTicks_ends (so : Nat → Deck T R S (Recorder S) → Prop) {limit : Nat}
    (steps : ∀ {tick deck}, tick < limit → so tick deck → deck.timeline.playing = true →
      (∃ a, ((Call.tick delta).on deck).1 = .ok a) ∧ so (tick + 1) (deck.turned delta frames))
    (stops : ∀ {deck}, so limit deck → deck.timeline.playing = true →
      ∃ final, perform (stop true) deck = (.ok (), final))
    {first : Deck T R S (Recorder S)} {tick : Nat} (turns : Turns delta frames first tick deck)
    (now : so tick deck) (left : tick + ticks = limit) :
    ∃ total after final, Turns delta frames first total after ∧ so total after ∧ total ≤ limit ∧
      Ends limit total after final ∧
      perform (runTicks delta frames ticks) deck = (.ok (), final) := by
  induction ticks generalizing tick deck with
  | zero =>
      have exhausted : tick = limit := left
      cases playing : deck.timeline.playing with
      | false =>
          exact ⟨tick, deck, deck, turns, now, Nat.le_of_eq exhausted, .played playing,
            runTicks_of_stopped playing⟩
      | true =>
          obtain ⟨final, granted⟩ := stops (exhausted ▸ now) playing
          refine ⟨tick, deck, final, turns, now, Nat.le_of_eq exhausted,
            .interrupted playing exhausted granted, ?_⟩
          simpa [runTicks, playing] using granted
  | succ ticks ih =>
      have short : tick < limit := by omega
      cases playing : deck.timeline.playing with
      | false =>
          exact ⟨tick, deck, deck, turns, now, Nat.le_of_lt short, .played playing,
            runTicks_of_stopped playing⟩
      | true =>
          obtain ⟨granted, next⟩ := steps short now playing
          rw [runTicks_of_playing playing granted]
          exact ih (turns.turn playing granted) next (by omega)

/-- What every step keeps until one ends playing leads to that end, if there are steps enough. -/
theorem runTicks_of_steps (so : Nat → Deck T R S (Recorder S) → Prop)
    (ends : Deck T R S (Recorder S) → Prop) {bound : Nat}
    (early : ∀ {tick deck}, so tick deck → tick < bound)
    (playing : ∀ {tick deck}, so tick deck → deck.timeline.playing = true)
    (steps : ∀ {tick deck}, so tick deck → (∃ a, ((Call.tick delta).on deck).1 = .ok a) ∧
      (so (tick + 1) (deck.turned delta frames) ∨
        (deck.turned delta frames).timeline.playing = false ∧ ends (deck.turned delta frames)))
    (now : so 0 deck) (enough : bound ≤ ticks) :
    ∃ final, perform (runTicks delta frames ticks) deck = (.ok (), final) ∧ ends final := by
  let reached := fun tick (deck : Deck T R S (Recorder S)) =>
    so tick deck ∨ deck.timeline.playing = false ∧ ends deck
  have goesOn {tick deck} (here : reached tick deck) (plays : deck.timeline.playing = true) :
      so tick deck := by
    obtain going | ⟨stopped, -⟩ := here
    · exact going
    · rw [stopped] at plays
      cases plays
  obtain ⟨total, after, final, -, here, -, ended, performed⟩ :=
    runTicks_ends reached (fun _ here plays => steps (goesOn here plays))
      (fun here plays => absurd (early (goesOn here plays)) (Nat.not_lt.mpr enough))
      .none (.inl now) (Nat.zero_add ticks)
  cases ended with
  | played stopped =>
      obtain going | ⟨-, ended⟩ := here
      · rw [playing going] at stopped
        cases stopped
      · exact ⟨after, performed, ended⟩
  | interrupted plays exhausted _ =>
      have before := early (goesOn here plays)
      omega

end Deck

/-- Rendering gives what has been recorded when the steps after the start have ended. -/
theorem Timeline.render_of_runTicks {tl : Timeline T R S} {plan : RenderPlan T}
    {begun final : Deck T R S (Recorder S)}
    (started : Deck.perform Deck.start ⟨tl, .ofCapacity plan.rate.toNat plan.capacity⟩ =
      (.ok (), begun))
    (performed : Deck.perform (Deck.runTicks plan.secondsPerTick plan.framesPerTick plan.maxTicks)
      begun = (.ok (), final)) :
    tl.render plan = .ok final.sink.frames := by
  have played : (Deck.play plan).run.run ⟨tl, .ofCapacity plan.rate.toNat plan.capacity⟩ =
      (.ok (), final) := by
    show Deck.perform (Deck.play plan) _ = _
    rw [Deck.play, Deck.perform_bind, started]
    exact performed
  rw [render, played]

omit [Scalar T] in
theorem RenderPlan.framesPerTick_pos (plan : RenderPlan T) : 0 < plan.framesPerTick :=
  lt_of_lt_of_le Nat.one_pos (le_max_right _ _)

end Tonegraph
