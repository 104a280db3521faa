import Tonegraph.Proofs.Arithmetic.Fraction
import Tonegraph.Proofs.Content
import Tonegraph.Proofs.Rendering
/-!
# Rendering ends, whatever the plan

A plan may ask for anything: no frames in a second, more steps than frames, a limit of no seconds,
a buffer of any length or of none that can be told. What is counted for it beforehand is counted in
words, with divisions and a product that could go wrong and do not (`RenderPlan.exists_budget`).

From its start on a timeline is on time and the recorder keeps to its buffer (`Deck.InBounds`), and
both last from step to step as long as the clock does not round (`Deck.InBounds.turned`). So every
tick is granted, and so is the stop that breaks rendering off. Of the frames that are recorded each
is in the buffer at the end or was played in one of the steps: `Timeline.render_bounded`.
-/

set_option autoImplicit false

namespace Tonegraph

/-! ## Counting in words -/

namespace Words

/-- A quotient of words, if the divisor is not zero. -/
def quotient? {W : Type} [DecidableEq W] [OfNat W 0] [Div W] (a b : W) : Option W :=
  if b = 0 then none else some (a / b)

/-- A product of words, if it is a word. -/
def product? (a b : UInt64) : Option UInt64 :=
  if a.toNat * b.toNat < UInt64.size then some (a * b) else none

end Words

namespace RenderPlan

/-- The counts of a plan as words. -/
structure Budget where
  framesPerTick : UInt64
  capacity : UInt64
  maxTicks : UInt64

variable {T : Type}

theorem divisor_ne (plan : RenderPlan T) : max plan.tickRate 1 ≠ 0 := by
  intro zero
  have divisor : (max plan.tickRate 1).toNat = max plan.tickRate.toNat 1 := UInt32.toNat_max _ _
  have positive : 1 ≤ max plan.tickRate.toNat 1 := le_max_right _ _
  rw [← divisor, zero] at positive
  exact absurd positive (by decide)

theorem toNat_step (plan : RenderPlan T) :
    (max (plan.rate / max plan.tickRate 1) 1).toUInt64.toNat = plan.framesPerTick := by
  rw [UInt32.toNat_toUInt64, UInt32.toNat_max, UInt32.toNat_div, UInt32.toNat_max]
  rfl

theorem frames_fit (plan : RenderPlan T) :
    plan.maxSeconds.toUInt64.toNat * plan.rate.toUInt64.toNat < UInt64.size := by
  rw [UInt32.toNat_toUInt64, UInt32.toNat_toUInt64]
  exact Nat.mul_lt_mul'' plan.maxSeconds.toNat_lt plan.rate.toNat_lt

theorem toNat_frames (plan : RenderPlan T) :
    (plan.maxSeconds.toUInt64 * plan.rate.toUInt64).toNat =
      plan.maxSeconds.toNat * plan.rate.toNat := by
  rw [UInt64.toNat_mul, Nat.mod_eq_of_lt plan.frames_fit, UInt32.toNat_toUInt64,
    UInt32.toNat_toUInt64]

/-- Steps are taken only if there are frames in a second. -/
theorem rate_pos {plan : RenderPlan T} {tick : Nat} (early : tick < plan.maxTicks) :
    0 < plan.rate.toNat := by
  by_contra none
  have zero : plan.rate.toNat = 0 := by omega
  rw [maxTicks, zero, Nat.mul_zero, Nat.zero_div] at early
  exact Nat.not_lt_zero tick early

variable [Scalar T]

/-- The counts of a plan, if they can be counted in words. -/
def budget? (plan : RenderPlan T) : Option Budget := do
  let quotient ← Words.quotient? plan.rate (max plan.tickRate 1)
  let framesPerTick := (max quotient 1).toUInt64
  let wanted : UInt64 := .ofNat (Scalar.truncate 0 (UInt64.size - 1)
    (Scalar.ofNat plan.rate.toNat * plan.bufferSeconds)).toNat
  let frames ← Words.product? plan.maxSeconds.toUInt64 plan.rate.toUInt64
  let maxTicks ← Words.quotient? frames framesPerTick
  return ⟨framesPerTick, max wanted framesPerTick, maxTicks⟩

variable [ExactClock T]

/-- Nothing goes wrong when the counts of a plan are counted in words. -/
theorem exists_budget (plan : RenderPlan T) :
    ∃ budget, plan.budget? = some budget ∧ budget.framesPerTick.toNat = plan.framesPerTick ∧
      budget.capacity.toNat = plan.capacity ∧ budget.maxTicks.toNat = plan.maxTicks := by
  let step := (max (plan.rate / max plan.tickRate 1) 1).toUInt64
  let wanted : Int := Scalar.truncate 0 (UInt64.size - 1)
    (Scalar.ofNat plan.rate.toNat * plan.bufferSeconds)
  let frames := plan.maxSeconds.toUInt64 * plan.rate.toUInt64
  have step_eq : step.toNat = plan.framesPerTick := plan.toNat_step
  have step_ne : step ≠ 0 := by
    intro zero
    rw [zero] at step_eq
    exact plan.framesPerTick_pos.ne step_eq
  have budget : plan.budget? = some ⟨step, max (.ofNat wanted.toNat) step, frames / step⟩ := by
    refine Option.bind_eq_some_iff.mpr ⟨_, if_neg plan.divisor_ne, ?_⟩
    refine Option.bind_eq_some_iff.mpr ⟨_, if_pos plan.frames_fit, ?_⟩
    exact Option.bind_eq_some_iff.mpr ⟨_, if_neg step_ne, rfl⟩
  have wanted_eq : (UInt64.ofNat wanted.toNat).toNat = wanted.toNat := by
    have most : wanted ≤ UInt64.size - 1 := (ExactClock.truncate_mem _ _ (by decide)).2
    have words : 0 < UInt64.size := by decide
    exact UInt64.toNat_ofNat_of_lt' (by omega)
  refine ⟨_, budget, step_eq, ?_, ?_⟩
  · rw [UInt64.toNat_max, wanted_eq, step_eq]
    rfl
  · rw [UInt64.toNat_div, plan.toNat_frames, step_eq]
    rfl

/-- The time that a step takes is exact, if there are frames in a second. -/
theorem secondsPerTick_eq (plan : RenderPlan T) (positive : 0 < plan.rate.toNat) :
    plan.secondsPerTick = ExactClock.ofRat (plan.framesPerTick / plan.rate.toNat) := by
  have nonzero : (plan.rate.toNat : ℚ) ≠ 0 := by exact_mod_cast positive.ne'
  rw [secondsPerTick, ExactClock.ofNat, ExactClock.ofNat, ExactClock.div _ _ nonzero]

end RenderPlan

/-! ## Within the bounds -/

variable {T R S : Type} [Scalar T] [ExactClock T] [Arithmetic R] [Scalar S] [Narrowing R S]
variable {tl : Timeline T R S} {plan : RenderPlan T} {deck final : Deck T R S (Recorder S)}
  {tick limit : Nat}

namespace Deck

/-- After so many steps the timeline is on time, and what is recorded is in the buffer or was
played in one of the steps. -/
structure InBounds (plan : RenderPlan T) (tick : Nat) (deck : Deck T R S (Recorder S)) :
    Prop where
  onTime : deck.timeline.OnTime
  keeps : deck.sink.Keeps plan.capacity (tick * plan.framesPerTick)

/-- The deck that rendering begins with is started. -/
theorem start_inBounds (plan : RenderPlan T) (stopped : tl.playing = false)
    (silent : Timeline.Sounds tl.entries none) (nonempty : tl.entries ≠ []) :
    ∃ begun, perform start ⟨tl, .ofCapacity plan.rate.toNat plan.capacity⟩ = (.ok (), begun) ∧
      InBounds plan 0 begun := by
  let blank : Deck T R S (Recorder S) := ⟨tl, .ofCapacity plan.rate.toNat plan.capacity⟩
  obtain ⟨handle, named⟩ := Timeline.exists_handleAt? (List.length_pos_iff.mpr nonempty)
  obtain ⟨⟨_, granted⟩, -, plays, position⟩ := start_yields blank stopped silent named
  have written : FrameSink.Written blank.sink (perform start blank).2.sink := start_written .idle
  have keeps := (Recorder.ofCapacity_keeps plan.rate.toNat plan.capacity).written written
  refine ⟨(perform start blank).2, Prod.ext granted rfl, .inr ⟨0, plays, (0 : Nat), ?_⟩, ?_⟩
  · exact position.trans (ExactClock.ofNat 0)
  · rw [Nat.zero_mul]
    exact keeps

/-- A step is granted, and keeps within the bounds. -/
theorem InBounds.turned (bounds : deck.InBounds plan tick) (early : tick < plan.maxTicks) :
    (∃ a, ((Call.tick plan.secondsPerTick).on deck).1 = .ok a) ∧
      (deck.turned plan.secondsPerTick plan.framesPerTick).InBounds plan (tick + 1) := by
  have written := Call.on_written (.tick plan.secondsPerTick) deck
  have keeps := (bounds.keeps.written written).consume plan.framesPerTick
  rw [← Nat.add_one_mul] at keeps
  rw [plan.secondsPerTick_eq (RenderPlan.rate_pos early)] at keeps ⊢
  obtain ⟨granted, onTime⟩ := tick_onTime bounds.onTime (plan.framesPerTick / plan.rate.toNat)
  exact ⟨granted, onTime, keeps⟩

/-- A timeline that plays lets itself be interrupted. -/
theorem InBounds.interrupted (bounds : deck.InBounds plan tick)
    (playing : deck.timeline.playing = true) :
    ∃ final, perform (stop true) deck = (.ok (), final) ∧ final.timeline.playing = false := by
  obtain rest | ⟨index, plays, -⟩ := bounds.onTime
  · rw [rest.stopped] at playing
    cases playing
  · obtain ⟨handle, named⟩ := Timeline.exists_handleAt? plays.within
    obtain ⟨⟨_, granted⟩, -, rest⟩ := stop_yields plays named (.inl rfl)
    exact ⟨_, Prod.ext granted rfl, rest.stopped⟩

/-- In the end the timeline has stopped, within the bounds of the steps that were taken. -/
theorem InBounds.ended {after : Deck T R S (Recorder S)} (bounds : after.InBounds plan tick)
    (ends : Ends limit tick after final) :
    final.timeline.playing = false ∧
      final.sink.Keeps plan.capacity (tick * plan.framesPerTick) := by
  cases ends with
  | played stopped => exact ⟨stopped, bounds.keeps⟩
  | interrupted playing _ granted =>
      obtain ⟨last, granted', stopped⟩ := bounds.interrupted playing
      have written : FrameSink.Written after.sink (perform (stop true) after).2.sink :=
        stop_written true .idle
      rw [granted] at granted' written
      cases granted'
      exact ⟨stopped, bounds.keeps.written written⟩

end Deck

/-- **Rendering ends within its bounds.** A timeline that is stopped and not empty, with idle
segments, is rendered as any plan says. The counts of the plan are words. No tick is refused, there
are no more of them than the plan allows, and when that many have been taken and the timeline still
plays it is interrupted. No more frames are recorded than go into these steps and the buffer. -/
theorem Timeline.render_bounded (plan : RenderPlan T) (stopped : tl.playing = false)
    (idle : ∀ entry ∈ tl.entries, entry.2.playing = false) (nonempty : tl.entries ≠ []) :
    (∃ budget, plan.budget? = some budget ∧ budget.framesPerTick.toNat = plan.framesPerTick ∧
      budget.capacity.toNat = plan.capacity ∧ budget.maxTicks.toNat = plan.maxTicks) ∧
    ∃ begun ticks after final,
      Deck.perform Deck.start ⟨tl, .ofCapacity plan.rate.toNat plan.capacity⟩ = (.ok (), begun) ∧
      Deck.Turns plan.secondsPerTick plan.framesPerTick begun ticks after ∧
      ticks ≤ plan.maxTicks ∧ Deck.Ends plan.maxTicks ticks after final ∧
      final.timeline.playing = false ∧ tl.render plan = .ok final.sink.frames ∧
      final.sink.frames.size ≤ plan.maxTicks * plan.framesPerTick + plan.capacity ∧
      final.sink.frames.size ≤ plan.maxSeconds.toNat * plan.rate.toNat + plan.capacity := by
  obtain ⟨begun, started, bounds⟩ := Deck.start_inBounds plan stopped (sounds_none_iff.mpr idle)
    nonempty
  obtain ⟨ticks, after, final, turns, bounds, most, ends, performed⟩ :=
    Deck.runTicks_ends (fun tick deck => deck.InBounds plan tick)
      (fun early bounds _ => bounds.turned early)
      (fun bounds playing => (bounds.interrupted playing).imp fun _ stops => stops.1)
      .none bounds (Nat.zero_add plan.maxTicks)
  obtain ⟨halted, keeps⟩ := bounds.ended ends
  have rendered := render_of_runTicks started performed
  have size := keeps.size_le_most
  have steps : ticks * plan.framesPerTick ≤ plan.maxTicks * plan.framesPerTick :=
    Nat.mul_le_mul_right _ most
  have frames : plan.maxTicks * plan.framesPerTick ≤ plan.maxSeconds.toNat * plan.rate.toNat :=
    Nat.div_mul_le_self _ _
  refine ⟨plan.exists_budget, begun, ticks, after, final, started, turns, most, ends, halted,
    rendered, ?_, ?_⟩ <;> omega

/-- Four frames in a second, but nine steps, and a buffer of no length that can be told: of two
seconds one is rendered. -/
theorem Timeline.acrossZero_bounded :
    let tl : Timeline Fraction Float Float32 := .ofSegment .acrossZero
    let plan : RenderPlan Fraction := ⟨4, 9, ⟨none⟩, 1⟩
    plan.framesPerTick = 1 ∧ plan.capacity = 1 ∧ plan.maxTicks = 4 ∧
      ∃ frames, tl.render plan = .ok frames ∧ frames.size ≤ 5 := by
  intro tl plan
  have step : plan.framesPerTick = 1 := by decide
  have capacity : plan.capacity = 1 := by decide
  have limit : plan.maxTicks = 4 := by decide
  have idle : ∀ entry ∈ tl.entries, entry.2.playing = false := by
    simp [tl, ofSegment, Segment.acrossZero]
  have nonempty : tl.entries ≠ [] := List.cons_ne_nil _ _
  obtain ⟨-, _, _, _, final, -, -, -, -, -, rendered, size, -⟩ :=
    render_bounded plan rfl idle nonempty
  rw [step, capacity, limit] at size
  exact ⟨step, capacity, limit, _, rendered, size⟩

end Tonegraph
