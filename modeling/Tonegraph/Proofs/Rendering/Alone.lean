import Mathlib.Algebra.BigOperators.Ring.List
import Mathlib.Algebra.Order.Floor.Div
import Tonegraph.Proofs.Oscillator.Moves
import Tonegraph.Proofs.Rendering.Trace
/-!
# Rendering without ramps, in exact time

In exact time the clock has come to a whole number of frames after every step, so the steps in which
segments begin are a matter of natural numbers: each begins in the first step that comes to its time
(`RenderPlan.stepAt`, `RenderPlan.schedule_stepAt`). Without ramps the buffer is then never more
than a step ahead of the clock when a segment begins, and two steps of room are enough for all of
them: `Timeline.render_alone`.
-/

set_option autoImplicit false

namespace Tonegraph

/-! ## The schedule -/

namespace RenderPlan

variable {plan : RenderPlan ℚ} {tick seconds : Nat}

theorem timeAfter_eq (plan : RenderPlan ℚ) (tick : Nat) :
    plan.timeAfter tick = tick * plan.secondsPerTick := by
  induction tick with
  | zero => simp [timeAfter]
  | succ tick ih =>
      rw [timeAfter, ih]
      push_cast
      ring

/-- The clock has not come to a second before so many frames of it have been played. -/
theorem timeAfter_lt_iff (positive : 0 < plan.rate.toNat) :
    plan.timeAfter tick < seconds ↔ tick * plan.framesPerTick < plan.rate.toNat * seconds := by
  have positive' : (0 : ℚ) < plan.rate.toNat := by exact_mod_cast positive
  rw [timeAfter_eq, secondsPerTick, ofNat_rat, ofNat_rat, ← mul_div_assoc,
    div_lt_iff₀' positive']
  exact_mod_cast Iff.rfl

theorem goesOn_iff_timeAfter_lt {offset : Nat} :
    plan.GoesOn offset seconds tick ↔ plan.timeAfter tick < (offset + seconds : Nat) := by
  rw [GoesOn, ofNat_rat, ofNat_rat, sub_lt_iff_lt_add']
  push_cast
  exact Iff.rfl

/-- The first step that comes to a second. -/
def stepAt (plan : RenderPlan ℚ) (seconds : Nat) : Nat :=
  plan.rate.toNat * seconds ⌈/⌉ plan.framesPerTick

theorem lt_stepAt_iff :
    tick < plan.stepAt seconds ↔ tick * plan.framesPerTick < plan.rate.toNat * seconds := by
  rw [← not_le, ← not_le, stepAt, ceilDiv_le_iff_le_mul plan.framesPerTick_pos, Nat.mul_comm tick]

/-- A step comes to a second not a step too late. -/
theorem stepAt_bounds (plan : RenderPlan ℚ) (seconds : Nat) :
    plan.rate.toNat * seconds ≤ plan.stepAt seconds * plan.framesPerTick ∧
      plan.stepAt seconds * plan.framesPerTick <
        plan.rate.toNat * seconds + plan.framesPerTick := by
  have positive := plan.framesPerTick_pos
  refine ⟨not_lt.mp (mt lt_stepAt_iff.mpr (lt_irrefl _)), ?_⟩
  cases step : plan.stepAt seconds with
  | zero => omega
  | succ before =>
      have early : before < plan.stepAt seconds := step ▸ Nat.lt_succ_self before
      rw [lt_stepAt_iff] at early
      rw [Nat.add_one_mul]
      omega

/-- There are steps enough for all that takes less time than rendering may. -/
theorem stepAt_le_maxTicks (slow : plan.framesPerTick < plan.rate.toNat)
    (short : seconds < plan.maxSeconds.toNat) : plan.stepAt seconds ≤ plan.maxTicks := by
  have late := (plan.stepAt_bounds seconds).2
  have most := Nat.mul_le_mul_left plan.rate.toNat (Nat.succ_le_of_lt short)
  rw [Nat.succ_eq_add_one, Nat.mul_add_one] at most
  rw [maxTicks, Nat.le_div_iff_mul_le plan.framesPerTick_pos, Nat.mul_comm plan.maxSeconds.toNat]
  omega

variable {R S : Type} {tl : Timeline ℚ R S}

/-- In exact time each segment begins in the first step that comes to its second. -/
theorem schedule_stepAt (slow : plan.framesPerTick < plan.rate.toNat) (tl : Timeline ℚ R S) :
    plan.Schedule tl fun index => plan.stepAt (tl.offsetOf index) := by
  have positive : 0 < plan.rate.toNat := Nat.zero_lt_of_lt slow
  refine ⟨zero_ceilDiv _, fun {index entry} found => ?_, ?_⟩
  · rw [Timeline.offsetOf_succ found]
    refine ⟨lt_stepAt_iff.mpr ?_, fun tick _ before => ?_, fun goesOn => ?_⟩
    -- A step is shorter than a second, and a segment takes one at least.
    · have late := (plan.stepAt_bounds (tl.offsetOf index)).2
      have second := Nat.le_mul_of_pos_right plan.rate.toNat entry.2.runTime_pos
      rw [Nat.mul_add]
      omega
    · exact goesOn_iff_timeAfter_lt.mpr ((timeAfter_lt_iff positive).mpr (lt_stepAt_iff.mp before))
    · exact lt_irrefl _
        (lt_stepAt_iff.mpr ((timeAfter_lt_iff positive).mp (goesOn_iff_timeAfter_lt.mp goesOn)))
  · refine Timeline.signedRunTime_le_secondOf (not_lt.mp fun early => ?_)
    exact lt_irrefl _ (lt_stepAt_iff.mpr ((timeAfter_lt_iff positive).mp early))

end RenderPlan

/-! ## Room for all -/

section

variable {R S : Type} [Arithmetic R] [ExactTimes R]

/-- A ramp of no seconds has no frames. -/
theorem Segment.rampFrames_of_plain {s : Segment R S} (plain : s.voice.fade = Scalar.ofNat 0)
    (rate : Nat) : s.rampFrames rate = 0 := by
  rw [rampFrames, plain, ExactTimes.truncate_zero _ _ (by decide)]
  rfl

theorem Segment.rampSize_of_plain {s : Segment R S} (plain : s.voice.fade = Scalar.ofNat 0) (t : R)
    (rate : Nat) : s.rampSize t rate = 0 :=
  Nat.le_zero.mp (rampFrames_of_plain plain rate ▸ s.rampSize_le t rate)

variable {tl : Timeline ℚ R S} {plan : RenderPlan ℚ}
  (plain : ∀ entry ∈ tl.entries, entry.2.voice.fade = Scalar.ofNat 0)
  (slow : plan.framesPerTick < plan.rate.toNat)

namespace Timeline

/-- What segments without ramps have for the buffer in exact time. -/
abbrev exactPart (tl : Timeline ℚ R S) (plan : RenderPlan ℚ) : Nat → Part :=
  tl.part plan.rate.toNat fun index => plan.stepAt (tl.offsetOf index)

include plain

theorem exactPart_of_plain {index : Nat} {entry : Handle × Segment R S}
    (found : tl.entries[index]? = some entry) :
    tl.exactPart plan index = ⟨0, plan.rate.toNat * entry.2.runTime, fun _ => 0,
      plan.stepAt (tl.offsetOf (index + 1)) - max (plan.stepAt (tl.offsetOf index)) 1⟩ := by
  have silent := Segment.rampSize_of_plain (plain entry (List.mem_of_getElem? found))
  rw [exactPart, part_of_found found, Segment.part, silent]
  simp only [silent]

include slow

/-- When a segment begins, all that is queued of the earlier ones is what the clock comes late. -/
theorem backlog_exact {index : Nat} (upto : index ≤ tl.size) :
    plan.device.backlog (tl.exactPart plan) index +
        (max (plan.stepAt (tl.offsetOf index)) 1 - 1) * plan.framesPerTick =
      plan.rate.toNat * tl.offsetOf index := by
  induction index with
  | zero =>
      have first : plan.stepAt (tl.offsetOf 0) = 0 := (plan.schedule_stepAt slow tl).first
      rw [first]
      simp [Device.backlog, offsetOf, seconds]
  | succ index ih =>
      have found := List.getElem?_eq_getElem upto
      have span := ((plan.schedule_stepAt slow tl).spans found).lt
      let step := plan.stepAt (tl.offsetOf index)
      let next := plan.stepAt (tl.offsetOf (index + 1))
      have before : plan.device.backlog (tl.exactPart plan) index +
          (max step 1 - 1) * plan.framesPerTick = plan.rate.toNat * tl.offsetOf index :=
        ih (Nat.le_of_succ_le upto)
      have early : (next - 1) * plan.framesPerTick <
          plan.rate.toNat * tl.offsetOf (index + 1) :=
        RenderPlan.lt_stepAt_iff.mp (Nat.sub_one_lt_of_lt span)
      have parts : (next - max step 1) * plan.framesPerTick + (max step 1 - 1) * plan.framesPerTick =
          (next - 1) * plan.framesPerTick := by
        rw [← Nat.add_mul]
        congr 1
        omega
      have last : max next 1 = next := by omega
      have lasts : plan.rate.toNat * tl.offsetOf (index + 1) =
          plan.rate.toNat * tl.offsetOf index + plan.rate.toNat * tl.entries[index].2.runTime := by
        rw [offsetOf_succ found, Nat.mul_add]
      rw [Device.backlog, exactPart_of_plain plain found]
      show _ + 0 + plan.rate.toNat * tl.entries[index].2.runTime -
        (next - max step 1) * plan.framesPerTick + 0 + (max next 1 - 1) * plan.framesPerTick = _
      rw [last]
      omega

theorem backlog_le_step {index : Nat} (upto : index ≤ tl.size) :
    plan.device.backlog (tl.exactPart plan) index ≤ plan.framesPerTick := by
  have queued := backlog_exact plain slow upto
  have reached := (plan.stepAt_bounds (tl.offsetOf index)).1
  generalize plan.stepAt (tl.offsetOf index) = step at queued reached
  obtain none | ⟨before, rfl⟩ : step = 0 ∨ ∃ before, step = before + 1 := by
    cases step with
    | zero => exact .inl rfl
    | succ before => exact .inr ⟨before, rfl⟩
  · subst none
    omega
  · have first : max (before + 1) 1 - 1 = before := by omega
    rw [first] at queued
    rw [Nat.add_one_mul] at reached
    omega

/-- Without ramps a buffer of two steps has room for every segment in exact time. -/
theorem hasRoom_exact (roomy : 2 * plan.framesPerTick ≤ plan.capacity) {index : Nat}
    (within : index < tl.size) :
    plan.device.HasRoom (plan.device.backlog (tl.exactPart plan) index)
      (tl.exactPart plan index) := by
  have found := List.getElem?_eq_getElem within
  have before := backlog_le_step plain slow (Nat.le_of_lt within)
  have after := backlog_le_step plain slow within
  rw [Device.backlog, exactPart_of_plain plain found] at after
  have capacity : plan.device.capacity = plan.capacity := rfl
  -- The buffer is filled at least once from a segment, as steps are shorter than seconds.
  have second : 1 < plan.stepAt (tl.offsetOf (index + 1)) := by
    have most := Nat.le_mul_of_pos_right plan.rate.toNat (tl.entries[index].2.runTime_pos)
    rw [RenderPlan.lt_stepAt_iff, offsetOf_succ found, Nat.mul_add]
    omega
  have span := ((plan.schedule_stepAt slow tl).spans found).lt
  obtain ⟨more, fills⟩ : ∃ more, plan.stepAt (tl.offsetOf (index + 1)) -
      max (plan.stepAt (tl.offsetOf index)) 1 = more + 1 := Nat.exists_eq_add_one.mpr (by omega)
  rw [fills] at after
  rw [exactPart_of_plain plain found, fills]
  have played : (more + 1) * plan.device.step = more * plan.device.step + plan.framesPerTick :=
    Nat.add_one_mul _ _
  refine ⟨?_, ?_, ?_⟩
  · show plan.device.backlog (tl.exactPart plan) index + 0 ≤ plan.device.capacity
    omega
  · show plan.rate.toNat * tl.entries[index].2.runTime ≤
      plan.device.capacity - (plan.device.backlog (tl.exactPart plan) index + 0) +
        more * plan.device.step
    have queued : plan.device.backlog (tl.exactPart plan) index + 0 +
        plan.rate.toNat * tl.entries[index].2.runTime - (more + 1) * plan.device.step + 0 ≤
      plan.framesPerTick := after
    omega
  · exact after.trans (by omega)

end Timeline

end

/-! ## What is rendered -/

namespace Timeline

section

variable {R S : Type} [Arithmetic R] [ExactTimes R] [Scalar S] [Narrowing R S]
  {tl : Timeline ℚ R S} {plan : RenderPlan ℚ}
  (plain : ∀ entry ∈ tl.entries, entry.2.voice.fade = Scalar.ofNat 0)

include plain

/-- **Rendering without ramps is exact.** A timeline that is stopped and whose segments are idle and
have no ramps is rendered to as many frames as it lasts, if a step takes less than a second and the
buffer has room for two steps. The frames are those that each segment gives when it is played alone,
one after the other. -/
theorem render_alone (stopped : tl.playing = false)
    (idle : ∀ entry ∈ tl.entries, entry.2.playing = false) (nonempty : tl.entries ≠ [])
    (slow : plan.framesPerTick < plan.rate.toNat) (roomy : 2 * plan.framesPerTick ≤ plan.capacity)
    (short : tl.runTime < plan.maxSeconds.toNat) :
    ∃ frames, tl.render plan = .ok frames ∧ frames.size = plan.rate.toNat * tl.runTime ∧
      ∀ room, plan.rate.toNat * tl.runTime ≤ room →
        frames.toList = tl.entries.flatMap fun entry => entry.2.alone plan.rate.toNat room := by
  have positive : 0 < plan.rate.toNat := Nat.zero_lt_of_lt slow
  have enough : plan.stepAt (tl.offsetOf tl.size) ≤ plan.maxTicks := by
    rw [← runTime_eq_offsetOf]
    exact plan.stepAt_le_maxTicks slow short
  obtain ⟨frames, rendered, heard⟩ := render_eq_heard stopped (sounds_none_iff.mpr idle) nonempty
    (fun entry _ => entry.2.timely_of_exact positive) (plan.schedule_stepAt slow tl) enough
  have all := Device.shares_eq_all_iff.mpr fun index => hasRoom_exact plain slow roomy
  have whole : frames.toList = tl.entries.flatMap fun entry => entry.2.whole plan.rate.toNat := by
    rw [heard, ← heardBefore_all tl _ fun index => plan.stepAt (tl.offsetOf index)]
    exact heardBefore_congr (Nat.le_refl _) all
  refine ⟨frames, rendered, ?_, fun room enough => ?_⟩
  · have lengths : tl.entries.map (fun entry => (entry.2.whole plan.rate.toNat).length) =
        tl.entries.map fun entry => plan.rate.toNat * entry.2.runTime :=
      List.map_congr_left fun entry member => by
        have silent := Segment.rampSize_of_plain (plain entry member)
        rw [Segment.whole_eq, Segment.length_heard]
        simp only [silent, Nat.zero_min, Nat.zero_add, Nat.add_zero]
    rw [← Array.length_toList, whole, List.length_flatMap, lengths, List.sum_map_mul_left, runTime,
      seconds_eq]
  · rw [whole]
    refine List.flatMap_congr fun entry member => (Segment.alone_eq_whole ?_ ?_).symm
    · exact entry.2.timely_of_exact positive
    · rw [Segment.rampFrames_of_plain (plain entry member), Nat.zero_add, Nat.add_zero]
      exact (Nat.mul_le_mul_left _ (runTime_le_of_mem member)).trans enough

end

end Timeline

/-- A tone of 440 on a window, without ramps. -/
noncomputable def Segment.tone (window : Window) : Segment PartialReal PartialReal :=
  { PartialReal.steady 88 9 with
    window, voice := { (PartialReal.steady 88 9).voice with fade := Scalar.ofNat 0 } }

theorem Segment.tone_frequencyAt? (window : Window) (t : PartialReal) :
    (tone window).frequencyAt? t = some ⟨some 440⟩ := by
  have keys : (((88 : Int32) - 1).toInt : ℝ) = 87 := by
    rw [show ((88 : Int32) - 1).toInt = 87 by decide]
    norm_num
  have same : (tone window).frequencyAt? t = (PartialReal.steady 88 9).frequencyAt? t := rfl
  rw [same, PartialReal.steady_frequencyAt? (by norm_num) (by rw [keys]; norm_num),
    if_pos (by norm_num)]
  norm_num

/-- This tone for two seconds and for one, idle. -/
noncomputable def Timeline.twoTones : Timeline ℚ PartialReal PartialReal :=
  { (empty : Timeline ℚ PartialReal PartialReal) with
    entries := [(⟨0⟩, .tone ⟨1, 3, by decide⟩), (⟨1⟩, .tone ⟨-1, 0, by decide⟩)]
    issued := 2 }

theorem Timeline.mem_twoTones {entry : Handle × Segment PartialReal PartialReal}
    (member : entry ∈ twoTones.entries) : ∃ window, entry.2 = .tone window := by
  simp only [twoTones, List.mem_cons, List.not_mem_nil, or_false] at member
  rcases member with rfl | rfl <;> exact ⟨_, rfl⟩

/-- There are 64 frames in a second, which are no whole number of steps of 12, and a buffer of 24. -/
theorem Timeline.twoTones_render :
    let plan : RenderPlan ℚ := ⟨64, 5, 3 / 8, 4⟩
    plan.framesPerTick = 12 ∧ plan.capacity = 24 ∧
      (∀ entry ∈ twoTones.entries, ∀ t, entry.2.frequencyAt? t = some ⟨some 440⟩) ∧
      ∃ frames, twoTones.render plan = .ok frames ∧ frames.size = 192 ∧
        frames.toList = twoTones.entries.flatMap fun entry => entry.2.alone 64 192 := by
  intro plan
  have step : plan.framesPerTick = 12 := by decide +kernel
  have capacity : plan.capacity = 24 := by decide +kernel
  have slow : plan.framesPerTick < plan.rate.toNat := by rw [step]; decide
  have roomy : 2 * plan.framesPerTick ≤ plan.capacity := by rw [step, capacity]
  have plain : ∀ entry ∈ twoTones.entries, entry.2.voice.fade = Scalar.ofNat 0 := by
    intro entry member
    obtain ⟨window, same⟩ := mem_twoTones member
    rw [same]
    rfl
  have idle : ∀ entry ∈ twoTones.entries, entry.2.playing = false := by
    intro entry member
    obtain ⟨window, same⟩ := mem_twoTones member
    rw [same]
    rfl
  have heard : ∀ entry ∈ twoTones.entries, ∀ t, entry.2.frequencyAt? t = some ⟨some 440⟩ := by
    intro entry member
    obtain ⟨window, same⟩ := mem_twoTones member
    rw [same]
    exact Segment.tone_frequencyAt? window
  have nonempty : twoTones.entries ≠ [] := List.cons_ne_nil _ _
  obtain ⟨frames, rendered, size, alone⟩ :=
    render_alone plain rfl idle nonempty slow roomy (by decide)
  exact ⟨step, capacity, heard, frames, rendered, size, alone 192 (by decide)⟩

end Tonegraph
