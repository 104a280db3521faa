import Mathlib.Algebra.BigOperators.Intervals
import Mathlib.Algebra.Order.BigOperators.Group.Finset
import Tonegraph.Proofs.Rendering.Trace
/-!
# When segments are heard with both of their ramps

Ramps are frames that the clock does not count, so with each of them the device buffer is that much
fuller than the clock says. Whether a segment is heard whole depends on the backlog that the earlier
ones have left there: `Timeline.render_whole_iff` says for any clock, however it rounds, when all of
them are. The standard buffer is four of the standard ramps long. On the clock of the program it has
room for two segments of a second at a rate of 105 (`Timeline.zeroSeconds_whole`), but not for three
at a rate of 100 (`Timeline.zeroSeconds_cut`).
-/

set_option autoImplicit false

namespace Tonegraph

variable {T R S : Type} [Arithmetic R] [Scalar S] [Narrowing R S]

instance (s : Segment R S) (rate frame : Nat) : Decidable (s.EndedAt rate frame) :=
  inferInstanceAs (Decidable (Scalar.ofInt s.window.stop.toInt ≤ s.timeOf rate frame))

instance (s : Segment R S) (rate : Nat) : Decidable (s.Timely rate) :=
  decidable_of_iff ((∀ frame < rate * s.runTime, ¬s.EndedAt rate frame) ∧
    s.EndedAt rate (rate * s.runTime)) ⟨fun ⟨during, ended⟩ => ⟨during, ended⟩,
      fun ⟨during, ended⟩ => ⟨during, ended⟩⟩

/-! ## Counting frames -/

namespace Segment

variable {s : Segment R S} {rate fills : Nat} {share : Share}

/-- As many frames are heard of a segment as are shared out of what it has. -/
theorem length_heard_of_within (within : share.Within (s.part rate fills)) :
    (s.heard rate share).length = share.total := by
  obtain ⟨fadeIn, -, fadeOut⟩ := within
  rw [length_heard]
  exact congrArg₂ (· + ·) (congrArg (· + _) (Nat.min_eq_right fadeIn)) (Nat.min_eq_right fadeOut)

omit [Scalar S] [Narrowing R S] in
/-- Of a segment with both ramps no more can be shared out than all, and only all is as much. -/
theorem total_le (audible : s.Audible rate) (within : share.Within (s.part rate fills)) :
    share.total ≤ (s.part rate fills).all.total ∧
      (share.total = (s.part rate fills).all.total ↔ share = (s.part rate fills).all) := by
  obtain ⟨fadeIn, content, fadeOut⟩ := within
  have most : (s.part rate fills).fadeOut share.content ≤ s.rampFrames rate := s.rampSize_le _ _
  have last : (s.part rate fills).all.fadeOut = s.rampFrames rate := if_pos audible.stop
  rw [← last] at most
  obtain ⟨a, b, c⟩ := share
  simp only [Share.total, Part.all, Share.mk.injEq] at *
  omega

end Segment

namespace Timeline

variable {tl : Timeline T R S} {rate index : Nat} {shares : Nat → Share}

/-- Shares of what segments have are as many frames as are heard. -/
theorem length_heardBefore (begins : Nat → Nat) (upto : index ≤ tl.size)
    (within : ∀ place, (shares place).Within (tl.part rate begins place)) :
    (tl.heardBefore rate shares index).length =
      ∑ place ∈ Finset.range index, (shares place).total := by
  induction index with
  | zero => rfl
  | succ index ih =>
      have found := List.getElem?_eq_getElem upto
      have counted := within index
      rw [part_of_found found] at counted
      rw [heardBefore_succ found, List.length_append, ih (Nat.le_of_succ_le upto),
        Segment.length_heard_of_within counted, Finset.sum_range_succ]

/-- All segments are heard whole exactly if each of them has a share of all that it has. -/
theorem heardBefore_eq_whole_iff (audible : ∀ entry ∈ tl.entries, entry.2.Audible rate)
    (begins : Nat → Nat) (within : ∀ place, (shares place).Within (tl.part rate begins place)) :
    (tl.heardBefore rate shares tl.size = tl.entries.flatMap fun entry => entry.2.whole rate) ↔
      ∀ index < tl.size, shares index = (tl.part rate begins index).all := by
  rw [← heardBefore_all tl rate begins]
  constructor
  · intro same
    have lengths := congrArg List.length same
    rw [length_heardBefore begins (Nat.le_refl _) within,
      length_heardBefore begins (Nat.le_refl _) fun _ => Part.all_within _] at lengths
    have each {index : Nat} (inside : index < tl.size) := by
      have found := List.getElem?_eq_getElem inside
      have part : tl.part rate begins index = _ := part_of_found found begins
      have most := Segment.total_le (audible _ (List.mem_of_getElem? found)) (part ▸ within index)
      rwa [← part] at most
    intro index inside
    refine (each inside).2.mp ((Finset.sum_eq_sum_iff_of_le fun place listed => ?_).mp lengths index
      (Finset.mem_range.mpr inside))
    exact (each (Finset.mem_range.mp listed)).1
  · exact heardBefore_congr (Nat.le_refl _)

/-- **When every segment is heard whole.** Let a timeline be stopped, and its segments be idle and
audible at both ends of their windows, with as many frames of content in each as its seconds have,
as there are up to a rate of 192000 (`Segment.timely_of_rounded`). Let rendering take long enough
for the clock to come to the end. Whole, a segment is a ramp, all of its content, and a ramp, but
rendering gives no more than the shares for which there is room in the buffer. These are all frames
of all segments exactly if each segment finds room behind the backlog of those before it. How the
clock rounds is not assumed: it decides which steps the segments begin in, and with them how often
the buffer is filled from each. -/
theorem render_whole_iff [Scalar T] {plan : RenderPlan T} {begins : Nat → Nat}
    (stopped : tl.playing = false) (idle : ∀ entry ∈ tl.entries, entry.2.playing = false)
    (nonempty : tl.entries ≠ [])
    (audible : ∀ entry ∈ tl.entries, entry.2.Audible plan.rate.toNat)
    (timely : ∀ entry ∈ tl.entries, entry.2.Timely plan.rate.toNat)
    (schedule : plan.Schedule tl begins) (enough : begins tl.size ≤ plan.maxTicks) :
    let parts := tl.part plan.rate.toNat begins
    (∀ entry ∈ tl.entries, (entry.2.whole plan.rate.toNat).length =
      entry.2.rampFrames plan.rate.toNat + plan.rate.toNat * entry.2.runTime +
        entry.2.rampFrames plan.rate.toNat) ∧
    ∃ frames, tl.render plan = .ok frames ∧
      frames.toList = tl.heardBefore plan.rate.toNat (plan.device.shares parts) tl.size ∧
      (frames.toList = (tl.entries.flatMap fun entry => entry.2.whole plan.rate.toNat) ↔
        ∀ index < tl.size, plan.device.HasRoom (plan.device.backlog parts index) (parts index)) := by
  intro parts
  obtain ⟨frames, rendered, heard⟩ :=
    render_eq_heard stopped (sounds_none_iff.mpr idle) nonempty timely schedule enough
  refine ⟨fun entry member => Segment.length_whole (audible entry member), frames, rendered, heard,
    ?_⟩
  rw [heard, ← Device.shares_eq_all_iff]
  exact heardBefore_eq_whole_iff audible begins (plan.shares_within tl begins)

end Timeline

/-! ## Reading the clock -/

namespace RenderPlan

variable [Scalar T] {plan : RenderPlan T}

/-- Reads the clock after each of so many steps. If it shows that a segment goes on until the last
of them and is over then, gives that reading. -/
def scan (plan : RenderPlan T) (offset seconds : Nat) : Nat → T → Option T
  | 0, _ => none
  | steps + 1, time =>
      let time := time + plan.secondsPerTick
      if time - Scalar.ofNat offset < Scalar.ofNat seconds then plan.scan offset seconds steps time
      else if steps = 0 then some time else none

/-- Reads the clock through segments of so many seconds that take so many steps. -/
def scanAll (plan : RenderPlan T) : Nat → List Nat → List Nat → T → Option T
  | _, [], _, time => some time
  | _, _ :: _, [], _ => none
  | offset, seconds :: rest, steps :: more, time =>
      (plan.scan offset seconds steps time).bind (plan.scanAll (offset + seconds) rest more)

theorem spans_of_scan {offset seconds steps : Nat} (first : Nat) {time : T}
    (scanned : plan.scan offset seconds steps (plan.timeAfter first) = some time) :
    plan.Spans offset seconds first (first + steps) ∧ time = plan.timeAfter (first + steps) := by
  induction steps generalizing first with
  | zero => cases scanned
  | succ steps ih =>
      simp only [scan] at scanned
      split at scanned
      · rename_i goesOn
        obtain ⟨spans, shown⟩ := ih (first + 1) scanned
        rw [Nat.add_right_comm, Nat.add_assoc] at spans shown
        refine ⟨⟨by omega, fun tick since before => ?_, spans.passed⟩, shown⟩
        obtain now | later := Nat.eq_or_lt_of_le since
        · exact now ▸ goesOn
        · exact spans.during tick later before
      · rename_i ran
        split at scanned
        · subst steps
          cases scanned
          exact ⟨⟨Nat.lt_succ_self _, fun tick _ _ => by omega, ran⟩, rfl⟩
        · cases scanned

theorem spans_of_scanAll {lengths steps : List Nat} (offset first : Nat) {time : T}
    (scanned : plan.scanAll offset lengths steps (plan.timeAfter first) = some time) :
    (∀ {index seconds : Nat}, lengths[index]? = some seconds →
      plan.Spans (offset + (lengths.take index).sum) seconds (first + (steps.take index).sum)
        (first + (steps.take (index + 1)).sum)) ∧
      time = plan.timeAfter (first + (steps.take lengths.length).sum) := by
  induction lengths generalizing offset first steps with
  | nil =>
      cases scanned
      refine ⟨fun {index seconds} found => ?_, rfl⟩
      simp at found
  | cons length rest ih =>
      cases steps with
      | nil => cases scanned
      | cons count more =>
          obtain ⟨between, once, scanned⟩ := Option.bind_eq_some_iff.mp scanned
          obtain ⟨spans, rfl⟩ := spans_of_scan first once
          obtain ⟨later, shown⟩ := ih (offset + length) (first + count) scanned
          refine ⟨fun {index seconds} found => ?_, by simpa [Nat.add_assoc] using shown⟩
          cases index with
          | zero =>
              cases found
              simpa using spans
          | succ index => simpa [Nat.add_assoc] using later found

/-- What the clock shows is the schedule of a timeline, if it shows so for each segment. -/
theorem schedule_of_scanAll {R S : Type} {tl : Timeline T R S} {steps : List Nat} {time : T}
    (scanned : plan.scanAll 0 (tl.entries.map fun entry => entry.2.runTime) steps
      (plan.timeAfter 0) = some time)
    (reached : tl.signedRunTime ≤ Clock.secondOf time) :
    plan.Schedule tl fun index => (steps.take index).sum := by
  obtain ⟨spans, shown⟩ := spans_of_scanAll 0 0 scanned
  rw [List.length_map, Nat.zero_add] at shown
  refine ⟨rfl, fun {index entry} found => ?_, shown ▸ reached⟩
  have inside : plan.Spans _ entry.2.runTime _ _ := @spans index _ (by simp [found])
  simp only [Nat.zero_add] at inside
  rwa [Timeline.offsetOf, Timeline.seconds_eq, List.map_take]

end RenderPlan

/-! ## Two segments and three -/

/-- A second on which the formula is zero, with the standard voice. -/
def Segment.zeroSecond : Segment Float Float32 where
  text := "0"
  formula := .number (Scalar.ofNat 0)
  window := ⟨0, 1, by decide⟩
  voice := .standard
  playing := false
  rendered := 0
  phase := Scalar.ofNat 0
  closed := rfl

/-- The standard plan at another rate. -/
def RenderPlan.standardAt (rate : UInt32) : RenderPlan Float := { RenderPlan.standard with rate }

namespace Timeline

/-- So many of these seconds. -/
def zeroSeconds (count : Nat) : Timeline Float Float Float32 :=
  { (empty : Timeline Float Float Float32) with
    entries := (List.range count).map fun serial => (⟨serial⟩, Segment.zeroSecond)
    issued := count }

theorem mem_zeroSeconds {count : Nat} {entry : Handle × Segment Float Float32}
    (member : entry ∈ (zeroSeconds count).entries) : entry.2 = .zeroSecond := by
  obtain ⟨_, -, rfl⟩ := List.mem_map.mp member
  rfl

theorem zeroSeconds_idle (count : Nat) :
    ∀ entry ∈ (zeroSeconds count).entries, entry.2.playing = false := by
  intro entry member
  rw [mem_zeroSeconds member]
  rfl

/-- There are ramps at both ends of these seconds. -/
theorem zeroSecond_audible : Segment.zeroSecond.Audible 105 ∧ Segment.zeroSecond.Audible 100 :=
  ⟨⟨by decide +kernel, by decide +kernel⟩, ⟨by decide +kernel, by decide +kernel⟩⟩

/-- Two of these seconds are heard whole at a rate of 105. The clock shows that they take 106 and
105 steps. -/
theorem zeroSeconds_whole :
    ∃ frames, (zeroSeconds 2).render (.standardAt 105) = .ok frames ∧
      frames.toList = (zeroSeconds 2).entries.flatMap fun entry => entry.2.whole 105 := by
  have scanned : (((RenderPlan.standardAt 105).scanAll 0
      ((zeroSeconds 2).entries.map fun entry => entry.2.runTime) [106, 105]
      ((RenderPlan.standardAt 105).timeAfter 0)).any fun time =>
        (zeroSeconds 2).signedRunTime ≤ Clock.secondOf time) = true := by decide +kernel
  obtain ⟨time, shown, reached⟩ := (Option.any_eq_true _ _).mp scanned
  have schedule := RenderPlan.schedule_of_scanAll shown (of_decide_eq_true reached)
  have timely : Segment.zeroSecond.Timely 105 := by decide +kernel
  obtain ⟨-, frames, rendered, -, whole⟩ := render_whole_iff rfl (zeroSeconds_idle 2)
    (List.cons_ne_nil _ _) (fun _ member => mem_zeroSeconds member ▸ zeroSecond_audible.1)
    (fun _ member => mem_zeroSeconds member ▸ timely) schedule (by decide +kernel)
  exact ⟨frames, rendered, whole.mpr (by decide +kernel)⟩

/-- Of three of these seconds something is cut at a rate of 100: they have 330 frames, and 320 are
rendered. The clock shows that they take 100, 100 and 101 steps. -/
theorem zeroSeconds_cut :
    let tl := zeroSeconds 3
    let plan := RenderPlan.standardAt 100
    tl.playing = false ∧ tl.entries ≠ [] ∧ (∀ entry ∈ tl.entries, entry.2.playing = false) ∧
      (∀ entry ∈ tl.entries, entry.2.voice = .standard ∧ entry.2.Audible 100) ∧
      tl.runTime < plan.maxSeconds.toNat ∧
      (tl.entries.flatMap fun entry => entry.2.whole 100).length = 330 ∧
      ∃ frames, tl.render plan = .ok frames ∧ frames.size = 320 := by
  intro tl plan
  have idle := zeroSeconds_idle 3
  have nonempty : tl.entries ≠ [] := List.cons_ne_nil _ _
  have voice : ∀ entry ∈ tl.entries, entry.2.voice = .standard ∧ entry.2.Audible 100 :=
    fun _ member => mem_zeroSeconds member ▸ ⟨rfl, zeroSecond_audible.2⟩
  have scanned : (((RenderPlan.standardAt 100).scanAll 0
      ((zeroSeconds 3).entries.map fun entry => entry.2.runTime) [100, 100, 101]
      ((RenderPlan.standardAt 100).timeAfter 0)).any fun time =>
        (zeroSeconds 3).signedRunTime ≤ Clock.secondOf time) = true := by decide +kernel
  obtain ⟨time, shown, reached⟩ := (Option.any_eq_true _ _).mp scanned
  have schedule := RenderPlan.schedule_of_scanAll shown (of_decide_eq_true reached)
  have timely : Segment.zeroSecond.Timely 100 := by decide +kernel
  obtain ⟨frames, rendered, heard⟩ := render_eq_heard rfl (sounds_none_iff.mpr idle) nonempty
    (fun _ member => mem_zeroSeconds member ▸ timely) schedule (by decide +kernel)
  refine ⟨rfl, nonempty, idle, voice, by decide, ?_, frames, rendered, ?_⟩
  · rw [← heardBefore_all tl 100 fun index => ([100, 100, 101].take index).sum,
      length_heardBefore _ (Nat.le_refl _) fun _ => Part.all_within _]
    decide +kernel
  · rw [← Array.length_toList, heard,
      length_heardBefore _ (Nat.le_refl _) (RenderPlan.shares_within _ tl _)]
    decide +kernel

end Timeline

end Tonegraph
