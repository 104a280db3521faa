import Tonegraph.Proofs.Arithmetic.Reals
import Tonegraph.Proofs.Solo
/-!
# The oscillator of a segment

Ramps and content turn one oscillator, frame by frame. `Segment.turned` is the segment after so many
turns at one frequency, and a ramp is the samples at these turns, scaled by its gains (`rampAt_eq`).
`Segment.RampsTo` is what a ramp comes to.

In real numbers each turn keeps the phase in `[0, 1)`, and a sample there is at most the amplitude,
as long as the frequencies are finite (`Segment.HeardFinitely`). `Segment.Sounding` is a state of a
segment in which that is so, and ramps and content lead from one such state to another.
-/

set_option autoImplicit false

namespace Tonegraph

open RealNumbers

variable {R S : Type} [Arithmetic R]

namespace Segment

/-! ## Turns -/

/-- The segment after its oscillator has been turned on by so many frames at a frequency. -/
def turned (s : Segment R S) (frequency : R) (rate count : Nat) : Segment R S :=
  (fun s => s.advance frequency rate)^[count] s

/-- All frequencies that a segment can be heard at are finite. -/
def HeardFinitely [RealNumbers R] (s : Segment R S) : Prop :=
  ∀ t frequency, s.frequencyAt? t = some frequency → Finite frequency

theorem turned_samePiece (s : Segment R S) (frequency : R) (rate count : Nat) :
    (s.turned frequency rate count).SamePiece s := by
  induction count generalizing s with
  | zero => exact .refl s
  | succ count ih => exact (ih (s.advance frequency rate)).trans ⟨rfl, rfl, rfl, rfl⟩

theorem turned_rendered (s : Segment R S) (frequency : R) (rate count : Nat) :
    (s.turned frequency rate count).rendered = s.rendered := by
  induction count generalizing s with
  | zero => rfl
  | succ count ih => exact ih (s.advance frequency rate)

section

variable [RealArithmetic R] {s : Segment R S} {frequency : R} {rate : Nat}

theorem advance_phase {p f : ℝ} (phase : value? s.phase = some p)
    (value : value? frequency = some f) (positive : 0 < rate) :
    value? (s.advance frequency rate).phase = some (Int.fract (p + f / rate)) :=
  sub_floor (add phase (div_ofNat positive value))

theorem advance_inTurn (inTurn : InTurn s.phase) (finite : Finite frequency)
    (positive : 0 < rate) : InTurn (s.advance frequency rate).phase := by
  obtain ⟨p, phase, -⟩ := inTurn
  obtain ⟨f, value⟩ := finite
  exact inTurn_of_fract (advance_phase phase value positive)

theorem turned_inTurn (inTurn : InTurn s.phase) (finite : Finite frequency)
    (positive : 0 < rate) (count : Nat) : InTurn (s.turned frequency rate count).phase := by
  induction count generalizing s with
  | zero => exact inTurn
  | succ count ih => exact ih (advance_inTurn inTurn finite positive)

/-- Turn by turn, only whole turns are dropped. -/
theorem turned_phase {p f : ℝ} (phase : value? s.phase = some p) (nonneg : 0 ≤ p) (less : p < 1)
    (value : value? frequency = some f) (positive : 0 < rate) (count : Nat) :
    value? (s.turned frequency rate count).phase = some (Int.fract (p + count * f / rate)) := by
  induction count generalizing s p with
  | zero =>
      have same : Int.fract p = p := Int.fract_eq_self.mpr ⟨nonneg, less⟩
      simpa [turned, same] using phase
  | succ count ih =>
      have next := advance_phase phase value positive
      have later := ih next (Int.fract_nonneg _) (Int.fract_lt_one _)
      -- The two sums differ by the whole turns that the first step drops.
      have shifted : Int.fract (Int.fract (p + f / rate) + count * f / rate) =
          Int.fract (p + (count + 1 : Nat) * f / rate) := by
        refine Int.fract_eq_fract.mpr ⟨-⌊p + f / rate⌋, ?_⟩
        rw [Int.fract]
        push_cast
        ring
      rw [shifted] at later
      exact later

variable [Scalar S] [RealNumbers S] [Narrowing R S] [RealNarrowing R S]

/-- A sample is the sine of an angle times the amplitude, narrowed; none of this enlarges it. -/
theorem sample_notAbove (inTurn : InTurn s.phase) (amplitude : Finite s.voice.amplitude) :
    NotAbove s.sample s.voice.amplitude := by
  obtain ⟨p, phase, nonneg, less⟩ := inTurn
  obtain ⟨a, amplitude⟩ := amplitude
  obtain ⟨whole, turn⟩ := RealArithmetic.turn (R := R)
  have small : |p| ≤ 1 := abs_le.mpr ⟨by linarith, less.le⟩
  obtain ⟨angle, angled, -⟩ := mul turn phase (.inr small)
  obtain ⟨u, sine, bounded⟩ := RealArithmetic.sin angled
  have widened : value? (Narrowing.widen s.voice.amplitude : R) = some a := by
    rw [RealNarrowing.widen, amplitude]
  obtain ⟨c, product, within, -⟩ := mul sine widened (.inl bounded)
  exact RealNarrowing.narrow product amplitude (within bounded)

end

end Segment

/-! ## Ramps -/

/-- The gain of a ramp at a share of its length. -/
def Ramp.level : Ramp → ℝ → ℝ
  | .fadeIn, share => share
  | .fadeOut, share => 1 - share

namespace Segment

section

variable [Scalar S] [RealNumbers S]

theorem gain_value (ramp : Ramp) {i length : Nat} (within : i < length) :
    value? (gain ramp i length : S) = some (ramp.level (i / length)) := by
  have share : value? (Scalar.ofNat i / Scalar.ofNat length : S) = some (i / length : ℝ) :=
    div_ofNat (by omega) (ofNat i)
  cases ramp with
  | fadeIn => exact share
  | fadeOut =>
      have one : value? (Scalar.ofNat 1 : S) = some 1 := by simpa using ofNat (R := S) 1
      exact sub one share

theorem abs_level_le_one (ramp : Ramp) {i length : Nat} (within : i < length) :
    |ramp.level (i / length : ℝ)| ≤ 1 := by
  have positive : (0 : ℝ) < length := by exact_mod_cast (by omega : 0 < length)
  have nonneg : (0 : ℝ) ≤ i / length := by positivity
  have upto : (i / length : ℝ) ≤ 1 := (div_le_one positive).mpr (by exact_mod_cast within.le)
  cases ramp with
  | fadeIn =>
      rw [Ramp.level, abs_of_nonneg nonneg]
      exact upto
  | fadeOut =>
      rw [Ramp.level, abs_of_nonneg (by linarith)]
      linarith

end

variable [Scalar S] [Narrowing R S]

/-- A frame of a ramp: the sample where the oscillator is by then, scaled. -/
def rampFrame (s : Segment R S) (ramp : Ramp) (frequency : R) (rate length i : Nat) : Frame S :=
  (Frame.mono (s.turned frequency rate (i + 1)).sample).scaled (gain ramp i length)

/-- The last frames of a ramp, from the turns before them on. -/
theorem rampAfter_eq (ramp : Ramp) (frequency : R) (rate length : Nat) {left : Nat}
    (within : left ≤ length) (s : Segment R S) (frames : Array (Frame S)) :
    rampAfter ramp frequency rate length left (s.turned frequency rate (length - left)) frames =
      (frames ++ ((List.range' (length - left) left).map
          (s.rampFrame ramp frequency rate length)).toArray,
        s.turned frequency rate length) := by
  -- With so many frames left, the others have turned the oscillator already.
  induction left generalizing frames with
  | zero => simp [rampAfter]
  | succ left ih =>
      have next : (s.turned frequency rate (length - (left + 1))).advance frequency rate =
          s.turned frequency rate (length - left) := by
        rw [show length - left = length - (left + 1) + 1 by omega, turned, turned,
          Function.iterate_succ_apply']
      have frame : (Frame.mono (s.turned frequency rate (length - left)).sample).scaled
          (gain ramp (length - (left + 1)) length) =
            s.rampFrame ramp frequency rate length (length - (left + 1)) := by
        rw [rampFrame, show length - (left + 1) + 1 = length - left by omega]
      rw [rampAfter, next, ih (by omega), frame, List.range'_succ,
        show length - (left + 1) + 1 = length - left by omega, List.map_cons, List.toArray_cons,
        Array.push_eq_append, Array.append_assoc]

/-- A ramp at a frequency is one frame for each turn of the oscillator. -/
theorem rampAt_eq {s : Segment R S} {t frequency : R} (heard : s.frequencyAt? t = some frequency)
    (ramp : Ramp) (rate room : Nat) :
    s.rampAt ramp t rate room =
      (((List.range (s.rampLength rate room)).map
          (s.rampFrame ramp frequency rate (s.rampLength rate room))).toArray,
        s.turned frequency rate (s.rampLength rate room)) := by
  have whole := rampAfter_eq ramp frequency rate (s.rampLength rate room) (Nat.le_refl _) s #[]
  rw [Nat.sub_self, ← List.range_eq_range', Array.empty_append] at whole
  rw [rampAt, heard]
  exact whole

theorem rampAt_of_silent {s : Segment R S} {t : R} (silent : s.frequencyAt? t = none) (ramp : Ramp)
    (rate room : Nat) : s.rampAt ramp t rate room = (#[], s) := by
  rw [rampAt, silent]

theorem rampAt_balanced (s : Segment R S) (ramp : Ramp) (t : R) (rate room : Nat) :
    ∀ frame ∈ (s.rampAt ramp t rate room).1, frame.left = frame.right := by
  intro frame member
  cases heard : s.frequencyAt? t with
  | none =>
      rw [rampAt_of_silent heard] at member
      simp at member
  | some frequency =>
      rw [rampAt_eq heard] at member
      obtain ⟨i, -, rfl⟩ := List.mem_map.mp (List.mem_toArray.mp member)
      rfl

/-- What a ramp pushes and leaves. Without a frequency that is nothing. Else it is one frame for
each turn of the oscillator, scaled by the gains, and the phase moves by these turns. The count of
rendered frames stays. -/
structure RampsTo [RealNumbers R] [RealNumbers S] (s : Segment R S) (ramp : Ramp) (t : R)
    (rate room : Nat) (frames : List (Frame S)) (after : Segment R S) : Prop where
  silent : s.frequencyAt? t = none → frames = [] ∧ after.phase = s.phase
  frames : ∀ frequency, s.frequencyAt? t = some frequency →
    frames = (List.range (s.rampLength rate room)).map
      (s.rampFrame ramp frequency rate (s.rampLength rate room))
  gains : ∀ i < s.rampLength rate room,
    value? (gain ramp i (s.rampLength rate room) : S) =
      some (ramp.level (i / s.rampLength rate room))
  phase : ∀ frequency f p, s.frequencyAt? t = some frequency → value? frequency = some f →
    value? s.phase = some p → 0 ≤ p → p < 1 →
    value? after.phase = some (Int.fract (p + s.rampLength rate room * f / rate))
  rendered : after.rendered = s.rendered

section

variable [RealArithmetic R] [RealNumbers S]

theorem rampAt_rampsTo (s : Segment R S) (ramp : Ramp) (t : R) {rate : Nat} (positive : 0 < rate)
    (room : Nat) :
    s.RampsTo ramp t rate room (s.rampAt ramp t rate room).1.toList
      (s.rampAt ramp t rate room).2 where
  silent silent := by rw [rampAt_of_silent silent]; exact ⟨rfl, rfl⟩
  frames frequency heard := by rw [rampAt_eq heard]
  gains i within := gain_value ramp within
  phase frequency f p heard value phase nonneg less := by
    rw [rampAt_eq heard]
    exact turned_phase phase nonneg less value positive _
  rendered := by
    cases heard : s.frequencyAt? t with
    | none => rw [rampAt_of_silent heard]
    | some frequency => rw [rampAt_eq heard, turned_rendered]

/-- That a segment plays or not is no part of its ramps. -/
theorem RampsTo.marked {s after : Segment R S} {ramp : Ramp} {t : R} {rate room : Nat}
    {frames : List (Frame S)} (rampsTo : s.RampsTo ramp t rate room frames after)
    (playing : Bool) : s.RampsTo ramp t rate room frames { after with playing } :=
  ⟨rampsTo.silent, rampsTo.frames, rampsTo.gains, rampsTo.phase, rampsTo.rendered⟩

end

/-- No frame of a ramp is beyond the amplitude. -/
theorem rampFrame_notAbove [RealArithmetic R] [RealNumbers S] [RealNarrowing R S]
    {s : Segment R S} {frequency : R} {rate : Nat} (inTurn : InTurn s.phase)
    (amplitude : Finite s.voice.amplitude) (finite : Finite frequency) (positive : 0 < rate)
    (ramp : Ramp) {i length : Nat} (within : i < length) :
    NotAbove (s.rampFrame ramp frequency rate length i).left s.voice.amplitude := by
  have voice := (s.turned_samePiece frequency rate (i + 1)).voice
  have sounding := sample_notAbove (turned_inTurn inTurn finite positive (i + 1))
    (voice ▸ amplitude)
  rw [voice] at sounding
  obtain ⟨c, a, sample, amplitude, small⟩ := sounding
  obtain ⟨d, product, -, smaller⟩ :=
    mul sample (gain_value ramp within) (.inr (abs_level_le_one ramp within))
  exact ⟨d, a, product, amplitude, (smaller (abs_level_le_one ramp within)).trans small⟩

/-! ## Content -/

/-- What holds of each frame of content, and of the segment after it, holds of all content. -/
theorem contentAfter_induct {rate : Nat} (so : Segment R S → Prop) (sounds : Frame S → Prop)
    (step : ∀ s, so s → sounds (s.contentFrame rate).1 ∧ so (s.contentFrame rate).2) (room : Nat)
    {s : Segment R S} {frames : Array (Frame S)} (now : so s)
    (before : ∀ frame ∈ frames, sounds frame) :
    (∀ frame ∈ (contentAfter rate room s frames).1, sounds frame) ∧
      so (contentAfter rate room s frames).2 := by
  induction room generalizing s frames with
  | zero => exact ⟨before, now⟩
  | succ room ih =>
      rw [contentAfter]
      split
      · exact ⟨before, now⟩
      · refine ih (step s now).2 fun frame member => ?_
        rcases Array.mem_push.mp member with old | rfl
        · exact before frame old
        · exact (step s now).1

theorem contentFrame_balanced (s : Segment R S) (rate : Nat) :
    (s.contentFrame rate).1.left = (s.contentFrame rate).1.right := by
  unfold contentFrame
  split <;> rfl

theorem content_balanced (s : Segment R S) (rate room : Nat) :
    ∀ frame ∈ (s.content rate room).1, frame.left = frame.right :=
  (contentAfter_induct (fun _ => True) (fun frame => frame.left = frame.right)
    (fun s _ => ⟨s.contentFrame_balanced rate, trivial⟩) room trivial (by simp)).1

section

variable [RealArithmetic R] [RealNumbers S] [RealNarrowing R S]

/-- The segment is a state of another one whose oscillator is within its turn. -/
structure Sounding (s now : Segment R S) : Prop where
  samePiece : now.SamePiece s
  inTurn : InTurn now.phase

omit [Scalar S] [Narrowing R S] [RealNumbers S] [RealNarrowing R S] in
theorem Sounding.heardFinitely {s now : Segment R S} (sounding : s.Sounding now)
    (heard : s.HeardFinitely) : now.HeardFinitely := by
  intro t frequency found
  rw [sounding.samePiece.frequencyAt?] at found
  exact heard t frequency found

variable {s now : Segment R S} {rate : Nat} (heard : s.HeardFinitely)
  (amplitude : Finite s.voice.amplitude) (positive : 0 < rate)

include heard amplitude positive

theorem Sounding.contentFrame (sounding : s.Sounding now) :
    NotAbove (now.contentFrame rate).1.left s.voice.amplitude ∧
      s.Sounding (now.contentFrame rate).2 := by
  have same := (now.contentFrame_samePiece rate).trans sounding.samePiece
  cases found : now.frequencyAt? (now.localTime rate) with
  | none =>
      have silent : now.contentFrame rate = (.silence, { now with rendered := now.rendered + 1 }) :=
        by rw [Segment.contentFrame, found]
      rw [silent] at same ⊢
      obtain ⟨a, amplitude⟩ := amplitude
      have zero : value? (Scalar.ofNat 0 : S) = some 0 := by simpa using ofNat (R := S) 0
      exact ⟨⟨0, a, zero, amplitude, by simp⟩, same, sounding.inTurn⟩
  | some frequency =>
      have next : now.contentFrame rate = (.mono (now.advance frequency rate).sample,
          { now.advance frequency rate with rendered := now.rendered + 1 }) := by
        rw [Segment.contentFrame, found]
        rfl
      rw [next] at same ⊢
      have finite := sounding.heardFinitely heard _ _ found
      have inTurn := advance_inTurn sounding.inTurn finite positive
      have voice : (now.advance frequency rate).voice = s.voice := sounding.samePiece.voice
      have sample := sample_notAbove inTurn (voice ▸ amplitude)
      rw [voice] at sample
      exact ⟨sample, same, inTurn⟩

theorem Sounding.contentAfter (sounding : s.Sounding now) (room : Nat) :
    (∀ frame ∈ (contentAfter rate room now #[]).1, NotAbove frame.left s.voice.amplitude) ∧
      s.Sounding (contentAfter rate room now #[]).2 :=
  contentAfter_induct s.Sounding (fun frame => NotAbove frame.left s.voice.amplitude)
    (fun _ sounding => sounding.contentFrame heard amplitude positive) room sounding (by simp)

theorem Sounding.rampAt (sounding : s.Sounding now) (ramp : Ramp) (t : R) (room : Nat) :
    (∀ frame ∈ (now.rampAt ramp t rate room).1, NotAbove frame.left s.voice.amplitude) ∧
      s.Sounding (now.rampAt ramp t rate room).2 := by
  have same := (now.rampAt_samePiece ramp t rate room).trans sounding.samePiece
  cases found : now.frequencyAt? t with
  | none =>
      rw [rampAt_of_silent found] at same ⊢
      exact ⟨by simp, same, sounding.inTurn⟩
  | some frequency =>
      rw [rampAt_eq found] at same ⊢
      have finite := sounding.heardFinitely heard _ _ found
      have voice := sounding.samePiece.voice
      refine ⟨fun frame member => ?_, same, turned_inTurn sounding.inTurn finite positive _⟩
      obtain ⟨i, within, rfl⟩ := List.mem_map.mp (List.mem_toArray.mp member)
      rw [← voice]
      exact rampFrame_notAbove sounding.inTurn (voice.symm ▸ amplitude) finite positive ramp
        (List.mem_range.mp within)

end

end Segment

end Tonegraph
