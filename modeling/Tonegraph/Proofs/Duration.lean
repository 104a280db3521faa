import Tonegraph.Proofs.Arithmetic.Rounded
import Tonegraph.Proofs.Content
import Tonegraph.Sink.Ring
/-!
# A segment lasts as long as its window, however times round

The time of a frame is its number divided by the rate, counted from the start of the window. Both
operations round. Windows lie within the integers of 32 bits, so the quotient is off by at most
`2 ^ 32 / 2 ^ 53` of a second and the sum by a little more than `2 ^ 31 / 2 ^ 53`. Up to 192000
frames a second a frame is longer than the two together: the last frame of a window is still told
from its end, which is an integer and does not round.
-/

set_option autoImplicit false

namespace Tonegraph

namespace Rounding

variable (ρ : Rounding) {w : Window} {rate frame : Nat}

/-- The time of a frame of a window, where the quotient and the sum round. -/
def time (w : Window) (rate frame : Nat) : ℚ :=
  ρ.round (w.start.toInt + ρ.round (frame / rate))

/-- How far a number of some size is moved. -/
theorem near_of_le (x : ℚ) {size : ℚ} (most : |x| ≤ size) : |ρ.round x - x| ≤ size / 2 ^ 53 :=
  (ρ.near x).trans (by gcongr)

/-- The bounds of a window and its length, as numbers that round. -/
theorem window_bounds (w : Window) :
    (-2 ^ 31 : ℚ) ≤ w.start.toInt ∧ (w.stop.toInt : ℚ) ≤ 2 ^ 31 ∧
      (w.runTime : ℚ) = w.stop.toInt - w.start.toInt := by
  have low := w.start.le_toInt
  have high := w.stop.toInt_lt
  refine ⟨by exact_mod_cast low, by exact_mod_cast high.le, by exact_mod_cast w.runTime_eq⟩

/-- Every frame of a window comes before its end: it is a whole frame before it, and that is more
than what the quotient and the sum can be off. -/
theorem time_lt_stop (slow : rate ≤ 192000) (early : frame < w.runTime * rate) :
    ρ.time w rate frame < w.stop.toInt := by
  obtain ⟨low, high, length⟩ := window_bounds w
  have positive : (0 : ℚ) < rate := by
    exact_mod_cast Nat.pos_of_ne_zero fun none => by simp [none] at early
  have period : (1 / 192000 : ℚ) ≤ 1 / rate :=
    one_div_le_one_div_of_le positive (by exact_mod_cast slow)
  have whole : (frame / rate : ℚ) + 1 / rate ≤ w.runTime := by
    rw [← add_div, div_le_iff₀ positive]
    exact_mod_cast early
  have nonneg : (0 : ℚ) ≤ frame / rate := by positivity
  have span : |(frame / rate : ℚ)| ≤ 2 ^ 32 := abs_le.mpr ⟨by linarith, by linarith⟩
  have quotient := abs_le.mp (ρ.near_of_le _ span)
  have place : |(w.start.toInt + ρ.round (frame / rate) : ℚ)| ≤ 2 ^ 31 + 1 :=
    abs_le.mpr ⟨by linarith, by linarith⟩
  have sum := abs_le.mp (ρ.near_of_le _ place)
  rw [time]
  linarith

/-- The frame after the last one of a window is at its end: the quotient is the length of the window
and the sum is its end, which are small integers. -/
theorem time_eq_stop (positive : 0 < rate) :
    ρ.time w rate (w.runTime * rate) = w.stop.toInt := by
  have low := w.start.le_toInt
  have high := w.stop.toInt_lt
  have ordered := w.start_lt_stop_toInt
  have length := w.runTime_eq
  have quotient : ((w.runTime * rate : Nat) / rate : ℚ) = (w.runTime : Int) := by
    rw [Nat.cast_mul, mul_div_cancel_right₀ _ (by exact_mod_cast positive.ne'), Int.cast_natCast]
  rw [time, quotient, ρ.whole _ (by rw [abs_le]; omega), ← Int.cast_add,
    ρ.whole _ (by rw [abs_le]; omega)]
  congr 1
  omega

/-- The rounding that moves every fraction up by as much as a rounding may. -/
def furthest : Rounding where
  round x := if x.den = 1 then x else x + |x| / 2 ^ 53
  near x := by
    split
    · rw [sub_self, abs_zero]
      positivity
    · rw [add_sub_cancel_left, abs_of_nonneg (by positivity)]
  whole n _ := if_pos (Rat.den_intCast n)

end Rounding

namespace Segment

section

variable {ρ : Rounding} {R S K : Type} [Arithmetic R] [RoundedTimes ρ R] {rate : Nat}

include ρ

/-- The times of the first frames are those of the rounding, as long as they can be counted
exactly. -/
theorem timeOf_eq (s : Segment R S) (positive : 0 < rate) (slow : rate ≤ 2 ^ 53) {frame : Nat}
    (few : frame ≤ 2 ^ 53) :
    s.timeOf rate frame = RoundedTimes.ofRat (ρ.time s.window rate frame) := by
  have low := s.window.start.le_toInt
  have high := s.window.start.toInt_lt
  rw [timeOf, Scalar.ofNat, Scalar.ofNat, RoundedTimes.ofInt, RoundedTimes.ofInt,
    RoundedTimes.ofInt, ρ.whole _ (by rw [abs_le]; omega), ρ.whole _ (by rw [abs_le]; omega),
    ρ.whole _ (by rw [abs_le]; omega),
    RoundedTimes.div _ _ (by exact_mod_cast positive.ne'), RoundedTimes.add]
  rfl

/-- The content ends behind the last frame of the window and not at a frame of it. -/
theorem endedAt_iff_of_le (s : Segment R S) (positive : 0 < rate) (slow : rate ≤ 192000)
    {frame : Nat} (within : frame ≤ s.runTime * rate) :
    s.EndedAt rate frame ↔ frame = s.runTime * rate := by
  have high := s.window.stop.toInt_lt
  have low := s.window.start.le_toInt
  have length := s.window.runTime_eq
  have most : s.runTime * rate ≤ 2 ^ 32 * 192000 :=
    Nat.mul_le_mul (by rw [Segment.runTime]; omega) slow
  rw [EndedAt, s.timeOf_eq positive (by omega) (by omega), RoundedTimes.ofInt,
    ρ.whole _ (by rw [abs_le]; omega), RoundedTimes.le_iff]
  obtain rfl | early := eq_or_lt_of_le within
  · exact iff_of_true (ρ.time_eq_stop positive).ge rfl
  · exact iff_of_false (ρ.time_lt_stop slow early).not_ge early.ne

/-- **A segment lasts as long as its window.** Let times round, in whatever way, and let there be
up to 192000 frames a second. The content of a segment is at its end when so many frames have been
rendered as there are in the seconds of its window, and at no number of frames before. So a segment
that has been started and then fills any sinks of that rate, one after the other, pushes never more
frames than that, and has come to the end when it has pushed them all. -/
theorem started_lasts [Scalar S] [Narrowing R S] [FrameSink K S] {L : Type} [FrameSink L S]
    (s : Segment R S) (positive : 0 < rate) (slow : rate ≤ 192000) :
    (s.rendered < s.runTime * rate → s.isExhausted rate = false) ∧
    (s.rendered = s.runTime * rate → s.isExhausted rate = true) ∧
    ∀ (idle : Segment R S) (sink₀ sink₁ : L), idle.start sink₀ = .ok (s, sink₁) →
      ∀ sinks : List K, (∀ sink ∈ sinks, FrameSink.rate sink = rate) →
        (s.pushes sinks).flatten.length ≤ s.runTime * rate ∧
        ((s.afterFills sinks).isExhausted rate = true ↔
          (s.pushes sinks).flatten.length = s.runTime * rate) := by
  refine ⟨fun early => ?_, fun last => ?_, fun idle sink₀ sink₁ starts sinks rates => ?_⟩
  · rw [← Bool.not_eq_true, isExhausted_iff, s.endedAt_iff_of_le positive slow early.le]
    exact early.ne
  · rwa [isExhausted_iff, s.endedAt_iff_of_le positive slow last.le]
  · obtain ⟨playing, rendered⟩ := start_eq_ok starts
    obtain ⟨total, after, pushed, before⟩ :=
      played_fills playing sinks rates 0 fun frame early => absurd early (Nat.not_lt_zero _)
    rw [played_zero rendered, Nat.zero_add] at after
    rw [played_zero rendered] at pushed
    rw [Nat.zero_add] at before
    -- The frame behind the last one of the window has not been pushed.
    have within : total ≤ s.runTime * rate := by
      by_contra beyond
      exact before _ (Nat.lt_of_not_le beyond)
        ((s.endedAt_iff_of_le positive slow le_rfl).mpr rfl)
    rw [pushed, List.length_map, List.length_range', after, played_isExhausted]
    exact ⟨within, s.endedAt_iff_of_le positive slow within⟩

end

/-- Thirds of seconds are moved, and the window from -1 to 1 has its six frames all the same. -/
theorem started_lasts_thirds :
    let idle : Segment (Rounded .furthest) ℚ :=
      ⟨"t", .named "t", ⟨-1, 1, by decide⟩, ⟨Scalar.ofNat 0, 1, .piano⟩, false, 0,
        Scalar.ofNat 0, by decide⟩
    let s := (idle.started (Ring.ofCapacity 3 0 : Ring ℚ)).1
    let sinks : List (Ring ℚ) := [.ofCapacity 3 4, .ofCapacity 3 5]
    s.timeOf 3 1 ≠ ⟨⟨some (-1 + 1 / 3)⟩⟩ ∧ s.isExhausted 3 = false ∧
      (s.afterFills sinks).isExhausted 3 = true ∧ (s.pushes sinks).flatten.length = 6 := by
  intro idle s sinks
  have moved : s.timeOf 3 1 ≠ ⟨⟨some (-1 + 1 / 3)⟩⟩ := by decide +kernel
  have ended : (s.afterFills sinks).isExhausted 3 = true := by decide +kernel
  have rates : ∀ sink ∈ sinks, FrameSink.rate sink = 3 := by decide
  have frames : s.runTime * 3 = 6 := by decide +kernel
  obtain ⟨early, -, counted⟩ :=
    s.started_lasts (K := Ring ℚ) (L := Ring ℚ) (by decide : 0 < 3) (by decide)
  obtain ⟨-, all⟩ := counted idle _ _ rfl sinks rates
  exact ⟨moved, early (by decide +kernel), ended, (all.mp ended).trans frames⟩

end Segment

end Tonegraph
