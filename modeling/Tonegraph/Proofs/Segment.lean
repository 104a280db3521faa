import Tonegraph.Arithmetic.FloatingPoint
import Tonegraph.Segment
/-!
# What creation makes of a segment, and what playing leaves alone in it

A segment is created from a formula whose only name is the time and from bounds in order, and from
nothing else. Starting, filling and stopping move the oscillator, count frames and set whether the
segment plays. They leave the text, the formula, the window and the voice as they are
(`Segment.SamePiece`), and filling leaves also whether it plays.
-/

set_option autoImplicit false

namespace Tonegraph

theorem Window.start_lt_stop_toInt (w : Window) : w.start.toInt < w.stop.toInt :=
  Int32.lt_iff_toInt_lt.mp w.start_lt_stop

/-- The length of a window is the difference of its bounds. -/
theorem Window.runTime_eq (w : Window) : (w.runTime : Int) = w.stop.toInt - w.start.toInt := by
  have ordered := w.start_lt_stop_toInt
  rw [runTime]
  omega

namespace Segment

variable {R S K : Type}

/-- Two segments with one text, formula, window and voice. -/
structure SamePiece (a b : Segment R S) : Prop where
  text : a.text = b.text
  formula : a.formula = b.formula
  window : a.window = b.window
  voice : a.voice = b.voice

theorem SamePiece.refl (a : Segment R S) : a.SamePiece a := ⟨rfl, rfl, rfl, rfl⟩

theorem SamePiece.trans {a b c : Segment R S} (first : a.SamePiece b) (second : b.SamePiece c) :
    a.SamePiece c :=
  ⟨first.text.trans second.text, first.formula.trans second.formula,
    first.window.trans second.window, first.voice.trans second.voice⟩

theorem SamePiece.runTime {a b : Segment R S} (same : a.SamePiece b) : a.runTime = b.runTime := by
  unfold Segment.runTime
  rw [same.window]

/-- A segment lasts some seconds, those between the bounds of its window. -/
theorem runTime_eq (s : Segment R S) :
    (s.runTime : Int) = s.window.stop.toInt - s.window.start.toInt ∧ 0 < s.runTime := by
  have ordered := s.window.start_lt_stop_toInt
  have length := s.window.runTime_eq
  rw [Segment.runTime]
  omega

theorem runTime_pos (s : Segment R S) : 0 < s.runTime := s.runTime_eq.2

/-- Only an idle segment is given another window, and nothing else of it changes. -/
theorem setWindow_eq_ok {s changed : Segment R S} {start stop : Int32}
    (windowed : s.setWindow start stop = .ok changed) :
    s.playing = false ∧ ∃ window, changed = { s with window } := by
  unfold setWindow at windowed
  split at windowed
  · cases windowed
  · rename_i idle
    split at windowed
    · cases windowed
    · cases windowed
      exact ⟨Bool.eq_false_iff.mpr idle, _, rfl⟩

theorem setWindow_playing {s changed : Segment R S} {start stop : Int32}
    (windowed : s.setWindow start stop = .ok changed) : changed.playing = false := by
  obtain ⟨idle, window, rfl⟩ := setWindow_eq_ok windowed
  exact idle

variable [Arithmetic R]

section Creation

variable {text : String} {formula : Formula R} {start stop : Int32} {voice : Voice R S}

/-- A foreign name is refused before the window is looked at. -/
theorem create_of_foreign {name : String} (foreign : formula.foreignName? = some name) :
    create text formula start stop voice = .error (.eval (.unbound name)) := by
  unfold create
  split
  · rename_i found first
    rw [foreign, Option.some.injEq] at first
    rw [first]
  · rename_i closed
    rw [foreign] at closed
    cases closed

theorem create_of_lt (closed : formula.foreignName? = none) (ordered : start < stop) :
    create text formula start stop voice =
      .ok ⟨text, formula, ⟨start, stop, ordered⟩, voice, false, 0, Scalar.ofNat 0, closed⟩ := by
  unfold create
  split
  · rename_i name foreign
    rw [closed] at foreign
    cases foreign
  · rw [Window.ofBounds, dif_pos ordered]

theorem create_of_not_lt (closed : formula.foreignName? = none) (empty : ¬start < stop) :
    create text formula start stop voice = .error (.window (.empty start stop)) := by
  unfold create
  split
  · rename_i name foreign
    rw [closed] at foreign
    cases foreign
  · rw [Window.ofBounds, dif_neg empty]

end Creation

variable [Scalar S] [Narrowing R S]

theorem contentFrame_samePiece (s : Segment R S) (rate : Nat) :
    (s.contentFrame rate).2.SamePiece s := by
  unfold contentFrame
  split <;> exact ⟨rfl, rfl, rfl, rfl⟩

theorem contentFrame_playing (s : Segment R S) (rate : Nat) :
    (s.contentFrame rate).2.playing = s.playing := by
  unfold contentFrame
  split <;> rfl

theorem contentAfter_samePiece (rate room : Nat) (s : Segment R S) (frames : Array (Frame S)) :
    (contentAfter rate room s frames).2.SamePiece s := by
  induction room generalizing s frames with
  | zero => exact .refl s
  | succ room ih =>
      simp only [contentAfter]
      split
      · exact .refl s
      · exact (ih _ _).trans (contentFrame_samePiece s rate)

theorem contentAfter_playing (rate room : Nat) (s : Segment R S) (frames : Array (Frame S)) :
    (contentAfter rate room s frames).2.playing = s.playing := by
  induction room generalizing s frames with
  | zero => rfl
  | succ room ih =>
      simp only [contentAfter]
      split
      · rfl
      · exact (ih _ _).trans (contentFrame_playing s rate)

theorem rampAfter_samePiece (ramp : Ramp) (frequency : R) (rate length left : Nat)
    (s : Segment R S) (frames : Array (Frame S)) :
    (rampAfter ramp frequency rate length left s frames).2.SamePiece s := by
  induction left generalizing s frames with
  | zero => exact .refl s
  | succ left ih => exact (ih _ _).trans ⟨rfl, rfl, rfl, rfl⟩

theorem rampAfter_size (ramp : Ramp) (frequency : R) (rate length left : Nat) (s : Segment R S)
    (frames : Array (Frame S)) :
    (rampAfter ramp frequency rate length left s frames).1.size = frames.size + left := by
  induction left generalizing s frames with
  | zero => rfl
  | succ left ih =>
      rw [rampAfter, ih, Array.size_push]
      omega

theorem rampAt_samePiece (s : Segment R S) (ramp : Ramp) (t : R) (rate room : Nat) :
    (s.rampAt ramp t rate room).2.SamePiece s := by
  unfold rampAt
  split
  · exact .refl s
  · exact rampAfter_samePiece _ _ _ _ _ _ _

variable [FrameSink K S]

theorem started_samePiece (s : Segment R S) (sink : K) : (s.started sink).1.SamePiece s := by
  have ramp := rampAt_samePiece { s with rendered := 0, phase := Scalar.ofNat 0 } .fadeIn
    (Scalar.ofInt s.window.start.toInt) (FrameSink.rate (FrameSink.start sink))
    (FrameSink.available (FrameSink.start sink))
  exact ⟨ramp.text, ramp.formula, ramp.window, ramp.voice⟩

theorem stopped_samePiece (s : Segment R S) (sink : K) : (s.stopped sink).1.SamePiece s := by
  have ramp := rampAt_samePiece s .fadeOut (s.localTime (FrameSink.rate sink))
    (FrameSink.rate sink) (FrameSink.available sink)
  exact ⟨ramp.text, ramp.formula, ramp.window, ramp.voice⟩

theorem fill_samePiece (s : Segment R S) (sink : K) : (s.fill sink).2.1.SamePiece s := by
  unfold fill
  split
  · exact contentAfter_samePiece _ _ _ _
  · exact .refl s

@[simp] theorem started_playing (s : Segment R S) (sink : K) :
    (s.started sink).1.playing = true := rfl

@[simp] theorem stopped_playing (s : Segment R S) (sink : K) :
    (s.stopped sink).1.playing = false := rfl

@[simp] theorem fill_playing (s : Segment R S) (sink : K) :
    (s.fill sink).2.1.playing = s.playing := by
  unfold fill
  split
  · exact contentAfter_playing _ _ _ _
  · rfl

/-! ## Two small segments -/

/-- The formula `t` on the window from 0 to 2, idle. -/
def twoSeconds : Segment Float Float32 where
  text := "t"
  formula := .named "t"
  window := ⟨0, 2, by decide⟩
  voice := .standard
  playing := false
  rendered := 0
  phase := Scalar.ofNat 0
  closed := by decide

/-- The formula `t` on the window from -1 to 1, with ramps of half a second, idle. -/
def acrossZero : Segment Float Float32 where
  text := "t"
  formula := .named "t"
  window := ⟨-1, 1, by decide⟩
  voice := ⟨0.5, 1, .piano⟩
  playing := false
  rendered := 0
  phase := Scalar.ofNat 0
  closed := by decide

end Segment

end Tonegraph
