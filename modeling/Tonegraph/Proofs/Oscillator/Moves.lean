import Tonegraph.Proofs.Oscillator
/-!
# Playing a segment in any order

A segment is started, filled from and stopped in any order, each time with another sink; what does
not apply is refused. `Segment.after_oscillates` says how the oscillator fares: it stays in its turn
and within the amplitude, if the frequencies are finite, and ramps have the frames and gains that
they should.

A frequency is a product with a power of two. It is finite where these are
(`Segment.heardFinitely_of_tuning`), but nothing refuses a frequency that is not, and a keyboard can
reach 1024 octaves above its tuning key: `PartialReal.steady_overflows`.
-/

set_option autoImplicit false

namespace Tonegraph

open RealNumbers

variable {R S K : Type} [Arithmetic R] [Scalar S] [Narrowing R S] [FrameSink K S]

/-! ## Moves -/

/-- A call on a segment, and the sink that it plays into. -/
inductive Move (K : Type) where
  | start (sink : K)
  | fill (sink : K)
  | stop (sink : K)

namespace Move

/-- The sink as the segment finds it; a start begins output first. -/
def sink : Move K → K
  | .start sink => FrameSink.start sink
  | .fill sink | .stop sink => sink

/-- The frames per second that the segment plays at. -/
def rate (move : Move K) : Nat := FrameSink.rate move.sink

/-- The frames that there is room for. -/
def room (move : Move K) : Nat := FrameSink.available move.sink

/-- The segment and the sink after a move. A move that is refused leaves both. -/
def on (move : Move K) (s : Segment R S) : Segment R S × K :=
  match move with
  | .start sink => (s.start sink).toOption.getD (s, sink)
  | .fill sink => (s.fill sink).2
  | .stop sink => (s.stop sink).toOption.getD (s, sink)

/-- The same move with a blank tape before the sink. -/
def taped : Move K → Move (Tape K S)
  | .start sink => .start (.blank sink)
  | .fill sink => .fill (.blank sink)
  | .stop sink => .stop (.blank sink)

/-- The frames that a move pushes. -/
def pushed (move : Move K) (s : Segment R S) : List (Frame S) := (move.taped.on s).2.frames

section

variable {s : Segment R S} (sink : K)

theorem on_start (idle : s.playing = false) :
    let ramp := s.fresh.rampAt .fadeIn (Scalar.ofInt s.window.start.toInt) (start sink).rate
      (start sink).room
    ((start sink).on s).1 = { ramp.2 with playing := true } ∧
      (start sink).pushed s = ramp.1.toList := by
  have starts : s.start sink = .ok (s.started sink) := if_neg (by simp [idle])
  have tape : s.start (Tape.blank sink : Tape K S) = .ok (s.started (Tape.blank sink)) :=
    if_neg (by simp [idle])
  simp only [pushed, taped, on, starts, tape, Except.toOption, Option.getD_some, Segment.started,
    Tape.pushAll_eq]
  exact ⟨rfl, List.nil_append _⟩

theorem on_stop (playing : s.playing = true) :
    let ramp := s.rampAt .fadeOut (s.localTime (stop sink).rate) (stop sink).rate (stop sink).room
    ((stop sink).on s).1 = { ramp.2 with playing := false } ∧
      (stop sink).pushed s = ramp.1.toList := by
  simp only [pushed, taped, on, Segment.stop, playing, if_true, Except.toOption, Option.getD_some,
    Segment.stopped, Tape.pushAll_eq]
  exact ⟨rfl, List.nil_append _⟩

theorem on_fill (playing : s.playing = true) :
    let content := s.content (fill sink).rate (fill sink).room
    ((fill sink).on s).1 = content.2 ∧ (fill sink).pushed s = content.1.toList := by
  simp only [pushed, taped, on, Segment.fill, playing, if_true, Tape.pushAll_eq]
  exact ⟨rfl, List.nil_append _⟩

/-- A move does not apply: a start while playing, or a fill or a stop otherwise. -/
def Idles (s : Segment R S) : Move K → Prop
  | .start _ => s.playing = true
  | .fill _ | .stop _ => s.playing = false

theorem on_of_idles {move : Move K} (idles : move.Idles s) :
    (move.on s).1 = s ∧ move.pushed s = [] := by
  cases move with
  | start sink =>
      have playing : s.playing = true := idles
      simp [pushed, taped, on, Segment.start, playing, Except.toOption, Tape.blank]
  | fill sink =>
      have idle : s.playing = false := idles
      simp [pushed, taped, on, Segment.fill, idle, Tape.blank]
  | stop sink =>
      have idle : s.playing = false := idles
      simp [pushed, taped, on, Segment.stop, idle, Except.toOption, Tape.blank]

/-- What ramps and content keep, and say of their frames, holds of every move. -/
theorem on_induct (so : Segment R S → Prop) (sounds : Frame S → Prop) {move : Move K}
    (begun : ∀ s, so s → so s.fresh) (marked : ∀ s playing, so s → so { s with playing })
    (ramp : ∀ s dir t, so s →
      (∀ frame ∈ (s.rampAt dir t move.rate move.room).1, sounds frame) ∧
        so (s.rampAt dir t move.rate move.room).2)
    (content : ∀ s, so s →
      (∀ frame ∈ (s.content move.rate move.room).1, sounds frame) ∧
        so (s.content move.rate move.room).2)
    (now : so s) : (∀ frame ∈ move.pushed s, sounds frame) ∧ so (move.on s).1 := by
  have idly (idles : move.Idles s) :
      (∀ frame ∈ move.pushed s, sounds frame) ∧ so (move.on s).1 := by
    rw [(on_of_idles idles).1, (on_of_idles idles).2]
    exact ⟨List.forall_mem_nil _, now⟩
  cases move with
  | start sink =>
      cases playing : s.playing with
      | true => exact idly playing
      | false =>
          obtain ⟨sounding, kept⟩ := ramp s.fresh .fadeIn (Scalar.ofInt s.window.start.toInt)
            (begun s now)
          rw [(on_start sink playing).1, (on_start sink playing).2]
          exact ⟨by simpa using sounding, marked _ true kept⟩
  | fill sink =>
      cases playing : s.playing with
      | true =>
          obtain ⟨sounding, kept⟩ := content s now
          rw [(on_fill sink playing).1, (on_fill sink playing).2]
          exact ⟨by simpa using sounding, kept⟩
      | false => exact idly playing
  | stop sink =>
      cases playing : s.playing with
      | true =>
          obtain ⟨sounding, kept⟩ := ramp s .fadeOut (s.localTime (stop sink).rate) now
          rw [(on_stop sink playing).1, (on_stop sink playing).2]
          exact ⟨by simpa using sounding, marked _ false kept⟩
      | false => exact idly playing

/-- Both channels of what is pushed are the same. -/
theorem pushed_balanced (move : Move K) (s : Segment R S) :
    ∀ frame ∈ move.pushed s, frame.left = frame.right :=
  (on_induct (fun _ => True) (fun frame => frame.left = frame.right) (fun _ _ => trivial)
    (fun _ _ _ => trivial) (fun s dir t _ => ⟨s.rampAt_balanced dir t _ _, trivial⟩)
    (fun s _ => ⟨s.content_balanced _ _, trivial⟩) trivial).1

end

end Move

namespace Segment

/-- The segment after one move after the other. -/
def after (s : Segment R S) (moves : List (Move K)) : Segment R S :=
  moves.foldl (fun s move => (move.on s).1) s

end Segment

/-! ## The invariant -/

section

variable [RealArithmetic R] [RealNumbers S] [RealNarrowing R S] {s : Segment R S}
  (heard : s.HeardFinitely) (amplitude : Finite s.voice.amplitude)

include heard amplitude

/-- A move keeps the oscillator within its turn, and pushes nothing beyond the amplitude. -/
theorem Move.on_sounding {now : Segment R S} {move : Move K} (positive : 0 < move.rate)
    (sounding : s.Sounding now) :
    (∀ frame ∈ move.pushed now, NotAbove frame.left s.voice.amplitude) ∧
      s.Sounding (move.on now).1 := by
  refine Move.on_induct s.Sounding (fun frame => NotAbove frame.left s.voice.amplitude)
    (fun now sounding => ?_) (fun now playing sounding => ?_)
    (fun now dir t sounding => sounding.rampAt heard amplitude positive dir t _)
    (fun now sounding => sounding.contentAfter heard amplitude positive _) sounding
  · obtain ⟨⟨text, formula, window, voice⟩, -⟩ := sounding
    exact ⟨⟨text, formula, window, voice⟩, inTurn_zero⟩
  · obtain ⟨⟨text, formula, window, voice⟩, inTurn⟩ := sounding
    exact ⟨⟨text, formula, window, voice⟩, inTurn⟩

/-- So it is after any moves. -/
theorem Segment.after_sounding (moves : List (Move K)) (rates : ∀ move ∈ moves, 0 < move.rate)
    {now : Segment R S} (sounding : s.Sounding now) : s.Sounding (now.after moves) := by
  induction moves generalizing now with
  | nil => exact sounding
  | cons move rest ih =>
      have next := Move.on_sounding heard amplitude (rates move List.mem_cons_self) sounding
      exact ih (fun move member => rates move (List.mem_cons_of_mem _ member)) next.2

end

omit [Scalar S] [Narrowing R S] in
/-- Where powers of two and products are finite, a finite tuning gives finite frequencies. -/
theorem Segment.heardFinitely_of_tuning [RealArithmetic R] {s : Segment R S}
    (powers : ∀ x : R, Finite x → Finite (Arithmetic.exp2 x))
    (products : ∀ x y : R, Finite x → Finite y → Finite (x * y))
    (tuning : Finite s.voice.keyboard.tuningFrequency) : s.HeardFinitely := by
  intro t frequency heard
  obtain ⟨value, -, pitched⟩ := Option.bind_eq_some_iff.mp heard
  obtain ⟨key, placed, rfl⟩ := Option.map_eq_some_iff.mp pitched
  have finite : Finite key := by
    simp only [Keyboard.keyIndex?] at placed
    split at placed
    · split at placed
      · next finite =>
          cases placed
          exact (RealArithmetic.isFinite_iff _).mp finite
      · cases placed
    · cases placed
  obtain ⟨k, key⟩ := finite
  have octaves := div_ofNat (by decide : 0 < 12) (sub key (ofInt s.voice.keyboard.tuningKey.toInt))
  exact products _ _ tuning (powers _ ⟨_, octaves⟩)

theorem Move.on_samePiece (move : Move K) (s : Segment R S) : (move.on s).1.SamePiece s := by
  refine (Move.on_induct (fun now => now.SamePiece s) (fun _ => True) (fun now same => ?_)
    (fun now playing same => ?_) (fun now dir t same => ⟨fun _ _ => trivial, ?_⟩)
    (fun now same => ⟨fun _ _ => trivial, ?_⟩) (.refl s)).2
  · exact ⟨same.text, same.formula, same.window, same.voice⟩
  · exact ⟨same.text, same.formula, same.window, same.voice⟩
  · exact (Segment.rampAt_samePiece now dir t _ _).trans same
  · exact (Segment.contentAfter_samePiece _ _ now #[]).trans same

theorem Segment.after_samePiece (s : Segment R S) (moves : List (Move K)) :
    (s.after moves).SamePiece s := by
  induction moves generalizing s with
  | nil => exact .refl s
  | cons move rest ih => exact (ih (move.on s).1).trans (move.on_samePiece s)

/-- **The oscillator and its ramps.** Let a segment with a finite amplitude begin with its phase in
`[0, 1)`, and be started, filled from and stopped in any order, each time with another sink. As long
as all its frequencies are finite, which a finite tuning is enough for where powers of two and
products are finite, its phase stays in `[0, 1)` and no frame pushed is beyond the amplitude. In any
case both channels of a frame are the same; a start and a stop push a ramp at the frequency of the
first and of the local time, if there is one, with as many frames as the fade says and there is room
for; and the phase moves by these frames and the count of rendered frames does not. -/
theorem Segment.after_oscillates [RealArithmetic R] [RealNumbers S] [RealNarrowing R S]
    {s : Segment R S} (begins : InTurn s.phase) (amplitude : Finite s.voice.amplitude)
    (moves : List (Move K)) (rates : ∀ move ∈ moves, 0 < move.rate) :
    let now := s.after moves
    ((∀ x : R, Finite x → Finite (Arithmetic.exp2 x)) →
      (∀ x y : R, Finite x → Finite y → Finite (x * y)) →
      Finite s.voice.keyboard.tuningFrequency → s.HeardFinitely) ∧
    (s.HeardFinitely → InTurn now.phase) ∧
    ∀ move : Move K, 0 < move.rate →
      (s.HeardFinitely → ∀ frame ∈ move.pushed now, NotAbove frame.left s.voice.amplitude) ∧
      (∀ frame ∈ move.pushed now, frame.left = frame.right) ∧
      (∀ sink, move = .start sink → now.playing = false →
        now.fresh.RampsTo .fadeIn (Scalar.ofInt s.window.start.toInt) move.rate move.room
          (move.pushed now) (move.on now).1) ∧
      (∀ sink, move = .stop sink → now.playing = true →
        now.RampsTo .fadeOut (now.localTime move.rate) move.rate move.room (move.pushed now)
          (move.on now).1) ∧
      now.rampLength move.rate move.room =
        min (Scalar.truncate 0 (UInt64.size - 1) (s.voice.fade * Scalar.ofNat move.rate)).toNat
          move.room ∧
      ∀ length : ℝ, value? (s.voice.fade * Scalar.ofNat move.rate) = some length →
        move.room < UInt64.size →
          now.rampLength move.rate move.room = min ⌊length⌋₊ move.room := by
  intro now
  have same : now.SamePiece s := s.after_samePiece moves
  have sounding (heard : s.HeardFinitely) : s.Sounding now :=
    Segment.after_sounding heard amplitude moves rates ⟨.refl s, begins⟩
  have lengths (rate room : Nat) : now.rampLength rate room =
      min (Scalar.truncate 0 (UInt64.size - 1) (s.voice.fade * Scalar.ofNat rate)).toNat room := by
    rw [Segment.rampLength, same.voice]
  refine ⟨Segment.heardFinitely_of_tuning, fun heard => (sounding heard).inTurn,
    fun move positive => ⟨fun heard => ?_, move.pushed_balanced now, ?_, ?_, lengths _ _, ?_⟩⟩
  · exact (Move.on_sounding heard amplitude positive (sounding heard)).1
  · rintro sink rfl idle
    obtain ⟨after, pushed⟩ := Move.on_start sink idle
    rw [after, pushed, ← same.window]
    exact (now.fresh.rampAt_rampsTo _ _ positive _).marked true
  · rintro sink rfl playing
    obtain ⟨after, pushed⟩ := Move.on_stop sink playing
    rw [after, pushed]
    exact (now.rampAt_rampsTo _ _ positive _).marked false
  · intro length value fits
    exact (lengths _ _).trans (truncate_toNat value fits)

/-! ## Two keyboards -/

namespace PartialReal

variable {k : Keyboard PartialReal}

/-- A value that needs no modulo has the place above the zero key that it says. -/
theorem keyIndex?_of_within {v : ℝ} (nonneg : 0 ≤ v + (k.zeroKey - k.firstKey).toInt)
    (less : v + (k.zeroKey - k.firstKey).toInt < (k.lastKey - k.firstKey).toInt) :
    k.keyIndex? ⟨some v⟩ =
      some ⟨some (v + (k.zeroKey - k.firstKey).toInt + k.firstKey.toInt)⟩ := by
  have place : Arithmetic.floorMod (⟨some v⟩ + Scalar.ofInt (k.zeroKey - k.firstKey).toInt)
      (Scalar.ofInt (k.lastKey - k.firstKey).toInt) =
        (⟨some (v + (k.zeroKey - k.firstKey).toInt)⟩ : PartialReal) :=
    floorMod_of_within nonneg less
  simp only [Keyboard.keyIndex?, place]
  rfl

/-- From 1024 octaves above the tuning key on there is no frequency in numbers. -/
theorem keyFrequency_eq {f x : ℝ} (tuning : k.tuningFrequency = ⟨some f⟩) :
    k.keyFrequency ⟨some x⟩ =
      ⟨if (x - k.tuningKey.toInt) / 12 < 1024 then
        some (f * 2 ^ ((x - k.tuningKey.toInt) / 12)) else none⟩ := by
  have twelve : (⟨some x⟩ - Scalar.ofInt k.tuningKey.toInt : PartialReal) / Scalar.ofNat 12 =
      ⟨some ((x - k.tuningKey.toInt) / 12)⟩ := by
    have value := div_ofNat (R := PartialReal) (n := 12) (x := ⟨some x⟩ - Scalar.ofInt _)
      (by decide) (sub rfl (ofInt k.tuningKey.toInt))
    rw [Nat.cast_ofNat] at value
    exact eq_of_value value
  rw [Keyboard.keyFrequency, twelve, tuning]
  show (⟨(some f).bind fun a => Option.bind (if _ < (1024 : ℝ) then _ else none) fun b =>
    some (a * b)⟩ : PartialReal) = _
  split <;> rfl

/-- One value for three seconds, on a keyboard that is tuned to 440 at key 49, with ramps of a
second. -/
noncomputable def steady (lastKey : Int32) (value : ℝ) : Segment PartialReal PartialReal where
  text := "c"
  formula := .number ⟨some value⟩
  window := ⟨0, 3, by decide⟩
  voice := ⟨Scalar.ofNat 1, Scalar.ofNat 1, ⟨1, lastKey, 49, Scalar.ofNat 440, 40⟩⟩
  playing := false
  rendered := 0
  phase := Scalar.ofNat 0
  closed := rfl

theorem steady_frequencyAt? {lastKey : Int32} {value : ℝ} (nonneg : 0 ≤ value + 39)
    (less : value + 39 < (lastKey - 1).toInt) (t : PartialReal) :
    (steady lastKey value).frequencyAt? t =
      some ⟨if (value - 9) / 12 < 1024 then some (440 * 2 ^ ((value - 9) / 12)) else none⟩ := by
  have shift : (((40 : Int32) - 1).toInt : ℝ) = 39 := by
    rw [show ((40 : Int32) - 1).toInt = 39 by decide]
    norm_num
  have placed : (steady lastKey value).voice.keyboard.keyIndex? ⟨some value⟩ =
      some ⟨some (value + 39 + (1 : Int32).toInt)⟩ := by
    rw [keyIndex?_of_within] <;> simp only [steady, shift]
    · exact nonneg
    · exact less
  have tuning : (steady lastKey value).voice.keyboard.tuningFrequency = ⟨some 440⟩ :=
    eq_of_value ((ofNat (R := PartialReal) 440).trans (by norm_num))
  have octaves : (value + 39 + (1 : Int32).toInt - (49 : Int32).toInt : ℝ) / 12 =
      (value - 9) / 12 := by
    rw [show (1 : Int32).toInt = 1 by decide, show (49 : Int32).toInt = 49 by decide]
    push_cast
    ring
  show ((steady lastKey value).voice.keyboard.keyIndex? ⟨some value⟩).map _ = _
  rw [placed, Option.map_some, keyFrequency_eq tuning]
  show some (⟨if (_ - ((49 : Int32).toInt : ℝ)) / 12 < 1024 then
    some (440 * 2 ^ ((_ - ((49 : Int32).toInt : ℝ)) / 12)) else none⟩ : PartialReal) = _
  rw [octaves]

/-- One step at no frequency, and the phase is lost. -/
theorem advance_none (s : Segment PartialReal PartialReal) (rate : Nat) :
    (s.advance ⟨none⟩ rate).phase = ⟨none⟩ := by
  have lost : s.phase + ⟨none⟩ / Scalar.ofNat rate = ⟨none⟩ := congrArg mk (Option.bind_fun_none _)
  rw [Segment.advance]
  simp only [lost]
  rfl

theorem sample_none {s : Segment PartialReal PartialReal} (lost : s.phase = ⟨none⟩) :
    (s.sample : PartialReal) = ⟨none⟩ := by
  rw [Segment.sample, lost]
  rfl

theorem steady_rampLength (lastKey : Int32) (value : ℝ) :
    (steady lastKey value).rampLength 2 5 = 2 := by
  have length : RealNumbers.value? ((steady lastKey value).voice.fade * Scalar.ofNat 2) =
      some (2 : ℝ) := by
    show some _ = some _
    norm_num
  rw [Segment.rampLength, truncate_toNat length (by decide)]
  norm_num

/-- At the tuning frequency it oscillates as it should. -/
theorem steady_oscillates :
    let s := steady 88 9
    let ring : Ring PartialReal := .ofCapacity 2 5
    let moves : List (Move (Ring PartialReal)) := [.start ring, .fill ring, .stop ring]
    InTurn s.phase ∧ Finite s.voice.amplitude ∧ (∀ move ∈ moves, 0 < move.rate) ∧
      s.HeardFinitely ∧ InTurn (s.after moves).phase ∧
      ∀ move ∈ moves, ∀ frame ∈ move.pushed (s.after moves),
        frame.left = frame.right ∧ NotAbove frame.left s.voice.amplitude := by
  intro s ring moves
  have begins : InTurn s.phase := inTurn_zero
  have amplitude : Finite s.voice.amplitude := ⟨_, ofNat 1⟩
  have rates : ∀ move ∈ moves, 0 < move.rate := by
    intro move member
    simp only [moves, List.mem_cons, List.not_mem_nil, or_false] at member
    rcases member with rfl | rfl | rfl <;> exact Nat.two_pos
  have heard : s.HeardFinitely := by
    intro t frequency found
    have keys : (((88 : Int32) - 1).toInt : ℝ) = 87 := by
      rw [show ((88 : Int32) - 1).toInt = 87 by decide]
      norm_num
    rw [steady_frequencyAt? (by norm_num) (by rw [keys]; norm_num), Option.some.injEq] at found
    exact ⟨_, by rw [← found]; exact if_pos (by norm_num)⟩
  obtain ⟨-, inTurn, pushes⟩ := Segment.after_oscillates begins amplitude moves rates
  refine ⟨begins, amplitude, rates, heard, inTurn heard, fun move member frame pushed => ?_⟩
  obtain ⟨bounded, balanced, -⟩ := pushes move (rates move member)
  exact ⟨balanced frame pushed, bounded heard frame pushed⟩

/-- At a key 1024 octaves above the tuning key, the start takes the phase out of its turn and pushes
frames that stand for no number. -/
theorem steady_overflows :
    let s := steady 20000 12297
    let start : Move (Ring PartialReal) := .start (.ofCapacity 2 5)
    InTurn s.phase ∧ Finite s.voice.amplitude ∧ Finite s.voice.keyboard.tuningFrequency ∧
      0 < start.rate ∧ ¬InTurn (s.after [start]).phase ∧
      ∃ frame ∈ start.pushed s, ¬NotAbove frame.left s.voice.amplitude := by
  intro s start
  have heard (t : PartialReal) : s.frequencyAt? t = some ⟨none⟩ := by
    have keys : (((20000 : Int32) - 1).toInt : ℝ) = 19999 := by
      rw [show ((20000 : Int32) - 1).toInt = 19999 by decide]
      norm_num
    rw [steady_frequencyAt? (by norm_num) (by rw [keys]; norm_num), if_neg (by norm_num)]
  have length : s.fresh.rampLength start.rate start.room = 2 := steady_rampLength 20000 12297
  obtain ⟨after, pushed⟩ := Move.on_start (s := s) (Ring.ofCapacity 2 5 : Ring PartialReal) rfl
  have ramp := Segment.rampAt_eq (s := s.fresh) (heard (Scalar.ofInt 0)) .fadeIn start.rate
    start.room
  have zero : (Scalar.ofInt s.window.start.toInt : PartialReal) = Scalar.ofInt 0 := rfl
  rw [zero, ramp, length] at after pushed
  refine ⟨inTurn_zero, ⟨_, ofNat 1⟩, ⟨_, ofNat 440⟩, Nat.two_pos, ?_, ?_⟩
  · show ¬InTurn (start.on s).1.phase
    rw [after]
    have lost : (s.fresh.turned ⟨none⟩ start.rate 2).phase = ⟨none⟩ := advance_none _ _
    simp only [lost]
    rintro ⟨p, value, -⟩
    cases value
  · refine ⟨s.fresh.rampFrame .fadeIn ⟨none⟩ start.rate 2 0, ?_, ?_⟩
    · rw [pushed]
      exact List.mem_map_of_mem (by simp)
    · have lost : (s.fresh.turned ⟨none⟩ start.rate 1).phase = ⟨none⟩ := advance_none _ _
      have left : (s.fresh.rampFrame .fadeIn ⟨none⟩ start.rate 2 0).left = ⟨none⟩ := by
        show (s.fresh.turned ⟨none⟩ start.rate 1).sample * _ = _
        rw [sample_none lost]
        rfl
      rw [left]
      rintro ⟨a, b, value, -⟩
      cases value

end PartialReal

end Tonegraph
