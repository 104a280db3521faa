import Mathlib.Data.Rat.Floor
import Tonegraph.Proofs.Content
import Tonegraph.Proofs.Evaluation
import Tonegraph.Segment.Charted
/-!
# What a chart shows

The points of a preview are even strides through the window and its end: `Window.Grid` says which
seconds these are, and `Window.previewTimes_grid` that they are the times of a preview. There are
never too many of them, and none is left out of a window that is short enough. Counting them in
words goes as with integers, for every window (`Window.timeWords?_eq`).

A chart is drawn when what it shows changes, and what else happens to a segment does not change what
it shows: so it is never out of date, whatever was called before and whatever of it was refused
(`ChartedSegment.Fresh`, `ChartedSegment.chart_after`).
-/

set_option autoImplicit false

namespace Tonegraph

/-! ## The seconds of a preview -/

namespace Segment

/-- The stride is the least whole number of seconds that comes through the window in steps
enough. -/
theorem previewStride_le_iff {runTime n : Nat} :
    previewStride runTime ≤ n ↔ runTime ≤ 1023 * n := by
  rw [previewStride, maxPreviewPoints]
  omega

theorem previewStride_eq_ceil (runTime : Nat) :
    previewStride runTime = ⌈(runTime / 1023 : ℚ)⌉₊ := by
  refine eq_of_forall_ge_iff fun n => ?_
  rw [previewStride_le_iff, Nat.ceil_le, div_le_iff₀ (by norm_num), mul_comm (n : ℚ)]
  exact_mod_cast Iff.rfl

end Segment

namespace Window

/-- The stride of the preview of a window. -/
def stride (w : Window) : Nat := ⌈(w.runTime / 1023 : ℚ)⌉₊

theorem stride_pos (w : Window) : 0 < w.stride := by
  have ordered := w.start_lt_stop_toInt
  have length := w.runTime_eq
  rw [stride, ← Segment.previewStride_eq_ceil]
  by_contra none
  have short := Segment.previewStride_le_iff.mp (Nat.le_of_not_lt none)
  omega

/-- Some seconds are those of the window in even strides before its end, and its end. -/
structure Grid (w : Window) (times : List Int) (count : Nat) : Prop where
  times_eq : times =
    (List.range count).map (fun i => w.start.toInt + (i * w.stride : Nat)) ++ [w.stop.toInt]
  before_iff (i : Nat) : i < count ↔ w.start.toInt + (i * w.stride : Nat) < w.stop.toInt

theorem previewTimes_grid (w : Window) : ∃ count, w.Grid (Segment.previewTimes w) count := by
  have positive := w.stride_pos
  have length := w.runTime_eq
  have stride : Segment.previewStride w.runTime = w.stride := Segment.previewStride_eq_ceil _
  refine ⟨(w.runTime + (w.stride - 1)) / w.stride, by rw [Segment.previewTimes, stride], ?_⟩
  intro i
  rw [Nat.lt_iff_add_one_le, Nat.le_div_iff_mul_le positive, Nat.add_one_mul]
  omega

namespace Grid

variable {w : Window} {times : List Int} {count : Nat}

theorem count_le (grid : w.Grid times count) : count ≤ 1023 := by
  by_contra many
  have before := (grid.before_iff 1023).mp (by omega)
  have enough : w.runTime ≤ 1023 * w.stride := by
    rw [stride, ← Segment.previewStride_eq_ceil]
    exact Segment.previewStride_le_iff.mp le_rfl
  have length := w.runTime_eq
  omega

theorem length_le (grid : w.Grid times count) : times.length ≤ 1024 := by
  have most := grid.count_le
  rw [grid.times_eq, List.length_append, List.length_map, List.length_range, List.length_singleton]
  omega

/-- The seconds are in order. -/
theorem pairwise (grid : w.Grid times count) : times.Pairwise (· < ·) := by
  have positive := w.stride_pos
  rw [grid.times_eq, List.pairwise_append]
  refine ⟨?_, List.pairwise_singleton _ _, ?_⟩
  · rw [List.pairwise_map]
    refine List.pairwise_lt_range.imp fun less => ?_
    have further := Nat.mul_lt_mul_of_pos_right less positive
    omega
  · intro time member last isLast
    obtain ⟨i, within, rfl⟩ := List.mem_map.mp member
    rw [List.mem_singleton.mp isLast]
    exact (grid.before_iff i).mp (List.mem_range.mp within)

/-- The first second is the start of the window. -/
theorem head?_eq (grid : w.Grid times count) : times.head? = some w.start.toInt := by
  have some : 0 < count := (grid.before_iff 0).mpr (by simpa using w.start_lt_stop_toInt)
  obtain ⟨rest, rfl⟩ : ∃ rest, count = rest + 1 := ⟨count - 1, by omega⟩
  rw [grid.times_eq, List.range_succ_eq_map]
  simp

theorem getLast?_eq (grid : w.Grid times count) : times.getLast? = some w.stop.toInt := by
  rw [grid.times_eq, List.getLast?_concat]

/-- A window that is short enough has all its seconds. -/
theorem mem_of_short (grid : w.Grid times count) (short : w.runTime ≤ 1023) {time : Int}
    (from_start : w.start.toInt ≤ time) (to_stop : time ≤ w.stop.toInt) : time ∈ times := by
  have positive := w.stride_pos
  have one : w.stride = 1 := by
    refine le_antisymm ?_ positive
    rw [stride, ← Segment.previewStride_eq_ceil, Segment.previewStride_le_iff]
    exact short
  rw [grid.times_eq, List.mem_append, List.mem_singleton, List.mem_map]
  obtain rfl | before := eq_or_lt_of_le to_stop
  · exact .inr rfl
  · left
    refine ⟨(time - w.start.toInt).toNat, List.mem_range.mpr ((grid.before_iff _).mpr ?_), ?_⟩
    · rw [one]
      omega
    · rw [one]
      omega

end Grid

end Window

/-! ## In words -/

namespace Words

/-- The word of 64 bits for an integer, if there is one. -/
def long? (n : Int) : Option Int64 :=
  if Int64.minValue.toInt ≤ n ∧ n ≤ Int64.maxValue.toInt then some (.ofInt n) else none

/-- The word of 64 bits without sign for an integer, if there is one. -/
def unsigned? (n : Int) : Option UInt64 :=
  if 0 ≤ n ∧ n < UInt64.size then some (.ofNat n.toNat) else none

/-- The word of 32 bits for an integer, if there is one. -/
def short? (n : Int) : Option Int32 :=
  if Int32.minValue.toInt ≤ n ∧ n ≤ Int32.maxValue.toInt then some (.ofInt n) else none

theorem long?_eq {n : Int} (least : -2 ^ 63 ≤ n) (most : n < 2 ^ 63) :
    ∃ word, long? n = some word ∧ word.toInt = n :=
  ⟨.ofInt n, if_pos ⟨least, Int.le_of_lt_add_one most⟩, Int64.toInt_ofInt_of_le least most⟩

theorem short?_eq {n : Int} (least : -2 ^ 31 ≤ n) (most : n < 2 ^ 31) :
    ∃ word, short? n = some word ∧ word.toInt = n :=
  ⟨.ofInt n, if_pos ⟨least, Int.le_of_lt_add_one most⟩, Int32.toInt_ofInt_of_le least most⟩

theorem unsigned?_eq {n : Nat} (fits : n < UInt64.size) :
    ∃ word, unsigned? n = some word ∧ word.toNat = n :=
  ⟨.ofNat n, if_pos ⟨Int.natCast_nonneg n, by exact_mod_cast fits⟩, UInt64.toNat_ofNat_of_lt' fits⟩

/-- A quotient of words, rounded up. -/
def ceilingQuotient (a b : UInt64) : UInt64 := if a % b = 0 then a / b else a / b + 1

theorem toNat_ceilingQuotient {a : UInt64} :
    (ceilingQuotient a 1023).toNat = Segment.previewStride a.toNat := by
  have quotient : (a / 1023).toNat = a.toNat / 1023 := UInt64.toNat_div a 1023
  have remainder : (a % 1023).toNat = a.toNat % 1023 := UInt64.toNat_mod a 1023
  have word := a.toNat_lt
  rw [ceilingQuotient, Segment.previewStride, Segment.maxPreviewPoints]
  by_cases even : a % 1023 = 0
  · have none : a.toNat % 1023 = 0 := by rw [← remainder, even]; rfl
    rw [if_pos even, quotient]
    omega
  · have some : a.toNat % 1023 ≠ 0 := fun none => even (UInt64.toNat_inj.mp (remainder.trans none))
    have next : (a / 1023 + 1).toNat = a.toNat / 1023 + 1 := by
      rw [UInt64.toNat_add, quotient, UInt64.toNat_one, Nat.mod_eq_of_lt (by omega)]
    rw [if_neg even, next]
    omega

end Words

namespace Window

/-- The times from a stride on, and the end behind them, each step of which may fail to be a word.
At most so many times are left. -/
def timeWordsFrom? (start stop stride : Int64) : Nat → Int64 → Option (List Int32)
  | 0, _ => none
  | left + 1, i => do
    let way ← Words.long? (i.toInt * stride.toInt)
    let time ← Words.long? (start.toInt + way.toInt)
    if time < stop then
      let second ← Words.short? time.toInt
      let next ← Words.long? (i.toInt + 1)
      let rest ← timeWordsFrom? start stop stride left next
      return second :: rest
    else
      let second ← Words.short? stop.toInt
      return [second]

/-- The times of the preview of a window, if they can be counted in words. -/
def timeWords? (w : Window) : Option (List Int32) := do
  let start := w.start.toInt64
  let stop := w.stop.toInt64
  let length ← Words.long? (stop.toInt - start.toInt)
  let seconds ← Words.unsigned? length.toInt
  let stride ← Words.long? (Words.ceilingQuotient seconds 1023).toNat
  timeWordsFrom? start stop stride Segment.maxPreviewPoints 0

variable {w : Window} {times : List Int} {count : Nat}

theorem runTime_lt (w : Window) : w.runTime < 2 ^ 32 := by
  have length := w.runTime_eq
  have least := w.start.le_toInt
  have most := w.stop.toInt_lt
  omega

theorem stride_le_runTime (w : Window) : w.stride ≤ w.runTime := by
  rw [stride, ← Segment.previewStride_eq_ceil, Segment.previewStride_le_iff]
  omega

/-- The way to a second goes no more than one stride beyond the window. -/
theorem Grid.way_lt (grid : w.Grid times count) {n : Nat} (within : n ≤ count) :
    n * w.stride < 2 ^ 33 := by
  have short := w.runTime_lt
  have stride := w.stride_le_runTime
  cases n with
  | zero =>
      rw [Nat.zero_mul]
      exact Nat.two_pow_pos 33
  | succ n =>
      have before := (grid.before_iff n).mp within
      have length := w.runTime_eq
      rw [Nat.add_one_mul]
      omega

/-- The time of a second, and the way to it, are words. -/
theorem Grid.time_words (grid : w.Grid times count) {stride i : Int64} {n : Nat}
    (stride_eq : stride.toInt = w.stride) (i_eq : i.toInt = n) (within : n ≤ count) :
    ∃ way time, Words.long? (i.toInt * stride.toInt) = some way ∧
      Words.long? (w.start.toInt64.toInt + way.toInt) = some time ∧
      time.toInt = w.start.toInt + (n * w.stride : Nat) := by
  have least := w.start.le_toInt
  have most := w.start.toInt_lt
  have short := grid.way_lt within
  have product : i.toInt * stride.toInt = (n * w.stride : Nat) := by
    rw [i_eq, stride_eq]
    exact_mod_cast rfl
  have start_eq : w.start.toInt64.toInt = w.start.toInt := Int32.toInt_toInt64 _
  obtain ⟨way, way_word, way_eq⟩ :=
    Words.long?_eq (n := i.toInt * stride.toInt) (by omega) (by omega)
  obtain ⟨time, time_word, time_eq⟩ :=
    Words.long?_eq (n := w.start.toInt64.toInt + way.toInt) (by omega) (by omega)
  rw [start_eq, way_eq, product] at time_eq
  exact ⟨way, time, way_word, time_word, time_eq⟩

/-- The times that are left from a stride on are counted in words as they are. -/
theorem Grid.timeWordsFrom?_eq (grid : w.Grid times count) {stride i : Int64} (left : Nat) {n : Nat}
    (stride_eq : stride.toInt = w.stride) (i_eq : i.toInt = n) (within : n ≤ count)
    (enough : count < left + n) :
    ∃ words, timeWordsFrom? w.start.toInt64 w.stop.toInt64 stride left i = some words ∧
      words.map Int32.toInt =
        (List.range' n (count - n)).map (fun i => w.start.toInt + (i * w.stride : Nat)) ++
          [w.stop.toInt] := by
  induction left generalizing i n with
  | zero => omega
  | succ left ih =>
      have least := w.start.le_toInt
      have most := w.stop.toInt_lt
      have ordered := w.start_lt_stop_toInt
      have stop_eq : w.stop.toInt64.toInt = w.stop.toInt := Int32.toInt_toInt64 _
      obtain ⟨way, time, way_word, time_word, time_eq⟩ := grid.time_words stride_eq i_eq within
      rw [timeWordsFrom?, way_word]
      simp only [Option.bind_eq_bind, Option.bind_some, time_word, stop_eq]
      obtain more | last : n < count ∨ n = count := by omega
      · have before := (grid.before_iff n).mp more
        have earlier : time < w.stop.toInt64 := by
          rw [Int64.lt_iff_toInt_lt, time_eq, stop_eq]
          exact before
        obtain ⟨second, second_word, second_eq⟩ :=
          Words.short?_eq (n := time.toInt) (by omega) (by omega)
        have few := grid.count_le
        obtain ⟨next, next_word, next_eq⟩ :=
          Words.long?_eq (n := i.toInt + 1) (by omega) (by omega)
        obtain ⟨rest, rest_words, rest_eq⟩ :=
          ih (n := n + 1) (by rw [next_eq, i_eq]; rfl) more (by omega)
        refine ⟨second :: rest, ?_, ?_⟩
        · rw [if_pos earlier, second_word, next_word]
          simp only [Option.bind_some, rest_words]
          rfl
        · have left : count - n = count - (n + 1) + 1 := by omega
          rw [List.map_cons, rest_eq, second_eq, time_eq, left, List.range'_succ]
          rfl
      · have beyond : ¬w.start.toInt + (n * w.stride : Nat) < w.stop.toInt := fun before =>
          absurd ((grid.before_iff n).mpr before) (by omega)
        have notEarlier : ¬time < w.stop.toInt64 := by
          rw [Int64.lt_iff_toInt_lt, time_eq, stop_eq]
          exact beyond
        obtain ⟨second, second_word, second_eq⟩ :=
          Words.short?_eq (n := w.stop.toInt) (by omega) (by omega)
        refine ⟨[second], ?_, ?_⟩
        · rw [if_neg notEarlier, second_word]
          rfl
        · rw [last, Nat.sub_self, List.map_singleton, second_eq]
          rfl

/-- **The times of a preview are counted in words as they are**, whatever the window. -/
theorem timeWords?_eq (w : Window) :
    ∃ words, w.timeWords? = some words ∧ words.map Int32.toInt = Segment.previewTimes w := by
  obtain ⟨count, grid⟩ := w.previewTimes_grid
  have few := grid.count_le
  have runTime := w.runTime_eq
  have short := w.runTime_lt
  have start_eq : w.start.toInt64.toInt = w.start.toInt := Int32.toInt_toInt64 _
  have stop_eq : w.stop.toInt64.toInt = w.stop.toInt := Int32.toInt_toInt64 _
  obtain ⟨length, length_word, length_eq⟩ :=
    Words.long?_eq (n := w.stop.toInt64.toInt - w.start.toInt64.toInt) (by omega) (by omega)
  rw [stop_eq, start_eq, ← runTime] at length_eq
  obtain ⟨seconds, seconds_word, seconds_eq⟩ :=
    Words.unsigned?_eq (n := w.runTime) (lt_trans short (by decide))
  have steps : (Words.ceilingQuotient seconds 1023).toNat = w.stride := by
    rw [Words.toNat_ceilingQuotient, seconds_eq]
    exact Segment.previewStride_eq_ceil _
  have most := w.stride_le_runTime
  obtain ⟨stride, stride_word, stride_eq⟩ :=
    Words.long?_eq (n := (Words.ceilingQuotient seconds 1023).toNat) (by omega) (by omega)
  rw [steps] at stride_eq
  obtain ⟨words, counted, words_eq⟩ :=
    grid.timeWordsFrom?_eq Segment.maxPreviewPoints (i := 0) (n := 0) stride_eq rfl (Nat.zero_le _)
      (by rw [Segment.maxPreviewPoints]; omega)
  refine ⟨words, ?_, ?_⟩
  · rw [timeWords?, length_word]
    simp only [Option.bind_eq_bind, Option.bind_some, length_eq, seconds_word, stride_word, counted]
  · rw [words_eq, grid.times_eq, Nat.sub_zero, List.range_eq_range']

end Window

/-! ## Charts -/

namespace Segment

variable {R S : Type} [Arithmetic R]

/-- A preview shows nothing but the formula, the window and the voice. -/
theorem SamePiece.preview {a b : Segment R S} (same : a.SamePiece b) : a.preview = b.preview := by
  rcases a with ⟨⟩
  rcases b with ⟨⟩
  obtain ⟨rfl, rfl, rfl, rfl⟩ := same
  rfl

end Segment

namespace ChartedSegment

variable {R S K : Type} [Arithmetic R]

/-- The chart shows the segment as it is. -/
def Fresh (c : ChartedSegment R S) : Prop := c.chart = c.segment.preview

theorem fresh_of_create {text : String} {formula : Formula R} {start stop : Int32}
    {voice : Voice R S} {c : ChartedSegment R S}
    (created : create text formula start stop voice = .ok c) : c.Fresh := by
  rw [create] at created
  cases made : Segment.create text formula start stop voice with
  | error e =>
      rw [made] at created
      cases created
  | ok s =>
      rw [made] at created
      cases created
      rfl

/-- A chart that has just been drawn is fresh, and so is one that a refused call leaves. -/
theorem Fresh.drawn {c : ChartedSegment R S} (fresh : c.Fresh)
    (changed : Except SegmentError (Segment R S)) :
    ((changed.map draw).toOption.getD c).Fresh := by
  cases changed with
  | ok s => exact rfl
  | error e => exact fresh

/-- A chart is fresh while the segment stays the piece that it is. -/
theorem Fresh.played {c : ChartedSegment R S} (fresh : c.Fresh) {s : Segment R S}
    (same : s.SamePiece c.segment) : ({ c with segment := s } : ChartedSegment R S).Fresh :=
  fresh.trans same.preview.symm

/-- A call on a segment with a chart; whoever plays it names the sink. -/
inductive Act (R S K : Type) where
  | setWindow (start stop : Int32)
  | setVoice (voice : Voice R S)
  | start (sink : K)
  | fill (sink : K)
  | stop (sink : K)

variable [Scalar S] [Narrowing R S] [FrameSink K S]

/-- The segment and its chart after a call, which may be refused. -/
def Act.on (act : Act R S K) (c : ChartedSegment R S) : ChartedSegment R S :=
  match act with
  | .setWindow first last => (c.setWindow first last).toOption.getD c
  | .setVoice voice => (c.setVoice voice).toOption.getD c
  | .start sink => ((c.start sink).map (·.1)).toOption.getD c
  | .fill sink => (c.fill sink).2.1
  | .stop sink => ((c.stop sink).map (·.1)).toOption.getD c

/-- Whatever is called, and granted or refused, the chart is not out of date. -/
theorem Act.on_fresh {c : ChartedSegment R S} (fresh : c.Fresh) (act : Act R S K) :
    (act.on c).Fresh := by
  cases act with
  | setWindow start stop => exact fresh.drawn _
  | setVoice voice => exact fresh.drawn _
  | start sink =>
      rw [on, ChartedSegment.start, Segment.start]
      split
      · exact fresh
      · exact fresh.played (c.segment.started_samePiece sink)
  | fill sink => exact fresh.played (c.segment.fill_samePiece sink)
  | stop sink =>
      rw [on, ChartedSegment.stop, Segment.stop]
      split
      · exact fresh.played (c.segment.stopped_samePiece sink)
      · exact fresh

/-- The segment and its chart after calls, one after the other. -/
def after (c : ChartedSegment R S) (acts : List (Act R S K)) : ChartedSegment R S :=
  acts.foldl (fun c act => act.on c) c

theorem Fresh.after {c : ChartedSegment R S} (fresh : c.Fresh) (acts : List (Act R S K)) :
    (c.after acts).Fresh := by
  induction acts generalizing c with
  | nil => exact fresh
  | cons act acts ih => exact ih (act.on_fresh fresh)

/-- **A chart is right after any calls.** Let a segment have been created, and let it then be given
windows and voices and be played, in any order, whether the calls are granted or refused. Its chart
has at most 1024 points. Their times are in order, from the start of the window to its end; they are
the even strides before the end, and the end, and in a short window all its seconds; and counting
them in words goes as with integers. Each point has the value of the formula at its time and the
frequency of that value on the keyboard. -/
theorem chart_after {text : String} {formula : Formula R} {start stop : Int32} {voice : Voice R S}
    {c : ChartedSegment R S} (created : create text formula start stop voice = .ok c)
    (acts : List (Act R S K)) :
    let now := c.after acts
    let window := now.segment.window
    let times := now.chart.map (·.time)
    now.chart.length ≤ 1024 ∧ times.Pairwise (· < ·) ∧
    times.head? = some window.start.toInt ∧ times.getLast? = some window.stop.toInt ∧
    (∃ count, window.Grid times count) ∧
    (window.runTime ≤ 1023 →
      ∀ time, window.start.toInt ≤ time → time ≤ window.stop.toInt → time ∈ times) ∧
    (∃ words, window.timeWords? = some words ∧ words.map Int32.toInt = times) ∧
    ∀ point ∈ now.chart,
      now.segment.formula.evaluateAt (Scalar.ofInt point.time) = .ok point.value ∧
      point.frequency = now.segment.voice.keyboard.frequencyOf? point.value := by
  intro now window times
  have fresh : now.chart = now.segment.preview := (fresh_of_create created).after acts
  have times_eq : times = Segment.previewTimes window := by
    show now.chart.map (·.time) = _
    rw [fresh, Segment.preview, List.map_map]
    exact List.map_id _
  obtain ⟨count, grid⟩ := window.previewTimes_grid
  obtain ⟨words, counted, words_eq⟩ := window.timeWords?_eq
  rw [← times_eq] at grid words_eq
  have length : now.chart.length = times.length := (List.length_map _).symm
  refine ⟨length ▸ grid.length_le, grid.pairwise, grid.head?_eq, grid.getLast?_eq, ⟨count, grid⟩,
    fun short time => grid.mem_of_short short, ⟨words, counted, words_eq⟩, fun point member => ?_⟩
  rw [fresh] at member
  refine ⟨Segment.evaluateAt_of_mem_preview member, ?_⟩
  obtain ⟨time, -, rfl⟩ := List.mem_map.mp member
  rfl

/-- A new window is refused while the segment plays and again when it is empty; the one that is
granted between has a stride of two seconds. -/
theorem chart_after_refusals :
    let sink : Ring Float32 := .ofCapacity 2 3
    let piece := Segment.acrossZero
    let acts : List (Act Float Float32 (Ring Float32)) :=
      [.start sink, .setWindow 0 5, .fill sink, .stop sink, .setWindow 0 2000, .setWindow 7 7]
    ∃ c, create piece.text piece.formula (-1) 1 piece.voice = .ok c ∧
      let now := c.after acts
      let times := now.chart.map (·.time)
      now.segment.window.start = 0 ∧ now.segment.window.stop = 2000 ∧ now.chart.length ≤ 1024 ∧
        times.head? = some 0 ∧ times.getLast? = some 2000 ∧
        ∃ count, now.segment.window.Grid times count := by
  intro sink piece acts
  let c : ChartedSegment Float Float32 := draw piece
  have created : create piece.text piece.formula (-1) 1 piece.voice = .ok c := rfl
  have bounds : (c.after acts).segment.window.start = 0 ∧
      (c.after acts).segment.window.stop = 2000 := by decide +kernel
  obtain ⟨few, -, first, last, grid, -⟩ := chart_after created acts
  rw [bounds.1] at first
  rw [bounds.2] at last
  exact ⟨c, created, bounds.1, bounds.2, few, first, last, grid⟩

end ChartedSegment

end Tonegraph
