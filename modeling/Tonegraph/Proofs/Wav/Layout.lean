import Mathlib.Algebra.BigOperators.Intervals
import Mathlib.Algebra.BigOperators.Ring.Finset
import Mathlib.Data.List.GetD
import Mathlib.Tactic.Ring
import Tonegraph.Proofs.Wav
/-!
# Which bytes are read as a file

A file is read if it has a header, its marks in their places (`Wav.Marked`), if the header describes
PCM of two channels and 16 bits (`Wav.IsPcm`), and if as many bytes come behind it as it promises.
Nothing else is asked: the other sizes in the header may say anything. A file that fails more than
one of these is refused for the first of them.

The header is looked up place by place. It can as well be read from front to back, mark by mark and
number by number; that comes to the same (`Wav.Header.scan_eq`), as whatever goes wrong on the way
is one error. `Wav.decode_layout` gives every outcome of reading.
-/

set_option autoImplicit false

namespace Tonegraph

namespace LittleEndian

theorem valueOf_lt (bytes : List UInt8) : valueOf bytes < 256 ^ bytes.length := by
  induction bytes with
  | nil => exact Nat.one_pos
  | cons byte rest ih =>
      have digit : byte.toNat < 256 := byte.toNat_lt
      rw [valueOf, List.length_cons, pow_succ]
      omega

end LittleEndian

namespace Wav

variable {S : Type} [Scalar S] {bytes : List UInt8}

/-! ## What stands where -/

/-- The number at a place of a file that takes so many bytes. -/
def numberAt (bytes : List UInt8) (place width : Nat) : Nat :=
  LittleEndian.valueOf ((bytes.drop place).take width)

/-- The frame at a place of a file: two signed numbers of 16 bits, as 32767ths. -/
def frameAt (bytes : List UInt8) (place : Nat) : Frame S :=
  let sample (place : Nat) : S :=
    Scalar.ofInt ((numberAt bytes place 2 : Int).bmod (2 ^ 16)) / Scalar.ofInt 32767
  ⟨sample place, sample (place + 2)⟩

/-- A file that is long enough for a header and has its marks. -/
structure Marked (bytes : List UInt8) : Prop where
  long : 44 ≤ bytes.length
  riff : mark "RIFF" <+: bytes
  format : mark "WAVEfmt " <+: bytes.drop 8
  data : mark "data" <+: bytes.drop 36

/-- A header that describes PCM of two channels and 16 bits. -/
structure IsPcm (bytes : List UInt8) : Prop where
  formatTag : numberAt bytes 20 2 = 1
  channels : numberAt bytes 22 2 = 2
  bitsPerSample : numberAt bytes 34 2 = 16

/-- The lowest byte of a number stands first. Behind the end of a file there are zeros. -/
theorem numberAt_eq_sum (bytes : List UInt8) (place width : Nat) :
    numberAt bytes place width =
      ∑ i ∈ Finset.range width, (bytes.getD (place + i) 0).toNat * 256 ^ i := by
  induction width generalizing place with
  | zero => rw [numberAt, List.take_zero, LittleEndian.valueOf, Finset.range_zero, Finset.sum_empty]
  | succ width ih =>
      have upper : ∑ i ∈ Finset.range width, (bytes.getD (place + (i + 1)) 0).toNat * 256 ^ (i + 1) =
          256 * numberAt bytes (place + 1) width := by
        rw [ih, Finset.mul_sum]
        refine Finset.sum_congr rfl fun i _ => ?_
        rw [Nat.add_right_comm, ← Nat.add_assoc, pow_succ]
        ring
      have first : numberAt bytes place (width + 1) =
          (bytes.getD place 0).toNat + 256 * numberAt bytes (place + 1) width := by
        by_cases within : place < bytes.length
        · rw [numberAt, List.drop_eq_getElem_cons within, List.take_succ_cons,
            List.getD_eq_getElem bytes 0 within]
          rfl
        · have beyond : bytes.length ≤ place := Nat.not_lt.mp within
          rw [numberAt, numberAt, List.drop_of_length_le beyond,
            List.drop_of_length_le (beyond.trans (Nat.le_succ place)),
            List.getD_eq_default bytes 0 beyond, List.take_nil, List.take_nil]
          rfl
      rw [Finset.sum_range_succ', upper, first, pow_zero, Nat.mul_one]
      exact Nat.add_comm _ _

theorem numberAt_lt (bytes : List UInt8) (place width : Nat) :
    numberAt bytes place width < 256 ^ width := by
  refine (LittleEndian.valueOf_lt _).trans_le (Nat.pow_le_pow_right (by decide) ?_)
  exact List.length_take_le _ _

theorem toNat_word (place : Nat) :
    (UInt32.ofNat (numberAt bytes place 4)).toNat = numberAt bytes place 4 :=
  UInt32.toNat_ofNat_of_lt' (numberAt_lt bytes place 4)

theorem word_eq_iff {place : Nat} {word : UInt32} :
    .ofNat (numberAt bytes place 4) = word ↔ word.toNat = numberAt bytes place 4 := by
  rw [← UInt32.toNat_inj, toNat_word, eq_comm]

theorem half_eq_iff {place : Nat} {half : UInt16} :
    .ofNat (numberAt bytes place 2) = half ↔ half.toNat = numberAt bytes place 2 := by
  have small : numberAt bytes place 2 < UInt16.size := numberAt_lt bytes place 2
  rw [← UInt16.toNat_inj, UInt16.toNat_ofNat_of_lt' small, eq_comm]

/-- A number among the first bytes behind a place is a number behind the place. -/
theorem numberAt_take_drop {place width first count : Nat} (within : place + width ≤ count) :
    numberAt ((bytes.drop first).take count) place width =
      numberAt bytes (first + place) width := by
  rw [numberAt, numberAt, List.drop_take, List.take_take, List.drop_drop,
    Nat.min_eq_left (by omega)]

/-! ### Marks -/

theorem length_mark_riff : (mark "RIFF").length = 4 := by rw [mark_riff]; rfl

theorem length_mark_format : (mark "WAVEfmt ").length = 8 := by rw [mark_format]; rfl

theorem length_mark_data : (mark "data").length = 4 := by rw [mark_data]; rfl

theorem take_eq_mark_iff {text : String} {width : Nat} (length : (mark text).length = width) :
    bytes.take width = mark text ↔ mark text <+: bytes := by
  rw [List.prefix_iff_eq_take, length, eq_comm]

/-! ### Headers -/

namespace Header

/-- What a header says that stands at the front of these bytes. -/
def lookedUp (bytes : List UInt8) : Header where
  fileSize := .ofNat (numberAt bytes 4 4)
  formatSize := .ofNat (numberAt bytes 16 4)
  formatTag := .ofNat (numberAt bytes 20 2)
  channels := .ofNat (numberAt bytes 22 2)
  rate := .ofNat (numberAt bytes 24 4)
  bytesPerSecond := .ofNat (numberAt bytes 28 4)
  bytesPerFrame := .ofNat (numberAt bytes 32 2)
  bitsPerSample := .ofNat (numberAt bytes 34 2)
  dataSize := .ofNat (numberAt bytes 40 4)

open Classical in
/-- There is a header where the marks are, and it says what stands in its places. -/
theorem decode?_eq (bytes : List UInt8) :
    decode? bytes = if Marked bytes then some (lookedUp bytes) else none := by
  have whole : (bytes.take size).length = size ↔ 44 ≤ bytes.length := by
    rw [List.length_take]
    exact min_eq_left_iff
  have marked : ((bytes.take size).length = size ∧ (bytes.drop 0).take 4 = mark "RIFF" ∧
      (bytes.drop 8).take 8 = mark "WAVEfmt " ∧ (bytes.drop 36).take 4 = mark "data") ↔
        Marked bytes := by
    rw [whole, take_eq_mark_iff length_mark_riff, take_eq_mark_iff length_mark_format,
      take_eq_mark_iff length_mark_data, List.drop_zero]
    exact ⟨fun ⟨long, riff, format, data⟩ => ⟨long, riff, format, data⟩,
      fun ⟨long, riff, format, data⟩ => ⟨long, riff, format, data⟩⟩
  unfold decode?
  simp only [marked]
  rfl

end Header

/-! ## Reading from front to back -/

/-- Something that is read off the front of bytes. -/
abbrev Scan (α : Type) := StateT (List UInt8) Option α

namespace Scan

/-- Passes over a mark, which has to stand there. -/
def passMark (text : String) : Scan Unit := fun bytes =>
  if mark text <+: bytes then some ((), bytes.drop (mark text).length) else none

/-- Takes a number of so many bytes. -/
def number (width : Nat) : Scan Nat := fun bytes =>
  if width ≤ bytes.length then some (LittleEndian.valueOf (bytes.take width), bytes.drop width)
  else none

end Scan

/-- Reads a header field by field. -/
def Header.scan : Scan Header := do
  Scan.passMark "RIFF"
  let fileSize ← Scan.number 4
  Scan.passMark "WAVEfmt "
  let formatSize ← Scan.number 4
  let formatTag ← Scan.number 2
  let channels ← Scan.number 2
  let rate ← Scan.number 4
  let bytesPerSecond ← Scan.number 4
  let bytesPerFrame ← Scan.number 2
  let bitsPerSample ← Scan.number 2
  Scan.passMark "data"
  let dataSize ← Scan.number 4
  return {
    fileSize := .ofNat fileSize
    formatSize := .ofNat formatSize
    formatTag := .ofNat formatTag
    channels := .ofNat channels
    rate := .ofNat rate
    bytesPerSecond := .ofNat bytesPerSecond
    bytesPerFrame := .ofNat bytesPerFrame
    bitsPerSample := .ofNat bitsPerSample
    dataSize := .ofNat dataSize }

namespace Scan

/-- What is read ends so many bytes behind the place where it began. -/
def Passes {α : Type} (scan : Scan α) (count : Nat) : Prop :=
  ∀ bytes a rest, scan bytes = some (a, rest) → bytes.length = count + rest.length

variable {α β : Type} {scan : Scan α} {count : Nat}

theorem passMark_passes (text : String) : (passMark text).Passes (mark text).length := by
  intro bytes _ rest read
  unfold passMark at read
  split at read
  · next there =>
      cases read
      have fits := there.length_le
      rw [List.length_drop]
      omega
  · cases read

theorem number_passes (width : Nat) : (number width).Passes width := by
  intro bytes _ rest read
  unfold number at read
  split at read
  · next fits =>
      cases read
      rw [List.length_drop]
      omega
  · cases read

theorem pure_passes (a : α) : (pure a : Scan α).Passes 0 := by
  intro bytes _ rest read
  cases read
  rw [Nat.zero_add]

theorem Passes.bind {next : α → Scan β} {more : Nat} (first : scan.Passes count)
    (then_ : ∀ a, (next a).Passes more) : (scan >>= next).Passes (count + more) := by
  intro bytes _ rest read
  obtain ⟨⟨a, between⟩, read, further⟩ := Option.bind_eq_some_iff.mp read
  rw [first _ _ _ read, then_ a _ _ _ further, Nat.add_assoc]

/-- A number that the bytes behind a place are enough for is the one at the place. -/
theorem number_bind {next : Nat → Scan β} {place width : Nat}
    (fits : place + width ≤ bytes.length) :
    (number width >>= next) (bytes.drop place) =
      next (numberAt bytes place width) (bytes.drop (place + width)) := by
  have enough : width ≤ (bytes.drop place).length := by
    rw [List.length_drop]
    omega
  show ((number width) (bytes.drop place)).bind _ = _
  rw [number, if_pos enough, List.drop_drop]
  rfl

theorem passMark_bind {next : Unit → Scan β} {text : String} {place width : Nat}
    (length : (mark text).length = width) :
    (passMark text >>= next) (bytes.drop place) =
      if mark text <+: bytes.drop place then next () (bytes.drop (place + width)) else none := by
  show ((passMark text) (bytes.drop place)).bind _ = _
  rw [passMark, length, List.drop_drop]
  split <;> rfl

end Scan

/-- A header that is read takes 44 bytes. -/
theorem Header.scan_passes : Header.scan.Passes 44 := by
  have riff := Scan.passMark_passes "RIFF"
  have format := Scan.passMark_passes "WAVEfmt "
  have data := Scan.passMark_passes "data"
  rw [length_mark_riff] at riff
  rw [length_mark_format] at format
  rw [length_mark_data] at data
  have word := Scan.number_passes 4
  have half := Scan.number_passes 2
  exact riff.bind fun _ => word.bind fun _ => format.bind fun _ => word.bind fun _ =>
    half.bind fun _ => half.bind fun _ => word.bind fun _ => word.bind fun _ =>
    half.bind fun _ => half.bind fun _ => data.bind fun _ => word.bind fun _ =>
    Scan.pure_passes _

/-- Read from front to back a header is what is looked up in its places, and what comes behind it is
left. -/
theorem Header.scan_eq (bytes : List UInt8) :
    Header.scan bytes = (Header.decode? bytes).map fun header => (header, bytes.drop 44) := by
  rw [decode?_eq]
  by_cases long : 44 ≤ bytes.length
  · have front : Header.scan bytes = Header.scan (bytes.drop 0) := rfl
    have marked : Marked bytes ↔ mark "RIFF" <+: bytes ∧ mark "WAVEfmt " <+: bytes.drop 8 ∧
        mark "data" <+: bytes.drop 36 :=
      ⟨fun marked => ⟨marked.riff, marked.format, marked.data⟩,
        fun ⟨riff, format, data⟩ => ⟨long, riff, format, data⟩⟩
    rw [front, Header.scan, Scan.passMark_bind length_mark_riff, List.drop_zero, Nat.zero_add]
    simp (disch := omega) only [Scan.number_bind, Scan.passMark_bind length_mark_format,
      Scan.passMark_bind length_mark_data, Nat.reduceAdd, marked]
    by_cases riff : mark "RIFF" <+: bytes
    · by_cases format : mark "WAVEfmt " <+: bytes.drop 8
      · by_cases data : mark "data" <+: bytes.drop 36
        · simp only [riff, format, data, and_self, if_true]
          rfl
        · simp only [data, and_false, if_false, ite_self, Option.map_none]
      · simp only [format, false_and, and_false, if_false, ite_self, Option.map_none]
    · simp only [riff, false_and, if_false, Option.map_none]
  · have short : ¬Marked bytes := fun marked => long marked.long
    rw [if_neg short, Option.map_none]
    cases read : Header.scan bytes with
    | none => rfl
    | some taken =>
        have passed := Header.scan_passes _ _ _ read
        omega

/-! ## Frames -/

theorem frameAt_take_drop {place first count : Nat} (within : place + 4 ≤ count) :
    (frameAt ((bytes.drop first).take count) place : Frame S) = frameAt bytes (first + place) := by
  simp only [frameAt]
  rw [numberAt_take_drop (by omega), numberAt_take_drop (by omega), Nat.add_assoc]

/-- The sample of two bytes is the signed number that they make. -/
theorem sampleOf_eq (low high : UInt8) :
    (sampleOf low high : S) =
      Scalar.ofInt ((LittleEndian.valueOf [low, high] : Int).bmod (2 ^ 16)) /
        Scalar.ofInt 32767 := by
  have word : (UInt16.ofNat (LittleEndian.valueOf [low, high])).toInt16.toInt =
      (LittleEndian.valueOf [low, high] : Int).bmod (2 ^ 16) := by
    rw [UInt16.toInt16_ofNat']
    exact Int16.toInt_ofNat'
  rw [sampleOf, word]

/-- Bytes make a frame for every four of them. -/
theorem framesOf_eq (bytes : List UInt8) :
    (framesOf bytes : List (Frame S)) =
      (List.range (bytes.length / 4)).map fun i => frameAt bytes (4 * i) := by
  fun_induction framesOf (S := S) bytes with
  | case1 leftLow leftHigh rightLow rightHigh rest ih =>
      have count : (leftLow :: leftHigh :: rightLow :: rightHigh :: rest).length / 4 =
          rest.length / 4 + 1 := by
        simp only [List.length_cons]
        omega
      rw [count, List.range_succ_eq_map, List.map_cons, List.map_map, ih, sampleOf_eq, sampleOf_eq]
      rfl
  | case2 bytes short =>
      have few : bytes.length / 4 = 0 := by
        rcases bytes with _ | ⟨_, _ | ⟨_, _ | ⟨_, _ | ⟨_, _⟩⟩⟩⟩
        case cons.cons.cons.cons => exact absurd rfl (short _ _ _ _ _)
        all_goals simp
      rw [few]
      rfl

/-! ## Outcomes -/

theorem isPcm_iff :
    IsPcm bytes ↔ (Header.lookedUp bytes).formatTag = 1 ∧ (Header.lookedUp bytes).channels = 2 ∧
      (Header.lookedUp bytes).bitsPerSample = 16 := by
  have fields : ((Header.lookedUp bytes).formatTag = 1 ↔ 1 = numberAt bytes 20 2) ∧
      ((Header.lookedUp bytes).channels = 2 ↔ 2 = numberAt bytes 22 2) ∧
      ((Header.lookedUp bytes).bitsPerSample = 16 ↔ 16 = numberAt bytes 34 2) :=
    ⟨half_eq_iff, half_eq_iff, half_eq_iff⟩
  rw [fields.1, fields.2.1, fields.2.2]
  exact ⟨fun ⟨tag, channels, bits⟩ => ⟨tag.symm, channels.symm, bits.symm⟩,
    fun ⟨tag, channels, bits⟩ => ⟨tag.symm, channels.symm, bits.symm⟩⟩

theorem decode_of_not_marked (unmarked : ¬Marked bytes) :
    (decode bytes : Except WavError (UInt32 × List (Frame S))) = .error .noHeader := by
  rw [decode, Header.decode?_eq, if_neg unmarked]

theorem decode_of_not_isPcm (marked : Marked bytes) (other : ¬IsPcm bytes) :
    (decode bytes : Except WavError (UInt32 × List (Frame S))) =
      .error (.layout (.ofNat (numberAt bytes 20 2)) (.ofNat (numberAt bytes 22 2))
        (.ofNat (numberAt bytes 34 2))) := by
  have differs : (Header.lookedUp bytes).formatTag ≠ 1 ∨ (Header.lookedUp bytes).channels ≠ 2 ∨
      (Header.lookedUp bytes).bitsPerSample ≠ 16 := by
    rw [isPcm_iff] at other
    tauto
  rw [decode, Header.decode?_eq, if_pos marked]
  exact if_pos differs

/-- With a header that is as it should be all depends on how much comes behind it. -/
theorem decode_of_isPcm (marked : Marked bytes) (pcm : IsPcm bytes) :
    (decode bytes : Except WavError (UInt32 × List (Frame S))) =
      let size := numberAt bytes 40 4
      if bytes.length < 44 + size then .error .dataMissing
      else .ok (.ofNat (numberAt bytes 24 4),
        (List.range (size / 4)).map fun i => frameAt bytes (44 + 4 * i)) := by
  have long := marked.long
  have size : (Header.lookedUp bytes).dataSize.toNat = numberAt bytes 40 4 := toNat_word 40
  have same : ¬((Header.lookedUp bytes).formatTag ≠ 1 ∨ (Header.lookedUp bytes).channels ≠ 2 ∨
      (Header.lookedUp bytes).bitsPerSample ≠ 16) := by
    have fields := isPcm_iff.mp pcm
    tauto
  let data := (bytes.drop 44).take (numberAt bytes 40 4)
  have read : (decode bytes : Except WavError (UInt32 × List (Frame S))) =
      if data.length < numberAt bytes 40 4 then .error .dataMissing
      else .ok (.ofNat (numberAt bytes 24 4), framesOf data) := by
    rw [decode, Header.decode?_eq, if_pos marked]
    simp only [if_neg same, size]
    rfl
  have length : data.length = min (numberAt bytes 40 4) (bytes.length - 44) := by
    rw [List.length_take, List.length_drop]
  rw [read]
  by_cases missing : bytes.length < 44 + numberAt bytes 40 4
  · exact (if_pos (by omega)).trans (if_pos missing).symm
  · have count : data.length = numberAt bytes 40 4 := by omega
    refine (if_neg (by omega)).trans ((congrArg _ ?_).trans (if_neg missing).symm)
    rw [framesOf_eq, count]
    refine congrArg _ (List.map_congr_left fun i member => frameAt_take_drop ?_)
    have within := List.mem_range.mp member
    omega

/-- **What is read as a file.** Bytes are read as a file exactly if there are 44 of them, with the
three marks in their places, if the numbers at 20, 22 and 34 are 1, 2 and 16, and if as many bytes
follow the header as the number at 40 says. Then the rate is the number at 24, and there is a frame
for every four of these bytes. What comes behind, and what makes no whole frame, does not count.

Else the first thing that is wrong is reported: the header is missing, the layout is another, or
there are too few bytes behind the header. It makes no difference to look the header up or to read
its marks and numbers one after the other. -/
theorem decode_layout (bytes : List UInt8) :
    let size := numberAt bytes 40 4
    let outcome : Except WavError (UInt32 × List (Frame S)) := decode bytes
    (∀ rate frames, outcome = .ok (rate, frames) ↔
      Marked bytes ∧ IsPcm bytes ∧ 44 + size ≤ bytes.length ∧
        rate.toNat = numberAt bytes 24 4 ∧
        frames = (List.range (size / 4)).map fun i => frameAt bytes (44 + 4 * i)) ∧
    (outcome = .error .noHeader ↔ ¬Marked bytes) ∧
    (∀ formatTag channels bitsPerSample,
      outcome = .error (.layout formatTag channels bitsPerSample) ↔
        Marked bytes ∧ ¬IsPcm bytes ∧ formatTag.toNat = numberAt bytes 20 2 ∧
          channels.toNat = numberAt bytes 22 2 ∧ bitsPerSample.toNat = numberAt bytes 34 2) ∧
    (outcome = .error .dataMissing ↔ Marked bytes ∧ IsPcm bytes ∧ bytes.length < 44 + size) ∧
    Header.scan bytes = (Header.decode? bytes).map fun header => (header, bytes.drop 44) := by
  intro size outcome
  by_cases marked : Marked bytes
  · by_cases pcm : IsPcm bytes
    · have read : outcome = if bytes.length < 44 + size then .error .dataMissing
          else .ok (.ofNat (numberAt bytes 24 4),
            (List.range (size / 4)).map fun i => frameAt bytes (44 + 4 * i)) :=
        decode_of_isPcm marked pcm
      rw [read]
      by_cases missing : bytes.length < 44 + size
      · simp [marked, pcm, missing, Header.scan_eq]
      · have present : 44 + size ≤ bytes.length := not_lt.mp missing
        rw [if_neg missing]
        refine ⟨fun rate frames => ?_, by simp [marked], by simp [pcm], by simp [missing],
          Header.scan_eq bytes⟩
        rw [Except.ok.injEq, Prod.mk.injEq, word_eq_iff, eq_comm (b := frames)]
        simp only [marked, pcm, present, true_and]
    · have read : outcome = _ := decode_of_not_isPcm marked pcm
      rw [read]
      simp [marked, pcm, half_eq_iff, Header.scan_eq]
  · have read : outcome = _ := decode_of_not_marked marked
    rw [read]
    simp [marked, Header.scan_eq]

end Wav

end Tonegraph
