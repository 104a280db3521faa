import Tonegraph.Proofs.Arithmetic.Exact
import Tonegraph.Proofs.Traversal
import Tonegraph.Wav
/-!
# Files are read back

A file that was written is read back with its rate and its frames, each sample as PCM has kept it:
cut to a whole number of 32767ths. The header is read back whatever it says
(`Wav.Header.decode?_encode`), and so are the frames behind it (`Wav.framesOf_flatMap_frameBytes`).
What ties the two together are the sizes in the header: they have to be those of the file. A header
is written only if they fit into 32 bits, and then they are, as long as the count of the frames is
not cut (`Wav.Header.ofFrames_eq_ok_iff`). `Wav.decode_encode` is the result.
-/

set_option autoImplicit false

namespace Tonegraph

/-! ## Bytes -/

namespace LittleEndian

theorem length_bytesOf (width n : Nat) : (bytesOf width n).length = width := by
  induction width generalizing n with
  | zero => rfl
  | succ width ih => rw [bytesOf, List.length_cons, ih]

/-- The bytes of a number are those of what is left of it in their width. -/
theorem valueOf_bytesOf (width n : Nat) : valueOf (bytesOf width n) = n % 256 ^ width := by
  induction width generalizing n with
  | zero => rw [bytesOf, valueOf, pow_zero, Nat.mod_one]
  | succ width ih =>
      have digit : n % 256 ^ (width + 1) = n % 256 + 256 * (n / 256 % 256 ^ width) := by
        rw [pow_succ', Nat.mod_mul]
      rw [bytesOf, valueOf, ih, digit]
      rfl

theorem valueOf_word (word : UInt32) : UInt32.ofNat (valueOf (bytesOf 4 word.toNat)) = word := by
  have small : word.toNat < 256 ^ 4 := word.toNat_lt
  rw [valueOf_bytesOf, Nat.mod_eq_of_lt small, UInt32.ofNat_toNat]

theorem valueOf_half (half : UInt16) : UInt16.ofNat (valueOf (bytesOf 2 half.toNat)) = half := by
  have small : half.toNat < 256 ^ 2 := half.toNat_lt
  rw [valueOf_bytesOf, Nat.mod_eq_of_lt small, UInt16.ofNat_toNat]

end LittleEndian

/-! ## Words of 32 bits -/

namespace Overflow

theorem check_eq_ok_iff {overflow : Overflow} {result : Nat} {word : UInt32} :
    overflow.check result = .ok word ↔ word.toNat = result := by
  unfold check
  constructor
  · intro checked
    split at checked
    · next fits => rw [← Except.ok.inj checked, UInt32.toNat_ofNat_of_lt' fits]
    · cases checked
  · rintro rfl
    rw [if_pos word.toNat_lt_size, UInt32.ofNat_toNat]

end Overflow

namespace Wav

/-! ## The header -/

theorem mark_riff : mark "RIFF" = [0x52, 0x49, 0x46, 0x46] := by decide

theorem mark_format : mark "WAVEfmt " = [0x57, 0x41, 0x56, 0x45, 0x66, 0x6d, 0x74, 0x20] := by
  decide

theorem mark_data : mark "data" = [0x64, 0x61, 0x74, 0x61] := by decide

namespace Header

/-- The fields of a header as bytes, with the marks between them. -/
def fields (h : Header) : List (List UInt8) :=
  [mark "RIFF", LittleEndian.bytesOf 4 h.fileSize.toNat,
    mark "WAVEfmt ", LittleEndian.bytesOf 4 h.formatSize.toNat,
    LittleEndian.bytesOf 2 h.formatTag.toNat, LittleEndian.bytesOf 2 h.channels.toNat,
    LittleEndian.bytesOf 4 h.rate.toNat, LittleEndian.bytesOf 4 h.bytesPerSecond.toNat,
    LittleEndian.bytesOf 2 h.bytesPerFrame.toNat, LittleEndian.bytesOf 2 h.bitsPerSample.toNat,
    mark "data", LittleEndian.bytesOf 4 h.dataSize.toNat]

theorem encode_eq (h : Header) : h.encode = h.fields.flatten := by
  simp [encode, fields]

/-- The field widths do not depend on what the header says. -/
theorem widths_fields (h : Header) :
    h.fields.map List.length = [4, 4, 8, 4, 2, 2, 4, 4, 2, 2, 4, 4] := by
  simp [fields, LittleEndian.length_bytesOf, mark_riff, mark_format, mark_data]

theorem length_encode (h : Header) : h.encode.length = size := by
  rw [encode_eq, List.length_flatten, widths_fields]
  rfl

/-- A field stands behind the fields before it. -/
theorem field_encode (h : Header) (rest : List UInt8) (i offset : Nat) {width : Nat}
    {field : List UInt8} (found : h.fields[i]? = some field)
    (place : offset = ([4, 4, 8, 4, 2, 2, 4, 4, 2, 2, 4, 4].take i).sum)
    (wide : [4, 4, 8, 4, 2, 2, 4, 4, 2, 2, 4, 4][i]? = some width) :
    ((h.encode ++ rest).drop offset).take width = field := by
  have before : (h.fields.take i).flatten.length = offset := by
    rw [List.length_flatten, List.map_take, widths_fields, place]
  have own : field.length = width := by
    have mapped := congrArg (·[i]?) h.widths_fields
    simp only [List.getElem?_map, found, wide, Option.map_some, Option.some.injEq] at mapped
    exact mapped
  obtain ⟨within, rfl⟩ := List.getElem?_eq_some_iff.mp found
  have split : h.encode ++ rest = (h.fields.take i).flatten ++
      (h.fields[i] ++ ((h.fields.drop (i + 1)).flatten ++ rest)) := by
    rw [encode_eq, ← List.append_assoc, ← List.append_assoc, List.append_assoc _ h.fields[i],
      ← List.flatten_cons, List.getElem_cons_drop, ← List.flatten_append, List.take_append_drop]
  rw [split, List.drop_left' before, List.take_left' own]

/-- A header is read back, whatever comes behind it. -/
theorem decode?_encode (h : Header) (rest : List UInt8) : decode? (h.encode ++ rest) = some h := by
  have whole : ((h.encode ++ rest).take size).length = size := by
    rw [List.length_take, List.length_append, length_encode]
    exact Nat.min_eq_left (Nat.le_add_right _ _)
  have riff := h.field_encode rest 0 0 rfl rfl rfl
  have fileSize := h.field_encode rest 1 4 rfl rfl rfl
  have wave := h.field_encode rest 2 8 rfl rfl rfl
  have formatSize := h.field_encode rest 3 16 rfl rfl rfl
  have formatTag := h.field_encode rest 4 20 rfl rfl rfl
  have channels := h.field_encode rest 5 22 rfl rfl rfl
  have rate := h.field_encode rest 6 24 rfl rfl rfl
  have bytesPerSecond := h.field_encode rest 7 28 rfl rfl rfl
  have bytesPerFrame := h.field_encode rest 8 32 rfl rfl rfl
  have bitsPerSample := h.field_encode rest 9 34 rfl rfl rfl
  have data := h.field_encode rest 10 36 rfl rfl rfl
  have dataSize := h.field_encode rest 11 40 rfl rfl rfl
  unfold decode?
  rw [if_pos ⟨whole, riff, wave, data⟩]
  dsimp only
  rw [fileSize, formatSize, formatTag, channels, rate,
    bytesPerSecond, bytesPerFrame, bitsPerSample, dataSize]
  simp only [LittleEndian.valueOf_word, LittleEndian.valueOf_half]

/-! ### The sizes -/

/-- A header that gives the sizes of so many frames at a rate as they are. -/
structure Truthful (h : Header) (rate : UInt32) (count : Nat) : Prop where
  dataSize : h.dataSize.toNat = 4 * count
  fileSize : h.fileSize.toNat = 36 + 4 * count
  bytesPerSecond : h.bytesPerSecond.toNat = 4 * rate.toNat

/-- The file of so many frames has a size of 32 bits, and so has a second of it. -/
structure Fits (rate : UInt32) (count : Nat) : Prop where
  short : 36 + 4 * count < 2 ^ 32
  slow : 4 * rate.toNat < 2 ^ 32

variable {rate : UInt32} {count : Nat}

/-- What a header gives truly fits, as it is given in words. -/
theorem Truthful.fits {h : Header} (truthful : h.Truthful rate count) : Fits rate count :=
  ⟨truthful.fileSize ▸ h.fileSize.toNat_lt, truthful.bytesPerSecond ▸ h.bytesPerSecond.toNat_lt⟩

/-- The header of frames gives the sizes as they are, for what 32 bits keep of the count. -/
theorem ofFrames_eq_ok_iff {h : Header} :
    ofFrames rate count = .ok h ↔ h.Truthful rate (count % 2 ^ 32) ∧
      h = ⟨h.fileSize, 16, 1, 2, rate, h.bytesPerSecond, 4, 16, h.dataSize⟩ := by
  have kept : (UInt32.ofNat count).toNat = count % 2 ^ 32 := UInt32.toNat_ofNat'
  simp only [ofFrames, bind_eq_ok_iff, Overflow.check_eq_ok_iff, kept]
  constructor
  · rintro ⟨dataSize, data, fileSize, file, bytesPerSecond, second, made⟩
    obtain rfl := Except.ok.inj made
    exact ⟨⟨data.trans (Nat.mul_comm _ _), by dsimp only; omega, second.trans (Nat.mul_comm _ _)⟩,
      rfl⟩
  · rintro ⟨⟨data, file, second⟩, shape⟩
    exact ⟨h.dataSize, data.trans (Nat.mul_comm _ _), h.fileSize, by omega, h.bytesPerSecond,
      second.trans (Nat.mul_comm _ _), congrArg Except.ok shape.symm⟩

theorem exists_ofFrames (fits : Fits rate (count % 2 ^ 32)) : ∃ h, ofFrames rate count = .ok h := by
  have short := fits.short
  exact ⟨⟨.ofNat (36 + 4 * (count % 2 ^ 32)), 16, 1, 2, rate, .ofNat (4 * rate.toNat), 4, 16,
      .ofNat (4 * (count % 2 ^ 32))⟩, ofFrames_eq_ok_iff.mpr
    ⟨⟨UInt32.toNat_ofNat_of_lt' (show _ < 2 ^ 32 by omega), UInt32.toNat_ofNat_of_lt' short,
      UInt32.toNat_ofNat_of_lt' fits.slow⟩, rfl⟩⟩

end Header

/-! ## Frames -/

variable {S : Type} [Scalar S]

/-- A sample as it is read back: the 32767ths that PCM has kept. -/
def heldSample (sample : Int16) : S := Scalar.ofInt sample.toInt / Scalar.ofInt 32767

/-- A frame as it is read back. -/
def heldFrame (frame : Frame S) : Frame S := ⟨heldSample frame.pcm.1, heldSample frame.pcm.2⟩

theorem length_frameBytes (frame : Frame S) : (frameBytes frame).length = 4 := by
  rw [frameBytes, List.length_append, sampleBytes, sampleBytes, LittleEndian.length_bytesOf,
    LittleEndian.length_bytesOf]

theorem length_flatMap_frameBytes (frames : List (Frame S)) :
    (frames.flatMap frameBytes).length = 4 * frames.length := by
  induction frames with
  | nil => rfl
  | cons frame rest ih =>
      rw [List.flatMap_cons, List.length_append, length_frameBytes, ih, List.length_cons]
      omega

/-- The two bytes of a sample make the sample. -/
theorem sampleBytes_eq (sample : Int16) :
    ∃ low high, sampleBytes sample = [low, high] ∧ sampleOf low high = (heldSample sample : S) := by
  refine ⟨_, _, rfl, ?_⟩
  have word : UInt16.ofNat (LittleEndian.valueOf (sampleBytes sample)) = sample.toUInt16 :=
    LittleEndian.valueOf_half _
  show Scalar.ofInt (UInt16.ofNat (LittleEndian.valueOf (sampleBytes sample))).toInt16.toInt /
    Scalar.ofInt 32767 = heldSample sample
  rw [word, Int16.toInt16_toUInt16, heldSample]

theorem framesOf_frameBytes (frame : Frame S) (rest : List UInt8) :
    framesOf (frameBytes frame ++ rest) = heldFrame frame :: framesOf rest := by
  obtain ⟨leftLow, leftHigh, left, heldLeft⟩ := sampleBytes_eq (S := S) frame.pcm.1
  obtain ⟨rightLow, rightHigh, right, heldRight⟩ := sampleBytes_eq (S := S) frame.pcm.2
  rw [frameBytes, left, right, heldFrame, ← heldLeft, ← heldRight]
  rfl

theorem framesOf_flatMap_frameBytes (frames : List (Frame S)) :
    framesOf (frames.flatMap frameBytes) = frames.map heldFrame := by
  induction frames with
  | nil => rfl
  | cons frame rest ih => rw [List.flatMap_cons, framesOf_frameBytes, ih, List.map_cons]

/-! ## Files -/

/-- What is written is a header and the frames behind it. -/
theorem encode_eq_ok_iff {rate : UInt32} {frames : List (Frame S)} {file : List UInt8} :
    encode rate frames = .ok file ↔ ∃ header, Header.ofFrames rate frames.length = .ok header ∧
      file = header.encode ++ frames.flatMap frameBytes := by
  rw [encode, bind_eq_ok_iff]
  refine exists_congr fun _ => and_congr_right fun _ => ?_
  exact ⟨fun made => (Except.ok.inj made).symm, fun same => congrArg Except.ok same.symm⟩

theorem length_append_frames (header : Header) (frames : List (Frame S)) :
    (header.encode ++ frames.flatMap frameBytes).length = 44 + 4 * frames.length := by
  rw [List.length_append, Header.length_encode, length_flatMap_frameBytes]
  rfl

/-- **Round trip.** Frames at a rate are written if so many of them have sizes that fit into 32 bits.
The file is 44 bytes and four for each frame long, says so in its header, and is read back: with its
rate, and each sample as the 32767ths that PCM has kept of it. -/
theorem decode_encode (rate : UInt32) (frames : List (Frame S)) (slow : 4 * rate.toNat < 2 ^ 32)
    (fits : 36 + 4 * frames.length < 2 ^ 32) :
    ∃ file header, encode rate frames = .ok file ∧
      Header.ofFrames rate frames.length = .ok header ∧
      header.fileSize.toNat = 36 + 4 * frames.length ∧
      header.bytesPerSecond.toNat = 4 * rate.toNat ∧
      header.dataSize.toNat = 4 * frames.length ∧
      file.length = 44 + 4 * frames.length ∧
      decode file = .ok (rate, frames.map fun frame =>
        (⟨Scalar.ofInt frame.pcm.1.toInt / Scalar.ofInt 32767,
          Scalar.ofInt frame.pcm.2.toInt / Scalar.ofInt 32767⟩ : Frame S)) := by
  have kept : frames.length % 2 ^ 32 = frames.length := Nat.mod_eq_of_lt (by omega)
  obtain ⟨header, made⟩ : ∃ header, Header.ofFrames rate frames.length = .ok header :=
    Header.exists_ofFrames (kept.symm ▸ ⟨fits, slow⟩)
  obtain ⟨truthful, shape⟩ := Header.ofFrames_eq_ok_iff.mp made
  rw [kept] at truthful
  refine ⟨_, header, encode_eq_ok_iff.mpr ⟨header, made, rfl⟩, made, truthful.fileSize,
    truthful.bytesPerSecond, truthful.dataSize, length_append_frames header frames, ?_⟩
  have payload : ((header.encode ++ frames.flatMap frameBytes).drop Header.size).take
      header.dataSize.toNat = frames.flatMap frameBytes := by
    rw [List.drop_left' (Header.length_encode _), truthful.dataSize]
    exact List.take_of_length_le (Nat.le_of_eq (length_flatMap_frameBytes frames))
  have enough : ¬(frames.flatMap frameBytes).length < header.dataSize.toNat := by
    rw [length_flatMap_frameBytes, truthful.dataSize]
    exact Nat.lt_irrefl _
  have layout : ¬(header.formatTag ≠ 1 ∨ header.channels ≠ 2 ∨ header.bitsPerSample ≠ 16) := by
    rw [shape]
    show ¬((1 : UInt16) ≠ 1 ∨ (2 : UInt16) ≠ 2 ∨ (16 : UInt16) ≠ 16)
    decide
  have own : header.rate = rate := congrArg Header.rate shape
  unfold decode
  simp only [Header.decode?_encode, if_neg layout, payload, if_neg enough,
    framesOf_flatMap_frameBytes, own]
  rfl

/-- Half a sample, one beyond the bounds and the lowest one there is. -/
theorem twoFrames_read_back :
    let frames : List (Frame ℚ) := [⟨1 / 2, 2⟩, ⟨-1, 0⟩]
    4 * (44100 : UInt32).toNat < 2 ^ 32 ∧ 36 + 4 * frames.length < 2 ^ 32 ∧
      ∃ file, encode 44100 frames = .ok file ∧ file.length = 52 ∧
        decode file = .ok (44100, ([⟨16383 / 32767, 1⟩, ⟨-1, 0⟩] : List (Frame ℚ))) := by
  intro frames
  have slow : 4 * (44100 : UInt32).toNat < 2 ^ 32 := by decide
  have fits : 36 + 4 * frames.length < 2 ^ 32 := by decide
  have held : (frames.map fun frame => (⟨Scalar.ofInt frame.pcm.1.toInt / Scalar.ofInt 32767,
      Scalar.ofInt frame.pcm.2.toInt / Scalar.ofInt 32767⟩ : Frame ℚ)) =
      [⟨16383 / 32767, 1⟩, ⟨-1, 0⟩] := by decide +kernel
  obtain ⟨file, -, written, -, -, -, -, size, read⟩ := decode_encode 44100 frames slow fits
  rw [held] at read
  exact ⟨slow, fits, file, written, size, read⟩

end Wav

end Tonegraph
