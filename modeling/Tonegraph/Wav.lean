import Tonegraph.Frame
/-!
# WAV files of 16-bit stereo PCM

A file is a header of 44 bytes and four bytes for each frame: the left sample and the right one,
both as signed words of 16 bits, the lowest byte first. `Wav.encode` writes such files and
`Wav.decode` reads them. Reading asks for the header in exactly this form, with no other chunk
between, and for as many bytes as it promises. Bytes beyond those are passed over, and so are up
to three promised bytes that make no whole frame.

Sizes are words of 32 bits. The count of the frames is cut to one, and all that is computed from it
and from the rate has to stay within 32 bits: an `Overflow` breaks the program off, and nothing is
written.
-/

set_option autoImplicit false

namespace Tonegraph

/-! ## Numbers as bytes, the lowest byte first -/

namespace LittleEndian

/-- The lowest `width` bytes of a number, the lowest first. -/
def bytesOf : Nat → Nat → List UInt8
  | 0, _ => []
  | width + 1, n => UInt8.ofNat n :: bytesOf width (n / 256)

/-- The number that bytes make, the lowest first. -/
def valueOf : List UInt8 → Nat
  | [] => 0
  | byte :: rest => byte.toNat + 256 * valueOf rest

end LittleEndian

/-! ## Words of 32 bits -/

/-- An operation on words of 32 bits whose result is beyond them. Nothing handles it: the program
breaks off. -/
inductive Overflow where
  | product
  | sum
deriving DecidableEq, Repr

namespace Overflow

/-- What the program says before it breaks off. -/
def message : Overflow → String
  | .product => "attempt to multiply with overflow"
  | .sum => "attempt to add with overflow"

/-- The word for the result of an operation. -/
def check (overflow : Overflow) (result : Nat) : Except Overflow UInt32 :=
  if result < UInt32.size then .ok (.ofNat result) else .error overflow

end Overflow

namespace Wav

/-- What the header says, in the order in which it says it. -/
structure Header where
  /-- The bytes of the file behind this field. -/
  fileSize : UInt32
  /-- The bytes of the description of the format. -/
  formatSize : UInt32
  /-- How samples are coded; 1 is PCM. -/
  formatTag : UInt16
  channels : UInt16
  rate : UInt32
  bytesPerSecond : UInt32
  bytesPerFrame : UInt16
  bitsPerSample : UInt16
  /-- The bytes of all frames. -/
  dataSize : UInt32
deriving DecidableEq, Repr

/-- Why bytes are not read as a WAV file. -/
inductive WavError where
  | noHeader
  | layout (formatTag channels bitsPerSample : UInt16)
  | dataMissing
deriving DecidableEq, Repr

/-- What a WAV error says. -/
def WavError.message : WavError → String
  | .noHeader => "WAV: no header of the expected form"
  | .layout formatTag channels bitsPerSample =>
    "unsupported WAV layout: format " ++ toString formatTag.toNat ++ " with " ++
      toString channels.toNat ++ " channels at " ++ toString bitsPerSample.toNat ++ " bits"
  | .dataMissing => "the file ends before its last frame"

/-! ## The header -/

/-- The bytes of a text of Latin letters. -/
def mark (text : String) : List UInt8 := text.toList.map fun c => UInt8.ofNat c.toNat

namespace Header

/-- How many bytes a header takes. -/
def size : Nat := 44

/-- The header for frames of PCM at a rate. Of the count of the frames only 32 bits are used. -/
def ofFrames (rate : UInt32) (count : Nat) : Except Overflow Header := do
  let dataSize ← Overflow.product.check ((UInt32.ofNat count).toNat * 4)
  let fileSize ← Overflow.sum.check (36 + dataSize.toNat)
  let bytesPerSecond ← Overflow.product.check (rate.toNat * 4)
  return ⟨fileSize, 16, 1, 2, rate, bytesPerSecond, 4, 16, dataSize⟩

/-- The header as bytes. -/
def encode (h : Header) : List UInt8 :=
  mark "RIFF" ++ LittleEndian.bytesOf 4 h.fileSize.toNat ++
    mark "WAVEfmt " ++ LittleEndian.bytesOf 4 h.formatSize.toNat ++
    LittleEndian.bytesOf 2 h.formatTag.toNat ++ LittleEndian.bytesOf 2 h.channels.toNat ++
    LittleEndian.bytesOf 4 h.rate.toNat ++ LittleEndian.bytesOf 4 h.bytesPerSecond.toNat ++
    LittleEndian.bytesOf 2 h.bytesPerFrame.toNat ++ LittleEndian.bytesOf 2 h.bitsPerSample.toNat ++
    mark "data" ++ LittleEndian.bytesOf 4 h.dataSize.toNat

/-- Reads the header at the front of a file. The three marks have to stand in their places. -/
def decode? (bytes : List UInt8) : Option Header :=
  let part (offset width : Nat) := (bytes.drop offset).take width
  let word (offset : Nat) := UInt32.ofNat (LittleEndian.valueOf (part offset 4))
  let half (offset : Nat) := UInt16.ofNat (LittleEndian.valueOf (part offset 2))
  if (bytes.take size).length = size ∧ part 0 4 = mark "RIFF" ∧ part 8 8 = mark "WAVEfmt " ∧
      part 36 4 = mark "data" then
    some ⟨word 4, word 16, half 20, half 22, word 24, word 28, half 32, half 34, word 40⟩
  else none

end Header

/-! ## Frames -/

variable {S : Type} [Scalar S]

/-- The bytes of a sample of PCM. -/
def sampleBytes (sample : Int16) : List UInt8 := LittleEndian.bytesOf 2 sample.toUInt16.toNat

/-- The bytes of a frame. -/
def frameBytes (frame : Frame S) : List UInt8 :=
  sampleBytes frame.pcm.1 ++ sampleBytes frame.pcm.2

/-- The sample that two bytes make. -/
def sampleOf (low high : UInt8) : S :=
  let word := (UInt16.ofNat (LittleEndian.valueOf [low, high])).toInt16
  Scalar.ofInt word.toInt / Scalar.ofInt 32767

/-- The frames that bytes make, four bytes each. Up to three bytes at the end are left over. -/
def framesOf : List UInt8 → List (Frame S)
  | leftLow :: leftHigh :: rightLow :: rightHigh :: rest =>
    ⟨sampleOf leftLow leftHigh, sampleOf rightLow rightHigh⟩ :: framesOf rest
  | _ => []

/-! ## Files -/

/-- Writes frames as a file. -/
def encode (rate : UInt32) (frames : List (Frame S)) : Except Overflow (List UInt8) := do
  let header ← Header.ofFrames rate frames.length
  return header.encode ++ frames.flatMap frameBytes

/-- Reads a file, for its rate and its frames. -/
def decode (bytes : List UInt8) : Except WavError (UInt32 × List (Frame S)) :=
  match Header.decode? bytes with
  | none => .error .noHeader
  | some header =>
    if header.formatTag ≠ 1 ∨ header.channels ≠ 2 ∨ header.bitsPerSample ≠ 16 then
      .error (.layout header.formatTag header.channels header.bitsPerSample)
    else
      let data := (bytes.drop Header.size).take header.dataSize.toNat
      if data.length < header.dataSize.toNat then .error .dataMissing
      else .ok (header.rate, framesOf data)

end Wav

end Tonegraph
