import Tonegraph.Arithmetic
/-!
# Frames

A frame is one sample for each of two channels, nominally between -1 and 1. As PCM a sample is
held between these bounds and then a whole number of 16 bits, cut towards zero.
-/

set_option autoImplicit false

namespace Tonegraph

/-- A sample for the left and one for the right channel. -/
structure Frame (S : Type) where
  left : S
  right : S
deriving DecidableEq, Repr

namespace Frame

variable {S : Type} [Scalar S]

/-- Nothing on either channel. -/
def silence : Frame S := ⟨Scalar.ofNat 0, Scalar.ofNat 0⟩

/-- The same sample on both channels. -/
def mono (sample : S) : Frame S := ⟨sample, sample⟩

/-- Both channels times a gain. -/
def scaled (f : Frame S) (gain : S) : Frame S := ⟨f.left * gain, f.right * gain⟩

/-- Whether both channels are zero. -/
def isSilent (f : Frame S) : Bool := f.left == Scalar.ofNat 0 && f.right == Scalar.ofNat 0

/-- A sample held between -1 and 1; an undefined one stays so. -/
def clamped (sample : S) : S :=
  if sample < Scalar.ofInt (-1) then Scalar.ofInt (-1)
  else if Scalar.ofInt 1 < sample then Scalar.ofInt 1
  else sample

/-- A sample as PCM. -/
def pcmOf (sample : S) : Int16 :=
  Int16.ofInt (Scalar.truncate (-32768) 32767 (clamped sample * Scalar.ofInt 32767))

/-- Both samples as PCM. -/
def pcm (f : Frame S) : Int16 × Int16 := (pcmOf f.left, pcmOf f.right)

end Frame

end Tonegraph
