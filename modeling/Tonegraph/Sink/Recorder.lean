import Tonegraph.Sink
/-!
# The recorder

A sink that keeps every frame it accepts. It has the buffer of a device: a pushed frame is queued
until the device has consumed it, and a frame for which the buffer has no room is dropped and
counted.
-/

set_option autoImplicit false

namespace Tonegraph

/-- A sink that records frames of samples `S`. -/
structure Recorder (S : Type) where
  rate : Nat
  /-- The frames that the device buffer can hold. -/
  capacity : Nat
  /-- The frames in the device buffer. -/
  queued : Nat
  /-- The frames accepted and not yet taken, in the order of pushing. -/
  frames : Array (Frame S)
  running : Bool
  starts : Nat
  stops : Nat
  dropped : Nat

namespace Recorder

variable {S : Type}

/-- A recorder that has seen nothing. -/
def ofCapacity (rate capacity : Nat) : Recorder S := ⟨rate, capacity, 0, #[], false, 0, 0, 0⟩

/-- How many frames the buffer has room for. -/
def available (r : Recorder S) : Nat := r.capacity - r.queued

/-- Records a frame, or drops it when the buffer is full. -/
def push (r : Recorder S) (frame : Frame S) : Recorder S :=
  if r.queued < r.capacity then
    { r with queued := r.queued + 1, frames := r.frames.push frame }
  else { r with dropped := r.dropped + 1 }

/-- Begins output. -/
def start (r : Recorder S) : Recorder S := { r with running := true, starts := r.starts + 1 }

/-- Ends output. -/
def stop (r : Recorder S) : Recorder S := { r with running := false, stops := r.stops + 1 }

/-- The device plays `count` of the queued frames, or all there are. -/
def consume (r : Recorder S) (count : Nat) : Recorder S := { r with queued := r.queued - count }

/-- Takes the recorded frames away; the buffer stays as it is. -/
def take (r : Recorder S) : Array (Frame S) × Recorder S := (r.frames, { r with frames := #[] })

instance : FrameSink (Recorder S) S where
  rate := rate
  available := available
  push := push
  start := start
  stop := stop

end Recorder

end Tonegraph
