import Tonegraph.Sink
/-!
# The ring between a renderer and a device

The renderer pushes frames in at one end, and the device's callback takes them out at the other,
in the same order. What is queued is always played out, also after output has ended. A callback
that runs out of frames is filled with silence, and counts as an underrun while output is on.
-/

set_option autoImplicit false

namespace Tonegraph

/-- A bounded queue of frames of samples `S`, and what is known about its two ends. -/
structure Ring (S : Type) where
  rate : Nat
  capacity : Nat
  /-- The frames pushed and not yet played, the oldest first. -/
  queue : Array (Frame S)
  /-- Whether output is on. -/
  active : Bool
  /-- The callbacks that ran dry while output was on. -/
  underruns : Nat

namespace Ring

variable {S : Type}

/-- An empty ring. -/
def ofCapacity (rate capacity : Nat) : Ring S := ⟨rate, capacity, #[], false, 0⟩

/-- How many frames there is room for. -/
def available (r : Ring S) : Nat := r.capacity - r.queue.size

/-- Queues a frame, or drops it when the ring is full. -/
def push (r : Ring S) (frame : Frame S) : Ring S :=
  if r.queue.size < r.capacity then { r with queue := r.queue.push frame } else r

/-- Begins output. -/
def start (r : Ring S) : Ring S := { r with active := true }

/-- Ends output. -/
def stop (r : Ring S) : Ring S := { r with active := false }

instance : FrameSink (Ring S) S where
  rate := rate
  available := available
  push := push
  start := start
  stop := stop

/-- What a frame has for a channel: the left sample, the right sample, and nothing beyond. -/
def channel [Scalar S] (frame : Frame S) : Nat → S
  | 0 => frame.left
  | 1 => frame.right
  | _ => Scalar.ofNat 0

/-- Fills a device buffer of `length` samples, with the samples of `channels` channels of a frame
side by side. Each frame of the buffer takes one frame from the ring, also a last one that has no
room for all channels; no channels count as one. -/
def callback [Scalar S] (r : Ring S) (length channels : Nat) : List S × Ring S :=
  let width := max channels 1
  let wanted := (length + width - 1) / width
  let samples := (List.range length).map fun i =>
    channel (r.queue.getD (i / width) .silence) (i % width)
  let starved := r.queue.size < wanted
  (samples,
    { r with
      queue := r.queue.extract wanted r.queue.size
      underruns := if starved ∧ r.active then r.underruns + 1 else r.underruns })

end Ring

end Tonegraph
