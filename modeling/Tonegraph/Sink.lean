import Tonegraph.Frame
/-!
# Sinks

A sink is where frames go. Whoever renders asks how many frames there is room for, pushes at most
so many, and comes back later; nothing ever waits.
-/

set_option autoImplicit false

namespace Tonegraph

/-- A place `K` for frames of samples `S`. -/
class FrameSink (K : Type) (S : outParam Type) where
  /-- Frames per second. -/
  rate : K → Nat
  /-- How many frames can be pushed now without being dropped. -/
  available : K → Nat
  /-- Pushes one frame; without room it is dropped. -/
  push : K → Frame S → K
  /-- Begins output. -/
  start : K → K
  /-- Ends output; frames pushed before may still be heard. -/
  stop : K → K

/-- Pushes frames one after the other. -/
def FrameSink.pushAll {K S : Type} [FrameSink K S] (sink : K) (frames : Array (Frame S)) : K :=
  frames.foldl FrameSink.push sink

end Tonegraph
