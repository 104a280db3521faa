import Tonegraph.Segment
/-!
# Segments that keep their chart

To draw the preview of a segment its formula is evaluated at up to a thousand times, so whoever
shows a segment keeps the chart beside it. The chart is drawn when the segment is created, and again
when it gets another window or another voice. Playing does not touch it, and a call that is refused
leaves segment and chart as they are.
-/

set_option autoImplicit false

namespace Tonegraph

/-- A segment and the chart that was drawn of it last. -/
structure ChartedSegment (R S : Type) where
  segment : Segment R S
  chart : List (PreviewPoint R)

namespace ChartedSegment

variable {R S : Type} [Arithmetic R] [Scalar S]

/-- A segment with its chart drawn. -/
def draw (s : Segment R S) : ChartedSegment R S := ⟨s, s.preview⟩

/-- An idle segment with its chart. -/
def create (text : String) (formula : Formula R) (start stop : Int32) (voice : Voice R S) :
    Except SegmentError (ChartedSegment R S) :=
  (Segment.create text formula start stop voice).map draw

/-- Gives an idle segment another window, and draws its chart anew. -/
def setWindow (c : ChartedSegment R S) (start stop : Int32) :
    Except SegmentError (ChartedSegment R S) :=
  (c.segment.setWindow start stop).map draw

/-- Gives an idle segment another voice, and draws its chart anew. -/
def setVoice (c : ChartedSegment R S) (voice : Voice R S) :
    Except SegmentError (ChartedSegment R S) :=
  (c.segment.setVoice voice).map draw

variable [Narrowing R S] {K : Type} [FrameSink K S]

/-- Starts an idle segment. -/
def start (c : ChartedSegment R S) (sink : K) : Except SegmentError (ChartedSegment R S × K) :=
  (c.segment.start sink).map fun (segment, sink) => ({ c with segment }, sink)

/-- Pushes as much content as the sink has room for. -/
def fill (c : ChartedSegment R S) (sink : K) : Nat × ChartedSegment R S × K :=
  let (count, segment, sink) := c.segment.fill sink
  (count, { c with segment }, sink)

/-- Stops a playing segment. -/
def stop (c : ChartedSegment R S) (sink : K) : Except SegmentError (ChartedSegment R S × K) :=
  (c.segment.stop sink).map fun (segment, sink) => ({ c with segment }, sink)

end ChartedSegment

end Tonegraph
