import Tonegraph.Proofs.Arithmetic.Exact
import Tonegraph.Proofs.Content
import Tonegraph.Proofs.Sink.Room
import Tonegraph.Sink.Recorder
/-!
# A recorder drops nothing

A `Ledger` is a recorder together with the frames that have left it: those that were taken away and
those that the device has played. It is `Balanced` when nothing was dropped, the buffer holds no
more than it can, and every frame recorded is queued or has been played.

Segments and timelines render within the room (`FrameSink.Written`), and while a portion of frames
is pushed nothing else is done to the recorder. So each frame of the portion finds the room that was
counted for it (`Ledger.pushAll_allBalanced`), and the ledger is balanced not only between calls
but at every moment of one: `Watched` keeps every state that a sink passes through, and
`Ledger.balanced_throughout` is about all of them.
-/

set_option autoImplicit false

namespace Tonegraph

variable {T R S K : Type}

/-! ## Sinks under watch -/

/-- A sink, and every state that it was in before. -/
structure Watched (K : Type) where
  now : K
  before : List K

namespace Watched

/-- Every state that the sink has been in, the present one first. -/
def states (watched : Watched K) : List K := watched.now :: watched.before

/-- The sink is in another state. -/
def become (watched : Watched K) (next : K) : Watched K := ⟨next, watched.states⟩

/-- A sink that is watched from now on. -/
def fresh (sink : K) : Watched K := ⟨sink, []⟩

instance [FrameSink K S] : FrameSink (Watched K) S where
  rate watched := FrameSink.rate watched.now
  available watched := FrameSink.available watched.now
  push watched frame := watched.become (FrameSink.push watched.now frame)
  start watched := watched.become (FrameSink.start watched.now)
  stop watched := watched.become (FrameSink.stop watched.now)

/-- Something holds of every state that the sink has been in. -/
def Always (so : K → Prop) (watched : Watched K) : Prop := ∀ state ∈ watched.states, so state

variable {so : K → Prop} {watched : Watched K}

theorem Always.now (always : watched.Always so) : so watched.now :=
  always _ List.mem_cons_self

theorem Always.become (always : watched.Always so) {next : K} (holds : so next) :
    (watched.become next).Always so := by
  intro state member
  obtain rfl | earlier := List.mem_cons.mp member
  · exact holds
  · exact always state earlier

end Watched

/-! ## Ledgers -/

/-- A recorder, and how many of its frames were taken away and played by the device. -/
structure Ledger (S : Type) where
  recorder : Recorder S
  taken : Nat
  consumed : Nat

namespace Ledger

/-- The ledger of a recorder that has seen nothing. -/
def ofCapacity (rate capacity : Nat) : Ledger S := ⟨.ofCapacity rate capacity, 0, 0⟩

/-- The device plays frames, as many as are queued. -/
def consume (ledger : Ledger S) (count : Nat) : Ledger S :=
  { ledger with
    recorder := ledger.recorder.consume count
    consumed := ledger.consumed + min count ledger.recorder.queued }

/-- The frames recorded are taken away. -/
def take (ledger : Ledger S) : Ledger S :=
  { ledger with
    recorder := ledger.recorder.take.2
    taken := ledger.taken + ledger.recorder.take.1.size }

instance : FrameSink (Ledger S) S where
  rate ledger := ledger.recorder.rate
  available ledger := ledger.recorder.available
  push ledger frame := { ledger with recorder := ledger.recorder.push frame }
  start ledger := { ledger with recorder := ledger.recorder.start }
  stop ledger := { ledger with recorder := ledger.recorder.stop }

/-- Nothing was dropped, no more is queued than there is room for, and every frame recorded is
queued or has been played. -/
structure Balanced (ledger : Ledger S) : Prop where
  dropped : ledger.recorder.dropped = 0
  queued_le : ledger.recorder.queued ≤ ledger.recorder.capacity
  recorded : ledger.taken + ledger.recorder.frames.size =
    ledger.recorder.queued + ledger.consumed

theorem ofCapacity_balanced (rate capacity : Nat) :
    (ofCapacity rate capacity : Ledger S).Balanced :=
  ⟨rfl, Nat.zero_le _, rfl⟩

variable {ledger : Ledger S}

theorem Balanced.start (balanced : ledger.Balanced) : (FrameSink.start ledger).Balanced :=
  ⟨balanced.dropped, balanced.queued_le, balanced.recorded⟩

theorem Balanced.stop (balanced : ledger.Balanced) : (FrameSink.stop ledger).Balanced :=
  ⟨balanced.dropped, balanced.queued_le, balanced.recorded⟩

theorem Balanced.consume (balanced : ledger.Balanced) (count : Nat) :
    (ledger.consume count).Balanced := by
  obtain ⟨dropped, queued, recorded⟩ := balanced
  refine ⟨dropped, ?_, ?_⟩
  · show ledger.recorder.queued - count ≤ ledger.recorder.capacity
    omega
  · show ledger.taken + ledger.recorder.frames.size =
      ledger.recorder.queued - count + (ledger.consumed + min count ledger.recorder.queued)
    omega

theorem Balanced.take (balanced : ledger.Balanced) : ledger.take.Balanced := by
  refine ⟨balanced.dropped, balanced.queued_le, ?_⟩
  show ledger.taken + ledger.recorder.frames.size + 0 = _
  exact balanced.recorded

/-- A frame for which there is room is recorded, and takes that room. -/
theorem push_of_room (room : 0 < FrameSink.available ledger) (frame : Frame S) :
    FrameSink.push ledger frame =
      { ledger with
        recorder := { ledger.recorder with
          queued := ledger.recorder.queued + 1
          frames := ledger.recorder.frames.push frame } } := by
  have short : ledger.recorder.queued < ledger.recorder.capacity := Nat.lt_of_sub_pos room
  show { ledger with recorder := ledger.recorder.push frame } = _
  rw [Recorder.push, if_pos short]

theorem available_push_of_room (room : 0 < FrameSink.available ledger) (frame : Frame S) :
    FrameSink.available (FrameSink.push ledger frame) = FrameSink.available ledger - 1 := by
  rw [push_of_room room]
  exact Nat.sub_add_eq _ _ _

theorem Balanced.push (balanced : ledger.Balanced) (room : 0 < FrameSink.available ledger)
    (frame : Frame S) : (FrameSink.push ledger frame).Balanced := by
  have short : ledger.recorder.queued < ledger.recorder.capacity := Nat.lt_of_sub_pos room
  rw [push_of_room room]
  refine ⟨balanced.dropped, short, ?_⟩
  have recorded := balanced.recorded
  simp only [Array.size_push]
  omega

/-! ## Every state of a run -/

/-- A portion of frames for which there is room leaves every state balanced: each frame uses up one
place of the room that was counted for the portion. -/
theorem pushAll_allBalanced {watched : Watched (Ledger S)} {frames : Array (Frame S)}
    (balanced : watched.Always Balanced) (fits : frames.size ≤ FrameSink.available watched) :
    (FrameSink.pushAll watched frames).Always Balanced := by
  let so := fun (watched : Watched (Ledger S)) (rest : List (Frame S)) =>
    watched.Always Balanced ∧ rest.length ≤ FrameSink.available watched
  refine (FrameSink.pushAll_of_push so ?_ ⟨balanced, fits⟩).1
  rintro watched frame rest ⟨balanced, fits⟩
  rw [List.length_cons] at fits
  have room : 0 < FrameSink.available watched.now := Nat.lt_of_lt_of_le (by omega) fits
  have left : FrameSink.available (FrameSink.push watched.now frame) =
      FrameSink.available watched.now - 1 := available_push_of_room room frame
  refine ⟨balanced.become (balanced.now.push room frame), ?_⟩
  show rest.length ≤ FrameSink.available (FrameSink.push watched.now frame)
  rw [left]
  exact Nat.le_sub_one_of_lt fits

/-- Rendering within the room keeps every state balanced. -/
theorem written_allBalanced {first last : Watched (Ledger S)}
    (written : FrameSink.Written first last) (balanced : first.Always Balanced) :
    last.Always Balanced := by
  induction written with
  | idle => exact balanced
  | started _ ih => exact ih.become ih.now.start
  | stopped _ ih => exact ih.become ih.now.stop
  | pushed _ fits ih => exact pushAll_allBalanced ih fits

/-- What is done with a recorder: a segment or a timeline plays into it, its device plays frames, or
its frames are taken away. Segments and timelines are given as they are when they are called. -/
inductive Act (T R S : Type) where
  | segment (call : SegmentCall R S)
  | timeline (tl : Timeline T R S) (call : Call T R S)
  | consume (count : Nat)
  | take

variable [Scalar T] [Arithmetic R] [Scalar S] [Narrowing R S]

/-- The ledger under watch after an act. -/
def Act.on (act : Act T R S) (watched : Watched (Ledger S)) : Watched (Ledger S) :=
  match act with
  | .segment call => call.on watched
  | .timeline tl call => (call.on ⟨tl, watched⟩).2.sink
  | .consume count => watched.become (watched.now.consume count)
  | .take => watched.become watched.now.take

theorem Act.on_allBalanced (act : Act T R S) {watched : Watched (Ledger S)}
    (balanced : watched.Always Balanced) : (act.on watched).Always Balanced := by
  cases act with
  | segment call => exact written_allBalanced (call.on_written watched) balanced
  | timeline tl call => exact written_allBalanced (call.on_written _) balanced
  | consume count => exact balanced.become (balanced.now.consume count)
  | take => exact balanced.become balanced.now.take

/-- What is balanced stays so under any acts. -/
theorem acts_allBalanced (acts : List (Act T R S)) {watched : Watched (Ledger S)}
    (balanced : watched.Always Balanced) :
    (acts.foldl (fun watched act => act.on watched) watched).Always Balanced := by
  induction acts generalizing watched with
  | nil => exact balanced
  | cons act rest ih => exact ih (act.on_allBalanced balanced)

/-- **Nothing is dropped.** Let segments and timelines of any kind play into a recorder in any order,
while its device plays frames and frames are taken away at any time. In every state that the
recorder passes through nothing has been dropped, no more frames are queued than it has room for,
and there are as many frames recorded as are queued and have been played. -/
theorem balanced_throughout (rate capacity : Nat) (acts : List (Act T R S)) :
    ∀ ledger ∈ (acts.foldl (fun watched act => act.on watched)
        (Watched.fresh (ofCapacity rate capacity))).states,
      ledger.recorder.dropped = 0 ∧
        ledger.recorder.queued ≤ ledger.recorder.capacity ∧
        ledger.taken + ledger.recorder.frames.size =
          ledger.recorder.queued + ledger.consumed := by
  have begins : (Watched.fresh (ofCapacity rate capacity : Ledger S)).Always Balanced := by
    intro state member
    obtain rfl | earlier := List.mem_cons.mp member
    · exact ofCapacity_balanced rate capacity
    · cases earlier
  intro ledger member
  have balanced : ledger.Balanced := acts_allBalanced acts begins ledger member
  exact ⟨balanced.dropped, balanced.queued_le, balanced.recorded⟩

/-- A segment fills a recorder of three places, which is emptied; then a timeline fills it again. -/
theorem acrossZero_balanced :
    let idle : Timeline ℚ Float Float32 := .ofSegment .acrossZero
    let ring : Ring Float32 := .ofCapacity 2 3
    let acts : List (Act ℚ Float Float32) :=
      [.segment (.start .acrossZero),
        .segment (.fill (Segment.acrossZero.started ring).1), .consume 5, .take,
        .timeline idle .start, .timeline (Call.start.on ⟨idle, ring⟩).2.timeline (.tick 0),
        .consume 1]
    let watched := acts.foldl (fun watched act => act.on watched) (Watched.fresh (ofCapacity 2 3))
    let ledger := watched.now
    ledger ∈ watched.states ∧
      (ledger.taken, ledger.recorder.frames.size) = (3, 3) ∧
      (ledger.recorder.queued, ledger.consumed) = (2, 4) ∧
      ledger.recorder.dropped = 0 ∧
      ledger.recorder.queued ≤ ledger.recorder.capacity ∧
      ledger.taken + ledger.recorder.frames.size = ledger.recorder.queued + ledger.consumed := by
  intro idle ring acts watched ledger
  have member : ledger ∈ watched.states := List.mem_cons_self
  have recorded : (ledger.taken, ledger.recorder.frames.size) = (3, 3) := by decide +kernel
  have left : (ledger.recorder.queued, ledger.consumed) = (2, 4) := by decide +kernel
  exact ⟨member, recorded, left, balanced_throughout 2 3 acts ledger member⟩

end Ledger

end Tonegraph
