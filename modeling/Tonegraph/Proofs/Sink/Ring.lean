import Mathlib.Algebra.Order.Floor.Div
import Tonegraph.Proofs.Content
import Tonegraph.Proofs.Sink.Room
/-!
# What comes out of a ring

A ring has two parties. Whoever renders pushes frames and begins and ends output, and the device
calls back for samples. `Ring.Step` is one thing that either does, and `Ring.run` what becomes of a
ring when they take turns in any order.

* `Ring.accepted_eq`: the frames that found room are those that callbacks took, in the same order,
  and behind them those still queued.
* `Ring.callback_serves`: a callback takes a frame for each slot of its buffer or all there are, gives
  the samples of that frame or silence, and counts as an underrun if it starved while output was on.
* `Ring.active_run`: output is on when it has been begun and not ended since (`Ring.IsOn`).

A segment asks for the room once and then pushes many frames. `Ring.Shared` is a ring as it appears
to whoever renders while the device is at work: callbacks, as many and as large as one likes, come
before and after everything that is done to it. They only make room, so the frames of a segment are
all accepted (`Ring.Shared.written_delivers`).
-/

set_option autoImplicit false

namespace Tonegraph.Ring

variable {R S : Type}

/-- What a device asks for when it calls back: a buffer of so many samples for so many channels. -/
structure Callback where
  length : Nat
  channels : Nat
deriving DecidableEq, Repr

namespace Callback

/-- The samples of a buffer that belong to one frame. -/
def width (asked : Callback) : Nat := max asked.channels 1

/-- The frames that a buffer has slots for, the last of which may be cut short. -/
def slots (asked : Callback) : Nat := asked.length ⌈/⌉ asked.width

theorem width_pos (asked : Callback) : 0 < asked.width :=
  Nat.lt_of_lt_of_le Nat.one_pos (Nat.le_max_right _ _)

theorem slots_eq (asked : Callback) :
    asked.slots = (asked.length + max asked.channels 1 - 1) / max asked.channels 1 :=
  Nat.ceilDiv_eq_add_pred_div _ _

/-- Every sample lies in a slot. -/
theorem div_lt_slots (asked : Callback) (j : Fin asked.length) :
    j / asked.width < asked.slots := by
  rw [slots, Nat.div_lt_iff_lt_mul asked.width_pos, Nat.mul_comm]
  have covered : asked.length ≤ asked.width * (asked.length ⌈/⌉ asked.width) :=
    le_smul_ceilDiv asked.width_pos
  exact Nat.lt_of_lt_of_le j.isLt covered

end Callback

/-- What is done to a ring: a frame is pushed, output begins or ends, or the device calls back. -/
inductive Step (S : Type) where
  | push (frame : Frame S)
  | start
  | stop
  | callback (asked : Callback)

/-- The frames that are pushed by steps, whether there is room for them or not. -/
def offered : List (Step S) → List (Frame S)
  | [] => []
  | .push frame :: rest => frame :: offered rest
  | _ :: rest => offered rest

theorem offered_append (first second : List (Step S)) :
    offered (first ++ second) = offered first ++ offered second := by
  induction first with
  | nil => rfl
  | cons step rest ih => cases step <;> simp [offered, ih]

theorem offered_callbacks (callbacks : List Callback) :
    offered (callbacks.map (Step.callback (S := S))) = [] := by
  induction callbacks with
  | nil => rfl
  | cons asked rest ih => simpa [offered] using ih

variable [Scalar S]

/-! ## Steps in any order -/

/-- The ring after a step. -/
def after (r : Ring S) : Step S → Ring S
  | .push frame => r.push frame
  | .start => r.start
  | .stop => r.stop
  | .callback asked => (r.callback asked.length asked.channels).2

/-- The ring after one step after the other. -/
def run (r : Ring S) (steps : List (Step S)) : Ring S := steps.foldl after r

/-- The frame that a step brings in, if it finds room. -/
def accepts (r : Ring S) : Step S → List (Frame S)
  | .push frame => if r.queue.size < r.capacity then [frame] else []
  | _ => []

/-- The frames at the front of the queue that are gone after a callback. -/
def gives (r : Ring S) : Step S → List (Frame S)
  | .callback asked =>
    r.queue.toList.take (r.queue.size - (r.after (.callback asked)).queue.size)
  | _ => []

/-- The frames that find room in the course of steps. -/
def accepted (r : Ring S) : List (Step S) → List (Frame S)
  | [] => []
  | step :: rest => r.accepts step ++ (r.after step).accepted rest

/-- The frames that callbacks take in the course of steps. -/
def played (r : Ring S) : List (Step S) → List (Frame S)
  | [] => []
  | step :: rest => r.gives step ++ (r.after step).played rest

theorem run_append (r : Ring S) (first second : List (Step S)) :
    r.run (first ++ second) = (r.run first).run second :=
  List.foldl_append

theorem accepted_append (r : Ring S) (first second : List (Step S)) :
    r.accepted (first ++ second) = r.accepted first ++ (r.run first).accepted second := by
  induction first generalizing r with
  | nil => rfl
  | cons step rest ih =>
      rw [List.cons_append, accepted, ih, accepted, List.append_assoc]
      rfl

/-- The queue after a callback is what is left behind the frames taken. -/
theorem callback_queue (r : Ring S) (asked : Callback) :
    (r.after (.callback asked)).queue.toList = r.queue.toList.drop asked.slots := by
  rw [asked.slots_eq]
  simp [after, callback]

theorem gives_callback (r : Ring S) (asked : Callback) :
    r.gives (.callback asked) = r.queue.toList.take asked.slots := by
  have size : (r.after (.callback asked)).queue.size = r.queue.size - asked.slots := by
    rw [← Array.length_toList, callback_queue, List.length_drop, Array.length_toList]
  rw [gives, size]
  rcases Nat.le_total asked.slots r.queue.size with enough | starved
  · rw [Nat.sub_sub_self enough]
  · rw [Nat.sub_eq_zero_of_le starved, Nat.sub_zero, List.take_of_length_le starved,
      List.take_of_length_le (Nat.le_of_eq Array.length_toList)]

/-- One step neither loses nor moves a frame. -/
theorem step_conserves (r : Ring S) (step : Step S) :
    r.queue.toList ++ r.accepts step = r.gives step ++ (r.after step).queue.toList := by
  cases step with
  | push frame =>
      by_cases room : r.queue.size < r.capacity
      · simp [accepts, gives, after, push, room]
      · simp [accepts, gives, after, push, room]
  | start => simp [accepts, gives, after, start]
  | stop => simp [accepts, gives, after, stop]
  | callback asked =>
      rw [gives_callback, callback_queue, List.take_append_drop]
      exact List.append_nil _

theorem run_conserves (r : Ring S) (steps : List (Step S)) :
    r.queue.toList ++ r.accepted steps = r.played steps ++ (r.run steps).queue.toList := by
  induction steps generalizing r with
  | nil => exact List.append_nil _
  | cons step rest ih =>
      calc r.queue.toList ++ (r.accepts step ++ (r.after step).accepted rest)
          = r.gives step ++ ((r.after step).queue.toList ++ (r.after step).accepted rest) := by
            rw [← List.append_assoc, step_conserves, List.append_assoc]
        _ = r.gives step ++ (r.after step).played rest ++ (r.run (step :: rest)).queue.toList := by
            rw [ih, List.append_assoc]
            rfl

/-- What an empty ring accepts is what callbacks take, and behind it the queue. -/
theorem accepted_eq (rate capacity : Nat) (steps : List (Step S)) :
    (ofCapacity rate capacity).accepted steps =
      (ofCapacity rate capacity).played steps ++
        ((ofCapacity rate capacity).run steps).queue.toList := by
  have conserved := (ofCapacity rate capacity : Ring S).run_conserves steps
  simpa [ofCapacity] using conserved

/-! ## Whether output is on -/

/-- Output has been begun and not ended since. -/
def IsOn (steps : List (Step S)) : Prop :=
  ∃ before since, steps = before ++ .start :: since ∧ .stop ∉ since

omit [Scalar S] in
theorem isOn_concat (steps : List (Step S)) (step : Step S) :
    IsOn (steps ++ [step]) ↔ step = .start ∨ step ≠ .stop ∧ IsOn steps := by
  constructor
  · rintro ⟨before, since, same, none⟩
    obtain rfl | ⟨since, last, rfl⟩ := since.eq_nil_or_concat
    · obtain ⟨-, last⟩ := List.append_inj' same rfl
      exact .inl (List.singleton_inj.mp last)
    · rw [List.concat_eq_append] at same none
      rw [← List.cons_append, ← List.append_assoc] at same
      obtain ⟨rfl, final⟩ := List.append_inj' same rfl
      obtain rfl := List.singleton_inj.mp final
      simp only [List.mem_append, List.mem_singleton, not_or] at none
      exact .inr ⟨Ne.symm none.2, before, since, rfl, none.1⟩
  · rintro (rfl | ⟨other, before, since, rfl, none⟩)
    · exact ⟨steps, [], rfl, by simp⟩
    · refine ⟨before, since ++ [step], by simp, ?_⟩
      simpa [none] using other.symm

/-- One step turns output on or off, or leaves it. -/
theorem active_after (r : Ring S) (step : Step S) :
    (r.after step).active = true ↔ step = .start ∨ step ≠ .stop ∧ r.active = true := by
  cases step with
  | push frame =>
      have same : (r.after (.push frame)).active = r.active := by
        simp only [after, push]
        split <;> rfl
      simp [same]
  | start => simp [after, start]
  | stop => simp [after, stop]
  | callback asked => simp [after, callback]

/-- Output is on when it has been begun and not ended since. -/
theorem active_run (rate capacity : Nat) (steps : List (Step S)) :
    ((ofCapacity rate capacity).run steps).active = true ↔ IsOn steps := by
  induction steps using List.reverseRecOn with
  | nil => simp [run, ofCapacity, IsOn]
  | append_singleton steps step ih =>
      rw [run_append, isOn_concat, ← ih]
      exact active_after _ step

/-- One step keeps the queue within the capacity. -/
theorem bounded_after {r : Ring S} (bounded : r.queue.size ≤ r.capacity) (step : Step S) :
    (r.after step).queue.size ≤ (r.after step).capacity ∧ (r.after step).capacity = r.capacity := by
  cases step with
  | push frame =>
      simp only [after, push]
      split
      · next room => exact ⟨by simpa using room, rfl⟩
      · exact ⟨bounded, rfl⟩
  | start => exact ⟨bounded, rfl⟩
  | stop => exact ⟨bounded, rfl⟩
  | callback asked =>
      refine ⟨?_, rfl⟩
      rw [← Array.length_toList, callback_queue, List.length_drop, Array.length_toList]
      exact (Nat.sub_le _ _).trans bounded

theorem bounded_run (rate capacity : Nat) (steps : List (Step S)) :
    ((ofCapacity rate capacity).run steps).queue.size ≤ capacity ∧
      ((ofCapacity rate capacity).run steps).capacity = capacity := by
  induction steps using List.reverseRecOn with
  | nil => exact ⟨Nat.zero_le _, rfl⟩
  | append_singleton steps step ih =>
      obtain ⟨within, same⟩ := ih
      rw [run_append]
      obtain ⟨within', same'⟩ := bounded_after (within.trans_eq same.symm) step
      rw [same] at same'
      exact ⟨within'.trans_eq same', same'⟩

/-! ## One callback -/

/-- A sample of a slot: that of the slot's frame for a channel, or silence if the slot got none. -/
def sampleOf (frame? : Option (Frame S)) (channel : Nat) : S :=
  match frame? with
  | some frame =>
    if channel = 0 then frame.left else if channel = 1 then frame.right else Scalar.ofNat 0
  | none => Scalar.ofNat 0

/-- A callback takes frames off the front of the queue, one for each slot or all there are; fills its
buffer with their samples; and counts as an underrun if it starved while output was on. That it
leaves on or off. -/
structure Serves (r : Ring S) (asked : Callback) (taken : List (Frame S)) (samples : List S)
    (after : Ring S) : Prop where
  queue : r.queue.toList = taken ++ after.queue.toList
  count : taken.length = min r.queue.size (asked.length ⌈/⌉ max asked.channels 1)
  length : samples.length = asked.length
  sample : ∀ j : Fin asked.length, samples[(j : Nat)]? =
    some (sampleOf taken[j / max asked.channels 1]? (j % max asked.channels 1))
  active : after.active = r.active
  underruns : after.underruns = r.underruns +
    if taken.length < asked.length ⌈/⌉ max asked.channels 1 ∧ r.active then 1 else 0

theorem channel_eq_sampleOf (frame? : Option (Frame S)) (i : Nat) :
    channel (frame?.getD .silence) i = sampleOf frame? i := by
  match frame?, i with
  | none, 0 => rfl
  | none, 1 => rfl
  | none, _ + 2 => rfl
  | some _, 0 => rfl
  | some _, 1 => rfl
  | some _, _ + 2 => rfl

theorem callback_serves (r : Ring S) (asked : Callback) :
    r.Serves asked (r.gives (.callback asked)) (r.callback asked.length asked.channels).1
      (r.after (.callback asked)) where
  queue := by rw [gives_callback, callback_queue, List.take_append_drop]
  count := by
    rw [gives_callback, List.length_take, Array.length_toList, Nat.min_comm]
    rfl
  length := by simp [callback]
  sample := by
    intro j
    have slot : (j : Nat) / asked.width < asked.slots := asked.div_lt_slots j
    have frame : (r.gives (.callback asked))[(j : Nat) / asked.width]? =
        r.queue[(j : Nat) / asked.width]? := by
      rw [gives_callback, List.getElem?_take_of_lt slot, Array.getElem?_toList]
    show _ = some (sampleOf (r.gives (.callback asked))[(j : Nat) / asked.width]? _)
    rw [frame, ← channel_eq_sampleOf]
    simp [callback, Callback.width, Array.getD_eq_getD_getElem?]
  active := rfl
  underruns := by
    have starved : (r.gives (.callback asked)).length < asked.length ⌈/⌉ max asked.channels 1 ↔
        r.queue.size < (asked.length + max asked.channels 1 - 1) / max asked.channels 1 := by
      rw [← asked.slots_eq, gives_callback, List.length_take, Array.length_toList]
      exact min_lt_iff.trans (or_iff_right (Nat.lt_irrefl _))
    simp only [starved, after, callback]
    split <;> rfl

/-! ## Rendering while the device is at work -/

/-- A ring as it appears to whoever renders while the device is at work. Callbacks come at every
moment between two steps, which ones `turns` says. -/
structure Shared (S : Type) where
  ring : Ring S
  /-- All that has been done to the ring. -/
  steps : List (Step S)
  /-- The callbacks that come at each moment. -/
  turns : Nat → List Callback
  /-- How many moments there were. -/
  moment : Nat

namespace Shared

/-- The ring after the callbacks of a moment. -/
def interrupted (shared : Shared S) : Shared S :=
  let callbacks := (shared.turns shared.moment).map .callback
  { shared with
    ring := shared.ring.run callbacks
    steps := shared.steps ++ callbacks
    moment := shared.moment + 1 }

/-- The ring after a step of whoever renders, with the callbacks that come before and after it. -/
def did (shared : Shared S) (step : Step S) : Shared S :=
  let met := shared.interrupted
  { met with ring := met.ring.after step, steps := met.steps ++ [step] }.interrupted

instance : FrameSink (Shared S) S where
  rate shared := shared.ring.rate
  available shared := shared.ring.available
  push shared frame := shared.did (.push frame)
  start shared := shared.did .start
  stop shared := shared.did .stop

/-- What was done between two moments of a ring, with every frame that was pushed accepted. -/
def Delivers (first last : Shared S) : Prop :=
  ∃ steps, last.steps = first.steps ++ steps ∧ last.ring = first.ring.run steps ∧
    first.ring.accepted steps = offered steps

variable {first middle last : Shared S}

theorem Delivers.refl (shared : Shared S) : shared.Delivers shared :=
  ⟨[], (List.append_nil _).symm, rfl, rfl⟩

theorem Delivers.trans (left : first.Delivers middle) (right : middle.Delivers last) :
    first.Delivers last := by
  obtain ⟨before, steps, ring, accepted⟩ := left
  obtain ⟨behind, steps', ring', accepted'⟩ := right
  refine ⟨before ++ behind, ?_, ?_, ?_⟩
  · rw [steps', steps, List.append_assoc]
  · rw [ring', ring, run_append]
  · rw [accepted_append, offered_append, accepted, ← ring, accepted']

/-- Callbacks bring no frames, and only make room. -/
theorem callbacks_make_room (r : Ring S) (callbacks : List Callback) :
    r.accepted (callbacks.map .callback) = [] ∧
      r.available ≤ (r.run (callbacks.map .callback)).available := by
  induction callbacks generalizing r with
  | nil => exact ⟨rfl, Nat.le_refl _⟩
  | cons asked rest ih =>
      obtain ⟨none, room⟩ := ih (r.after (.callback asked))
      refine ⟨none, Nat.le_trans ?_ room⟩
      have size : (r.after (.callback asked)).queue.size = r.queue.size - asked.slots := by
        rw [← Array.length_toList, callback_queue, List.length_drop, Array.length_toList]
      show r.capacity - r.queue.size ≤ r.capacity - (r.after (.callback asked)).queue.size
      rw [size]
      omega

theorem interrupted_delivers (shared : Shared S) :
    shared.Delivers shared.interrupted ∧
      shared.ring.available ≤ shared.interrupted.ring.available := by
  obtain ⟨none, room⟩ := callbacks_make_room shared.ring (shared.turns shared.moment)
  exact ⟨⟨_, rfl, rfl, none.trans (offered_callbacks _).symm⟩, room⟩

/-- A step by which every frame it brings is accepted. -/
theorem did_delivers {shared : Shared S} {step : Step S}
    (accepted : shared.interrupted.ring.accepts step = offered [step]) :
    shared.Delivers (shared.did step) := by
  let met := shared.interrupted
  let done : Shared S :=
    { met with ring := met.ring.after step, steps := met.steps ++ [step] }
  have steps : met.Delivers done := by
    refine ⟨[step], rfl, rfl, ?_⟩
    rw [Ring.accepted, accepted]
    exact List.append_nil _
  exact (shared.interrupted_delivers.1.trans steps).trans done.interrupted_delivers.1

theorem start_delivers (shared : Shared S) : shared.Delivers (FrameSink.start shared) :=
  did_delivers rfl

theorem stop_delivers (shared : Shared S) : shared.Delivers (FrameSink.stop shared) :=
  did_delivers rfl

/-- A frame for which there was room is accepted, and takes no more than its place of the room. -/
theorem push_delivers {shared : Shared S} (room : 0 < FrameSink.available shared)
    (frame : Frame S) :
    shared.Delivers (FrameSink.push shared frame) ∧
      FrameSink.available shared - 1 ≤ FrameSink.available (FrameSink.push shared frame) := by
  let met := shared.interrupted
  have more : shared.ring.available ≤ met.ring.available := shared.interrupted_delivers.2
  have free : met.ring.queue.size < met.ring.capacity :=
    Nat.lt_of_sub_pos (Nat.lt_of_lt_of_le room more)
  constructor
  · have accepted : met.ring.accepts (.push frame) = offered [.push frame] := by
      simp [accepts, offered, free]
    exact did_delivers accepted
  · let done : Shared S :=
      { met with ring := met.ring.push frame, steps := met.steps ++ [.push frame] }
    have left : done.ring.available = met.ring.available - 1 := by
      show (met.ring.push frame).available = _
      rw [Ring.push, if_pos free]
      simp only [Ring.available, Array.size_push]
      omega
    calc shared.ring.available - 1
        ≤ met.ring.available - 1 := Nat.sub_le_sub_right more 1
      _ = done.ring.available := left.symm
      _ ≤ done.interrupted.ring.available := done.interrupted_delivers.2

/-- A portion of frames for which there was room is accepted, whatever callbacks come between. -/
theorem pushAll_delivers {shared : Shared S} {frames : Array (Frame S)}
    (fits : frames.size ≤ FrameSink.available shared) :
    shared.Delivers (FrameSink.pushAll shared frames) := by
  let so := fun (now : Shared S) (rest : List (Frame S)) =>
    shared.Delivers now ∧ rest.length ≤ FrameSink.available now
  refine (FrameSink.pushAll_of_push so ?_ ⟨.refl shared, fits⟩).1
  rintro now frame rest ⟨delivers, fits⟩
  rw [List.length_cons] at fits
  have room : 0 < FrameSink.available now := Nat.lt_of_lt_of_le (by omega) fits
  obtain ⟨delivers', left⟩ := push_delivers room frame
  exact ⟨delivers.trans delivers', Nat.le_trans (Nat.le_sub_one_of_lt fits) left⟩

/-- Rendering within the room delivers every frame. -/
theorem written_delivers (written : FrameSink.Written first last) : first.Delivers last := by
  induction written with
  | idle => exact .refl first
  | started _ ih => exact ih.trans (start_delivers _)
  | stopped _ ih => exact ih.trans (stop_delivers _)
  | pushed _ fits ih => exact ih.trans (pushAll_delivers fits)

end Shared

/-- **Delivery.** Let frames be pushed into an empty ring, output begun and ended, and callbacks
come, all in any order. The frames that found room are those that callbacks took, in the same order,
and behind them those still queued, never more than the ring has room for. Output is on when it has
been begun and not ended since. Each callback is served: it counts as an underrun if it starves while
output is on, and nothing else counts as one. And whatever callbacks come between the frames that a
segment pushes when it is started, filled from or stopped, none of these frames is refused. -/
theorem delivery [Arithmetic R] [Narrowing R S] (rate capacity : Nat) :
    (∀ steps : List (Step S),
      let first : Ring S := ofCapacity rate capacity
      let ring := first.run steps
      first.accepted steps = first.played steps ++ ring.queue.toList ∧
        ring.queue.size ≤ capacity ∧ ring.capacity = capacity ∧
        (ring.active = true ↔ IsOn steps) ∧
        (∀ asked, ring.Serves asked (ring.gives (.callback asked))
          (ring.callback asked.length asked.channels).1 (ring.after (.callback asked))) ∧
        (∀ frame, (ring.after (.push frame)).underruns = ring.underruns) ∧
        (ring.after .start).underruns = ring.underruns ∧
        (ring.after .stop).underruns = ring.underruns) ∧
    ∀ (shared : Shared S) (call : SegmentCall R S), shared.Delivers (call.on shared) := by
  constructor
  · intro steps first ring
    obtain ⟨within, same⟩ := bounded_run (S := S) rate capacity steps
    refine ⟨accepted_eq rate capacity steps, within, same, active_run rate capacity steps,
      fun asked => callback_serves ring asked, fun frame => ?_, rfl, rfl⟩
    show (ring.push frame).underruns = ring.underruns
    unfold push
    split <;> rfl
  · intro shared call
    exact Shared.written_delivers (call.on_written shared)

/-- Output is on, and a callback starves. Of three frames two find room, and a callback for two
channels takes both for its three samples. The next one starves again; after output has ended one
that starves does not count. What a segment fills in meanwhile is not refused. -/
theorem delivery_while_starving :
    let a : Frame Float32 := .mono 0.25
    let b : Frame Float32 := .mono 0.5
    let steps := [.start, .callback ⟨2, 1⟩, .push a, .push b, .push a, .callback ⟨3, 2⟩]
    let first : Ring Float32 := ofCapacity 2 2
    let on := first.run steps
    let off := first.run (steps ++ [.stop])
    let shared : Shared Float32 := ⟨on, steps, fun _ => [⟨2, 2⟩], 0⟩
    let playing := (Segment.acrossZero.started first).1
    first.accepted steps = [a, b] ∧ first.played steps = [a, b] ∧
      on.active = true ∧ on.underruns = 1 ∧ (on.after (.callback ⟨3, 2⟩)).underruns = 2 ∧
      off.active = false ∧ (off.after (.callback ⟨3, 2⟩)).underruns = 1 ∧
      shared.Delivers ((SegmentCall.fill playing).on shared) := by
  intro a b steps first on off shared playing
  obtain ⟨runs, segments⟩ := delivery (R := Float) (S := Float32) 2 2
  obtain ⟨accepted, -, -, active, serves, -⟩ := runs steps
  obtain ⟨-, -, -, active', serves', -⟩ := runs (steps ++ [.stop])
  have played : first.played steps = [a, b] := by
    simp [first, steps, Ring.played, gives, after, start, push, callback, ofCapacity]
  have empty : on.queue = #[] ∧ off.queue = #[] := by
    simp [on, off, first, steps, run, after, start, stop, push, callback, ofCapacity]
  have counted : on.underruns = 1 ∧ off.underruns = 1 := by decide +kernel
  have begun : on.active = true := active.mpr ⟨[], _, rfl, by simp⟩
  have ended : off.active = false := by
    rw [← Bool.not_eq_true]
    exact mt active'.mp ((isOn_concat steps .stop).not.mpr (by simp))
  -- Nothing is queued, so the callback takes no frame.
  have starves (r : Ring Float32) (none : r.queue = #[]) : r.gives (.callback ⟨3, 2⟩) = [] := by
    simp [gives_callback, none]
  have slots : 0 < 3 ⌈/⌉ max 2 1 := by decide
  have again := (serves ⟨3, 2⟩).underruns
  have not_again := (serves' ⟨3, 2⟩).underruns
  rw [starves _ empty.1, counted.1, if_pos ⟨slots, begun⟩] at again
  rw [starves _ empty.2, counted.2,
    if_neg fun starved => Bool.false_ne_true (ended.symm.trans starved.2)] at not_again
  rw [played, empty.1] at accepted
  exact ⟨accepted, played, begun, counted.1, again, ended, not_again, segments shared _⟩

/-- A segment that has two frames and found room for two pushes both, though callbacks between them
make room again. The one that starves is an underrun, as output is on. -/
example :
    let idle : Shared Float32 := ⟨.ofCapacity 2 1, [], fun _ => [], 0⟩
    let shared : Shared Float32 :=
      ⟨(ofCapacity 2 2).start, [], fun moment => if moment = 0 then [] else [⟨2, 2⟩], 0⟩
    let playing := (Segment.acrossZero.started idle).1
    let after := (SegmentCall.fill playing).on shared
    (offered after.steps).length = 2 ∧ after.steps.length = 5 ∧ after.ring.queue.size = 0 ∧
      after.ring.underruns = 1 := by
  decide +kernel

end Tonegraph.Ring
