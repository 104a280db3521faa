import Tonegraph.Proofs.Deck.Parallel
import Tonegraph.Proofs.Rebuild
/-!
# Runs of two decks, turn by turn

What a host does with a deck once its segments are in place: the calls of the transport, ticks, and
between them the device playing what is queued. `Turn` is this as data. Of each turn one can tell
what it returned, the frames that it pushed, the events that it emitted, whether the timeline plays
after it and at what position; `Turn.Agrees` says that a turn shows the same on two decks, and
`Deck.Agree` that all turns of a run do.

Two decks agree as long as their timelines stay in some relation and their buffers are equally
full. `Turn.Leads` is what has to be shown for that: a turn leads from timelines in one relation to
timelines in another and does the same to both, whatever matched sinks they are played into. That
it is any sinks and not the two at hand is what makes the frames comparable, as these are read off
tapes in front of the sinks.
-/

set_option autoImplicit false

namespace Tonegraph

variable {T R S K K₁ K₂ : Type}

/-- One turn of a run: a call of the transport, a tick, or the device playing queued frames. -/
inductive Turn (T : Type) where
  | start
  | stop (interrupted : Bool)
  | seekForward
  | seekBackward
  | seekTo (index : Nat)
  | tick (delta : T)
  | consume (count : Nat)

namespace Deck

/-- The device plays so many of the frames that are queued in the sink. -/
def consumed [BufferedSink K S] (deck : Deck T R S K) (count : Nat) : Deck T R S K :=
  { deck with sink := BufferedSink.consume deck.sink count }

/-- A deck of which all events have been taken. -/
def drained (deck : Deck T R S K) : Deck T R S K :=
  { deck with timeline := deck.timeline.drain.2 }

/-- A deck with a blank tape before its sink. -/
def taped (deck : Deck T R S K) : Deck T R S (Tape K S) := ⟨deck.timeline, .blank deck.sink⟩

end Deck

/-! ## Results in place of others -/

/-- A result in place of that of a call changes nothing else. -/
theorem Deck.perform_returning {α β : Type} (call : Transport T R S K α)
    (result : β) (deck : Deck T R S K) :
    (perform (do let _ ← call; return result) deck).2 = (perform call deck).2 := by
  rw [perform_bind]
  rcases perform call deck with ⟨_ | _, _⟩ <;> rfl

theorem Deck.perform_returning_ok {α β : Type} {call : Transport T R S K α} {deck : Deck T R S K}
    {given : α} (succeeds : (perform call deck).1 = .ok given) (result : β) :
    (perform (do let _ ← call; return result) deck).1 = .ok result := by
  rw [perform_bind]
  rcases performed : perform call deck with ⟨_ | _, _⟩
  · rw [performed] at succeeds
    cases succeeds
  · rfl

/-- Calls that do the same to two decks still do with a result in place of theirs. -/
theorem Deck.Together.returning {α β : Type} {related : K₁ → K₂ → Prop}
    {keeps : Clock T → Clock T → Prop} {first : Nat} {a x : Deck T R S K₁} {b y : Deck T R S K₂}
    {left : Transport T R S K₁ α} {right : Transport T R S K₂ α}
    (together : Together related keeps first a b (perform left x) (perform right y)) (result : β) :
    Together related keeps first a b (perform (do let _ ← left; return result) x)
      (perform (do let _ ← right; return result) y) := by
  simp only [perform_bind, perform_pure]
  rcases performed : perform left x with ⟨_ | _, x'⟩ <;>
    rcases performed' : perform right y with ⟨_ | _, y'⟩ <;>
    rw [performed, performed'] at together
  · exact ⟨congrArg _ (Except.error.inj together.result), together.parallel, together.clocks,
      together.sinks, together.told⟩
  · cases together.result
  · cases together.result
  · exact ⟨rfl, together.parallel, together.clocks, together.sinks, together.told⟩

variable [Scalar T] [Arithmetic R] [Scalar S] [Narrowing R S]
variable [BufferedSink K S] [BufferedSink K₁ S] [BufferedSink K₂ S]

/-! ## One turn -/

namespace Turn

/-- What a turn does on a deck. The result is the number of frames of content that a tick rendered,
and zero for all else. -/
def run : Turn T → Transport T R S K Nat
  | .start => do Deck.start; return 0
  | .stop interrupted => do Deck.stop interrupted; return 0
  | .seekForward => do Deck.seekForward; return 0
  | .seekBackward => do Deck.seekBackward; return 0
  | .seekTo index => do Deck.seekTo index; return 0
  | .tick delta => Deck.tick delta
  | .consume count => do modify (·.consumed count); return 0

/-- What a turn gives on a deck, and the deck after it. -/
def on (turn : Turn T) (deck : Deck T R S K) : Except TransportError Nat × Deck T R S K :=
  Deck.perform turn.run deck

/-- The frames that a turn pushes: what it leaves on a blank tape. -/
def pushed (turn : Turn T) (deck : Deck T R S K) : List (Frame S) :=
  (turn.on deck.taped).2.sink.frames

/-- The events that a turn emits: what it leaves to be taken when there was nothing. -/
def emitted (turn : Turn T) (deck : Deck T R S K) : List PlaybackEvent :=
  (turn.on deck.drained).2.timeline.events

/-- A turn shows the same on two decks, of which the first has some segments more in front. Places
are told shifted by their number, handles are told by place, and the positions after it are
related in some way. -/
structure Agrees (first : Nat) (positions : T → T → Prop) (a : Deck T R S K₁) (b : Deck T R S K₂)
    (turn : Turn T) : Prop where
  result : (turn.on a).1 = (turn.on b).1
  pushed : turn.pushed a = turn.pushed b
  emitted :
    List.Forall₂ (Timeline.Tallies first a.timeline b.timeline) (turn.emitted a) (turn.emitted b)
  playing : (turn.on a).2.timeline.playing = (turn.on b).2.timeline.playing
  position : positions (turn.on a).2.timeline.position (turn.on b).2.timeline.position

theorem on_eq (turn : Turn T) (deck : Deck T R S K) :
    turn.on deck = Deck.perform turn.run deck := rfl

theorem on_consume (count : Nat) (deck : Deck T R S K) :
    (Turn.consume count).on deck = (.ok 0, deck.consumed count) := rfl

theorem on_tick (delta : T) (deck : Deck T R S K) :
    (Turn.tick delta).on deck = Deck.perform (Deck.tick delta) deck := rfl

end Turn

/-- All turns of a run show the same on two decks. -/
def Deck.Agree (first : Nat) (positions : T → T → Prop) :
    Deck T R S K₁ → Deck T R S K₂ → List (Turn T) → Prop
  | _, _, [] => True
  | a, b, turn :: rest =>
    turn.Agrees first positions a b ∧ Deck.Agree first positions (turn.on a).2 (turn.on b).2 rest

/-! ## Turns that do the same -/

section

variable {first : Nat} {positions : T → T → Prop}
variable {before between after : Timeline T R S → Timeline T R S → Prop}

/-- A turn leads from timelines in one relation to timelines in another and does the same to both,
whatever matched sinks they are played into. -/
def Turn.Leads (first : Nat) (before after : Timeline T R S → Timeline T R S → Prop)
    (turn : Turn T) : Prop :=
  ∀ {K₁ K₂ : Type} [BufferedSink K₁ S] [BufferedSink K₂ S] {related : K₁ → K₂ → Prop}
    (_ : BufferedSink.Matching related) {a : Deck T R S K₁} {b : Deck T R S K₂},
    before a.timeline b.timeline → related a.sink b.sink →
      ∃ keeps, Deck.Together related keeps first a b (turn.on a) (turn.on b) ∧
        after (turn.on a).2.timeline (turn.on b).2.timeline

variable {a : Deck T R S K₁} {b : Deck T R S K₂}

/-- A relation that does not regard the events not yet taken. -/
def Timeline.IgnoresEvents (relation : Timeline T R S → Timeline T R S → Prop) : Prop :=
  ∀ {a b : Timeline T R S}, relation a b → relation a.drain.2 b.drain.2

/-- A turn that does the same to any two decks so related shows the same on two of them, when their
buffers are equally full. After it they still are. -/
theorem Turn.Leads.agrees {turn : Turn T} (leads : turn.Leads first before after)
    (positions : T → T → Prop) (ignores : Timeline.IgnoresEvents before)
    (shown : ∀ {a b : Timeline T R S}, after a b → positions a.position b.position)
    (related : before a.timeline b.timeline)
    (gauges : BufferedSink.gauge a.sink = BufferedSink.gauge b.sink) :
    turn.Agrees first positions a b ∧ after (turn.on a).2.timeline (turn.on b).2.timeline ∧
      BufferedSink.gauge (turn.on a).2.sink = BufferedSink.gauge (turn.on b).2.sink := by
  obtain ⟨_, together, related'⟩ := leads BufferedSink.gauge_matching related gauges
  obtain ⟨_, taped, -⟩ := leads (BufferedSink.tape_matching [])
    (show before a.taped.timeline b.taped.timeline from related) ⟨gauges, rfl⟩
  obtain ⟨_, drained, -⟩ := leads BufferedSink.gauge_matching
    (show before a.drained.timeline b.drained.timeline from ignores related) gauges
  obtain ⟨left, right, emits, emits', tallies⟩ := drained.told
  refine ⟨⟨together.result, taped.sinks.2, ?_, together.parallel.playing, shown related'⟩,
    related', together.sinks⟩
  have none : a.drained.timeline.events = [] := List.drop_length
  have none' : b.drained.timeline.events = [] := List.drop_length
  have outline : a.drained.timeline.outline = a.timeline.outline := rfl
  have outline' : b.drained.timeline.outline = b.timeline.outline := rfl
  rw [Turn.emitted, Turn.emitted, emits.events, emits'.events, none, none']
  exact Timeline.tallies_foldl_enqueue (tallies.imp fun _ _ => .of_outline outline outline') .nil

/-- What leads from a relation to itself shows the same for as long as it goes on. -/
theorem Deck.agree_of_leads {turns : List (Turn T)}
    (leads : ∀ turn ∈ turns, turn.Leads first before before)
    (ignores : Timeline.IgnoresEvents before)
    (shown : ∀ {a b : Timeline T R S}, before a b → positions a.position b.position)
    (related : before a.timeline b.timeline)
    (gauges : BufferedSink.gauge a.sink = BufferedSink.gauge b.sink) :
    Deck.Agree first positions a b turns := by
  induction turns generalizing a b with
  | nil => trivial
  | cons turn rest ih =>
      obtain ⟨agrees, related', gauges'⟩ :=
        Turn.Leads.agrees (leads turn List.mem_cons_self) positions ignores shown related gauges
      exact ⟨agrees, ih (fun turn member => leads turn (List.mem_cons_of_mem _ member)) related'
        gauges'⟩

end

/-! ## What is built anew -/

namespace Timeline

omit [Scalar S] [Narrowing R S] in
/-- A timeline whose segments are idle from a place on goes on like one built anew of these. -/
theorem alikeFrom_renewed {entries : List (Handle × Segment R S)} {first : Nat}
    (within : first ≤ entries.length)
    (idle : ∀ e ∈ entries.drop first, e.2.playing = false) :
    AlikeFrom first entries (anew (T := T) ((entries.drop first).map (·.2))).entries where
  length := by
    simp only [anew, appended, empty, List.nil_append, List.length_map, List.length_zipIdx,
      List.length_drop]
    omega
  alike {place x y} found found' := by
    have behind : (entries.drop first)[place]? = some x := by
      rw [List.getElem?_drop]
      exact found
    have renewed : y.2 = x.2.renewed := by
      simp only [anew, appended, empty, List.nil_append, List.getElem?_map, List.getElem?_zipIdx,
        behind, Option.map_some, Option.some.injEq] at found'
      rw [← found']
    rw [renewed]
    exact .inr ⟨⟨rfl, rfl, rfl, rfl⟩, idle x (List.mem_of_getElem? behind), rfl⟩

end Timeline

end Tonegraph
