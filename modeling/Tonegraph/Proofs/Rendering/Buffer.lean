import Mathlib.Order.Basic
/-!
# What finds room in the buffer of a device

Segments are put into the buffer of a device one after the other, each in three parts: a ramp, its
content, and a ramp. A ramp is put in at once, as much of it as there is room for. Content is put in
whenever the buffer is filled, and each time the device plays a step of frames after that. So the
buffer is full after every filling but those behind the last frame of content, and how much content
has found room after so many of them is a minimum of two numbers (`Device.filled`).

`Device.shares` says how much of each segment finds room, from what the segments have and how often
the buffer is filled from each. All of them find room for everything exactly if each does with the
backlog that the earlier ones have left: `Device.shares_eq_all_iff`.
-/

set_option autoImplicit false

namespace Tonegraph

/-- How many frames of its parts are heard of a segment. -/
structure Share where
  fadeIn : Nat
  content : Nat
  fadeOut : Nat
deriving DecidableEq, Repr

/-- The frames of a share. -/
def Share.total (share : Share) : Nat := share.fadeIn + share.content + share.fadeOut

/-- What a segment has for the buffer, and how many times the buffer is filled from it. Its last ramp
depends on how far the content has come. -/
structure Part where
  fadeIn : Nat
  content : Nat
  fadeOut : Nat → Nat
  fills : Nat

/-- All that a segment has. -/
def Part.all (part : Part) : Share := ⟨part.fadeIn, part.content, part.fadeOut part.content⟩

/-- A segment has as much as a share says. -/
structure Share.Within (share : Share) (part : Part) : Prop where
  fadeIn : share.fadeIn ≤ part.fadeIn
  content : share.content ≤ part.content
  fadeOut : share.fadeOut ≤ part.fadeOut share.content

theorem Part.all_within (part : Part) : part.all.Within part :=
  ⟨Nat.le_refl _, Nat.le_refl _, Nat.le_refl _⟩

/-- A device with a buffer, which has room for the frames of a step. -/
structure Device where
  capacity : Nat
  /-- The frames that are played in a step. -/
  step : Nat
  step_le : step ≤ capacity

namespace Device

variable (d : Device)

/-! ## One segment -/

/-- The room that there is for content when the buffer is filled so many times, with so many frames
queued before. -/
def room (queued : Nat) : Nat → Nat
  | 0 => 0
  | fills + 1 => d.capacity - queued + fills * d.step

/-- The content that has found room after the buffer was filled so many times. -/
def filled (queued content fills : Nat) : Nat := min content (d.room queued fills)

/-- The frames that are queued when the buffer was filled so many times and as many steps were
played. -/
def left (queued content fills : Nat) : Nat :=
  queued + d.filled queued content fills - fills * d.step

/-- How much of a segment finds room behind so many queued frames. -/
def share (queued : Nat) (part : Part) : Share :=
  let fadeIn := min part.fadeIn (d.capacity - queued)
  let content := d.filled (queued + fadeIn) part.content part.fills
  let left := d.left (queued + fadeIn) part.content part.fills
  ⟨fadeIn, content, min (part.fadeOut content) (d.capacity - left)⟩

/-- The frames that are queued behind a segment. -/
def behind (queued : Nat) (part : Part) : Nat :=
  d.left (queued + (d.share queued part).fadeIn) part.content part.fills +
    (d.share queued part).fadeOut

variable {d} {queued content fills : Nat}

theorem left_le (bounded : queued ≤ d.capacity) (content fills : Nat) :
    d.left queued content fills ≤ d.capacity := by
  unfold left filled
  cases fills with
  | zero =>
      rw [room, Nat.min_zero]
      omega
  | succ fills =>
      rw [room, Nat.add_one_mul]
      omega

/-- Filling the buffer once more takes the content that there is room for or that is left, and then
a step is played. -/
theorem filled_succ (bounded : queued ≤ d.capacity) :
    let more := min (d.capacity - d.left queued content fills)
      (content - d.filled queued content fills)
    d.filled queued content (fills + 1) = d.filled queued content fills + more ∧
      d.left queued content (fills + 1) = d.left queued content fills + more - d.step := by
  have step_le := d.step_le
  cases fills with
  | zero =>
      simp only [left, filled, room, Nat.zero_mul, Nat.zero_add, Nat.one_mul, Nat.min_zero]
      omega
  | succ fills =>
      -- The buffer was full, or all content is in it.
      simp only [left, filled, room, Nat.add_one_mul]
      generalize fills * d.step = played
      omega

theorem share_within (queued : Nat) (part : Part) : (d.share queued part).Within part :=
  ⟨Nat.min_le_left _ _, Nat.min_le_left _ _, Nat.min_le_left _ _⟩

theorem behind_le (bounded : queued ≤ d.capacity) (part : Part) :
    d.behind queued part ≤ d.capacity := by
  have within : queued + (d.share queued part).fadeIn ≤ d.capacity := by
    show queued + min part.fadeIn (d.capacity - queued) ≤ d.capacity
    omega
  have left := left_le within part.content part.fills
  have fadeOut : (d.share queued part).fadeOut ≤
      d.capacity - d.left (queued + (d.share queued part).fadeIn) part.content part.fills :=
    Nat.min_le_right _ _
  unfold behind
  omega

variable (d) in
/-- There is room for all of a segment behind so many queued frames. -/
structure HasRoom (queued : Nat) (part : Part) : Prop where
  fadeIn : queued + part.fadeIn ≤ d.capacity
  content : part.content ≤ d.room (queued + part.fadeIn) part.fills
  fadeOut : queued + part.fadeIn + part.content - part.fills * d.step +
    part.fadeOut part.content ≤ d.capacity

instance (queued : Nat) (part : Part) : Decidable (d.HasRoom queued part) :=
  decidable_of_iff (queued + part.fadeIn ≤ d.capacity ∧
      part.content ≤ d.room (queued + part.fadeIn) part.fills ∧
      queued + part.fadeIn + part.content - part.fills * d.step +
        part.fadeOut part.content ≤ d.capacity)
    ⟨fun ⟨fadeIn, content, fadeOut⟩ => ⟨fadeIn, content, fadeOut⟩,
      fun ⟨fadeIn, content, fadeOut⟩ => ⟨fadeIn, content, fadeOut⟩⟩

variable {part : Part}

/-- A segment finds room for everything exactly if there is room for it. -/
theorem share_eq_all_iff (bounded : queued ≤ d.capacity) :
    d.share queued part = part.all ↔ d.HasRoom queued part := by
  by_cases first : queued + part.fadeIn ≤ d.capacity
  · have fadeIn : min part.fadeIn (d.capacity - queued) = part.fadeIn := by omega
    by_cases second : part.content ≤ d.room (queued + part.fadeIn) part.fills
    · have content : d.filled (queued + part.fadeIn) part.content part.fills = part.content :=
        Nat.min_eq_left second
      have least := left_le first part.content part.fills
      have fadeOut : min (part.fadeOut part.content) (d.capacity -
            d.left (queued + part.fadeIn) part.content part.fills) = part.fadeOut part.content ↔
          d.left (queued + part.fadeIn) part.content part.fills + part.fadeOut part.content ≤
            d.capacity := by omega
      simp only [share, Part.all, fadeIn, content, Share.mk.injEq, true_and, fadeOut]
      rw [Device.left, content]
      exact ⟨fun third => ⟨first, second, third⟩, fun roomy => roomy.fadeOut⟩
    · refine iff_of_false (fun same => second ?_) fun roomy => second roomy.content
      simp only [share, Part.all, fadeIn, Share.mk.injEq] at same
      have content : min part.content (d.room (queued + part.fadeIn) part.fills) = part.content :=
        same.2.1
      omega
  · refine iff_of_false (fun same => first ?_) fun roomy => first roomy.fadeIn
    have fadeIn : min part.fadeIn (d.capacity - queued) = part.fadeIn :=
      congrArg Share.fadeIn same
    omega

/-! ## One segment after the other -/

variable (d) (parts : Nat → Part)

/-- The frames that are queued before a segment begins. -/
def queuedBefore : Nat → Nat
  | 0 => 0
  | index + 1 => d.behind (queuedBefore index) (parts index)

/-- How much of each segment finds room. -/
def shares (index : Nat) : Share := d.share (d.queuedBefore parts index) (parts index)

/-- The content of a segment that has found room after the buffer was filled so many times from it. -/
def contentAfter (index fills : Nat) : Nat :=
  d.filled (d.queuedBefore parts index + (d.shares parts index).fadeIn) (parts index).content fills

/-- The frames that are queued after the buffer was filled so many times from a segment. -/
def queuedAfter (index fills : Nat) : Nat :=
  d.left (d.queuedBefore parts index + (d.shares parts index).fadeIn) (parts index).content fills

/-- The frames that are queued before a segment begins if all before it have found room for
everything. -/
def backlog : Nat → Nat
  | 0 => 0
  | index + 1 => backlog index + (parts index).fadeIn + (parts index).content -
      (parts index).fills * d.step + (parts index).fadeOut (parts index).content

theorem queuedBefore_le (index : Nat) : d.queuedBefore parts index ≤ d.capacity := by
  induction index with
  | zero => exact Nat.zero_le _
  | succ index ih => exact behind_le ih _

theorem fadeIn_le (index : Nat) :
    d.queuedBefore parts index + (d.shares parts index).fadeIn ≤ d.capacity := by
  have before := queuedBefore_le d parts index
  show d.queuedBefore parts index +
    min (parts index).fadeIn (d.capacity - d.queuedBefore parts index) ≤ d.capacity
  omega

theorem contentAfter_le (index fills : Nat) :
    d.contentAfter parts index fills ≤ (parts index).content := Nat.min_le_left _ _

theorem queuedAfter_le (index fills : Nat) : d.queuedAfter parts index fills ≤ d.capacity :=
  left_le (fadeIn_le d parts index) _ _

theorem contentAfter_zero (index : Nat) : d.contentAfter parts index 0 = 0 :=
  Nat.min_zero _

theorem queuedAfter_zero (index : Nat) :
    d.queuedAfter parts index 0 = d.queuedBefore parts index + (d.shares parts index).fadeIn := by
  rw [queuedAfter, left, filled, room, Nat.min_zero, Nat.zero_mul]
  rfl

/-- The buffer is filled once more from a segment, and a step is played. -/
theorem after_succ (index fills : Nat) :
    let more := min (d.capacity - d.queuedAfter parts index fills)
      ((parts index).content - d.contentAfter parts index fills)
    d.contentAfter parts index (fills + 1) = d.contentAfter parts index fills + more ∧
      d.queuedAfter parts index (fills + 1) = d.queuedAfter parts index fills + more - d.step :=
  filled_succ (fadeIn_le d parts index)

variable {d parts}

theorem behind_of_hasRoom (roomy : d.HasRoom queued part) :
    d.behind queued part = queued + part.fadeIn + part.content - part.fills * d.step +
      part.fadeOut part.content := by
  have bounded : queued ≤ d.capacity := by
    have first := roomy.fadeIn
    omega
  have all := (share_eq_all_iff bounded).mpr roomy
  rw [behind, all, Part.all, Device.left, filled, Nat.min_eq_left roomy.content]

/-- Where there has been room for everything the backlog is queued. -/
theorem queuedBefore_eq_backlog {index : Nat}
    (roomy : ∀ earlier < index, d.HasRoom (d.backlog parts earlier) (parts earlier)) :
    d.queuedBefore parts index = d.backlog parts index := by
  induction index with
  | zero => rfl
  | succ index ih =>
      have before := ih fun earlier sooner => roomy earlier (by omega)
      rw [queuedBefore, before, behind_of_hasRoom (roomy index (by omega)), backlog]

/-- All segments find room for everything exactly if there is room for each behind the backlog of
those before it. -/
theorem shares_eq_all_iff {count : Nat} :
    (∀ index < count, d.shares parts index = (parts index).all) ↔
      ∀ index < count, d.HasRoom (d.backlog parts index) (parts index) := by
  induction count with
  | zero => exact iff_of_true (by omega) (by omega)
  | succ count ih =>
      rw [Nat.forall_lt_succ_right, Nat.forall_lt_succ_right, ih]
      refine and_congr_right fun roomy => ?_
      rw [shares, ← queuedBefore_eq_backlog roomy]
      exact share_eq_all_iff (queuedBefore_le d parts count)

end Device

end Tonegraph
