import Brenn.Store.Reads

/-!
Where positions stand while messages come and go.

A publish, a release and an eviction leave every position alone and never lower the
retained tail.
-/

namespace Brenn.Store.DbChannel
open Brenn.Lib Brenn.Queue Std

universe u v w

variable {U : Type u} {T : Type v} {S : Type w} [LinearOrder S] {channel after : DbChannel U T S}

/-- How many of `held` retained messages a depth reaches. -/
def spanned : Depth → Nat → Nat
  | .bounded n, held => min n held
  | .unbounded, held => held

theorem Sound.primedPosition_eq (sound : channel.Sound) (pushDepth : Depth) :
    channel.primedPosition pushDepth = channel.lastRetainedSeq + 1 - spanned pushDepth channel.retainedView.length := by
  cases pushDepth with
  | bounded n => exact sound.primed_eq n
  | unbounded =>
    -- an unbounded read is a read of as many rows as there are
    have whole := sound.primed_eq channel.retainedView.length
    rw [Nat.min_self] at whole
    rw [spanned, ← whole, primedPosition, primedPosition, retainedTailFloorSeq, retainedTailFloorSeq,
      sound.newest_retained, limited, limited, List.take_of_length_le (by rw [List.length_reverse])]

/-- What time does to a channel: the positions stay, and the head and the tail do not go back. -/
structure Later (channel after : DbChannel U T S) : Prop where
  sound : after.Sound
  cursors : after.cursors = channel.cursors
  head : channel.lastRetainedSeq ≤ after.lastRetainedSeq
  tail : ∀ pushDepth, channel.primedPosition pushDepth ≤ after.primedPosition pushDepth

/-- `count` messages entered retention. -/
theorem Sound.later_of_entered (sound : channel.Sound) (soundAfter : after.Sound) (cursors : after.cursors = channel.cursors)
    {count : Nat} (head : after.lastRetainedSeq = channel.lastRetainedSeq + count)
    (view : after.retainedView.length = channel.retainedView.length + count) : channel.Later after where
  sound := soundAfter
  cursors := cursors
  head := by omega
  tail pushDepth := by
    rw [sound.primedPosition_eq, soundAfter.primedPosition_eq, head, view]
    cases pushDepth with
    | bounded n =>
      simp only [spanned]
      omega
    | unbounded =>
      simp only [spanned]
      omega

theorem Sound.later_append (sound : channel.Sound) {rowId : Nat} (above : ∀ row ∈ channel.rows, row.id < rowId)
    (uuid : U) (message : NewMessage T) : channel.Later (channel.append rowId uuid message).2 := by
  obtain ⟨soundAfter, view⟩ := sound.append above uuid message
  exact sound.later_of_entered soundAfter rfl rfl (by rw [view, List.length_append, List.length_singleton])

theorem releaseRows_head (due : List (Deferred (MessageRow U T) T)) (channel : DbChannel U T S) :
    (releaseRows due channel).2.lastRetainedSeq = channel.lastRetainedSeq + (releaseRows due channel).1.length := by
  induction due generalizing channel with
  | nil => rfl
  | cons entry due ih =>
    have next : (channel.releaseRow entry.id).lastRetainedSeq = channel.lastRetainedSeq + 1 := rfl
    simp only [releaseRows, List.length_cons, ih]
    omega

theorem Sound.later_release (sound : channel.Sound) (now : Nat) : channel.Later (channel.releaseDueForChannel now).2 := by
  unfold releaseDueForChannel
  obtain ⟨soundAfter, view⟩ := sound.releaseRows (waiting_deferredRows sound.ids fun row => decide (row.releaseAt ≤ now))
  exact sound.later_of_entered soundAfter (releaseRows_frame _ channel).1 (releaseRows_head _ channel)
    (by rw [view, List.length_append])

theorem Sound.later_evict (sound : channel.Sound) (keep : Nat) : channel.Later (channel.busGcEvictChannel keep).2 := by
  obtain ⟨soundAfter, view⟩ := sound.evict keep
  have frame : (channel.busGcEvictChannel keep).2.cursors = channel.cursors ∧
      (channel.busGcEvictChannel keep).2.lastRetainedSeq = channel.lastRetainedSeq := by
    unfold busGcEvictChannel
    dsimp only
    split <;> exact ⟨rfl, rfl⟩
  refine ⟨soundAfter, frame.1, frame.2.ge, fun pushDepth => ?_⟩
  rw [sound.primedPosition_eq, soundAfter.primedPosition_eq, frame.2, view, List.length_drop]
  cases pushDepth with
  | bounded n =>
    simp only [spanned]
    omega
  | unbounded =>
    simp only [spanned]
    omega

end Brenn.Store.DbChannel
