import Brenn.Queue.Ring

/-!
One subscriber's position on a shared retained ring.

Reading a window moves nothing; only `advance` moves the position, and it reports what it
stepped past that no window served. The source's two assertions in `advance` are `none` here.
-/

namespace Brenn.Queue
open Brenn.Lib

universe u v

variable {M : Type u} {Ep : Type v}

/-- A subscriber's activation view with the boundary where its new entries begin. -/
structure Window (M : Type u) where
  entries : List (Retained M)
  newFrom : Nat
  pushEnabled : Bool
  deriving Repr, DecidableEq

/-- The `(through, seenFloor)` pair an advance over the window is made with. -/
def Window.advanceSpan (window : Window M) : Option (Nat × Nat) :=
  if !window.pushEnabled then none
  else
    match window.entries.getLast?, window.entries.head? with
    | some last, some first => some (last.seq, first.seq)
    | _, _ => none

theorem Window.advanceSpan_eq {window : Window M} {last first : Retained M} (enabled : window.pushEnabled = true)
    (back : window.entries.getLast? = some last) (front : window.entries.head? = some first) :
    window.advanceSpan = some (last.seq, first.seq) := by
  simp [advanceSpan, enabled, back, front]

def Window.newLen (window : Window M) : Nat := window.entries.length - window.newFrom

def Window.newEntries (window : Window M) : List (Retained M) := window.entries.drop window.newFrom

/-- What an advance passed over unserved, and the part of it no eviction has reported. -/
structure Advance where
  dropped : Nat
  noiseCharge : Nat
  deriving Repr, DecidableEq

structure SubscriberCursor where
  nextOwed : Nat
  pushDepth : Nat
  deriving Repr, DecidableEq

/-- The oldest seq the ring holds, or the seq it assigns next when it holds nothing. -/
def frontier (ring : RetainedRing M Ep) : Nat := ring.oldestSeq.getD (ring.newestSeq + 1)

/-- Where a window's new entries begin: the newest `min unseen pushLimit` of them are new. -/
def newBoundary (seqs : List Nat) (nextOwed pushLimit : Nat) : Nat :=
  let (len, unseen) := seqs.foldl
    (fun (len, unseen) seq => (len + 1, if seq ≥ nextOwed then unseen + 1 else unseen)) (0, 0)
  len - min unseen pushLimit

/-- Cut a gap window to what lies above `resumeSeq`, counting the positions lost in between. -/
def gapSuffix (window : List (Retained M)) (resumeSeq : Nat) : List (Retained M) × Nat :=
  let suffix := window.filter (fun retained => decide (retained.seq > resumeSeq))
  (suffix, (suffix.head?.map fun retained => retained.seq - resumeSeq - 1).getD 0)

namespace SubscriberCursor

def new (lastSeen pushDepth : Nat) : SubscriberCursor := ⟨lastSeen + 1, pushDepth⟩

def primed (ring : RetainedRing M Ep) (pushDepth : Nat) : SubscriberCursor :=
  new (ring.primedFrom pushDepth) pushDepth

def primedAtLeast (ring : RetainedRing M Ep) (pushDepth floorNextOwed : Nat) : SubscriberCursor :=
  let cursor := primed ring pushDepth
  { cursor with nextOwed := max cursor.nextOwed floorNextOwed }

def setPushDepth (cursor : SubscriberCursor) (pushDepth : Nat) : SubscriberCursor :=
  { cursor with pushDepth := pushDepth }

def isPushEnabled (cursor : SubscriberCursor) : Bool := decide (cursor.pushDepth > 0)

def hasDeliverable (cursor : SubscriberCursor) (ring : RetainedRing M Ep) : Bool :=
  cursor.isPushEnabled && !ring.isEmpty && decide (ring.newestSeq ≥ cursor.nextOwed)

/-- How many of the subscriber's unseen messages the ring has retired since its frontier
    stood at `oldFrontier`. -/
def evictedSince (cursor : SubscriberCursor) (ring : RetainedRing M Ep) (oldFrontier : Nat) : Nat :=
  if !cursor.isPushEnabled then 0
  else frontier ring - max cursor.nextOwed oldFrontier

def window (cursor : SubscriberCursor) (ring : RetainedRing M Ep) (pushLimit retainLimit : Nat) :
    Window M :=
  let entries := ring.tail (max pushLimit retainLimit)
  { entries := entries
    newFrom := newBoundary (entries.map Retained.seq) cursor.nextOwed pushLimit
    pushEnabled := decide (pushLimit > 0) }

/-- Report what was passed unserved. `none` is the panic of a sampled cursor or of a floor above the window. -/
def advance (cursor : SubscriberCursor) (ring : RetainedRing M Ep) (through seenFloor : Nat) :
    Option (Advance × SubscriberCursor) :=
  if !cursor.isPushEnabled then none
  else if ¬ seenFloor ≤ through + 1 then none
  else
    let advance : Advance :=
      { dropped := seenFloor - cursor.nextOwed
        noiseCharge := seenFloor - max cursor.nextOwed (frontier ring) }
    some (advance, if through ≥ cursor.nextOwed then { cursor with nextOwed := through + 1 } else cursor)

end SubscriberCursor

/-! ### Front edge and boundary -/

theorem frontier_eq (ring : RetainedRing M Ep) : frontier ring = ring.nextSeq - ring.entries.length := by
  have newest := ring.newestSeq_succ
  unfold frontier
  rw [ring.oldestSeq_eq]
  split
  next empty => simp [empty, newest]
  next => rfl

theorem newBoundary_eq (seqs : List Nat) (nextOwed pushLimit : Nat) :
    newBoundary seqs nextOwed pushLimit =
      seqs.length - min (seqs.countP fun seq => decide (nextOwed ≤ seq)) pushLimit := by
  suffices counts : ∀ len unseen, seqs.foldl
      (fun (counts : Nat × Nat) seq => (counts.1 + 1, if seq ≥ nextOwed then counts.2 + 1 else counts.2))
      (len, unseen) = (len + seqs.length, unseen + seqs.countP fun seq => decide (nextOwed ≤ seq)) by
    unfold newBoundary
    rw [counts 0 0]
    simp
  induction seqs with
  | nil => simp
  | cons seq seqs ih =>
    intro len unseen
    rw [List.foldl_cons, ih, List.length_cons, List.countP_cons]
    by_cases owed : nextOwed ≤ seq <;> simp [owed] <;> omega

/-- The entries a window carries are the run of the newest seqs it asked for. -/
theorem tail_numbered (ring : RetainedRing M Ep) (n : Nat) :
    Numbered Retained.seq (ring.nextSeq - (ring.tail n).length) (ring.tail n) := by
  have counted := ring.counted
  have cut := ring.dense.drop (Nat.sub_le ring.entries.length n)
  rw [ring.tail_eq, List.length_drop]
  rwa [show ring.nextSeq - (ring.entries.length - (ring.entries.length - n)) =
    ring.nextSeq - ring.entries.length + (ring.entries.length - n) by omega]

theorem length_tail (ring : RetainedRing M Ep) (n : Nat) :
    (ring.tail n).length = min n ring.entries.length := by
  rw [ring.tail_eq, List.length_drop]
  omega

theorem primedFrom_eq (ring : RetainedRing M Ep) (depth : Nat) :
    ring.primedFrom depth + 1 = ring.nextSeq - (ring.tail depth).length := by
  have counted := ring.counted
  have length := length_tail ring depth
  unfold RetainedRing.primedFrom
  cases front : (ring.tail depth).head? with
  | none =>
    have empty := List.head?_eq_none_iff.mp front
    simp only [empty, List.length_nil]
    have := ring.newestSeq_succ
    omega
  | some first =>
    have number := (tail_numbered ring depth).key_head front
    simp only
    omega

theorem primed_nextOwed (ring : RetainedRing M Ep) (pushDepth : Nat) :
    (SubscriberCursor.primed ring pushDepth).nextOwed = ring.nextSeq - min pushDepth ring.entries.length := by
  rw [← length_tail, ← primedFrom_eq]
  rfl

/-- A window that served something is advanced over from its oldest seq through the newest. -/
theorem window_advanceSpan (cursor : SubscriberCursor) (ring : RetainedRing M Ep)
    (pushLimit retainLimit : Nat) :
    (cursor.window ring pushLimit retainLimit).advanceSpan =
      if pushLimit = 0 ∨ ring.entries = [] then none
      else some (ring.newestSeq, ring.nextSeq - min (max pushLimit retainLimit) ring.entries.length) := by
  have counted := ring.counted
  have newest := ring.newestSeq_succ
  have numbered := tail_numbered ring (max pushLimit retainLimit)
  have length := length_tail ring (max pushLimit retainLimit)
  rcases Nat.eq_zero_or_pos pushLimit with sampled | enabled
  · simp [Window.advanceSpan, SubscriberCursor.window, sampled]
  by_cases empty : ring.entries = []
  · simp [Window.advanceSpan, SubscriberCursor.window, RetainedRing.tail, empty]
  have carried : ring.tail (max pushLimit retainLimit) ≠ [] := by
    have := List.length_pos_iff.mpr empty
    refine List.length_pos_iff.mp ?_
    omega
  have back := List.getLast?_eq_some_getLast carried
  have front := List.head?_eq_some_head carried
  have last := numbered.key_last back
  have first := numbered.key_head front
  rw [Window.advanceSpan_eq (decide_eq_true enabled) back front, if_neg (by simp [enabled.ne', empty]),
    Option.some.injEq, Prod.mk.injEq]
  omega

end Brenn.Queue
