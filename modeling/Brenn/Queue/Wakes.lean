import Brenn.Queue.Core
import Brenn.Lib.Run

/-!
The wake question and the window.

`hasDeliverable` looks at the newest seq alone, while a window counts what is unseen in
a clamped tail of the ring. They agree as long as every held position is push-enabled, and no call
leaves a sampled cursor behind.
-/

namespace Brenn.Queue
open Brenn.Lib Std

universe u v w x

variable {M : Type u} {Ep : Type v} {S : Type w} {P : Type x} [LinearOrder S]

/-- How many of the retained messages a position has not passed. -/
def RetainedRing.unseen (ring : RetainedRing M Ep) (nextOwed : Nat) : Nat :=
  ring.entries.countP fun entry => decide (nextOwed ≤ entry.seq)

theorem RetainedRing.unseen_eq (ring : RetainedRing M Ep) (nextOwed : Nat) :
    ring.unseen nextOwed = ring.nextSeq - max (ring.nextSeq - ring.entries.length) nextOwed := by
  have counted := ring.counted
  rw [unseen, ring.dense.countP_ge nextOwed]
  omega

/-! ### One cursor -/

namespace SubscriberCursor

variable (cursor : SubscriberCursor) (ring : RetainedRing M Ep)

theorem hasDeliverable_iff (enabled : 0 < cursor.pushDepth) :
    cursor.hasDeliverable ring = true ↔ 0 < ring.unseen cursor.nextOwed := by
  have counted := ring.counted
  have newest := ring.newestSeq_succ
  have filled : ring.isEmpty = false ↔ 0 < ring.entries.length := by
    rw [RetainedRing.isEmpty, ← Bool.not_eq_true, List.isEmpty_iff, List.length_pos_iff]
  rw [hasDeliverable, isPushEnabled, ring.unseen_eq]
  simp only [Bool.and_eq_true, Bool.not_eq_true', decide_eq_true_eq, filled]
  constructor
  · rintro ⟨⟨_, holds⟩, trails⟩
    omega
  · intro trails
    refine ⟨⟨enabled, ?_⟩, ?_⟩
    · omega
    · omega

/-- However long the tail a window carries, as many of its entries are new as were asked for and
    are unseen. -/
theorem window_newLen (pushLimit retainLimit : Nat) :
    (cursor.window ring pushLimit retainLimit).newLen = min pushLimit (ring.unseen cursor.nextOwed) := by
  have counted := ring.counted
  have length := length_tail ring (max pushLimit retainLimit)
  have numbered := tail_numbered ring (max pushLimit retainLimit)
  have carried : ((ring.tail (max pushLimit retainLimit)).map Retained.seq).countP
      (fun seq => decide (cursor.nextOwed ≤ seq)) = ring.nextSeq -
        max (ring.nextSeq - (ring.tail (max pushLimit retainLimit)).length) cursor.nextOwed := by
    rw [List.countP_map]
    refine (numbered.countP_ge cursor.nextOwed).trans ?_
    omega
  show (ring.tail (max pushLimit retainLimit)).length -
    newBoundary ((ring.tail (max pushLimit retainLimit)).map Retained.seq) cursor.nextOwed pushLimit = _
  rw [newBoundary_eq, carried, List.length_map, ring.unseen_eq]
  omega

theorem window_newEntries (pushLimit retainLimit : Nat) :
    (cursor.window ring pushLimit retainLimit).newEntries =
      newest (cursor.window ring pushLimit retainLimit).newLen ring.entries := by
  have bounded : (cursor.window ring pushLimit retainLimit).newLen ≤ max pushLimit retainLimit := by
    rw [window_newLen]
    omega
  have carried : (cursor.window ring pushLimit retainLimit).entries =
      newest (max pushLimit retainLimit) ring.entries := ring.tail_eq _
  have boundary : (cursor.window ring pushLimit retainLimit).newFrom ≤
      (cursor.window ring pushLimit retainLimit).entries.length := by
    show newBoundary ((ring.tail (max pushLimit retainLimit)).map Retained.seq) cursor.nextOwed pushLimit ≤
      (ring.tail (max pushLimit retainLimit)).length
    rw [newBoundary_eq, List.length_map]
    exact Nat.sub_le _ _
  calc (cursor.window ring pushLimit retainLimit).newEntries
      = newest (cursor.window ring pushLimit retainLimit).newLen
          (cursor.window ring pushLimit retainLimit).entries := by
        rw [Window.newEntries, Window.newLen, newest, Nat.sub_sub_self boundary]
    _ = newest (cursor.window ring pushLimit retainLimit).newLen ring.entries := by
        rw [carried, newest_newest, Nat.min_eq_left bounded]

end SubscriberCursor

/-! ### The calls of a core -/

inductive CoreCall (M : Type u) (S : Type w) (P : Type x) where
  | append (message : M)
  | releaseDue (now : Nat)
  | setDepth (depth : Nat)
  | park (sender : P) (message : M) (releaseAt : Nat)
  | editDeferred (id : Nat) (message : Option M) (releaseAt : Option Nat)
  | cancelDeferred (id : Nat)
  | attach (subscriber : S) (pushDepth : Nat)
  | attachFrom (subscriber : S) (pushDepth floorNextOwed : Nat)
  | detach (subscriber : S)
  | window (subscriber : S) (pushLimit retainLimit : Nat)
  | advance (subscriber : S) (through seenFloor : Nat)
  deriving Repr, DecidableEq

namespace RingCore

def after (core : RingCore M Ep S P) : CoreCall M S P → Option (RingCore M Ep S P)
  | .append message => some (core.append message).2
  | .releaseDue now => some (core.releaseDue now).2
  | .setDepth depth => some (core.setDepth depth).2
  | .park sender message releaseAt =>
    match core.park sender message releaseAt with
    | .error _ => some core
    | .ok (_, parked) => some parked
  | .editDeferred id message releaseAt => some (core.editDeferred id message releaseAt).2
  | .cancelDeferred id => some (core.cancelDeferred id).2
  | .attach subscriber pushDepth => some (core.attach subscriber pushDepth).2
  | .attachFrom subscriber pushDepth floorNextOwed =>
    (core.attachFrom subscriber pushDepth floorNextOwed).map Prod.snd
  | .detach subscriber => some (core.detach subscriber).2
  | .window subscriber pushLimit retainLimit => some (core.window subscriber pushLimit retainLimit).2
  | .advance subscriber through seenFloor => (core.advance subscriber through seenFloor).map Prod.snd

/-- No subscriber that only samples holds a position. -/
def PushEnabled (core : RingCore M Ep S P) : Prop :=
  ∀ (subscriber : S) (cursor : SubscriberCursor), core.cursors[subscriber]? = some cursor → 0 < cursor.pushDepth

variable {core next : RingCore M Ep S P} {subscriber : S} {cursor : SubscriberCursor}

theorem PushEnabled.congr (enabled : core.PushEnabled) (same : next.cursors = core.cursors) : next.PushEnabled := by
  intro subscriber cursor held
  rw [same] at held
  exact enabled subscriber cursor held

theorem PushEnabled.insert (enabled : core.PushEnabled) (pushes : 0 < cursor.pushDepth)
    (moved : next.cursors = core.cursors.insert subscriber cursor) : next.PushEnabled := by
  intro other held found
  rw [moved, lookup_insert] at found
  split at found
  · obtain rfl := Option.some.inj found
    exact pushes
  · exact enabled other held found

theorem PushEnabled.erase (enabled : core.PushEnabled) (gone : next.cursors = core.cursors.erase subscriber) :
    next.PushEnabled := by
  intro other held found
  rw [gone] at found
  exact enabled other held (lookup_of_erase found)

theorem park_cursors {sender : P} {message : M} {releaseAt id : Nat}
    (parked : core.park sender message releaseAt = .ok (id, next)) : next.cursors = core.cursors := by
  unfold park at parked
  split at parked
  · cases parked
  · cases parked
    rfl

theorem editDeferred_cursors (id : Nat) (message : Option M) (releaseAt : Option Nat) :
    (core.editDeferred id message releaseAt).2.cursors = core.cursors := by
  unfold editDeferred
  split <;> rfl

theorem cancelDeferred_cursors (id : Nat) : (core.cancelDeferred id).2.cursors = core.cursors := by
  unfold cancelDeferred
  split <;> rfl

theorem PushEnabled.attach (enabled : core.PushEnabled) (subscriber : S) (pushDepth : Nat) :
    (core.attach subscriber pushDepth).2.PushEnabled := by
  unfold RingCore.attach
  by_cases sampled : pushDepth = 0
  · rw [if_pos sampled]
    exact enabled.erase rfl
  · rw [if_neg sampled]
    have pushes := Nat.pos_of_ne_zero sampled
    split
    · exact enabled.insert (show 0 < pushDepth from pushes) rfl
    · exact enabled.insert (show 0 < pushDepth from pushes) rfl

theorem PushEnabled.attachFrom (enabled : core.PushEnabled) {pushDepth floor : Nat} {attached : Attached}
    (joined : core.attachFrom subscriber pushDepth floor = some (attached, next)) : next.PushEnabled := by
  unfold RingCore.attachFrom at joined
  by_cases sampled : pushDepth = 0
  · simp [sampled] at joined
  have pushes := Nat.pos_of_ne_zero sampled
  rw [if_neg sampled] at joined
  split at joined
  · cases joined
  · split at joined
    · cases joined
      exact enabled.insert (show 0 < pushDepth from pushes) rfl
    · cases joined
      exact enabled.insert (show 0 < pushDepth from pushes) rfl

theorem PushEnabled.window (enabled : core.PushEnabled) (subscriber : S) (pushLimit retainLimit : Nat) :
    (core.window subscriber pushLimit retainLimit).2.PushEnabled := by
  unfold RingCore.window
  cases held : core.cursors[subscriber]? with
  | none =>
    dsimp only
    split
    · exact enabled
    · exact enabled
  | some cursor =>
    refine enabled.insert ?_ rfl
    split
    next pushes => exact pushes
    next => exact enabled subscriber cursor held

theorem PushEnabled.advance (enabled : core.PushEnabled) {through seenFloor : Nat} {answer : Option Advance}
    (moved : core.advance subscriber through seenFloor = some (answer, next)) : next.PushEnabled := by
  unfold RingCore.advance at moved
  cases held : core.cursors[subscriber]? with
  | none =>
    rw [held] at moved
    cases moved
    exact enabled
  | some cursor =>
    simp only [held] at moved
    cases advanced : cursor.advance core.ring through seenFloor with
    | none => simp [advanced] at moved
    | some outcome =>
      obtain ⟨advance, later⟩ := outcome
      simp only [advanced] at moved
      cases moved
      refine enabled.insert ?_ rfl
      -- an advance moves the position and leaves the push depth
      have same : later.pushDepth = cursor.pushDepth := by
        unfold SubscriberCursor.advance at advanced
        split_ifs at advanced with sampled above reached
        · cases advanced
          rfl
        · cases advanced
          rfl
      rw [same]
      exact enabled subscriber cursor held

theorem PushEnabled.after (enabled : core.PushEnabled) {call : CoreCall M S P} (called : core.after call = some next) :
    next.PushEnabled := by
  cases call with
  | append message =>
    cases called
    exact enabled.congr (append_cursors core message)
  | releaseDue now =>
    cases called
    exact enabled.congr (releaseDue_cursors core now)
  | setDepth depth =>
    cases called
    exact enabled.congr (setDepth_cursors core depth)
  | park sender message releaseAt =>
    unfold RingCore.after at called
    dsimp only at called
    cases parked : core.park sender message releaseAt with
    | error refused =>
      rw [parked] at called
      cases called
      exact enabled
    | ok parking =>
      rw [parked] at called
      cases called
      exact enabled.congr (park_cursors parked)
  | editDeferred id message releaseAt =>
    cases called
    exact enabled.congr (editDeferred_cursors id message releaseAt)
  | cancelDeferred id =>
    cases called
    exact enabled.congr (cancelDeferred_cursors id)
  | attach subscriber pushDepth =>
    cases called
    exact enabled.attach subscriber pushDepth
  | attachFrom subscriber pushDepth floor =>
    obtain ⟨⟨attached, core⟩, joined, rfl⟩ := Option.map_eq_some_iff.mp called
    exact enabled.attachFrom joined
  | detach subscriber =>
    cases called
    exact enabled.erase (show _ = core.cursors.erase subscriber from rfl)
  | window subscriber pushLimit retainLimit =>
    cases called
    exact enabled.window subscriber pushLimit retainLimit
  | advance subscriber through seenFloor =>
    obtain ⟨⟨answer, core⟩, moved, rfl⟩ := Option.map_eq_some_iff.mp called
    exact enabled.advance moved

theorem pushEnabled_new (epoch : Ep) (depth : Nat) : (new epoch depth : RingCore M Ep S P).PushEnabled := by
  intro subscriber cursor held
  have absent : (∅ : TreeMap S SubscriberCursor)[subscriber]? = some cursor := held
  simp at absent

theorem pushEnabled_run {epoch : Ep} {depth : Nat} {calls : List (CoreCall M S P)}
    (ran : run after (new epoch depth) calls = some core) : core.PushEnabled := by
  have kept : ∀ (core : RingCore M Ep S P) call next, core.PushEnabled → True → core.after call = some next →
      next.PushEnabled := fun _ _ _ enabled _ called => enabled.after called
  exact run_preserves kept (pushEnabled_new epoch depth) (along_of_forall (fun _ _ => trivial) _ _) ran

/-! ### Agreement -/

/-- The wake question and every window answer alike for the position `cursor` of `subscriber`. -/
structure WakesWithWindow (core : RingCore M Ep S P) (subscriber : S) (cursor : SubscriberCursor) : Prop where
  wakes : core.hasDeliverable subscriber = true ↔ ∀ pushLimit retainLimit, 1 ≤ pushLimit →
    ∃ window, (core.window subscriber pushLimit retainLimit).1 = some window ∧ 1 ≤ window.newLen
  news : core.hasDeliverable subscriber = true → ∀ pushLimit retainLimit, 1 ≤ pushLimit →
    ∃ window, (core.window subscriber pushLimit retainLimit).1 = some window ∧
      window.newLen = min pushLimit (core.ring.unseen cursor.nextOwed) ∧
      window.newEntries = newest window.newLen core.ring.entries

/-- What a held position is shown is its own window, whatever the read retunes. -/
theorem window_held (held : core.cursors[subscriber]? = some cursor) {pushLimit : Nat} (pushes : 1 ≤ pushLimit)
    (retainLimit : Nat) : (core.window subscriber pushLimit retainLimit).1 =
      some ((cursor.setPushDepth pushLimit).window core.ring pushLimit retainLimit) := by
  unfold window
  rw [held]
  simp only [if_pos (show pushLimit > 0 from pushes)]

theorem PushEnabled.wakesWithWindow (enabled : core.PushEnabled) (held : core.cursors[subscriber]? = some cursor) :
    core.WakesWithWindow subscriber cursor := by
  have asked : core.hasDeliverable subscriber = true ↔ 0 < core.ring.unseen cursor.nextOwed := by
    unfold hasDeliverable
    rw [held]
    exact cursor.hasDeliverable_iff core.ring (enabled subscriber cursor held)
  refine ⟨⟨?_, ?_⟩, ?_⟩
  · intro wakes pushLimit retainLimit pushes
    refine ⟨_, window_held held pushes retainLimit, ?_⟩
    have unseen := asked.mp wakes
    rw [SubscriberCursor.window_newLen]
    exact Nat.le_min.mpr ⟨pushes, unseen⟩
  · intro shown
    obtain ⟨window, read, new⟩ := shown 1 0 (Nat.le_refl 1)
    obtain rfl := Option.some.inj ((window_held held (Nat.le_refl 1) 0).symm.trans read)
    rw [SubscriberCursor.window_newLen] at new
    exact asked.mpr (Nat.le_min.mp new).2
  · intro _ pushLimit retainLimit pushes
    exact ⟨_, window_held held pushes retainLimit, SubscriberCursor.window_newLen _ _ _ _,
      SubscriberCursor.window_newEntries _ _ _ _⟩

end RingCore

end Brenn.Queue
