import Brenn.Lib.Maps
import Brenn.Queue.Cursor
import Brenn.Queue.Deferred

/-!
One non-durable channel: a retained ring, a position per subscriber and the
messages parked for later.

Payloads `M`, epochs `Ep`, subscribers `S` and sender identities `P` are the
host's. The positions' hash map is an ordered map here; nothing depends on the
order in which it is walked. A panic of the source is `none`.
-/

namespace Brenn.Queue
open Brenn.Lib Std

universe u v w x

variable {M : Type u} {Ep : Type v} {S : Type w} {P : Type x}

/-- One subscriber whose owed messages an entry into retention evicted. -/
structure CursorOverflow (S : Type w) where
  subscriber : S
  evicted : Nat
  deriving Repr, DecidableEq

structure AppendReport (S : Type w) where
  seq : Nat
  overflow : List (CursorOverflow S)
  deriving Repr, DecidableEq

structure ReleaseReport (M : Type u) (S : Type w) where
  released : List (Retained M)
  overflow : List (CursorOverflow S)
  deriving Repr, DecidableEq

inductive Attached where
  | created
  | existing
  deriving Repr, DecidableEq

/-- Whether a parked entry named by a payload predicate is the caller's to touch. -/
inductive OwnedDeferred (M : Type u) (P : Type x) where
  | owned (id : Nat) (entry : Deferred M P)
  | wrongSender (owner : P)
  | pastCutoff (releaseAt : Nat)
  | notFound
  deriving Repr, DecidableEq

/-- Fold one overflow event into a batch, naming each subscriber once. -/
def addOverflow [DecidableEq S] (event : CursorOverflow S) : List (CursorOverflow S) → List (CursorOverflow S)
  | [] => [event]
  | existing :: rest =>
    if existing.subscriber = event.subscriber then
      { existing with evicted := existing.evicted + event.evicted } :: rest
    else existing :: addOverflow event rest

def mergeOverflow [DecidableEq S] (into more : List (CursorOverflow S)) : List (CursorOverflow S) :=
  more.foldl (fun into event => addOverflow event into) into

def charged [DecidableEq S] (subscriber : S) (overflow : List (CursorOverflow S)) : Nat :=
  (overflow.map fun event => if event.subscriber = subscriber then event.evicted else 0).sum

section Charged

variable [DecidableEq S] (subscriber : S)

@[simp] theorem charged_nil : charged subscriber [] = 0 := rfl

theorem charged_addOverflow (event : CursorOverflow S) (into : List (CursorOverflow S)) :
    charged subscriber (addOverflow event into) =
      charged subscriber into + if event.subscriber = subscriber then event.evicted else 0 := by
  induction into with
  | nil => simp [addOverflow, charged]
  | cons existing rest ih =>
    unfold addOverflow
    unfold charged at ih ⊢
    split
    next same =>
      simp only [List.map_cons, List.sum_cons, same]
      split <;> omega
    next => simp only [List.map_cons, List.sum_cons, ih]; omega

theorem charged_mergeOverflow (into more : List (CursorOverflow S)) :
    charged subscriber (mergeOverflow into more) = charged subscriber into + charged subscriber more := by
  induction more generalizing into with
  | nil => rfl
  | cons event more ih =>
    have later := ih (addOverflow event into)
    unfold mergeOverflow at later ⊢
    rw [List.foldl_cons, later, charged_addOverflow]
    simp only [charged, List.map_cons, List.sum_cons]
    omega

end Charged

structure RingCore (M : Type u) (Ep : Type v) (S : Type w) (P : Type x) [LinearOrder S] where
  ring : RetainedRing M Ep
  deferred : DeferredSet M P
  cursors : TreeMap S SubscriberCursor

namespace RingCore

variable [LinearOrder S]

def new (epoch : Ep) (depth : Nat) : RingCore M Ep S P :=
  { ring := .new epoch depth, deferred := .new (some depth), cursors := ∅ }

/-- Every cursor the frontier has moved past since it stood at `oldFrontier`, with its loss. -/
def overflowSince (core : RingCore M Ep S P) (oldFrontier : Nat) : List (CursorOverflow S) :=
  core.cursors.toList.filterMap fun (subscriber, cursor) =>
    let evicted := cursor.evictedSince core.ring oldFrontier
    if evicted > 0 then some ⟨subscriber, evicted⟩ else none

def setDepth (core : RingCore M Ep S P) (depth : Nat) : List (CursorOverflow S) × RingCore M Ep S P :=
  let before := frontier core.ring
  let core := { core with ring := core.ring.setDepth depth, deferred := core.deferred.setCap (some depth) }
  (core.overflowSince before, core)

/-- Report every cursor the append pushed retention past. The source skips the report when the ring
    evicted nothing. -/
def append (core : RingCore M Ep S P) (message : M) : AppendReport S × RingCore M Ep S P :=
  let before := frontier core.ring
  let (appended, ring) := core.ring.append message
  let core := { core with ring := ring }
  if appended.evicted = 0 then (⟨appended.seq, []⟩, core)
  else (⟨appended.seq, core.overflowSince before⟩, core)

def attach (core : RingCore M Ep S P) (subscriber : S) (pushDepth : Nat) : Attached × RingCore M Ep S P :=
  if pushDepth = 0 then (.existing, { core with cursors := core.cursors.erase subscriber })
  else
    match core.cursors[subscriber]? with
    | some cursor =>
      (.existing, { core with cursors := core.cursors.insert subscriber (cursor.setPushDepth pushDepth) })
    | none =>
      (.created, { core with cursors := core.cursors.insert subscriber (.primed core.ring pushDepth) })

/-- `attach` for a queue that inherits a position given up by another subscriber. -/
def attachFrom (core : RingCore M Ep S P) (subscriber : S) (pushDepth floorNextOwed : Nat) :
    Option (Attached × RingCore M Ep S P) :=
  if pushDepth = 0 then none
  else if ¬ floorNextOwed ≤ core.ring.newestSeq + 1 then none
  else
    match core.cursors[subscriber]? with
    | some cursor =>
      some (.existing, { core with cursors := core.cursors.insert subscriber (cursor.setPushDepth pushDepth) })
    | none =>
      some (.created,
        { core with cursors := core.cursors.insert subscriber (.primedAtLeast core.ring pushDepth floorNextOwed) })

def detach (core : RingCore M Ep S P) (subscriber : S) : Option SubscriberCursor × RingCore M Ep S P :=
  (core.cursors[subscriber]?, { core with cursors := core.cursors.erase subscriber })

def hasDeliverable (core : RingCore M Ep S P) (subscriber : S) : Bool :=
  match core.cursors[subscriber]? with
  | some cursor => cursor.hasDeliverable core.ring
  | none => false

/-- The subscriber's activation view. A push-enabled read retunes the stored depth first. -/
def window (core : RingCore M Ep S P) (subscriber : S) (pushLimit retainLimit : Nat) :
    Option (Window M) × RingCore M Ep S P :=
  match core.cursors[subscriber]? with
  | none =>
    if pushLimit > 0 then (none, core)
    else
      let entries := core.ring.tail retainLimit
      (some { entries := entries, newFrom := entries.length, pushEnabled := false }, core)
  | some cursor =>
    let cursor := if pushLimit > 0 then cursor.setPushDepth pushLimit else cursor
    (some (cursor.window core.ring pushLimit retainLimit),
      { core with cursors := core.cursors.insert subscriber cursor })

/-- The answer is absent for a subscriber without a position; the call is `none` where the cursor's
    assertions fail. -/
def advance (core : RingCore M Ep S P) (subscriber : S) (through seenFloor : Nat) :
    Option (Option Advance × RingCore M Ep S P) :=
  match core.cursors[subscriber]? with
  | none => some (none, core)
  | some cursor =>
    match cursor.advance core.ring through seenFloor with
    | none => none
    | some (advance, cursor) =>
      some (some advance, { core with cursors := core.cursors.insert subscriber cursor })

def park (core : RingCore M Ep S P) (sender : P) (message : M) (releaseAt : Nat) :
    Except QuotaExceeded (Nat × RingCore M Ep S P) :=
  match core.deferred.park sender message releaseAt with
  | .error refused => .error refused
  | .ok (id, deferred) => .ok (id, { core with deferred := deferred })

def enterDue (core : RingCore M Ep S P) :
    List (Deferred M P) → ReleaseReport M S → ReleaseReport M S × RingCore M Ep S P
  | [], report => (report, core)
  | entry :: due, report =>
    let (appended, core) := core.append entry.message
    core.enterDue due
      { released := report.released ++ [⟨appended.seq, entry.message⟩]
        overflow := mergeOverflow report.overflow appended.overflow }

def releaseDue (core : RingCore M Ep S P) (now : Nat) : ReleaseReport M S × RingCore M Ep S P :=
  let (due, deferred) := core.deferred.releaseDue now
  { core with deferred := deferred }.enterDue due ⟨[], []⟩

def deferredForSender [DecidableEq P] (core : RingCore M Ep S P) (sender : P) : List (Deferred M P) :=
  core.deferred.forSender sender

def ownedDeferred [DecidableEq P] (core : RingCore M Ep S P) (sender : P) (names : M → Bool) (cutoff : Nat) :
    OwnedDeferred M P :=
  match core.deferred.entries.find? fun entry => names entry.message with
  | none => .notFound
  | some entry =>
    if entry.sender ≠ sender then .wrongSender entry.sender
    else if entry.releaseAt ≤ cutoff then .pastCutoff entry.releaseAt
    else .owned entry.id entry

def cancelDeferred (core : RingCore M Ep S P) (id : Nat) : Option (Deferred M P) × RingCore M Ep S P :=
  match core.deferred.cancel id with
  | none => (none, core)
  | some (entry, deferred) => (some entry, { core with deferred := deferred })

def editDeferred (core : RingCore M Ep S P) (id : Nat) (message : Option M) (releaseAt : Option Nat) :
    Except NoSuchDeferred Unit × RingCore M Ep S P :=
  match core.deferred.edit id message releaseAt with
  | .error missing => (.error missing, core)
  | .ok deferred => (.ok (), { core with deferred := deferred })

/-! ### What each operation leaves alone -/

variable (core : RingCore M Ep S P)

@[simp] theorem append_ring (message : M) : (core.append message).2.ring = (core.ring.append message).2 := by
  unfold append
  dsimp only
  split <;> rfl

@[simp] theorem append_cursors (message : M) : (core.append message).2.cursors = core.cursors := by
  unfold append
  dsimp only
  split <;> rfl

@[simp] theorem append_deferred (message : M) : (core.append message).2.deferred = core.deferred := by
  unfold append
  dsimp only
  split <;> rfl

@[simp] theorem append_seq (message : M) : (core.append message).1.seq = core.ring.nextSeq := by
  unfold append
  dsimp only
  split <;> simp

@[simp] theorem setDepth_ring (depth : Nat) : (core.setDepth depth).2.ring = core.ring.setDepth depth := rfl
@[simp] theorem setDepth_cursors (depth : Nat) : (core.setDepth depth).2.cursors = core.cursors := rfl

theorem enterDue_cursors (due : List (Deferred M P)) (report : ReleaseReport M S) :
    (core.enterDue due report).2.cursors = core.cursors := by
  induction due generalizing core report with
  | nil => rfl
  | cons entry due ih => simp [enterDue, ih]

theorem enterDue_deferred (due : List (Deferred M P)) (report : ReleaseReport M S) :
    (core.enterDue due report).2.deferred = core.deferred := by
  induction due generalizing core report with
  | nil => rfl
  | cons entry due ih => simp [enterDue, ih]

theorem enterDue_released (due : List (Deferred M P)) (report : ReleaseReport M S) :
    (core.enterDue due report).1.released.length = report.released.length + due.length := by
  induction due generalizing core report with
  | nil => rfl
  | cons entry due ih =>
    simp only [enterDue, ih, List.length_append, List.length_cons, List.length_nil]
    omega

theorem enterDue_nextSeq (due : List (Deferred M P)) (report : ReleaseReport M S) :
    (core.enterDue due report).2.ring.nextSeq = core.ring.nextSeq + due.length := by
  induction due generalizing core report with
  | nil => rfl
  | cons entry due ih =>
    simp only [enterDue, ih, append_ring, RetainedRing.append_nextSeq, List.length_cons]
    omega

@[simp] theorem releaseDue_nextSeq (now : Nat) : (core.releaseDue now).2.ring.nextSeq =
    core.ring.nextSeq + (core.deferred.releaseDue now).1.length :=
  enterDue_nextSeq _ _ _

@[simp] theorem releaseDue_released (now : Nat) :
    (core.releaseDue now).1.released.length = (core.deferred.releaseDue now).1.length := by
  simp [releaseDue, enterDue_released]

@[simp] theorem releaseDue_cursors (now : Nat) : (core.releaseDue now).2.cursors = core.cursors :=
  enterDue_cursors _ _ _

@[simp] theorem releaseDue_deferred (now : Nat) :
    (core.releaseDue now).2.deferred = (core.deferred.releaseDue now).2 :=
  enterDue_deferred _ _ _

/-! ### Charges -/

/-- What an overflow pass charges one subscriber is its cursor's own figure. -/
theorem charged_overflowSince (oldFrontier : Nat) (subscriber : S) :
    charged subscriber (core.overflowSince oldFrontier) =
      (core.cursors[subscriber]?.map fun cursor => cursor.evictedSince core.ring oldFrontier).getD 0 := by
  rw [← sum_toList_at core.cursors (fun cursor => cursor.evictedSince core.ring oldFrontier) subscriber]
  unfold charged overflowSince
  generalize core.cursors.toList = walk
  induction walk with
  | nil => rfl
  | cons entry walk ih =>
    rw [List.filterMap_cons, List.map_cons, List.sum_cons, ← ih]
    rcases Nat.eq_zero_or_pos (entry.2.evictedSince core.ring oldFrontier) with none | some
    · simp [none]
    · simp [some]

end RingCore

/-- Moving a frontier from `low` to `high` retires, of what is owed from `owed` on, the part at
    or above `low`. -/
theorem frontier_moves (owed : Nat) {low high : Nat} (moves : low ≤ high) :
    high - owed = (low - owed) + (high - max owed low) := by
  omega

theorem frontier_setDepth (ring : RetainedRing M Ep) (depth : Nat) :
    frontier ring ≤ frontier (ring.setDepth depth) := by
  simp only [frontier_eq, RetainedRing.setDepth_nextSeq, RetainedRing.setDepth_entries, List.length_drop]
  omega

theorem frontier_append (ring : RetainedRing M Ep) (message : M) :
    frontier (ring.append message).2 =
      if ring.depth = 0 then frontier ring + 1 else frontier ring + (ring.append message).1.evicted := by
  have counted := ring.counted
  have bounded := ring.bounded
  rw [ring.append_evicted]
  simp only [frontier_eq, RetainedRing.append_nextSeq, ring.append_entries, List.length_drop, List.length_append,
    List.length_singleton]
  split <;> omega

namespace RingCore

variable [LinearOrder S] (core : RingCore M Ep S P)

/-- While the ring retains anything at all, skipping the report of an append that evicted
    nothing loses no charge. -/
theorem append_overflow (message : M) (retains : core.ring.depth ≠ 0) :
    (core.append message).1.overflow = (core.append message).2.overflowSince (frontier core.ring) := by
  have moved := frontier_append core.ring message
  simp only [retains, if_false] at moved
  unfold append
  dsimp only
  split
  next none =>
    refine (List.filterMap_eq_nil_iff.mpr fun entry _ => ?_).symm
    have still : entry.2.evictedSince (core.ring.append message).2 (frontier core.ring) = 0 := by
      unfold SubscriberCursor.evictedSince
      split
      · rfl
      · omega
    simp [still]
  next => rfl

theorem append_overflow_zero (message : M) (zero : core.ring.depth = 0) :
    (core.append message).1.overflow = [] := by
  have none : (core.ring.append message).1.evicted = 0 := by simp [RetainedRing.append_evicted, zero]
  simp [append, none]

end RingCore

end Brenn.Queue
