import Brenn.Lib.Maps
import Brenn.Lib.Run

/-!
Handing ingress rows to conversations.

One dispatcher loop scans the undelivered rows, and then, in a section of its own, starts one
fan-out for each subscriber whose last one is over. A fan-out hands its rows to the live bridge
one by one and marks them delivered at its end; a supervisor then takes the subscriber out of the
in-flight set. A starting bridge drains the undelivered rows of its conversation and
consults no set at all.
-/

namespace Brenn.Ingress
open Brenn.Lib Std

/-! ### The rows -/

structure IngressPush where
  pushId : Nat
  targetSubscriber : Nat
  eagerWake : Bool
  source : String
  publishTsNs : Nat
  deriving Repr, DecidableEq

structure PushRow where
  push : IngressPush
  delivered : Bool
  deriving Repr, DecidableEq

abbrev Pushes := TreeMap Nat PushRow

namespace Pushes

variable (pushes : Pushes)

def load (wanted : PushRow → Bool) : List IngressPush :=
  ((pushes.toList.filter fun entry => wanted entry.2).map fun entry => entry.2.push).insertionSort
    fun earlier later => earlier.publishTsNs ≤ later.publishTsNs

def loadDispatchableIngressPushes : List IngressPush :=
  pushes.load fun row => !row.delivered && row.push.eagerWake

def loadPendingIngressForDrain (subscriber : Nat) : List IngressPush :=
  pushes.load fun row => !row.delivered && decide (row.push.targetSubscriber = subscriber)

def markPendingPushesDelivered (pushIds : List Nat) : Pushes :=
  pushes.map fun id row => if id ∈ pushIds then { row with delivered := true } else row

end Pushes

def isRepoSyncSource (source : String) : Bool := source.startsWith "repo_sync:"

/-- In a conversation idle for too long the repository news is dropped: the kept rows and the stale ones. -/
def splitStaleRepoSync (events : List IngressPush) (idleTooLong : Bool) : List IngressPush × List IngressPush :=
  if idleTooLong then events.partition fun event => !isRepoSyncSource event.source else (events, [])

/-! ### The loop, its fan-outs and the drains -/

/-- A fan-out under way: the rows it has still to hand over and the ids it has to mark. -/
structure FanOut where
  rows : List IngressPush
  deliveredIds : List Nat := []
  deriving Repr, DecidableEq

inductive DrainStage where
  | loaded
  | dropped
  | sent
  deriving Repr, DecidableEq

/-- A starting bridge's drain under way. Repository news is folded into one summary event of the one send. -/
structure Drain where
  conversation : Nat
  kept : List IngressPush
  stale : List IngressPush
  stage : DrainStage
  deriving Repr, DecidableEq

structure World where
  pushes : Pushes := ∅
  nextPushId : Nat := 1
  activeBridges : List Nat := []
  dueRows : Option (List IngressPush) := none
  inFlight : List Nat := []
  fanOuts : TreeMap Nat FanOut := ∅
  completed : List Nat := []
  drains : TreeMap Nat Drain := ∅
  handed : List Nat := []

inductive Event where
  | enqueue (targetSubscriber : Nat) (eagerWake : Bool) (source : String) (publishTsNs : Nat)
  | bridgeUp (conversation : Nat)
  | bridgeDown (conversation : Nat)
  | scan
  | spawn
  | dispatchRow (subscriber : Nat)
  | markDelivered (subscriber : Nat)
  | supervise (subscriber : Nat)
  | drainLoad (bridge conversation : Nat) (idleTooLong : Bool)
  | drainDrop (bridge : Nat)
  | drainSend (bridge : Nat)
  | drainMark (bridge : Nat)
  deriving Repr, DecidableEq

namespace World

variable (world : World)

def enqueue (targetSubscriber : Nat) (eagerWake : Bool) (source : String) (publishTsNs : Nat) : World :=
  { world with
    nextPushId := world.nextPushId + 1
    pushes := world.pushes.insert world.nextPushId
      ⟨⟨world.nextPushId, targetSubscriber, eagerWake, source, publishTsNs⟩, false⟩ }

def scan : Option World :=
  match world.dueRows with
  | none => some { world with dueRows := some world.pushes.loadDispatchableIngressPushes }
  | some _ => none

def eligible (dueRows : List IngressPush) : List IngressPush :=
  dueRows.filter fun row => decide (row.targetSubscriber ∉ world.inFlight)

/-- The in-flight section: group what is eligible by subscriber and start a fan-out for each. -/
def spawn : Option World :=
  match world.dueRows with
  | none => none
  | some dueRows =>
    let rows := world.eligible dueRows
    let keys := (rows.map IngressPush.targetSubscriber).dedup
    some { world with
      dueRows := none
      inFlight := keys ++ world.inFlight
      fanOuts := keys.foldl (fun fanOuts key =>
        fanOuts.insert key ⟨rows.filter fun row => decide (row.targetSubscriber = key), []⟩) world.fanOuts }

/-- Hand the next row to the live bridge; without one the row stays stored. -/
def dispatchRow (subscriber : Nat) : Option World :=
  match world.fanOuts[subscriber]? with
  | some ⟨row :: rows, deliveredIds⟩ =>
    if subscriber ∈ world.activeBridges then
      some { world with
        fanOuts := world.fanOuts.insert subscriber ⟨rows, row.pushId :: deliveredIds⟩
        handed := row.pushId :: world.handed }
    else some { world with fanOuts := world.fanOuts.insert subscriber ⟨rows, deliveredIds⟩ }
  | _ => none

def markDelivered (subscriber : Nat) : Option World :=
  match world.fanOuts[subscriber]? with
  | some ⟨[], deliveredIds⟩ =>
    some { world with
      pushes := world.pushes.markPendingPushesDelivered deliveredIds
      fanOuts := world.fanOuts.erase subscriber
      completed := subscriber :: world.completed }
  | _ => none

/-- The supervisor takes the subscriber of a finished fan-out out of the in-flight set. -/
def supervise (subscriber : Nat) : Option World :=
  if subscriber ∈ world.completed then
    some { world with
      completed := world.completed.filter fun key => decide (key ≠ subscriber)
      inFlight := world.inFlight.filter fun key => decide (key ≠ subscriber) }
  else none

def drainLoad (bridge conversation : Nat) (idleTooLong : Bool) : Option World :=
  match world.drains[bridge]? with
  | some _ => none
  | none =>
    let (kept, stale) := splitStaleRepoSync (world.pushes.loadPendingIngressForDrain conversation) idleTooLong
    some { world with drains := world.drains.insert bridge ⟨conversation, kept, stale, .loaded⟩ }

def drainDrop (bridge : Nat) : Option World :=
  match world.drains[bridge]? with
  | some ⟨conversation, kept, stale, .loaded⟩ =>
    some { world with
      pushes := world.pushes.markPendingPushesDelivered (stale.map IngressPush.pushId)
      drains := world.drains.insert bridge ⟨conversation, kept, stale, .dropped⟩ }
  | _ => none

def drainSend (bridge : Nat) : Option World :=
  match world.drains[bridge]? with
  | some ⟨conversation, kept, stale, .dropped⟩ =>
    some { world with
      drains := world.drains.insert bridge ⟨conversation, kept, stale, .sent⟩
      handed := kept.map IngressPush.pushId ++ world.handed }
  | _ => none

def drainMark (bridge : Nat) : Option World :=
  match world.drains[bridge]? with
  | some ⟨_, kept, _, .sent⟩ =>
    some { world with
      pushes := world.pushes.markPendingPushesDelivered (kept.map IngressPush.pushId)
      drains := world.drains.erase bridge }
  | _ => none

/-- One section of one of the tasks. `none` is a section that cannot run now. -/
def step (world : World) : Event → Option World
  | .enqueue targetSubscriber eagerWake source publishTsNs =>
    some (world.enqueue targetSubscriber eagerWake source publishTsNs)
  | .bridgeUp conversation => some { world with activeBridges := conversation :: world.activeBridges }
  | .bridgeDown conversation =>
    some { world with activeBridges := world.activeBridges.filter fun live => decide (live ≠ conversation) }
  | .scan => world.scan
  | .spawn => world.spawn
  | .dispatchRow subscriber => world.dispatchRow subscriber
  | .markDelivered subscriber => world.markDelivered subscriber
  | .supervise subscriber => world.supervise subscriber
  | .drainLoad bridge conversation idleTooLong => world.drainLoad bridge conversation idleTooLong
  | .drainDrop bridge => world.drainDrop bridge
  | .drainSend bridge => world.drainSend bridge
  | .drainMark bridge => world.drainMark bridge

def Undrained (conversation : Nat) : Prop := ∀ entry ∈ world.drains.toList, entry.2.conversation ≠ conversation

instance (conversation : Nat) : Decidable (world.Undrained conversation) :=
  inferInstanceAs (Decidable (∀ entry ∈ world.drains.toList, entry.2.conversation ≠ conversation))

/-- Fan-outs start with rows that are still undelivered and in conversations that no bridge is
    draining, and a bridge drains a conversation with no fan-out in flight and no other drain. -/
def Apart (world : World) : Event → Prop
  | .spawn =>
    ∀ dueRows ∈ world.dueRows, ∀ row ∈ world.eligible dueRows,
      (∀ stored ∈ world.pushes[row.pushId]?, stored.delivered = false) ∧ world.Undrained row.targetSubscriber
  | .drainLoad _ conversation _ => conversation ∉ world.inFlight ∧ world.Undrained conversation
  | _ => True

instance (world : World) : (event : Event) → Decidable (world.Apart event)
  | .spawn =>
    inferInstanceAs (Decidable (∀ dueRows ∈ world.dueRows, ∀ row ∈ world.eligible dueRows,
      (∀ stored ∈ world.pushes[row.pushId]?, stored.delivered = false) ∧ world.Undrained row.targetSubscriber))
  | .drainLoad _ conversation _ =>
    inferInstanceAs (Decidable (conversation ∉ world.inFlight ∧ world.Undrained conversation))
  | .enqueue .. | .bridgeUp _ | .bridgeDown _ | .scan | .dispatchRow _ | .markDelivered _ | .supervise _
  | .drainDrop _ | .drainSend _ | .drainMark _ => inferInstanceAs (Decidable True)

end World

/-! ### Reading the rows back -/

def Pushes.Holds (pushes : Pushes) (delivered : Bool) (push : IngressPush) : Prop :=
  pushes[push.pushId]? = some ⟨push, delivered⟩

theorem Pushes.lookup_mark (pushes : Pushes) (pushIds : List Nat) (id : Nat) :
    (pushes.markPendingPushesDelivered pushIds)[id]? =
      pushes[id]?.map fun row => if id ∈ pushIds then { row with delivered := true } else row := by
  rw [markPendingPushesDelivered, TreeMap.getElem?_map]

def Pushes.Keyed (pushes : Pushes) : Prop := ∀ (id : Nat) row, pushes[id]? = some row → row.push.pushId = id

theorem Pushes.mem_load {pushes : Pushes} (keyed : pushes.Keyed) {wanted : PushRow → Bool} {push : IngressPush} :
    push ∈ pushes.load wanted ↔ ∃ delivered, pushes.Holds delivered push ∧ wanted ⟨push, delivered⟩ = true := by
  rw [load, List.mem_insertionSort, List.mem_map]
  constructor
  · rintro ⟨⟨id, row⟩, picked, rfl⟩
    obtain ⟨listed, kept⟩ := List.mem_filter.mp picked
    have stored := TreeMap.mem_toList_iff_getElem?_eq_some.mp listed
    obtain rfl : row.push.pushId = id := keyed id row stored
    exact ⟨row.delivered, stored, kept⟩
  · rintro ⟨delivered, stored, kept⟩
    exact ⟨(push.pushId, ⟨push, delivered⟩), List.mem_filter.mpr
      ⟨TreeMap.mem_toList_iff_getElem?_eq_some.mpr stored, kept⟩, rfl⟩

theorem Pushes.nodup_load {pushes : Pushes} (keyed : pushes.Keyed) (wanted : PushRow → Bool) :
    ((pushes.load wanted).map IngressPush.pushId).Nodup := by
  refine ((List.perm_insertionSort _ _).map _).nodup_iff.mpr ?_
  rw [List.map_map]
  refine List.Nodup.map_on ?_ ((nodup_toList pushes).filter _)
  rintro ⟨id, row⟩ here ⟨other, otherRow⟩ there same
  have stored := TreeMap.mem_toList_iff_getElem?_eq_some.mp (List.mem_filter.mp here).1
  have storedOther := TreeMap.mem_toList_iff_getElem?_eq_some.mp (List.mem_filter.mp there).1
  obtain rfl : id = other := (keyed id row stored).symm.trans (same.trans (keyed other otherRow storedOther))
  exact congrArg (Prod.mk id) (Option.some.inj (stored.symm.trans storedOther))

end Brenn.Ingress
