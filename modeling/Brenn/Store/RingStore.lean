import Brenn.Store.Contract

/-!
The in-memory retention store of one non-durable channel: the queue's `RingCore`
under participant and application identity.
-/

namespace Brenn.Store
open Brenn.Lib Brenn.Queue Std

universe u v w

variable {U : Type u} {T : Type v} {S : Type w} [LinearOrder S]

structure RingStore (U : Type u) (T : Type v) (S : Type w) [LinearOrder S] where
  epoch : U
  channelUuid : U
  address : T
  core : RingCore (MessageEnvelope U T) U S T
  /-- The application each attached subscriber holds its position under. -/
  appSlugs : TreeMap S T
  /-- Messages that entered retention, appended or released. -/
  publishes : Nat

/-- Largest retained depth a ring store accepts. -/
def maxRingRetainDepth : Nat := 4096

/-- The loudest urgency and the earliest deadline of every suffix, folded from the newest backwards. -/
def suffixFolds : List (Retained (MessageEnvelope U T)) → List (Urgency × Option Nat)
  | [] => []
  | entry :: rest =>
    match suffixFolds rest with
    | [] => [(entry.message.urgency, entry.message.deliveryDeadline)]
    | (loudest, earliest) :: later =>
      (loudest.max entry.message.urgency, soonest earliest entry.message.deliveryDeadline) ::
        (loudest, earliest) :: later

namespace RingStore

variable (store : RingStore U T S)

/-- A store with nothing in it. The caller has checked its depth and its scheme. -/
def fresh (channelUuid : U) (address : T) (depth : Nat) (epoch : U) : RingStore U T S :=
  { epoch, channelUuid, address, core := .new epoch depth, appSlugs := ∅, publishes := 0 }

/-- `none` where a charged position is held under no application. -/
def overflowEvents (appSlugs : TreeMap S T) :
    List (CursorOverflow S) → Option (List (OverflowEvent S T))
  | [] => some []
  | event :: rest =>
    match appSlugs[event.subscriber]?, overflowEvents appSlugs rest with
    | some slug, some named => some (⟨event.subscriber, event.evicted, some slug⟩ :: named)
    | _, _ => none

/-- Commit a message into retention: the seq it took and whom the append cost. -/
def append (messageId : U) (message : NewMessage T) :
    Option ((Nat × List (OverflowEvent S T)) × RingStore U T S) :=
  let (report, core) := store.core.append (envelopeOf messageId message)
  match overflowEvents store.appSlugs report.overflow with
  | none => none
  | some overflow => some ((report.seq, overflow), { store with core, publishes := store.publishes + 1 })

def replayFrom [DecidableEq U] (cursor : Option (Resume U)) (limit : Depth) :
    StoreReplay (MessageEnvelope U T) U :=
  let replay := store.core.ring.replay cursor
  clampReplay ⟨store.epoch, replay.messages, replay.decision⟩ limit

def attach (subscriber : S) (appSlug : T) (pushDepth : Depth) : Attached × RingStore U T S :=
  let (attached, core) := store.core.attach subscriber (depthBound pushDepth)
  let appSlugs := if core.cursors[subscriber]?.isSome then store.appSlugs.insert subscriber appSlug
    else store.appSlugs.erase subscriber
  (attached, { store with core, appSlugs })

def attachFrom (subscriber : S) (appSlug : T) (pushDepth : Depth) (floor : Nat) :
    Option (Attached × RingStore U T S) :=
  match store.core.attachFrom subscriber (depthBound pushDepth) floor with
  | none => none
  | some (attached, core) =>
    some (attached, { store with core, appSlugs := store.appSlugs.insert subscriber appSlug })

def detach (subscriber : S) : Option Nat × RingStore U T S :=
  let (cursor, core) := store.core.detach subscriber
  (cursor.map SubscriberCursor.nextOwed, { store with core, appSlugs := store.appSlugs.erase subscriber })

def hasDeliverable (subscriber : S) : Bool := store.core.hasDeliverable subscriber

/-- Every subscriber owed something the ring holds, in the order of the map (the source's has none). `none` where a
    position is held under no application. -/
def deliverableSubscribers : Option (List (DeliverableSubscriber S T)) :=
  let retained := store.core.ring.entries
  let folds := suffixFolds retained
  (store.core.cursors.toList.filter fun entry => entry.2.hasDeliverable store.core.ring).mapM
    fun (subscriber, cursor) =>
      let firstUnseen := (retained.takeWhile fun entry => decide (entry.seq < cursor.nextOwed)).length
      match store.appSlugs[subscriber]?, folds[firstUnseen]? with
      | some slug, some (loudest, earliest) => some ⟨subscriber, some slug, loudest, earliest⟩
      | _, _ => none

def window (subscriber : S) (pushLimit retainLimit : Depth) :
    Option (Window (MessageEnvelope U T)) × RingStore U T S :=
  let (window, core) := store.core.window subscriber (depthBound pushLimit) (depthBound retainLimit)
  (window, { store with core })

def advance (subscriber : S) (through seenFloor : Nat) : Option (Option Advance × RingStore U T S) :=
  (store.core.advance subscriber through seenFloor).map fun (answer, core) => (answer, { store with core })

def park (messageId : U) (message : NewMessage T) (releaseAt : Nat) :
    Except QuotaExceeded (U × RingStore U T S) :=
  match store.core.park message.sender (envelopeOf messageId message) (releaseTimeOf releaseAt) with
  | .error refused => .error refused
  | .ok (_, core) => .ok (messageId, { store with core })

def releaseDue (now : Nat) :
    Option ((List (Retained (MessageEnvelope U T)) × List (OverflowEvent S T)) × RingStore U T S) :=
  let (report, core) := store.core.releaseDue (releaseTimeOf now)
  match overflowEvents store.appSlugs report.overflow with
  | none => none
  | some overflow =>
    some ((report.released, overflow), { store with core, publishes := store.publishes + report.released.length })

section Deferral

variable [DecidableEq U] [DecidableEq T]

def deferredForSender (sender : T) : List (DeferredMessage U T) :=
  (store.core.deferredForSender sender).map fun entry => ⟨instantOf entry.releaseAt, entry.message⟩

/-- The id of the parked message if it is the sender's and not yet due, else the answer owed. -/
def ownedId (sender : T) (messageId : U) (now : Nat) : Except DeferralOutcome Nat :=
  match store.core.ownedDeferred sender (fun message => decide (message.messageId = messageId))
      (releaseTimeOf now) with
  | .owned id _ => .ok id
  | .wrongSender _ => .error .wrongSender
  | .pastCutoff releaseAt => .error (.notDeferred (some (instantOf releaseAt)))
  | .notFound => .error (.notDeferred none)

def cancelDeferred (sender : T) (messageId : U) (now : Nat) : DeferralOutcome × RingStore U T S :=
  match store.ownedId sender messageId now with
  | .error outcome => (outcome, store)
  | .ok id =>
    let (cancelled, core) := store.core.cancelDeferred id
    (if cancelled.isSome then .applied else .notDeferred none, { store with core })

def editDeferred (sender : T) (messageId : U) (body : Option T) (releaseAt : Option Nat) (now : Nat) :
    DeferralOutcome × RingStore U T S :=
  match store.ownedId sender messageId now with
  | .error outcome => (outcome, store)
  | .ok id =>
    let edited := match body, store.core.deferred.get id with
      | some body, some entry => some { entry.message with body := body }
      | _, _ => none
    match store.core.editDeferred id edited (releaseAt.map releaseTimeOf) with
    | (.ok (), core) => (.applied, { store with core })
    | (.error _, core) => (.notDeferred none, { store with core })

end Deferral

end RingStore

end Brenn.Store
