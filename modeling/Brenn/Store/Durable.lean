import Brenn.Store.Contract

/-!
The durable retention store of one channel: message rows, the channel row's
high-water and the cursor rows.

A row enters retention when it is given a `retainedSeq` and is parked while it
carries a `deliverAfter`; nothing in a row's type keeps it from having both. Each
function is one section under the database lock. An insert takes its id from the caller.
-/

namespace Brenn.Store
open Brenn.Lib Brenn.Queue Std

universe u v w

variable {U : Type u} {T : Type v} {S : Type w} [LinearOrder S]

structure MessageRow (U : Type u) (T : Type v) where
  id : Nat
  uuid : U
  sender : T
  body : T
  urgency : Urgency
  deliveryDeadline : Option Nat
  deliverAfter : Option Nat
  retainedSeq : Option Nat
  deriving Repr, DecidableEq

namespace MessageRow

def envelope (row : MessageRow U T) : MessageEnvelope U T :=
  ⟨row.uuid, row.sender, row.body, row.urgency, row.deliveryDeadline⟩

/-- The row as a retention read returns it; a parked row is not there. -/
def retained (row : MessageRow U T) : Option (Retained (MessageEnvelope U T)) :=
  row.retainedSeq.map fun seq => ⟨seq, row.envelope⟩

/-- The row's release time and id, the order unreleased rows are listed in. -/
def parked (row : MessageRow U T) : Option (Deferred (MessageRow U T) T) :=
  row.deliverAfter.map fun releaseAt => ⟨row.id, row.sender, releaseAt, row⟩

def newestFirst (left right : MessageRow U T) : Prop := right.retainedSeq.getD 0 < left.retainedSeq.getD 0

instance : DecidableRel (newestFirst (U := U) (T := T)) := fun _ _ => inferInstanceAs (Decidable (_ < _))

def released (row : MessageRow U T) (seq : Nat) : MessageRow U T :=
  { row with retainedSeq := some seq, deliverAfter := none }

def rewritten (row : MessageRow U T) (body : Option T) (releaseAt : Option Nat) : MessageRow U T :=
  { row with
    body := body.getD row.body
    deliverAfter := match releaseAt with
      | some releaseAt => some releaseAt
      | none => row.deliverAfter }

end MessageRow

structure SubscriberCursorRow (T : Type v) where
  appSlug : T
  pushDepth : Depth
  nextOwedSeq : Nat
  deriving Repr, DecidableEq

structure DbChannel (U : Type u) (T : Type v) (S : Type w) [LinearOrder S] where
  resumeEpoch : U
  lastRetainedSeq : Nat
  /-- The channel's retained depth, which also caps what may be parked. -/
  deferredCap : Depth
  rows : List (MessageRow U T)
  cursors : TreeMap S (SubscriberCursorRow T)

def limited {α : Type u} : Depth → List α → List α
  | .bounded n, xs => xs.take n
  | .unbounded, xs => xs

def newestFirst (left right : Retained (MessageEnvelope U T)) : Prop := right.seq < left.seq

instance : DecidableRel (newestFirst (U := U) (T := T)) := fun _ _ => inferInstanceAs (Decidable (_ < _))

namespace DbChannel

variable (channel : DbChannel U T S)

def new (resumeEpoch : U) (deferredCap : Depth) : DbChannel U T S :=
  { resumeEpoch, lastRetainedSeq := 0, deferredCap, rows := [], cursors := ∅ }

/-! ### Inserts and retention reads -/

/-- Insert a message row. One that is not deferred takes the next retention seq. -/
def insertMessage (rowId : Nat) (uuid : U) (message : NewMessage T) (deliverAfter : Option Nat) :
    Option Nat × DbChannel U T S :=
  let row seq : MessageRow U T :=
    ⟨rowId, uuid, message.sender, message.body, message.urgency, message.deliveryDeadline, deliverAfter, seq⟩
  match deliverAfter with
  | none =>
    let seq := channel.lastRetainedSeq + 1
    (some seq, { channel with lastRetainedSeq := seq, rows := channel.rows ++ [row (some seq)] })
  | some _ => (none, { channel with rows := channel.rows ++ [row none] })

/-- Retained rows with the seqs asked for, the newest `limit` of them, oldest first. -/
def readRetained (wanted : Nat → Bool) (limit : Depth) : List (Retained (MessageEnvelope U T)) :=
  let rows := (channel.rows.filterMap MessageRow.retained).filter fun row => wanted row.seq
  (limited limit (orderBy newestFirst rows)).reverse

def loadChannelRetainedWindowSeq (limit : Depth) : List (Retained (MessageEnvelope U T)) :=
  channel.readRetained (fun _ => true) limit

def loadChannelMessagesAfterSeq (afterSeq : Nat) (clamp : Depth) : List (Retained (MessageEnvelope U T)) :=
  channel.readRetained (fun seq => decide (afterSeq < seq)) clamp

def channelRetainedCountAfterSeq (afterSeq : Nat) : Nat :=
  channel.rows.countP fun row => row.retainedSeq.any fun seq => decide (afterSeq < seq)

def minSeq (rows : List (Retained (MessageEnvelope U T))) : Option Nat := (rows.map Retained.seq).min?

def channelRetentionFrontier : Option Nat := minSeq (channel.rows.filterMap MessageRow.retained)

def retainedTailFloorSeq (limit : Depth) : Option Nat :=
  minSeq (limited limit (orderBy newestFirst (channel.rows.filterMap MessageRow.retained)))

def primedPosition (pushDepth : Depth) : Nat :=
  (channel.retainedTailFloorSeq pushDepth).getD (channel.lastRetainedSeq + 1)

/-- Where retention begins, or the seq assigned next when nothing is retained. -/
def frontier : Nat := channel.channelRetentionFrontier.getD (channel.lastRetainedSeq + 1)

def append (rowId : Nat) (uuid : U) (message : NewMessage T) : Option Nat × DbChannel U T S :=
  channel.insertMessage rowId uuid message none

def replayFrom [DecidableEq U] (cursor : Option (Resume U)) (limit : Depth) : StoreReplay (MessageEnvelope U T) U :=
  let epoch := channel.resumeEpoch
  let cap := channel.deferredCap.narrowedBy limit
  let window := channel.loadChannelRetainedWindowSeq cap
  match cursor with
  | none => ⟨epoch, window, .fresh⟩
  | some cursor =>
    if cursor.epoch ≠ epoch then ⟨epoch, window, .gap .epochChanged⟩
    else if cursor.seq = channel.lastRetainedSeq then ⟨epoch, [], .upToDate⟩
    else if cursor.seq > channel.lastRetainedSeq then ⟨epoch, window, .gap .resumeAhead⟩
    else
      let owed := channel.lastRetainedSeq - cursor.seq
      let fits : Bool := match cap with
        | .unbounded => true
        | .bounded cap => decide (owed ≤ cap)
      if channel.channelRetainedCountAfterSeq cursor.seq = owed ∧ fits = true then
        ⟨epoch, channel.loadChannelMessagesAfterSeq cursor.seq cap, .exact⟩
      else ⟨epoch, window, .gap .beyondRetained⟩

/-! ### Eviction -/

structure BusGcEviction (S : Type w) (T : Type v) where
  messagesEvicted : Nat
  overflow : List (OverflowEvent S T)
  deriving Repr, DecidableEq

/-- Delete every retained row but the newest `keep`, and charge each position the pass outran. -/
def busGcEvictChannel (keep : Nat) : BusGcEviction S T × DbChannel U T S :=
  let retained := channel.rows.filter fun row => row.retainedSeq.isSome
  if retained.length ≤ keep then (⟨0, []⟩, channel)
  else
    let kept := ((orderBy MessageRow.newestFirst retained).take keep).map MessageRow.id
    let rows := channel.rows.filter fun row => !(row.retainedSeq.isSome && !kept.contains row.id)
    let after : DbChannel U T S := { channel with rows }
    let overflow := channel.cursors.toList.filterMap fun (subscriber, cursor) =>
      let dropped := after.frontier - max cursor.nextOwedSeq channel.frontier
      if dropped > 0 then some ⟨subscriber, dropped, some cursor.appSlug⟩ else none
    (⟨channel.rows.length - rows.length, overflow⟩, after)

/-! ### Deferral -/

def countDeferred : Nat := channel.rows.countP fun row => row.deliverAfter.isSome

def deferredCapRefusal : Option Nat :=
  match channel.deferredCap with
  | .bounded cap => if channel.countDeferred ≥ cap then some cap else none
  | .unbounded => none

def park (rowId : Nat) (uuid : U) (message : NewMessage T) (releaseAt : Nat) :
    Except QuotaExceeded (U × DbChannel U T S) :=
  match channel.deferredCapRefusal with
  | some cap => .error ⟨cap⟩
  | none => .ok (uuid, (channel.insertMessage rowId uuid message (some releaseAt)).2)

/-- Unreleased rows by release time, equal times by id. -/
def deferredRows (wanted : Deferred (MessageRow U T) T → Bool) : List (Deferred (MessageRow U T) T) :=
  orderBy Deferred.Before ((channel.rows.filterMap MessageRow.parked).filter wanted)

def deferredForSender [DecidableEq T] (sender : T) : List (DeferredMessage U T) :=
  (channel.deferredRows fun row => decide (row.sender = sender)).map fun row =>
    ⟨row.releaseAt, row.message.envelope⟩

/-- Give one row the next retention seq and clear its release time. -/
def releaseRow (id : Nat) : DbChannel U T S :=
  let seq := channel.lastRetainedSeq + 1
  { channel with
    lastRetainedSeq := seq
    rows := channel.rows.map fun row => if row.id = id then row.released seq else row }

/-- Release rows in the order given, each under the next seq. -/
def releaseRows : List (Deferred (MessageRow U T) T) → DbChannel U T S →
    List (Retained (MessageEnvelope U T)) × DbChannel U T S
  | [], channel => ([], channel)
  | row :: due, channel =>
    let (released, after) := releaseRows due (channel.releaseRow row.id)
    (⟨channel.lastRetainedSeq + 1, row.message.envelope⟩ :: released, after)

def releaseDueForChannel (now : Nat) : List (Retained (MessageEnvelope U T)) × DbChannel U T S :=
  releaseRows (channel.deferredRows fun row => decide (row.releaseAt ≤ now)) channel

structure DeferredLookup (T : Type v) where
  messageId : Nat
  sender : T
  releaseAt : Nat
  deriving Repr, DecidableEq

def lookupDeferred [DecidableEq U] (messageUuid : U) : Option (DeferredLookup T) :=
  channel.rows.findSome? fun row =>
    if row.uuid = messageUuid then row.deliverAfter.map fun releaseAt => ⟨row.id, row.sender, releaseAt⟩
    else none

def stillParked (id now : Nat) : Bool :=
  channel.rows.any fun row => decide (row.id = id) && row.deliverAfter.any fun releaseAt => decide (now < releaseAt)

def deleteRow (id : Nat) : DbChannel U T S :=
  { channel with rows := channel.rows.filter fun row => decide (row.id ≠ id) }

def rewriteRow (id : Nat) (body : Option T) (releaseAt : Option Nat) : DbChannel U T S :=
  { channel with
    rows := channel.rows.map fun row => if row.id = id then row.rewritten body releaseAt else row }

section Deferral

variable [DecidableEq U] [DecidableEq T]

/-- The unreleased row under a uuid if it is the sender's and not yet due, else the answer owed. -/
def ownedRow (sender : T) (messageUuid : U) (now : Nat) : Except DeferralOutcome Nat :=
  match channel.lookupDeferred messageUuid with
  | none => .error (.notDeferred none)
  | some lookup =>
    if lookup.sender ≠ sender then .error .wrongSender
    else if lookup.releaseAt ≤ now then .error (.notDeferred (some lookup.releaseAt))
    else .ok lookup.messageId

def cancelDeferred (sender : T) (messageUuid : U) (now : Nat) : DeferralOutcome × DbChannel U T S :=
  match channel.ownedRow sender messageUuid now with
  | .error outcome => (outcome, channel)
  | .ok id => if channel.stillParked id now then (.applied, channel.deleteRow id) else (.notDeferred none, channel)

def editDeferred (sender : T) (messageUuid : U) (body : Option T) (releaseAt : Option Nat) (now : Nat) :
    DeferralOutcome × DbChannel U T S :=
  match channel.ownedRow sender messageUuid now with
  | .error outcome => (outcome, channel)
  | .ok id =>
    if channel.stillParked id now then (.applied, channel.rewriteRow id body releaseAt)
    else (.notDeferred none, channel)

end Deferral

/-! ### Positions -/

/-- Bring a subscriber's cursor row into line with an attach; `none` where the inherited floor
    lies above the next seq. -/
def maintainCursor (subscriber : S) (appSlug : T) (pushDepth : Depth) (floor : Option Nat) :
    Option (Attached × DbChannel U T S) :=
  if !pushDepth.isPushEnabled then
    some (.existing, { channel with cursors := channel.cursors.erase subscriber })
  else
    let tail := channel.primedPosition pushDepth
    let primed := match floor with
      | none => some tail
      | some floor => if floor ≤ channel.lastRetainedSeq + 1 then some (max tail floor) else none
    match primed with
    | none => none
    | some primed =>
      match channel.cursors[subscriber]? with
      | some cursor => some (.existing, { channel with
          cursors := channel.cursors.insert subscriber { cursor with appSlug, pushDepth } })
      | none => some (.created, { channel with
          cursors := channel.cursors.insert subscriber ⟨appSlug, pushDepth, primed⟩ })

def attach (subscriber : S) (appSlug : T) (pushDepth : Depth) : Option (Attached × DbChannel U T S) :=
  channel.maintainCursor subscriber appSlug pushDepth none

def attachFrom (subscriber : S) (appSlug : T) (pushDepth : Depth) (floor : Nat) :
    Option (Attached × DbChannel U T S) :=
  if !pushDepth.isPushEnabled then none
  else channel.maintainCursor subscriber appSlug pushDepth (some floor)

def detach (subscriber : S) : Option Nat × DbChannel U T S :=
  (channel.cursors[subscriber]?.map SubscriberCursorRow.nextOwedSeq,
    { channel with cursors := channel.cursors.erase subscriber })

def cursorHasDeliverable (subscriber : S) : Bool :=
  match channel.cursors[subscriber]? with
  | none => false
  | some cursor => channel.rows.any fun row => row.retainedSeq.any fun seq => decide (cursor.nextOwedSeq ≤ seq)

/-- Every subscriber that trails a retained row, with the loudest and the most urgent of what it trails. -/
def deliverableCursorSubscribers : List (DeliverableSubscriber S T) :=
  channel.cursors.toList.filterMap fun (subscriber, cursor) =>
    match channel.rows.filter fun row => row.retainedSeq.any fun seq => decide (cursor.nextOwedSeq ≤ seq) with
    | [] => none
    | row :: rest => some
        { subscriber
          appSlug := some cursor.appSlug
          maxUnseenUrgency := rest.foldl (fun loudest row => loudest.max row.urgency) row.urgency
          earliestUnseenDeadline :=
            rest.foldl (fun earliest row => soonest earliest row.deliveryDeadline) row.deliveryDeadline }

def windowSpan : Depth → Depth → Depth
  | .bounded push, .bounded retain => .bounded (max push retain)
  | _, _ => .unbounded

def composeWindow (entries : List (Retained (MessageEnvelope U T))) (nextOwed : Nat) (pushLimit : Depth) :
    Window (MessageEnvelope U T) :=
  { entries
    newFrom := newBoundary (entries.map Retained.seq) nextOwed (depthBound pushLimit)
    pushEnabled := pushLimit.isPushEnabled }

def window (subscriber : S) (pushLimit retainLimit : Depth) :
    Option (Window (MessageEnvelope U T)) × DbChannel U T S :=
  let entries := channel.loadChannelRetainedWindowSeq (windowSpan pushLimit retainLimit)
  match channel.cursors[subscriber]? with
  | some cursor =>
    let retuned := if pushLimit.isPushEnabled && decide (cursor.pushDepth ≠ pushLimit) then
        channel.cursors.insert subscriber { cursor with pushDepth := pushLimit }
      else channel.cursors
    (some (composeWindow entries cursor.nextOwedSeq pushLimit), { channel with cursors := retuned })
  | none =>
    if pushLimit.isPushEnabled then (none, channel)
    else (some (composeWindow entries (channel.lastRetainedSeq + 1) pushLimit), channel)

/-- Move a position past `through`; `none` where the floor lies above the window it came from. -/
def advance (subscriber : S) (through seenFloor : Nat) : Option (Option Advance × DbChannel U T S) :=
  if ¬ seenFloor ≤ through + 1 then none
  else
    match channel.cursors[subscriber]? with
    | none => some (none, channel)
    | some cursor =>
      let dropped := seenFloor - cursor.nextOwedSeq
      let noiseCharge := if dropped = 0 then 0 else seenFloor - max cursor.nextOwedSeq channel.frontier
      let cursors := if through ≥ cursor.nextOwedSeq then
          channel.cursors.insert subscriber { cursor with nextOwedSeq := through + 1 }
        else channel.cursors
      some (some ⟨dropped, noiseCharge⟩, { channel with cursors })

end DbChannel

end Brenn.Store
