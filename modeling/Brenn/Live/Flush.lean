import Brenn.Live.Channels

/-!
The flush of a remote's batch, `publish_batch_from_attacher` under the race posture.

An admission pass splits the entries by class, one transaction takes the durable ones, and
then each ring entry is appended or parked. Each section resolves the address again. A
target that is gone counts as vanished in the first two; the ring half panics on a miss.
-/

namespace Brenn.Live
open Brenn.Lib Brenn.Queue Brenn.Store Brenn.Bus Std

universe u v w

variable {U : Type u} {T : Type v} {S : Type w} [LinearOrder U] [LinearOrder T] [LinearOrder S]

/-- One entry of a batch, with the ids its store call would draw. -/
structure BatchPublish (U : Type u) (T : Type v) where
  channelAddress : T
  message : NewMessage T
  deliverAfter : Option Nat
  messageId : U
  rowId : Nat
  deriving Repr, DecidableEq

/-- What is fixed about the attacher: the publish scope of its policy and the bus's body cap. -/
structure Attacher (T : Type v) where
  publishAclAllows : ChannelScheme → T → Bool
  bodyFits : T → Bool

/-- An admitted entry: its place in the batch and the directory entry it was admitted for. -/
structure Item (addressing : Addressing U T) where
  index : Nat
  publish : BatchPublish U T
  channel : Channel addressing

/-- Where each entry of the batch ended up, by its place in it. -/
structure Tally where
  durable : List Nat := []
  rings : List Nat := []
  vanished : List Nat := []
  refused : List Nat := []
  deriving Repr, DecidableEq

structure Admission (addressing : Addressing U T) where
  durable : List (Item addressing)
  ring : List (Item addressing)
  vanished : List Nat

namespace Attacher

variable (attacher : Attacher T) {addressing : Addressing U T}

/-- The pass that splits the batch; a target the policy no longer covers has vanished too. -/
def admitEntries (channels : Channels addressing S) : List (BatchPublish U T × Nat) → Admission addressing
  | [] => ⟨[], [], []⟩
  | (publish, index) :: rest =>
    let admitted := admitEntries channels rest
    match channels.resolve publish.channelAddress with
    | none => { admitted with vanished := index :: admitted.vanished }
    | some channel =>
      if !attacher.publishAclAllows channel.transportType channel.name then
        { admitted with vanished := index :: admitted.vanished }
      else if channel.capabilities.durable then
        { admitted with durable := ⟨index, publish, channel⟩ :: admitted.durable }
      else { admitted with ring := ⟨index, publish, channel⟩ :: admitted.ring }

/-- One entry in the transaction, written against the entry the admission found. `none` is a panic. -/
def commitEntry (item : Item addressing) (channels : Channels addressing S) (tally : Tally) :
    Option (Channels addressing S × Tally) :=
  match addressing.wellFormedName item.publish.channelAddress .brenn with
  | none => none
  | some name =>
    if !attacher.publishAclAllows .brenn name then none
    else if (channels.resolve item.publish.channelAddress).isNone then
      some (channels, { tally with vanished := tally.vanished ++ [item.index] })
    else if !attacher.bodyFits item.publish.message.body then none
    else
      match channels.rows[item.channel.uuid]? with
      | none => none
      | some row =>
        -- The cap is the one the admitted entry states, not the one the store was built with.
        if item.publish.deliverAfter.isSome &&
            ({ row with deferredCap := item.channel.retainDepth } : DbChannel U T S).deferredCapRefusal.isSome then
          some (channels, { tally with refused := tally.refused ++ [item.index] })
        else
          let written := (row.insertMessage item.publish.rowId item.publish.messageId item.publish.message
            item.publish.deliverAfter).2
          some ({ channels with rows := channels.rows.insert item.channel.uuid written },
            { tally with durable := tally.durable ++ [item.index] })

def commit : List (Item addressing) → Channels addressing S → Tally → Option (Channels addressing S × Tally)
  | [], channels, tally => some (channels, tally)
  | item :: rest, channels, tally =>
    (attacher.commitEntry item channels tally).bind fun (channels, tally) => commit rest channels tally

/-- `none` is the panic on an address that is not listed, is no transportable ring, is not covered, or
    has no ring. -/
def resolvePrepaid (channels : Channels addressing S) (channelAddress : T) : Option Nat :=
  match channels.resolve channelAddress with
  | none => none
  | some channel =>
    if channel.capabilities.durable || !channel.capabilities.transportable then none
    else if !attacher.publishAclAllows channel.transportType channel.name then none
    else channels.registry.byUuid[channel.uuid]?

def destination (channels : Channels addressing S) (destinations : TreeMap T Nat) (channelAddress : T) : Option Nat :=
  match destinations[channelAddress]? with
  | some handle => some handle
  | none => attacher.resolvePrepaid channels channelAddress

/-- One entry of the ring half; its losses are answered under the registrations it was admitted with. -/
def ringEntry (identities : Identities S T) (handle : Nat) (item : Item addressing) (channels : Channels addressing S)
    (ladder : Ladder S) (tally : Tally) : Option (Channels addressing S × Ladder S × Tally) :=
  if !attacher.bodyFits item.publish.message.body then none
  else
    match channels.registry.stores[handle]? with
    | none => none
    | some store =>
      match item.publish.deliverAfter with
      | some releaseAt =>
        match store.park item.publish.messageId item.publish.message releaseAt with
        | .error _ => some (channels, ladder, { tally with refused := tally.refused ++ [item.index] })
        | .ok (_, after) =>
          some ({ channels with registry := channels.registry.put handle after }, ladder,
            { tally with rings := tally.rings ++ [item.index] })
      | none =>
        match store.append item.publish.messageId item.publish.message with
        | none => none
        | some ((_, overflow), after) =>
          (ladder.enactOverflowEvents identities item.channel.subscribers overflow).map fun ladder =>
            ({ channels with registry := channels.registry.put handle after }, ladder,
              { tally with rings := tally.rings ++ [item.index] })

end Attacher

/-! ### The call among changes to the channels -/

inductive Phase (addressing : Addressing U T) where
  | called (publishes : List (BatchPublish U T))
  | committing (durable ring : List (Item addressing))
  | ringing (todo : List (Item addressing)) (destinations : TreeMap T Nat)
  | returned (dropped : Nat)

structure Flush (addressing : Addressing U T) (S : Type w) [LinearOrder S] where
  channels : Channels addressing S
  ladder : Ladder S
  phase : Phase addressing
  tally : Tally := {}
  /-- The addresses that left the directory since the call. -/
  left : List T := []

inductive FlushEvent (addressing : Addressing U T) where
  | proceed
  | change (made : Change addressing)

namespace Flush

variable {addressing : Addressing U T} (attacher : Attacher T) (identities : Identities S T)

def proceed (flush : Flush addressing S) : Option (Flush addressing S) :=
  match flush.phase with
  | .called [] => some { flush with phase := .returned 0 }
  | .called publishes =>
    let admitted := attacher.admitEntries flush.channels publishes.zipIdx
    some { flush with
      phase := .committing admitted.durable admitted.ring
      tally := { flush.tally with vanished := admitted.vanished } }
  | .committing durable ring =>
    (attacher.commit durable flush.channels flush.tally).map fun (channels, tally) =>
      { flush with channels, tally, phase := .ringing ring ∅ }
  | .ringing [] _ => some { flush with phase := .returned (flush.tally.refused.length + flush.tally.vanished.length) }
  | .ringing (item :: todo) destinations =>
    (attacher.destination flush.channels destinations item.publish.channelAddress).bind fun handle =>
      (attacher.ringEntry identities handle item flush.channels flush.ladder flush.tally).map
        fun (channels, ladder, tally) =>
          { flush with
            channels, ladder, tally
            phase := .ringing todo (destinations.insert item.publish.channelAddress handle) }
  | .returned _ => some flush

/-- `none` is a panic of the call; a change that panics in the task that makes it changes nothing here. -/
def step (flush : Flush addressing S) : FlushEvent addressing → Option (Flush addressing S)
  | .proceed => flush.proceed attacher identities
  | .change made =>
    match flush.channels.change made with
    | none => some flush
    | some channels => some { flush with channels, left := flush.left ++ flush.channels.goneBy made }

def calledWith (channels : Channels addressing S) (ladder : Ladder S) (publishes : List (BatchPublish U T)) :
    Flush addressing S :=
  { channels, ladder, phase := .called publishes }

end Flush

end Brenn.Live
