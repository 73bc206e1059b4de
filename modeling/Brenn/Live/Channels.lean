import Brenn.Bus.Losses
import Brenn.Store.Registry

/-!
The channels of a running bus: the directory, the rings of its non-durable channels and
the rows of its durable ones.

A reload takes a channel out of the directory and then drops its ring, and puts one in the other
way round; a conversation's teardown drops the ring first. A durable channel's rows outlive
its directory entry, unless a teardown deletes them under the database lock.
-/

namespace Brenn.Live
open Brenn.Lib Brenn.Queue Brenn.Store Brenn.Bus Std

universe u v w

variable {U : Type u} {T : Type v} {S : Type w} [LinearOrder U] [LinearOrder T] [LinearOrder S]

/-- How addresses read, and the uuid the database knows a durable channel's address by. -/
structure Addressing (U : Type u) (T : Type v) where
  split : T → Option (ChannelScheme × T)
  /-- Whether a bare name is non-empty and made of unreserved characters. -/
  unreserved : T → Bool
  durableUuid : T → U

namespace Addressing

variable (addressing : Addressing U T)

def wellFormedName (address : T) (scheme : ChannelScheme) : Option T :=
  match addressing.split address with
  | some (found, name) => if found = scheme ∧ addressing.unreserved name = true then some name else none
  | none => none

end Addressing

/-- A directory entry. A durable channel keeps its address's uuid: it is derived, and a pin that moves it is
    refused. -/
structure Channel (addressing : Addressing U T) extends ChannelEntry U T where
  subscribers : List (SubscriberEntry T)
  name : T
  capabilities : ChannelCapabilities
  addressed : addressing.split address = some (transportType, name)
  classed : transportType.capabilities = some capabilities
  derived : capabilities.durable = true → uuid = addressing.durableUuid address

structure Channels (addressing : Addressing U T) (S : Type w) [LinearOrder S] where
  directory : List (Channel addressing)
  registry : RingStores U T S
  rows : TreeMap U (DbChannel U T S)

/-- The lock sections that change which channels there are. -/
inductive Change (addressing : Addressing U T) where
  | removeChannel (channelUuid : U)
  | deregister (channelUuid : U)
  /-- The durable half of a teardown: rows and directory entry under one database lock. -/
  | discard (channelUuid : U)
  | register (channel : Channel addressing)
  /-- A durable channel's row is there before its directory entry. -/
  | addChannel (channel : Channel addressing) (epoch : U)

namespace Channels

variable {addressing : Addressing U T} (channels : Channels addressing S)

def empty (epoch : U) : Channels addressing S := ⟨[], .empty epoch, ∅⟩

def resolve (address : T) : Option (Channel addressing) :=
  channels.directory.find? fun channel => decide (channel.address = address)

def removeChannel (channelUuid : U) : Channels addressing S :=
  { channels with directory := channels.directory.filter fun channel => decide (channel.uuid ≠ channelUuid) }

def upsert (channel : Channel addressing) (epoch : U) : Channels addressing S :=
  if channel.capabilities.durable && channels.rows[channel.uuid]?.isNone then
    { channels with rows := channels.rows.insert channel.uuid (.new epoch channel.retainDepth) }
  else channels

/-- `none` is the panic on a taken uuid or address. -/
def addChannel (channel : Channel addressing) : Option (Channels addressing S) :=
  if channels.directory.any fun held => decide (held.uuid = channel.uuid ∨ held.address = channel.address) then none
  else some { channels with directory := channels.directory ++ [channel] }

def addressesOf (channelUuid : U) : List T :=
  (channels.directory.filter fun channel => decide (channel.uuid = channelUuid)).map fun channel => channel.address

/-- One section. `none` is a panic of the task that makes the change. -/
def change : Change addressing → Option (Channels addressing S)
  | .removeChannel channelUuid =>
    if channels.directory.any fun channel => decide (channel.uuid = channelUuid) then some (channels.removeChannel channelUuid)
    else none
  | .deregister channelUuid => some { channels with registry := (channels.registry.deregister channelUuid).2 }
  | .discard channelUuid =>
    some { channels.removeChannel channelUuid with rows := channels.rows.erase channelUuid }
  | .register channel =>
    (channels.registry.register channel.toChannelEntry).map fun registered => { channels with registry := registered.2 }
  | .addChannel channel epoch => (channels.upsert channel epoch).addChannel channel

end Channels

section Changes

variable {addressing : Addressing U T}

def Change.removes : Change addressing → Option U
  | .removeChannel channelUuid | .discard channelUuid => some channelUuid
  | .deregister _ | .register _ | .addChannel .. => none

def Channels.goneBy (channels : Channels addressing S) (made : Change addressing) : List T :=
  match made.removes with
  | some channelUuid => channels.addressesOf channelUuid
  | none => []

end Changes

/-! ### Numbers as names -/

/-- Addresses as numbers: the even ones are durable channels and the odd ones rings. -/
def parity : Addressing Nat Nat where
  split address := some (if address % 2 = 0 then .brenn else .ephemeral, address)
  unreserved _ := true
  durableUuid address := address

def numbered : Identities Nat Nat where
  kind number :=
    match number % 6 with
    | 0 => .wasm (number / 6)
    | 1 => .system (number / 6)
    | 2 => .remote (number / 6)
    | 3 => .conversation (number / 6)
    | 4 => .surface (number / 6) none
    | _ => .surface (number / 6).unpair.1 (some (number / 6).unpair.2)
  participant
    | .wasm slug => 6 * slug
    | .system component => 6 * component + 1
    | .remote slug => 6 * slug + 2
    | .conversation id => 6 * id + 3
    | .surface slug none => 6 * slug + 4
    | .surface slug (some instanceId) => 6 * Nat.pair slug instanceId + 5
  kind_participant named := by
    rcases named with id | slug | component | ⟨slug, _ | instanceId⟩ | slug <;>
      simp [Nat.mul_add_div]

end Brenn.Live
