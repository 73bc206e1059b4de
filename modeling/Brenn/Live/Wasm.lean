import Brenn.Live.Flush

/-!
The flush of a WASM activation, `publish_from_wasm`.

Durable publishes are written in one transaction, each stamped past the durable one before it.
Publishes to rings are set aside with the clock as it read then, and stored after it.
-/

namespace Brenn.Live
open Brenn.Lib Brenn.Queue Brenn.Store Brenn.Bus Std

universe u v w

variable {U : Type u} {T : Type v} {S : Type w} [LinearOrder U] [LinearOrder T] [LinearOrder S]

/-- A publish of an activation, with what the clock reads when the flush stamps it. -/
structure WasmPublish (U : Type u) (T : Type v) extends BatchPublish U T where
  replyTo : Option T
  reading : Int
  deriving Repr, DecidableEq

/-- A stored message: its place in call order and its stamp in nanoseconds. -/
structure Stamped where
  index : Nat
  publishTsNs : Int
  deriving Repr, DecidableEq

/-- The stamp after `prevTs`. `none` is the overflow of a signed 64-bit addition. -/
def nextStamp : Option Int → Int → Option Int
  | none, now => some now
  | some prev, now => if prev + 1 < 2 ^ 63 then some (max (prev + 1) now) else none

/-- A publish set aside for its ring, with the entry it was resolved to. -/
structure Pending (addressing : Addressing U T) where
  index : Nat
  publish : WasmPublish U T
  channel : Channel addressing
  release : Option Nat

structure WasmCommit (addressing : Addressing U T) (S : Type w) [LinearOrder S] where
  channels : Channels addressing S
  prevTs : Option Int := none
  pending : List (Pending addressing) := []
  stored : List Stamped := []
  refused : List Nat := []

namespace WasmCommit

variable {addressing : Addressing U T} (flushNow : Nat)

/-- A release time that has passed schedules nothing. -/
def release (publish : WasmPublish U T) : Option Nat :=
  publish.deliverAfter.filter fun instant => decide (flushNow < instant)

/-- `none` is a panic: an address or a reply address that is not listed, a durable channel without its row, or a
    stamp that overflows. -/
def entry (commit : WasmCommit addressing S) (publish : WasmPublish U T) (index : Nat) :
    Option (WasmCommit addressing S) :=
  match commit.channels.resolve publish.channelAddress with
  | none => none
  | some channel =>
    if publish.replyTo.any fun address => (commit.channels.resolve address).isNone then none
    else if !channel.capabilities.durable then
      some { commit with pending := commit.pending ++ [⟨index, publish, channel, release flushNow publish⟩] }
    else
      match nextStamp commit.prevTs publish.reading, commit.channels.rows[channel.uuid]? with
      | some publishTsNs, some row =>
        if (release flushNow publish).isSome &&
            ({ row with deferredCap := channel.retainDepth } : DbChannel U T S).deferredCapRefusal.isSome then
          some { commit with prevTs := some publishTsNs, refused := commit.refused ++ [index] }
        else
          let written := (row.insertMessage publish.rowId publish.messageId publish.message
            (release flushNow publish)).2
          some { commit with
            channels := { commit.channels with rows := commit.channels.rows.insert channel.uuid written }
            prevTs := some publishTsNs
            stored := commit.stored ++ [⟨index, publishTsNs⟩] }
      | _, _ => none

def entries : WasmCommit addressing S → List (WasmPublish U T × Nat) → Option (WasmCommit addressing S)
  | commit, [] => some commit
  | commit, (publish, index) :: rest => (commit.entry flushNow publish index).bind fun next => next.entries rest

end WasmCommit

/-! ### The call among changes to the channels -/

inductive WasmPhase (addressing : Addressing U T) where
  | called (publishes : List (WasmPublish U T))
  | ringing (todo : List (Pending addressing))
  | returned

structure WasmFlush (addressing : Addressing U T) (S : Type w) [LinearOrder S] where
  channels : Channels addressing S
  ladder : Ladder S
  phase : WasmPhase addressing
  stored : List Stamped := []
  refused : List Nat := []

namespace WasmFlush

variable {addressing : Addressing U T} (flushNow : Nat) (identities : Identities S T)

/-- One publish set aside. `none` is the panic on a ring that is not registered. -/
def ringEntry (flush : WasmFlush addressing S) (item : Pending addressing) : Option (WasmFlush addressing S) :=
  match flush.channels.registry.byUuid[item.channel.uuid]? with
  | none => none
  | some handle =>
    match flush.channels.registry.stores[handle]? with
    | none => none
    | some store =>
      match item.release with
      | some releaseAt =>
        match store.park item.publish.messageId item.publish.message releaseAt with
        | .error _ => some { flush with refused := flush.refused ++ [item.index] }
        | .ok (_, after) =>
          some { flush with
            channels := { flush.channels with registry := flush.channels.registry.put handle after }
            stored := flush.stored ++ [⟨item.index, item.publish.reading⟩] }
      | none =>
        match store.append item.publish.messageId item.publish.message with
        | none => none
        | some ((_, overflow), after) =>
          (flush.ladder.enactOverflowEvents identities item.channel.subscribers overflow).map fun ladder =>
            { flush with
              channels := { flush.channels with registry := flush.channels.registry.put handle after }
              ladder
              stored := flush.stored ++ [⟨item.index, item.publish.reading⟩] }

def proceed (flush : WasmFlush addressing S) : Option (WasmFlush addressing S) :=
  match flush.phase with
  | .called [] => some { flush with phase := .returned }
  | .called publishes =>
    let opened : WasmCommit addressing S := { channels := flush.channels }
    (opened.entries flushNow publishes.zipIdx).map fun commit =>
      { flush with
        channels := commit.channels
        phase := .ringing commit.pending
        stored := flush.stored ++ commit.stored
        refused := flush.refused ++ commit.refused }
  | .ringing [] => some { flush with phase := .returned }
  | .ringing (item :: todo) => { flush with phase := .ringing todo }.ringEntry identities item
  | .returned => some flush

/-- One section of the call or one change to the channels by another task. -/
def step (flush : WasmFlush addressing S) : FlushEvent addressing → Option (WasmFlush addressing S)
  | .proceed => flush.proceed flushNow identities
  | .change made => some { flush with channels := (flush.channels.change made).getD flush.channels }

def calledWith (channels : Channels addressing S) (ladder : Ladder S) (publishes : List (WasmPublish U T)) :
    WasmFlush addressing S :=
  { channels, ladder, phase := .called publishes }

end WasmFlush

end Brenn.Live
