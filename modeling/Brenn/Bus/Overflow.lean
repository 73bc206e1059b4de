import Brenn.Store.RingStore
import Brenn.Store.Rows
import Brenn.Surface.Document

/-!
What the bus does with the losses a store reports.

A position and its registration are written in separate steps, positions before registrations by
a subscribe and after them by an unsubscribe, and a dynamic subscription that a boot or a reload
holds dormant keeps its position without a registration. A pass reports its losses in one step and
answers them in a later one, a publish or a release by the registrations it read before
the report, an eviction by those it finds at the answer.
-/

namespace Brenn.Bus
open Brenn.Lib Brenn.Queue Brenn.Store Std
open Brenn.Surface (NoiseLevel)

universe u v w m e p

variable {U : Type u} {T : Type v} {S : Type w} [LinearOrder S] [DecidableEq T]

/-! ### Participants and registrations -/

inductive SubscriberKind (T : Type v) where
  | conversation (id : Nat)
  | wasm (slug : T)
  | system (component : T)
  | surface (slug : T) (instanceId : Option T)
  | remote (slug : T)
  deriving Repr, DecidableEq

def SubscriberKind.conversationId : SubscriberKind T → Option Nat
  | .conversation id => some id
  | _ => none

structure Identities (S : Type w) (T : Type v) where
  kind : S → SubscriberKind T
  participant : SubscriberKind T → S
  kind_participant : ∀ named, kind (participant named) = named

inductive SubscriberEntryKind (T : Type v) where
  | app (slug : T)
  | wasm (slug : T)
  | system (component : T)
  | surface (slug : T)
  | remote (slug : T)
  | chatConversation (slug : T) (conversationId : Nat)
  deriving Repr, DecidableEq

def SubscriberEntryKind.attachSlug : SubscriberEntryKind T → Option T
  | .surface slug | .remote slug => some slug
  | .app _ | .wasm _ | .system _ | .chatConversation .. => none

/-- A registration on a channel. Only an attached client can enact `fatal`, so no other kind carries it. -/
structure SubscriberEntry (T : Type v) where
  kind : SubscriberEntryKind T
  pushDepth : Depth
  noise : NoiseLevel
  backendEnactable : kind.attachSlug = none → noise ≠ .fatal

/-- Whether a registration names a participant. A conversation is named by its app only where
    the app it is held under is given. -/
def SubscriberEntryKind.matchesKind (appSlug : Option T) : SubscriberEntryKind T → SubscriberKind T → Bool
  | .app registered, .conversation _ => decide (appSlug = some registered)
  | .wasm registered, .wasm named => decide (registered = named)
  | .system registered, .system named => decide (registered = named)
  | .surface registered, .surface named _ => decide (registered = named)
  | .remote registered, .remote named => decide (registered = named)
  | .chatConversation _ conversationId, .conversation named => decide (conversationId = named)
  | _, _ => false

def registeredSubscriber (subscribers : List (SubscriberEntry T)) (named : SubscriberKind T) (appSlug : Option T) :
    Option (SubscriberEntry T) :=
  subscribers.find? fun entry => entry.kind.matchesKind appSlug named

/-! ### The noise ladder -/

inductive OverflowNoise where
  | noise (level : NoiseLevel)
  | attachExempt
  | unregistered
  deriving Repr, DecidableEq

def overflowNoiseFor (subscribers : List (SubscriberEntry T)) (named : SubscriberKind T) (appSlug : Option T) :
    OverflowNoise :=
  match registeredSubscriber subscribers named appSlug with
  | none => .unregistered
  | some registration =>
    match registration.kind.attachSlug with
    | some _ => .attachExempt
    | none => .noise registration.noise

/-- The metered tallies, the alarms raised and the losses logged as nobody's. -/
structure Ladder (S : Type w) [LinearOrder S] where
  meteredDrops : TreeMap S Nat := ∅
  alarms : List (S × Nat) := []
  logged : List (S × Nat) := []

namespace Ladder

variable (ladder : Ladder S)

def tally (subscriber : S) : Nat := ladder.meteredDrops[subscriber]?.getD 0

def meter (subscriber : S) (count : Nat) : Ladder S :=
  { ladder with meteredDrops := ladder.meteredDrops.insert subscriber (ladder.tally subscriber + count) }

/-- The one place a loss is enacted. `none` is the panic on a level the backend cannot enact. -/
def enactOverflowNoise (subscriber : S) (noise : NoiseLevel) (count : Nat) : Option (Ladder S) :=
  if count = 0 then some ladder
  else
    match noise with
    | .silent => some ladder
    | .metered => some (ladder.meter subscriber count)
    | .alarm => some { ladder.meter subscriber count with alarms := ladder.alarms ++ [(subscriber, count)] }
    | .fatal => none

def enactOverflowEvents (identities : Identities S T) (subscribers : List (SubscriberEntry T)) :
    List (OverflowEvent S T) → Ladder S → Option (Ladder S)
  | [], ladder => some ladder
  | event :: events, ladder =>
    match overflowNoiseFor subscribers (identities.kind event.subscriber) event.appSlug with
    | .noise noise =>
      (ladder.enactOverflowNoise event.subscriber noise event.dropped).bind (enactOverflowEvents identities subscribers events)
    | .attachExempt => enactOverflowEvents identities subscribers events ladder
    | .unregistered =>
      match (identities.kind event.subscriber).conversationId with
      | some _ => none
      | none =>
        enactOverflowEvents identities subscribers events
          { ladder with logged := ladder.logged ++ [(event.subscriber, event.dropped)] }

end Ladder

/-! ### A channel and its store -/

inductive Retention (U : Type u) (T : Type v) (S : Type w) [LinearOrder S] where
  | ring (store : RingStore U T S)
  | durable (channel : DbChannel U T S)

namespace Retention

/-- Every position the store holds, with the application it is held under. -/
def positions : Retention U T S → List (S × T)
  | .ring store => store.core.cursors.toList.filterMap fun (subscriber, _) =>
      store.appSlugs[subscriber]?.map fun slug => (subscriber, slug)
  | .durable channel => channel.cursors.toList.map fun (subscriber, cursor) => (subscriber, cursor.appSlug)

def attach (subscriber : S) (appSlug : T) (pushDepth : Depth) : Retention U T S → Option (Retention U T S)
  | .ring store => some (.ring (store.attach subscriber appSlug pushDepth).2)
  | .durable channel => (channel.attach subscriber appSlug pushDepth).map fun attached => .durable attached.2

def detach (subscriber : S) : Retention U T S → Retention U T S
  | .ring store => .ring (store.detach subscriber).2
  | .durable channel => .durable (channel.detach subscriber).2

end Retention

inductive Pass (U : Type u) (T : Type v) where
  | publish (rowId : Nat) (messageId : U) (message : NewMessage T)
  | release (now : Nat)
  | evict (keep : Nat)
  deriving Repr, DecidableEq

/-- What a pass reports and leaves. Only durable channels are evicted in passes of their own. -/
def Retention.report (pass : Pass U T) : Retention U T S → Option (List (OverflowEvent S T) × Retention U T S)
  | .ring store =>
    match pass with
    | .publish _ messageId message =>
      (store.append messageId message).map fun (answer, store) => (answer.2, .ring store)
    | .release now => (store.releaseDue now).map fun (answer, store) => (answer.2, .ring store)
    | .evict _ => some ([], .ring store)
  | .durable channel =>
    match pass with
    | .publish rowId messageId message => some ([], .durable (channel.append rowId messageId message).2)
    | .release now => some ([], .durable (channel.releaseDueForChannel now).2)
    | .evict keep => some ((channel.busGcEvictChannel keep).1.overflow, .durable (channel.busGcEvictChannel keep).2)

/-- A pass between its report and its answer: the registrations it read, the positions held at the report, and the
    losses. -/
structure Passing (T : Type v) (S : Type w) where
  entry : Option (List (SubscriberEntry T))
  held : List (S × T)
  overflow : List (OverflowEvent S T)

/-- A channel with the registrations publishes and sweeps have read, and the passes under way. -/
structure World (U : Type u) (T : Type v) (S : Type w) [LinearOrder S] where
  subscribers : List (SubscriberEntry T)
  retention : Retention U T S
  ladder : Ladder S := {}
  entries : TreeMap Nat (List (SubscriberEntry T)) := ∅
  passes : TreeMap Nat (Passing T S) := ∅

inductive Home (U : Type u) (T : Type v) where
  | ring (channelUuid : U) (address : T) (depth : Nat) (epoch : U)
  | durable (epoch : U) (cap : Depth)
  deriving Repr, DecidableEq

/-- The steps of subscribes, unsubscribes, static changes, reloads and boots, and of the passes between them. -/
inductive Event (U : Type u) (T : Type v) (S : Type w) where
  | addSubscriber (entry : SubscriberEntry T)
  | removeSubscriber (kind : SubscriberEntryKind T)
  | attachSubscriber (subscriber : S) (appSlug : T) (pushDepth : Depth)
  | detachSubscriber (subscriber : S)
  | boot (subscribers : List (SubscriberEntry T)) (dormant : List T) (epoch : U)
  | resolve (call : Nat)
  | pass (call : Nat) (pass : Pass U T)
  | enact (call : Nat)

/-- How apps resolve to conversations, which is given. -/
structure Targets (S : Type w) (T : Type v) extends Identities S T where
  appConversation : T → Option Nat

namespace Targets

variable (targets : Targets S T)

def conversationOf (slug : T) : Option S := (targets.appConversation slug).map fun id => targets.participant (.conversation id)

/-- The participant whose position a registration justifies. -/
def justified (entry : SubscriberEntry T) : Option S :=
  if !entry.pushDepth.isPushEnabled then none
  else
    match entry.kind with
    | .app slug => targets.conversationOf slug
    | .wasm slug => some (targets.participant (.wasm slug))
    | .system component => some (targets.participant (.system component))
    | .surface _ | .remote _ => none
    | .chatConversation _ conversationId => some (targets.participant (.conversation conversationId))

/-- Boot's reconciliation: positions nothing justifies are deleted, and one above the channel's head is reset to it. -/
def reconcileSubscriberCursors (subscribers : List (SubscriberEntry T)) (dormant : List T)
    (channel : DbChannel U T S) : DbChannel U T S :=
  let justified := subscribers.filterMap targets.justified ++ dormant.filterMap targets.conversationOf
  { channel with
    cursors := (channel.cursors.filter fun subscriber _ => justified.contains subscriber).map fun _ cursor =>
      if cursor.nextOwedSeq > channel.lastRetainedSeq + 1 then { cursor with nextOwedSeq := channel.lastRetainedSeq + 1 }
      else cursor }

end Targets

def addSubscriber (entry : SubscriberEntry T) : List (SubscriberEntry T) → List (SubscriberEntry T)
  | [] => [entry]
  | held :: rest => if held.kind = entry.kind then entry :: rest else held :: addSubscriber entry rest

namespace World

variable (targets : Targets S T) (world : World U T S)

/-- The registrations a pass goes by, where it has read them by the time of its report. -/
def entryOf (call : Nat) : Pass U T → Option (List (SubscriberEntry T))
  | .publish .. | .release _ => some (world.entries[call]?.getD world.subscribers)
  | .evict _ => none

/-- The store's part of a pass. A call makes no other before it has answered the losses of its last. -/
def report (call : Nat) (pass : Pass U T) : Option (World U T S) :=
  if (world.passes[call]?).isSome then some world
  else
    (world.retention.report pass).map fun (overflow, retention) =>
      { world with
        retention
        passes := world.passes.insert call ⟨world.entryOf call pass, world.retention.positions, overflow⟩ }

/-- The registrations the losses of a pass are answered by. -/
def answering (passing : Passing T S) : List (SubscriberEntry T) := passing.entry.getD world.subscribers

def enact (call : Nat) : Option (World U T S) :=
  match world.passes[call]? with
  | none => some world
  | some passing =>
    (world.ladder.enactOverflowEvents targets.toIdentities (world.answering passing) passing.overflow).map fun ladder =>
      { world with ladder, passes := world.passes.erase call }

/-- One step. `none` is a panic. -/
def step (world : World U T S) : Event U T S → Option (World U T S)
  | .addSubscriber entry => some { world with subscribers := addSubscriber entry world.subscribers }
  | .removeSubscriber kind =>
    some { world with subscribers := world.subscribers.filter fun held => decide (held.kind ≠ kind) }
  | .attachSubscriber subscriber appSlug pushDepth =>
    (world.retention.attach subscriber appSlug pushDepth).map fun retention => { world with retention }
  | .detachSubscriber subscriber =>
    some { world with
      retention := world.retention.detach subscriber
      ladder := { world.ladder with meteredDrops := world.ladder.meteredDrops.erase subscriber } }
  | .boot subscribers dormant epoch =>
    let retention := match world.retention with
      | .ring store => .ring (.fresh store.channelUuid store.address store.core.ring.depth epoch)
      | .durable channel => .durable (targets.reconcileSubscriberCursors subscribers dormant channel)
    some { subscribers, retention }
  | .resolve call => some { world with entries := world.entries.insert call world.subscribers }
  | .pass call pass => world.report call pass
  | .enact call => world.enact targets call

/-- Every conversation's position that was held at the report of a pass stands under a registration of
    those the pass is answered by. -/
def Registered (world : World U T S) : Event U T S → Prop
  | .enact call => ∀ passing ∈ world.passes[call]?, ∀ position ∈ passing.held,
      (targets.kind position.1).conversationId.isSome →
        (registeredSubscriber (world.answering passing) (targets.kind position.1) (some position.2)).isSome
  | _ => True

instance (world : World U T S) : (event : Event U T S) → Decidable (world.Registered targets event)
  | .enact call => inferInstanceAs (Decidable (∀ passing ∈ world.passes[call]?, ∀ position ∈ passing.held, _ → _))
  | .addSubscriber _ | .removeSubscriber _ | .attachSubscriber .. | .detachSubscriber _ | .boot .. | .resolve _
  | .pass .. => inferInstanceAs (Decidable True)

/-- A channel as it is created, before anyone holds a position on it. -/
def opened (subscribers : List (SubscriberEntry T)) : Home U T → World U T S
  | .ring channelUuid address depth epoch => { subscribers, retention := .ring (.fresh channelUuid address depth epoch) }
  | .durable epoch cap => { subscribers, retention := .durable (.new epoch cap) }

end World

/-- Participants as numbers where a single app, processor, component, surface and remote exist. -/
def soleApp : Targets Nat Unit where
  kind
    | 0 => .wasm ()
    | 1 => .system ()
    | 2 => .surface () none
    | 3 => .surface () (some ())
    | 4 => .remote ()
    | id + 5 => .conversation id
  participant
    | .wasm () => 0
    | .system () => 1
    | .surface () none => 2
    | .surface () (some ()) => 3
    | .remote () => 4
    | .conversation id => id + 5
  kind_participant
    | .wasm () | .system () | .surface () none | .surface () (some ()) | .remote () | .conversation _ => rfl
  appConversation _ := some 7

end Brenn.Bus
