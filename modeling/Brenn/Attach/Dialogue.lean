import Brenn.Attach.Session
import Brenn.Lib.Run

/-!
A client's subscription plane and a server's session, talking over two FIFO links.

Calls, the server's turns and the arrival of frames interleave freely. A detach cuts both links
and takes the session with it. A run ends at `none` where a call panics, where the server answers
a frame as a violation and where the client refuses one.

`noted` observes what a channel's current holders are told: every row accepted, by
its retention position and the loss reported on it, and every gap that a
`SubscribeResult` carries.
-/

namespace Brenn.Attach
open Brenn.Lib Brenn.Queue Brenn.Store Std

universe u v w x

inductive Note where
  | gap
  | row (position dropped : Nat)
  deriving Repr, DecidableEq

structure Dialogue (C : Type u) (M : Type v) (Ep : Type w) (σ : Type x) [LinearOrder C] where
  client : Subscriptions C (Cursor C Ep)
  session : Option (Session C Ep)
  /-- The channels the directory holds, each with its store. -/
  stores : TreeMap C σ
  /-- On their way to the server, oldest first. -/
  up : List (SubscriptionFrame C (Cursor C Ep))
  /-- On their way to the client, oldest first. -/
  down : List (ServerFrame C M Ep)
  noted : C → List Note
  /-- Whether the survivors were resubscribed on this attachment. -/
  resubscribed : Bool

inductive Turn (C : Type u) (M : Type v) (σ : Type x) where
  | acquire (channel : C) (depths : SubscriptionDepths) (policy : ResumePolicy)
  | release (channel : C)
  | goLive (incarnation : Int)
  | resubscribeSurvivors
  | onAttached (incarnation : Int)
  | onDetached
  | serve
  | receive
  | live (batch : List (C × Retained M))
  | drain (channel : C)
  /-- A channel's retention changes, appears or goes. -/
  | store (channel : C) (next : Option σ)

def notesOf {M : Type v} {κ : Type w} (rows : List (DeliverRow (Retained M) κ)) : List Note :=
  rows.map fun row => .row row.envelope.seq row.dropped

def gapNote (gap : Option GapInfo) : List Note := if gap.isSome then [.gap] else []

namespace Dialogue

variable {C : Type u} {M : Type v} {Ep : Type w} {σ : Type x} [LinearOrder C]

def new : Dialogue C M Ep σ :=
  { client := .new, session := none, stores := ∅, up := [], down := [], noted := fun _ => [], resubscribed := false }

variable (world : Dialogue C M Ep σ)

def directory (channel : C) : Option σ := world.stores[channel]?

def note (channel : C) (notes : List Note) : C → List Note :=
  Function.update world.noted channel (world.noted channel ++ notes)

def sent (result : List (SubscriptionFrame C (Cursor C Ep)) × Subscriptions C (Cursor C Ep)) : Dialogue C M Ep σ :=
  { world with client := result.2, up := world.up ++ result.1 }

def written (result : List (ServerFrame C M Ep) × Session C Ep) : Dialogue C M Ep σ :=
  { world with session := some result.2, down := world.down ++ result.1 }

variable (profile : Profile C) [RetentionStore σ M Ep]

def serve : Option (Dialogue C M Ep σ) :=
  match world.session, world.up with
  | some session, .subscribe channel depths resume :: rest =>
    match session.handleSubscribe profile world.directory channel depths resume with
    | some (.ok result) => some ({ world with up := rest }.written result)
    | _ => none
  | some session, .unsubscribe channel :: rest =>
    match session.handleUnsubscribe channel with
    | .ok session => some { world with session := some session, up := rest }
    | .error _ => none
  | _, _ => none

def receive [ToString C] : Option (Dialogue C M Ep σ) :=
  match world.down with
  | .subscribeResult channel outcome replayCount gap :: rest =>
    match world.client.onSubscribeResult channel outcome replayCount gap with
    | .ok (.opened frames _ _ gap, client) =>
      some { world with
        client, down := rest, up := world.up ++ frames
        noted := if 0 < client.refcount channel then world.note channel (gapNote gap) else world.noted }
    | .ok (.unavailable, client) =>
      some { world with client, down := rest, noted := Function.update world.noted channel [] }
    | .error _ => none
  | .deliver channel rows :: rest =>
    match world.client.onDeliver channel rows with
    | .ok (.accept _, client) => some { world with client, down := rest, noted := world.note channel (notesOf rows) }
    | .ok (.discard _ _, client) => some { world with client, down := rest }
    | .error _ => none
  | [] => none

def step [ToString C] [Confinable C] : Turn C M σ → Option (Dialogue C M Ep σ)
  | .acquire channel depths policy => (world.client.acquire channel depths policy).map world.sent
  | .release channel =>
    (world.client.release channel).map fun result =>
      { world.sent result with
        noted := if result.2.refcount channel = 0 then Function.update world.noted channel [] else world.noted }
  | .goLive incarnation =>
    some { world with client := world.client.goLive, session := some (.new incarnation), resubscribed := false }
  | .resubscribeSurvivors => some { world.sent world.client.resubscribeSurvivors with resubscribed := true }
  | .onAttached incarnation =>
    some { world.sent world.client.onAttached with session := some (.new incarnation), resubscribed := true }
  | .onDetached =>
    some { world with client := world.client.onDetached, session := none, up := [], down := [], resubscribed := false }
  | .serve => world.serve profile
  | .receive => world.receive
  | .live batch =>
    match world.session with
    | none => none
    | some session => (session.sendLive profile world.directory batch).map world.written
  | .drain channel =>
    match world.session with
    | none => none
    | some session => (session.drainChannel profile world.directory channel).map world.written
  | .store channel next =>
    some { world with
      stores := match next with
        | some store => world.stores.insert channel store
        | none => world.stores.erase channel }

/-- A statement the route grants and does not clamp to nothing. -/
def Admissible (channel : C) (depths : SubscriptionDepths) : Prop :=
  ∃ bound ∈ profile.subscribable channel,
    ¬ (min depths.pushDepth bound.pushDepth = 0 ∧ min depths.retainDepth bound.retainDepth = 0)

/-- What each call asks of its caller and of the peer. A held channel is stated as it stands, subscriptions stay
    within the cap, and only channels that are there are fed. -/
def Callable [Confinable C] : Turn C M σ → Prop
  | .acquire channel depths policy =>
    Confinable.isLocalChannel channel = false ∧ ¬ (depths.pushDepth = 0 ∧ depths.retainDepth = 0) ∧
      Admissible profile channel depths ∧
      ∀ entry ∈ world.client.channels[channel]?, 0 < entry.refcount →
        entry.depths = depths ∧ entry.resumePolicy = policy
  | .release channel => 0 < world.client.refcount channel
  | .goLive _ | .onAttached _ => world.client.live = false
  | .resubscribeSurvivors => world.client.live = true
  | .serve =>
    world.up ≠ [] ∧ ∀ session ∈ world.session, ∀ frame ∈ world.up.head?, frame.opens = true →
      session.active.size < profile.maxActiveSubscriptions
  | .receive => world.down ≠ []
  | .live batch => world.session.isSome ∧ ∀ item ∈ batch, world.stores[item.1]?.isSome
  | .drain channel =>
    (∃ session ∈ world.session, session.active[channel]?.isSome) ∧ world.stores[channel]?.isSome
  | .onDetached | .store _ _ => True

end Dialogue

end Brenn.Attach
