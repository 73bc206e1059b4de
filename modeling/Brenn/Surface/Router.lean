import Brenn.Lib.Quoting
import Brenn.Surface.Stores

/-!
The page-local router and the rules of the reserved planes.

An embedder's policy says who may write a channel, judges each body on every path that writes one,
and is told what became visible. The surface's policy guards the takeover and overlay-state planes.
JSON is a parameter that renders what it parses. A panic of the source is `none`.
-/

namespace Brenn.Surface
open Brenn.Lib Brenn.Attach Brenn.Queue Std

structure MessageStamp where
  messageId : Nat
  publishTs : Nat
  deriving Repr, DecidableEq

/-- Who publishes: the page itself or one of its components. -/
inductive Origin where
  | attacher
  | sub (instanceId : String)
  deriving Repr, DecidableEq

inductive GuardedBody where
  | carry (body : String)
  | refused (reason : String)
  deriving Repr, DecidableEq

structure PlanePolicy (P : Type) where
  admits : P → String → Origin → Bool
  guard : P → String → Origin → String → Option GuardedBody
  observe : P → MessageEnvelope → Option P

structure RouteRequest where
  channel : String
  origin : Origin
  body : String
  stamp : MessageStamp
  urgency : Urgency
  deliverAfter : Option Nat
  deriving Repr, DecidableEq

inductive RouteOutcome (K : Type) where
  | routed (overflow : List (CursorOverflow K))
  | parked (releaseAt : Nat)
  | scheduleDropped (cap : Nat)
  | refused (reason : String)
  | noIdentity
  deriving Repr, DecidableEq

structure ReleasedChannel (K : Type) where
  channel : String
  released : List MessageEnvelope
  overflow : List (CursorOverflow K)
  deriving Repr, DecidableEq

structure DeferOpRequest where
  channel : String
  origin : Origin
  messageId : Nat
  op : DeferOp
  now : Nat
  deriving Repr, DecidableEq

inductive DeferOpAnswer where
  | applied
  | notParked (deliverAfter : Option Nat)
  | refused (reason : String)
  deriving Repr, DecidableEq

/-- One parked message as its publisher is shown it. -/
structure DeferredViewEntry where
  messageId : Nat
  body : String
  deliverAfter : Nat
  deriving Repr, DecidableEq

def surfaceSubIdentity (participant instanceId : String) : String := participant ++ "#" ++ instanceId

def senderOf (principal : String) : Origin → String
  | .attacher => principal
  | .sub instanceId => surfaceSubIdentity principal instanceId

structure LocalRouter (P : Type) where
  policy : P
  principal : Option String
  releaseArmed : Option Nat

namespace LocalRouter

variable {P K : Type} [LinearOrder K]

def new (policy : P) : LocalRouter P := { policy, principal := none, releaseArmed := none }

variable (rules : PlanePolicy P) (router : LocalRouter P)

def setPrincipal (principal : String) : Option (LocalRouter P) :=
  if principal.isEmpty then none else some { router with principal := some principal }

def mint (principal : String) (req : RouteRequest) (body : String) : MessageEnvelope :=
  { messageId := req.stamp.messageId, source := principal, channel := req.channel
    sender := senderOf principal req.origin, publishTs := req.stamp.publishTs, body, urgency := req.urgency }

/-- Put a minted envelope where its release time says: the deferred set, or the channel now. -/
def place (stores : ChannelStores K) (req : RouteRequest) (envelope : MessageEnvelope) :
    Option (RouteOutcome K × LocalRouter P × ChannelStores K) :=
  match req.deliverAfter.filter fun release => release > req.stamp.publishTs with
  | some releaseAt => do
    let store ← stores.get req.channel
    match store.park envelope.sender envelope releaseAt with
    | .ok (_, store) => some (.parked releaseAt, router, stores.put req.channel store)
    | .error refused => some (.scheduleDropped refused.cap, router, stores)
  | none => do
    let policy ← rules.observe router.policy envelope
    let store ← stores.get req.channel
    let (overflow, store) ← store.appendMinted envelope
    some (.routed overflow, { router with policy }, stores.put req.channel store)

def route (stores : ChannelStores K) (req : RouteRequest) :
    Option (RouteOutcome K × LocalRouter P × ChannelStores K) :=
  if isLocalChannel req.channel = false then none
  else if rules.admits router.policy req.channel req.origin = false then none
  else
    match router.principal with
    | none => some (.noIdentity, router, stores)
    | some principal =>
      match rules.guard router.policy req.channel req.origin req.body with
      | none => none
      | some (.refused reason) => some (.refused reason, router, stores)
      | some (.carry body) => router.place rules stores req (mint principal req body)

def observeAll (policy : P) (envelopes : List MessageEnvelope) : Option P :=
  envelopes.foldlM (fun policy envelope => rules.observe policy envelope) policy

def releasedChannels (reports : List (String × ReleaseReport MessageEnvelope K)) : List (ReleasedChannel K) :=
  reports.map fun (channel, report) =>
    { channel, released := report.released.map Retained.message, overflow := report.overflow }

def releaseDue (stores : ChannelStores K) (now : Nat) :
    Option (List (ReleasedChannel K) × LocalRouter P × ChannelStores K) :=
  let (reports, stores) := stores.releaseDue now
  (observeAll rules router.policy ((releasedChannels reports).flatMap ReleasedChannel.released)).map fun policy =>
    (releasedChannels reports, { router with policy }, stores)

def parkedFor (stores : ChannelStores K) (channel : String) (origin : Origin) : Option (List DeferredViewEntry) :=
  if isLocalChannel channel = false then none
  else
    match router.principal with
    | none => some []
    | some principal =>
      (stores.get channel).map fun store =>
        (store.core.deferredForSender (senderOf principal origin)).map fun parked =>
          { messageId := parked.message.messageId, body := parked.message.body, deliverAfter := parked.releaseAt }

/-- The op with an edit's body as the plane's rules carry it, or the reason they refuse it. -/
def guardOp (channel : String) (origin : Origin) : DeferOp → Option (Except String DeferOp)
  | .edit (some body) deliverAfter =>
    match rules.guard router.policy channel origin body with
    | none => none
    | some (.refused reason) => some (.error reason)
    | some (.carry body) => some (.ok (.edit (some body) deliverAfter))
  | op => some (.ok op)

def applyOp (stores : ChannelStores K) (req : DeferOpRequest) : Option (DeferOpAnswer × ChannelStores K) :=
  if isLocalChannel req.channel = false then none
  else if rules.admits router.policy req.channel req.origin = false then none
  else
    match router.principal with
    | none => some (.notParked none, stores)
    | some principal =>
      match router.guardOp rules req.channel req.origin req.op with
      | none => none
      | some (.error reason) => some (.refused reason, stores)
      | some (.ok op) => do
        let store ← stores.get req.channel
        match ← store.applyDeferOp (senderOf principal req.origin) req.messageId op req.now with
        | (.applied, store) => some (.applied, stores.put req.channel store)
        | (.notParked deliverAfter, _) => some (.notParked deliverAfter, stores)
        | (.wrongSender _, _) => none

end LocalRouter

/-! ### The surface's planes -/

inductive TakeoverAction where
  | request
  | release
  deriving Repr, DecidableEq

inductive TakeoverMode where
  | takeover
  | overlay
  deriving Repr, DecidableEq

structure TakeoverBody where
  v : Fin 256
  action : TakeoverAction
  mode : TakeoverMode
  instanceId : String
  deriving Repr, DecidableEq

structure OverlayStateBody where
  v : Fin 256
  holder : Option String
  sinceStamp : Nat
  deriving Repr, DecidableEq

structure PlaneJson where
  parseTakeover : String → Except String TakeoverBody
  renderTakeover : TakeoverBody → String
  parseOverlayState : String → Except String OverlayStateBody
  faithful : ∀ body, parseTakeover (renderTakeover body) = .ok body

structure PlaneWiring where
  chromeInstance : String
  instances : List String
  deriving Repr, DecidableEq

structure OverlayReport where
  holder : String
  since : Nat
  deriving Repr, DecidableEq

structure SurfacePlanes where
  wiring : Option PlaneWiring
  overlay : Option OverlayReport
  deriving Repr, DecidableEq

def isUndefinedReserved (channel : String) : Bool :=
  isReservedLocalNamespace channel && (reservedLocalChannel channel).isNone

namespace SurfacePlanes

variable (json : PlaneJson) (planes : SurfacePlanes)

def new : SurfacePlanes := { wiring := none, overlay := none }

def wiringOf (bindings : AppliedBindings) : PlaneWiring :=
  { chromeInstance := bindings.doc.chromeInstance, instances := bindings.doc.components.map ComponentEntry.instanceId }

/-- Point the policy at a document's wiring, forgetting a holder it no longer declares. -/
def apply (bindings : AppliedBindings) : SurfacePlanes :=
  { wiring := some (wiringOf bindings)
    overlay := planes.overlay.filter fun overlay => (wiringOf bindings).instances.contains overlay.holder }

def refuseOverlayState (wiring : PlaneWiring) (instanceId body : String) : Option String :=
  if wiring.chromeInstance ≠ instanceId then some "only the surface's chrome instance may publish it"
  else
    match json.parseOverlayState body with
    | .error e => some ("unparseable body: " ++ e)
    | .ok parsed =>
      match parsed.holder with
      | some holder =>
        if wiring.instances.contains holder then none
        else some ("holder " ++ debugText holder ++ " is not a declared instance")
      | none => none

def admits (channel : String) : Origin → Bool
  | .attacher => (reservedLocalChannel channel).any ReservedLocalChannel.kernelPublishOnly
  | .sub _ =>
    !((reservedLocalChannel channel).any ReservedLocalChannel.kernelPublishOnly) && !isUndefinedReserved channel

/-- Put the authenticated publisher in a takeover body, or say why it cannot be. -/
def injectTakeoverInstance (body instanceId : String) : Except String String :=
  match json.parseTakeover body with
  | .ok parsed => .ok (json.renderTakeover { parsed with instanceId })
  | .error e => .error ("unparseable body: " ++ e)

def guard (channel : String) (origin : Origin) (body : String) : Option GuardedBody :=
  if channel = localOverlayStateChannel ∨ channel = localTakeoverChannel then
    match origin with
    | .attacher => none
    | .sub instanceId =>
      if channel = localOverlayStateChannel then
        planes.wiring.map fun wiring =>
          match refuseOverlayState json wiring instanceId body with
          | some reason => .refused reason
          | none => .carry body
      else
        match injectTakeoverInstance json body instanceId with
        | .ok body => some (.carry body)
        | .error reason => some (.refused reason)
  else some (.carry body)

/-- Record who holds the overlay, skipping a holder the wiring stopped declaring. -/
def observe (envelope : MessageEnvelope) : Option SurfacePlanes :=
  if envelope.channel ≠ localOverlayStateChannel then some planes
  else
    match json.parseOverlayState envelope.body with
    | .error _ => none
    | .ok parsed =>
      match parsed.holder with
      | none => some { planes with overlay := none }
      | some holder =>
        planes.wiring.map fun wiring =>
          if wiring.instances.contains holder then { planes with overlay := some ⟨holder, envelope.publishTs⟩ } else planes

def policy : PlanePolicy SurfacePlanes :=
  { admits := fun _ => admits, guard := fun planes => planes.guard json, observe := fun planes => planes.observe json }

end SurfacePlanes

abbrev SurfaceRouter := LocalRouter SurfacePlanes

end Brenn.Surface
