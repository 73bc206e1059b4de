import Brenn.Surface.Buffer
import Brenn.Surface.Router

/-!
The scheduler of a page's instances.

A panic of the source is `none`; a window carries the envelopes themselves where the source carries
their JSON.
-/

namespace Brenn.Surface
open Brenn.Lib Brenn.Attach Brenn.Budget Brenn.Queue Std

/-! ### Readiness -/

/-- Whether a mount still owes its guaranteed first activation. -/
inductive MountDebt where
  | unwired
  | owed
  | settled
  deriving Repr, DecidableEq

/-! ### Loudness -/

/-- One binding's loss, as the loud rungs name it. -/
structure DropAnnouncement where
  instanceId : String
  port : String
  channel : String
  dropped : Nat
  deriving Repr, DecidableEq

structure DropVerdicts where
  announce : List DropAnnouncement
  /-- At most one kill for an instance. -/
  fatal : List DropAnnouncement
  deriving Repr, DecidableEq

namespace DropVerdicts

def none : DropVerdicts := ⟨[], []⟩

def kills (verdicts : DropVerdicts) (instanceId : String) : Bool :=
  verdicts.fatal.any fun held => held.instanceId = instanceId

def merge (verdicts other : DropVerdicts) : DropVerdicts :=
  other.fatal.foldl
    (fun merged kill => if merged.kills kill.instanceId then merged else { merged with fatal := merged.fatal ++ [kill] })
    { verdicts with announce := verdicts.announce ++ other.announce }

end DropVerdicts

/-- One input's accountable loss, before the ladder is walked. -/
structure DropCharge where
  port : String
  channel : String
  noise : NoiseLevel
  counted : Nat
  announced : Nat
  deriving Repr, DecidableEq

/-! ### Activations -/

structure PortWindow where
  port : String
  envelopes : List MessageEnvelope
  newFrom : Nat
  dropped : Nat
  deriving Repr, DecidableEq

def PortWindow.newLen (window : PortWindow) : Nat := window.envelopes.length - window.newFrom

structure DeferredEntry where
  index : Nat
  payload : String
  deliverAfter : Nat
  deriving Repr, DecidableEq

structure DeferredWindow where
  port : String
  entries : List DeferredEntry
  deriving Repr, DecidableEq

structure Activation where
  ports : List PortWindow
  deferred : List DeferredWindow
  now : Nat
  sync : Option String
  deriving Repr, DecidableEq

structure ReadyActivation where
  instanceId : String
  generation : Nat
  activation : Activation
  buffer : PublishBuffer
  drops : DropVerdicts

/-! ### The peer's mirror of parked messages -/

structure ViewKey where
  channel : String
  attribution : Option String
  deriving Repr, DecidableEq

instance : LinearOrder ViewKey :=
  LinearOrder.lift' (fun key => toLex (key.channel, key.attribution.toList)) fun left right same => by
    obtain ⟨_, _ | _⟩ := left <;> obtain ⟨_, _ | _⟩ := right <;> simp_all

structure DeferredViews where
  views : TreeMap ViewKey (List DeferredViewEntry)

namespace DeferredViews

def new : DeferredViews := ⟨∅⟩

variable (views : DeferredViews)

def get (channel : String) (attribution : Option String) : List DeferredViewEntry :=
  (views.views[(⟨channel, attribution⟩ : ViewKey)]?).getD []

end DeferredViews

/-! ### The table -/

/-- The activation in flight; a reply is admissible only where a sync port asked for one. -/
structure InFlight where
  sync : Option String
  deriving Repr, DecidableEq

structure InstanceSchedule where
  inFlight : Option InFlight
  mount : MountDebt
  entryErrActivations : Nat
  carryMt : TreeMap String Nat
  meteredDrops : TreeMap String Nat
  deferredDropped : Nat
  deferredRaces : Nat

structure Schedules where
  instances : TreeMap String InstanceSchedule
  /-- The instance most recently assembled: the next pick resumes after it. -/
  dispatchCursor : Option String

structure ActivationCtx where
  bindings : AppliedBindings
  router : SurfaceRouter
  views : DeferredViews
  maxBodyBytes : Nat
  nowMs : Nat

namespace AppliedBindings

/-- The noise of an input binding, absent for one the wiring does not hold. -/
def bindingNoise (bindings : AppliedBindings) (instanceId port : String) : Option NoiseLevel :=
  ((bindings.inputsOf instanceId).find? fun b => b.port = port).map Binding.noise

end AppliedBindings

def windowInputs : List Binding → SurfaceStores → Option (List PortWindow × List DropCharge × SurfaceStores)
  | [], stores => some ([], [], stores)
  | b :: rest, stores => do
    let store ← stores.get b.channel
    let (answer, store) ← store.serve ⟨b.instanceId, b.port⟩ ⟨b.pushDepth, b.retainDepth⟩
    let served ← answer
    let (windows, charges, stores) ← windowInputs rest (stores.put b.channel store)
    some (⟨b.port, served.envelopes, served.newFrom, served.dropped⟩ :: windows,
      if served.counted > 0 ∨ served.dropped > 0 then ⟨b.port, b.channel, b.noise, served.counted, served.dropped⟩ :: charges
      else charges, stores)

def windowPorts (bindings : AppliedBindings) (instanceId : String) (stores : SurfaceStores) :
    Option (List PortWindow × List DropCharge × SurfaceStores) :=
  windowInputs (bindings.inputsOf instanceId) stores

/-- What an instance has parked on one of its outputs, asked of the channel's authority. -/
def parkedOn (ctx : ActivationCtx) (stores : SurfaceStores) (instanceId channel : String) : Option (List DeferredViewEntry) :=
  if channelIsTransportable channel then some (ctx.views.get channel (some instanceId))
  else ctx.router.parkedFor stores channel (.sub instanceId)

/-- One deferred window for each output, and the ids behind its indices. -/
def windowOutputs (ctx : ActivationCtx) (stores : SurfaceStores) (instanceId : String) :
    List OutputBinding → Option (List DeferredWindow × TreeMap String (List Nat))
  | [] => some ([], ∅)
  | b :: rest => do
    let parked ← parkedOn ctx stores instanceId b.channel
    let (windows, ids) ← windowOutputs ctx stores instanceId rest
    some (⟨b.port, parked.mapIdx fun index entry => ⟨index, entry.body, entry.deliverAfter⟩⟩ :: windows,
      ids.insert b.port (parked.map DeferredViewEntry.messageId))

def deferredWindows (ctx : ActivationCtx) (stores : SurfaceStores) (instanceId : String) :
    Option (List DeferredWindow × TreeMap String (List Nat)) :=
  windowOutputs ctx stores instanceId (ctx.bindings.outputsOf instanceId)

namespace Schedules

def new : Schedules := { instances := ∅, dispatchCursor := none }

variable (schedules : Schedules)

def track (instanceId : String) (wired : Bool) : Option Schedules :=
  if (schedules.instances[instanceId]?).isSome then none
  else
    let schedule : InstanceSchedule :=
      { inFlight := none, mount := if wired then .owed else .unwired, entryErrActivations := 0, carryMt := ∅
        meteredDrops := ∅, deferredDropped := 0, deferredRaces := 0 }
    some { schedules with instances := schedules.instances.insert instanceId schedule }

/-- A document is in force: the mounts that waited for one now owe their activation. -/
def wireMounts : Schedules :=
  { schedules with instances := schedules.instances.map fun _ schedule =>
      if schedule.mount = .unwired then { schedule with mount := .owed } else schedule }

def forget (instanceId : String) : Option Schedules :=
  (schedules.instances[instanceId]?).map fun _ => { schedules with instances := schedules.instances.erase instanceId }

def update (instanceId : String) (f : InstanceSchedule → InstanceSchedule) : Schedules :=
  { schedules with instances := schedules.instances.modify instanceId f }

def countDeferredDrop (instanceId : String) : Schedules :=
  schedules.update instanceId fun schedule => { schedule with deferredDropped := schedule.deferredDropped + 1 }

def countDeferredRace (instanceId : String) : Schedules :=
  schedules.update instanceId fun schedule => { schedule with deferredRaces := schedule.deferredRaces + 1 }

/-! ### The ladder -/

/-- Walk the ladder for an instance's charges: count the metered rung, hand back the loud ones. -/
def enactCharges (instanceId : String) : List DropCharge → Schedules → DropVerdicts × Schedules
  | [], schedules => (.none, schedules)
  | charge :: rest, schedules =>
    let schedules :=
      if charge.noise ≥ .metered ∧ charge.counted > 0 then
        schedules.update instanceId fun schedule =>
          { schedule with
            meteredDrops := schedule.meteredDrops.insert charge.port
              ((schedule.meteredDrops[charge.port]?).getD 0 + charge.counted) }
      else schedules
    let announcement : DropAnnouncement := ⟨instanceId, charge.port, charge.channel, charge.announced⟩
    let (verdicts, schedules) := enactCharges instanceId rest schedules
    ({ announce := if charge.noise ≥ .alarm ∧ charge.announced > 0 then announcement :: verdicts.announce
         else verdicts.announce
       -- the first charge that kills is the one named
       fatal := if charge.noise ≥ .fatal ∧ charge.counted > 0 then [announcement] else verdicts.fatal }, schedules)

/-- One overflow's charge, if the wiring still holds the binding it names. -/
def overflowCharge (bindings : AppliedBindings) (channel : String) (overflow : CursorOverflow BindingKey) : List DropCharge :=
  match bindings.bindingNoise overflow.subscriber.instanceId overflow.subscriber.port with
  | some noise =>
    [⟨overflow.subscriber.port, channel, noise, overflow.evicted, if noise ≥ .fatal then overflow.evicted else 0⟩]
  | none => []

def chargeEach (bindings : AppliedBindings) (channel : String) :
    List (CursorOverflow BindingKey) → DropVerdicts → Schedules → DropVerdicts × Schedules
  | [], verdicts, schedules => (verdicts, schedules)
  | overflow :: rest, verdicts, schedules =>
    let (more, schedules) := enactCharges overflow.subscriber.instanceId (overflowCharge bindings channel overflow) schedules
    chargeEach bindings channel rest (verdicts.merge more) schedules

/-- Charge the retirements that outran positions on a channel, in binding order. -/
def chargeOverflow (bindings : AppliedBindings) (channel : String) (overflow : List (CursorOverflow BindingKey)) :
    DropVerdicts × Schedules :=
  chargeEach bindings channel (overflow.insertionSort fun left right => left.subscriber ≤ right.subscriber) .none schedules

/-! ### Assembly -/

def seedBuffer (instanceId : String) (ports : List PortWindow) (deferredIds : TreeMap String (List Nat)) (ctx : ActivationCtx) :
    Option PublishBuffer := do
  let schedule ← schedules.instances[instanceId]?
  let declared ← ctx.bindings.declaredOutPorts instanceId
  let grant := grantInputMt (ports.map fun window => (millitokensPerPublish, window.newLen))
  let outputs := (ctx.bindings.outputsOf instanceId).attach.foldl
    (fun table b => table.insert b.1.port
      ⟨b.1.channel, b.1.urgency, ctx.bindings.wellFormed.bindable b.1 (List.mem_of_mem_filter b.2)⟩) ∅
  let sinkMt := (ctx.bindings.outputsOf instanceId).foldl
    (fun table b => table.insert b.port
      (seedSinkBudget ((schedule.carryMt[b.port]?).getD 0) ⟨b.fillMt, b.capacityMt⟩ grant)) ∅
  some (.new outputs declared sinkMt ctx.maxBodyBytes deferredIds)

/-- Window, charge, snapshot and seed one activation. It is in flight from here on. -/
def assembleWindows (instanceId : String) (generation : Nat) (sync : Option (String × MessageEnvelope)) (ctx : ActivationCtx)
    (stores : SurfaceStores) : Option (ReadyActivation × Schedules × SurfaceStores) := do
  let schedule ← schedules.instances[instanceId]?
  if schedule.inFlight.isSome then Option.none
  else
    let schedules : Schedules :=
      { instances := schedules.instances.insert instanceId
          { schedule with inFlight := some ⟨sync.map Prod.fst⟩, mount := .settled }
        dispatchCursor := some instanceId }
    let (ports, charges, stores) ← windowPorts ctx.bindings instanceId stores
    let (drops, schedules) := schedules.enactCharges instanceId charges
    let (deferred, deferredIds) ← deferredWindows ctx stores instanceId
    let ports := ports ++ (sync.map fun (port, request) => (⟨port, [request], 0, 0⟩ : PortWindow)).toList
    let buffer ← schedules.seedBuffer instanceId ports deferredIds ctx
    some ({ instanceId, generation, buffer, drops, activation := ⟨ports, deferred, ctx.nowMs, sync.map Prod.fst⟩ },
      schedules, stores)

/-! ### Completion -/

def finish (instanceId : String) (f : InstanceSchedule → InstanceSchedule) : Option Schedules :=
  (schedules.instances[instanceId]?).map fun schedule =>
    { schedules with instances := schedules.instances.insert instanceId (f schedule) }

def finishOk (instanceId : String) (carry : TreeMap String Nat) : Option Schedules :=
  schedules.finish instanceId fun schedule => { schedule with inFlight := Option.none, carryMt := carry }

def finishErr (instanceId : String) (carry : TreeMap String Nat) : Option Schedules :=
  schedules.finish instanceId fun schedule =>
    { schedule with
      inFlight := Option.none, carryMt := carry, entryErrActivations := schedule.entryErrActivations + 1 }

def finishTerminal (instanceId : String) : Option Schedules :=
  schedules.finish instanceId fun schedule => { schedule with inFlight := Option.none }

end Schedules

end Brenn.Surface
