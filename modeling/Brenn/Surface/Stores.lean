import Brenn.Queue.Core
import Brenn.Surface.Document

/-!
The page's channel stores.

A store is a ring core over envelopes plus what the peer reported dropping for each
reader. The collection keys stores by address; positions are keyed by binding. A
panic of the source is `none`. Uuids and instants are numbers.
-/

namespace Brenn.Surface
open Brenn.Lib Brenn.Attach Brenn.Queue Std

structure MessageEnvelope where
  messageId : Nat
  source : String
  channel : String
  sender : String
  publishTs : Nat
  body : String
  urgency : Urgency
  deriving Repr, DecidableEq

structure BindingKey where
  instanceId : String
  port : String
  deriving Repr, DecidableEq

instance : LinearOrder BindingKey :=
  LinearOrder.lift' (fun key => toLex (key.instanceId, key.port)) fun left right same => by
    cases left
    cases right
    simpa using same

inductive DeferOp where
  | cancel
  | edit (body : Option String) (deliverAfter : Option Nat)
  deriving Repr, DecidableEq

inductive DeferOpOutcome where
  | applied
  | notParked (deliverAfter : Option Nat)
  | wrongSender (owner : String)
  deriving Repr, DecidableEq

structure ServedWindow where
  envelopes : List MessageEnvelope
  newFrom : Nat
  dropped : Nat
  counted : Nat
  deriving Repr, DecidableEq

structure ChannelStore (K : Type) [LinearOrder K] where
  core : RingCore MessageEnvelope Nat K String
  serverDrops : TreeMap K Nat

namespace ChannelStore

variable {K : Type} [LinearOrder K]

def new (epoch depth : Nat) : ChannelStore K := { core := .new epoch depth, serverDrops := ∅ }

variable (store : ChannelStore K)

def retune (depth : Nat) : List (CursorOverflow K) × ChannelStore K :=
  let (overflow, core) := store.core.setDepth depth
  (overflow, { store with core })

def holds (envelope : MessageEnvelope) : Bool :=
  store.core.ring.entries.any fun entry => entry.message.messageId = envelope.messageId

/-- Retain an arrival unless it is retained already. -/
def insert (envelope : MessageEnvelope) : List (CursorOverflow K) × ChannelStore K :=
  if store.holds envelope then ([], store)
  else
    let (report, core) := store.core.append envelope
    (report.overflow, { store with core })

/-- Retain an envelope the page minted, whose id the source asserts to be new. -/
def appendMinted (envelope : MessageEnvelope) : Option (List (CursorOverflow K) × ChannelStore K) :=
  if store.holds envelope then none
  else
    let (report, core) := store.core.append envelope
    some (report.overflow, { store with core })

def attach (reader : K) (pushDepth : Nat) : ChannelStore K :=
  { store with core := (store.core.attach reader pushDepth).2 }

def detach (reader : K) : ChannelStore K :=
  { core := (store.core.detach reader).2, serverDrops := store.serverDrops.erase reader }

def readers : List K := store.core.cursors.keys

/-- The answer is absent for a push-enabled reader without a position; the call is `none` where the cursor asserts.
    The two sums are of `u64`s, and wrap where no build flag has them panic. -/
def serve (reader : K) (depths : SubscriptionDepths) : Option (Option ServedWindow × ChannelStore K) :=
  match store.core.window reader depths.pushDepth depths.retainDepth with
  | (none, _) => some (none, store)
  | (some window, core) =>
    let moved := match window.advanceSpan with
      | none => some (none, core)
      | some (through, seenFloor) => core.advance reader through seenFloor
    let fromPeer := (store.serverDrops[reader]?).getD 0
    moved.map fun (advance, core) =>
      (some
        { envelopes := window.entries.map Retained.message
          newFrom := window.newFrom
          dropped := ((advance.map Advance.dropped).getD 0 + fromPeer) % 2 ^ 64
          counted := ((advance.map Advance.noiseCharge).getD 0 + fromPeer) % 2 ^ 64 },
        { core, serverDrops := store.serverDrops.erase reader })

/-- Charge a peer-reported loss to every reader, up to what a `u64` counts. -/
def countServerDrops (n : Nat) : ChannelStore K :=
  if n = 0 then store
  else
    let count drops reader := drops.insert reader (min ((drops[reader]?).getD 0 + n) (2 ^ 64 - 1))
    { store with serverDrops := store.readers.foldl count store.serverDrops }

def park (sender : String) (envelope : MessageEnvelope) (releaseAt : Nat) :
    Except QuotaExceeded (Nat × ChannelStore K) :=
  match store.core.park sender envelope releaseAt with
  | .error refused => .error refused
  | .ok (id, core) => .ok (id, { store with core })

def nextRelease : Option Nat := store.core.deferred.nextRelease

def releaseDue (now : Nat) : ReleaseReport MessageEnvelope K × ChannelStore K :=
  let (report, core) := store.core.releaseDue now
  (report, { store with core })

def parkedSenders : List String := store.core.deferred.entries.map Deferred.sender

def applyDeferOp (sender : String) (messageId : Nat) (op : DeferOp) (now : Nat) :
    Option (DeferOpOutcome × ChannelStore K) :=
  match store.core.ownedDeferred sender (fun message => message.messageId = messageId) now with
  | .pastCutoff releaseAt => some (.notParked (some releaseAt), store)
  | .notFound => some (.notParked none, store)
  | .wrongSender owner => some (.wrongSender owner, store)
  | .owned id entry =>
    match op with
    | .cancel =>
      match store.core.cancelDeferred id with
      | (some _, core) => some (.applied, { store with core })
      | (none, _) => none
    | .edit body deliverAfter =>
      match store.core.editDeferred id (body.map fun body => { entry.message with body }) deliverAfter with
      | (.ok (), core) => some (.applied, { store with core })
      | (.error _, _) => none

end ChannelStore

structure ChannelStores (K : Type) [LinearOrder K] where
  epoch : Nat
  stores : TreeMap String (ChannelStore K)

namespace ChannelStores

variable {K : Type} [LinearOrder K]

def new (epoch : Nat) : ChannelStores K := { epoch, stores := ∅ }

variable (all : ChannelStores K)

def get (channel : String) : Option (ChannelStore K) := all.stores[channel]?

def put (channel : String) (store : ChannelStore K) : ChannelStores K :=
  { all with stores := all.stores.insert channel store }

def ensure (channel : String) (depth : Nat) : List (CursorOverflow K) × ChannelStores K :=
  let (overflow, store) := ((all.get channel).getD (.new all.epoch depth)).retune depth
  (overflow, all.put channel store)

def retain (keep : String → Bool) : List (String × ChannelStore K) × ChannelStores K :=
  (all.stores.toList.filter fun item => !keep item.1, { all with stores := all.stores.filter fun channel _ => keep channel })

def releaseDue (now : Nat) : List (String × ReleaseReport MessageEnvelope K) × ChannelStores K :=
  let isDue (store : ChannelStore K) : Bool := store.nextRelease.any fun release => release ≤ now
  ((all.stores.toList.filter fun item => isDue item.2).map fun item => (item.1, (item.2.releaseDue now).1),
    { all with stores := all.stores.map fun _ store => if isDue store then (store.releaseDue now).2 else store })

/-! ### What holds of each store -/

def Each (holds : String → ChannelStore K → Prop) : Prop :=
  ∀ channel store, all.get channel = some store → holds channel store

@[simp] theorem get_put (channel other : String) (store : ChannelStore K) :
    (all.put channel store).get other = if channel = other then some store else all.get other :=
  lookup_insert _ _ _ _

variable {all} {holds : String → ChannelStore K → Prop}

theorem Each.put (each : all.Each holds) {channel : String} {store : ChannelStore K} (new : holds channel store) :
    (all.put channel store).Each holds := by
  intro other held found
  rw [get_put] at found
  split at found
  · cases found
    exact ‹channel = other› ▸ new
  · exact each other held found

theorem Each.imp {weaker : String → ChannelStore K → Prop} (each : all.Each holds)
    (weaken : ∀ channel store, holds channel store → weaker channel store) : all.Each weaker :=
  fun channel store found => weaken _ _ (each channel store found)

theorem get_retain (keep : String → Bool) (channel : String) :
    (all.retain keep).2.get channel = if keep channel then all.get channel else none := by
  unfold ChannelStores.retain ChannelStores.get
  rw [TreeMap.getElem?_filter']
  cases all.stores[channel]? with
  | none => simp
  | some store => by_cases kept : keep channel = true <;> simp [Option.filter, kept]

theorem Each.retain (each : all.Each holds) (keep : String → Bool) : (all.retain keep).2.Each holds := by
  intro channel store found
  rw [get_retain] at found
  split at found
  · exact each channel store found
  · cases found

theorem get_ensure (channel : String) (depth : Nat) (other : String) :
    (all.ensure channel depth).2.get other =
      if channel = other then some (((all.get channel).getD (.new all.epoch depth)).retune depth).2 else all.get other := by
  unfold ChannelStores.ensure
  exact get_put _ _ _ _

theorem Each.ensure (each : all.Each holds) (new : ∀ channel epoch depth, holds channel (.new epoch depth))
    (retuned : ∀ channel store depth, holds channel store → holds channel (store.retune depth).2)
    (channel : String) (depth : Nat) : (all.ensure channel depth).2.Each holds := by
  intro other store found
  rw [get_ensure] at found
  split at found
  next same =>
    cases found
    subst same
    cases held : all.get channel with
    | none => exact retuned _ _ _ (new _ _ _)
    | some old => exact retuned _ _ _ (each _ _ held)
  next => exact each other store found

theorem get_releaseDue (now : Nat) (channel : String) :
    (all.releaseDue now).2.get channel = (all.get channel).map fun store =>
      if (store.nextRelease.any fun release => release ≤ now) = true then (store.releaseDue now).2 else store := by
  unfold ChannelStores.releaseDue ChannelStores.get
  exact TreeMap.getElem?_map

theorem mem_releaseDue {now : Nat} {channel : String} {report : ReleaseReport MessageEnvelope K}
    (member : (channel, report) ∈ (all.releaseDue now).1) :
    ∃ store, all.get channel = some store ∧ report = (store.releaseDue now).1 := by
  unfold ChannelStores.releaseDue at member
  obtain ⟨⟨listed, store⟩, held, same⟩ := List.mem_map.mp member
  cases same
  exact ⟨store, TreeMap.mem_toList_iff_getElem?_eq_some.mp (List.mem_filter.mp held).1, rfl⟩

end ChannelStores

/-! ### The stores of a surface -/

abbrev SurfaceStores := ChannelStores BindingKey

def newStores (epoch : Nat) : SurfaceStores :=
  reservedLocalChannels.foldl (fun stores plane => (stores.ensure plane.address plane.ringDepth).2) (.new epoch)

structure StoreReconcile where
  retired : List (String × List (CursorOverflow BindingKey))
  lostSchedules : List (String × List String)
  deriving Repr, DecidableEq

/-- Size every store the document names, collecting the channels whose shrink cost a reader. -/
def ensureAll : List (String × Nat) → SurfaceStores → List (String × List (CursorOverflow BindingKey)) × SurfaceStores
  | [], stores => ([], stores)
  | (channel, depth) :: rest, stores =>
    let (overflow, stores) := stores.ensure channel depth
    let (retired, stores) := ensureAll rest stores
    (if overflow.isEmpty then retired else (channel, overflow) :: retired, stores)

def reconcileStores (bindings : AppliedBindings) (stores : SurfaceStores) : StoreReconcile × SurfaceStores :=
  let (dropped, stores) := stores.retain fun channel =>
    (bindings.storeDepth channel).isSome || (reservedLocalChannel channel).isSome
  let lostSchedules := (dropped.map fun item => (item.1, item.2.parkedSenders)).filter fun item => !item.2.isEmpty
  let (retired, stores) := ensureAll bindings.storeDepths.toList stores
  ({ retired, lostSchedules }, stores)

/-- A property that a new store has and a retune keeps survives the sizing pass. -/
theorem each_ensureAll {holds : String → ChannelStore BindingKey → Prop}
    (new : ∀ channel epoch depth, holds channel (.new epoch depth))
    (retuned : ∀ channel store depth, holds channel store → holds channel (store.retune depth).2)
    (depths : List (String × Nat)) {stores : SurfaceStores} (each : stores.Each holds) :
    (ensureAll depths stores).2.Each holds := by
  induction depths generalizing stores with
  | nil => exact each
  | cons entry depths ih =>
    obtain ⟨channel, depth⟩ := entry
    exact ih (each.ensure new retuned channel depth)

theorem each_reconcileStores {holds : String → ChannelStore BindingKey → Prop}
    (new : ∀ channel epoch depth, holds channel (.new epoch depth))
    (retuned : ∀ channel store depth, holds channel store → holds channel (store.retune depth).2)
    (bindings : AppliedBindings) {stores : SurfaceStores} (each : stores.Each holds) :
    (reconcileStores bindings stores).2.Each holds :=
  each_ensureAll new retuned _ (each.retain _)

theorem each_newStores {holds : String → ChannelStore BindingKey → Prop}
    (new : ∀ channel epoch depth, holds channel (.new epoch depth))
    (retuned : ∀ channel store depth, holds channel store → holds channel (store.retune depth).2) (epoch : Nat) :
    (newStores epoch).Each holds := by
  have sized : ∀ (planes : List ReservedLocalChannel) (stores : SurfaceStores), stores.Each holds →
      (planes.foldl (fun stores plane => (stores.ensure plane.address plane.ringDepth).2) stores).Each holds := by
    intro planes
    induction planes with
    | nil => exact fun _ each => each
    | cons plane planes ih =>
      exact fun stores each => ih _ (each.ensure new retuned plane.address plane.ringDepth)
  exact sized _ _ fun channel store found => by simp [ChannelStores.get, ChannelStores.new] at found

end Brenn.Surface
