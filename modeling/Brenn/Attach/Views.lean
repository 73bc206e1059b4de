import Brenn.Attach.ParkedSets
import Brenn.Lib.Run

/-!
The parked-set mirrors of a surface's pages.

A page is seeded behind `Welcome`, by reads that take no lock, and is sent a new view after each
change, by the session whose batch made it or by the release sweep. Both emitters read the set
and hand the view to the session queues under the deferred-view gate.

Each step is one section of the source. An entry of a batch that publishes at once parks
nothing and is left out, and so are the sweep's deliveries, but for the room they take in a
queue. Another surface's components are restated at that surface's own sessions.
-/

namespace Brenn.Attach.Views
open Brenn.Lib Brenn.Queue Brenn.Store Brenn.Bus Std

universe u v w

variable {U : Type u} {T : Type v} {S : Type w} [LinearOrder T] [LinearOrder S]

/-! ### The mirrors -/

/-- A component's parked set on one channel. A surface's targets all name a component. -/
structure DeferredTarget (T : Type v) where
  channel : T
  component : T
  deriving Repr, DecidableEq

/-- A surface: the senders it publishes under and the facts of its profile. -/
structure Surface (T : Type v) where
  /-- The identity of a component, and the surface's own. -/
  principal : Option T → T
  /-- The component of this surface a sender is. -/
  surfaceComponentOf : T → Option T
  component_principal : ∀ attribution, surfaceComponentOf (principal attribution) = attribution
  deferredViewTargets : List (DeferredTarget T)
  distinct : deferredViewTargets.Nodup
  perAccount : Nat
  perAttacher : Nat

/-- The surface and the component that a sender names. -/
def surfaceComponentOf (sender : String) : Option (String × String) :=
  (sender.toList.dropPrefix? "surface:".toList).bind fun named =>
    match named.dropWhile (· ≠ '#') with
    | [] => none
    | _ :: component => some (String.ofList (named.takeWhile (· ≠ '#')), String.ofList component)

/-- The identity of a surface, or of a component of it. -/
def surfacePrincipal (slug : String) : Option String → String
  | none => "surface:" ++ slug
  | some component => "surface:" ++ slug ++ "#" ++ component

theorem surfaceComponentOf_surfacePrincipal {slug : String} (plain : '#' ∉ slug.toList) (attribution : Option String) :
    surfaceComponentOf (surfacePrincipal slug attribution) = attribution.map fun component => (slug, component) := by
  have stops : ∀ c ∈ slug.toList, decide (c ≠ '#') = true := fun c member =>
    decide_eq_true fun same => plain (same ▸ member)
  have opens (rest : List Char) := List.dropPrefix?_append_of_beq rest (beq_self_eq_true "surface:".toList)
  cases attribution with
  | none =>
    rw [surfaceComponentOf, surfacePrincipal, String.toList_append, opens, Option.bind_some,
      List.dropWhile_eq_nil_iff.mpr stops]
    rfl
  | some component =>
    rw [surfaceComponentOf, surfacePrincipal, String.append_assoc, String.append_assoc, String.toList_append, opens,
      Option.bind_some, String.toList_append, String.toList_append, List.dropWhile_append_of_pos stops,
      List.takeWhile_append_of_pos stops]
    simp

/-- A surface by its slug, which holds no separator. -/
def Surface.ofSlug (slug : String) (plain : '#' ∉ slug.toList) (deferredViewTargets : List (DeferredTarget String))
    (distinct : deferredViewTargets.Nodup) (perAccount perAttacher : Nat) : Surface String where
  principal := surfacePrincipal slug
  surfaceComponentOf sender := (Views.surfaceComponentOf sender).bind fun (owner, component) =>
    if owner = slug then some component else none
  component_principal attribution := by
    rw [surfaceComponentOf_surfacePrincipal plain]
    cases attribution <;> simp
  deferredViewTargets := deferredViewTargets
  distinct := distinct
  perAccount := perAccount
  perAttacher := perAttacher

structure DeferredViewEntry (U : Type u) (T : Type v) where
  messageId : U
  body : T
  deliverAfter : Nat
  deriving Repr, DecidableEq

def deferredViewEntries (parked : List (DeferredMessage U T)) : List (DeferredViewEntry U T) :=
  parked.map fun message => ⟨message.envelope.messageId, message.envelope.body, releaseTimeOf message.releaseAt⟩

structure DeferredViewPush (U : Type u) (T : Type v) where
  channel : T
  attribution : Option T
  entries : List (DeferredViewEntry U T)
  deriving Repr, DecidableEq

def DeferredViewPush.Names (view : DeferredViewPush U T) (target : DeferredTarget T) : Prop :=
  view.channel = target.channel ∧ view.attribution = some target.component

instance (view : DeferredViewPush U T) (target : DeferredTarget T) : Decidable (view.Names target) :=
  inferInstanceAs (Decidable (_ ∧ _))

def lastView (target : DeferredTarget T) (views : List (DeferredViewPush U T)) : Option (List (DeferredViewEntry U T)) :=
  (views.filter fun view => decide (view.Names target)).getLast?.map DeferredViewPush.entries

/-! ### Sessions -/

inductive SessionPush (U : Type u) (T : Type v) where
  | live
  | deferredView (view : DeferredViewPush U T)
  deriving Repr, DecidableEq

def SessionPush.view : SessionPush U T → Option (DeferredViewPush U T)
  | .live => none
  | .deferredView view => some view

def pushQueueFrames : Nat := 256

/-- One publish of a batch, with the id drawn for it. -/
structure BatchEntry (U : Type u) (T : Type v) where
  channel : T
  body : T
  urgency : Urgency
  deliverAfter : Option Nat
  messageId : U
  deriving Repr, DecidableEq

/-- One control op of a batch: an edit, or a cancel. -/
structure ResolvedDeferredOp (U : Type u) (T : Type v) where
  channel : T
  messageId : U
  edit : Option (Option T × Option Nat)
  deriving Repr, DecidableEq

/-- A schedule of a batch, with its release time. -/
structure Schedule (U : Type u) (T : Type v) where
  entry : BatchEntry U T
  releaseAt : Nat
  deriving Repr, DecidableEq

/-- The entries a batch parks: those whose time is past the flush's one clock read. -/
def schedules (flushNow : Nat) (entries : List (BatchEntry U T)) : List (Schedule U T) :=
  entries.filterMap fun entry => (entry.deliverAfter.filter (flushNow < ·)).map fun releaseAt => ⟨entry, releaseAt⟩

inductive Activity (U : Type u) (T : Type v) where
  | opening
  | seeding (targets : List (DeferredTarget T))
  | reading
  /-- Applying a batch's control ops; the channels of those applied or raced are collected. -/
  | controlling (attribution : Option T) (flushNow : Nat) (ops : List (ResolvedDeferredOp U T))
      (entries : List (BatchEntry U T)) (opChannels : List T)
  /-- Applying a batch's schedules, one store section after another. -/
  | publishing (attribution : Option T) (sections : List (List (Schedule U T))) (touched : List T)
  /-- Restating the sender's views; after a violation the connection then dies. -/
  | emitting (attribution : Option T) (channels : List T) (violated : Bool)
  deriving Repr, DecidableEq

structure Session (U : Type u) (T : Type v) where
  account : T
  activity : Activity U T
  queue : List (SessionPush U T)
  sent : List (DeferredViewPush U T)
  deriving Repr, DecidableEq

/-- A push is dropped at a full queue. -/
def Session.tryPush (session : Session U T) (push : SessionPush U T) : Session U T :=
  if session.queue.length < pushQueueFrames then { session with queue := session.queue ++ [push] } else session

def Session.forward (session : Session U T) (count : Nat) : Session U T :=
  { session with
    queue := session.queue.drop count
    sent := session.sent ++ (session.queue.take count).filterMap SessionPush.view }

/-! ### The server -/

/-- A view read under the gate and not handed off yet. -/
structure Emission (U : Type u) (T : Type v) where
  /-- The session that emits, or the sweep. -/
  holder : Option Nat
  view : DeferredViewPush U T
  deriving Repr, DecidableEq

inductive Sweep (T : Type v) where
  | idle
  | checking (now : Nat) (channels : List T)
  | releasing (now : Nat) (channel : T) (channels : List T)
  /-- Restating the components released on a channel; `attached` once a session was found for the first. -/
  | restating (now : Nat) (channel : T) (components : List T) (attached : Bool) (channels : List T)
  deriving Repr, DecidableEq

structure World (U : Type u) (T : Type v) (S : Type w) [LinearOrder T] [LinearOrder S] where
  stores : TreeMap T (Retention U T S)
  nextRow : Nat
  sessions : TreeMap Nat (Session U T) := ∅
  gate : Option (Emission U T) := none
  sweep : Sweep T := .idle

inductive Event (U : Type u) (T : Type v) where
  | register (id : Nat) (account : T)
  | welcome (id : Nat)
  | seed (id : Nat)
  | forward (id count : Nat)
  | flush (id : Nat) (attribution : Option T) (flushNow : Nat) (ops : List (ResolvedDeferredOp U T))
      (entries : List (BatchEntry U T))
  | proceed (id : Nat)
  | detach (id : Nat)
  | live (id : Nat)
  | sweep (now : Nat)
  | sweepOn
  deriving Repr, DecidableEq

def sortedOnce (names : List T) : List T := (orderBy (· < ·) names).dedup

namespace World

variable (surface : Surface T) (world : World U T S)

def deferredViewForSender (channel : T) (attribution : Option T) : Option (List (DeferredViewEntry U T)) :=
  world.stores[channel]?.map fun store => deferredViewEntries (store.deferredForSender (surface.principal attribution))

def parked (target : DeferredTarget T) : List (DeferredViewEntry U T) :=
  (world.deferredViewForSender surface target.channel (some target.component)).getD []

def tryRegister (id : Nat) (account : T) : World U T S :=
  if (world.sessions.toList.countP fun held => held.2.account = account) ≥ surface.perAccount then world
  else if world.sessions.size ≥ surface.perAttacher then world
  else { world with sessions := world.sessions.insert id ⟨account, .opening, [], []⟩ }

/-- Hand a view to every session, and let the gate go. -/
def pushDeferredView (view : DeferredViewPush U T) : World U T S :=
  { world with
    sessions := world.sessions.map fun _ session => session.tryPush (.deferredView view)
    gate := none }

def held (holder : Option Nat) : Option (DeferredViewPush U T) :=
  (world.gate.filter fun emission => emission.holder = holder).map Emission.view

section Steps

variable [DecidableEq U]

def applyDeferredOp (sender : T) (flushNow : Nat) (op : ResolvedDeferredOp U T) (store : Retention U T S) :
    DeferralOutcome × Retention U T S :=
  match op.edit with
  | none => store.cancelDeferred sender op.messageId flushNow
  | some (body, releaseAt) => store.editDeferred sender op.messageId body releaseAt flushNow

/-- Park one schedule; `none` where its channel is not in the directory. -/
def parkSchedule (sender : T) (schedule : Schedule U T) : Option (World U T S) :=
  world.stores[schedule.entry.channel]?.map fun store =>
    { world with
      stores := world.stores.insert schedule.entry.channel (store.park world.nextRow schedule.entry.messageId
        ⟨sender, schedule.entry.body, schedule.entry.urgency, none⟩ schedule.releaseAt)
      nextRow := world.nextRow + 1 }

def parkSection (sender : T) : List (Schedule U T) → World U T S → Option (World U T S)
  | [], world => some world
  | schedule :: rest, world => (world.parkSchedule sender schedule).bind (parkSection sender rest)

/-- The durable schedules commit as one transaction, then each ring schedule on its own. -/
def sections (schedules : List (Schedule U T)) : List (List (Schedule U T)) :=
  let durable (schedule : Schedule U T) : Bool :=
    match world.stores[schedule.entry.channel]? with
    | some (.durable _) => true
    | _ => false
  schedules.filter durable :: (schedules.filter fun schedule => !durable schedule).map fun schedule => [schedule]

def setSession (id : Nat) (session : Session U T) (activity : Activity U T) : World U T S :=
  { world with sessions := world.sessions.insert id { session with activity } }

def proceed (id : Nat) (session : Session U T) : Option (World U T S) :=
  match session.activity with
  | .controlling attribution flushNow (op :: ops) entries opChannels =>
    world.stores[op.channel]?.map fun store =>
      let (outcome, store) := applyDeferredOp (surface.principal attribution) flushNow op store
      let changed := { world with stores := world.stores.insert op.channel store }
      match outcome with
      | .wrongSender => changed.setSession id session (.emitting attribution (sortedOnce opChannels) true)
      | _ => changed.setSession id session (.controlling attribution flushNow ops entries (opChannels ++ [op.channel]))
  | .controlling attribution flushNow [] entries opChannels =>
    let scheduled := schedules flushNow entries
    some (world.setSession id session (.publishing attribution (world.sections scheduled)
      (scheduled.map (fun schedule => schedule.entry.channel) ++ opChannels)))
  | .publishing attribution (together :: sections) touched =>
    (parkSection (surface.principal attribution) together world).map fun changed =>
      changed.setSession id session (.publishing attribution sections touched)
  | .publishing attribution [] touched =>
    some (world.setSession id session (.emitting attribution (sortedOnce touched) false))
  | .emitting attribution (channel :: channels) violated =>
    if world.gate.isSome then none
    else (world.deferredViewForSender surface channel attribution).map fun entries =>
      { world.setSession id session (.emitting attribution channels violated) with
        gate := some ⟨some id, channel, attribution, entries⟩ }
  | .emitting _ [] false => some (world.setSession id session .reading)
  | .emitting _ [] true => some { world with sessions := world.sessions.erase id }
  | .opening | .seeding _ | .reading => none

def sweepOn : Option (World U T S) :=
  match world.sweep with
  | .idle => none
  | .checking _ [] => some { world with sweep := .idle }
  | .checking now (channel :: channels) => world.stores[channel]?.map fun store =>
      match store.nextRelease with
      | some due =>
        { world with sweep := if due ≤ now then .releasing now channel channels else .checking now channels }
      | none => { world with sweep := .checking now channels }
  | .releasing now channel channels =>
    (world.stores[channel]?.bind fun store => store.releaseDue now).map fun (senders, store) =>
      { world with
        stores := world.stores.insert channel store
        sweep := .restating now channel (sortedOnce (senders.filterMap surface.surfaceComponentOf)) false channels }
  | .restating now _ [] _ channels => some { world with sweep := .checking now channels }
  | .restating now channel (component :: components) false channels =>
    some { world with
      sweep := if world.sessions.isEmpty then .restating now channel components false channels
        else .restating now channel (component :: components) true channels }
  | .restating now channel (component :: components) true channels =>
    if world.gate.isSome then none
    else (world.deferredViewForSender surface channel (some component)).map fun entries =>
      { world with
        gate := some ⟨none, channel, some component, entries⟩
        sweep := .restating now channel components false channels }

/-- `none` where the code panics, or the step is not one the task at hand takes. -/
def step (world : World U T S) : Event U T → Option (World U T S)
  | .register id account => if id ∈ world.sessions then none else some (world.tryRegister surface id account)
  | .welcome id => world.sessions[id]?.bind fun session =>
      if session.activity = .opening then some (world.setSession id session (.seeding surface.deferredViewTargets)) else none
  | .seed id => world.sessions[id]?.bind fun session =>
      match session.activity with
      | .seeding [] => some (world.setSession id session .reading)
      | .seeding (target :: targets) =>
        (world.deferredViewForSender surface target.channel (some target.component)).map fun entries =>
          let seeds := if entries.isEmpty then [] else [⟨target.channel, some target.component, entries⟩]
          world.setSession id { session with sent := session.sent ++ seeds } (.seeding targets)
      | _ => none
  | .forward id count => world.sessions[id]?.bind fun session =>
      if session.activity = .reading then
        some { world with sessions := world.sessions.insert id (session.forward count) }
      else none
  | .flush id attribution flushNow ops entries => world.sessions[id]?.bind fun session =>
      if session.activity = .reading then
        some (world.setSession id session (.controlling attribution flushNow ops entries []))
      else none
  | .proceed id => world.sessions[id]?.bind fun session =>
      match world.held (some id) with
      | some view => some (world.pushDeferredView view)
      | none => world.proceed surface id session
  | .detach id => world.sessions[id]?.bind fun session =>
      match session.activity with
      | .opening | .seeding _ | .reading => some { world with sessions := world.sessions.erase id }
      | _ => none
  | .live id => some { world with sessions := world.sessions.modify id fun session => session.tryPush .live }
  | .sweep now => if world.sweep = .idle then some { world with sweep := .checking now world.stores.keys } else none
  | .sweepOn =>
    match world.held none with
    | some view => some (world.pushDeferredView view)
    | none => world.sweepOn surface

end Steps

def HandsOff : Event U T → Prop
  | .proceed id => (world.held (some id)).isSome
  | .sweepOn => (world.held none).isSome
  | _ => False

instance : (event : Event U T) → Decidable (world.HandsOff event)
  | .proceed id => inferInstanceAs (Decidable ((world.held (some id)).isSome = true))
  | .sweepOn => inferInstanceAs (Decidable ((world.held none).isSome = true))
  | .register .. | .welcome _ | .seed _ | .forward .. | .flush .. | .detach _ | .live _ | .sweep _ =>
    inferInstanceAs (Decidable False)

/-- No view is pushed at a full queue. -/
def Roomy (world : World U T S) (event : Event U T) : Prop :=
  world.HandsOff event → ∀ held ∈ world.sessions.toList, held.2.queue.length < pushQueueFrames

instance (event : Event U T) : Decidable (world.Roomy event) := inferInstanceAs (Decidable (_ → _))

structure Quiet : Prop where
  gate : world.gate = none
  sweep : world.sweep = .idle
  sessions : ∀ held ∈ world.sessions.toList, held.2.activity = .reading ∧ held.2.queue = []

instance [DecidableEq U] : Decidable world.Quiet :=
  decidable_of_iff (world.gate = none ∧ world.sweep = .idle ∧
      ∀ held ∈ world.sessions.toList, held.2.activity = .reading ∧ held.2.queue = [])
    ⟨fun ⟨gate, sweep, sessions⟩ => ⟨gate, sweep, sessions⟩, fun quiet => ⟨quiet.gate, quiet.sweep, quiet.sessions⟩⟩

end World

end Brenn.Attach.Views
