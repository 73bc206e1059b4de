import Brenn.Surface.Schedule

/-!
What an instance's sink budgets allow over a run.

An activation's buckets are seeded from the carry of the one before, clamped to the
binding's capacity, and from what it is granted. A bucket and what was paid out of it always add up
to the seed, and the seeds add up to no more than what was granted.
-/

namespace Brenn.Budget

theorem saturatingU64_le (n : Nat) : saturatingU64 n ≤ n := Nat.min_le_left _ _

theorem saturatingU64_lt (n : Nat) : saturatingU64 n < 2 ^ 64 := by
  unfold saturatingU64
  omega

/-- A grant at one uniform rate is the rate for everything new, as far as a `u64` goes. -/
theorem grantInputMt_uniform (rate : Nat) (counts : List Nat) :
    grantInputMt (counts.map fun count => (rate, count)) = saturatingU64 (rate * counts.sum) := by
  have folded : ∀ (mts : List Nat) (start : Nat), start < 2 ^ 64 →
      (mts.map saturatingU64).foldl (fun sum mt => saturatingU64 (sum + mt)) start = saturatingU64 (start + mts.sum) := by
    intro mts
    induction mts with
    | nil =>
      intro start small
      simp only [List.map_nil, List.foldl_nil, List.sum_nil, saturatingU64]
      omega
    | cons mt mts ih =>
      intro start small
      rw [List.map_cons, List.foldl_cons, ih _ (saturatingU64_lt _), List.sum_cons]
      simp only [saturatingU64]
      omega
  have products : grantInputMt (counts.map fun count => (rate, count)) =
      ((counts.map fun count => rate * count).map saturatingU64).foldl (fun sum mt => saturatingU64 (sum + mt)) 0 := by
    simp only [grantInputMt, List.map_map]
    rfl
  rw [products, folded _ 0 (by omega), Nat.zero_add, List.sum_map_mul_left, List.map_id']

theorem seedSinkBudget_le (carryMt : Nat) (budget : SinkBudget) (grant : Nat) :
    seedSinkBudget carryMt budget grant ≤ min carryMt budget.capacityMt + budget.fillMt + grant := by
  unfold seedSinkBudget saturatingU64
  omega

theorem seedSinkBudget_lt (carryMt : Nat) (budget : SinkBudget) (grant : Nat) :
    seedSinkBudget carryMt budget grant < 2 ^ 64 := saturatingU64_lt _

theorem le_seedSinkBudget (carryMt : Nat) (budget : SinkBudget) (granted : Nat) :
    saturatingU64 granted ≤ seedSinkBudget carryMt budget (saturatingU64 granted) := by
  unfold seedSinkBudget saturatingU64
  omega

end Brenn.Budget

namespace Brenn.Surface
open Brenn.Lib Brenn.Attach Brenn.Budget Brenn.Queue Std

/-! ### What the scheduler keeps of an instance -/

namespace Schedules

def standing (schedules : Schedules) (instanceId : String) : Option (TreeMap String Nat × Option InFlight) :=
  (schedules.instances[instanceId]?).map fun schedule => (schedule.carryMt, schedule.inFlight)

def carry (schedules : Schedules) (instanceId port : String) : Nat :=
  ((schedules.standing instanceId).bind fun standing => standing.1[port]?).getD 0

variable {schedules : Schedules}

theorem standing_update {f : InstanceSchedule → InstanceSchedule} (instanceId : String)
    (same : ∀ schedule, (f schedule).carryMt = schedule.carryMt ∧ (f schedule).inFlight = schedule.inFlight)
    (other : String) : (schedules.update instanceId f).standing other = schedules.standing other := by
  unfold standing update
  rw [lookup_modify]
  split
  · rw [Option.map_map]
    congr 1
    funext schedule
    simp only [Function.comp, (same schedule).1, (same schedule).2]
  · rfl

theorem standing_enactCharges (instanceId : String) (charges : List DropCharge) (other : String) :
    (schedules.enactCharges instanceId charges).2.standing other = schedules.standing other := by
  induction charges generalizing schedules with
  | nil => rfl
  | cons charge charges ih =>
    unfold enactCharges
    dsimp only
    rw [ih]
    split
    · refine standing_update instanceId ?_ other
      exact fun schedule => ⟨rfl, rfl⟩
    · rfl

theorem standing_chargeOverflow (bindings : AppliedBindings) (channel : String)
    (overflow : List (CursorOverflow BindingKey)) (other : String) :
    (schedules.chargeOverflow bindings channel overflow).2.standing other = schedules.standing other := by
  have each : ∀ (overflow : List (CursorOverflow BindingKey)) (verdicts : DropVerdicts) (schedules : Schedules),
      (chargeEach bindings channel overflow verdicts schedules).2.standing other = schedules.standing other := by
    intro overflow
    induction overflow with
    | nil => exact fun _ _ => rfl
    | cons first overflow ih =>
      intro verdicts schedules
      unfold chargeEach
      dsimp only
      rw [ih, standing_enactCharges]
  exact each _ _ _

theorem standing_wireMounts (other : String) : schedules.wireMounts.standing other = schedules.standing other := by
  unfold standing wireMounts
  dsimp only
  rw [TreeMap.getElem?_map, Option.map_map]
  congr 1
  funext schedule
  simp only [Function.comp]
  split <;> rfl

theorem standing_finish {f : InstanceSchedule → InstanceSchedule} {instanceId : String} {next : Schedules}
    (finished : schedules.finish instanceId f = some next) :
    ∃ schedule, schedules.instances[instanceId]? = some schedule ∧ ∀ other, next.standing other =
      if instanceId = other then some ((f schedule).carryMt, (f schedule).inFlight) else schedules.standing other := by
  obtain ⟨schedule, held, rfl⟩ := Option.map_eq_some_iff.mp finished
  refine ⟨schedule, held, fun other => ?_⟩
  unfold standing
  dsimp only
  rw [lookup_insert]
  split <;> rfl

theorem carry_congr {next : Schedules} {instanceId : String}
    (same : next.standing instanceId = schedules.standing instanceId) (port : String) :
    next.carry instanceId port = schedules.carry instanceId port := by
  unfold carry
  rw [same]

end Schedules

def newEnvelopes (ports : List PortWindow) : Nat := (ports.map PortWindow.newLen).sum

def seedFor (b : OutputBinding) (carryMt granted : Nat) : Nat :=
  seedSinkBudget carryMt ⟨b.fillMt, b.capacityMt⟩ (saturatingU64 (millitokensPerPublish * granted))

theorem seedFor_le (b : OutputBinding) (carryMt granted : Nat) :
    seedFor b carryMt granted ≤ min carryMt b.capacityMt + b.fillMt + millitokensPerPublish * granted :=
  (seedSinkBudget_le carryMt ⟨b.fillMt, b.capacityMt⟩ _).trans
    (Nat.add_le_add_left (saturatingU64_le (millitokensPerPublish * granted)) _)

namespace AppliedBindings

variable (bindings : AppliedBindings)

theorem find_outputsOf (instanceId port : String) :
    ((bindings.outputsOf instanceId).find? fun b => b.port = port) = bindings.output instanceId port := by
  unfold outputsOf output
  simp only [List.find?_filter, Bool.decide_and, Bool.decide_eq_true]

theorem nodup_outputsOf (instanceId : String) : ((bindings.outputsOf instanceId).map OutputBinding.port).Nodup := by
  have distinct := bindings.wellFormed.outputs
  refine List.Nodup.of_map (fun port => (instanceId, port)) ?_
  have paired : ((bindings.outputsOf instanceId).map OutputBinding.port).map (fun port => (instanceId, port)) =
      (bindings.outputsOf instanceId).map fun b => (b.instanceId, b.port) := by
    rw [List.map_map]
    refine List.map_congr_left fun b member => ?_
    have own : b.instanceId = instanceId := of_decide_eq_true (List.mem_filter.mp member).2
    simp only [Function.comp, own]
  rw [paired]
  exact distinct.sublist (List.filter_sublist.map _)

end AppliedBindings

/-- What an assembly did: the activation's buckets are the seeds of its bound ports. -/
structure Assembles (schedules : Schedules) (instanceId : String) (ctx : ActivationCtx) (ready : ReadyActivation)
    (next : Schedules) : Prop where
  idle : ∃ carried, schedules.standing instanceId = some (carried, none)
  others : ∀ other, instanceId ≠ other → next.standing other = schedules.standing other
  flies : ∃ carried flight, next.standing instanceId = some (carried, some flight)
  carries : ∀ port, next.carry instanceId port = schedules.carry instanceId port
  fresh : ready.buffer.entries = [] ∧ ready.buffer.Balanced (min ctx.maxBodyBytes usizeMax)
  seeds : ∀ port : String, ready.buffer.gate.sinks[port]? = (ctx.bindings.output instanceId port).map fun b =>
    seedFor b (schedules.carry instanceId port) (newEnvelopes ready.activation.ports)

theorem Schedules.seedBuffer_spec {schedules : Schedules} {instanceId : String} {ports : List PortWindow}
    {deferredIds : TreeMap String (List Nat)} {ctx : ActivationCtx} {buffer : PublishBuffer}
    (seeded : schedules.seedBuffer instanceId ports deferredIds ctx = some buffer) :
    buffer.entries = [] ∧ buffer.Balanced (min ctx.maxBodyBytes usizeMax) ∧
    ∀ port : String, buffer.gate.sinks[port]? = (ctx.bindings.output instanceId port).map fun b =>
      seedFor b (schedules.carry instanceId port) (newEnvelopes ports) := by
  unfold Schedules.seedBuffer at seeded
  obtain ⟨schedule, held, seeded⟩ := Option.bind_eq_some_iff.mp seeded
  obtain ⟨declared, -, seeded⟩ := Option.bind_eq_some_iff.mp seeded
  obtain rfl := Option.some.inj seeded
  refine ⟨rfl, PublishBuffer.balanced_new _ _ _ _ _, fun port => ?_⟩
  have carried : ((schedule.carryMt[port]?).getD 0) = schedules.carry instanceId port := by
    simp [Schedules.carry, Schedules.standing, held]
  have granted : grantInputMt (ports.map fun window => (millitokensPerPublish, window.newLen)) =
      saturatingU64 (millitokensPerPublish * newEnvelopes ports) := by
    rw [newEnvelopes, ← grantInputMt_uniform, List.map_map]
    rfl
  refine (lookup_foldl_insert _ (ctx.bindings.nodup_outputsOf instanceId) _ port).trans ?_
  rw [ctx.bindings.find_outputsOf, granted]
  cases found : ctx.bindings.output instanceId port with
  | none => simp
  | some b =>
    have named : b.port = port := by
      have chosen := List.find?_some found
      simp only [Bool.and_eq_true, decide_eq_true_eq] at chosen
      exact chosen.2
    simp only [Option.map_some, Option.some_or, seedFor, named, carried]

theorem Schedules.assembleWindows_spec {schedules next : Schedules} {instanceId : String} {generation : Nat}
    {sync : Option (String × MessageEnvelope)} {ctx : ActivationCtx} {stores after : SurfaceStores}
    {ready : ReadyActivation}
    (assembled : schedules.assembleWindows instanceId generation sync ctx stores = some (ready, next, after)) :
    Assembles schedules instanceId ctx ready next := by
  unfold Schedules.assembleWindows at assembled
  obtain ⟨schedule, held, assembled⟩ := Option.bind_eq_some_iff.mp assembled
  split at assembled
  · cases assembled
  next free =>
    obtain ⟨⟨windows, charges, served⟩, -, assembled⟩ := Option.bind_eq_some_iff.mp assembled
    obtain ⟨⟨deferred, deferredIds⟩, -, assembled⟩ := Option.bind_eq_some_iff.mp assembled
    obtain ⟨buffer, seeded, assembled⟩ := Option.bind_eq_some_iff.mp assembled
    obtain ⟨freshEntries, balanced, seeds⟩ := Schedules.seedBuffer_spec seeded
    have idle : schedule.inFlight = none := by simpa using free
    -- the assembly marks the instance in flight; the charges touch neither carry nor flight
    have marked : ∀ other : String, next.standing other = if instanceId = other
        then some (schedule.carryMt, some ⟨sync.map Prod.fst⟩) else schedules.standing other := by
      cases assembled
      intro other
      rw [Schedules.standing_enactCharges]
      unfold Schedules.standing
      dsimp only
      rw [lookup_insert]
      split <;> rfl
    have before : schedules.standing instanceId = some (schedule.carryMt, none) := by
      rw [Schedules.standing, held, Option.map_some, idle]
    have after : next.standing instanceId = some (schedule.carryMt, some ⟨sync.map Prod.fst⟩) := by
      rw [marked, if_pos rfl]
    have carries : ∀ port, next.carry instanceId port = schedules.carry instanceId port := by
      intro port
      simp only [Schedules.carry, before, after, Option.bind_some]
    cases assembled
    refine ⟨⟨_, before⟩, fun other apart => ?_, ⟨_, _, after⟩, carries, ⟨freshEntries, balanced⟩, fun port => ?_⟩
    · rw [marked, if_neg apart]
    · rw [seeds, carries]

/-! ### Runs of activations -/

def countOn (port : String) (entries : List BufferedPublish) : Nat := entries.countP fun entry => entry.port = port

/-- An activation in flight, with what it was assembled from. -/
structure Flight where
  buffer : PublishBuffer
  carry : String → Nat
  bindings : AppliedBindings
  granted : Nat

structure Till where
  flight : Option Flight
  /-- Set once an activation ended in a trap: nothing assembles the instance any more. -/
  failed : Bool
  /-- Publishes accepted on each port by activations that ended. -/
  closed : String → Nat
  allowance : String → Nat

def Till.opened : Till := ⟨none, false, fun _ => 0, fun _ => 0⟩

def Till.accepted (till : Till) (port : String) : Nat :=
  till.closed port + (till.flight.map fun flight => countOn port flight.buffer.entries).getD 0

def Till.close (till : Till) : Till := { till with flight := none, closed := till.accepted }

def grantOf (bindings : AppliedBindings) (instanceId : String) (granted : Nat) (port : String) : Nat :=
  match bindings.output instanceId port with
  | some b => b.fillMt + millitokensPerPublish * granted
  | none => 0

structure Tills where
  schedules : Schedules
  tills : String → Till

inductive TillEvent where
  | track (instanceId : String) (wired : Bool)
  | forget (instanceId : String)
  | wireMounts
  | chargeOverflow (bindings : AppliedBindings) (channel : String) (overflow : List (CursorOverflow BindingKey))
  | countDeferredDrop (instanceId : String)
  | countDeferredRace (instanceId : String)
  | assemble (instanceId : String) (generation : Nat) (sync : Option (String × MessageEnvelope)) (ctx : ActivationCtx)
    (stores : SurfaceStores)
  | call (instanceId : String) (call : PublishBuffer.Call)
  | finishOk (instanceId : String)
  | finishErr (instanceId : String)
  | finishTerminal (instanceId : String)

namespace Tills

def new : Tills := ⟨.new, fun _ => .opened⟩

def put (world : Tills) (schedules : Schedules) (instanceId : String) (till : Till) : Tills :=
  ⟨schedules, Function.update world.tills instanceId till⟩

/-- `none` where the source panics. The stores and the wiring of an assembly are whatever the page holds by then. A
    completion of an activation no longer in flight is absorbed. -/
def step (world : Tills) : TillEvent → Option Tills
  | .track instanceId wired =>
    (world.schedules.track instanceId wired).map fun schedules => world.put schedules instanceId .opened
  | .forget instanceId =>
    (world.schedules.forget instanceId).map fun schedules =>
      world.put schedules instanceId (world.tills instanceId).close
  | .wireMounts => some { world with schedules := world.schedules.wireMounts }
  | .chargeOverflow bindings channel overflow =>
    some { world with schedules := (world.schedules.chargeOverflow bindings channel overflow).2 }
  | .countDeferredDrop instanceId => some { world with schedules := world.schedules.countDeferredDrop instanceId }
  | .countDeferredRace instanceId => some { world with schedules := world.schedules.countDeferredRace instanceId }
  | .assemble instanceId generation sync ctx stores =>
    -- neither the pick nor a sync call reaches a failed instance
    if (world.tills instanceId).failed then some world
    else
      match world.schedules.assembleWindows instanceId generation sync ctx stores with
      | none => none
      | some (ready, schedules, _) =>
        let granted := newEnvelopes ready.activation.ports
        some (world.put schedules instanceId { world.tills instanceId with
          flight := some ⟨ready.buffer, world.schedules.carry instanceId, ctx.bindings, granted⟩
          allowance := fun port =>
            (world.tills instanceId).allowance port + grantOf ctx.bindings instanceId granted port })
  | .call instanceId call =>
    match (world.tills instanceId).flight with
    | none => some world
    | some flight =>
      (flight.buffer.after call).map fun buffer =>
        world.put world.schedules instanceId { world.tills instanceId with flight := some { flight with buffer } }
  | .finishOk instanceId =>
    match (world.tills instanceId).flight with
    | none => some world
    | some flight =>
      match flight.buffer.take with
      | none => none
      | some flush =>
        (world.schedules.finishOk instanceId flush.carry).map fun schedules =>
          world.put schedules instanceId (world.tills instanceId).close
  | .finishErr instanceId =>
    match (world.tills instanceId).flight with
    | none => some world
    | some flight =>
      (world.schedules.finishErr instanceId flight.buffer.intoCarry).map fun schedules =>
        world.put schedules instanceId (world.tills instanceId).close
  | .finishTerminal instanceId =>
    match (world.tills instanceId).flight with
    | none => some world
    | some _ =>
      (world.schedules.finishTerminal instanceId).map fun schedules =>
        world.put schedules instanceId { (world.tills instanceId).close with failed := true }

end Tills

/-! ### What every activation keeps -/

/-- A bucket and what was paid out of it add up to its seed. -/
structure Flight.Funds (instanceId : String) (flight : Flight) : Prop where
  balanced : ∃ cap, flight.buffer.Balanced cap
  bound : ∀ port b, flight.bindings.output instanceId port = some b →
    ∃ remaining, flight.buffer.gate.sinks[port]? = some remaining ∧
      remaining + millitokensPerPublish * countOn port flight.buffer.entries =
        seedFor b (flight.carry port) flight.granted
  unbound : ∀ port, flight.bindings.output instanceId port = none →
    flight.buffer.gate.sinks[port]? = none ∧ countOn port flight.buffer.entries = 0

theorem countOn_append (port : String) (entries : List BufferedPublish) (publish : BufferedPublish) :
    countOn port (entries ++ [publish]) = countOn port entries + if publish.port = port then 1 else 0 := by
  simp [countOn, List.countP_append, List.countP_cons]

namespace Flight.Funds

variable {instanceId : String} {flight : Flight}

theorem congr (funds : flight.Funds instanceId) {buffer : PublishBuffer} (balanced : ∃ cap, buffer.Balanced cap)
    (sinks : buffer.gate.sinks = flight.buffer.gate.sinks) (entries : buffer.entries = flight.buffer.entries) :
    ({ flight with buffer } : Flight).Funds instanceId := by
  refine ⟨balanced, ?_, ?_⟩
  · dsimp only
    rw [sinks, entries]
    exact funds.bound
  · dsimp only
    rw [sinks, entries]
    exact funds.unbound

theorem call (funds : flight.Funds instanceId) {call : PublishBuffer.Call} {buffer : PublishBuffer}
    (made : flight.buffer.after call = some buffer) : ({ flight with buffer } : Flight).Funds instanceId := by
  obtain ⟨cap, balanced⟩ := funds.balanced
  have still := balanced.after made
  obtain ⟨⟨accepted, answered⟩, answer, rfl⟩ := Option.map_eq_some_iff.mp made
  rcases flight.buffer.make_spec answer with ⟨-, rfl⟩ | ⟨-, admits⟩
  · refine funds.congr ⟨cap, still⟩ ?_ ?_
    · unfold PublishBuffer.refusing
      split <;> rfl
    · unfold PublishBuffer.refusing
      split <;> rfl
  · cases admits with
    | peer => exact funds.congr ⟨cap, still⟩ rfl rfl
    | unwired len room => exact funds.congr ⟨cap, still⟩ rfl rfl
    | scheduled op room budget => exact funds.congr ⟨cap, still⟩ rfl rfl
    | wired publish remaining room budget bucket paid =>
      refine ⟨⟨cap, still⟩, fun port b found => ?_, fun port absent => ?_⟩
      · obtain ⟨left, stored, sum⟩ := funds.bound port b found
        dsimp only [PublishBuffer.called]
        rw [lookup_insert, countOn_append]
        by_cases same : publish.port = port
        · subst same
          obtain rfl := Option.some.inj (bucket.symm.trans stored)
          refine ⟨_, if_pos rfl, ?_⟩
          rw [if_pos rfl]
          unfold millitokensPerPublish at sum paid ⊢
          omega
        · refine ⟨left, by rw [if_neg same, stored], ?_⟩
          rw [if_neg same, Nat.add_zero]
          exact sum
      · obtain ⟨missing, none⟩ := funds.unbound port absent
        have apart : publish.port ≠ port := by
          rintro rfl
          rw [missing] at bucket
          cases bucket
        dsimp only [PublishBuffer.called]
        rw [lookup_insert, if_neg apart, countOn_append, if_neg apart]
        exact ⟨missing, none⟩

theorem left (funds : flight.Funds instanceId) (port : String) :
    (flight.buffer.gate.sinks[port]?).getD 0 + millitokensPerPublish * countOn port flight.buffer.entries =
      ((flight.bindings.output instanceId port).map fun b => seedFor b (flight.carry port) flight.granted).getD 0 := by
  cases found : flight.bindings.output instanceId port with
  | none =>
    obtain ⟨missing, none⟩ := funds.unbound port found
    rw [missing, none]
    rfl
  | some b =>
    obtain ⟨remaining, bucket, sum⟩ := funds.bound port b found
    rw [bucket]
    exact sum

theorem left_lt (funds : flight.Funds instanceId) (port : String) :
    (flight.buffer.gate.sinks[port]?).getD 0 < 2 ^ 64 := by
  have left := funds.left port
  have small : ((flight.bindings.output instanceId port).map fun b =>
      seedFor b (flight.carry port) flight.granted).getD 0 < 2 ^ 64 := by
    cases flight.bindings.output instanceId port with
    | none => exact Nat.two_pow_pos 64
    | some b => exact seedSinkBudget_lt _ _ _
  omega

/-- An activation that accepted fewer publishes on a port than it was given new envelopes can pay
    for one more. -/
theorem solvent (funds : flight.Funds instanceId) {port : String} {b : OutputBinding}
    (found : flight.bindings.output instanceId port = some b)
    (few : countOn port flight.buffer.entries < flight.granted) :
    ∃ remaining, flight.buffer.gate.sinks[port]? = some remaining ∧ millitokensPerPublish ≤ remaining := by
  obtain ⟨remaining, bucket, sum⟩ := funds.bound port b found
  obtain ⟨cap, balanced⟩ := funds.balanced
  refine ⟨remaining, bucket, ?_⟩
  have granted : min (millitokensPerPublish * flight.granted) (2 ^ 64 - 1) ≤
    seedFor b (flight.carry port) flight.granted := le_seedSinkBudget _ _ _
  have counted : countOn port flight.buffer.entries ≤ flight.buffer.entries.length := List.countP_le_length
  have entries := balanced.entries
  have ceiling := balanced.fewEntries
  generalize seedFor b (flight.carry port) flight.granted = seed at sum granted
  unfold millitokensPerPublish maxPublishesPerActivation at *
  omega

end Flight.Funds

/-! ### What every run keeps -/

/-- An instance's account is covered by what it was granted, and its bucket by its seed. -/
structure Covered (schedules : Schedules) (instanceId : String) (till : Till) : Prop where
  carried : ∀ port, schedules.carry instanceId port < 2 ^ 64
  resting : till.flight = none → ∀ port, millitokensPerPublish * till.closed port +
    (if till.failed then 0 else schedules.carry instanceId port) ≤ till.allowance port
  flying : ∀ flight, till.flight = some flight →
    till.failed = false ∧ flight.Funds instanceId ∧
    (∃ carried inFlight, schedules.standing instanceId = some (carried, some inFlight)) ∧
    ∀ port, millitokensPerPublish * till.closed port +
      ((flight.bindings.output instanceId port).map fun b => seedFor b (flight.carry port) flight.granted).getD 0 ≤
        till.allowance port

namespace Covered

variable {schedules next : Schedules} {instanceId : String} {till : Till}

theorem congr (covered : Covered schedules instanceId till)
    (same : next.standing instanceId = schedules.standing instanceId) : Covered next instanceId till := by
  have carry := Schedules.carry_congr same
  refine ⟨fun port => ?_, fun rests port => ?_, fun flight flies => ?_⟩
  · rw [carry]
    exact covered.carried port
  · rw [carry]
    exact covered.resting rests port
  · obtain ⟨alive, funds, inFlight, paid⟩ := covered.flying flight flies
    rw [← same] at inFlight
    exact ⟨alive, funds, inFlight, paid⟩

/-- Everything accepted so far is covered by what was granted. -/
theorem accepted_le (covered : Covered schedules instanceId till) (port : String) :
    millitokensPerPublish * till.accepted port ≤ till.allowance port := by
  unfold Till.accepted
  cases flies : till.flight with
  | none =>
    have rest := covered.resting flies port
    simp only [Option.map_none, Option.getD_none, Nat.add_zero]
    omega
  | some flight =>
    obtain ⟨-, funds, -, paid⟩ := covered.flying flight flies
    have left := funds.left port
    have spent := paid port
    simp only [Option.map_some, Option.getD_some, Nat.mul_add]
    omega

/-- The account of an ended activation. Unless the instance failed, it carries on no more than
    its buckets were left with. -/
theorem close (covered : Covered schedules instanceId till) {failed : Bool} (still : till.failed = true → failed = true)
    (small : ∀ port, next.carry instanceId port < 2 ^ 64)
    (carried : failed = false → ∀ port, next.carry instanceId port ≤
      (till.flight.map fun flight => (flight.buffer.gate.sinks[port]?).getD 0).getD (schedules.carry instanceId port)) :
    Covered next instanceId { till.close with failed } := by
  refine ⟨small, fun _ port => ?_, fun flight flies => ?_⟩
  · show millitokensPerPublish * till.accepted port + (if failed then 0 else next.carry instanceId port) ≤
      till.allowance port
    cases failed with
    | true => exact covered.accepted_le port
    | false =>
      have bound := carried rfl port
      have alive : till.failed = false := by
        cases dead : till.failed with
        | false => rfl
        | true => exact absurd (still dead) Bool.noConfusion
      cases flies : till.flight with
      | none =>
        have rest := covered.resting flies port
        simp only [Till.accepted, flies, alive, Option.map_none, Option.getD_none, Bool.false_eq_true, if_false,
          Nat.add_zero] at rest bound ⊢
        omega
      | some flight =>
        obtain ⟨-, funds, -, paid⟩ := covered.flying flight flies
        have left := funds.left port
        have spent := paid port
        simp only [Till.accepted, flies, Option.map_some, Option.getD_some, Bool.false_eq_true, if_false,
          Nat.mul_add] at bound ⊢
        omega
  · cases flies

theorem fresh (nothing : ∀ port, schedules.carry instanceId port = 0) : Covered schedules instanceId .opened := by
  refine ⟨fun port => ?_, fun _ port => ?_, fun flight flies => ?_⟩
  · rw [nothing]
    exact Nat.two_pow_pos 64
  · show millitokensPerPublish * 0 + (if false = true then 0 else schedules.carry instanceId port) ≤ 0
    rw [nothing]
    exact Nat.le_refl 0
  · cases flies

theorem assembles (covered : Covered schedules instanceId till) {ctx : ActivationCtx} {ready : ReadyActivation}
    (alive : till.failed = false) (assembled : Assembles schedules instanceId ctx ready next) :
    Covered next instanceId { till with
      flight := some ⟨ready.buffer, schedules.carry instanceId, ctx.bindings, newEnvelopes ready.activation.ports⟩
      allowance := fun port => till.allowance port +
        grantOf ctx.bindings instanceId (newEnvelopes ready.activation.ports) port } := by
  obtain ⟨carriedBefore, idle⟩ := assembled.idle
  obtain ⟨carried, inFlight, flying⟩ := assembled.flies
  have resting : till.flight = none := by
    by_contra flies
    obtain ⟨flight, flies⟩ := Option.ne_none_iff_exists'.mp flies
    obtain ⟨-, -, ⟨_, _, busy⟩, -⟩ := covered.flying flight flies
    cases busy.symm.trans idle
  obtain ⟨freshEntries, balanced⟩ := assembled.fresh
  have empty : ∀ port, countOn port ready.buffer.entries = 0 := by
    intro port
    rw [freshEntries]
    rfl
  refine ⟨fun port => ?_, ?_, ?_⟩
  · rw [assembled.carries]
    exact covered.carried port
  · rintro ⟨⟩
  · rintro flight ⟨⟩
    refine ⟨alive, ⟨⟨_, balanced⟩, fun port b found => ?_, fun port absent => ?_⟩, ⟨_, _, flying⟩, fun port => ?_⟩
    · refine ⟨_, (assembled.seeds port).trans (by rw [found, Option.map_some]), ?_⟩
      dsimp only
      rw [empty]
      rfl
    · refine ⟨(assembled.seeds port).trans (by rw [absent, Option.map_none]), empty port⟩
    · -- the seed is at most the carry, which was covered, and what is granted now
      have rest := covered.resting resting port
      rw [alive] at rest
      dsimp only [grantOf]
      simp only [Bool.false_eq_true, if_false] at rest
      cases ctx.bindings.output instanceId port with
      | none =>
        simp only [Option.map_none, Option.getD_none]
        omega
      | some b =>
        have seed := seedFor_le b (schedules.carry instanceId port) (newEnvelopes ready.activation.ports)
        simp only [Option.map_some, Option.getD_some]
        omega

theorem call (covered : Covered schedules instanceId till) {flight : Flight} (flies : till.flight = some flight)
    {call : PublishBuffer.Call} {buffer : PublishBuffer} (made : flight.buffer.after call = some buffer) :
    Covered schedules instanceId { till with flight := some { flight with buffer } } := by
  obtain ⟨alive, funds, inFlight, paid⟩ := covered.flying flight flies
  refine ⟨covered.carried, ?_, ?_⟩
  · rintro ⟨⟩
  · rintro flying ⟨⟩
    exact ⟨alive, funds.call made, inFlight, paid⟩

end Covered

namespace Tills

variable {world next : Tills}

def Sound (world : Tills) : Prop := ∀ instanceId, Covered world.schedules instanceId (world.tills instanceId)

theorem sound_new : new.Sound := by
  intro instanceId
  refine .fresh fun port => ?_
  simp [new, Schedules.new, Schedules.carry, Schedules.standing]

theorem Sound.schedules (sound : world.Sound) {schedules : Schedules}
    (same : ∀ other, schedules.standing other = world.schedules.standing other) :
    ({ world with schedules } : Tills).Sound := fun instanceId => (sound instanceId).congr (same instanceId)

theorem Sound.put (sound : world.Sound) {schedules : Schedules} {instanceId : String} {till : Till}
    (others : ∀ other, instanceId ≠ other → schedules.standing other = world.schedules.standing other)
    (own : Covered schedules instanceId till) : (world.put schedules instanceId till).Sound := by
  intro other
  by_cases same : instanceId = other
  · subst same
    show Covered schedules instanceId (Function.update world.tills instanceId till instanceId)
    rw [Function.update_self]
    exact own
  · show Covered schedules other (Function.update world.tills instanceId till other)
    rw [Function.update_of_ne (Ne.symm same)]
    exact (sound other).congr (others other same)

/-- A completed activation whose unspent millitokens carry. -/
theorem Sound.finish (sound : world.Sound) {instanceId : String} {flight : Flight}
    (flies : (world.tills instanceId).flight = some flight) {f : InstanceSchedule → InstanceSchedule}
    {schedules : Schedules} (finished : world.schedules.finish instanceId f = some schedules)
    (carries : ∀ schedule, (f schedule).carryMt = flight.buffer.gate.sinks) :
    (world.put schedules instanceId (world.tills instanceId).close).Sound := by
  obtain ⟨schedule, -, standing⟩ := Schedules.standing_finish finished
  obtain ⟨-, funds, -, -⟩ := (sound instanceId).flying flight flies
  have carry : ∀ port, schedules.carry instanceId port = (flight.buffer.gate.sinks[port]?).getD 0 := by
    intro port
    rw [Schedules.carry, standing, if_pos rfl, carries]
    rfl
  refine sound.put (fun other apart => by rw [standing, if_neg apart]) ?_
  refine (sound instanceId).close id (fun port => ?_) fun _ port => ?_
  · rw [carry]
    exact funds.left_lt port
  · rw [carry, flies]
    exact Nat.le_refl _

theorem Sound.step (sound : world.Sound) {event : TillEvent} (stepped : world.step event = some next) : next.Sound := by
  cases event with
  | track instanceId wired =>
    obtain ⟨schedules, tracked, rfl⟩ := Option.map_eq_some_iff.mp stepped
    unfold Schedules.track at tracked
    split at tracked
    · cases tracked
    · cases tracked
      refine sound.put (fun other apart => ?_) (.fresh fun port => ?_)
      · unfold Schedules.standing
        dsimp only
        rw [lookup_insert, if_neg apart]
      · unfold Schedules.carry Schedules.standing
        dsimp only
        rw [lookup_insert, if_pos rfl]
        simp
  | forget instanceId =>
    obtain ⟨schedules, forgotten, rfl⟩ := Option.map_eq_some_iff.mp stepped
    obtain ⟨schedule, held, rfl⟩ := Option.map_eq_some_iff.mp forgotten
    have gone : ∀ port, ({ world.schedules with instances := world.schedules.instances.erase instanceId } :
        Schedules).carry instanceId port = 0 := by
      intro port
      unfold Schedules.carry Schedules.standing
      dsimp only
      rw [lookup_erase, if_pos rfl]
      rfl
    refine sound.put (fun other apart => ?_) ((sound instanceId).close id (fun port => ?_) fun _ port => ?_)
    · unfold Schedules.standing
      dsimp only
      rw [lookup_erase, if_neg apart]
    · rw [gone]
      exact Nat.two_pow_pos 64
    · rw [gone]
      exact Nat.zero_le _
  | wireMounts =>
    cases stepped
    exact sound.schedules Schedules.standing_wireMounts
  | chargeOverflow bindings channel overflow =>
    cases stepped
    exact sound.schedules (Schedules.standing_chargeOverflow bindings channel overflow)
  | countDeferredDrop instanceId =>
    cases stepped
    refine sound.schedules (Schedules.standing_update instanceId ?_)
    exact fun schedule => ⟨rfl, rfl⟩
  | countDeferredRace instanceId =>
    cases stepped
    refine sound.schedules (Schedules.standing_update instanceId ?_)
    exact fun schedule => ⟨rfl, rfl⟩
  | assemble instanceId generation sync ctx stores =>
    unfold Tills.step at stepped
    dsimp only at stepped
    split at stepped
    · cases stepped
      exact sound
    next alive =>
      split at stepped
      · cases stepped
      next ready schedules served assembled =>
        cases stepped
        have spec := Schedules.assembleWindows_spec assembled
        exact sound.put spec.others ((sound instanceId).assembles (Bool.not_eq_true _ ▸ alive) spec)
  | call instanceId call =>
    unfold Tills.step at stepped
    dsimp only at stepped
    split at stepped
    · cases stepped
      exact sound
    next flight flies =>
      obtain ⟨buffer, made, rfl⟩ := Option.map_eq_some_iff.mp stepped
      exact sound.put (fun _ _ => rfl) ((sound instanceId).call flies made)
  | finishOk instanceId =>
    unfold Tills.step at stepped
    dsimp only at stepped
    split at stepped
    · cases stepped
      exact sound
    next flight flies =>
      split at stepped
      · cases stepped
      next flush taken =>
        obtain ⟨schedules, finished, rfl⟩ := Option.map_eq_some_iff.mp stepped
        have carry : flush.carry = flight.buffer.gate.sinks := by
          unfold PublishBuffer.take at taken
          split at taken
          · cases taken
            rfl
          · cases taken
        exact sound.finish flies finished fun _ => carry
  | finishErr instanceId =>
    unfold Tills.step at stepped
    dsimp only at stepped
    split at stepped
    · cases stepped
      exact sound
    next flight flies =>
      obtain ⟨schedules, finished, rfl⟩ := Option.map_eq_some_iff.mp stepped
      exact sound.finish flies finished fun _ => rfl
  | finishTerminal instanceId =>
    unfold Tills.step at stepped
    dsimp only at stepped
    split at stepped
    · cases stepped
      exact sound
    next flight flies =>
      obtain ⟨schedules, finished, rfl⟩ := Option.map_eq_some_iff.mp stepped
      obtain ⟨schedule, held, standing⟩ := Schedules.standing_finish finished
      refine sound.put (fun other apart => by rw [standing, if_neg apart]) ?_
      refine (sound instanceId).close (fun _ => rfl) (fun port => ?_) ?_
      · have old := (sound instanceId).carried port
        unfold Schedules.carry at old ⊢
        rw [standing, if_pos rfl]
        simpa [Schedules.standing, held] using old
      · rintro ⟨⟩

end Tills

/-- What a sink's budget bounds and what it never refuses. -/
structure WithinBudget (instanceId port : String) (till : Till) (schedules : Schedules) : Prop where
  /-- Everything accepted since tracking is within what the assemblies granted. -/
  amortised : millitokensPerPublish * till.accepted port ≤ till.allowance port
  /-- One activation's publishes are within its clamped carry and its own grant. -/
  within : ∀ flight b, till.flight = some flight → flight.bindings.output instanceId port = some b →
    millitokensPerPublish * countOn port flight.buffer.entries ≤
      min (flight.carry port) b.capacityMt + b.fillMt + millitokensPerPublish * flight.granted
  /-- Every balance is a `u64`, and the bucket is its seed less what was paid out of it. -/
  exact : schedules.carry instanceId port < 2 ^ 64 ∧
    ∀ flight b, till.flight = some flight → flight.bindings.output instanceId port = some b →
      seedFor b (flight.carry port) flight.granted < 2 ^ 64 ∧
      ∃ remaining, flight.buffer.gate.sinks[port]? = some remaining ∧
        remaining + millitokensPerPublish * countOn port flight.buffer.entries =
          seedFor b (flight.carry port) flight.granted
  /-- While fewer publishes were accepted on the port than envelopes were new, the budget does not
      refuse one. -/
  solvent : ∀ flight b, till.flight = some flight → flight.bindings.output instanceId port = some b →
    countOn port flight.buffer.entries < flight.granted →
    ∀ check next, check.sink = port → flight.buffer.gate.admitPublish check ≠ some (.error .sinkExhausted, next)

theorem Covered.withinBudget {schedules : Schedules} {instanceId : String} {till : Till}
    (covered : Covered schedules instanceId till) (port : String) : WithinBudget instanceId port till schedules := by
  refine ⟨covered.accepted_le port, ?_, ⟨covered.carried port, ?_⟩, ?_⟩
  · intro flight b flies found
    obtain ⟨-, funds, -, -⟩ := covered.flying flight flies
    obtain ⟨remaining, -, sum⟩ := funds.bound port b found
    have seed := seedFor_le b (flight.carry port) flight.granted
    omega
  · intro flight b flies found
    obtain ⟨-, funds, -, -⟩ := covered.flying flight flies
    exact ⟨seedSinkBudget_lt _ _ _, funds.bound port b found⟩
  · rintro flight b flies found few check next rfl refused
    obtain ⟨-, funds, -, -⟩ := covered.flying flight flies
    obtain ⟨remaining, bucket, rich⟩ := funds.solvent found few
    unfold ActivationGate.admitPublish ActivationGate.ceilings at refused
    simp only [bucket, if_neg (Nat.not_lt.mpr rich)] at refused
    cases late : checkDeliverAfter check.deliverAfter with
    | error refusal =>
      have reason : refusal ≠ .sinkExhausted := by
        unfold checkDeliverAfter at late
        split at late
        · split at late
          · cases late
            exact GateRefusal.noConfusion
          · cases late
        · cases late
      simp only [late] at refused
      split_ifs at refused
      · cases refused
      · cases refused
        exact reason rfl
    | ok _ =>
      simp only [late] at refused
      split_ifs at refused <;> cases refused

/-- Sink budgets bound publishing over every run of activations, and republishing one for one is
    always solvent: for every instance and port, after any calls of the scheduler and of the
    buffers it seeds, whatever the bindings, the windows and the outcomes. -/
theorem publishing_within_budget (events : List TillEvent) (world : Tills)
    (ran : run Tills.step .new events = some world) (instanceId port : String) :
    WithinBudget instanceId port (world.tills instanceId) world.schedules := by
  have kept : ∀ (world : Tills) event next, world.Sound → True → world.step event = some next → next.Sound :=
    fun _ _ _ sound _ stepped => sound.step stepped
  have sound := run_preserves kept Tills.sound_new (along_of_forall (fun _ _ => trivial) _ _) ran
  exact (sound instanceId).withinBudget port

/-! An instance that echoes what it is asked, on a port with no fill and no capacity. -/

def echoDoc : BindingsDocument :=
  { v := 5
    components := [⟨"chrome", 4, [], [], [], []⟩, ⟨"echo", 4, [], ["out"], ["ask"], []⟩]
    subscriptions := []
    outputs := [⟨"brenn:hall.echo", "echo", "out", .normal, 0, 0⟩]
    localChannels := []
    chromeInstance := "chrome"
    platform := ⟨"brenn:hall.geometry", "brenn:hall.status", 60, none, none⟩ }

def echoBindings : AppliedBindings := { body := "echo", doc := echoDoc, valid := by decide +kernel }

def echoCtx : ActivationCtx := { bindings := echoBindings, router := .new .new, views := .new, maxBodyBytes := 64, nowMs := 0 }

def echoRequest : MessageEnvelope := ⟨1, "echo", "local:brenn/sync/ask", "echo", 0, "hello", .normal⟩

/-- Two activations on one request each; in the first a second publish is refused, the second is
    still in flight. -/
def echoEvents : List TillEvent :=
  [.track "echo" true, .assemble "echo" 1 (some ("ask", echoRequest)) echoCtx (.new 0), .call "echo" (.publish "out" "one"),
    .call "echo" (.publish "out" "two"), .finishErr "echo", .wireMounts,
    .assemble "echo" 1 (some ("ask", echoRequest)) echoCtx (.new 0), .call "echo" (.publish "out" "three")]

theorem echo_within_budget : ∃ world, run Tills.step .new echoEvents = some world ∧
    (world.tills "echo").accepted "out" = 2 ∧ (world.tills "echo").allowance "out" = 2000 ∧
    WithinBudget "echo" "out" (world.tills "echo") world.schedules := by
  obtain ⟨world, ran, facts⟩ : ∃ world, run Tills.step .new echoEvents = some world ∧
      decide ((world.tills "echo").accepted "out" = 2 ∧ (world.tills "echo").allowance "out" = 2000) = true :=
    Option.map_eq_some_iff.mp (by decide +kernel)
  obtain ⟨accepted, allowance⟩ := of_decide_eq_true facts
  exact ⟨world, ran, accepted, allowance, publishing_within_budget echoEvents world ran "echo" "out"⟩

end Brenn.Surface
