import Brenn.Lib.Run
import Brenn.Queue.Contents
import Brenn.Surface.Router

/-!
Who speaks on the takeover and overlay-state planes.

Beside the router and the stores a run keeps two records the program does not have: every body a
component got accepted, with the identity it wrote under, and the overlay report the policy last
took in. What the planes hold is measured against those records.
-/

namespace Brenn.Surface
open Brenn.Lib Brenn.Attach Brenn.Queue Std

/-! ### One routed publish, one schedule operation -/

namespace LocalRouter

variable {P K : Type} [LinearOrder K] {rules : PlanePolicy P} {router next : LocalRouter P}
  {stores after : ChannelStores K}

/-- What a route does: nothing, a park, or a retained message. -/
theorem route_spec {req : RouteRequest} {outcome : RouteOutcome K}
    (routed : router.route rules stores req = some (outcome, next, after)) :
    (next = router ∧ after = stores ∧ (∀ releaseAt, outcome ≠ .parked releaseAt) ∧ ∀ overflow, outcome ≠ .routed overflow) ∨
    ∃ principal body store, router.principal = some principal ∧
      rules.guard router.policy req.channel req.origin req.body = some (.carry body) ∧
      stores.get req.channel = some store ∧
      ((∃ releaseAt id kept, store.park (senderOf principal req.origin) (mint principal req body) releaseAt = .ok (id, kept) ∧
          outcome = .parked releaseAt ∧ next = router ∧ after = stores.put req.channel kept) ∨
        ∃ policy overflow kept, rules.observe router.policy (mint principal req body) = some policy ∧
          store.appendMinted (mint principal req body) = some (overflow, kept) ∧
          outcome = .routed overflow ∧ next = { router with policy } ∧ after = stores.put req.channel kept) := by
  unfold route at routed
  split at routed
  · cases routed
  · split at routed
    · cases routed
    · cases identity : router.principal with
      | none =>
        rw [identity] at routed
        cases routed
        exact .inl ⟨rfl, rfl, by simp, by simp⟩
      | some principal =>
        rw [identity] at routed
        dsimp only at routed
        cases judged : rules.guard router.policy req.channel req.origin req.body with
        | none => simp [judged] at routed
        | some guarded =>
          rw [judged] at routed
          cases guarded with
          | refused reason =>
            cases routed
            exact .inl ⟨rfl, rfl, by simp, by simp⟩
          | carry body =>
            dsimp only [place] at routed
            cases later : req.deliverAfter.filter fun release => decide (release > req.stamp.publishTs) with
            | some releaseAt =>
              rw [later] at routed
              obtain ⟨store, held, rest⟩ := Option.bind_eq_some_iff.mp routed
              cases parked : store.park (mint principal req body).sender (mint principal req body) releaseAt with
              | error refused =>
                rw [parked] at rest
                cases rest
                exact .inl ⟨rfl, rfl, by simp, by simp⟩
              | ok kept =>
                rw [parked] at rest
                cases rest
                exact .inr ⟨principal, body, store, rfl, rfl, held, .inl ⟨releaseAt, _, _, parked, rfl, rfl, rfl⟩⟩
            | none =>
              rw [later] at routed
              obtain ⟨policy, observed, rest⟩ := Option.bind_eq_some_iff.mp routed
              obtain ⟨store, held, rest⟩ := Option.bind_eq_some_iff.mp rest
              obtain ⟨⟨overflow, kept⟩, appended, rest⟩ := Option.bind_eq_some_iff.mp rest
              cases rest
              exact .inr ⟨principal, body, store, rfl, rfl, held, .inr ⟨policy, overflow, kept, observed, appended, rfl, by rw [identity], rfl⟩⟩

/-- What an op does: nothing, or a cancel or an edit of an entry its author owns. -/
theorem applyOp_spec {req : DeferOpRequest} {answer : DeferOpAnswer}
    (applied : router.applyOp rules stores req = some (answer, after)) :
    (after = stores ∧ answer ≠ .applied) ∨
    ∃ principal op store entry, router.principal = some principal ∧
      router.guardOp rules req.channel req.origin req.op = some (.ok op) ∧ stores.get req.channel = some store ∧
      entry ∈ store.core.deferred.entries ∧ entry.sender = senderOf principal req.origin ∧
      entry.message.messageId = req.messageId ∧ answer = .applied ∧
      after = stores.put req.channel { store with core :=
        match op with
        | .cancel => (store.core.cancelDeferred entry.id).2
        | .edit body deliverAfter =>
          (store.core.editDeferred entry.id (body.map fun body => { entry.message with body }) deliverAfter).2 } := by
  unfold applyOp at applied
  split at applied
  · cases applied
  · split at applied
    · cases applied
    · cases identity : router.principal with
      | none =>
        rw [identity] at applied
        cases applied
        exact .inl ⟨rfl, by simp⟩
      | some principal =>
        rw [identity] at applied
        dsimp only at applied
        cases judged : router.guardOp rules req.channel req.origin req.op with
        | none => simp [judged] at applied
        | some guarded =>
          rw [judged] at applied
          cases guarded with
          | error reason =>
            cases applied
            exact .inl ⟨rfl, by simp⟩
          | ok op =>
            obtain ⟨store, held, rest⟩ := Option.bind_eq_some_iff.mp applied
            obtain ⟨⟨outcome, kept⟩, done, rest⟩ := Option.bind_eq_some_iff.mp rest
            cases owned : store.core.ownedDeferred (senderOf principal req.origin)
                (fun message => decide (message.messageId = req.messageId)) req.now with
            | pastCutoff releaseAt =>
              simp only [ChannelStore.applyDeferOp, owned] at done
              cases done
              cases rest
              exact .inl ⟨rfl, by simp⟩
            | notFound =>
              simp only [ChannelStore.applyDeferOp, owned] at done
              cases done
              cases rest
              exact .inl ⟨rfl, by simp⟩
            | wrongSender owner =>
              simp only [ChannelStore.applyDeferOp, owned] at done
              cases done
              cases rest
            | owned id entry =>
              obtain ⟨member, rfl, sender, named⟩ := RingCore.ownedDeferred_owned owned
              simp only [ChannelStore.applyDeferOp, owned] at done
              refine .inr ⟨principal, op, store, entry, rfl, rfl, held, member, sender, of_decide_eq_true named, ?_⟩
              cases op with
              | cancel =>
                cases cancelled : store.core.cancelDeferred entry.id with
                | mk gone core =>
                  cases gone with
                  | none => simp [cancelled] at done
                  | some taken =>
                    simp only [cancelled] at done
                    cases done
                    cases rest
                    exact ⟨rfl, rfl⟩
              | edit body deliverAfter =>
                dsimp only at done ⊢
                cases edited : store.core.editDeferred entry.id (body.map fun body => { entry.message with body })
                    deliverAfter with
                | mk done' core =>
                  cases done' with
                  | error missing => simp [edited] at done
                  | ok _ =>
                    simp only [edited] at done
                    cases done
                    cases rest
                    exact ⟨rfl, rfl⟩

end LocalRouter

/-! ### The run -/

/-- One body a component got accepted onto a plane, by publishing it or by editing it in. -/
structure Write where
  channel : String
  messageId : Nat
  principal : String
  instanceId : String
  body : String
  /-- Whether the wiring in force named the writer as chrome. -/
  byChrome : Bool
  deriving Repr, DecidableEq

structure PlaneWorld where
  router : SurfaceRouter
  stores : SurfaceStores
  writes : List Write
  /-- The overlay report the policy last took in. -/
  report : Option MessageEnvelope

inductive PlaneEvent where
  | attach (principal : String)
  | publish (req : RouteRequest)
  | schedule (req : DeferOpRequest)
  | release (now : Nat)
  | document (bindings : AppliedBindings)

namespace PlaneWorld

variable (json : PlaneJson)

def start (epoch : Nat) : PlaneWorld :=
  { router := .new .new, stores := newStores epoch, writes := [], report := none }

variable (world : PlaneWorld)

/-- The write an accepted body is: the component's own, under the router's identity. -/
def writeOf (channel : String) (origin : Origin) (messageId : Nat) (body : String) : List Write :=
  match origin, world.router.principal, world.router.policy.guard json channel origin body with
  | .sub instanceId, some principal, some (.carry body) =>
    [{ channel, messageId, principal, instanceId, body
       byChrome := world.router.policy.wiring.any fun wiring => wiring.chromeInstance = instanceId }]
  | _, _, _ => []

/-- Whether the policy takes an observed message in: an overlay report that names nobody, or
    somebody the wiring declares. -/
def takesIn (planes : SurfacePlanes) (envelope : MessageEnvelope) : Bool :=
  envelope.channel = localOverlayStateChannel &&
    match json.parseOverlayState envelope.body with
    | .error _ => false
    | .ok parsed =>
      match parsed.holder with
      | none => true
      | some holder => planes.wiring.any fun wiring => wiring.instances.contains holder

def reported (planes : SurfacePlanes) (report : Option MessageEnvelope) (envelope : MessageEnvelope) :
    Option MessageEnvelope :=
  if takesIn json planes envelope then some envelope else report

def step : PlaneEvent → Option PlaneWorld
  | .attach principal => (world.router.setPrincipal principal).map fun router => { world with router }
  | .publish req =>
    (world.router.route (SurfacePlanes.policy json) world.stores req).map fun (outcome, router, stores) =>
      let write := world.writeOf json req.channel req.origin req.stamp.messageId req.body
      match outcome with
      | .parked _ => { world with router, stores, writes := write ++ world.writes }
      | .routed _ =>
        let minted := write.map fun write =>
          LocalRouter.mint write.principal req write.body
        { router, stores, writes := write ++ world.writes
          report := minted.foldl (reported json world.router.policy) world.report }
      | _ => { world with router, stores }
  | .schedule req =>
    (world.router.applyOp (SurfacePlanes.policy json) world.stores req).map fun (answer, stores) =>
      match answer, req.op with
      | .applied, .edit (some body) _ =>
        { world with stores, writes := world.writeOf json req.channel req.origin req.messageId body ++ world.writes }
      | _, _ => { world with stores }
  | .release now =>
    (world.router.releaseDue (SurfacePlanes.policy json) world.stores now).map fun (released, router, stores) =>
      { world with
        router, stores
        report := (released.flatMap ReleasedChannel.released).foldl (reported json world.router.policy) world.report }
  | .document bindings =>
    some { world with
      router := { world.router with policy := world.router.policy.apply bindings }
      stores := (reconcileStores bindings world.stores).2 }

end PlaneWorld

/-! ### What the planes hold -/

/-- The write behind a message: same id and body, and the message's sender is the writer. -/
structure Write.Behind (write : Write) (channel : String) (message : MessageEnvelope) : Prop where
  channel : write.channel = channel
  messageId : write.messageId = message.messageId
  body : write.body = message.body
  sender : message.sender = surfaceSubIdentity write.principal write.instanceId

/-- A message of a plane is lawful: somebody wrote it, and it says of its writer what the plane
    requires. -/
structure Lawful (json : PlaneJson) (writes : List Write) (channel : String) (message : MessageEnvelope) : Prop where
  addressed : message.channel = channel
  takeover : channel = localTakeoverChannel → ∃ write ∈ writes, write.Behind channel message ∧
    ∃ parsed, json.parseTakeover message.body = .ok parsed ∧ parsed.instanceId = write.instanceId
  overlay : channel = localOverlayStateChannel → ∃ write ∈ writes, write.Behind channel message ∧
    write.byChrome = true ∧ ∃ parsed, json.parseOverlayState message.body = .ok parsed

variable {json : PlaneJson}

theorem Lawful.more {writes : List Write} {channel : String} {message : MessageEnvelope}
    (lawful : Lawful json writes channel message) (newer : List Write) :
    Lawful json (newer ++ writes) channel message := by
  refine ⟨lawful.addressed, fun plane => ?_, fun plane => ?_⟩
  · obtain ⟨write, listed, rest⟩ := lawful.takeover plane
    exact ⟨write, List.mem_append_right _ listed, rest⟩
  · obtain ⟨write, listed, rest⟩ := lawful.overlay plane
    exact ⟨write, List.mem_append_right _ listed, rest⟩

/-- A body the guard carried makes a lawful message of its writer's, and the write is on record. -/
theorem lawful_of_guard {planes : SurfacePlanes} {channel instanceId principal body carried : String}
    {message : MessageEnvelope} {write : Write}
    (guarded : planes.guard json channel (.sub instanceId) body = some (.carry carried))
    (addressed : message.channel = channel) (worded : message.body = carried)
    (sender : message.sender = surfaceSubIdentity principal instanceId)
    (recorded : write = ⟨channel, message.messageId, principal, instanceId, carried,
      planes.wiring.any fun wiring => wiring.chromeInstance = instanceId⟩) (writes : List Write) :
    Lawful json ([write] ++ writes) channel message := by
  have behind : write.Behind channel message := by
    subst recorded
    exact ⟨rfl, rfl, worded.symm, sender⟩
  refine ⟨addressed, fun plane => ⟨write, by simp, behind, ?_⟩, fun plane => ⟨write, by simp, behind, ?_⟩⟩
  · subst plane
    simp only [SurfacePlanes.guard, or_true, if_true, SurfacePlanes.injectTakeoverInstance] at guarded
    rw [if_neg (by decide)] at guarded
    cases parsed : json.parseTakeover body with
    | error e => simp [parsed] at guarded
    | ok asked =>
      simp only [parsed, Option.some.injEq, GuardedBody.carry.injEq] at guarded
      rw [worded, ← guarded]
      exact ⟨_, json.faithful _, by rw [recorded]⟩
  · subst plane
    simp only [SurfacePlanes.guard, true_or, if_true] at guarded
    obtain ⟨wiring, wired, judged⟩ := Option.map_eq_some_iff.mp guarded
    cases refused : SurfacePlanes.refuseOverlayState json wiring instanceId body with
    | some reason => simp [refused] at judged
    | none =>
      simp only [refused, GuardedBody.carry.injEq] at judged
      unfold SurfacePlanes.refuseOverlayState at refused
      by_cases chrome : wiring.chromeInstance = instanceId
      · refine ⟨by simp [recorded, wired, chrome], ?_⟩
        rw [worded, ← judged]
        cases parsed : json.parseOverlayState body with
        | error e => simp [chrome, parsed] at refused
        | ok report => exact ⟨report, rfl⟩
      · simp [chrome] at refused

/-! ### What the policy records -/

/-- The recorded holder is declared and named by the report taken in last, which chrome wrote. -/
def Stands (json : PlaneJson) (writes : List Write) (planes : SurfacePlanes) (report : Option MessageEnvelope) : Prop :=
  ∀ overlay, planes.overlay = some overlay → ∃ wiring envelope parsed,
    planes.wiring = some wiring ∧ overlay.holder ∈ wiring.instances ∧ report = some envelope ∧
    Lawful json writes localOverlayStateChannel envelope ∧ json.parseOverlayState envelope.body = .ok parsed ∧
    parsed.holder = some overlay.holder ∧ overlay.since = envelope.publishTs

theorem Stands.more {writes : List Write} {planes : SurfacePlanes} {report : Option MessageEnvelope}
    (stands : Stands json writes planes report) (newer : List Write) : Stands json (newer ++ writes) planes report := by
  intro overlay held
  obtain ⟨wiring, envelope, parsed, wired, declared, last, lawful, rest⟩ := stands overlay held
  exact ⟨wiring, envelope, parsed, wired, declared, last, lawful.more newer, rest⟩

theorem takesIn_congr {planes others : SurfacePlanes} (same : others.wiring = planes.wiring) (envelope : MessageEnvelope) :
    PlaneWorld.takesIn json others envelope = PlaneWorld.takesIn json planes envelope := by
  unfold PlaneWorld.takesIn
  rw [same]

/-- Observing a lawful message never panics, and keeps the record true. -/
theorem Stands.observe {writes : List Write} {planes : SurfacePlanes} {report : Option MessageEnvelope}
    {envelope : MessageEnvelope} (stands : Stands json writes planes report)
    (lawful : Lawful json writes envelope.channel envelope)
    (wired : envelope.channel = localOverlayStateChannel → planes.wiring.isSome) :
    ∃ next, planes.observe json envelope = some next ∧ next.wiring = planes.wiring ∧
      Stands json writes next (PlaneWorld.reported json planes report envelope) := by
  unfold SurfacePlanes.observe PlaneWorld.reported
  by_cases plane : envelope.channel = localOverlayStateChannel
  · obtain ⟨wiring, inForce⟩ := Option.isSome_iff_exists.mp (wired plane)
    obtain ⟨write, listed, behind, chrome, parsed, parses⟩ := lawful.overlay plane
    cases holder : parsed.holder with
    | none => exact ⟨{ planes with overlay := none }, by simp [plane, parses, holder], rfl, fun overlay held => by cases held⟩
    | some name =>
      by_cases declared : wiring.instances.contains name = true
      · have taken : PlaneWorld.takesIn json planes envelope = true := by
          unfold PlaneWorld.takesIn
          simpa [plane, parses, holder, inForce] using declared
        have recorded : (if envelope.channel ≠ localOverlayStateChannel then some planes else
            match json.parseOverlayState envelope.body with
            | .error _ => none
            | .ok parsed =>
              match parsed.holder with
              | none => some { planes with overlay := none }
              | some holder => planes.wiring.map fun wiring =>
                if wiring.instances.contains holder then { planes with overlay := some ⟨holder, envelope.publishTs⟩ }
                else planes) = some { planes with overlay := some ⟨name, envelope.publishTs⟩ } := by
          simp only [plane, parses, holder, inForce, Option.map_some, if_pos declared, ne_eq, not_true_eq_false, if_false]
        rw [if_pos taken]
        refine ⟨_, recorded, rfl, ?_⟩
        rintro overlay ⟨⟩
        exact ⟨wiring, envelope, parsed, inForce, by simpa using declared, rfl, plane ▸ lawful, parses, holder, rfl⟩
      · have skipped : ¬ PlaneWorld.takesIn json planes envelope = true := by
          unfold PlaneWorld.takesIn
          simpa [plane, parses, holder, inForce] using declared
        rw [if_neg skipped]
        refine ⟨planes, ?_, rfl, stands⟩
        simp only [plane, parses, holder, inForce, Option.map_some, if_neg declared, ne_eq, not_true_eq_false, if_false]
  · have skipped : ¬ PlaneWorld.takesIn json planes envelope = true := by
      unfold PlaneWorld.takesIn
      simp [plane]
    rw [if_pos plane, if_neg skipped]
    exact ⟨planes, rfl, rfl, stands⟩

/-- A whole release pass: every message is observed, in order. -/
theorem Stands.observeAll {writes : List Write} (base : SurfacePlanes) (envelopes : List MessageEnvelope)
    {planes : SurfacePlanes} {report : Option MessageEnvelope} (stands : Stands json writes planes report)
    (same : planes.wiring = base.wiring)
    (lawful : ∀ envelope ∈ envelopes, Lawful json writes envelope.channel envelope)
    (wired : ∀ envelope ∈ envelopes, envelope.channel = localOverlayStateChannel → planes.wiring.isSome) :
    ∃ next, LocalRouter.observeAll (SurfacePlanes.policy json) planes envelopes = some next ∧
      next.wiring = planes.wiring ∧
      Stands json writes next (envelopes.foldl (PlaneWorld.reported json base) report) := by
  induction envelopes generalizing planes report with
  | nil => exact ⟨planes, rfl, rfl, stands⟩
  | cons envelope envelopes ih =>
    obtain ⟨next, observed, unmoved, stands⟩ := stands.observe (lawful envelope List.mem_cons_self)
      (wired envelope List.mem_cons_self)
    have report_eq : PlaneWorld.reported json planes report envelope = PlaneWorld.reported json base report envelope := by
      unfold PlaneWorld.reported
      rw [takesIn_congr same]
    rw [report_eq] at stands
    obtain ⟨final, rest, still, stands⟩ := ih stands (unmoved.trans same)
      (fun other member => lawful other (List.mem_cons_of_mem _ member))
      (fun other member plane => unmoved ▸ wired other (List.mem_cons_of_mem _ member) plane)
    refine ⟨final, ?_, still.trans unmoved, stands⟩
    unfold LocalRouter.observeAll at rest ⊢
    rw [List.foldlM_cons, show (SurfacePlanes.policy json).observe planes envelope = some next from observed]
    exact rest

/-! ### Every run keeps the planes lawful -/

namespace PlaneWorld

structure Sound (json : PlaneJson) (world : PlaneWorld) : Prop where
  lawful : world.stores.Each fun channel store =>
    store.core.Everywhere (Lawful json world.writes channel) fun sender message => message.sender = sender
  wired : ∀ write ∈ world.writes, write.channel = localOverlayStateChannel → world.router.policy.wiring.isSome
  stands : Stands json world.writes world.router.policy world.report

variable {world next : PlaneWorld}

theorem Sound.wiredFor (sound : world.Sound json) {message : MessageEnvelope}
    (lawful : Lawful json world.writes message.channel message)
    (plane : message.channel = localOverlayStateChannel) : world.router.policy.wiring.isSome := by
  obtain ⟨write, listed, behind, -⟩ := lawful.overlay plane
  exact sound.wired write listed (behind.channel.trans plane)

theorem sound_start (epoch : Nat) : (start epoch).Sound json := by
  refine ⟨?_, by simp [start], fun overlay held => by simp [start, LocalRouter.new, SurfacePlanes.new] at held⟩
  refine each_newStores (fun channel epoch depth => RingCore.everywhere_new epoch depth) ?_ epoch
  exact fun channel store depth all => all.setDepth depth

theorem Sound.document (sound : world.Sound json) (bindings : AppliedBindings) (stepped : world.step json (.document bindings) = some next) :
    next.Sound json := by
  cases stepped
  refine ⟨?_, fun _ _ _ => rfl, ?_⟩
  · refine each_reconcileStores (fun channel epoch depth => RingCore.everywhere_new epoch depth) ?_ bindings sound.lawful
    exact fun channel store depth all => all.setDepth depth
  · intro overlay held
    obtain ⟨old, declared⟩ := Option.filter_eq_some_iff.mp held
    obtain ⟨-, envelope, parsed, -, -, rest⟩ := sound.stands overlay old
    exact ⟨_, envelope, parsed, rfl, by simpa using declared, rest⟩

/-- Every message of a release pass is lawful, also one the pass evicts again. -/
theorem Sound.released (sound : world.Sound json) {now : Nat} {part : ReleasedChannel BindingKey}
    (listed : part ∈ LocalRouter.releasedChannels (world.stores.releaseDue now).1) {envelope : MessageEnvelope}
    (member : envelope ∈ part.released) : Lawful json world.writes part.channel envelope := by
  obtain ⟨⟨channel, report⟩, reported, rfl⟩ := List.mem_map.mp listed
  obtain ⟨entry, released, rfl⟩ := List.mem_map.mp member
  obtain ⟨store, held, rfl⟩ := ChannelStores.mem_releaseDue reported
  exact ((sound.lawful channel store held).releaseDue now).2 entry released

theorem Sound.release (sound : world.Sound json) (now : Nat) :
    ∃ next, world.step json (.release now) = some next ∧ next.Sound json := by
  have fit : ∀ envelope ∈ (LocalRouter.releasedChannels (world.stores.releaseDue now).1).flatMap ReleasedChannel.released,
      Lawful json world.writes envelope.channel envelope := by
    intro envelope member
    obtain ⟨part, listed, member⟩ := List.mem_flatMap.mp member
    have lawful := sound.released listed member
    exact lawful.addressed.symm ▸ lawful
  obtain ⟨planes, observed, unmoved, stands⟩ := sound.stands.observeAll world.router.policy _ rfl fit
    fun envelope member plane => sound.wiredFor (fit envelope member) plane
  have released : world.router.releaseDue (SurfacePlanes.policy json) world.stores now =
      some (LocalRouter.releasedChannels (world.stores.releaseDue now).1, { world.router with policy := planes },
        (world.stores.releaseDue now).2) := by
    unfold LocalRouter.releaseDue
    dsimp only
    rw [observed]
    rfl
  have stepped : world.step json (.release now) = some { world with
      router := { world.router with policy := planes }
      stores := (world.stores.releaseDue now).2
      report := ((LocalRouter.releasedChannels (world.stores.releaseDue now).1).flatMap
        ReleasedChannel.released).foldl (reported json world.router.policy) world.report } := by
    simp only [PlaneWorld.step, released, Option.map_some]
  refine ⟨_, stepped, ?_, ?_, stands⟩
  · intro channel store found
    dsimp only at found
    rw [ChannelStores.get_releaseDue] at found
    obtain ⟨old, held, rfl⟩ := Option.map_eq_some_iff.mp found
    split
    · exact ((sound.lawful channel old held).releaseDue now).1
    · exact sound.lawful channel old held
  · intro write listed plane
    dsimp only
    rw [unmoved]
    exact sound.wired write listed plane

/-- The guard carries a body on the overlay plane only under a wiring. -/
theorem wired_of_guard {planes : SurfacePlanes} {origin : Origin} {body carried : String}
    (guarded : planes.guard json localOverlayStateChannel origin body = some (.carry carried)) :
    planes.wiring.isSome := by
  unfold SurfacePlanes.guard at guarded
  rw [if_pos (.inl rfl)] at guarded
  cases origin with
  | attacher => cases guarded
  | sub instanceId =>
    simp only [if_true] at guarded
    obtain ⟨wiring, inForce, -⟩ := Option.map_eq_some_iff.mp guarded
    rw [inForce]
    rfl

/-- A carried body by a component is one write on record, and what it makes is lawful. -/
theorem writeOf_sub {channel instanceId principal body carried : String} {messageId : Nat}
    (identity : world.router.principal = some principal)
    (guarded : world.router.policy.guard json channel (.sub instanceId) body = some (.carry carried)) :
    world.writeOf json channel (.sub instanceId) messageId body = [⟨channel, messageId, principal, instanceId, carried,
      world.router.policy.wiring.any fun wiring => wiring.chromeInstance = instanceId⟩] := by
  simp only [writeOf, identity, guarded]

/-- A carried body becomes a lawful message once its write is on record: the page itself never gets past the guard
    of a plane that asks for a writer. -/
theorem lawful_of_carry (message : MessageEnvelope) {channel principal body carried : String} {origin : Origin}
    {messageId : Nat} (named : message.messageId = messageId) (identity : world.router.principal = some principal)
    (guarded : world.router.policy.guard json channel origin body = some (.carry carried))
    (addressed : message.channel = channel) (worded : message.body = carried)
    (sender : message.sender = senderOf principal origin) :
    Lawful json (world.writeOf json channel origin messageId body ++ world.writes) channel message := by
  subst named
  cases origin with
  | sub instanceId =>
    rw [writeOf_sub identity guarded]
    exact lawful_of_guard guarded addressed worded sender rfl _
  | attacher =>
    refine ⟨addressed, ?_, ?_⟩
    · rintro rfl
      simp [SurfacePlanes.guard] at guarded
    · rintro rfl
      simp [SurfacePlanes.guard] at guarded

theorem wired_writeOf {channel body : String} {origin : Origin} {messageId : Nat} {write : Write}
    (listed : write ∈ world.writeOf json channel origin messageId body)
    (plane : write.channel = localOverlayStateChannel) : world.router.policy.wiring.isSome := by
  unfold writeOf at listed
  split at listed
  next instanceId principal carried identity guarded =>
    have here : channel = localOverlayStateChannel := by
      rw [List.mem_singleton.mp listed] at plane
      exact plane
    exact wired_of_guard (here ▸ guarded)
  next => cases listed

/-- New writes and unchanged wiring keep what was already so. -/
theorem Sound.more (sound : world.Sound json) (target body : String) (origin : Origin) (messageId : Nat) :
    world.stores.Each (fun channel store => store.core.Everywhere
      (Lawful json (world.writeOf json target origin messageId body ++ world.writes) channel)
      fun sender message => message.sender = sender) ∧
    ∀ write ∈ world.writeOf json target origin messageId body ++ world.writes,
      write.channel = localOverlayStateChannel → world.router.policy.wiring.isSome := by
  refine ⟨sound.lawful.imp fun _ _ all => all.imp fun _ lawful => lawful.more _, fun write listed plane => ?_⟩
  rcases List.mem_append.mp listed with new | old
  · exact wired_writeOf new plane
  · exact sound.wired write old plane

theorem reported_publish {req : RouteRequest} {principal carried : String} (report : Option MessageEnvelope)
    (identity : world.router.principal = some principal)
    (guarded : world.router.policy.guard json req.channel req.origin req.body = some (.carry carried)) :
    ((world.writeOf json req.channel req.origin req.stamp.messageId req.body).map fun write =>
      LocalRouter.mint write.principal req write.body).foldl (reported json world.router.policy) report =
    reported json world.router.policy report (LocalRouter.mint principal req carried) := by
  cases sentBy : req.origin with
  | sub instanceId =>
    rw [sentBy] at guarded
    rw [writeOf_sub identity guarded]
    rfl
  | attacher =>
    have elsewhere : req.channel ≠ localOverlayStateChannel := by
      intro plane
      simp [SurfacePlanes.guard, plane, sentBy] at guarded
    have skipped : ¬ takesIn json world.router.policy (LocalRouter.mint principal req carried) = true := by
      simp [takesIn, LocalRouter.mint, elsewhere]
    rw [reported, if_neg skipped]
    rfl

theorem Sound.publish (sound : world.Sound json) {req : RouteRequest}
    (stepped : world.step json (.publish req) = some next) : next.Sound json := by
  obtain ⟨⟨outcome, router, stores⟩, routed, rfl⟩ := Option.map_eq_some_iff.mp stepped
  rcases LocalRouter.route_spec routed with
    ⟨rfl, rfl, notParked, notRouted⟩ | ⟨principal, carried, store, identity, guarded, held, placed⟩
  · cases outcome with
    | parked releaseAt => exact absurd rfl (notParked releaseAt)
    | routed overflow => exact absurd rfl (notRouted overflow)
    | _ => exact sound
  · obtain ⟨lawful, wired⟩ := sound.more req.channel req.body req.origin req.stamp.messageId
    have minted : Lawful json (world.writeOf json req.channel req.origin req.stamp.messageId req.body ++ world.writes)
        req.channel (LocalRouter.mint principal req carried) := lawful_of_carry _ rfl identity guarded rfl rfl rfl
    rcases placed with ⟨releaseAt, id, kept, parked, rfl, rfl, rfl⟩ | ⟨policy, overflow, kept, observed, appended, rfl, rfl, rfl⟩
    · refine ⟨lawful.put ?_, wired, sound.stands.more _⟩
      unfold ChannelStore.park at parked
      split at parked
      · cases parked
      next core into =>
        cases parked
        exact (lawful _ _ held).park minted rfl into
    · have onPlane : (LocalRouter.mint principal req carried).channel = localOverlayStateChannel →
          world.router.policy.wiring.isSome := by
        intro plane
        have here : req.channel = localOverlayStateChannel := plane
        rw [here] at guarded
        exact wired_of_guard guarded
      obtain ⟨reached, seen, unmoved, stands⟩ := (sound.stands.more _).observe minted onPlane
      obtain rfl : policy = reached := Option.some.inj (observed.symm.trans seen)
      refine ⟨lawful.put ?_, fun write listed plane => ?_, ?_⟩
      · unfold ChannelStore.appendMinted at appended
        split at appended
        · cases appended
        · cases appended
          exact (lawful _ _ held).append minted
      · dsimp only
        rw [unmoved]
        exact wired write listed plane
      · dsimp only
        rw [reported_publish _ identity guarded]
        exact stands

theorem Sound.schedule (sound : world.Sound json) {req : DeferOpRequest}
    (stepped : world.step json (.schedule req) = some next) : next.Sound json := by
  obtain ⟨⟨answer, stores⟩, applied, rfl⟩ := Option.map_eq_some_iff.mp stepped
  rcases LocalRouter.applyOp_spec applied with
    ⟨rfl, idle⟩ | ⟨principal, op, store, entry, identity, judged, held, member, sender, named, rfl, rfl⟩
  · cases answer with
    | applied => exact absurd rfl idle
    | _ => exact sound
  · have all := sound.lawful _ _ held
    cases asked : req.op with
    | cancel =>
      simp only [asked, LocalRouter.guardOp, Option.some.injEq, Except.ok.injEq] at judged
      subst judged
      exact ⟨sound.lawful.put (all.cancelDeferred entry.id), sound.wired, sound.stands⟩
    | edit body deliverAfter =>
      cases body with
      | none =>
        simp only [asked, LocalRouter.guardOp, Option.some.injEq, Except.ok.injEq] at judged
        subst judged
        exact ⟨sound.lawful.put (all.editDeferred member (by simp)), sound.wired, sound.stands⟩
      | some body =>
        rw [asked] at judged
        unfold LocalRouter.guardOp at judged
        dsimp only at judged
        cases guarded : world.router.policy.guard json req.channel req.origin body with
        | none => simp [SurfacePlanes.policy, guarded] at judged
        | some verdict =>
          cases verdict with
          | refused reason => simp [SurfacePlanes.policy, guarded] at judged
          | carry carried =>
            simp only [SurfacePlanes.policy, guarded, Option.some.injEq, Except.ok.injEq] at judged
            subst judged
            obtain ⟨lawful, wired⟩ := sound.more req.channel body req.origin req.messageId
            refine ⟨lawful.put ((lawful _ _ held).editDeferred member ?_), wired, sound.stands.more _⟩
            rintro replacement ⟨⟩
            have owner := (all.parked entry member).2
            exact ⟨lawful_of_carry { entry.message with body := carried } named identity guarded
              (all.parked entry member).1.addressed rfl (owner.trans sender), owner⟩

theorem Sound.step (sound : world.Sound json) {event : PlaneEvent} (stepped : world.step json event = some next) :
    next.Sound json := by
  cases event with
  | attach principal =>
    obtain ⟨router, taken, rfl⟩ := Option.map_eq_some_iff.mp stepped
    unfold LocalRouter.setPrincipal at taken
    split at taken
    · cases taken
    · cases taken
      exact ⟨sound.lawful, sound.wired, sound.stands⟩
  | publish req => exact sound.publish stepped
  | schedule req => exact sound.schedule stepped
  | release now =>
    obtain ⟨reached, released, kept⟩ := sound.release now
    exact Option.some.inj (released.symm.trans stepped) ▸ kept
  | document bindings => exact sound.document bindings stepped

theorem run_sound {epoch : Nat} {events : List PlaneEvent}
    (ran : run (fun world => world.step json) (start epoch) events = some world) : world.Sound json := by
  have preserved : ∀ (world : PlaneWorld) (event : PlaneEvent) (next : PlaneWorld),
      world.Sound json → True → world.step json event = some next → next.Sound json :=
    fun _ _ _ sound _ stepped => sound.step stepped
  exact run_preserves preserved (sound_start epoch) (along_of_forall (fun _ _ => trivial) _ _) ran

/-- Nobody takes over the overlay in another's name. Whatever publishes, edits, cancels, releases
    and documents came before: a message retained on the takeover plane, or released onto it by the
    next pass, names the instance that published it or edited it; the recorded holder is declared by the wiring in force and is the
    one named by the report taken in last, which chrome wrote; and neither a retained or parked
    message nor one about to be published can panic the policy when it is observed. -/
theorem planes_speak_for_their_writers (json : PlaneJson) (epoch : Nat) (events : List PlaneEvent) (world : PlaneWorld)
    (ran : run (fun world => world.step json) (start epoch) events = some world) :
    (∀ store, world.stores.get localTakeoverChannel = some store → ∀ entry ∈ store.core.ring.entries,
      ∃ write ∈ world.writes, write.Behind localTakeoverChannel entry.message ∧
        ∃ parsed, json.parseTakeover entry.message.body = .ok parsed ∧ parsed.instanceId = write.instanceId) ∧
    (∀ overlay, world.router.policy.overlay = some overlay → ∃ wiring report parsed,
      world.router.policy.wiring = some wiring ∧ overlay.holder ∈ wiring.instances ∧ world.report = some report ∧
      json.parseOverlayState report.body = .ok parsed ∧ parsed.holder = some overlay.holder ∧
      ∃ write ∈ world.writes, write.Behind localOverlayStateChannel report ∧ write.byChrome = true) ∧
    (∀ channel store message, world.stores.get channel = some store →
      ((∃ entry ∈ store.core.ring.entries, entry.message = message) ∨
        ∃ entry ∈ store.core.deferred.entries, entry.message = message) →
      (world.router.policy.observe json message).isSome) ∧
    (∀ now, ∃ released router stores,
      world.router.releaseDue (SurfacePlanes.policy json) world.stores now = some (released, router, stores) ∧
      ∀ part ∈ released, part.channel = localTakeoverChannel → ∀ message ∈ part.released,
        ∃ write ∈ world.writes, write.Behind localTakeoverChannel message ∧
          ∃ parsed, json.parseTakeover message.body = .ok parsed ∧ parsed.instanceId = write.instanceId) ∧
    ∀ (req : RouteRequest) principal carried, world.router.principal = some principal →
      world.router.policy.guard json req.channel req.origin req.body = some (.carry carried) →
      (world.router.policy.observe json (LocalRouter.mint principal req carried)).isSome := by
  have sound := run_sound ran
  refine ⟨fun store held entry member => ?_, fun overlay recorded => ?_, fun channel store message held present => ?_,
    fun now => ?_, fun req principal carried identity guarded => ?_⟩
  · exact ((sound.lawful _ store held).retained entry member).takeover rfl
  · obtain ⟨wiring, report, parsed, inForce, declared, last, lawful, parses, holder, -⟩ := sound.stands overlay recorded
    obtain ⟨write, listed, behind, chrome, -⟩ := lawful.overlay rfl
    exact ⟨wiring, report, parsed, inForce, declared, last, parses, holder, write, listed, behind, chrome⟩
  · have lawful : Lawful json world.writes message.channel message := by
      have all := sound.lawful channel store held
      rcases present with ⟨entry, member, rfl⟩ | ⟨entry, member, rfl⟩
      · exact (all.retained entry member).addressed.symm ▸ all.retained entry member
      · exact (all.parked entry member).1.addressed.symm ▸ (all.parked entry member).1
    obtain ⟨planes, observed, -⟩ := sound.stands.observe lawful (sound.wiredFor lawful)
    rw [observed]
    rfl
  · obtain ⟨next, stepped, -⟩ := sound.release now
    unfold PlaneWorld.step at stepped
    obtain ⟨⟨released, router, stores⟩, done, -⟩ := Option.map_eq_some_iff.mp stepped
    refine ⟨released, router, stores, done, fun part listed plane message member => ?_⟩
    obtain ⟨policy, -, same⟩ := Option.map_eq_some_iff.mp done
    cases same
    exact plane ▸ (sound.released listed member).takeover plane
  · have minted := lawful_of_carry (LocalRouter.mint principal req carried) rfl identity guarded rfl rfl rfl
    have onPlane : (LocalRouter.mint principal req carried).channel = localOverlayStateChannel →
        world.router.policy.wiring.isSome := by
      intro plane
      have here : req.channel = localOverlayStateChannel := plane
      rw [here] at guarded
      exact wired_of_guard guarded
    obtain ⟨planes, observed, -⟩ := (sound.stands.more _).observe minted onPlane
    rw [observed]
    rfl

end PlaneWorld

/-! ### A page with a chrome and one panel -/

def kitchenDoc : BindingsDocument :=
  { v := 5
    components := [⟨"chrome", 4, [], [], [], []⟩, ⟨"p1", 4, [], [], [], []⟩]
    subscriptions := []
    outputs := []
    localChannels := []
    chromeInstance := "chrome"
    platform := ⟨"brenn:kitchen.geometry", "brenn:kitchen.status", 60, none, none⟩
    addressable := unbound_addressable }

def kitchen : AppliedBindings := { body := "kitchen", doc := kitchenDoc, valid := by decide +kernel }

/-- A takeover body as one character for its fixed fields before the instance's name. -/
def takeoverCode (body : TakeoverBody) : Nat :=
  4 * body.v.val + (match body.action with | .request => 0 | .release => 2) +
    match body.mode with | .takeover => 0 | .overlay => 1

def decodeTakeover (code : Nat) (instanceId : String) : TakeoverBody :=
  { v := Fin.ofNat 256 (code / 4)
    action := if code % 4 < 2 then .request else .release
    mode := if code % 2 = 0 then .takeover else .overlay
    instanceId }

theorem decode_takeoverCode (body : TakeoverBody) : decodeTakeover (takeoverCode body) body.instanceId = body := by
  obtain ⟨⟨v, small⟩, action, mode, name⟩ := body
  have version : ∀ low, low < 4 → Fin.ofNat 256 ((4 * v + low) / 4) = ⟨v, small⟩ := by
    intro low bounded
    apply Fin.ext
    simp only [Fin.ofNat]
    omega
  cases action <;> cases mode <;>
    simp only [takeoverCode, decodeTakeover, Nat.add_assoc, Nat.reduceAdd, TakeoverBody.mk.injEq, and_true]
  · exact ⟨version 0 (by decide), if_pos (by omega), if_pos (by omega)⟩
  · exact ⟨version 1 (by decide), if_pos (by omega), if_neg (by omega)⟩
  · exact ⟨version 2 (by decide), if_neg (by omega), if_pos (by omega)⟩
  · exact ⟨version 3 (by decide), if_neg (by omega), if_neg (by omega)⟩

/-- A small faithful rendering, and one overlay report in its JSON spelling. -/
def smallJson : PlaneJson where
  parseTakeover text :=
    match text.toList with
    | [] => .error "end of input"
    | c :: name => .ok (decodeTakeover c.toNat (String.ofList name))
  renderTakeover body := String.ofList (Char.ofNat (takeoverCode body) :: body.instanceId.toList)
  parseOverlayState text :=
    if text = "\x7b\"v\":1,\"holder\":\"p1\",\"since_stamp\":7\x7d" then .ok ⟨1, some "p1", 7⟩ else .error "unexpected text"
  faithful := by
    rintro ⟨⟨v, small⟩, action, mode, name⟩
    have low : takeoverCode ⟨⟨v, small⟩, action, mode, name⟩ < 55296 := by
      cases action <;> cases mode <;> simp only [takeoverCode] <;> omega
    have code : (Char.ofNat (takeoverCode ⟨⟨v, small⟩, action, mode, name⟩)).toNat =
        takeoverCode ⟨⟨v, small⟩, action, mode, name⟩ := by
      rw [Char.toNat_ofNat, if_pos (.inl low)]
    simp only [String.toList_ofList, code, String.ofList_toList]
    exact congrArg Except.ok (decode_takeoverCode _)

/-- Chrome reports `p1` as the holder; nobody ever asked to take over. -/
def chromeReports : List PlaneEvent :=
  [.attach "surface:kitchen", .document kitchen,
    .publish ⟨localOverlayStateChannel, .sub "chrome", "\x7b\"v\":1,\"holder\":\"p1\",\"since_stamp\":7\x7d", ⟨1, 100⟩,
      .normal, none⟩]

namespace PlaneWorld

/-- The recorded holder need not have authored a takeover request: here it is `p1`, and no write
    on the takeover plane was ever accepted. -/
theorem reported_holder_never_asked :
    (run (fun world => world.step smallJson) (start 0) chromeReports).map
      (fun world => (world.router.policy.overlay.map OverlayReport.holder,
        world.writes.filter fun write => write.channel = localTakeoverChannel)) = some (some "p1", []) := by
  decide +kernel

/-- `p1` schedules a request, edits it, and it is released under a second document. -/
def panelTakesOver : List PlaneEvent :=
  [.attach "surface:kitchen", .document kitchen,
    .publish ⟨localTakeoverChannel, .sub "p1", "aim-chrome", ⟨1, 100⟩, .normal, some 200⟩,
    .schedule ⟨localTakeoverChannel, .sub "p1", 1, .edit (some "aas-chrome") none, 150⟩,
    .document kitchen, .release 250] ++ chromeReports

theorem panel_takes_over_in_its_own_name : ∃ world store entry,
    run (fun world => world.step smallJson) (start 0) panelTakesOver = some world ∧
    world.stores.get localTakeoverChannel = some store ∧ entry ∈ store.core.ring.entries ∧
    ∃ write ∈ world.writes, write.Behind localTakeoverChannel entry.message ∧
      ∃ parsed, smallJson.parseTakeover entry.message.body = .ok parsed ∧ parsed.instanceId = write.instanceId := by
  have reached : ((run (fun world => world.step smallJson) (start 0) panelTakesOver).bind fun world =>
      (world.stores.get localTakeoverChannel).bind fun store => store.core.ring.entries.head?).isSome := by
    decide +kernel
  obtain ⟨entry, reached⟩ := Option.isSome_iff_exists.mp reached
  obtain ⟨world, ran, reached⟩ := Option.bind_eq_some_iff.mp reached
  obtain ⟨store, held, front⟩ := Option.bind_eq_some_iff.mp reached
  have member := List.mem_of_head? front
  exact ⟨world, store, entry, ran, held, member,
    (planes_speak_for_their_writers smallJson 0 panelTakesOver world ran).1 store held entry member⟩

end PlaneWorld

end Brenn.Surface
