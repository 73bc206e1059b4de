import Brenn.Mqtt.Activation

/-!
Broker messages while channels move.

A delivery copies the routes that match its message out of the table, and then looks up and
publishes to one channel after the other. A matched route whose channel has left the directory in
between is a panic.
-/

namespace Brenn.Mqtt
open Brenn.Access Brenn.Store Brenn.Lib Std

/-! ### What a reload does -/

inductive Commit where
  | unsubscribeFilter (clientSlug topicFilter : String)
  | removeRoute (channelUuid : ChannelUuid)
  | removeChannel (channelUuid : ChannelUuid)
  | addChannel (address : String) (resolvedChannel : ResolvedChannel)
  | addSubscriber (channelUuid : ChannelUuid) (subscriber : SubscriberEntry)
  | addRoute (route : IngressRoute)
  | subscribeFilter (clientSlug topicFilter : String) (qos : Nat)
  deriving Repr, DecidableEq

/-- The `mqtt:` part of a reload. A channel that changed is among the leaving and the joining ones. -/
structure PlanDelta where
  filtersLeaving : List (String × String)
  leaving : List ChannelUuid
  /-- The channels whose last dynamic subscription the reload revokes. -/
  revoked : List ChannelUuid
  joining : List (IngressRoute × ResolvedChannel)
  revived : List (ChannelUuid × SubscriberEntry)
  /-- The routes of revived subscriptions that the table does not hold. -/
  revivedRoutes : List IngressRoute
  filtersJoining : List (String × String × Nat)
  backed : ∀ route ∈ revivedRoutes, ∃ revival ∈ revived, revival.1 = route.channelUuid

namespace PlanDelta

variable (delta : PlanDelta)

def mqttOutgoing : List Commit :=
  (delta.filtersLeaving.map fun (clientSlug, topicFilter) => .unsubscribeFilter clientSlug topicFilter) ++
    (delta.leaving ++ delta.revoked).map .removeRoute

def removeChannels : List Commit := delta.leaving.map .removeChannel

/-- Each arrives without subscribers. -/
def addChannels : List Commit := delta.joining.map fun (route, rung) => .addChannel route.channelUuid rung

def startAgentSubscriptions : List Commit :=
  delta.revived.map fun (channelUuid, subscriber) => .addSubscriber channelUuid subscriber

def mqttIncoming : List Commit :=
  (delta.joining.map (·.1) ++ delta.revivedRoutes).map .addRoute ++
    delta.filtersJoining.map fun (clientSlug, topicFilter, qos) => .subscribeFilter clientSlug topicFilter qos

def apply : List Commit :=
  (delta.mqttOutgoing ++ delta.removeChannels) ++ ((delta.addChannels ++ delta.startAgentSubscriptions) ++
    delta.mqttIncoming)

end PlanDelta

/-- One step of a reload. `none` is a failed assertion, which ends the process. -/
def Server.commit (server : Server) : Commit → Option Server
  | .unsubscribeFilter clientSlug topicFilter => server.unsubscribeFilter clientSlug topicFilter
  | .removeRoute channelUuid =>
    let (removed, routes) := removeRoute server.routes channelUuid
    if removed then some { server with routes := routes } else none
  | .removeChannel channelUuid =>
    if server.directory[channelUuid]?.isSome then some { server with directory := server.directory.erase channelUuid }
    else none
  | .addChannel address resolvedChannel =>
    (addChannel server.directory address ⟨resolvedChannel, []⟩).map fun directory => { server with directory := directory }
  | .addSubscriber channelUuid subscriber =>
    (addSubscriber server.directory channelUuid subscriber).map fun directory => { server with directory := directory }
  | .addRoute route =>
    let (added, routes) := addRoute server.routes route
    if added then some { server with routes := routes } else none
  | .subscribeFilter clientSlug topicFilter qos => (server.subscribeFilter clientSlug topicFilter qos).join

/-! ### Deliveries -/

def IngressRoute.carries (route : IngressRoute) (clientSlug topic : String) : Bool :=
  decide (route.clientSlug = clientSlug) && mqttTopicMatches route.topicFilter topic

structure Inbound where
  /-- The matched routes it has not looked up yet. -/
  remaining : List IngressRoute
  /-- The route it has looked up and not published to yet. -/
  resolved : Option IngressRoute
  published : List ChannelUuid
  panicked : Bool
  deriving Repr, DecidableEq

namespace Inbound

variable (call : Inbound)

def finished : Bool := call.remaining.isEmpty && call.resolved.isNone

/-- The channels the call publishes to, those it has published to already first. -/
def covered : List ChannelUuid :=
  call.published ++ (call.resolved.toList ++ call.remaining).map (·.channelUuid)

def resolve (directory : TreeMap String ChannelEntry) : Inbound :=
  match call.panicked, call.resolved, call.remaining with
  | false, none, route :: rest =>
    if directory[route.channelUuid]?.isSome then { call with remaining := rest, resolved := some route }
    else { call with panicked := true }
  | _, _, _ => call

/-- The entry is in hand, so a publish reads the directory no more. -/
def publish : Inbound :=
  match call.resolved with
  | none => call
  | some route => { call with resolved := none, published := call.published ++ [route.channelUuid] }

end Inbound

/-- A request that panics is gone; what it did stays. -/
def Plane.request (config : Config) (plane : Plane) : PlaneEvent → Plane
  | .enter call => (plane.enter config call).getD plane
  | .proceed turn => (plane.proceed turn).getD { plane with pending := plane.pending.eraseIdx turn }

structure Traffic where
  plane : Plane
  /-- The steps of the reload under way that are still to come. -/
  todo : List Commit
  /-- Every delivery so far, in the order of arrival. -/
  calls : List Inbound

inductive TrafficEvent where
  | request (event : PlaneEvent)
  | reload (delta : PlanDelta)
  | commit
  | deliver (clientSlug topic : String)
  | resolve (message : Nat)
  | publish (message : Nat)

namespace Traffic

variable (config : Config) (traffic : Traffic)

def deliver (clientSlug topic : String) : Traffic :=
  let routes := traffic.plane.server.routes.filter (·.carries clientSlug topic)
  { traffic with calls := traffic.calls ++ [⟨routes, none, [], false⟩] }

/-- Reloads run one at a time. -/
def step : TrafficEvent → Option Traffic
  | .request event => some { traffic with plane := traffic.plane.request config event }
  | .reload delta => some (if traffic.todo.isEmpty then { traffic with todo := delta.apply } else traffic)
  | .commit =>
    match traffic.todo with
    | [] => some traffic
    | commit :: todo =>
      (traffic.plane.server.commit commit).map fun server =>
        { traffic with plane := { traffic.plane with server := server }, todo := todo }
  | .deliver clientSlug topic => some (traffic.deliver clientSlug topic)
  | .resolve message =>
    some { traffic with calls := traffic.calls.modify message fun call => call.resolve traffic.plane.server.directory }
  | .publish message => some { traffic with calls := traffic.calls.modify message Inbound.publish }

end Traffic

def Stage.addsRoute : Stage → Bool
  | .routing _ => true
  | .filtering _ | .unrouting | .unfiltering => false

def Commit.removes : Commit → Option ChannelUuid
  | .removeChannel channelUuid => some channelUuid
  | _ => none

namespace Traffic

variable (traffic : Traffic)

/-- No route leads to a channel, none is about to be added, and no delivery has one in hand. -/
def Unrouted (channelUuid : ChannelUuid) : Prop :=
  (∀ route ∈ traffic.plane.server.routes, route.channelUuid ≠ channelUuid) ∧
    (∀ task ∈ traffic.plane.pending, task.address = channelUuid → task.stage.addsRoute = false) ∧
    ∀ call ∈ traffic.calls, ∀ route ∈ call.remaining, route.channelUuid ≠ channelUuid

/-- The reload takes only unrouted channels out of the directory. -/
def Clear : TrafficEvent → Prop
  | .commit => ∀ channelUuid ∈ traffic.todo.head?.bind Commit.removes, traffic.Unrouted channelUuid
  | _ => True

instance (channelUuid : ChannelUuid) : Decidable (traffic.Unrouted channelUuid) :=
  inferInstanceAs (Decidable (_ ∧ _ ∧ _))

instance (event : TrafficEvent) : Decidable (traffic.Clear event) :=
  match event with
  | .commit => inferInstanceAs (Decidable (∀ channelUuid ∈ traffic.todo.head?.bind Commit.removes, _))
  | .request _ | .reload _ | .deliver .. | .resolve _ | .publish _ => inferInstanceAs (Decidable True)

end Traffic

/-! ### The order of a reload's steps -/

def Commit.gives : Commit → List ChannelUuid
  | .addChannel address _ => [address]
  | .addSubscriber channelUuid _ => [channelUuid]
  | _ => []

/-- A route is added to a channel that is ready, and a ready channel is not removed. -/
def Commit.Needs (ready : List ChannelUuid) : Commit → Prop
  | .addRoute route => route.channelUuid ∈ ready
  | .removeChannel channelUuid => channelUuid ∉ ready
  | _ => True

def Prepared : List ChannelUuid → List Commit → Prop
  | _, [] => True
  | ready, commit :: rest => commit.Needs ready ∧ Prepared (commit.gives ++ ready) rest

def readied (ready : List ChannelUuid) (commits : List Commit) : List ChannelUuid :=
  commits.foldl (fun ready commit => commit.gives ++ ready) ready

theorem prepared_append {ready : List ChannelUuid} {first second : List Commit} :
    Prepared ready (first ++ second) ↔ Prepared ready first ∧ Prepared (readied ready first) second := by
  induction first generalizing ready with
  | nil => simp [Prepared, readied]
  | cons commit first ih =>
    rw [List.cons_append, Prepared, Prepared, ih, and_assoc]
    rfl

theorem mem_readied {ready : List ChannelUuid} {commits : List Commit} {channelUuid : ChannelUuid} :
    channelUuid ∈ readied ready commits ↔ channelUuid ∈ ready ∨ ∃ commit ∈ commits, channelUuid ∈ commit.gives := by
  induction commits generalizing ready with
  | nil => simp [readied]
  | cons commit commits ih =>
    refine (@ih (commit.gives ++ ready)).trans ?_
    simp only [List.mem_append, List.exists_mem_cons_iff]
    tauto

/-- Steps that make nothing ready are prepared if each finds what it needs. -/
theorem prepared_of_idle {ready : List ChannelUuid} {commits : List Commit}
    (idle : ∀ commit ∈ commits, commit.gives = []) (needs : ∀ commit ∈ commits, commit.Needs ready) :
    Prepared ready commits ∧ readied ready commits = ready := by
  induction commits with
  | nil => exact ⟨trivial, rfl⟩
  | cons commit commits ih =>
    obtain ⟨prepared, same⟩ := ih (fun other member => idle other (.tail _ member))
      fun other member => needs other (.tail _ member)
    have gives := idle commit (.head _)
    refine ⟨⟨needs commit (.head _), by rwa [gives]⟩, ?_⟩
    rw [readied, List.foldl_cons, gives]
    exact same

theorem prepared_of_free {commits : List Commit} (free : ∀ commit ∈ commits, ∀ ready, commit.Needs ready)
    (ready : List ChannelUuid) : Prepared ready commits := by
  induction commits generalizing ready with
  | nil => trivial
  | cons commit commits ih =>
    exact ⟨free commit (.head _) ready, ih (fun other member => free other (.tail _ member)) _⟩

/-- Whatever a reload moves, it routes only to channels it has put or found in the directory. -/
theorem prepared_apply (delta : PlanDelta) : Prepared [] delta.apply := by
  obtain ⟨outgoing, none_⟩ : Prepared [] (delta.mqttOutgoing ++ delta.removeChannels) ∧
      readied [] (delta.mqttOutgoing ++ delta.removeChannels) = [] := by
    refine prepared_of_idle ?_ ?_ <;>
    · simp only [PlanDelta.mqttOutgoing, PlanDelta.removeChannels, List.mem_append, List.mem_map]
      rintro commit ((⟨_, _, rfl⟩ | ⟨_, _, rfl⟩) | ⟨_, _, rfl⟩) <;> simp [Commit.gives, Commit.Needs]
  have middle : Prepared [] (delta.addChannels ++ delta.startAgentSubscriptions) := by
    refine prepared_of_free ?_ []
    simp only [PlanDelta.addChannels, PlanDelta.startAgentSubscriptions, List.mem_append, List.mem_map]
    rintro commit (⟨_, _, rfl⟩ | ⟨_, _, rfl⟩) ready <;> trivial
  refine prepared_append.mpr ⟨outgoing, ?_⟩
  rw [none_]
  refine prepared_append.mpr ⟨middle, (prepared_of_idle ?_ ?_).1⟩
  · simp only [PlanDelta.mqttIncoming, List.mem_append, List.mem_map]
    rintro commit (⟨_, _, rfl⟩ | ⟨_, _, rfl⟩) <;> rfl
  · simp only [PlanDelta.mqttIncoming, List.mem_append, List.mem_map]
    rintro commit (⟨route, ⟨⟨joined, rung⟩, member, rfl⟩ | member, rfl⟩ | ⟨_, _, rfl⟩)
    · refine mem_readied.mpr (.inr ⟨.addChannel joined.channelUuid rung, ?_, by simp [Commit.gives]⟩)
      exact List.mem_append_left _ (List.mem_map.mpr ⟨(joined, rung), member, rfl⟩)
    · obtain ⟨⟨channelUuid, subscriber⟩, revival, named⟩ := delta.backed route member
      refine mem_readied.mpr (.inr ⟨.addSubscriber channelUuid subscriber, ?_, by simp [Commit.gives, ← named]⟩)
      exact List.mem_append_right _ (List.mem_map.mpr ⟨(channelUuid, subscriber), revival, rfl⟩)
    · trivial

/-! ### Routes and their channels -/

def Server.Lists (server : Server) (channelUuid : ChannelUuid) : Prop := server.directory[channelUuid]? ≠ none

theorem mem_addRoute {routes : List IngressRoute} {route held : IngressRoute} (member : held ∈ (addRoute routes route).2) :
    held ∈ routes ∨ held = route := by
  unfold addRoute at member
  split at member
  · exact .inl member
  · simpa using member

theorem addRoute_nodup {routes : List IngressRoute} (distinct : (routes.map (·.channelUuid)).Nodup)
    (route : IngressRoute) : ((addRoute routes route).2.map (·.channelUuid)).Nodup := by
  unfold addRoute
  split
  · exact distinct
  · next absent =>
    rw [List.map_append, List.map_singleton]
    refine List.nodup_append.mpr ⟨distinct, List.nodup_singleton _, ?_⟩
    rintro channelUuid member other held rfl
    obtain ⟨present, inside, named⟩ := List.mem_map.mp member
    refine absent (List.any_eq_true.mpr ⟨present, inside, ?_⟩)
    rw [named, List.mem_singleton.mp held]
    exact decide_eq_true rfl

theorem removeRoute_sublist (routes : List IngressRoute) (channelUuid : ChannelUuid) :
    (removeRoute routes channelUuid).2.Sublist routes := List.filter_sublist

namespace Plane

/-- Each channel has one route at most, and every route, held or about to be added, leads to a channel. -/
structure Backed (plane : Plane) : Prop where
  distinct : (plane.server.routes.map (·.channelUuid)).Nodup
  routed : ∀ route ∈ plane.server.routes, plane.server.Lists route.channelUuid
  activating : ∀ task ∈ plane.pending, task.stage.addsRoute = true → plane.server.Lists task.address

variable {plane : Plane}

theorem Backed.grows (backed : plane.Backed) {next : Plane}
    (stays : ∀ channelUuid, plane.server.Lists channelUuid → next.server.Lists channelUuid)
    (distinct : (next.server.routes.map (·.channelUuid)).Nodup)
    (routed : ∀ route ∈ next.server.routes, route ∈ plane.server.routes ∨ next.server.Lists route.channelUuid)
    (activating : ∀ task ∈ next.pending, task ∈ plane.pending ∨
      (task.stage.addsRoute = true → next.server.Lists task.address)) : next.Backed := by
  refine ⟨distinct, fun route member => ?_, fun task member adds => ?_⟩
  · exact (routed route member).elim (fun held => stays _ (backed.routed route held)) id
  · exact (activating task member).elim (fun held => stays _ (backed.activating task held adds)) fun new => new adds

/-- What a request leaves of the directory and the route table. -/
structure Carries (plane next : Plane) : Prop where
  backed : next.Backed
  stays : ∀ channelUuid, plane.server.Lists channelUuid → next.server.Lists channelUuid

theorem Carries.refl (backed : plane.Backed) : plane.Carries plane := ⟨backed, fun _ listed => listed⟩

theorem Backed.keeps (backed : plane.Backed) {next : Server} (routes : next.routes = plane.server.routes)
    (stays : ∀ channelUuid, plane.server.Lists channelUuid → next.Lists channelUuid) (new : List Task)
    (activating : ∀ task ∈ new, task.stage.addsRoute = true → next.Lists task.address) :
    plane.Carries ⟨next, plane.pending ++ new⟩ := by
  refine ⟨backed.grows stays ?_ (fun route member => .inl ?_) fun task member => ?_, stays⟩
  · dsimp only
    rw [routes]
    exact backed.distinct
  · rwa [← routes]
  · exact (List.mem_append.mp member).imp id (activating task)

theorem enter_carries (config : Config) (backed : plane.Backed) (call : Call) :
    ∃ next, plane.enter config call = some next ∧ plane.Carries next := by
  have kept {next : Server} (routes : next.routes = plane.server.routes)
      (stays : ∀ channelUuid, plane.server.Lists channelUuid → next.Lists channelUuid) :
      plane.Carries ⟨next, plane.pending⟩ := by
    simpa using backed.keeps routes stays [] (by simp)
  cases call with
  | subscribe link appSlug address params =>
    unfold Plane.enter
    dsimp only
    cases plane.server.admitSubscribe config appSlug address params with
    | error refused => exact ⟨plane, rfl, .refl backed⟩
    | ok params =>
      dsimp only
      obtain ⟨refused, next, answered, keeps⟩ | ⟨resolved, next, answered, keeps⟩ | ⟨resolved, next, answered, creates⟩ :=
        subscribeDynamic_cases config plane.server appSlug address params
      · exact ⟨_, by rw [answered]; rfl, kept keeps.routes keeps.stays⟩
      · exact ⟨_, by rw [answered]; rfl, kept keeps.routes keeps.stays⟩
      · refine ⟨_, by rw [answered]; rfl, backed.keeps creates.routes creates.stays _ fun task member _ => ?_⟩
        rw [List.mem_singleton.mp member]
        exact creates.present
  | unsubscribe link appSlug address =>
    unfold Plane.enter
    dsimp only
    obtain ⟨refused, answered⟩ | ⟨outcome, next, answered, departs, -⟩ :=
      unsubscribeDynamic_cases config plane.server appSlug address
    · exact ⟨plane, by rw [answered]; rfl, .refl backed⟩
    · by_cases others : outcome.wasDormant ∨ outcome.stillSubscribed
      · refine ⟨⟨next, plane.pending⟩, by rw [answered, Option.map_some]; dsimp only; rw [if_pos others], ?_⟩
        exact kept departs.routes departs.stays
      · refine ⟨⟨next, plane.pending ++ [⟨address, .unrouting⟩]⟩,
          by rw [answered, Option.map_some]; dsimp only; rw [if_neg others], ?_⟩
        refine backed.keeps departs.routes departs.stays _ fun task member adds => ?_
        rw [List.mem_singleton.mp member] at adds
        simp [Stage.addsRoute] at adds

/-- A step of a request adds the route it was about to add, or takes routes away, or leaves the table alone. -/
theorem perform_cases {server next : Server} {task : Task} {left : Option Task}
    (performed : perform server task = some (next, left)) :
    next.directory = server.directory ∧ (∀ rest, left = some rest → rest.stage.addsRoute = false) ∧
      (next.routes.Sublist server.routes ∨
        task.stage.addsRoute = true ∧ ∃ route : IngressRoute, route.channelUuid = task.address ∧
          next.routes = (addRoute server.routes route).2) := by
  obtain ⟨address, stage⟩ := task
  unfold perform at performed
  cases stage with
  | routing qos =>
    dsimp only at performed
    cases parses : parseMqttAddress address with
    | error refused => simp [parses] at performed
    | ok parsed =>
      rw [parses] at performed
      dsimp only at performed
      cases held : server.clients[parsed.client]? with
      | none =>
        simp only [held, Option.some.injEq, Prod.mk.injEq] at performed
        obtain ⟨rfl, rfl⟩ := performed
        exact ⟨rfl, by simp, .inl (List.Sublist.refl _)⟩
      | some client =>
        simp only [held, Option.some.injEq, Prod.mk.injEq] at performed
        obtain ⟨rfl, rfl⟩ := performed
        refine ⟨rfl, fun rest same => by rw [← Option.some.inj same]; rfl, .inr ⟨rfl, _, ?_, rfl⟩⟩
        rfl
  | filtering qos =>
    dsimp only at performed
    cases parses : parseMqttAddress address with
    | error refused => simp [parses] at performed
    | ok parsed =>
      cases qos with
      | none => simp [parses] at performed
      | some qos =>
        rw [parses] at performed
        dsimp only at performed
        obtain ⟨answer, asked, same⟩ := Option.map_eq_some_iff.mp performed
        unfold Server.subscribeFilter at asked
        cases held : server.clients[parsed.client]? with
        | none =>
          rw [held] at asked
          obtain rfl := Option.some.inj asked
          obtain ⟨rfl, rfl⟩ := Prod.mk.inj same
          exact ⟨rfl, by simp, .inl (removeRoute_sublist ..)⟩
        | some client =>
          rw [held] at asked
          obtain ⟨subscriptions, -, rfl⟩ := Option.map_eq_some_iff.mp asked
          obtain ⟨rfl, rfl⟩ := Prod.mk.inj same
          exact ⟨rfl, by simp, .inl (List.Sublist.refl _)⟩
  | unrouting =>
    obtain ⟨rfl, rfl⟩ := Prod.mk.inj (Option.some.inj performed)
    exact ⟨rfl, fun rest same => by rw [← Option.some.inj same]; rfl, .inl (removeRoute_sublist ..)⟩
  | unfiltering =>
    dsimp only at performed
    cases parses : parseMqttAddress address with
    | error refused => simp [parses] at performed
    | ok parsed =>
      rw [parses] at performed
      obtain ⟨rfl, rfl⟩ := Prod.mk.inj (Option.some.inj performed)
      unfold Server.unsubscribeFilter
      cases server.clients[parsed.client]? with
      | none => exact ⟨rfl, by simp, .inl (List.Sublist.refl _)⟩
      | some client => exact ⟨rfl, by simp, .inl (List.Sublist.refl _)⟩

theorem proceed_carries (backed : plane.Backed) {turn : Nat} {next : Plane} (proceeded : plane.proceed turn = some next) :
    plane.Carries next := by
  cases at_ : plane.pending[turn]? with
  | none =>
    rw [Plane.proceed, at_] at proceeded
    obtain rfl := Option.some.inj proceeded
    exact .refl backed
  | some task =>
    cases performed : perform plane.server task with
    | none => simp [Plane.proceed, at_, performed] at proceeded
    | some done =>
      obtain ⟨server, left⟩ := done
      obtain ⟨after, reached, moved⟩ := proceed_eq at_ performed
      obtain rfl := Option.some.inj (proceeded.symm.trans reached)
      obtain ⟨directory, rest, routes⟩ := perform_cases performed
      have stays : ∀ channelUuid, plane.server.Lists channelUuid → server.Lists channelUuid := by
        intro channelUuid listed
        rwa [Server.Lists, directory]
      refine ⟨backed.grows stays ?_ (fun route member => ?_) fun other member => ?_, stays⟩
      · obtain fewer | ⟨-, route, -, added⟩ := routes
        · exact backed.distinct.sublist (fewer.map _)
        · dsimp only
          rw [added]
          exact addRoute_nodup backed.distinct route
      · obtain fewer | ⟨adds, own, named, added⟩ := routes
        · exact .inl (fewer.subset member)
        · dsimp only at member
          rw [added] at member
          refine (mem_addRoute member).imp id ?_
          rintro rfl
          rw [named]
          exact stays _ (backed.activating task moved.taken adds)
      · exact (moved.mem other member).imp id fun new adds => absurd adds (by simp [rest other new])

theorem request_carries (config : Config) (backed : plane.Backed) (event : PlaneEvent) :
    plane.Carries (plane.request config event) := by
  cases event with
  | enter call =>
    obtain ⟨next, entered, carries⟩ := enter_carries config backed call
    rwa [Plane.request, entered]
  | proceed turn =>
    unfold Plane.request
    dsimp only
    cases proceeded : plane.proceed turn with
    | some next => exact proceed_carries backed proceeded
    | none =>
      refine ⟨⟨backed.distinct, backed.routed, fun task member => ?_⟩, fun _ listed => listed⟩
      exact backed.activating task (List.mem_of_mem_eraseIdx member)

end Plane

/-! ### What holds between the steps -/

/-- A delivery that has not panicked, will publish to no channel twice, and finds the channels it has still
    to look up. -/
structure Inbound.Sound (server : Server) (call : Inbound) : Prop where
  unbroken : call.panicked = false
  once : call.covered.Nodup
  listed : ∀ route ∈ call.remaining, server.Lists route.channelUuid

structure Traffic.Sound (traffic : Traffic) : Prop where
  backed : traffic.plane.Backed
  walking : ∃ ready, Prepared ready traffic.todo ∧ ∀ channelUuid ∈ ready, traffic.plane.server.Lists channelUuid
  calling : ∀ call ∈ traffic.calls, call.Sound traffic.plane.server

theorem Inbound.Sound.stays {server next : Server} {call : Inbound} (sound : call.Sound server)
    (stays : ∀ channelUuid, server.Lists channelUuid → next.Lists channelUuid) : call.Sound next :=
  ⟨sound.unbroken, sound.once, fun route member => stays _ (sound.listed route member)⟩

theorem Inbound.covered_publish (call : Inbound) : call.publish.covered = call.covered := by
  unfold Inbound.publish
  cases resolved : call.resolved with
  | none => rfl
  | some route => simp [Inbound.covered, resolved]

theorem Inbound.covered_resolve (call : Inbound) (directory : TreeMap String ChannelEntry) :
    (call.resolve directory).covered = call.covered := by
  unfold Inbound.resolve
  split
  · next _ _ _ idle remaining =>
    split
    · simp [Inbound.covered, idle, remaining]
    · rfl
  · rfl

theorem Inbound.Sound.publishes {server : Server} {call : Inbound} (sound : call.Sound server) :
    call.publish.Sound server := by
  refine ⟨?_, by rw [call.covered_publish]; exact sound.once, ?_⟩ <;>
  · unfold Inbound.publish
    split
    · first | exact sound.unbroken | exact sound.listed
    · first | exact sound.unbroken | exact sound.listed

theorem Inbound.Sound.resolves {server : Server} {call : Inbound} (sound : call.Sound server) :
    (call.resolve server.directory).Sound server := by
  have once : (call.resolve server.directory).covered.Nodup := by
    rw [call.covered_resolve]
    exact sound.once
  revert once
  unfold Inbound.resolve
  split
  · next route rest _ _ remaining =>
    have here : server.Lists route.channelUuid := sound.listed route (by rw [remaining]; exact .head _)
    rw [if_pos (Option.isSome_iff_ne_none.mpr here)]
    refine fun once => ⟨sound.unbroken, once, fun other member => sound.listed other ?_⟩
    rw [remaining]
    exact .tail _ member
  · exact fun _ => sound

theorem commit_unsubscribe {server next : Server} {clientSlug topicFilter : String}
    (committed : server.commit (.unsubscribeFilter clientSlug topicFilter) = some next) :
    next.directory = server.directory ∧ next.routes = server.routes := by
  obtain ⟨client, -, rfl⟩ := Option.map_eq_some_iff.mp committed
  exact ⟨rfl, rfl⟩

theorem commit_subscribe {server next : Server} {clientSlug topicFilter : String} {qos : Nat}
    (committed : server.commit (.subscribeFilter clientSlug topicFilter qos) = some next) :
    next.directory = server.directory ∧ next.routes = server.routes := by
  have asked := Option.join_eq_some_iff.mp committed
  unfold Server.subscribeFilter at asked
  split at asked
  · simp at asked
  · obtain ⟨subscriptions, -, same⟩ := Option.map_eq_some_iff.mp asked
    obtain rfl := Option.some.inj same
    exact ⟨rfl, rfl⟩

namespace Traffic

variable {traffic : Traffic}

theorem Sound.grows (sound : traffic.Sound) {next : Server} {todo : List Commit}
    (stays : ∀ channelUuid, traffic.plane.server.Lists channelUuid → next.Lists channelUuid)
    (distinct : (next.routes.map (·.channelUuid)).Nodup)
    (routed : ∀ route ∈ next.routes, route ∈ traffic.plane.server.routes ∨ next.Lists route.channelUuid)
    (walking : ∃ ready, Prepared ready todo ∧ ∀ channelUuid ∈ ready, next.Lists channelUuid) :
    Sound { traffic with plane := { traffic.plane with server := next }, todo := todo } :=
  ⟨sound.backed.grows stays distinct routed fun _ member => .inl member, walking,
    fun call member => (sound.calling call member).stays stays⟩

/-- A channel that leaves unrouted is missed by nobody. -/
theorem Sound.removes (sound : traffic.Sound) {channelUuid : ChannelUuid} {todo : List Commit} {ready : List ChannelUuid}
    (unrouted : traffic.Unrouted channelUuid) (absent : channelUuid ∉ ready) (prepared : Prepared ready todo)
    (listed : ∀ other ∈ ready, traffic.plane.server.Lists other) :
    Sound
      { traffic with
        plane :=
          { traffic.plane with
            server := { traffic.plane.server with directory := traffic.plane.server.directory.erase channelUuid } }
        todo := todo } := by
  have stays : ∀ other : String, other ≠ channelUuid → traffic.plane.server.Lists other →
      Server.Lists { traffic.plane.server with directory := traffic.plane.server.directory.erase channelUuid } other := by
    intro other apart listed
    unfold Server.Lists
    dsimp only
    rw [lookup_erase, if_neg (Ne.symm apart)]
    exact listed
  refine ⟨⟨sound.backed.distinct, fun route member => ?_, fun task member adds => ?_⟩, ⟨ready, prepared, ?_⟩, ?_⟩
  · exact stays _ (unrouted.1 route member) (sound.backed.routed route member)
  · refine stays _ (fun same => ?_) (sound.backed.activating task member adds)
    rw [unrouted.2.1 task member same] at adds
    simp at adds
  · intro other member
    refine stays other ?_ (listed other member)
    rintro rfl
    exact absent member
  · intro call member
    have held := sound.calling call member
    exact ⟨held.unbroken, held.once, fun route inside =>
      stays _ (unrouted.2.2 call member route inside) (held.listed route inside)⟩

theorem commit_sound (sound : traffic.Sound) {commit : Commit} {todo : List Commit} (here : traffic.todo = commit :: todo)
    (clear : ∀ channelUuid ∈ commit.removes, traffic.Unrouted channelUuid) {next : Server}
    (committed : traffic.plane.server.commit commit = some next) :
    Sound { traffic with plane := { traffic.plane with server := next }, todo := todo } := by
  obtain ⟨ready, prepared, listed⟩ := sound.walking
  rw [here] at prepared
  obtain ⟨needs, prepared⟩ := prepared
  have untouched (directory : next.directory = traffic.plane.server.directory)
      (routes : next.routes = traffic.plane.server.routes) (prepared : Prepared ready todo) :
      Sound { traffic with plane := { traffic.plane with server := next }, todo := todo } := by
    have same : ∀ channelUuid, traffic.plane.server.Lists channelUuid → next.Lists channelUuid := by
      intro channelUuid present
      rwa [Server.Lists, directory]
    exact sound.grows same (by rw [routes]; exact sound.backed.distinct) (fun route member => .inl (routes ▸ member))
      ⟨ready, prepared, fun channelUuid member => same channelUuid (listed channelUuid member)⟩
  have inserted {address : String} {entry : ChannelEntry}
      (directory : next.directory = traffic.plane.server.directory.insert address entry)
      (routes : next.routes = traffic.plane.server.routes) (gives : commit.gives = [address]) :
      Sound { traffic with plane := { traffic.plane with server := next }, todo := todo } := by
    have stays : ∀ channelUuid, traffic.plane.server.Lists channelUuid → next.Lists channelUuid := by
      intro channelUuid present
      rw [Server.Lists, directory]
      exact insert_ne_none present
    refine sound.grows stays (by rw [routes]; exact sound.backed.distinct) (fun route member => .inl (routes ▸ member))
      ⟨_, prepared, fun channelUuid member => ?_⟩
    rw [gives] at member
    obtain rfl | member := List.mem_cons.mp member
    · simp [Server.Lists, directory]
    · exact stays _ (listed channelUuid member)
  cases commit with
  | unsubscribeFilter clientSlug topicFilter =>
    obtain ⟨directory, routes⟩ := commit_unsubscribe committed
    exact untouched directory routes prepared
  | subscribeFilter clientSlug topicFilter qos =>
    obtain ⟨directory, routes⟩ := commit_subscribe committed
    exact untouched directory routes prepared
  | removeRoute channelUuid =>
    simp only [Server.commit] at committed
    split_ifs at committed
    obtain rfl := Option.some.inj committed
    have fewer := removeRoute_sublist traffic.plane.server.routes channelUuid
    exact sound.grows (fun _ present => present) (sound.backed.distinct.sublist (fewer.map _))
      (fun route member => .inl (fewer.subset member)) ⟨ready, prepared, listed⟩
  | addRoute route =>
    simp only [Server.commit] at committed
    split_ifs at committed
    obtain rfl := Option.some.inj committed
    refine sound.grows (fun _ present => present) (addRoute_nodup sound.backed.distinct route) (fun other member => ?_)
      ⟨ready, prepared, listed⟩
    refine (mem_addRoute member).imp id ?_
    rintro rfl
    exact listed _ needs
  | removeChannel channelUuid =>
    simp only [Server.commit] at committed
    split_ifs at committed
    obtain rfl := Option.some.inj committed
    exact sound.removes (clear channelUuid rfl) needs prepared listed
  | addChannel address resolvedChannel =>
    obtain ⟨directory, added, rfl⟩ := Option.map_eq_some_iff.mp committed
    unfold addChannel at added
    split_ifs at added
    exact inserted (Option.some.inj added).symm rfl rfl
  | addSubscriber channelUuid subscriber =>
    obtain ⟨directory, added, rfl⟩ := Option.map_eq_some_iff.mp committed
    obtain ⟨entry, -, joined⟩ := Option.map_eq_some_iff.mp added
    exact inserted joined.symm rfl rfl

theorem nodup_carried {routes : List IngressRoute} (distinct : (routes.map (·.channelUuid)).Nodup)
    (clientSlug topic : String) : ((routes.filter (·.carries clientSlug topic)).map (·.channelUuid)).Nodup :=
  distinct.sublist (List.filter_sublist.map _)

/-- A step that changes one delivery at most, and not for the worse. -/
theorem Sound.modifies (sound : traffic.Sound) {message : Nat} {change : Inbound → Inbound}
    (kept : ∀ call : Inbound, call.Sound traffic.plane.server → (change call).Sound traffic.plane.server) :
    Sound { traffic with calls := traffic.calls.modify message change } := by
  refine ⟨sound.backed, sound.walking, fun call member => ?_⟩
  obtain ⟨place, found⟩ := List.mem_iff_getElem?.mp member
  rw [List.getElem?_modify] at found
  obtain ⟨before, held, rfl⟩ := Option.map_eq_some_iff.mp found
  have sound_ := sound.calling before (List.mem_of_getElem? held)
  split
  · exact kept before sound_
  · exact sound_

theorem step_sound (config : Config) (sound : traffic.Sound) {event : TrafficEvent} (clear : traffic.Clear event)
    {next : Traffic} (stepped : traffic.step config event = some next) : next.Sound := by
  cases event with
  | request event =>
    obtain rfl := Option.some.inj stepped
    have carries := Plane.request_carries config sound.backed event
    obtain ⟨ready, prepared, listed⟩ := sound.walking
    exact ⟨carries.backed, ⟨ready, prepared, fun channelUuid member => carries.stays _ (listed channelUuid member)⟩,
      fun call member => (sound.calling call member).stays carries.stays⟩
  | reload delta =>
    obtain rfl := Option.some.inj stepped
    split
    · exact ⟨sound.backed, ⟨[], prepared_apply delta, by simp⟩, sound.calling⟩
    · exact sound
  | commit =>
    unfold Traffic.step at stepped
    dsimp only at stepped
    cases here : traffic.todo with
    | nil =>
      rw [here] at stepped
      obtain rfl := Option.some.inj stepped
      exact sound
    | cons commit todo =>
      rw [here] at stepped
      obtain ⟨server, committed, rfl⟩ := Option.map_eq_some_iff.mp stepped
      refine commit_sound sound here (fun channelUuid removed => ?_) committed
      refine clear channelUuid ?_
      rw [here]
      exact removed
  | deliver clientSlug topic =>
    obtain rfl := Option.some.inj stepped
    refine ⟨sound.backed, sound.walking, fun call member => ?_⟩
    obtain member | member := List.mem_append.mp member
    · exact sound.calling call member
    · rw [List.mem_singleton.mp member]
      refine ⟨rfl, by simpa [Inbound.covered] using nodup_carried sound.backed.distinct clientSlug topic, ?_⟩
      exact fun route carried => sound.backed.routed route (List.mem_of_mem_filter carried)
  | resolve message =>
    obtain rfl := Option.some.inj stepped
    exact sound.modifies fun _ held => held.resolves
  | publish message =>
    obtain rfl := Option.some.inj stepped
    exact sound.modifies fun _ held => held.publishes

theorem step_covered (config : Config) {event : TrafficEvent} {next : Traffic}
    (stepped : traffic.step config event = some next) {message : Nat} {covered : List ChannelUuid}
    (here : traffic.calls[message]?.map Inbound.covered = some covered) :
    next.calls[message]?.map Inbound.covered = some covered := by
  have modified {other : Nat} {change : Inbound → Inbound} (same : ∀ call, (change call).covered = call.covered) :
      (traffic.calls.modify other change)[message]?.map Inbound.covered = some covered := by
    rw [List.getElem?_modify, Option.map_eq_map, Option.map_map, ← here]
    congr 1
    funext call
    dsimp only [Function.comp_apply]
    split
    · exact same call
    · rfl
  cases event with
  | request event =>
    obtain rfl := Option.some.inj stepped
    exact here
  | reload delta =>
    obtain rfl := Option.some.inj stepped
    split <;> exact here
  | commit =>
    unfold Traffic.step at stepped
    dsimp only at stepped
    split at stepped
    · obtain rfl := Option.some.inj stepped
      exact here
    · obtain ⟨server, -, rfl⟩ := Option.map_eq_some_iff.mp stepped
      exact here
  | deliver clientSlug topic =>
    obtain rfl := Option.some.inj stepped
    obtain ⟨call, held, same⟩ := Option.map_eq_some_iff.mp here
    refine Option.map_eq_some_iff.mpr ⟨call, ?_, same⟩
    exact (List.getElem?_append_left (List.getElem?_eq_some_iff.mp held).1).trans held
  | resolve other =>
    obtain rfl := Option.some.inj stepped
    exact modified fun call => call.covered_resolve _
  | publish other =>
    obtain rfl := Option.some.inj stepped
    exact modified fun call => call.covered_publish

/-- Nothing is in flight, and each channel of the directory has one route at most. -/
structure Begins (traffic : Traffic) : Prop where
  idle : traffic.plane.pending = [] ∧ traffic.todo = [] ∧ traffic.calls = []
  distinct : (traffic.plane.server.routes.map (·.channelUuid)).Nodup
  routed : ∀ route ∈ traffic.plane.server.routes, traffic.plane.server.Lists route.channelUuid

theorem Begins.sound (begins : traffic.Begins) : traffic.Sound := by
  obtain ⟨pending, todo, calls⟩ := begins.idle
  refine ⟨⟨begins.distinct, begins.routed, by simp [pending]⟩, ⟨[], by simp [todo, Prepared], by simp⟩, by simp [calls]⟩

/-- If the reload takes a channel out of the directory only when no route to it is held by the table, by a
    delivery or by a subscribe under way, then no delivery panics, none publishes to a channel twice, and
    one that has finished has published once to every channel whose route matched its message. -/
theorem deliveries_survive_reloads (config : Config) {start reached : Traffic} {events : List TrafficEvent}
    (begins : start.Begins) (clear : Along (Traffic.step config) Traffic.Clear start events)
    (ran : run (Traffic.step config) start events = some reached) :
    (∀ call ∈ reached.calls, call.panicked = false ∧ ∀ channelUuid, call.published.count channelUuid ≤ 1) ∧
      ∀ before clientSlug topic after scanned, events = before ++ .deliver clientSlug topic :: after →
        run (Traffic.step config) start before = some scanned →
        ∃ call, reached.calls[scanned.calls.length]? = some call ∧
          (call.finished = true → ∀ route ∈ scanned.plane.server.routes, route.carries clientSlug topic = true →
            call.published.count route.channelUuid = 1) := by
  have kept : ∀ traffic event next, Sound traffic → traffic.Clear event → traffic.step config event = some next →
      Sound next := fun _ _ _ sound clear stepped => step_sound config sound clear stepped
  have sound := run_preserves kept begins.sound clear ran
  refine ⟨fun call member => ⟨(sound.calling call member).unbroken, fun channelUuid => ?_⟩, ?_⟩
  · have once := (sound.calling call member).once
    exact List.nodup_iff_count_le_one.mp (once.sublist (List.sublist_append_left ..)) channelUuid
  · rintro before clientSlug topic after scanned rfl reaches
    -- From the scan on, what the new delivery covers are the channels of the routes that matched.
    have covers : ∀ (traffic : Traffic) event next, Option.map Inbound.covered traffic.calls[scanned.calls.length]? =
        some ((scanned.plane.server.routes.filter (·.carries clientSlug topic)).map (·.channelUuid)) → True →
        traffic.step config event = some next → Option.map Inbound.covered next.calls[scanned.calls.length]? =
          some ((scanned.plane.server.routes.filter (·.carries clientSlug topic)).map (·.channelUuid)) :=
      fun _ _ _ here _ stepped => step_covered config stepped here
    rw [run_append, reaches, Option.bind_some, run_cons_eq_some] at ran
    obtain ⟨next, scans, rest⟩ := ran
    obtain rfl := Option.some.inj scans
    have here := run_preserves covers (by simp [Traffic.deliver, Inbound.covered])
      (along_of_forall (fun _ _ => trivial) _ _) rest
    obtain ⟨call, held, covered⟩ := Option.map_eq_some_iff.mp here
    refine ⟨call, held, fun finished route member carried => ?_⟩
    obtain ⟨looked, waiting⟩ : call.remaining = [] ∧ call.resolved = none := by
      simpa [Inbound.finished] using finished
    have all : call.covered = call.published := by simp [Inbound.covered, looked, waiting]
    have once := (sound.calling call (List.mem_of_getElem? held)).once
    rw [all] at covered once
    refine List.count_eq_one_of_mem once ?_
    rw [covered]
    exact List.mem_map_of_mem (List.mem_filter.mpr ⟨member, carried⟩)

/-! ### A lamp and everything else -/

private def lampRoute : IngressRoute := ⟨"home", "lamp", "mqtt:home:lamp", "mqtt:home:lamp", .normal⟩

private def homeRoute : IngressRoute := ⟨"home", "#", "mqtt:home:#", "mqtt:home:#", .normal⟩

private def lampAndHome : Traffic where
  plane :=
    ⟨{ directory := ((∅ : TreeMap String ChannelEntry).insert "mqtt:home:lamp"
          ⟨resolveSystemChannel household "mqtt:home:lamp", []⟩).insert "mqtt:home:#"
            ⟨resolveSystemChannel household "mqtt:home:#", []⟩
       rows := ∅
       positions := []
       routes := [lampRoute, homeRoute]
       clients := (∅ : TreeMap String MqttClient).insert "home" ⟨1, .normal, [⟨"lamp", 1, 1⟩, ⟨"#", 1, 2⟩]⟩ }, []⟩
  todo := []
  calls := []

private theorem lampAndHome_begins : lampAndHome.Begins := by
  refine ⟨⟨rfl, rfl, rfl⟩, by decide, ?_⟩
  intro route member
  refine Option.isSome_iff_ne_none.mp ?_
  obtain rfl | rfl : route = lampRoute ∨ route = homeRoute := by simpa [lampAndHome] using member
  · decide +kernel
  · decide +kernel

private def dropLamp : PlanDelta where
  filtersLeaving := [("home", "lamp")]
  leaving := ["mqtt:home:lamp"]
  revoked := []
  joining := []
  revived := []
  revivedRoutes := []
  filtersJoining := []
  backed := by simp

/-- A message before the reload goes to both channels, one after it to the channel that is left. -/
theorem lamp_dropped_between_messages : ∃ reached,
    run (Traffic.step household) lampAndHome
      [.deliver "home" "lamp", .resolve 0, .publish 0, .resolve 0, .reload dropLamp, .commit, .commit, .commit,
        .publish 0, .deliver "home" "lamp", .resolve 1, .publish 1] = some reached ∧
      (∀ call ∈ reached.calls, call.panicked = false ∧ ∀ channelUuid, call.published.count channelUuid ≤ 1) ∧
      ∃ call, reached.calls[0]? = some call ∧ (call.finished = true → ∀ route ∈ lampAndHome.plane.server.routes,
        route.carries "home" "lamp" = true → call.published.count route.channelUuid = 1) := by
  obtain ⟨reached, ran⟩ := Option.isSome_iff_exists.mp (show (run (Traffic.step household) lampAndHome
    [.deliver "home" "lamp", .resolve 0, .publish 0, .resolve 0, .reload dropLamp, .commit, .commit, .commit,
      .publish 0, .deliver "home" "lamp", .resolve 1, .publish 1]).isSome = true by decide +kernel)
  obtain ⟨safe, exact_⟩ := deliveries_survive_reloads household lampAndHome_begins (by decide +kernel) ran
  exact ⟨reached, ran, safe, exact_ [] "home" "lamp" _ lampAndHome rfl rfl⟩

/-- A delivery that holds the lamp's route when the reload drops the channel panics, and the channel next in
    line goes without the message. And a subscribe on the lamp that puts the route back behind the reload
    leaves it there without its channel, for the next message to panic on. -/
theorem dropped_channel_panics : lampAndHome.Begins ∧
    (∃ reached, run (Traffic.step household) lampAndHome
        [.deliver "home" "lamp", .reload dropLamp, .commit, .commit, .commit, .resolve 0] = some reached ∧
      reached.calls = [⟨[lampRoute, homeRoute], none, [], true⟩] ∧ homeRoute ∈ reached.plane.server.routes ∧
      reached.plane.server.directory[homeRoute.channelUuid]?.isSome = true) ∧
    ∃ reached, run (Traffic.step household) lampAndHome
        [.request (.enter (.subscribe .live "porch" "mqtt:home:lamp" (pullOnly none))), .reload dropLamp, .commit,
          .commit, .request (.proceed 0), .commit, .deliver "home" "lamp", .resolve 0, .publish 0, .resolve 0] =
        some reached ∧
      reached.todo = [] ∧ reached.calls = [⟨[lampRoute], none, ["mqtt:home:#"], true⟩] := by
  refine ⟨lampAndHome_begins, ?_, ?_⟩
  · obtain ⟨reached, ran, facts⟩ : ∃ reached, run (Traffic.step household) lampAndHome
        [.deliver "home" "lamp", .reload dropLamp, .commit, .commit, .commit, .resolve 0] = some reached ∧
        decide (reached.calls = [⟨[lampRoute, homeRoute], none, [], true⟩] ∧
          homeRoute ∈ reached.plane.server.routes ∧
          reached.plane.server.directory[homeRoute.channelUuid]?.isSome = true) = true :=
      Option.map_eq_some_iff.mp (by decide +kernel)
    exact ⟨reached, ran, of_decide_eq_true facts⟩
  · obtain ⟨reached, ran, facts⟩ : ∃ reached, run (Traffic.step household) lampAndHome
        [.request (.enter (.subscribe .live "porch" "mqtt:home:lamp" (pullOnly none))), .reload dropLamp, .commit,
          .commit, .request (.proceed 0), .commit, .deliver "home" "lamp", .resolve 0, .publish 0, .resolve 0] =
        some reached ∧
        decide (reached.todo = [] ∧ reached.calls = [⟨[lampRoute], none, ["mqtt:home:#"], true⟩]) = true :=
      Option.map_eq_some_iff.mp (by decide +kernel)
    exact ⟨reached, ran, of_decide_eq_true facts⟩

end Traffic

end Brenn.Mqtt
