import Brenn.Mqtt.Requests

/-!
Interleaved subscribe and unsubscribe requests.

Only the core section of a request runs under the gate. The route and the filter follow in two
further steps that other requests may run between. The decision to tear down is made in the core:
a subscriber that arrives after it is not seen.
-/

namespace Brenn.Mqtt
open Brenn.Access Brenn.Store Brenn.Lib Std

/-- What a request past its core section does next to its channel. -/
inductive Stage where
  | routing (qos : Option Nat)
  | filtering (qos : Option Nat)
  | unrouting
  | unfiltering
  deriving Repr, DecidableEq

def Stage.tears : Stage → Bool
  | .routing _ | .filtering _ => false
  | .unrouting | .unfiltering => true

structure Task where
  address : String
  stage : Stage
  deriving Repr, DecidableEq

structure Plane where
  server : Server
  /-- The requests past their core section that have not returned. -/
  pending : List Task

inductive PlaneEvent where
  | enter (call : Call)
  | proceed (turn : Nat)

namespace Plane

variable (config : Config) (plane : Plane)

def enter : Call → Option Plane
  | .subscribe _ appSlug address params =>
    match plane.server.admitSubscribe config appSlug address params with
    | .error _ => some plane
    | .ok params =>
      (plane.server.subscribeDynamic config appSlug address params).map fun
        | (.ok (.created _), next) => ⟨next, plane.pending ++ [⟨address, .routing params.qos⟩]⟩
        | (_, next) => ⟨next, plane.pending⟩
  | .unsubscribe _ appSlug address =>
    (plane.server.unsubscribeDynamic config appSlug address).map fun
      | (.error _, next) => ⟨next, plane.pending⟩
      | (.ok outcome, next) =>
        if outcome.wasDormant ∨ outcome.stillSubscribed then ⟨next, plane.pending⟩
        else ⟨next, plane.pending ++ [⟨address, .unrouting⟩]⟩

/-- One further step of a request: the state after, and what the request still has to do. -/
def perform (server : Server) (task : Task) : Option (Server × Option Task) :=
  match task.stage with
  | .routing qos =>
    match parseMqttAddress task.address with
    | .error _ => none
    | .ok parsed =>
      match server.clients[parsed.client]? with
      | none => some (server, none)
      | some client =>
        let route := ⟨parsed.client, parsed.topic, task.address, task.address, client.urgency⟩
        some ({ server with routes := (addRoute server.routes route).2 }, some ⟨task.address, .filtering qos⟩)
  | .filtering qos =>
    match parseMqttAddress task.address, qos with
    | .ok parsed, some qos =>
      (server.subscribeFilter parsed.client parsed.topic qos).map fun
        | some next => (next, none)
        | none => ({ server with routes := (removeRoute server.routes task.address).2 }, none)
    | _, _ => none
  | .unrouting =>
    some ({ server with routes := (removeRoute server.routes task.address).2 }, some ⟨task.address, .unfiltering⟩)
  | .unfiltering =>
    match parseMqttAddress task.address with
    | .error _ => none
    | .ok parsed => some ((server.unsubscribeFilter parsed.client parsed.topic).getD server, none)

def proceed (turn : Nat) : Option Plane :=
  match plane.pending[turn]? with
  | none => some plane
  | some task =>
    (perform plane.server task).map fun
      | (next, some task) => ⟨next, plane.pending.set turn task⟩
      | (next, none) => ⟨next, plane.pending.eraseIdx turn⟩

def step : PlaneEvent → Option Plane
  | .enter call => plane.enter config call
  | .proceed turn => plane.proceed turn

end Plane

/-! ### Agreement -/

namespace Server

variable (server : Server)

/-- How often the session of an address's client holds its filter. -/
def filtersFor (address : String) : Nat := server.atFilter countOf 0 address

/-- How often a channel should be routed and held: once if it has a subscriber. -/
def carried (address : String) : Nat := if server.subscribersOf address = [] then 0 else 1

/-- Directory, route table and session say the same of a channel. -/
def Agrees (address : String) : Prop :=
  routesTo server.routes address = server.carried address ∧ server.filtersFor address = server.carried address

end Server

namespace Plane

variable (plane : Plane)

/-- A channel is not joined while it is being torn down, and not left by its last subscriber while it is
    being activated. -/
def Clear : PlaneEvent → Prop
  | .enter (.subscribe _ _ address _) => ∀ task ∈ plane.pending, task.address = address → task.stage.tears = false
  | .enter (.unsubscribe _ appSlug address) =>
    (∀ held ∈ plane.server.subscribersOf address, held.kind = .app appSlug) →
      ∀ task ∈ plane.pending, task.address = address → task.stage.tears = true
  | .proceed _ => True

def AsksFor (qos : String → Nat) : PlaneEvent → Prop
  | .enter (.subscribe _ _ address params) =>
    ∀ own ∈ plane.server.ownQos address, params.qos.getD own = qos address
  | .enter (.unsubscribe ..) | .proceed _ => True

instance (event : PlaneEvent) : Decidable (plane.Clear event) :=
  match event with
  | .enter (.subscribe _ _ address _) =>
    inferInstanceAs (Decidable (∀ task ∈ plane.pending, task.address = address → task.stage.tears = false))
  | .enter (.unsubscribe _ appSlug address) =>
    inferInstanceAs (Decidable ((∀ held ∈ plane.server.subscribersOf address, held.kind = .app appSlug) →
      ∀ task ∈ plane.pending, task.address = address → task.stage.tears = true))
  | .proceed _ => inferInstanceAs (Decidable True)

instance (qos : String → Nat) (event : PlaneEvent) : Decidable (plane.AsksFor qos event) :=
  match event with
  | .enter (.subscribe _ _ address params) =>
    inferInstanceAs (Decidable (∀ own ∈ plane.server.ownQos address, params.qos.getD own = qos address))
  | .enter (.unsubscribe ..) | .proceed _ => inferInstanceAs (Decidable True)

/-- What holds of a channel between the steps of the requests on it. -/
structure Settled (address : String) : Prop where
  routesLe : routesTo plane.server.routes address ≤ 1
  filtersLe : plane.server.filtersFor address ≤ 1
  active : ∀ task ∈ plane.pending, task.address = address → task.stage.tears = false →
    plane.server.subscribersOf address ≠ []
  torn : ∀ task ∈ plane.pending, task.address = address → task.stage.tears = true →
    plane.server.subscribersOf address = []
  routed : plane.server.subscribersOf address ≠ [] → routesTo plane.server.routes address = 1 ∨
    ∃ qos, ⟨address, .routing qos⟩ ∈ plane.pending
  held : plane.server.subscribersOf address ≠ [] → plane.server.filtersFor address = 1 ∨
    ∃ task ∈ plane.pending, task.address = address
  unrouted : plane.server.subscribersOf address = [] → routesTo plane.server.routes address = 0 ∨
    ⟨address, .unrouting⟩ ∈ plane.pending
  unheld : plane.server.subscribersOf address = [] → plane.server.filtersFor address = 0 ∨
    ∃ task ∈ plane.pending, task.address = address

/-- Addresses parse, and every filter is held and asked for at its one qos. -/
structure Ready (qos : String → Nat) : Prop where
  listed : ∀ address : String, plane.server.directory[address]? ≠ none → ∃ parsed, parseMqttAddress address = .ok parsed
  filtered : ∀ address present, plane.server.filterQos address = some present → present = qos address
  named : ∀ task ∈ plane.pending, ∃ parsed, parseMqttAddress task.address = .ok parsed
  asked : ∀ task ∈ plane.pending, ∀ stated, task.stage = .routing stated ∨ task.stage = .filtering stated →
    stated = some (qos task.address)

structure Sound (qos : String → Nat) : Prop where
  ready : plane.Ready qos
  settled : ∀ address, plane.server.ownQos address ≠ none → plane.Settled address

end Plane

/-! ### Taking a pending request a step further -/

/-- One task has been taken out of the pending ones, and what is left of it put in. -/
structure Moved (pending : List Task) (task : Task) (left : Option Task) (after : List Task) : Prop where
  taken : task ∈ pending
  mem : ∀ other ∈ after, other ∈ pending ∨ left = some other
  kept : ∀ other ∈ pending, other ≠ task → other ∈ after
  new : ∀ other, left = some other → other ∈ after

theorem moved_set {pending : List Task} {turn : Nat} {task : Task} (at_ : pending[turn]? = some task) (left : Task) :
    Moved pending task (some left) (pending.set turn left) := by
  obtain ⟨inside, rfl⟩ := List.getElem?_eq_some_iff.mp at_
  refine ⟨List.getElem_mem inside, fun other member => ?_, fun other member apart => ?_, fun other same => ?_⟩
  · exact (List.mem_or_eq_of_mem_set member).imp id fun same => by rw [same]
  · obtain ⟨place, bound, rfl⟩ := List.mem_iff_getElem.mp member
    have elsewhere : turn ≠ place := fun same => apart (by simp [same])
    exact List.mem_iff_getElem.mpr ⟨place, by simpa using bound, by rw [List.getElem_set_ne elsewhere]⟩
  · rw [← Option.some.inj same]
    exact List.mem_set inside left

theorem moved_eraseIdx {pending : List Task} {turn : Nat} {task : Task} (at_ : pending[turn]? = some task) :
    Moved pending task none (pending.eraseIdx turn) := by
  obtain ⟨inside, rfl⟩ := List.getElem?_eq_some_iff.mp at_
  refine ⟨List.getElem_mem inside, fun other member => ?_, fun other member apart => ?_, fun other same => ?_⟩
  · exact .inl (List.mem_of_mem_eraseIdx member)
  · obtain ⟨place, found⟩ := List.mem_iff_getElem?.mp member
    refine List.mem_eraseIdx_iff_getElem?.mpr ⟨place, ?_, found⟩
    rintro rfl
    rw [List.getElem?_eq_getElem inside] at found
    exact apart (Option.some.inj found).symm
  · simp at same

theorem proceed_eq {plane : Plane} {turn : Nat} {task : Task} (at_ : plane.pending[turn]? = some task) {next : Server}
    {left : Option Task} (performed : Plane.perform plane.server task = some (next, left)) :
    ∃ after, plane.proceed turn = some ⟨next, after⟩ ∧ Moved plane.pending task left after := by
  unfold Plane.proceed
  rw [at_]
  dsimp only
  rw [performed, Option.map_some]
  cases left with
  | none => exact ⟨_, rfl, moved_eraseIdx at_⟩
  | some left => exact ⟨_, rfl, moved_set at_ left⟩

/-- A channel whose emptiness, route, filter and pending requests a step did not touch is settled as before. -/
theorem Plane.Settled.congr {plane next : Plane} {address : String} (settled : plane.Settled address)
    (subscribers : next.server.subscribersOf address = [] ↔ plane.server.subscribersOf address = [])
    (routes : routesTo next.server.routes address = routesTo plane.server.routes address)
    (filters : next.server.filtersFor address = plane.server.filtersFor address)
    (tasks : ∀ task : Task, task.address = address → (task ∈ next.pending ↔ task ∈ plane.pending)) :
    next.Settled address := by
  have some : (∃ task ∈ plane.pending, task.address = address) → ∃ task ∈ next.pending, task.address = address :=
    fun ⟨task, member, here⟩ => ⟨task, (tasks task here).mpr member, here⟩
  constructor
  · rw [routes]; exact settled.routesLe
  · rw [filters]; exact settled.filtersLe
  · intro task member here
    rw [Ne, subscribers]
    exact settled.active task ((tasks task here).mp member) here
  · intro task member here
    rw [subscribers]
    exact settled.torn task ((tasks task here).mp member) here
  · rw [Ne, subscribers, routes]
    exact fun present => (settled.routed present).imp id fun ⟨qos, member⟩ => ⟨qos, (tasks _ rfl).mpr member⟩
  · rw [Ne, subscribers, filters]
    exact fun present => (settled.held present).imp id some
  · rw [subscribers, routes]
    exact fun absent => (settled.unrouted absent).imp id (tasks _ rfl).mpr
  · rw [subscribers, filters]
    exact fun absent => (settled.unheld absent).imp id some

theorem Moved.elsewhere {pending after : List Task} {task : Task} {left : Option Task}
    (moved : Moved pending task left after) (home : ∀ rest, left = some rest → rest.address = task.address) (other : Task)
    (apart : other.address ≠ task.address) : other ∈ after ↔ other ∈ pending := by
  refine ⟨fun member => ?_, fun member => moved.kept other member fun same => apart (by rw [same])⟩
  exact (moved.mem other member).resolve_right fun rest => apart (home other rest)

/-- A step that touches one channel keeps the plane sound if it leaves that channel settled. -/
theorem Plane.Sound.moves {plane : Plane} {qos : String → Nat} (sound : plane.Sound qos) {task : Task}
    {left : Option Task} {next : Server} {after : List Task} (moved : Moved plane.pending task left after)
    (home : ∀ rest, left = some rest → rest.address = task.address ∧
      ∀ stated, rest.stage = .routing stated ∨ rest.stage = .filtering stated → stated = some (qos rest.address))
    (directory : next.directory = plane.server.directory) (own : ∀ other, next.ownQos other = plane.server.ownQos other)
    (filtered : ∀ other present, next.filterQos other = some present → present = qos other)
    (routes : ∀ other, other ≠ task.address → routesTo next.routes other = routesTo plane.server.routes other)
    (filters : ∀ other, other ≠ task.address → next.filtersFor other = plane.server.filtersFor other)
    (here : plane.server.ownQos task.address ≠ none → plane.Settled task.address →
      Plane.Settled ⟨next, after⟩ task.address) : Plane.Sound ⟨next, after⟩ qos := by
  refine ⟨⟨fun other listed => ?_, filtered, fun other member => ?_, fun other member stated => ?_⟩,
    fun other registered => ?_⟩
  · rw [directory] at listed
    exact sound.ready.listed other listed
  · obtain member | rest := moved.mem other member
    · exact sound.ready.named other member
    · rw [(home other rest).1]
      exact sound.ready.named task moved.taken
  · obtain member | rest := moved.mem other member
    · exact sound.ready.asked other member stated
    · exact (home other rest).2 stated
  · rw [own] at registered
    by_cases same : other = task.address
    · subst same
      exact here registered (sound.settled _ registered)
    · refine (sound.settled other registered).congr (by rw [subscribersOf_of_directory directory]) (routes other same)
        (filters other same) fun one at_ => ?_
      exact moved.elsewhere (fun rest is => (home rest is).1) one (by rw [at_]; exact same)

theorem Plane.Settled.routes {plane : Plane} {task : Task} {stated : Option Nat} {next : Server} {after : List Task}
    (settled : plane.Settled task.address) (stage : task.stage = .routing stated)
    (moved : Moved plane.pending task (some ⟨task.address, .filtering stated⟩) after)
    (subscribers : next.subscribersOf task.address = plane.server.subscribersOf task.address)
    (routed : routesTo next.routes task.address = max 1 (routesTo plane.server.routes task.address))
    (filters : next.filtersFor task.address = plane.server.filtersFor task.address) :
    Plane.Settled ⟨next, after⟩ task.address := by
  have present := settled.active task moved.taken rfl (by rw [stage]; rfl)
  have once : routesTo next.routes task.address = 1 := by
    have := settled.routesLe
    omega
  have rest : (⟨task.address, .filtering stated⟩ : Task) ∈ after := moved.new _ rfl
  constructor
  · exact once.le
  · exact filters.trans_le settled.filtersLe
  · exact fun _ _ _ _ => subscribers ▸ present
  · intro other member at_ tears
    obtain member | same := moved.mem other member
    · exact subscribers ▸ settled.torn other member at_ tears
    · rw [← Option.some.inj same] at tears
      simp [Stage.tears] at tears
  · exact fun _ => .inl once
  · exact fun _ => .inr ⟨_, rest, rfl⟩
  · exact fun absent => absurd (subscribers ▸ absent) present
  · exact fun absent => absurd (subscribers ▸ absent) present

theorem Plane.Settled.filters {plane : Plane} {task : Task} {stated : Option Nat} {next : Server} {after : List Task}
    (settled : plane.Settled task.address) (stage : task.stage = .filtering stated)
    (moved : Moved plane.pending task none after)
    (subscribers : next.subscribersOf task.address = plane.server.subscribersOf task.address)
    (routes : next.routes = plane.server.routes)
    (filtered : next.filtersFor task.address = max 1 (plane.server.filtersFor task.address)) :
    Plane.Settled ⟨next, after⟩ task.address := by
  have present := settled.active task moved.taken rfl (by rw [stage]; rfl)
  have once : next.filtersFor task.address = 1 := by
    have := settled.filtersLe
    omega
  have before (other : Task) (member : other ∈ after) : other ∈ plane.pending :=
    (moved.mem other member).resolve_right (by simp)
  constructor
  · exact routes ▸ settled.routesLe
  · exact once.le
  · exact fun _ _ _ _ => subscribers ▸ present
  · exact fun other member at_ tears => subscribers ▸ settled.torn other (before other member) at_ tears
  · intro still
    refine (settled.routed present).imp (fun one => routes ▸ one) fun ⟨qos, member⟩ => ⟨qos, moved.kept _ member ?_⟩
    exact fun same => absurd ((congrArg Task.stage same).trans stage) (by simp)
  · exact fun _ => .inl once
  · exact fun absent => absurd (subscribers ▸ absent) present
  · exact fun absent => absurd (subscribers ▸ absent) present

theorem Plane.Settled.unroutes {plane : Plane} {task : Task} {next : Server} {after : List Task}
    (settled : plane.Settled task.address) (stage : task.stage = .unrouting)
    (moved : Moved plane.pending task (some ⟨task.address, .unfiltering⟩) after)
    (subscribers : next.subscribersOf task.address = plane.server.subscribersOf task.address)
    (unrouted : routesTo next.routes task.address = 0)
    (filters : next.filtersFor task.address = plane.server.filtersFor task.address) :
    Plane.Settled ⟨next, after⟩ task.address := by
  have absent := settled.torn task moved.taken rfl (by rw [stage]; rfl)
  have rest : (⟨task.address, .unfiltering⟩ : Task) ∈ after := moved.new _ rfl
  constructor
  · exact unrouted.le.trans (Nat.zero_le 1)
  · exact filters.trans_le settled.filtersLe
  · intro other member at_ tears
    obtain member | same := moved.mem other member
    · exact subscribers ▸ settled.active other member at_ tears
    · rw [← Option.some.inj same] at tears
      simp [Stage.tears] at tears
  · exact fun _ _ _ _ => subscribers ▸ absent
  · exact fun present => absurd (subscribers ▸ absent) present
  · exact fun present => absurd (subscribers ▸ absent) present
  · exact fun _ => .inl unrouted
  · exact fun _ => .inr ⟨_, rest, rfl⟩

theorem Plane.Settled.unfilters {plane : Plane} {task : Task} {next : Server} {after : List Task}
    (settled : plane.Settled task.address) (stage : task.stage = .unfiltering)
    (moved : Moved plane.pending task none after)
    (subscribers : next.subscribersOf task.address = plane.server.subscribersOf task.address)
    (routes : next.routes = plane.server.routes) (unheld : next.filtersFor task.address = 0) :
    Plane.Settled ⟨next, after⟩ task.address := by
  have absent := settled.torn task moved.taken rfl (by rw [stage]; rfl)
  have before (other : Task) (member : other ∈ after) : other ∈ plane.pending :=
    (moved.mem other member).resolve_right (by simp)
  constructor
  · exact routes ▸ settled.routesLe
  · exact unheld.le.trans (Nat.zero_le 1)
  · exact fun other member at_ tears => subscribers ▸ settled.active other (before other member) at_ tears
  · exact fun _ _ _ _ => subscribers ▸ absent
  · exact fun present => absurd (subscribers ▸ absent) present
  · exact fun present => absurd (subscribers ▸ absent) present
  · intro _
    refine (settled.unrouted absent).imp (fun none => routes ▸ none) fun member => moved.kept _ member ?_
    exact fun same => absurd ((congrArg Task.stage same).trans stage) (by simp)
  · exact fun _ => .inl unheld

theorem ownQos_eq_none {server : Server} {address : String} {parsed : MqttAddress}
    (accepted : parseMqttAddress address = .ok parsed) :
    server.ownQos address = none ↔ server.clients[parsed.client]? = none := by
  rw [Server.ownQos, Server.clientOf, accepted, Option.map_eq_none_iff]

theorem filterQos_set {server : Server} {address : String} {parsed : MqttAddress}
    (accepted : parseMqttAddress address = .ok parsed) {client : MqttClient}
    (held : server.clients[parsed.client]? = some client) {subscriptions : List IngressSubscription} {value : Option Nat}
    (moved : ∀ topic, qosOf subscriptions topic = if topic = parsed.topic then value else qosOf client.subscriptions topic)
    (other : String) : (server.setSubscriptions parsed.client client subscriptions).filterQos other =
      if other = address then value else server.filterQos other :=
  atFilter_insert accepted held moved rfl other

theorem filtersFor_set {server : Server} {address : String} {parsed : MqttAddress}
    (accepted : parseMqttAddress address = .ok parsed) {client : MqttClient}
    (held : server.clients[parsed.client]? = some client) {subscriptions : List IngressSubscription} {value : Nat}
    (moved : ∀ topic, countOf subscriptions topic =
      if topic = parsed.topic then value else countOf client.subscriptions topic)
    (other : String) : (server.setSubscriptions parsed.client client subscriptions).filtersFor other =
      if other = address then value else server.filtersFor other :=
  atFilter_insert accepted held moved rfl other

/-! ### Every pending request goes on -/

section Proceeds

variable {plane : Plane} {qos : String → Nat} {task : Task}

/-- The next step of a pending request does not panic and keeps the plane sound. -/
def Plane.Proceeds (plane : Plane) (qos : String → Nat) (task : Task) : Prop :=
  ∃ next left, Plane.perform plane.server task = some (next, left) ∧
    ∀ after, Moved plane.pending task left after → Plane.Sound ⟨next, after⟩ qos

theorem routing_proceeds (sound : plane.Sound qos) (member : task ∈ plane.pending) {stated : Option Nat}
    (stage : task.stage = .routing stated) : plane.Proceeds qos task := by
  obtain ⟨parsed, accepted⟩ := sound.ready.named task member
  have asked := sound.ready.asked task member stated (.inl stage)
  unfold Plane.Proceeds Plane.perform
  rw [stage, accepted]
  dsimp only
  cases registered : plane.server.clients[parsed.client]? with
  | none =>
    refine ⟨_, _, rfl, fun after moved => sound.moves moved (by simp) rfl (fun _ => rfl) sound.ready.filtered
      (fun _ _ => rfl) (fun _ _ => rfl) fun present => ?_⟩
    exact absurd ((ownQos_eq_none accepted).mpr registered) present
  | some client =>
    refine ⟨_, _, rfl, fun after moved => sound.moves moved ?_ rfl (fun _ => rfl) sound.ready.filtered
      (fun other apart => ?_) (fun _ _ => rfl) fun _ settled => ?_⟩
    · rintro rest same
      obtain rfl := Option.some.inj same
      refine ⟨rfl, fun also is => ?_⟩
      obtain rfl : stated = also := by simpa using is
      exact asked
    · rw [routesTo_add, if_neg apart]
    · exact settled.routes stage moved rfl (by rw [routesTo_add, if_pos rfl]) rfl

theorem filtering_proceeds (sound : plane.Sound qos) (member : task ∈ plane.pending) {stated : Option Nat}
    (stage : task.stage = .filtering stated) : plane.Proceeds qos task := by
  obtain ⟨parsed, accepted⟩ := sound.ready.named task member
  obtain rfl := sound.ready.asked task member stated (.inr stage)
  unfold Plane.Proceeds Plane.perform Server.subscribeFilter
  rw [stage, accepted]
  dsimp only
  cases registered : plane.server.clients[parsed.client]? with
  | none =>
    refine ⟨_, _, rfl, fun after moved => sound.moves moved (by simp) rfl (fun _ => rfl) sound.ready.filtered
      (fun other apart => by rw [routesTo_remove, if_neg apart]) (fun _ _ => rfl) fun present => ?_⟩
    exact absurd ((ownQos_eq_none accepted).mpr registered) present
  | some client =>
    -- The filter is absent or held at the one qos asked for.
    obtain ⟨subscriptions, added⟩ : ∃ subscriptions,
        addSubscription client.subscriptions parsed.topic (qos task.address) = some subscriptions := by
      rw [addSubscription_eq]
      cases present : qosOf client.subscriptions parsed.topic with
      | none => exact ⟨_, rfl⟩
      | some at_ =>
        have held : plane.server.filterQos task.address = some at_ := (atFilter_held accepted registered).trans present
        exact ⟨_, if_pos (sound.ready.filtered task.address at_ held)⟩
    dsimp only
    rw [added]
    have counted (topic : String) : countOf subscriptions topic = if topic = parsed.topic then
        max 1 (countOf client.subscriptions parsed.topic) else countOf client.subscriptions topic := by
      rw [countOf_add added]
      split
      · next same => rw [same]
      · rfl
    refine ⟨_, _, rfl, fun after moved => sound.moves moved (by simp) rfl (ownQos_insert registered rfl) ?_
      (fun _ _ => rfl) (fun other apart => ?_) fun _ settled => settled.filters stage moved rfl rfl ?_⟩
    · intro other present filtered
      rw [filterQos_set accepted registered (qosOf_add added)] at filtered
      split at filtered
      · next same => rw [same]; exact (Option.some.inj filtered).symm
      · exact sound.ready.filtered other present filtered
    · rw [filtersFor_set accepted registered counted, if_neg apart]
    · rw [filtersFor_set accepted registered counted, if_pos rfl, Server.filtersFor, atFilter_held accepted registered]

theorem unrouting_proceeds (sound : plane.Sound qos) (stage : task.stage = .unrouting) : plane.Proceeds qos task := by
  unfold Plane.Proceeds Plane.perform
  rw [stage]
  refine ⟨_, _, rfl, fun after moved => sound.moves moved ?_ rfl (fun _ => rfl) sound.ready.filtered
    (fun other apart => by rw [routesTo_remove, if_neg apart]) (fun _ _ => rfl) fun _ settled => ?_⟩
  · rintro rest same
    obtain rfl := Option.some.inj same
    exact ⟨rfl, by simp⟩
  · exact settled.unroutes stage moved rfl (by rw [routesTo_remove, if_pos rfl]) rfl

theorem unfiltering_proceeds (sound : plane.Sound qos) (member : task ∈ plane.pending)
    (stage : task.stage = .unfiltering) : plane.Proceeds qos task := by
  obtain ⟨parsed, accepted⟩ := sound.ready.named task member
  unfold Plane.Proceeds Plane.perform Server.unsubscribeFilter
  rw [stage, accepted]
  dsimp only
  cases registered : plane.server.clients[parsed.client]? with
  | none =>
    refine ⟨_, _, rfl, fun after moved => sound.moves moved (by simp) rfl (fun _ => rfl) sound.ready.filtered
      (fun _ _ => rfl) (fun _ _ => rfl) fun present => ?_⟩
    exact absurd ((ownQos_eq_none accepted).mpr registered) present
  | some client =>
    have counted := countOf_remove client.subscriptions parsed.topic
    refine ⟨_, _, rfl, fun after moved => sound.moves moved (by simp) rfl (ownQos_insert registered rfl) ?_
      (fun _ _ => rfl) (fun other apart => ?_) fun _ settled => settled.unfilters stage moved rfl rfl ?_⟩
    · intro other present filtered
      rw [Option.map_some, Option.getD_some, filterQos_set accepted registered (qosOf_remove _ _)] at filtered
      split at filtered
      · simp at filtered
      · exact sound.ready.filtered other present filtered
    · rw [Option.map_some, Option.getD_some, filtersFor_set accepted registered counted, if_neg apart]
    · rw [Option.map_some, Option.getD_some, filtersFor_set accepted registered counted, if_pos rfl]

theorem pending_proceeds (sound : plane.Sound qos) (member : task ∈ plane.pending) : plane.Proceeds qos task := by
  cases stage : task.stage with
  | routing stated => exact routing_proceeds sound member stage
  | filtering stated => exact filtering_proceeds sound member stage
  | unrouting => exact unrouting_proceeds sound stage
  | unfiltering => exact unfiltering_proceeds sound member stage

end Proceeds

/-! ### The core sections -/

section Enter

variable {plane : Plane} {qos : String → Nat} {address : String} {next : Server}

/-- A channel that no pending request is tearing down is joined. -/
theorem Plane.Settled.joins (settled : plane.Settled address)
    (clear : ∀ task ∈ plane.pending, task.address = address → task.stage.tears = false)
    (present : next.subscribersOf address ≠ []) (routes : next.routes = plane.server.routes)
    (filters : next.filtersFor address = plane.server.filtersFor address) (stated : Option Nat) :
    Plane.Settled ⟨next, plane.pending ++ [⟨address, .routing stated⟩]⟩ address := by
  have joined : (⟨address, .routing stated⟩ : Task) ∈ plane.pending ++ [⟨address, .routing stated⟩] :=
    List.mem_append_right _ (List.mem_singleton_self _)
  constructor
  · exact routes ▸ settled.routesLe
  · exact filters.trans_le settled.filtersLe
  · exact fun _ _ _ _ => present
  · intro task member here tears
    obtain member | new := List.mem_append.mp member
    · rw [clear task member here] at tears
      simp at tears
    · rw [List.mem_singleton.mp new] at tears
      simp [Stage.tears] at tears
  · exact fun _ => .inr ⟨stated, joined⟩
  · exact fun _ => .inr ⟨_, joined, rfl⟩
  · exact fun absent => absurd absent present
  · exact fun absent => absurd absent present

/-- A channel that no pending request is at work on is left by its last subscriber. -/
theorem Plane.Settled.leaves (settled : plane.Settled address) (present : plane.server.subscribersOf address ≠ [])
    (clear : ∀ task ∈ plane.pending, task.address = address → task.stage.tears = true)
    (absent : next.subscribersOf address = []) (routes : next.routes = plane.server.routes)
    (filters : next.filtersFor address = plane.server.filtersFor address) :
    Plane.Settled ⟨next, plane.pending ++ [⟨address, .unrouting⟩]⟩ address := by
  have left : (⟨address, .unrouting⟩ : Task) ∈ plane.pending ++ [⟨address, .unrouting⟩] :=
    List.mem_append_right _ (List.mem_singleton_self _)
  constructor
  · exact routes ▸ settled.routesLe
  · exact filters.trans_le settled.filtersLe
  · intro task member here activates
    obtain member | new := List.mem_append.mp member
    · exact absurd (settled.torn task member here (clear task member here)) present
    · rw [List.mem_singleton.mp new] at activates
      simp [Stage.tears] at activates
  · exact fun _ _ _ _ => absent
  · exact fun still => absurd absent still
  · exact fun still => absurd absent still
  · exact fun _ => .inr left
  · exact fun _ => .inr ⟨_, left, rfl⟩

theorem ownQos_of_clients {server : Server} (same : next.clients = server.clients) (other : String) :
    next.ownQos other = server.ownQos other := by
  rw [Server.ownQos, Server.ownQos, clientOf_of_clients same]

/-- A core section that changes the subscribers of one channel, with the request it leaves pending. -/
theorem Plane.Sound.enters (sound : plane.Sound qos) (address : String) (tasks : List Task)
    (listed : ∀ other : String, next.directory[other]? ≠ none →
      plane.server.directory[other]? ≠ none ∨ ∃ parsed, parseMqttAddress other = .ok parsed)
    (clients : next.clients = plane.server.clients) (routes : next.routes = plane.server.routes)
    (subscribers : ∀ other, other ≠ address → next.subscribersOf other = plane.server.subscribersOf other)
    (named : ∀ task ∈ tasks, task.address = address ∧ ∃ parsed, parseMqttAddress address = .ok parsed)
    (asked : ∀ task ∈ tasks, ∀ stated, task.stage = .routing stated ∨ task.stage = .filtering stated →
      stated = some (qos address))
    (here : plane.server.ownQos address ≠ none → plane.Settled address →
      Plane.Settled ⟨next, plane.pending ++ tasks⟩ address) : Plane.Sound ⟨next, plane.pending ++ tasks⟩ qos := by
  refine ⟨⟨fun other present => ?_, fun other at_ filtered => ?_, fun task member => ?_, fun task member stated is => ?_⟩,
    fun other registered => ?_⟩
  · exact (listed other present).elim (sound.ready.listed other) id
  · rw [Server.filterQos, atFilter_of_clients clients] at filtered
    exact sound.ready.filtered other at_ filtered
  · obtain member | new := List.mem_append.mp member
    · exact sound.ready.named task member
    · rw [(named task new).1]
      exact (named task new).2
  · obtain member | new := List.mem_append.mp member
    · exact sound.ready.asked task member stated is
    · rw [(named task new).1]
      exact asked task new stated is
  · rw [ownQos_of_clients clients] at registered
    by_cases same : other = address
    · subst same
      exact here registered (sound.settled other registered)
    · refine (sound.settled other registered).congr (by rw [subscribers other same]) (by rw [routes])
        (atFilter_of_clients clients other) fun task at_ => ?_
      refine ⟨fun member => ?_, fun member => List.mem_append_left _ member⟩
      refine (List.mem_append.mp member).resolve_right fun new => same ?_
      rw [← at_, (named task new).1]

theorem subscribe_enters (config : Config) (sound : plane.Sound qos) {link : Link} {appSlug : String}
    {params : DynamicSubscribeParams} (clear : plane.Clear (.enter (.subscribe link appSlug address params)))
    (asks : plane.AsksFor qos (.enter (.subscribe link appSlug address params))) :
    ∃ next, plane.enter config (.subscribe link appSlug address params) = some next ∧ next.Sound qos := by
  have kept {next : Server} (keeps : Keeps plane.server next) : Plane.Sound ⟨next, plane.pending⟩ qos := by
    have := sound.enters address [] keeps.listed keeps.clients keeps.routes
      (fun other _ => keeps.subscribers other) (by simp) (by simp) fun _ settled => settled.congr
        (by rw [keeps.subscribers]) (by rw [keeps.routes]) (atFilter_of_clients keeps.clients address) (by simp)
    simpa using this
  unfold Plane.enter
  dsimp only
  obtain ⟨refused, admitted⟩ | admitted := admit_cases config plane.server appSlug address params
  · rw [admitted]
    exact ⟨plane, rfl, sound⟩
  · obtain ⟨stated, passed⟩ : ∃ stated, plane.server.admitSubscribe config appSlug address params = .ok stated := by
      obtain ⟨_, _, passed⟩ | ⟨_, _, _, _, passed⟩ := admitted <;> exact ⟨_, passed⟩
    rw [passed]
    dsimp only
    obtain ⟨refused, next, answered, keeps⟩ | ⟨resolved, next, answered, keeps⟩ | ⟨resolved, next, answered, creates⟩ :=
      subscribeDynamic_cases config plane.server appSlug address stated
    · exact ⟨_, by rw [answered]; rfl, kept keeps⟩
    · exact ⟨_, by rw [answered]; rfl, kept keeps⟩
    · obtain ⟨parsed, accepted⟩ : ∃ parsed, parseMqttAddress address = .ok parsed :=
        (creates.listed address creates.present).elim (sound.ready.listed address) id
      obtain ⟨refused, malformed, -⟩ | ⟨read, client, acceptedToo, held, admitted⟩ := admitted
      · exact absurd (malformed.symm.trans accepted) (by simp)
      obtain rfl : read = parsed := Except.ok.inj (acceptedToo.symm.trans accepted)
      obtain rfl : { params with qos := some (params.qos.getD client.qos) } = stated :=
        Except.ok.inj (admitted.symm.trans passed)
      have own : plane.server.ownQos address = some client.qos := by
        rw [Server.ownQos, Server.clientOf, accepted]
        dsimp only
        rw [held]
        rfl
      obtain ⟨joined, -, joins⟩ := creates.subscribers
      refine ⟨_, by rw [answered]; rfl, sound.enters address _ creates.listed creates.clients creates.routes
        (fun other apart => (joins other).trans (if_neg apart)) (by simpa using ⟨read, accepted⟩) ?_
        fun _ settled => settled.joins clear ?_ creates.routes (atFilter_of_clients creates.clients address) _⟩
      · intro task new also is
        rw [List.mem_singleton.mp new] at is
        obtain rfl : some (params.qos.getD client.qos) = also := by simpa using is
        rw [asks client.qos own]
      · rw [joins, if_pos rfl]
        simp

theorem unsubscribe_enters (config : Config) (sound : plane.Sound qos) {link : Link} {appSlug : String}
    (clear : plane.Clear (.enter (.unsubscribe link appSlug address))) :
    ∃ next, plane.enter config (.unsubscribe link appSlug address) = some next ∧ next.Sound qos := by
  unfold Plane.enter
  dsimp only
  obtain ⟨refused, answered⟩ | ⟨outcome, next, answered, departs, dormant, awake⟩ :=
    unsubscribeDynamic_cases config plane.server appSlug address
  · exact ⟨_, by rw [answered]; rfl, sound⟩
  · have elsewhere (other : String) (apart : other ≠ address) := (departs.subscribers other).trans (if_neg apart)
    have listed (other : String) (present : next.directory[other]? ≠ none) :
        plane.server.directory[other]? ≠ none ∨ ∃ parsed, parseMqttAddress other = .ok parsed :=
      .inl (departs.listed other present)
    have stays (same : next.subscribersOf address = [] ↔ plane.server.subscribersOf address = []) :
        Plane.Sound ⟨next, plane.pending⟩ qos := by
      have := sound.enters address [] listed departs.clients departs.routes elsewhere (by simp) (by simp) fun _ settled =>
        settled.congr same (by rw [departs.routes]) (atFilter_of_clients departs.clients address) (by simp)
      simpa using this
    cases asleep : outcome.wasDormant with
    | true =>
      refine ⟨_, by rw [answered]; simp only [Option.map_some, asleep, true_or, if_true], stays ?_⟩
      rw [departs.subscribers, if_pos rfl, List.filter_eq_self.mpr]
      intro one member
      simpa using appSubscriber_eq_none.mp (dormant asleep) one member
    | false =>
      obtain ⟨subscribed, remain⟩ := awake asleep
      have present : plane.server.subscribersOf address ≠ [] := by
        intro none
        rw [none] at subscribed
        exact subscribed rfl
      cases still : outcome.stillSubscribed with
      | true =>
        refine ⟨_, by rw [answered]; simp only [Option.map_some, still, or_true, if_true], stays ?_⟩
        rw [still, eq_comm, decide_eq_true_eq] at remain
        exact ⟨fun none => absurd none remain, fun none => absurd none present⟩
      | false =>
        rw [still, eq_comm, decide_eq_false_iff_not, not_not] at remain
        refine ⟨_, by rw [answered]; simp [asleep, still], sound.enters address _ listed departs.clients departs.routes elsewhere
          (by simpa using sound.ready.listed address (departs.listed address departs.present)) (by simp)
          fun _ settled => settled.leaves present (clear ?_) remain departs.routes
            (atFilter_of_clients departs.clients address)⟩
        -- Nobody else is left, so the caller was the only subscriber.
        intro one member
        rw [departs.subscribers, if_pos rfl, List.filter_eq_nil_iff] at remain
        simpa using remain one member

end Enter

/-! ### Whole runs -/

theorem step_sound (config : Config) {plane : Plane} {qos : String → Nat} (sound : plane.Sound qos) {event : PlaneEvent}
    (asks : plane.AsksFor qos event) (clear : plane.Clear event) :
    ∃ next, plane.step config event = some next ∧ next.Sound qos := by
  cases event with
  | enter call =>
    cases call with
    | subscribe => exact subscribe_enters config sound clear asks
    | unsubscribe => exact unsubscribe_enters config sound clear
  | proceed turn =>
    cases at_ : plane.pending[turn]? with
    | none => exact ⟨plane, by rw [Plane.step, Plane.proceed, at_], sound⟩
    | some task =>
      obtain ⟨next, left, performed, kept⟩ := pending_proceeds sound (List.mem_of_getElem? at_)
      obtain ⟨after, proceeded, moved⟩ := proceed_eq at_ performed
      exact ⟨⟨next, after⟩, proceeded, kept after moved⟩

theorem clientOf_ne_none {server : Server} {address : String} :
    server.clientOf address ≠ none ↔ server.ownQos address ≠ none := by
  simp [Server.ownQos]

theorem settled_of_agrees {server : Server} {address : String} (agrees : server.Agrees address) :
    Plane.Settled ⟨server, []⟩ address := by
  obtain ⟨routes, filters⟩ := agrees
  unfold Server.carried at routes filters
  by_cases empty : server.subscribersOf address = []
  · rw [if_pos empty] at routes filters
    exact ⟨by simp [routes], by simp [filters], by simp, by simp, fun present => absurd empty present,
      fun present => absurd empty present, fun _ => .inl routes, fun _ => .inl filters⟩
  · rw [if_neg empty] at routes filters
    exact ⟨routes.le, filters.le, by simp, by simp, fun _ => .inl routes, fun _ => .inl filters,
      fun absent => absurd absent empty, fun absent => absurd absent empty⟩

theorem Plane.Settled.agrees {plane : Plane} {address : String} (settled : plane.Settled address)
    (idle : plane.pending = []) : plane.server.Agrees address := by
  unfold Server.Agrees Server.carried
  split
  · next empty =>
    exact ⟨(settled.unrouted empty).resolve_right (by simp [idle]), (settled.unheld empty).resolve_right (by simp [idle])⟩
  · next present =>
    exact ⟨(settled.routed present).resolve_right (by simp [idle]), (settled.held present).resolve_right (by simp [idle])⟩

/-- If no channel is joined while it is being torn down or left by its last subscriber while it is being
    activated, then no request panics, and directory, routes and filters agree once all have returned. -/
theorem interleaved_requests_agree (config : Config) (qos : String → Nat) (start : Server) (events : List PlaneEvent)
    (listed : ∀ address : String, start.directory[address]? ≠ none → ∃ parsed, parseMqttAddress address = .ok parsed)
    (agree : ∀ address, start.clientOf address ≠ none → start.Agrees address)
    (oneQos : ∀ address present, start.filterQos address = some present → present = qos address)
    (clear : Along (Plane.step config) (fun plane event => plane.AsksFor qos event ∧ plane.Clear event) ⟨start, []⟩
      events) :
    ∃ reached, run (Plane.step config) ⟨start, []⟩ events = some reached ∧
      (reached.pending = [] →
        ∀ address, reached.server.clientOf address ≠ none → reached.server.Agrees address) := by
  have begins : Plane.Sound ⟨start, []⟩ qos := by
    refine ⟨⟨listed, oneQos, by simp, by simp⟩, fun address registered => ?_⟩
    exact settled_of_agrees (agree address (clientOf_ne_none.mpr registered))
  have progress : ∀ plane event, Plane.Sound plane qos → plane.AsksFor qos event ∧ plane.Clear event →
      ∃ next, Plane.step config plane event = some next ∧ Plane.Sound next qos :=
    fun plane event sound both => step_sound config sound both.1 both.2
  obtain ⟨reached, ran, sound⟩ := run_reaches progress begins clear
  refine ⟨reached, ran, fun idle address registered => ?_⟩
  exact (sound.settled address (clientOf_ne_none.mp registered)).agrees idle

/-! ### One lamp, two apps -/

private def darkHouse : Server where
  directory := ∅
  rows := ∅
  positions := []
  routes := []
  clients := (∅ : TreeMap String MqttClient).insert "home" ⟨1, .normal, []⟩

private theorem darkHouse_atFilter {β : Type} (read : List IngressSubscription → String → β) (missing : β)
    (empty : ∀ topic, read [] topic = missing) (address : String) : darkHouse.atFilter read missing address = missing := by
  unfold Server.atFilter
  cases parseMqttAddress address with
  | error refused => rfl
  | ok parsed =>
    simp only [darkHouse, lookup_insert]
    split
    · exact empty parsed.topic
    · simp

private theorem darkHouse_agrees (address : String) : darkHouse.Agrees address :=
  ⟨rfl, darkHouse_atFilter countOf 0 (fun _ => rfl) address⟩

private def joins (appSlug : String) : PlaneEvent := .enter (.subscribe .live appSlug "mqtt:home:lamp" (pullOnly none))

private def leaves (appSlug : String) : PlaneEvent := .enter (.unsubscribe .live appSlug "mqtt:home:lamp")

/-- Two apps join at once, and leave one after the other. -/
theorem lamp_shared_and_given_up :
    ∃ reached, run (Plane.step household) ⟨darkHouse, []⟩
      [joins "porch", joins "yard", .proceed 1, .proceed 0, .proceed 0, .proceed 0, leaves "porch", leaves "yard",
        .proceed 0, .proceed 0] = some reached ∧
      (reached.pending = [] →
        ∀ address, reached.server.clientOf address ≠ none → reached.server.Agrees address) :=
  interleaved_requests_agree household (fun _ => 1) darkHouse _ (fun address listed => absurd (by simp [darkHouse]) listed)
    (fun address _ => darkHouse_agrees address) (fun address present filtered => by
      rw [Server.filterQos, darkHouse_atFilter qosOf none (fun _ => rfl)] at filtered
      simp at filtered)
    (by decide +kernel)

/-- The last subscriber leaves, another app joins before the teardown, and the teardown takes the
    newcomer's route and filter away. -/
theorem teardown_overtakes_newcomer :
    (∀ address, darkHouse.clientOf address ≠ none → darkHouse.Agrees address) ∧
      ∃ reached, run (Plane.step household) ⟨darkHouse, []⟩
        [joins "porch", .proceed 0, .proceed 0, leaves "porch", joins "yard", .proceed 1, .proceed 1, .proceed 0,
          .proceed 0] = some reached ∧
        (reached.pending = [] ∧ reached.server.clientOf "mqtt:home:lamp" ≠ none ∧
          reached.server.subscribersOf "mqtt:home:lamp" ≠ [] ∧
          routesTo reached.server.routes "mqtt:home:lamp" = 0 ∧ reached.server.filtersFor "mqtt:home:lamp" = 0) := by
  refine ⟨fun address _ => darkHouse_agrees address, ?_⟩
  obtain ⟨reached, ran, facts⟩ : ∃ reached, run (Plane.step household) ⟨darkHouse, []⟩
      [joins "porch", .proceed 0, .proceed 0, leaves "porch", joins "yard", .proceed 1, .proceed 1, .proceed 0,
        .proceed 0] = some reached ∧
      decide (reached.pending = [] ∧ reached.server.clientOf "mqtt:home:lamp" ≠ none ∧
        reached.server.subscribersOf "mqtt:home:lamp" ≠ [] ∧ routesTo reached.server.routes "mqtt:home:lamp" = 0 ∧
        reached.server.filtersFor "mqtt:home:lamp" = 0) = true :=
    Option.map_eq_some_iff.mp (by decide +kernel)
  exact ⟨reached, ran, of_decide_eq_true facts⟩

end Brenn.Mqtt
