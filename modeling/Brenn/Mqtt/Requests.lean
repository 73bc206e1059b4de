import Brenn.Mqtt.Subscribe

/-!
Sequences of runtime subscribe and unsubscribe requests.

As long as each newcomer asks for the qos the others are served at, the one filter the session holds
for a channel is at that qos, and no request ends in a panic.
-/

namespace Brenn.Mqtt
open Brenn.Access Brenn.Store Brenn.Lib Std

inductive Call where
  | subscribe (link : Link) (appSlug address : String) (params : DynamicSubscribeParams)
  | unsubscribe (link : Link) (appSlug address : String)

inductive Reply where
  | subscribed (answer : Except SubscribeActivateError SubscribeActivation)
  | unsubscribed (answer : Except RuntimeUnsubscribeError UnsubscribeActivation)

def Reply.refused : Reply → Bool
  | .subscribed (.error _) | .unsubscribed (.error _) => true
  | .subscribed (.ok _) | .unsubscribed (.ok _) => false

namespace Server

variable (config : Config) (server : Server)

def call : Call → Option (Reply × Server)
  | .subscribe link appSlug address params =>
    (server.subscribeDynamicActivated config link appSlug address params).map fun (answer, next) =>
      (.subscribed answer, next)
  | .unsubscribe link appSlug address =>
    (server.unsubscribeDynamicActivated config link appSlug address).map fun (answer, next) =>
      (.unsubscribed answer, next)

def step (call : Call) : Option Server := (server.call config call).map (·.2)

/-! ### The qos in force -/

def clientOf (address : String) : Option MqttClient :=
  match parseMqttAddress address with
  | .ok parsed => server.clients[parsed.client]?
  | .error _ => none

/-- What the session of an address's client says of the address's filter. -/
def atFilter {β : Type} (read : List IngressSubscription → String → β) (missing : β) (address : String) : β :=
  match parseMqttAddress address with
  | .ok parsed => server.clients[parsed.client]?.elim missing fun client => read client.subscriptions parsed.topic
  | .error _ => missing

def filterQos (address : String) : Option Nat := server.atFilter qosOf none address

def ownQos (address : String) : Option Nat := (server.clientOf address).map (·.qos)

/-- The qos a subscriber is served at: its row's, or the client's own for a static one. -/
def servedAt (address : String) (held : SubscriberEntry) : Option Nat :=
  match held.kind with
  | .app slug => (server.registration address slug).getD (server.ownQos address)
  | _ => server.ownQos address

/-- An app that joins a channel asks for the qos that the channel's subscribers are served at. -/
def AsksAlike : Call → Prop
  | .subscribe _ appSlug address params =>
    appSubscriber (server.subscribersOf address) appSlug = none →
      ∀ held ∈ server.subscribersOf address, server.servedAt address held = params.qos.or (server.ownQos address)
  | .unsubscribe .. => True

instance (call : Call) : Decidable (server.AsksAlike call) :=
  match call with
  | .subscribe _ appSlug address params =>
    inferInstanceAs (Decidable (appSubscriber (server.subscribersOf address) appSlug = none →
      ∀ held ∈ server.subscribersOf address, server.servedAt address held = params.qos.or (server.ownQos address)))
  | .unsubscribe .. => inferInstanceAs (Decidable True)

/-- Addresses parse, and a filter is held for a channel with subscribers, at the qos they are served at. -/
structure Sound : Prop where
  parses : ∀ address : String, server.directory[address]? ≠ none → ∃ parsed, parseMqttAddress address = .ok parsed
  alike : ∀ address qos, server.filterQos address = some qos → server.subscribersOf address ≠ [] ∧
    ∀ held ∈ server.subscribersOf address, server.servedAt address held = some qos

end Server

variable {server next : Server} {address : String}

/-! ### What the sections do to the qos in force -/

/-- Two addresses that name one filter of one client are one address. -/
theorem address_unique {other : String} {parsed read : MqttAddress} (accepted : parseMqttAddress address = .ok parsed)
    (acceptedToo : parseMqttAddress other = .ok read) (client : read.client = parsed.client)
    (topic : read.topic = parsed.topic) : other = address := by
  rw [← format_of_parse accepted, ← format_of_parse acceptedToo, MqttAddress.format, MqttAddress.format, client, topic]

theorem clientOf_of_clients (same : next.clients = server.clients) (other : String) :
    next.clientOf other = server.clientOf other := by
  unfold Server.clientOf
  rw [same]

theorem atFilter_of_clients {β : Type} {read : List IngressSubscription → String → β} {missing : β}
    (same : next.clients = server.clients) (other : String) :
    next.atFilter read missing other = server.atFilter read missing other := by
  unfold Server.atFilter
  rw [same]

theorem atFilter_held {β : Type} {read : List IngressSubscription → String → β} {missing : β} {parsed : MqttAddress}
    (accepted : parseMqttAddress address = .ok parsed) {client : MqttClient}
    (held : server.clients[parsed.client]? = some client) :
    server.atFilter read missing address = read client.subscriptions parsed.topic := by
  rw [Server.atFilter, accepted]
  dsimp only
  rw [held, Option.elim_some]

/-- Replacing a client's filters changes what is said of the channel whose filter moved, and of no other. -/
theorem atFilter_insert {β : Type} {read : List IngressSubscription → String → β} {missing : β} {parsed : MqttAddress}
    (accepted : parseMqttAddress address = .ok parsed) {client : MqttClient}
    (held : server.clients[parsed.client]? = some client) {subscriptions : List IngressSubscription} {value : β}
    (moved : ∀ topic, read subscriptions topic = if topic = parsed.topic then value else read client.subscriptions topic)
    (inserted : next.clients = server.clients.insert parsed.client { client with subscriptions := subscriptions })
    (other : String) :
    next.atFilter read missing other = if other = address then value else server.atFilter read missing other := by
  have same {read : MqttAddress} (acceptedToo : parseMqttAddress other = .ok read) (equal : other = address) :
      read = parsed := Except.ok.inj ((equal ▸ acceptedToo).symm.trans accepted)
  unfold Server.atFilter
  cases acceptedToo : parseMqttAddress other with
  | error refused =>
    rw [if_neg]
    rintro rfl
    exact absurd (acceptedToo.symm.trans accepted) (by simp)
  | ok read =>
    dsimp only
    rw [inserted, lookup_insert]
    by_cases client' : parsed.client = read.client
    · rw [if_pos client', ← client', held, Option.elim_some, Option.elim_some, moved]
      by_cases topic : read.topic = parsed.topic
      · rw [if_pos topic, if_pos (address_unique accepted acceptedToo client'.symm topic)]
      · rw [if_neg topic, if_neg fun equal => topic (by rw [same acceptedToo equal])]
    · rw [if_neg client', if_neg fun equal => client' (by rw [same acceptedToo equal])]

theorem ownQos_insert {slug : String} {client : MqttClient} (held : server.clients[slug]? = some client)
    {subscriptions : List IngressSubscription}
    (inserted : next.clients = server.clients.insert slug { client with subscriptions := subscriptions })
    (other : String) : next.ownQos other = server.ownQos other := by
  unfold Server.ownQos Server.clientOf
  cases parseMqttAddress other with
  | error refused => rfl
  | ok read =>
    dsimp only
    rw [inserted, lookup_insert]
    split
    · next same => rw [← same, held]; rfl
    · rfl

theorem servedAt_congr {held : SubscriberEntry} (own : next.ownQos address = server.ownQos address)
    (rows : ∀ slug, held.kind = .app slug → next.registration address slug = server.registration address slug) :
    next.servedAt address held = server.servedAt address held := by
  unfold Server.servedAt
  cases kind : held.kind with
  | app slug =>
    dsimp only
    rw [own, rows slug kind]
  | wasm | system | surface | remote | chatConversation => exact own

theorem Server.Sound.keeps (sound : server.Sound) (keeps : Keeps server next) : next.Sound := by
  have own (other : String) : next.ownQos other = server.ownQos other := by
    rw [Server.ownQos, Server.ownQos, clientOf_of_clients keeps.clients]
  refine ⟨fun address listed => ?_, fun address qos filtered => ?_⟩
  · exact (keeps.listed address listed).elim (sound.parses address) id
  · rw [Server.filterQos, atFilter_of_clients keeps.clients] at filtered
    obtain ⟨some, alike⟩ := sound.alike address qos filtered
    rw [keeps.subscribers]
    refine ⟨some, fun held member => ?_⟩
    rw [servedAt_congr (own address) fun slug _ => by rw [Server.registration, Server.registration, keeps.rows]]
    exact alike held member

/-! ### Whole requests -/

theorem admit_cases (config : Config) (server : Server) (appSlug address : String) (params : DynamicSubscribeParams) :
    (∃ refused, server.admitSubscribe config appSlug address params = .error refused) ∨
      (∃ refused, parseMqttAddress address = .error refused ∧ server.admitSubscribe config appSlug address params = .ok params) ∨
      ∃ parsed client, parseMqttAddress address = .ok parsed ∧ server.clients[parsed.client]? = some client ∧
        server.admitSubscribe config appSlug address params = .ok { params with qos := some (params.qos.getD client.qos) } := by
  unfold Server.admitSubscribe
  cases accepted : parseMqttAddress address with
  | error refused => exact .inr (.inl ⟨refused, rfl, rfl⟩)
  | ok parsed =>
    dsimp only
    split
    · exact .inl ⟨_, rfl⟩
    · cases held : server.clients[parsed.client]? with
      | none => exact .inl ⟨_, rfl⟩
      | some client => exact .inr (.inr ⟨parsed, client, rfl, held, rfl⟩)

/-- A channel that a subscription was just created on is activated if its filter is absent or at the qos
    asked for. -/
theorem activate_eq {parsed : MqttAddress} (accepted : parseMqttAddress address = .ok parsed) {client : MqttClient}
    (held : server.clients[parsed.client]? = some client) (link : Link) (qos : Nat)
    (agrees : ∀ present, server.filterQos address = some present → present = qos) :
    ∃ answer next, server.activate link address (some qos) = some (.ok answer, next) ∧ next.rows = server.rows ∧
      next.directory = server.directory ∧ ∀ other, next.ownQos other = server.ownQos other ∧
        next.filterQos other = if other = address then some qos else server.filterQos other := by
  have filtered : server.filterQos address = qosOf client.subscriptions parsed.topic := atFilter_held accepted held
  obtain ⟨subscriptions, added⟩ : ∃ subscriptions,
      addSubscription client.subscriptions parsed.topic qos = some subscriptions := by
    rw [addSubscription_eq]
    cases present : qosOf client.subscriptions parsed.topic with
    | none => exact ⟨_, rfl⟩
    | some at_ => exact ⟨_, if_pos (agrees at_ (filtered.trans present))⟩
  let routes := (addRoute server.routes ⟨parsed.client, parsed.topic, address, address, client.urgency⟩).2
  let next : Server :=
    { server with
      routes := routes
      clients := server.clients.insert parsed.client { client with subscriptions := subscriptions } }
  refine ⟨link.subscribed, next, ?_, rfl, rfl, fun other =>
    ⟨ownQos_insert held rfl other, atFilter_insert accepted held (qosOf_add added) rfl other⟩⟩
  simp only [Server.activate, accepted, held, Option.bind_some, Server.subscribeFilter, added, Option.map_some]
  rfl

theorem deactivate_eq (server : Server) (link : Link) {parsed : MqttAddress} (accepted : parseMqttAddress address = .ok parsed) :
    ∃ answer next, server.deactivate link address = some (answer, next) ∧ next.rows = server.rows ∧
      next.directory = server.directory ∧ ∀ other, next.ownQos other = server.ownQos other ∧
        next.filterQos other = if other = address then none else server.filterQos other := by
  unfold Server.deactivate Server.unsubscribeFilter
  rw [accepted]
  dsimp only
  cases held : server.clients[parsed.client]? with
  | none =>
    refine ⟨_, _, rfl, rfl, rfl, fun other => ⟨rfl, ?_⟩⟩
    split
    · next same =>
      rw [same, Server.filterQos, Server.atFilter, accepted]
      dsimp only
      rw [held]
      rfl
    · rfl
  | some client =>
    refine ⟨_, _, rfl, rfl, rfl, fun other => ⟨ownQos_insert held rfl other, ?_⟩⟩
    exact atFilter_insert accepted held (qosOf_remove client.subscriptions parsed.topic) rfl other

theorem registration_of_rows (same : next.rows = server.rows) (other app : String) :
    next.registration other app = server.registration other app := by
  rw [Server.registration, Server.registration, same]

theorem subscribersOf_of_directory (same : next.directory = server.directory) (other : String) :
    next.subscribersOf other = server.subscribersOf other := by
  rw [Server.subscribersOf, Server.subscribersOf, same]

/-- A newcomer served at the qos of the others, with the filter held at it. -/
theorem Server.Sound.joins (sound : server.Sound) {appSlug : String} {qos : Nat}
    (creates : Creates server appSlug address (some qos) next)
    (served : ∀ held ∈ server.subscribersOf address, server.servedAt address held = some qos) {after : Server}
    (directory : after.directory = next.directory) (rows : after.rows = next.rows)
    (held : ∀ other, after.ownQos other = next.ownQos other ∧
      after.filterQos other = if other = address then some qos else next.filterQos other) : after.Sound := by
  obtain ⟨joined, kind, joins⟩ := creates.subscribers
  have subscribers (other : String) := (subscribersOf_of_directory directory other).trans (joins other)
  have registration (other app : String) := (registration_of_rows rows other app).trans (creates.registration other app)
  have own (other : String) : after.ownQos other = server.ownQos other :=
    (held other).1.trans (by rw [Server.ownQos, Server.ownQos, clientOf_of_clients creates.clients])
  refine ⟨fun other listed => ?_, fun other at_ filtered => ?_⟩
  · rw [directory] at listed
    exact (creates.listed other listed).elim (sound.parses other) id
  · rw [(held other).2, Server.filterQos, atFilter_of_clients creates.clients] at filtered
    by_cases same : other = address
    · subst same
      rw [if_pos rfl] at filtered
      obtain rfl := Option.some.inj filtered
      rw [subscribers, if_pos rfl]
      refine ⟨by simp, fun one member => ?_⟩
      obtain member | member := List.mem_append.mp member
      · rw [servedAt_congr (own other) fun slug named => ?_]
        · exact served one member
        · rw [registration, if_neg]
          rintro ⟨-, rfl⟩
          exact appSubscriber_eq_none.mp creates.unsubscribed one member named
      · obtain rfl := List.mem_singleton.mp member
        rw [Server.servedAt, kind]
        dsimp only
        rw [registration, if_pos ⟨rfl, rfl⟩]
        rfl
    · rw [if_neg same] at filtered
      obtain ⟨some, each⟩ := sound.alike other at_ filtered
      rw [subscribers, if_neg same]
      refine ⟨some, fun one member => ?_⟩
      rw [servedAt_congr (own other) fun slug _ => by rw [registration, if_neg fun both => same both.1]]
      exact each one member

/-- The subscribers that stay are served as before. The filter stays with them, or is held no more. -/
theorem Server.Sound.departs (sound : server.Sound) {appSlug : String} (departs : Departs server appSlug address next)
    {after : Server} (directory : after.directory = next.directory) (rows : after.rows = next.rows)
    (own : ∀ other, after.ownQos other = next.ownQos other)
    (filters : ∀ other qos, after.filterQos other = some qos →
      next.filterQos other = some qos ∧ (other = address → next.subscribersOf address ≠ [])) : after.Sound := by
  refine ⟨fun other listed => ?_, fun other qos filtered => ?_⟩
  · rw [directory] at listed
    exact sound.parses other (departs.listed other listed)
  · obtain ⟨filtered, remain⟩ := filters other qos filtered
    rw [Server.filterQos, atFilter_of_clients departs.clients] at filtered
    obtain ⟨some, each⟩ := sound.alike other qos filtered
    rw [subscribersOf_of_directory directory]
    have ownSame : after.ownQos other = server.ownQos other :=
      (own other).trans (by rw [Server.ownQos, Server.ownQos, clientOf_of_clients departs.clients])
    have kept : ∀ one ∈ next.subscribersOf other, one ∈ server.subscribersOf other ∧
        (other = address → one.kind ≠ .app appSlug) := by
      intro one member
      rw [departs.subscribers] at member
      split at member
      · next same =>
        obtain ⟨inside, apart⟩ := List.mem_filter.mp member
        exact ⟨inside, fun _ => by simpa using apart⟩
      · next apart => exact ⟨member, fun same => absurd same apart⟩
    refine ⟨?_, fun one member => ?_⟩
    · by_cases same : other = address
      · rw [same]
        exact remain same
      · rw [departs.subscribers, if_neg same]
        exact some
    · obtain ⟨inside, apart⟩ := kept one member
      rw [servedAt_congr ownSame fun slug named => ?_]
      · exact each one inside
      · rw [registration_of_rows rows, departs.registration, if_neg]
        rintro ⟨same, rfl⟩
        exact apart same named

/-- A request that was refused left every row and every directory subscriber as it was. -/
def Reply.LeavesNothing (reply : Reply) (server next : Server) : Prop :=
  reply.refused = true →
    next.rows = server.rows ∧ ∀ address, next.subscribersOf address = server.subscribersOf address

theorem subscribe_returns (config : Config) (sound : server.Sound) (link : Link) (appSlug address : String)
    (params : DynamicSubscribeParams) (alike : server.AsksAlike (.subscribe link appSlug address params)) :
    ∃ answer next, server.subscribeDynamicActivated config link appSlug address params = some (answer, next) ∧
      next.Sound ∧ (Reply.subscribed answer).LeavesNothing server next := by
  unfold Server.subscribeDynamicActivated
  obtain ⟨refused, admitted⟩ | admitted := admit_cases config server appSlug address params
  · rw [admitted]
    exact ⟨_, _, rfl, sound, fun _ => ⟨rfl, fun _ => rfl⟩⟩
  · obtain ⟨stated, passed⟩ : ∃ stated, server.admitSubscribe config appSlug address params = .ok stated := by
      obtain ⟨_, _, passed⟩ | ⟨_, _, _, _, passed⟩ := admitted <;> exact ⟨_, passed⟩
    rw [passed]
    dsimp only
    obtain ⟨refused, next, answered, keeps⟩ | ⟨resolved, next, answered, keeps⟩ | ⟨resolved, next, answered, creates⟩ :=
      subscribeDynamic_cases config server appSlug address stated
    · rw [answered]
      exact ⟨_, _, rfl, sound.keeps keeps, fun _ => ⟨keeps.rows, keeps.subscribers⟩⟩
    · rw [answered]
      exact ⟨_, _, rfl, sound.keeps keeps, fun refused => absurd refused (by simp [Reply.refused])⟩
    · rw [answered]
      dsimp only
      -- The channel exists, so its address parses and the qos was filled in.
      obtain ⟨parsed, accepted⟩ : ∃ parsed, parseMqttAddress address = .ok parsed :=
        (creates.listed address creates.present).elim (sound.parses address) id
      obtain ⟨refused, malformed, -⟩ | ⟨read, client, acceptedToo, held, admitted⟩ := admitted
      · rw [accepted] at malformed
        exact absurd malformed (by simp)
      obtain rfl : read = parsed := Except.ok.inj (acceptedToo.symm.trans accepted)
      obtain rfl : { params with qos := some (params.qos.getD client.qos) } = stated :=
        Except.ok.inj (admitted.symm.trans passed)
      have own : server.ownQos address = some client.qos := by
        rw [Server.ownQos, Server.clientOf, accepted]
        dsimp only
        rw [held]
        rfl
      have asked : params.qos.or (server.ownQos address) = some (params.qos.getD client.qos) := by
        rw [own]
        cases params.qos <;> rfl
      have served : ∀ held ∈ server.subscribersOf address,
          server.servedAt address held = some (params.qos.getD client.qos) :=
        fun held member => (alike creates.unsubscribed held member).trans asked
      obtain ⟨answer, after, activated, rows, directory, qos⟩ := activate_eq accepted
        (creates.clients ▸ held : next.clients[read.client]? = some client) link (params.qos.getD client.qos) (by
          intro present filtered
          rw [Server.filterQos, atFilter_of_clients creates.clients] at filtered
          obtain ⟨some, each⟩ := sound.alike address present filtered
          obtain ⟨first, member⟩ := List.exists_mem_of_ne_nil _ some
          exact Option.some.inj ((each first member).symm.trans (served first member)))
      exact ⟨.ok answer, after, activated, sound.joins creates served directory rows qos,
        fun refused => absurd refused (by simp [Reply.refused])⟩

theorem unsubscribe_returns (config : Config) (sound : server.Sound) (link : Link) (appSlug address : String) :
    ∃ answer next, server.unsubscribeDynamicActivated config link appSlug address = some (answer, next) ∧
      next.Sound ∧ (Reply.unsubscribed answer).LeavesNothing server next := by
  unfold Server.unsubscribeDynamicActivated
  obtain ⟨refused, answered⟩ | ⟨outcome, next, answered, departs, dormant, awake⟩ :=
    unsubscribeDynamic_cases config server appSlug address
  · rw [answered]
    exact ⟨_, _, rfl, sound, fun _ => ⟨rfl, fun _ => rfl⟩⟩
  · rw [answered]
    dsimp only
    have admitted {activation : UnsubscribeActivation} {after : Server} :
        (Reply.unsubscribed (.ok activation)).LeavesNothing server after :=
      fun refused => absurd refused (by simp [Reply.refused])
    cases asleep : outcome.wasDormant with
    | true =>
      refine ⟨_, next, rfl, sound.departs departs rfl rfl (fun _ => rfl) fun other qos filtered => ⟨filtered, ?_⟩,
        admitted⟩
      -- The app was no subscriber, so the others are all there.
      rintro rfl
      rw [departs.subscribers, if_pos rfl, List.filter_eq_self.mpr]
      · exact (sound.alike other qos (by rwa [Server.filterQos, atFilter_of_clients departs.clients] at filtered)).1
      · intro one member
        simpa using appSubscriber_eq_none.mp (dormant asleep) one member
    | false =>
      obtain ⟨-, remain⟩ := awake asleep
      cases still : outcome.stillSubscribed with
      | true =>
        refine ⟨_, next, rfl, sound.departs departs rfl rfl (fun _ => rfl) fun other qos filtered => ⟨filtered, ?_⟩,
          admitted⟩
        exact fun _ => of_decide_eq_true (remain ▸ still)
      | false =>
        obtain ⟨parsed, accepted⟩ : ∃ parsed, parseMqttAddress address = .ok parsed :=
          sound.parses address (departs.listed address departs.present)
        obtain ⟨answer, after, deactivated, rows, directory, qos⟩ :=
          deactivate_eq next link accepted
        refine ⟨.ok answer, after, by simp [deactivated], ?_, admitted⟩
        refine sound.departs departs directory rows (fun other => (qos other).1) fun other at_ filtered => ?_
        rw [(qos other).2] at filtered
        split at filtered
        · simp at filtered
        · next apart => exact ⟨filtered, fun same => absurd same apart⟩

/-- Static subscriptions alone, with their filters at the client's own qos. -/
theorem sound_of_static (rows : server.rows = ∅)
    (parses : ∀ address : String, server.directory[address]? ≠ none → ∃ parsed, parseMqttAddress address = .ok parsed)
    (static : ∀ address qos, server.filterQos address = some qos →
      server.subscribersOf address ≠ [] ∧ server.ownQos address = some qos) : server.Sound := by
  refine ⟨parses, fun address qos filtered => ?_⟩
  obtain ⟨some, own⟩ := static address qos filtered
  refine ⟨some, fun held member => ?_⟩
  have unregistered (slug : String) : server.registration address slug = none := by
    simp [Server.registration, rows]
  unfold Server.servedAt
  cases held.kind with
  | app slug => simp [unregistered, own]
  | wasm | system | surface | remote | chatConversation => exact own

theorem call_returns (config : Config) (sound : server.Sound) {call : Call} (alike : server.AsksAlike call) :
    ∃ reply next, server.call config call = some (reply, next) ∧ next.Sound ∧ reply.LeavesNothing server next := by
  cases call with
  | subscribe link appSlug address params =>
    obtain ⟨answer, next, answered, rest⟩ := subscribe_returns config sound link appSlug address params alike
    exact ⟨.subscribed answer, next, by rw [Server.call, answered]; rfl, rest⟩
  | unsubscribe link appSlug address =>
    obtain ⟨answer, next, answered, rest⟩ := unsubscribe_returns config sound link appSlug address
    exact ⟨.unsubscribed answer, next, by rw [Server.call, answered]; rfl, rest⟩

/-- As long as each newcomer on a channel asks for the qos the others are served at, every request of a
    sequence is answered, and one that is refused leaves no row and no subscriber behind. -/
theorem requests_return (config : Config) (start : Server) (calls : List Call) (sound : start.Sound)
    (alike : Along (Server.step config) Server.AsksAlike start calls) :
    ∀ made call rest, calls = made ++ call :: rest → ∃ before reply after,
      run (Server.step config) start made = some before ∧ before.call config call = some (reply, after) ∧
        (reply.refused = true →
          after.rows = before.rows ∧ ∀ address, after.subscribersOf address = before.subscribersOf address) := by
  intro made call rest split
  subst split
  induction made generalizing start with
  | nil =>
    obtain ⟨reply, after, answered, -, leaves⟩ := call_returns config sound alike.1
    exact ⟨start, reply, after, rfl, answered, leaves⟩
  | cons first made ih =>
    obtain ⟨reply, next, answered, kept, -⟩ := call_returns config sound alike.1
    have stepped : Server.step config start first = some next := by rw [Server.step, answered]; rfl
    obtain ⟨before, reply, after, ran, rest⟩ := ih next kept (alike.tail stepped)
    exact ⟨before, reply, after, run_cons_eq_some.mpr ⟨next, stepped, ran⟩, rest⟩

/-! ### A lamp with a static subscriber -/

def household : Config where
  policy _ := ⟨[.dynamicSubscribe, .mqttSubscribe], [⟨"home", "#", by decide⟩]⟩
  apps _ := none
  conversation _ := none
  tuning := ⟨[], []⟩
  defaultNoise := .silent
  defaultWakeMin := .normal

private def lampServer : Server where
  directory := (∅ : TreeMap String ChannelEntry).insert "mqtt:home:lamp"
    ⟨resolveSystemChannel household "mqtt:home:lamp", [⟨.app "hall", .bounded 0, .bounded 5, .silent, none⟩]⟩
  rows := ∅
  positions := []
  routes := [⟨"home", "lamp", "mqtt:home:lamp", "mqtt:home:lamp", .normal⟩]
  clients := (∅ : TreeMap String MqttClient).insert "home" ⟨1, .normal, [⟨"lamp", 1, 1⟩]⟩

def pullOnly (qos : Option Nat) : DynamicSubscribeParams := ⟨.bounded 0, .bounded 5, none, none, qos⟩

private theorem lampServer_sound : lampServer.Sound := by
  refine sound_of_static rfl (fun address listed => ?_) (fun address qos filtered => ?_)
  · have only : address = "mqtt:home:lamp" := by
      by_contra other
      refine listed ?_
      simp only [lampServer]
      rw [lookup_insert, if_neg (Ne.symm other)]
      simp
    exact ⟨⟨"home", "lamp"⟩, by rw [only]; decide⟩
  · have only : address = "mqtt:home:lamp" ∧ qos = 1 := by
      unfold Server.filterQos Server.atFilter at filtered
      cases accepted : parseMqttAddress address with
      | error refused => simp [accepted] at filtered
      | ok parsed =>
        rw [accepted] at filtered
        simp only [lampServer, lookup_insert] at filtered
        split at filtered
        · next client =>
          rw [Option.elim_some] at filtered
          by_cases topic : "lamp" = parsed.topic
          · refine ⟨?_, by simpa [qosOf, topic] using filtered.symm⟩
            rw [← format_of_parse accepted, MqttAddress.format, ← client, ← topic]
            decide
          · simp [qosOf, topic] at filtered
        · simp at filtered
    rw [only.1, only.2]
    decide +kernel

/-- The porch joins the hall at the client's own qos; the hall's own subscription cannot be given up. -/
theorem porch_joins_hall : ∃ before reply after,
    run (Server.step household) lampServer [.subscribe .live "porch" "mqtt:home:lamp" (pullOnly none)] = some before ∧
      before.call household (.unsubscribe .live "hall" "mqtt:home:lamp") = some (reply, after) ∧
      (reply.refused = true →
        after.rows = before.rows ∧ ∀ address, after.subscribersOf address = before.subscribersOf address) :=
  requests_return household lampServer
    [.subscribe .live "porch" "mqtt:home:lamp" (pullOnly none), .unsubscribe .live "hall" "mqtt:home:lamp"]
    lampServer_sound (by decide +kernel) _ _ [] rfl

/-- A second app that names another qos panics the server, whether the first subscription was static
    or made at runtime. -/
theorem other_qos_panics : lampServer.Sound ∧
    lampServer.call household (.subscribe .live "porch" "mqtt:home:lamp" (pullOnly (some 0))) = none ∧
    run (Server.step household) lampServer [.subscribe .live "porch" "mqtt:home:door" (pullOnly (some 0))] ≠ none ∧
    run (Server.step household) lampServer [.subscribe .live "porch" "mqtt:home:door" (pullOnly (some 0)),
      .subscribe .live "yard" "mqtt:home:door" (pullOnly none)] = none := by
  refine ⟨lampServer_sound, ?_, ?_, ?_⟩
  · exact Option.isNone_iff_eq_none.mp (by decide +kernel)
  · exact Option.isSome_iff_ne_none.mp (by decide +kernel)
  · exact Option.isNone_iff_eq_none.mp (by decide +kernel)

end Brenn.Mqtt
