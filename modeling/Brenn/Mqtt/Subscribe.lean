import Brenn.Bus.Overflow
import Brenn.Lib.Run
import Brenn.Mqtt.Session

/-!
Runtime subscribes and unsubscribes on `mqtt:` addresses.

A subscribe passes the access policy and the session check, runs the core that writes the durable
row and the directory subscriber, and activates the channel: a route, and a filter on the client's
session, which asserts that a filter asked for again is asked for at the same qos.

The directory is keyed by address, which stands for the uuid. Only `mqtt:` channels are
modelled; they are durable, so every registration is a row. `none` is a panic.
-/

namespace Brenn.Mqtt
open Brenn.Access Brenn.Store Brenn.Lib Std
open Brenn.Bus (SubscriberEntryKind)
open Brenn.Surface (NoiseLevel)

/-! ### Channels and parameters -/

inductive WakeMin where
  | veryLow
  | low
  | normal
  | high
  | never
  deriving Repr, DecidableEq

structure ResolvedChannel where
  pushDepth : Depth
  retainDepth : Depth
  standingRetainDepth : Depth
  noise : NoiseLevel
  wakeMin : WakeMin
  deriving Repr, DecidableEq

structure SubscriberEntry where
  kind : SubscriberEntryKind String
  pushDepth : Depth
  retainDepth : Depth
  noise : NoiseLevel
  wakeMin : Option WakeMin
  deriving Repr, DecidableEq

structure ChannelEntry where
  resolvedChannel : ResolvedChannel
  subscribers : List SubscriberEntry
  deriving Repr, DecidableEq

def appSubscriber (subscribers : List SubscriberEntry) (appSlug : String) : Option SubscriberEntry :=
  subscribers.find? fun held => held.kind = .app appSlug

structure SystemChannelTuningEntry where
  pushDepth : Depth
  retainDepth : Depth
  standingRetainDepth : Depth
  noise : Option NoiseLevel
  wakeMin : Option WakeMin
  deriving Repr, DecidableEq

/-- The operator's blocks, the ones for leading parts of an address longest first. -/
structure SystemChannelTuning where
  exact : List (String × SystemChannelTuningEntry)
  prefixes : List (String × SystemChannelTuningEntry)

def SystemChannelTuning.lookup (tuning : SystemChannelTuning) (address : String) : Option SystemChannelTuningEntry :=
  ((tuning.exact.find? fun block => block.1 = address).or
    (tuning.prefixes.find? fun block => block.1.toList.isPrefixOf address.toList)).map (·.2)

structure AppConfig where
  singleton : Bool
  allowedUsers : Nat
  deriving Repr, DecidableEq

/-- What no call changes. The conversation of an app, if it has an owner, is the one its positions are
    held under. -/
structure Config where
  policy : String → AppPolicy
  apps : String → Option AppConfig
  conversation : String → Option Nat
  tuning : SystemChannelTuning
  defaultNoise : NoiseLevel
  defaultWakeMin : WakeMin

def systemChannelDefaultPushDepth : Depth := .bounded 1
def ingressDefaultRetainDepth : Depth := .bounded 100

def resolveSystemChannel (config : Config) (address : String) : ResolvedChannel :=
  let tuned := config.tuning.lookup address
  { pushDepth := tuned.elim systemChannelDefaultPushDepth (·.pushDepth)
    retainDepth := tuned.elim ingressDefaultRetainDepth (·.retainDepth)
    standingRetainDepth := tuned.elim ingressDefaultRetainDepth (·.standingRetainDepth)
    noise := (tuned.bind (·.noise)).getD config.defaultNoise
    wakeMin := (tuned.bind (·.wakeMin)).getD config.defaultWakeMin }

structure DynamicSubscribeParams where
  pushDepth : Depth
  retainDepth : Depth
  noise : Option NoiseLevel
  wakeMin : Option WakeMin
  qos : Option Nat
  deriving Repr, DecidableEq

structure ResolvedSubscription where
  channelUuid : ChannelUuid
  channelAddress : String
  pushDepth : Depth
  retainDepth : Depth
  noise : NoiseLevel
  wakeMin : WakeMin
  deriving Repr, DecidableEq

inductive SubscribeError where
  | noiseOnPullOnly (channelAddress : String)
  | wakeMinOnPullOnly (channelAddress : String)
  | pushEnabledRequiresSingleton (channelAddress : String)
  | pushEnabledRequiresSingleUser (channelAddress : String) (allowedUsers : Nat)
  | fatalNoise (channelAddress : String)
  deriving Repr, DecidableEq

/-- A runtime subscribe states both depths; noise and wake threshold are inherited from the channel. -/
def resolveSubscriptionParams (address : String) (params : DynamicSubscribeParams) (rung : ResolvedChannel)
    (singleton : Bool) (allowedUsers : Nat) : Except SubscribeError ResolvedSubscription :=
  let noise := params.noise.getD rung.noise
  if params.noise.isSome ∧ params.pushDepth = .bounded 0 then .error (.noiseOnPullOnly address)
  else if noise = .fatal then .error (.fatalNoise address)
  else if params.wakeMin.isSome ∧ params.pushDepth = .bounded 0 then .error (.wakeMinOnPullOnly address)
  else if params.pushDepth.isPushEnabled ∧ singleton = false then .error (.pushEnabledRequiresSingleton address)
  else if params.pushDepth.isPushEnabled ∧ allowedUsers ≠ 1 then
    .error (.pushEnabledRequiresSingleUser address allowedUsers)
  else
    .ok ⟨mqttChannelUuidFromAddress address, address, params.pushDepth, params.retainDepth, noise,
      params.wakeMin.getD rung.wakeMin⟩

/-- Whether a depth is over a ceiling. An unbounded depth is over every bounded one. -/
def exceeds : Depth → Depth → Bool
  | _, .unbounded => false
  | .unbounded, .bounded _ => true
  | .bounded depth, .bounded standing => decide (standing < depth)

/-! ### The state the calls share -/

structure DynamicSubscriptionRow where
  pushDepth : Depth
  retainDepth : Depth
  noise : NoiseLevel
  wakeMin : WakeMin
  qos : Option Nat
  deriving Repr, DecidableEq

/-- A client's session: its own qos and urgency, and the filters it asserts on every connect. -/
structure MqttClient where
  qos : Nat
  urgency : Urgency
  subscriptions : List IngressSubscription
  deriving Repr, DecidableEq

structure Server where
  directory : TreeMap String ChannelEntry
  /-- Keyed by channel and app, the primary key of the table. -/
  rows : TreeMap (ChannelUuid ×ₗ String) DynamicSubscriptionRow
  positions : List (ChannelUuid × Nat)
  routes : List IngressRoute
  clients : TreeMap String MqttClient

namespace Server

variable (server : Server)

def subscribersOf (address : String) : List SubscriberEntry := server.directory[address]?.elim [] (·.subscribers)

def registration (channelUuid : ChannelUuid) (appSlug : String) : Option (Option Nat) :=
  server.rows[toLex (channelUuid, appSlug)]?.map (·.qos)

end Server

/-- `none` is the panic on a taken uuid or address. -/
def addChannel (directory : TreeMap String ChannelEntry) (address : String) (entry : ChannelEntry) :
    Option (TreeMap String ChannelEntry) :=
  if directory[address]?.isSome then none else some (directory.insert address entry)

/-- A subscriber of the same principal is replaced. `none` where the channel is unknown. -/
def addSubscriber (directory : TreeMap String ChannelEntry) (channelUuid : ChannelUuid) (subscriber : SubscriberEntry) :
    Option (TreeMap String ChannelEntry) :=
  directory[channelUuid]?.map fun entry =>
    let joined :=
      if entry.subscribers.any fun held => held.kind = subscriber.kind then
        entry.subscribers.map fun held => if held.kind = subscriber.kind then subscriber else held
      else entry.subscribers ++ [subscriber]
    directory.insert channelUuid { entry with subscribers := joined }

/-- How many subscribers remain, and the directory after. `none` where there is nothing to remove. -/
def removeSubscriber (directory : TreeMap String ChannelEntry) (channelUuid : ChannelUuid)
    (kind : SubscriberEntryKind String) : Option (Nat × TreeMap String ChannelEntry) :=
  directory[channelUuid]?.bind fun entry =>
    let kept := entry.subscribers.filter fun held => held.kind ≠ kind
    if kept.length = entry.subscribers.length then none
    else some (kept.length, directory.insert channelUuid { entry with subscribers := kept })

/-! ### The core of a subscribe -/

inductive FilterDetail where
  | address (error : MqttError)
  | wildcard (detail : String)
  deriving Repr, DecidableEq

inductive RuntimeSubscribeError where
  | invalidMqttFilter (address : String) (detail : FilterDetail)
  | alreadySubscribedDiffers (address : String)
  | staticSubscriptionExists (address : String)
  | depthExceedsStanding (address field : String) (requested standing : Depth)
  | dormantSubscriptionExists (address : String)
  | params (error : SubscribeError)
  deriving Repr, DecidableEq

inductive SubscribeOutcome where
  | created (resolved : ResolvedSubscription)
  | alreadySubscribedIdentical (resolved : ResolvedSubscription)
  deriving Repr, DecidableEq

/-- The channel of an address, made where it is missing and the filter is well formed. -/
def resolveOrCreateChannel (config : Config) (directory : TreeMap String ChannelEntry) (address : String) :
    Option (Except RuntimeSubscribeError (ChannelEntry × TreeMap String ChannelEntry)) :=
  match directory[address]? with
  | some entry => some (.ok (entry, directory))
  | none =>
    match parseMqttAddress address with
    | .error refused => some (.error (.invalidMqttFilter address (.address refused)))
    | .ok parsed =>
      match validateTopicFilterStr parsed.topic with
      | .error detail => some (.error (.invalidMqttFilter address (.wildcard detail)))
      | .ok () =>
        -- The re-resolve by the canonical address is of the entry just added.
        (addChannel directory parsed.format ⟨resolveSystemChannel config parsed.format, []⟩).bind fun directory =>
          directory[parsed.format]?.map fun entry => .ok (entry, directory)

def capExceeded (resolved : ResolvedSubscription) (standing : Depth) : Option (String × Depth) :=
  [("push_depth", resolved.pushDepth), ("retain_depth", resolved.retainDepth)].find? fun stated =>
    exceeds stated.2 standing

namespace Server

variable (config : Config) (server : Server)

/-- Give an app's conversation a position. The channel of a wired input must resolve. -/
def attachConversation (address appSlug : String) : Option Server :=
  match config.conversation appSlug with
  | none => some server
  | some conversation =>
    if server.directory[address]?.isNone then none
    else if (address, conversation) ∈ server.positions then some server
    else some { server with positions := server.positions ++ [(address, conversation)] }

def detachConversation (address appSlug : String) : Option Server :=
  match config.conversation appSlug with
  | none => some server
  | some conversation =>
    if server.directory[address]?.isNone then none
    else some { server with positions := server.positions.filter (· ≠ (address, conversation)) }

/-- A plain insert: a row already under the key is a panic. -/
def insertDynamicSubscription (channelUuid : ChannelUuid) (appSlug : String) (row : DynamicSubscriptionRow) :
    Option Server :=
  if server.rows[toLex (channelUuid, appSlug)]?.isSome then none
  else some { server with rows := server.rows.insert (toLex (channelUuid, appSlug)) row }

/-- The row first, then the position, then the directory subscriber. -/
def register (appSlug address : String) (resolved : ResolvedSubscription) (qos : Option Nat) : Option Server :=
  (server.insertDynamicSubscription resolved.channelUuid appSlug
    ⟨resolved.pushDepth, resolved.retainDepth, resolved.noise, resolved.wakeMin, qos⟩).bind fun server =>
  (if resolved.pushDepth.isPushEnabled then server.attachConversation config address appSlug
    else some server).bind fun server =>
  (addSubscriber server.directory resolved.channelUuid
    ⟨.app appSlug, resolved.pushDepth, resolved.retainDepth, resolved.noise, some resolved.wakeMin⟩).map fun directory =>
  { server with directory := directory }

/-- Static and dormant holders are told so first, and the depths are checked before a re-subscribe is compared with
    what is held. -/
def settle (appSlug address : String) (entry : ChannelEntry) (resolved : ResolvedSubscription) (qos : Option Nat) :
    Option (Except RuntimeSubscribeError SubscribeOutcome × Server) :=
  let standing := entry.resolvedChannel.standingRetainDepth
  match appSubscriber entry.subscribers appSlug, server.registration resolved.channelUuid appSlug with
  | some _, none => some (.error (.staticSubscriptionExists address), server)
  | none, some _ => some (.error (.dormantSubscriptionExists address), server)
  | held, registered =>
    match capExceeded resolved standing with
    | some (field, requested) => some (.error (.depthExceedsStanding address field requested standing), server)
    | none =>
      match held, registered with
      | some existing, some existingQos =>
        if existing.pushDepth = resolved.pushDepth ∧ existing.retainDepth = resolved.retainDepth ∧
            existing.noise = resolved.noise ∧ existing.wakeMin = some resolved.wakeMin ∧ existingQos = qos then
          some (.ok (.alreadySubscribedIdentical resolved), server)
        else some (.error (.alreadySubscribedDiffers address), server)
      | _, _ => (server.register config appSlug address resolved qos).map fun next => (.ok (.created resolved), next)

def subscribeDynamic (appSlug address : String) (params : DynamicSubscribeParams) :
    Option (Except RuntimeSubscribeError SubscribeOutcome × Server) :=
  match resolveOrCreateChannel config server.directory address with
  | none => none
  | some (.error refused) => some (.error refused, server)
  | some (.ok (entry, directory)) =>
    let server := { server with directory := directory }
    -- An app without a configuration is no singleton and has no users.
    let (singleton, allowedUsers) := (config.apps appSlug).elim (false, 0) fun app => (app.singleton, app.allowedUsers)
    match resolveSubscriptionParams address params entry.resolvedChannel singleton allowedUsers with
    | .error refused => some (.error (.params refused), server)
    | .ok resolved => server.settle config appSlug address entry resolved params.qos

end Server

/-! ### The core of an unsubscribe -/

inductive RuntimeUnsubscribeError where
  | staticSubscription (address : String)
  | notSubscribed (address : String)
  deriving Repr, DecidableEq

structure UnsubscribeOutcome where
  channelUuid : ChannelUuid
  stillSubscribed : Bool
  wasDormant : Bool
  deriving Repr, DecidableEq

/-- A row whose app is no subscriber of the channel is dormant; a subscriber that the directory then fails to remove
    is a panic. -/
def Server.unsubscribeDynamic (config : Config) (server : Server) (appSlug address : String) :
    Option (Except RuntimeUnsubscribeError UnsubscribeOutcome × Server) :=
  match server.directory[address]? with
  | none => some (.error (.notSubscribed address), server)
  | some entry =>
    let held := appSubscriber entry.subscribers appSlug
    if (server.registration address appSlug).isNone then
      some (.error (if held.isSome then .staticSubscription address else .notSubscribed address), server)
    else
      let server := { server with rows := server.rows.erase (toLex (address, appSlug)) }
      match removeSubscriber server.directory address (.app appSlug) with
      | some (remaining, directory) =>
        (({ server with directory := directory } : Server).detachConversation config address appSlug).map fun next =>
          (.ok ⟨address, decide (0 < remaining), false⟩, next)
      | none =>
        if held.isNone then
          (server.detachConversation config address appSlug).map fun next =>
            (.ok ⟨address, !entry.subscribers.isEmpty, true⟩, next)
        else none

/-! ### Activation -/

/-- A live session takes or refuses a packet; one in backoff or one that gave up is not asked. -/
inductive Link where
  | live
  | sendFailed (error : String)
  | disconnected
  | failed (reason : String)
  deriving Repr, DecidableEq

inductive SubscribeActivation where
  | alreadySubscribed
  | mqttLive
  | mqttDeferredDisconnected
  | mqttClientFailed (reason : String)
  | mqttSendFailed (error : String)
  deriving Repr, DecidableEq

inductive SubscribeActivateError where
  | unconfiguredMqttClient (client : String)
  | core (error : RuntimeSubscribeError)
  | policyDenied (address : String)
  deriving Repr, DecidableEq

inductive UnsubscribeActivation where
  | localOnly
  | mqttUnsubscribedLive
  | mqttDeferredDisconnected
  | mqttSendFailed (error : String)
  | mqttOthersRemain
  deriving Repr, DecidableEq

def Link.subscribed : Link → SubscribeActivation
  | .live => .mqttLive
  | .sendFailed error => .mqttSendFailed error
  | .disconnected => .mqttDeferredDisconnected
  | .failed reason => .mqttClientFailed reason

def Link.unsubscribed : Link → UnsubscribeActivation
  | .live => .mqttUnsubscribedLive
  | .sendFailed error => .mqttSendFailed error
  | .disconnected | .failed _ => .mqttDeferredDisconnected

namespace Server

variable (config : Config) (server : Server)

/-- The checks before anything is written. A malformed address or filter passes: the core refuses it in its own
    words. -/
def admitSubscribe (appSlug address : String) (params : DynamicSubscribeParams) :
    Except SubscribeActivateError DynamicSubscribeParams :=
  match parseMqttAddress address with
  | .error _ => .ok params
  | .ok parsed =>
    if validateTopicFilterStr parsed.topic = .ok () ∧
        (config.policy appSlug).allowsMqttDynamicSubscribe parsed.client parsed.topic = false then
      .error (.policyDenied address)
    else
      match server.clients[parsed.client]? with
      | none => .error (.unconfiguredMqttClient parsed.client)
      | some client => .ok { params with qos := some (params.qos.getD client.qos) }

def setSubscriptions (slug : String) (client : MqttClient) (subscriptions : List IngressSubscription) : Server :=
  { server with clients := server.clients.insert slug { client with subscriptions := subscriptions } }

/-- The filter on the client's session; `some none` where the client has none. -/
def subscribeFilter (slug topicFilter : String) (qos : Nat) : Option (Option Server) :=
  match server.clients[slug]? with
  | none => some none
  | some client =>
    (addSubscription client.subscriptions topicFilter qos).map fun subscriptions =>
      some (server.setSubscriptions slug client subscriptions)

def unsubscribeFilter (slug topicFilter : String) : Option Server :=
  server.clients[slug]?.map fun client =>
    server.setSubscriptions slug client (removeSubscription client.subscriptions topicFilter)

def activate (link : Link) (address : String) (qos : Option Nat) :
    Option (Except SubscribeActivateError SubscribeActivation × Server) :=
  match parseMqttAddress address with
  | .error _ => none
  | .ok parsed =>
    match server.clients[parsed.client]? with
    | none => some (.error (.unconfiguredMqttClient parsed.client), server)
    | some client =>
      let routed := { server with
        routes := (addRoute server.routes ⟨parsed.client, parsed.topic, address, address, client.urgency⟩).2 }
      qos.bind fun qos =>
      (routed.subscribeFilter parsed.client parsed.topic qos).map fun
        | some next => (.ok link.subscribed, next)
        | none =>
          (.error (.unconfiguredMqttClient parsed.client),
            { routed with routes := (removeRoute routed.routes address).2 })

def subscribeDynamicActivated (link : Link) (appSlug address : String) (params : DynamicSubscribeParams) :
    Option (Except SubscribeActivateError SubscribeActivation × Server) :=
  match server.admitSubscribe config appSlug address params with
  | .error refused => some (.error refused, server)
  | .ok params =>
    match server.subscribeDynamic config appSlug address params with
    | none => none
    | some (.error refused, next) => some (.error (.core refused), next)
    | some (.ok (.alreadySubscribedIdentical _), next) => some (.ok .alreadySubscribed, next)
    | some (.ok (.created _), next) => next.activate link address params.qos

def deactivate (link : Link) (address : String) : Option (UnsubscribeActivation × Server) :=
  let unrouted := { server with routes := (removeRoute server.routes address).2 }
  match parseMqttAddress address with
  | .error _ => none
  | .ok parsed =>
    match unrouted.unsubscribeFilter parsed.client parsed.topic with
    | none => some (.localOnly, unrouted)
    | some next => some (link.unsubscribed, next)

def unsubscribeDynamicActivated (link : Link) (appSlug address : String) :
    Option (Except RuntimeUnsubscribeError UnsubscribeActivation × Server) :=
  match server.unsubscribeDynamic config appSlug address with
  | none => none
  | some (.error refused, next) => some (.error refused, next)
  | some (.ok outcome, next) =>
    if outcome.wasDormant then some (.ok .localOnly, next)
    else if outcome.stillSubscribed then some (.ok .mqttOthersRemain, next)
    else (next.deactivate link address).map fun (activation, next) => (.ok activation, next)

end Server

/-! ### What the cores do -/

theorem insert_ne_none {directory : TreeMap String ChannelEntry} {address other : String} {entry : ChannelEntry}
    (present : directory[other]? ≠ none) : (directory.insert address entry)[other]? ≠ none := by
  rw [lookup_insert]
  split
  · simp
  · exact present

/-- Subscriptions, routes and sessions are as they were; the channel asked for may have been made. -/
structure Keeps (server next : Server) : Prop where
  subscribers : ∀ address, next.subscribersOf address = server.subscribersOf address
  listed : ∀ address : String, next.directory[address]? ≠ none →
    server.directory[address]? ≠ none ∨ ∃ parsed, parseMqttAddress address = .ok parsed
  stays : ∀ address : String, server.directory[address]? ≠ none → next.directory[address]? ≠ none
  rows : next.rows = server.rows
  routes : next.routes = server.routes
  clients : next.clients = server.clients

/-- A row and a directory subscriber have been added for an app that had neither. -/
structure Creates (server : Server) (appSlug address : String) (qos : Option Nat) (next : Server) : Prop where
  unsubscribed : appSubscriber (server.subscribersOf address) appSlug = none
  unregistered : server.registration address appSlug = none
  subscribers : ∃ joined : SubscriberEntry, joined.kind = .app appSlug ∧ ∀ other, next.subscribersOf other =
    if other = address then server.subscribersOf other ++ [joined] else server.subscribersOf other
  registration : ∀ other app, next.registration other app =
    if other = address ∧ app = appSlug then some qos else server.registration other app
  present : next.directory[address]? ≠ none
  listed : ∀ other : String, next.directory[other]? ≠ none →
    server.directory[other]? ≠ none ∨ ∃ parsed, parseMqttAddress other = .ok parsed
  stays : ∀ other : String, server.directory[other]? ≠ none → next.directory[other]? ≠ none
  routes : next.routes = server.routes
  clients : next.clients = server.clients

/-- The row of an app is gone, and its directory subscriber if it had one. -/
structure Departs (server : Server) (appSlug address : String) (next : Server) : Prop where
  subscribers : ∀ other, next.subscribersOf other =
    if other = address then (server.subscribersOf other).filter fun held => held.kind ≠ .app appSlug
    else server.subscribersOf other
  registration : ∀ other app, next.registration other app =
    if other = address ∧ app = appSlug then none else server.registration other app
  present : next.directory[address]? ≠ none
  listed : ∀ other : String, next.directory[other]? ≠ none → server.directory[other]? ≠ none
  stays : ∀ other : String, server.directory[other]? ≠ none → next.directory[other]? ≠ none
  routes : next.routes = server.routes
  clients : next.clients = server.clients

theorem Keeps.refl (server : Server) : Keeps server server :=
  ⟨fun _ => rfl, fun _ present => .inl present, fun _ present => present, rfl, rfl, rfl⟩

theorem appSubscriber_eq_none {subscribers : List SubscriberEntry} {appSlug : String} :
    appSubscriber subscribers appSlug = none ↔ ∀ held ∈ subscribers, held.kind ≠ .app appSlug := by
  simp [appSubscriber]

theorem subscribersOf_held (server : Server) {address : String} {entry : ChannelEntry}
    (held : server.directory[address]? = some entry) : server.subscribersOf address = entry.subscribers := by
  simp [Server.subscribersOf, held]

theorem subscribersOf_insert (server : Server) {next : Server} {address : String} {entry : ChannelEntry}
    (inserted : next.directory = server.directory.insert address entry) (other : String) :
    next.subscribersOf other = if other = address then entry.subscribers else server.subscribersOf other := by
  unfold Server.subscribersOf
  rw [inserted, lookup_insert]
  by_cases same : address = other
  · rw [if_pos same, if_pos same.symm]
    rfl
  · rw [if_neg same, if_neg (Ne.symm same)]

theorem registration_insert (server : Server) {next : Server} {address appSlug : String} {row : DynamicSubscriptionRow}
    (inserted : next.rows = server.rows.insert (toLex (address, appSlug)) row) (other app : String) :
    next.registration other app =
      if other = address ∧ app = appSlug then some row.qos else server.registration other app := by
  unfold Server.registration
  rw [inserted, lookup_insert]
  by_cases same : other = address ∧ app = appSlug
  · rw [if_pos same, if_pos (by rw [same.1, same.2])]
    rfl
  · have apart : toLex (address, appSlug) ≠ toLex (other, app) := by
      intro equal
      obtain ⟨rfl, rfl⟩ := Prod.mk.inj (toLex.injective equal)
      exact same ⟨rfl, rfl⟩
    rw [if_neg same, if_neg apart]

theorem registration_erase (server : Server) {next : Server} {address appSlug : String}
    (erased : next.rows = server.rows.erase (toLex (address, appSlug))) (other app : String) :
    next.registration other app = if other = address ∧ app = appSlug then none else server.registration other app := by
  unfold Server.registration
  rw [erased, lookup_erase]
  by_cases same : other = address ∧ app = appSlug
  · rw [if_pos same, if_pos (by rw [same.1, same.2])]
    rfl
  · have apart : toLex (address, appSlug) ≠ toLex (other, app) := by
      intro equal
      obtain ⟨rfl, rfl⟩ := Prod.mk.inj (toLex.injective equal)
      exact same ⟨rfl, rfl⟩
    rw [if_neg same, if_neg apart]

/-- The channel is there afterwards: the one that was, or a new one without subscribers whose address parses. -/
theorem resolveOrCreateChannel_cases (config : Config) (directory : TreeMap String ChannelEntry) (address : String) :
    (∃ refused, resolveOrCreateChannel config directory address = some (.error refused)) ∨
      ∃ entry next, resolveOrCreateChannel config directory address = some (.ok (entry, next)) ∧
        next[address]? = some entry ∧
        (next = directory ∨ directory[address]? = none ∧ (∃ parsed, parseMqttAddress address = .ok parsed) ∧
          entry.subscribers = [] ∧ next = directory.insert address entry) := by
  unfold resolveOrCreateChannel
  cases held : directory[address]? with
  | some entry => exact .inr ⟨entry, directory, rfl, held, .inl rfl⟩
  | none =>
    cases accepted : parseMqttAddress address with
    | error refused => exact .inl ⟨_, rfl⟩
    | ok parsed =>
      dsimp only
      cases valid : validateTopicFilterStr parsed.topic with
      | error detail => exact .inl ⟨_, rfl⟩
      | ok accepted' =>
        -- The canonical address is the address, so the directory that missed it takes it.
        have canonical := format_of_parse accepted
        refine .inr ⟨⟨resolveSystemChannel config address, []⟩, directory.insert address _, ?_, ?_,
          .inr ⟨rfl, ⟨parsed, rfl⟩, rfl, rfl⟩⟩
        · simp [canonical, addChannel, held]
        · simp

theorem addSubscriber_new {directory : TreeMap String ChannelEntry} {address : String} {entry : ChannelEntry}
    (held : directory[address]? = some entry) (subscriber : SubscriberEntry)
    (new : ∀ other ∈ entry.subscribers, other.kind ≠ subscriber.kind) :
    addSubscriber directory address subscriber =
      some (directory.insert address { entry with subscribers := entry.subscribers ++ [subscriber] }) := by
  have absent : ¬ (entry.subscribers.any fun other => decide (other.kind = subscriber.kind)) = true := by
    simpa using new
  rw [addSubscriber, held, Option.map_some]
  dsimp only
  rw [if_neg absent]

theorem attachConversation_eq (config : Config) (server : Server) {address : String} (appSlug : String)
    (present : server.directory[address]? ≠ none) :
    ∃ positions, server.attachConversation config address appSlug = some { server with positions := positions } := by
  unfold Server.attachConversation
  rw [Option.isNone_eq_false_iff.mpr (Option.isSome_iff_ne_none.mpr present)]
  cases config.conversation appSlug with
  | none => exact ⟨server.positions, rfl⟩
  | some conversation =>
    simp only [Bool.false_eq_true, if_false]
    split
    · exact ⟨server.positions, rfl⟩
    · exact ⟨_, rfl⟩

theorem detachConversation_eq (config : Config) (server : Server) {address : String} (appSlug : String)
    (present : server.directory[address]? ≠ none) :
    ∃ positions, server.detachConversation config address appSlug = some { server with positions := positions } := by
  unfold Server.detachConversation
  rw [Option.isNone_eq_false_iff.mpr (Option.isSome_iff_ne_none.mpr present)]
  cases config.conversation appSlug with
  | none => exact ⟨server.positions, rfl⟩
  | some conversation => exact ⟨_, rfl⟩

theorem register_eq (config : Config) {server : Server} {appSlug address : String} {entry : ChannelEntry}
    {resolved : ResolvedSubscription} (qos : Option Nat) (named : resolved.channelUuid = address)
    (held : server.directory[address]? = some entry) (unsubscribed : appSubscriber entry.subscribers appSlug = none)
    (unregistered : server.registration address appSlug = none) :
    ∃ row positions joined, DynamicSubscriptionRow.qos row = qos ∧ SubscriberEntry.kind joined = .app appSlug ∧
      server.register config appSlug address resolved qos = some
        { server with
          rows := server.rows.insert (toLex (address, appSlug)) row
          positions := positions
          directory := server.directory.insert address
            { entry with subscribers := entry.subscribers ++ [joined] } } := by
  subst named
  have noRow : server.rows[toLex (resolved.channelUuid, appSlug)]? = none := by
    simpa [Server.registration] using unregistered
  let row : DynamicSubscriptionRow :=
    ⟨resolved.pushDepth, resolved.retainDepth, resolved.noise, resolved.wakeMin, qos⟩
  let joined : SubscriberEntry :=
    ⟨.app appSlug, resolved.pushDepth, resolved.retainDepth, resolved.noise, some resolved.wakeMin⟩
  let inserted : Server := { server with rows := server.rows.insert (toLex (resolved.channelUuid, appSlug)) row }
  have written : server.insertDynamicSubscription resolved.channelUuid appSlug row = some inserted := by
    rw [Server.insertDynamicSubscription, noRow]
    rfl
  obtain ⟨positions, attached⟩ : ∃ positions,
      (if resolved.pushDepth.isPushEnabled then inserted.attachConversation config resolved.channelUuid appSlug
        else some inserted) = some { inserted with positions := positions } := by
    split
    · exact attachConversation_eq config inserted appSlug (by simp [inserted, held])
    · exact ⟨inserted.positions, rfl⟩
  have added := addSubscriber_new held joined (appSubscriber_eq_none.mp unsubscribed)
  refine ⟨row, positions, joined, rfl, rfl, ?_⟩
  rw [Server.register, written, Option.bind_some, attached, Option.bind_some, added]
  rfl

theorem settle_cases (config : Config) (server : Server) (appSlug address : String) (entry : ChannelEntry)
    (resolved : ResolvedSubscription) (qos : Option Nat) :
    (∃ refused, server.settle config appSlug address entry resolved qos = some (.error refused, server)) ∨
      server.settle config appSlug address entry resolved qos =
        some (.ok (.alreadySubscribedIdentical resolved), server) ∨
      appSubscriber entry.subscribers appSlug = none ∧ server.registration resolved.channelUuid appSlug = none ∧
        server.settle config appSlug address entry resolved qos =
          (server.register config appSlug address resolved qos).map fun next => (.ok (.created resolved), next) := by
  unfold Server.settle
  cases subscribed : appSubscriber entry.subscribers appSlug with
  | some existing =>
    cases registered : server.registration resolved.channelUuid appSlug with
    | none => exact .inl ⟨_, rfl⟩
    | some existingQos =>
      dsimp only
      cases capExceeded resolved entry.resolvedChannel.standingRetainDepth with
      | some stated => exact .inl ⟨_, rfl⟩
      | none =>
        dsimp only
        split
        · exact .inr (.inl rfl)
        · exact .inl ⟨_, rfl⟩
  | none =>
    cases registered : server.registration resolved.channelUuid appSlug with
    | some existingQos => exact .inl ⟨_, rfl⟩
    | none =>
      dsimp only
      cases capExceeded resolved entry.resolvedChannel.standingRetainDepth with
      | some stated => exact .inl ⟨_, rfl⟩
      | none => exact .inr (.inr ⟨rfl, rfl, rfl⟩)

theorem channelUuid_of_resolve {address : String} {params : DynamicSubscribeParams} {rung : ResolvedChannel}
    {singleton : Bool} {allowedUsers : Nat} {resolved : ResolvedSubscription}
    (accepted : resolveSubscriptionParams address params rung singleton allowedUsers = .ok resolved) :
    resolved.channelUuid = address := by
  unfold resolveSubscriptionParams at accepted
  dsimp only at accepted
  split_ifs at accepted
  rw [← Except.ok.inj accepted]

/-- The core refuses or finds the request in force and leaves every subscription as it was, or it creates one. -/
theorem subscribeDynamic_cases (config : Config) (server : Server) (appSlug address : String)
    (params : DynamicSubscribeParams) :
    (∃ refused next, server.subscribeDynamic config appSlug address params = some (.error refused, next) ∧
        Keeps server next) ∨
      (∃ resolved next, server.subscribeDynamic config appSlug address params =
        some (.ok (.alreadySubscribedIdentical resolved), next) ∧ Keeps server next) ∨
      ∃ resolved next, server.subscribeDynamic config appSlug address params =
        some (.ok (.created resolved), next) ∧ Creates server appSlug address params.qos next := by
  unfold Server.subscribeDynamic
  obtain ⟨refused, answered⟩ | ⟨entry, directory, answered, held, made⟩ :=
    resolveOrCreateChannel_cases config server.directory address
  · exact .inl ⟨refused, server, by rw [answered], Keeps.refl server⟩
  · rw [answered]
    dsimp only
    have opened : Keeps server { server with directory := directory } := by
      refine ⟨fun other => ?_, fun other present => ?_, fun other present => ?_, rfl, rfl, rfl⟩
      · obtain rfl | ⟨missing, -, empty, inserted⟩ := made
        · rfl
        · rw [subscribersOf_insert server inserted]
          split
          · next same => rw [same, empty, Server.subscribersOf, missing]; rfl
          · rfl
      · obtain rfl | ⟨-, parses, -, inserted⟩ := made
        · exact .inl present
        · dsimp only at present
          rw [inserted, lookup_insert] at present
          split at present
          · next same => exact .inr (same ▸ parses)
          · exact .inl present
      · obtain rfl | ⟨-, -, -, inserted⟩ := made
        · exact present
        · dsimp only
          rw [inserted]
          exact insert_ne_none present
    generalize (config.apps appSlug).elim (false, 0) (fun app => (app.singleton, app.allowedUsers)) = owner
    cases resolves : resolveSubscriptionParams address params entry.resolvedChannel owner.1 owner.2 with
    | error refused => exact .inl ⟨_, _, rfl, opened⟩
    | ok resolved =>
      have named := channelUuid_of_resolve resolves
      obtain ⟨refused, settled⟩ | settled | ⟨unsubscribed, unregistered, settled⟩ :=
        settle_cases config { server with directory := directory } appSlug address entry resolved params.qos
      · exact .inl ⟨refused, _, settled, opened⟩
      · exact .inr (.inl ⟨resolved, _, settled, opened⟩)
      · rw [named] at unregistered
        obtain ⟨row, positions, joined, stored, kind, registered⟩ :=
          register_eq config params.qos named held unsubscribed unregistered
        have before := subscribersOf_held { server with directory := directory } held
        refine .inr (.inr ⟨resolved, _, by dsimp only; rw [settled, registered]; rfl, ?_⟩)
        refine ⟨?_, unregistered, ⟨joined, kind, fun other => ?_⟩, fun other app => ?_, ?_, fun other present => ?_,
          fun other present => insert_ne_none (opened.stays other present), rfl, rfl⟩
        · rw [← opened.subscribers, before]
          exact unsubscribed
        · rw [subscribersOf_insert { server with directory := directory } rfl, ← opened.subscribers other]
          split
          · next same => rw [same, before]
          · rfl
        · rw [registration_insert server rfl, stored]
        · simp
        · refine opened.listed other ?_
          dsimp only at present ⊢
          rw [lookup_insert] at present
          split at present
          · next same => rw [← same, held]; simp
          · exact present

theorem removeSubscriber_eq {directory : TreeMap String ChannelEntry} {address : String} {entry : ChannelEntry}
    (held : directory[address]? = some entry) (appSlug : String) :
    removeSubscriber directory address (.app appSlug) =
      if appSubscriber entry.subscribers appSlug = none then none
      else
        let kept := entry.subscribers.filter fun other => other.kind ≠ .app appSlug
        some (kept.length, directory.insert address { entry with subscribers := kept }) := by
  rw [removeSubscriber, held, Option.bind_some]
  dsimp only
  have removes : (entry.subscribers.filter fun other => other.kind ≠ .app appSlug).length = entry.subscribers.length ↔
      appSubscriber entry.subscribers appSlug = none := by
    rw [List.length_filter_eq_length_iff, appSubscriber_eq_none]
    simp
  simp only [removes]

/-- The core refuses, or takes the app off the channel and says whether subscribers remain, unless the row was
    dormant. -/
theorem unsubscribeDynamic_cases (config : Config) (server : Server) (appSlug address : String) :
    (∃ refused, server.unsubscribeDynamic config appSlug address = some (.error refused, server)) ∨
      ∃ outcome next, server.unsubscribeDynamic config appSlug address = some (.ok outcome, next) ∧
        Departs server appSlug address next ∧
        (outcome.wasDormant = true → appSubscriber (server.subscribersOf address) appSlug = none) ∧
        (outcome.wasDormant = false → appSubscriber (server.subscribersOf address) appSlug ≠ none ∧
          outcome.stillSubscribed = decide (next.subscribersOf address ≠ [])) := by
  unfold Server.unsubscribeDynamic
  cases held : server.directory[address]? with
  | none => exact .inl ⟨_, rfl⟩
  | some entry =>
    dsimp only
    have before := subscribersOf_held server held
    split
    · exact .inl ⟨_, rfl⟩
    · by_cases unsubscribed : appSubscriber entry.subscribers appSlug = none
      · -- A dormant row: the directory never held the app.
        let erased : Server := { server with rows := server.rows.erase (toLex (address, appSlug)) }
        have listed : erased.directory[address]? ≠ none := by simp [erased, held]
        obtain ⟨positions, detached⟩ := detachConversation_eq config erased appSlug listed
        refine .inr ⟨⟨address, !entry.subscribers.isEmpty, true⟩, { erased with positions := positions }, ?_,
          ⟨fun other => ?_, registration_erase server rfl, listed, fun other present => present, fun other present => present,
            rfl, rfl⟩,
          fun _ => before ▸ unsubscribed, fun awake => absurd awake (by simp)⟩
        · rw [removeSubscriber_eq held, if_pos unsubscribed]
          dsimp only
          rw [unsubscribed, Option.isNone_none, if_pos rfl, detached]
          rfl
        · split
          · next same =>
            rw [same]
            refine (List.filter_eq_self.mpr fun named member => ?_).symm
            have inside : named ∈ server.subscribersOf address := member
            rw [before] at inside
            simpa using appSubscriber_eq_none.mp unsubscribed named inside
          · rfl
      · let kept := entry.subscribers.filter fun other => other.kind ≠ .app appSlug
        let erased : Server :=
          { server with
            rows := server.rows.erase (toLex (address, appSlug))
            directory := server.directory.insert address { entry with subscribers := kept } }
        have listed : erased.directory[address]? ≠ none := by simp [erased]
        have inserted : erased.directory = server.directory.insert address { entry with subscribers := kept } := rfl
        have remaining := subscribersOf_insert server inserted
        obtain ⟨positions, detached⟩ := detachConversation_eq config erased appSlug listed
        refine .inr ⟨⟨address, decide (0 < kept.length), false⟩, { erased with positions := positions }, ?_,
          ⟨fun other => ?_, registration_erase server rfl, listed, fun other present => ?_,
            fun other present => insert_ne_none present, rfl, rfl⟩,
          fun dormant => absurd dormant (by simp), fun _ => ⟨before ▸ unsubscribed, ?_⟩⟩
        · rw [removeSubscriber_eq held, if_neg unsubscribed]
          dsimp only
          rw [detached]
          rfl
        · refine (remaining other).trans ?_
          split
          · next same => rw [same, before]
          · rfl
        · dsimp only [erased] at present
          rw [lookup_insert] at present
          split at present
          · next same => rw [← same, held]; simp
          · exact present
        · rw [show ({ erased with positions := positions } : Server).subscribersOf address = kept from
            (remaining address).trans (if_pos rfl)]
          exact decide_eq_decide.mpr List.length_pos_iff

end Brenn.Mqtt
