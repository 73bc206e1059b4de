import Brenn.Access.TopicFilters
import Brenn.Store.Contract

/-!
The runtime parts of an `mqtt:` channel beside its directory entry: its address, the filter a
client's session re-asserts on every connect, and the route that takes a delivery to it.
-/

namespace Brenn.Mqtt
open Brenn.Access Brenn.Store

/-! ### Addresses -/

structure MqttAddress where
  client : String
  topic : String
  deriving Repr, DecidableEq

def MqttAddress.format (parsed : MqttAddress) : String := "mqtt:" ++ parsed.client ++ ":" ++ parsed.topic

inductive AddressDetail where
  | missingSeparator
  | clientSlug (client : String)
  | emptyTopic
  | topicBytes (bytes : Nat)
  | embeddedNul
  deriving Repr, DecidableEq

inductive MqttError where
  | wrongProtocol (address : String)
  | addressInvalid (address : String) (detail : AddressDetail)
  deriving Repr, DecidableEq

def isValidClientSlug (slug : String) : Bool :=
  !slug.isEmpty && slug.toList.all fun c => c.isAlphanum || c == '.' || c == '_' || c == '~' || c == '-'

def afterScheme (address : String) : Option (List Char) :=
  match address.toList with
  | 'm' :: 'q' :: 't' :: 't' :: ':' :: rest => some rest
  | _ => none

/-- The client ends at the first colon; the topic may hold more of them. -/
def parseMqttAddress (address : String) : Except MqttError MqttAddress :=
  match afterScheme address with
  | none => .error (.wrongProtocol address)
  | some rest =>
    if ':' ∉ rest then .error (.addressInvalid address .missingSeparator)
    else
      let client := String.ofList (rest.takeWhile (· ≠ ':'))
      let topic := String.ofList ((rest.dropWhile (· ≠ ':')).drop 1)
      if isValidClientSlug client = false then .error (.addressInvalid address (.clientSlug client))
      else if topic.isEmpty then .error (.addressInvalid address .emptyTopic)
      else if 65535 < topic.utf8ByteSize then .error (.addressInvalid address (.topicBytes topic.utf8ByteSize))
      else if Char.ofNat 0 ∈ topic.toList then .error (.addressInvalid address .embeddedNul)
      else .ok ⟨client, topic⟩

theorem toList_of_afterScheme {address : String} {rest : List Char} (named : afterScheme address = some rest) :
    address.toList = "mqtt:".toList ++ rest := by
  unfold afterScheme at named
  split at named
  · next spelled => rw [spelled, Option.some.inj named]; rfl
  · simp at named

theorem takeWhile_colon_dropWhile {rest : List Char} (separated : ':' ∈ rest) :
    rest.takeWhile (· ≠ ':') ++ ':' :: (rest.dropWhile (· ≠ ':')).drop 1 = rest := by
  induction rest with
  | nil => simp at separated
  | cons c rest ih =>
    by_cases here : c = ':'
    · simp [here]
    · have later : ':' ∈ rest := (List.mem_cons.mp separated).resolve_left (Ne.symm here)
      simpa [here] using ih later

/-- The canonical form of an address that parses is the address itself. -/
theorem format_of_parse {address : String} {parsed : MqttAddress} (accepted : parseMqttAddress address = .ok parsed) :
    parsed.format = address := by
  unfold parseMqttAddress at accepted
  split at accepted
  · simp at accepted
  · next rest named =>
    dsimp only at accepted
    split_ifs at accepted with separated
    obtain rfl := Except.ok.inj accepted
    refine String.toList_injective ?_
    simp only [MqttAddress.format, String.toList_append, String.toList_ofList, toList_of_afterScheme named,
      List.append_assoc]
    have whole := takeWhile_colon_dropWhile separated
    simpa using whole

/-- The uuid of an `mqtt:` channel is a v5 hash of its address. Hashes are taken to be free of
    collisions, and the address stands for the uuid. -/
abbrev ChannelUuid := String

abbrev mqttChannelUuidFromAddress (address : String) : ChannelUuid := address

/-! ### The filter set of a session -/

structure IngressSubscription where
  topicFilter : String
  qos : Nat
  subId : Nat
  deriving Repr, DecidableEq

/-- Identifiers are `u32`; a release build wraps. -/
def nextSubId (subscriptions : List IngressSubscription) : Nat :=
  ((subscriptions.map (·.subId)).max?.getD 0 + 1) % 2 ^ 32

def qosOf (subscriptions : List IngressSubscription) (topicFilter : String) : Option Nat :=
  (subscriptions.find? fun held => held.topicFilter = topicFilter).map (·.qos)

/-- `none` is the assertion that a filter already held is asked for at its own qos. -/
def addSubscription (subscriptions : List IngressSubscription) (topicFilter : String) (qos : Nat) :
    Option (List IngressSubscription) :=
  match subscriptions.find? fun held => held.topicFilter = topicFilter with
  | some existing => if existing.qos = qos then some subscriptions else none
  | none => some (subscriptions ++ [⟨topicFilter, qos, nextSubId subscriptions⟩])

def removeSubscription (subscriptions : List IngressSubscription) (topicFilter : String) : List IngressSubscription :=
  subscriptions.filter fun held => held.topicFilter ≠ topicFilter

theorem addSubscription_eq (subscriptions : List IngressSubscription) (topicFilter : String) (qos : Nat) :
    addSubscription subscriptions topicFilter qos =
      match qosOf subscriptions topicFilter with
      | some held => if held = qos then some subscriptions else none
      | none => some (subscriptions ++ [⟨topicFilter, qos, nextSubId subscriptions⟩]) := by
  unfold addSubscription qosOf
  cases subscriptions.find? fun held => held.topicFilter = topicFilter <;> rfl

theorem qosOf_eq_none {subscriptions : List IngressSubscription} {topicFilter : String} :
    qosOf subscriptions topicFilter = none ↔ ∀ held ∈ subscriptions, held.topicFilter ≠ topicFilter := by
  simp [qosOf]

theorem qosOf_append (first second : List IngressSubscription) (topicFilter : String) :
    qosOf (first ++ second) topicFilter = (qosOf first topicFilter).or (qosOf second topicFilter) := by
  unfold qosOf
  rw [List.find?_append, Option.map_or]

theorem qosOf_remove (subscriptions : List IngressSubscription) (topicFilter other : String) :
    qosOf (removeSubscription subscriptions topicFilter) other =
      if other = topicFilter then none else qosOf subscriptions other := by
  split
  · next same =>
    rw [same, qosOf_eq_none]
    intro held kept
    simpa [removeSubscription] using (List.mem_filter.mp kept).2
  · next apart =>
    unfold qosOf removeSubscription
    rw [List.find?_filter]
    congr 1
    refine List.find?_congr fun held _ => ?_
    by_cases named : held.topicFilter = other
    · simp [named, apart]
    · simp [named]

theorem qosOf_add {subscriptions next : List IngressSubscription} {topicFilter : String} {qos : Nat}
    (added : addSubscription subscriptions topicFilter qos = some next) (other : String) :
    qosOf next other = if other = topicFilter then some qos else qosOf subscriptions other := by
  rw [addSubscription_eq] at added
  cases held : qosOf subscriptions topicFilter with
  | some present =>
    rw [held] at added
    obtain ⟨rfl, rfl⟩ : present = qos ∧ subscriptions = next := by simpa using added
    split
    · next same => rw [same, held]
    · rfl
  | none =>
    rw [held] at added
    obtain rfl := Option.some.inj added
    rw [qosOf_append]
    split
    · next same => rw [same, held]; simp [qosOf]
    · next apart => simp [qosOf, Ne.symm apart]

def countOf (subscriptions : List IngressSubscription) (topicFilter : String) : Nat :=
  subscriptions.countP fun held => held.topicFilter = topicFilter

theorem countOf_remove (subscriptions : List IngressSubscription) (topicFilter other : String) :
    countOf (removeSubscription subscriptions topicFilter) other =
      if other = topicFilter then 0 else countOf subscriptions other := by
  unfold countOf removeSubscription
  rw [List.countP_filter]
  split
  · next same => simp [same]
  · next apart =>
    refine List.countP_congr fun held _ => ?_
    simp only [Bool.and_eq_true, decide_eq_true_eq, and_iff_left_iff_imp]
    rintro rfl
    exact apart

theorem countOf_pos {subscriptions : List IngressSubscription} {topicFilter : String} :
    0 < countOf subscriptions topicFilter ↔ (qosOf subscriptions topicFilter).isSome := by
  simp [countOf, qosOf, List.countP_pos_iff]

/-- A filter that is added is held once more unless it was held already. -/
theorem countOf_add {subscriptions next : List IngressSubscription} {topicFilter : String} {qos : Nat}
    (added : addSubscription subscriptions topicFilter qos = some next) (other : String) :
    countOf next other =
      if other = topicFilter then max 1 (countOf subscriptions other) else countOf subscriptions other := by
  rw [addSubscription_eq] at added
  cases held : qosOf subscriptions topicFilter with
  | some present =>
    rw [held] at added
    obtain ⟨rfl, rfl⟩ : present = qos ∧ subscriptions = next := by simpa using added
    split
    · next same =>
      have present : 0 < countOf subscriptions topicFilter := countOf_pos.mpr (by rw [held]; rfl)
      rw [same]
      omega
    · rfl
  | none =>
    rw [held] at added
    obtain rfl := Option.some.inj added
    have absent : countOf subscriptions topicFilter = 0 := by
      have := mt countOf_pos.mp (by rw [held]; simp)
      omega
    unfold countOf at absent ⊢
    rw [List.countP_append]
    split
    · next same => rw [same, absent]; simp
    · next apart => simp [Ne.symm apart]

/-! ### The routes -/

structure IngressRoute where
  clientSlug : String
  topicFilter : String
  channelAddress : String
  channelUuid : ChannelUuid
  urgency : Urgency
  deriving Repr, DecidableEq

/-- Whether a route was inserted, and the table after. A channel that has a route keeps it. -/
def addRoute (routes : List IngressRoute) (route : IngressRoute) : Bool × List IngressRoute :=
  if routes.any fun held => held.channelUuid = route.channelUuid then (false, routes) else (true, routes ++ [route])

def removeRoute (routes : List IngressRoute) (channelUuid : ChannelUuid) : Bool × List IngressRoute :=
  let kept := routes.filter fun held => held.channelUuid ≠ channelUuid
  (decide (kept.length ≠ routes.length), kept)

def routesTo (routes : List IngressRoute) (channelUuid : ChannelUuid) : Nat :=
  routes.countP fun held => held.channelUuid = channelUuid

theorem routesTo_add (routes : List IngressRoute) (route : IngressRoute) (channelUuid : ChannelUuid) :
    routesTo (addRoute routes route).2 channelUuid =
      if channelUuid = route.channelUuid then max 1 (routesTo routes channelUuid) else routesTo routes channelUuid := by
  unfold addRoute routesTo
  split
  · next routed =>
    split
    · next same =>
      have positive : 0 < routes.countP fun held => held.channelUuid = channelUuid := by
        obtain ⟨held, member, named⟩ := List.any_eq_true.mp routed
        exact List.countP_pos_iff.mpr ⟨held, member, by rw [same]; exact named⟩
      exact (Nat.max_eq_right positive).symm
    · rfl
  · next unrouted =>
    rw [List.countP_append]
    split
    · next same =>
      have none : (routes.countP fun held => held.channelUuid = channelUuid) = 0 := by
        rw [List.countP_eq_zero]
        intro held member named
        exact unrouted (List.any_eq_true.mpr ⟨held, member, by rw [← same]; exact named⟩)
      rw [none]
      simp [same]
    · next apart => simp [Ne.symm apart]

theorem routesTo_remove (routes : List IngressRoute) (channelUuid other : ChannelUuid) :
    routesTo (removeRoute routes channelUuid).2 other =
      if other = channelUuid then 0 else routesTo routes other := by
  unfold removeRoute routesTo
  rw [List.countP_filter]
  split
  · next same => simp [same]
  · next apart =>
    refine List.countP_congr fun held _ => ?_
    simp only [Bool.and_eq_true, decide_eq_true_eq, and_iff_left_iff_imp]
    rintro rfl
    exact apart

end Brenn.Mqtt
