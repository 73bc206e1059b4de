import Brenn.Mqtt.Restart

/-!
The filters a broker holds for a client, against the client's reconnect set.

A session begins with nothing subscribed, and the supervisor asserts the filter set piece by piece,
as the bounded request channel takes it. A subscribe that finds the channel full leaves its filter
in the deferred queue; an unsubscribe waits for room. Nothing takes a filter out of the supervisor's
list or the queue when it is unsubscribed, so one that still waits there is subscribed after all.
-/

namespace Brenn.Mqtt
open Brenn.Lib Std

/-! ### Packets -/

/-- A request on a session's channel; `other` stands for publishes and the rest. -/
inductive Packet where
  | subscribe (topicFilter : String)
  | unsubscribe (topicFilter : String)
  | other
  deriving Repr, DecidableEq

def Packet.apply (held : List String) : Packet → List String
  | .subscribe topicFilter => if topicFilter ∈ held then held else held ++ [topicFilter]
  | .unsubscribe topicFilter => held.filter fun other => other ≠ topicFilter
  | .other => held

theorem Packet.mem_apply_subscribe (held : List String) (topicFilter other : String) :
    other ∈ Packet.apply held (.subscribe topicFilter) ↔ other ∈ held ∨ other = topicFilter := by
  unfold Packet.apply
  dsimp only
  by_cases present : topicFilter ∈ held
  · rw [if_pos present]
    refine ⟨.inl, ?_⟩
    rintro (old | rfl)
    · exact old
    · exact present
  · rw [if_neg present, List.mem_append, List.mem_singleton]

theorem Packet.mem_apply_unsubscribe (held : List String) (topicFilter other : String) :
    other ∈ Packet.apply held (.unsubscribe topicFilter) ↔ other ∈ held ∧ other ≠ topicFilter := by
  simp [Packet.apply]

/-! ### Filters of a set -/

def filters (subscriptions : List IngressSubscription) : List String := subscriptions.map (·.topicFilter)

theorem mem_filters {subscriptions : List IngressSubscription} {topicFilter : String} :
    topicFilter ∈ filters subscriptions ↔ (qosOf subscriptions topicFilter).isSome = true := by
  simp [filters, qosOf]

theorem mem_filters_perform {edit : FilterEdit} {topicFilter : String} {subscriptions next : List IngressSubscription}
    (performed : edit.perform topicFilter subscriptions = some next) (other : String) :
    other ∈ filters next ↔ if other = topicFilter then edit ≠ .unsubscribe else other ∈ filters subscriptions := by
  rw [mem_filters, FilterEdit.qosOf_perform performed]
  split
  · cases edit <;> simp [FilterEdit.apply]
  · exact mem_filters.symm

/-- The entry `add_subscription` returns: the one that is there or the one it makes. -/
def subscriptionFor (subscriptions : List IngressSubscription) (topicFilter : String) (qos : Nat) : IngressSubscription :=
  (subscriptions.find? fun held => held.topicFilter = topicFilter).getD ⟨topicFilter, qos, nextSubId subscriptions⟩

theorem subscriptionFor_topicFilter (subscriptions : List IngressSubscription) (topicFilter : String) (qos : Nat) :
    (subscriptionFor subscriptions topicFilter qos).topicFilter = topicFilter := by
  unfold subscriptionFor
  cases found : subscriptions.find? fun held => held.topicFilter = topicFilter with
  | none => rfl
  | some held => simpa using List.find?_some found

/-! ### The client and its broker -/

inductive SupervisorStage where
  | offline
  /-- The broker has answered and the deferred queue has been cleared. -/
  | ready
  /-- The client is in its cell; the filter set has not been read. -/
  | installed
  | draining (unasserted : List IngressSubscription)
  | asserting (unasserted : List IngressSubscription)
  | polling (unasserted : List IngressSubscription)
  /-- The connection is gone and the client still in its cell. -/
  | lost
  deriving Repr, DecidableEq

namespace SupervisorStage

def live : SupervisorStage → Bool
  | .ready | .installed | .draining _ | .asserting _ | .polling _ => true
  | .offline | .lost => false

def looping : SupervisorStage → Bool
  | .draining _ | .asserting _ | .polling _ => true
  | .offline | .ready | .installed | .lost => false

def unasserted : SupervisorStage → List IngressSubscription
  | .draining unasserted | .asserting unasserted | .polling unasserted => unasserted
  | .offline | .ready | .installed | .lost => []

def holdsClient : SupervisorStage → Bool
  | .installed | .draining _ | .asserting _ | .polling _ | .lost => true
  | .offline | .ready => false

end SupervisorStage

inductive FilterTask where
  | editSet (edit : FilterEdit)
  | locateSubscribe (sub : IngressSubscription)
  | locateUnsubscribe
  | sendSubscribe (sub : IngressSubscription) (session : Nat)
  | sendUnsubscribe (session : Nat)
  deriving Repr, DecidableEq

structure BrokerLink where
  subscriptions : List IngressSubscription
  supervisor : SupervisorStage := .offline
  /-- The sessions whose client has been installed. -/
  session : Nat := 0
  deferred : List IngressSubscription := []
  requests : List Packet := []
  /-- What the event loop has taken off the channel and the broker has not applied. -/
  wire : List Packet := []
  broker : List String := []
  /-- The calls that have not returned, by their filter. -/
  calls : TreeMap String FilterTask := ∅

inductive LinkEvent where
  | call (topicFilter : String) (edit : FilterEdit)
  /-- The next step of a call; `gone` is what it meets on the channel of a session that is over. -/
  | advance (topicFilter : String) (gone : Bool)
  | connect
  /-- The supervisor's next step short of a poll. -/
  | supervise
  /-- A poll that takes a request, or returns with something the broker sent. -/
  | poll (incoming : Bool)
  | lose
  | apply
  | request
  deriving Repr, DecidableEq

namespace BrokerLink

variable (capacity : Nat) (link : BrokerLink)

def client : Option Nat := if link.supervisor.holdsClient then some link.session else none

def opens (session : Nat) : Bool := decide (link.client = some session) && link.supervisor.live

def hasRoom : Bool := decide (link.requests.length < capacity)

def setCall (topicFilter : String) (task : FilterTask) : BrokerLink :=
  { link with calls := link.calls.insert topicFilter task }

def endCall (topicFilter : String) : BrokerLink := { link with calls := link.calls.erase topicFilter }

def accept (packet : Packet) : BrokerLink := { link with requests := link.requests ++ [packet] }

def defer (sub : IngressSubscription) : BrokerLink := { link with deferred := link.deferred ++ [sub] }

def advance (topicFilter : String) (gone : Bool) : FilterTask → BrokerLink
  | .editSet edit =>
    match edit.perform topicFilter link.subscriptions with
    | none => link.endCall topicFilter
    | some subscriptions =>
      ({ link with subscriptions } : BrokerLink).setCall topicFilter (match edit with
        | .subscribe qos => .locateSubscribe (subscriptionFor link.subscriptions topicFilter qos)
        | .unsubscribe => .locateUnsubscribe)
  | .locateSubscribe sub =>
    match link.client with
    | none => link.endCall topicFilter
    | some session => link.setCall topicFilter (.sendSubscribe sub session)
  | .locateUnsubscribe =>
    match link.client with
    | none => link.endCall topicFilter
    | some session => link.setCall topicFilter (.sendUnsubscribe session)
  | .sendSubscribe sub session =>
    -- The send and the push are one section under the queue's lock. A channel nobody reads any more
    -- takes the packet or fails like a full one.
    if link.opens session then
      if link.hasRoom capacity then (link.accept (.subscribe sub.topicFilter)).endCall topicFilter
      else (link.defer sub).endCall topicFilter
    else if gone then (link.defer sub).endCall topicFilter
    else link.endCall topicFilter
  | .sendUnsubscribe session =>
    if link.opens session then
      if link.hasRoom capacity then (link.accept (.unsubscribe topicFilter)).endCall topicFilter else link
    else link.endCall topicFilter

def supervise : BrokerLink :=
  match link.supervisor with
  | .offline => link
  | .ready => { link with supervisor := .installed, session := link.session + 1 }
  | .installed => { link with supervisor := .draining link.subscriptions }
  | .draining unasserted => { link with supervisor := .asserting (unasserted ++ link.deferred), deferred := [] }
  | .asserting [] => { link with supervisor := .polling [] }
  | .asserting (sub :: rest) =>
    if link.hasRoom capacity then { link.accept (.subscribe sub.topicFilter) with supervisor := .asserting rest }
    else { link with supervisor := .polling (sub :: rest) }
  | .polling _ => link
  | .lost => { link with supervisor := .offline }

def poll (incoming : Bool) : BrokerLink :=
  match link.supervisor, link.requests with
  | .polling unasserted, packet :: rest =>
    if incoming then { link with supervisor := .draining unasserted }
    else { link with supervisor := .draining unasserted, requests := rest, wire := link.wire ++ [packet] }
  | .polling unasserted, [] => { link with supervisor := .draining unasserted }
  | _, _ => link

def step : LinkEvent → Option BrokerLink
  | .call topicFilter edit => some (link.setCall topicFilter (.editSet edit))
  | .advance topicFilter gone => some (link.calls[topicFilter]?.elim link (link.advance capacity topicFilter gone))
  | .connect =>
    if link.supervisor = .offline then
      some { link with supervisor := .ready, deferred := [], requests := [], wire := [], broker := [] }
    else some link
  | .supervise => some (link.supervise capacity)
  | .poll incoming => some (link.poll incoming)
  | .lose =>
    match link.supervisor with
    | .polling _ => some { link with supervisor := .lost }
    | _ => some link
  | .apply =>
    match link.wire with
    | [] => some link
    | packet :: wire => some { link with wire, broker := packet.apply link.broker }
  | .request =>
    if link.supervisor.holdsClient && link.hasRoom capacity then some (link.accept .other) else some link

/-- Calls on one filter do not overlap. -/
def Apart : LinkEvent → Prop
  | .call topicFilter _ => link.calls[topicFilter]? = none
  | .advance .. | .connect | .supervise | .poll _ | .lose | .apply | .request => True

/-- Whether the call is an unsubscribe about to return: its packet is taken, or there is no client. -/
def withdraws : FilterTask → Bool
  | .locateUnsubscribe => link.client.isNone
  | .sendUnsubscribe session => link.opens session && link.hasRoom capacity
  | .editSet _ | .locateSubscribe _ | .sendSubscribe .. => false

/-- An unsubscribe that returns in a session leaves nothing of its filter with the supervisor. -/
def Clear : LinkEvent → Prop
  | .advance topicFilter _ => ∀ task ∈ link.calls[topicFilter]?, link.withdraws capacity task = true →
      link.supervisor.live = true → topicFilter ∉ filters (link.supervisor.unasserted ++ link.deferred)
  | .call .. | .connect | .supervise | .poll _ | .lose | .apply | .request => True

instance (event : LinkEvent) : Decidable (link.Apart event) :=
  match event with
  | .call topicFilter _ => decidable_of_iff (link.calls[topicFilter]?.isNone = true) Option.isNone_iff_eq_none
  | .advance .. | .connect | .supervise | .poll _ | .lose | .apply | .request => inferInstanceAs (Decidable True)

instance (event : LinkEvent) : Decidable (link.Clear capacity event) :=
  match event with
  | .advance topicFilter _ => inferInstanceAs (Decidable (∀ task ∈ link.calls[topicFilter]?,
      link.withdraws capacity task = true → link.supervisor.live = true →
        topicFilter ∉ filters (link.supervisor.unasserted ++ link.deferred)))
  | .call .. | .connect | .supervise | .poll _ | .lose | .apply | .request => inferInstanceAs (Decidable True)

/-- Connected, with every call returned, nothing left to assert and every packet applied. -/
structure Settled : Prop where
  looping : link.supervisor.looping = true
  unasserted : link.supervisor.unasserted = []
  deferred : link.deferred = []
  calls : link.calls.isEmpty = true
  requests : link.requests = []
  wire : link.wire = []

instance : Decidable link.Settled :=
  decidable_of_iff (link.supervisor.looping = true ∧ link.supervisor.unasserted = [] ∧ link.deferred = [] ∧
      link.calls.isEmpty = true ∧ link.requests = [] ∧ link.wire = [])
    ⟨fun ⟨looping, unasserted, deferred, calls, requests, wire⟩ =>
      ⟨looping, unasserted, deferred, calls, requests, wire⟩,
    fun settled => ⟨settled.looping, settled.unasserted, settled.deferred, settled.calls, settled.requests, settled.wire⟩⟩

/-! ### What the broker is going to hold -/

def ahead : List String := (link.wire ++ link.requests).foldl Packet.apply link.broker

/-- Those, and what the supervisor is going to subscribe. -/
def Coming (topicFilter : String) : Prop :=
  topicFilter ∈ link.ahead ∨ topicFilter ∈ filters (link.supervisor.unasserted ++ link.deferred)

/-- What is coming is in the set, and all of it once the set has been read. -/
def Quiet (topicFilter : String) : Prop :=
  link.supervisor.live = true → (link.Coming topicFilter → topicFilter ∈ filters link.subscriptions) ∧
    (link.supervisor.looping = true → topicFilter ∈ filters link.subscriptions → link.Coming topicFilter)

/-- What holds of a filter at a step of its call. A call with the client of an earlier session was there before this
    one read the set. -/
def OnCourse (topicFilter : String) : Option FilterTask → Prop
  | none | some (.editSet _) => link.Quiet topicFilter
  | some (.locateSubscribe sub) => sub.topicFilter = topicFilter ∧ topicFilter ∈ filters link.subscriptions
  | some (.sendSubscribe sub session) => sub.topicFilter = topicFilter ∧ topicFilter ∈ filters link.subscriptions ∧
      session ≤ link.session ∧
      (link.opens session = false → link.supervisor.looping = true → link.Coming topicFilter)
  | some .locateUnsubscribe => topicFilter ∉ filters link.subscriptions
  | some (.sendUnsubscribe session) => topicFilter ∉ filters link.subscriptions ∧ session ≤ link.session ∧
      (link.opens session = false → link.supervisor.live = true → ¬ link.Coming topicFilter)

structure Sound : Prop where
  course : ∀ topicFilter : String, link.OnCourse topicFilter link.calls[topicFilter]?
  /-- Nothing is sent before the client is installed. -/
  fresh : link.supervisor = .ready → link.ahead = []

variable {capacity link} {next : BrokerLink} {topicFilter : String}

theorem ahead_accept (link : BrokerLink) (packet : Packet) : (link.accept packet).ahead = packet.apply link.ahead := by
  simp [ahead, accept, List.foldl_append]

theorem coming_accept_subscribe (link : BrokerLink) (topicFilter other : String) :
    (link.accept (.subscribe topicFilter)).Coming other ↔ link.Coming other ∨ other = topicFilter := by
  unfold Coming
  rw [ahead_accept, Packet.mem_apply_subscribe]
  simp only [accept]
  tauto

theorem coming_defer (link : BrokerLink) (sub : IngressSubscription) (other : String) :
    (link.defer sub).Coming other ↔ link.Coming other ∨ other = sub.topicFilter := by
  have same : (link.defer sub).ahead = link.ahead := rfl
  unfold Coming
  rw [same]
  simp [defer, filters, or_assoc]

/-- A filter goes on as before where neither it, its call nor the session is touched. -/
theorem OnCourse.congr {task : Option FilterTask} (course : link.OnCourse topicFilter task)
    (supervisor : next.supervisor = link.supervisor) (session : next.session = link.session)
    (held : topicFilter ∈ filters next.subscriptions ↔ topicFilter ∈ filters link.subscriptions)
    (coming : next.Coming topicFilter ↔ link.Coming topicFilter) : next.OnCourse topicFilter task := by
  have opens : ∀ one, next.opens one = link.opens one := by simp [opens, client, supervisor, session]
  have quiet : link.Quiet topicFilter → next.Quiet topicFilter := by
    unfold Quiet
    rw [supervisor, held, coming]
    exact id
  cases task with
  | none => exact quiet course
  | some task =>
    cases task with
    | editSet edit => exact quiet course
    | locateSubscribe sub => exact ⟨course.1, held.mpr course.2⟩
    | locateUnsubscribe => exact fun present => course (held.mp present)
    | sendSubscribe sub one =>
      obtain ⟨named, present, known, covered⟩ := course
      refine ⟨named, held.mpr present, session ▸ known, fun closed looping => coming.mpr ?_⟩
      exact covered (opens one ▸ closed) (supervisor ▸ looping)
    | sendUnsubscribe one =>
      obtain ⟨absent, known, uncovered⟩ := course
      refine ⟨fun present => absent (held.mp present), session ▸ known, fun closed live waits => ?_⟩
      exact uncovered (opens one ▸ closed) (supervisor ▸ live) (coming.mp waits)

/-- A step of the supervisor or the broker, which edits neither the set nor a call. -/
theorem Sound.turns (sound : link.Sound) (calls : next.calls = link.calls)
    (subscriptions : next.subscriptions = link.subscriptions) (later : link.session ≤ next.session)
    (quiet : ∀ topicFilter, link.Quiet topicFilter → next.Quiet topicFilter)
    (kept : ∀ topicFilter session, session ≤ link.session → topicFilter ∈ filters link.subscriptions →
      (link.opens session = false → link.supervisor.looping = true → link.Coming topicFilter) →
      next.opens session = false → next.supervisor.looping = true → next.Coming topicFilter)
    (given : ∀ topicFilter session, session ≤ link.session → topicFilter ∉ filters link.subscriptions →
      (link.opens session = false → link.supervisor.live = true → ¬ link.Coming topicFilter) →
      next.opens session = false → next.supervisor.live = true → ¬ next.Coming topicFilter)
    (fresh : next.supervisor = .ready → next.ahead = []) : next.Sound := by
  refine ⟨fun topicFilter => ?_, fresh⟩
  have course := sound.course topicFilter
  rw [calls]
  cases called : link.calls[topicFilter]? with
  | none =>
    rw [called] at course
    exact quiet topicFilter course
  | some task =>
    rw [called] at course
    cases task with
    | editSet edit => exact quiet topicFilter course
    | locateSubscribe sub => exact ⟨course.1, subscriptions ▸ course.2⟩
    | locateUnsubscribe =>
      have absent : topicFilter ∉ filters next.subscriptions := by
        rw [subscriptions]
        exact course
      exact absent
    | sendSubscribe sub session =>
      obtain ⟨named, held, known, covered⟩ := course
      exact ⟨named, subscriptions ▸ held, known.trans later, kept topicFilter session known held covered⟩
    | sendUnsubscribe session =>
      obtain ⟨absent, known, uncovered⟩ := course
      exact ⟨subscriptions ▸ absent, known.trans later, given topicFilter session known absent uncovered⟩

theorem holdsClient_of_looping (looping : link.supervisor.looping = true) : link.supervisor.holdsClient = true := by
  cases stage : link.supervisor <;> simp [stage, SupervisorStage.looping] at looping <;> rfl

theorem live_of_looping (looping : link.supervisor.looping = true) : link.supervisor.live = true := by
  cases stage : link.supervisor <;> simp [stage, SupervisorStage.looping] at looping <;> rfl

/-- A step of the main loop that keeps what is coming. -/
theorem Sound.loops (sound : link.Sound) (calls : next.calls = link.calls)
    (subscriptions : next.subscriptions = link.subscriptions) (session : next.session = link.session)
    (before : link.supervisor.looping = true) (after : next.supervisor.looping = true)
    (coming : ∀ topicFilter, next.Coming topicFilter ↔ link.Coming topicFilter) : next.Sound := by
  have live : next.supervisor.live = link.supervisor.live := (live_of_looping after).trans (live_of_looping before).symm
  have looping : next.supervisor.looping = link.supervisor.looping := after.trans before.symm
  have opens : ∀ one, next.opens one = link.opens one := by
    simp [opens, client, holdsClient_of_looping before, holdsClient_of_looping after, session, live]
  refine sound.turns calls subscriptions session.ge (fun topicFilter quiet => ?_)
    (fun topicFilter one _ _ covered => ?_) (fun topicFilter one _ _ uncovered => ?_) fun ready => ?_
  · unfold Quiet
    rw [live, looping, subscriptions, coming]
    exact quiet
  · rw [opens, looping, coming]
    exact covered
  · rw [opens, live, coming]
    exact uncovered
  · rw [ready] at after
    cases after

/-- Outside a session nothing is asked of what is coming. -/
theorem Sound.down (sound : link.Sound) (calls : next.calls = link.calls)
    (subscriptions : next.subscriptions = link.subscriptions) (session : next.session = link.session)
    (closed : next.supervisor.live = false) : next.Sound := by
  have notLooping : next.supervisor.looping = true → False := by
    intro looping
    cases stage : next.supervisor <;> simp [stage, SupervisorStage.looping, SupervisorStage.live] at looping closed
  refine sound.turns calls subscriptions session.ge (fun _ _ live => ?_) (fun _ _ _ _ _ _ looping => ?_)
    (fun _ _ _ _ _ _ live => ?_) fun ready => ?_
  · rw [closed] at live
    cases live
  · exact absurd looping notLooping
  · rw [closed] at live
    cases live
  · rw [ready] at closed
    cases closed

/-- A step of one call: the others go on, and its own filter is in order again. -/
theorem Sound.calls (sound : link.Sound) (supervisor : next.supervisor = link.supervisor)
    (session : next.session = link.session) (task : Option FilterTask)
    (others : ∀ other, next.calls[other]? = if topicFilter = other then task else link.calls[other]?)
    (held : ∀ other, other ≠ topicFilter → (other ∈ filters next.subscriptions ↔ other ∈ filters link.subscriptions))
    (coming : ∀ other, other ≠ topicFilter → (next.Coming other ↔ link.Coming other))
    (ahead : link.supervisor = .ready → next.ahead = link.ahead) (own : next.OnCourse topicFilter task) : next.Sound := by
  refine ⟨fun other => ?_, fun isReady => ?_⟩
  · rw [others]
    by_cases same : topicFilter = other
    · rw [if_pos same]
      exact same ▸ own
    · rw [if_neg same]
      exact (sound.course other).congr supervisor session (held other (Ne.symm same)) (coming other (Ne.symm same))
  · rw [supervisor] at isReady
    exact (ahead isReady).trans (sound.fresh isReady)

/-- The filter of a call that is over or about to begin. -/
theorem Quiet.of_coming (held : topicFilter ∈ filters link.subscriptions)
    (coming : link.supervisor.looping = true → link.Coming topicFilter) : link.Quiet topicFilter :=
  fun _ => ⟨fun _ => held, fun looping _ => coming looping⟩

theorem Quiet.of_not_coming (absent : topicFilter ∉ filters link.subscriptions)
    (coming : link.supervisor.live = true → ¬ link.Coming topicFilter) : link.Quiet topicFilter :=
  fun live => ⟨fun waits => absurd waits (coming live), fun _ held => absurd held absent⟩

theorem opens_of_client {session : Nat} (found : link.client = some session) :
    session = link.session ∧ (link.supervisor.live = true → link.opens session = true) := by
  have named : session = link.session := by
    unfold client at found
    split at found
    · exact (Option.some.inj found).symm
    · cases found
  exact ⟨named, fun live => by simp [opens, found, live]⟩

theorem ready_of_live (live : link.supervisor.live = true) (empty : link.client = none) : link.supervisor = .ready := by
  cases stage : link.supervisor <;> simp [stage, SupervisorStage.live, client, SupervisorStage.holdsClient] at live empty ⊢

theorem not_ready_of_opens {session : Nat} (open_ : link.opens session = true) : link.supervisor ≠ .ready := by
  intro ready
  simp [opens, client, ready, SupervisorStage.holdsClient] at open_

theorem Sound.advance (sound : link.Sound) {task : FilterTask} (called : link.calls[topicFilter]? = some task) (gone : Bool)
    (clear : link.withdraws capacity task = true → link.supervisor.live = true →
      topicFilter ∉ filters (link.supervisor.unasserted ++ link.deferred)) :
    (link.advance capacity topicFilter gone task).Sound := by
  have course := sound.course topicFilter
  rw [called] at course
  have ends : ∀ {next : BrokerLink}, next.calls = link.calls.erase topicFilter →
      ∀ other, next.calls[other]? = if topicFilter = other then none else link.calls[other]? := by
    intro next calls other
    rw [calls, lookup_erase]
  have sets : ∀ {next : BrokerLink} {task : FilterTask}, next.calls = link.calls.insert topicFilter task →
      ∀ other, next.calls[other]? = if topicFilter = other then some task else link.calls[other]? := by
    intro next task calls other
    rw [calls, lookup_insert]
  -- A call that returns and leaves everything else as it is.
  have returns : link.Quiet topicFilter → (link.endCall topicFilter).Sound := fun quiet =>
    sound.calls rfl rfl none (ends rfl) (fun _ _ => Iff.rfl) (fun _ _ => Iff.rfl) (fun _ => rfl) quiet
  cases task with
  | editSet edit =>
    unfold BrokerLink.advance
    dsimp only
    cases performed : edit.perform topicFilter link.subscriptions with
    | none => exact returns course
    | some subscriptions =>
      have edited := mem_filters_perform performed
      refine sound.calls rfl rfl _ (sets rfl) (fun other apart => (edited other).trans (by rw [if_neg apart]))
        (fun _ _ => Iff.rfl) (fun _ => rfl) ?_
      cases edit with
      | subscribe qos => exact ⟨subscriptionFor_topicFilter _ _ _, (edited topicFilter).mpr (by simp)⟩
      | unsubscribe => exact fun present => by simpa using (edited topicFilter).mp present
  | locateSubscribe sub =>
    obtain ⟨named, held⟩ := course
    unfold BrokerLink.advance
    dsimp only
    cases found : link.client with
    | none =>
      refine returns (.of_coming held fun looping => ?_)
      simp [client, holdsClient_of_looping looping] at found
    | some session =>
      obtain ⟨known, opened⟩ := opens_of_client found
      refine sound.calls rfl rfl _ (sets rfl) (fun _ _ => Iff.rfl) (fun _ _ => Iff.rfl) (fun _ => rfl)
        ⟨named, held, known.le, fun closed looping => ?_⟩
      exact absurd ((opened (live_of_looping looping)).symm.trans closed) (by simp)
  | locateUnsubscribe =>
    unfold BrokerLink.advance
    dsimp only
    cases found : link.client with
    | none =>
      refine returns (.of_not_coming course fun live waits => ?_)
      have nothing := sound.fresh (ready_of_live live found)
      have absent := clear (by simp [withdraws, found]) live
      rcases waits with sent | owed
      · simp [nothing] at sent
      · exact absent owed
    | some session =>
      obtain ⟨known, opened⟩ := opens_of_client found
      refine sound.calls rfl rfl _ (sets rfl) (fun _ _ => Iff.rfl) (fun _ _ => Iff.rfl) (fun _ => rfl)
        ⟨course, known.le, fun closed live => ?_⟩
      exact absurd ((opened live).symm.trans closed) (by simp)
  | sendSubscribe sub session =>
    obtain ⟨rfl, held, known, covered⟩ := course
    have defers : ((link.defer sub).endCall sub.topicFilter).Sound := by
      refine sound.calls rfl rfl none (ends rfl) (fun _ _ => Iff.rfl) (fun other apart => ?_) (fun _ => rfl)
        (Quiet.of_coming held fun _ => (coming_defer link sub _).mpr (.inr rfl))
      exact (coming_defer link sub other).trans (or_iff_left apart)
    unfold BrokerLink.advance
    dsimp only
    split
    next open_ =>
      split
      · refine sound.calls rfl rfl none (ends rfl) (fun _ _ => Iff.rfl) (fun other apart => ?_)
          (fun ready => absurd ready (not_ready_of_opens open_))
          (Quiet.of_coming held fun _ => (coming_accept_subscribe link _ _).mpr (.inr rfl))
        exact (coming_accept_subscribe link _ other).trans (or_iff_left apart)
      · exact defers
    next closed =>
      split
      · exact defers
      · exact returns (.of_coming held (covered (by simpa using closed)))
  | sendUnsubscribe session =>
    obtain ⟨absent, known, uncovered⟩ := course
    unfold BrokerLink.advance
    dsimp only
    split
    next open_ =>
      split
      next room =>
        have left : topicFilter ∉ filters (link.supervisor.unasserted ++ link.deferred) := by
          refine clear (by simp [withdraws, open_, room]) ?_
          simp only [opens, Bool.and_eq_true] at open_
          exact open_.2
        refine sound.calls rfl rfl none (ends rfl) (fun _ _ => Iff.rfl) (fun other apart => ?_)
          (fun ready => absurd ready (not_ready_of_opens open_)) (Quiet.of_not_coming absent fun _ waits => ?_)
        · refine or_congr ?_ Iff.rfl
          have sent : other ∈ (link.accept (.unsubscribe topicFilter)).ahead ↔ other ∈ link.ahead := by
            rw [ahead_accept, Packet.mem_apply_unsubscribe, and_iff_left apart]
          exact sent
        · rcases waits with sent | owed
          · have kept : topicFilter ∈ (link.accept (.unsubscribe topicFilter)).ahead := sent
            rw [ahead_accept, Packet.mem_apply_unsubscribe] at kept
            exact kept.2 rfl
          · exact left owed
      · exact sound
    next closed => exact returns (.of_not_coming absent (uncovered (by simpa using closed)))

theorem coming_asserted {sub : IngressSubscription} {rest : List IngressSubscription}
    (stage : link.supervisor = .asserting (sub :: rest)) (other : String) :
    ({ link.accept (.subscribe sub.topicFilter) with supervisor := .asserting rest } : BrokerLink).Coming other ↔
      link.Coming other := by
  have sent : other ∈ (link.accept (.subscribe sub.topicFilter)).ahead ↔
      other ∈ link.ahead ∨ other = sub.topicFilter := by
    rw [ahead_accept, Packet.mem_apply_subscribe]
  have owed : other ∈ filters (link.supervisor.unasserted ++ link.deferred) ↔
      other = sub.topicFilter ∨ other ∈ filters (rest ++ link.deferred) := by
    rw [stage]
    simp only [SupervisorStage.unasserted, filters, List.cons_append, List.map_cons, List.mem_cons]
  refine (or_congr sent Iff.rfl).trans ?_
  rw [Coming, owed, or_assoc]
  rfl

theorem Sound.supervise (sound : link.Sound) : (link.supervise capacity).Sound := by
  unfold BrokerLink.supervise
  cases stage : link.supervisor with
  | offline | polling unasserted => exact sound
  | ready =>
    have unopened : ∀ session, link.opens session = false := by
      simp [opens, client, stage, SupervisorStage.holdsClient]
    have coming : ∀ topicFilter,
        ({ link with supervisor := .installed, session := link.session + 1 } : BrokerLink).Coming topicFilter ↔
          link.Coming topicFilter := by
      simp [Coming, ahead, stage, SupervisorStage.unasserted]
    refine sound.turns rfl rfl (Nat.le_succ _) (fun topicFilter quiet _ => ⟨fun waits => ?_, nofun⟩) (fun _ _ _ _ _ _ => nofun)
      (fun topicFilter session _ _ uncovered _ _ waits => ?_) nofun
    · exact (quiet (by rw [stage]; rfl)).1 ((coming topicFilter).mp waits)
    · exact uncovered (unopened session) (by rw [stage]; rfl) ((coming topicFilter).mp waits)
  | installed =>
    have live : link.supervisor.live = true := by rw [stage]; rfl
    have opens : ∀ session, ({ link with supervisor := .draining link.subscriptions } : BrokerLink).opens session =
        link.opens session := by
      simp [opens, client, stage, SupervisorStage.holdsClient, SupervisorStage.live]
    have coming : ∀ topicFilter,
        ({ link with supervisor := .draining link.subscriptions } : BrokerLink).Coming topicFilter ↔
          topicFilter ∈ filters link.subscriptions ∨ link.Coming topicFilter := by
      intro topicFilter
      simp only [Coming, ahead, stage, SupervisorStage.unasserted, filters, List.map_append, List.mem_append, List.map_nil,
        List.not_mem_nil, false_or]
      tauto
    refine sound.turns rfl rfl le_rfl (fun topicFilter quiet _ => ⟨fun waits => ?_, fun _ held => ?_⟩)
      (fun topicFilter _ _ held _ _ _ => (coming topicFilter).mpr (.inl held))
      (fun topicFilter session _ absent uncovered closed _ waits => ?_) nofun
    · rcases (coming topicFilter).mp waits with held | before
      · exact held
      · exact (quiet live).1 before
    · exact (coming topicFilter).mpr (.inl held)
    · rcases (coming topicFilter).mp waits with held | before
      · exact absent held
      · exact uncovered (opens session ▸ closed) live before
  | draining unasserted =>
    refine sound.loops rfl rfl rfl (by rw [stage]; rfl) rfl fun other => ?_
    simp [Coming, ahead, stage, SupervisorStage.unasserted, filters]
  | asserting unasserted =>
    cases unasserted with
    | nil =>
      refine sound.loops rfl rfl rfl (by rw [stage]; rfl) rfl fun other => ?_
      simp [Coming, ahead, stage, SupervisorStage.unasserted]
    | cons sub rest =>
      dsimp only
      split
      · exact sound.loops rfl rfl rfl (by rw [stage]; rfl) rfl (coming_asserted stage)
      · refine sound.loops rfl rfl rfl (by rw [stage]; rfl) rfl fun other => ?_
        simp [Coming, ahead, stage, SupervisorStage.unasserted]
  | lost => exact sound.down rfl rfl rfl rfl

theorem Sound.poll (sound : link.Sound) (incoming : Bool) : (link.poll incoming).Sound := by
  unfold BrokerLink.poll
  split
  next unasserted packet rest stage requests =>
    split
    · refine sound.loops rfl rfl rfl (by rw [stage]; rfl) rfl fun other => ?_
      simp [Coming, ahead, stage, SupervisorStage.unasserted]
    · -- The packet is at the head of the channel and now at the end of the wire.
      refine sound.loops rfl rfl rfl (by rw [stage]; rfl) rfl fun other => ?_
      simp [Coming, ahead, stage, SupervisorStage.unasserted, requests]
  next unasserted stage _ =>
    refine sound.loops rfl rfl rfl (by rw [stage]; rfl) rfl fun other => ?_
    simp [Coming, ahead, stage, SupervisorStage.unasserted]
  · exact sound

theorem Sound.connect (sound : link.Sound) :
    ({ link with supervisor := .ready, deferred := [], requests := [], wire := [], broker := [] } : BrokerLink).Sound := by
  have nothing : ∀ topicFilter, ¬ ({ link with
      supervisor := .ready, deferred := [], requests := [], wire := [], broker := [] } : BrokerLink).Coming topicFilter := by
    simp [Coming, ahead, SupervisorStage.unasserted, filters]
  exact sound.turns rfl rfl le_rfl (fun topicFilter _ _ => ⟨fun waits => absurd waits (nothing topicFilter), nofun⟩)
    (fun _ _ _ _ _ _ => nofun) (fun topicFilter _ _ _ _ _ _ => nothing topicFilter) fun _ => rfl

/-- What the broker is going to hold is all that matters of the packets. -/
theorem Sound.relay (sound : link.Sound) (calls : next.calls = link.calls)
    (subscriptions : next.subscriptions = link.subscriptions) (supervisor : next.supervisor = link.supervisor)
    (session : next.session = link.session) (deferred : next.deferred = link.deferred) (ahead : next.ahead = link.ahead) :
    next.Sound := by
  refine ⟨fun topicFilter => ?_, fun ready => ?_⟩
  · rw [calls]
    exact (sound.course topicFilter).congr supervisor session (by rw [subscriptions])
      (by rw [Coming, Coming, supervisor, deferred, ahead])
  · rw [ahead]
    exact sound.fresh (supervisor ▸ ready)

theorem Sound.step (sound : link.Sound) {event : LinkEvent} (allowed : link.Apart event ∧ link.Clear capacity event) :
    ∃ next, link.step capacity event = some next ∧ next.Sound := by
  cases event with
  | call topicFilter edit =>
    have free : link.calls[topicFilter]? = none := allowed.1
    refine ⟨_, rfl, sound.calls rfl rfl (some (.editSet edit)) (fun other => lookup_insert _ _ _ _)
      (fun _ _ => Iff.rfl) (fun _ _ => Iff.rfl) (fun _ => rfl) ?_⟩
    have course := sound.course topicFilter
    rw [free] at course
    exact course
  | advance topicFilter gone =>
    refine ⟨_, rfl, ?_⟩
    cases called : link.calls[topicFilter]? with
    | none => exact sound
    | some task => exact sound.advance called gone (allowed.2 task called)
  | connect =>
    unfold BrokerLink.step
    dsimp only
    split
    · exact ⟨_, rfl, sound.connect⟩
    · exact ⟨_, rfl, sound⟩
  | supervise => exact ⟨_, rfl, sound.supervise⟩
  | poll incoming => exact ⟨_, rfl, sound.poll incoming⟩
  | lose =>
    unfold BrokerLink.step
    dsimp only
    split
    · exact ⟨_, rfl, sound.down rfl rfl rfl rfl⟩
    · exact ⟨_, rfl, sound⟩
  | apply =>
    unfold BrokerLink.step
    dsimp only
    split
    · exact ⟨_, rfl, sound⟩
    next packet wire sent => exact ⟨_, rfl, sound.relay rfl rfl rfl rfl rfl (by simp [ahead, sent])⟩
  | request =>
    unfold BrokerLink.step
    dsimp only
    split
    · exact ⟨_, rfl, sound.relay rfl rfl rfl rfl rfl (ahead_accept link .other)⟩
    · exact ⟨_, rfl, sound⟩

def boot (configured : List IngressSubscription) : BrokerLink := { subscriptions := configured }

theorem boot_sound (configured : List IngressSubscription) : (boot configured).Sound :=
  ⟨fun topicFilter => by simp [boot, OnCourse, Quiet, SupervisorStage.live], by simp [boot]⟩

/-- Over a channel of any capacity, in every run in which calls on one filter do not overlap and no
    unsubscribe returns in a session while its filter waits with the supervisor: whenever everything
    has settled, the broker holds exactly the reconnect set. -/
theorem broker_holds_reconnect_set (capacity : Nat) (configured : List IngressSubscription) (events : List LinkEvent)
    (allowed : Along (step capacity) (fun link event => link.Apart event ∧ link.Clear capacity event) (boot configured)
      events) :
    ∃ reached, run (step capacity) (boot configured) events = some reached ∧
      (reached.Settled → ∀ topicFilter, topicFilter ∈ reached.broker ↔ topicFilter ∈ filters reached.subscriptions) := by
  have progress : ∀ (link : BrokerLink) event, link.Sound → link.Apart event ∧ link.Clear capacity event →
      ∃ next, link.step capacity event = some next ∧ next.Sound := fun _ _ sound both => sound.step both
  obtain ⟨reached, ran, sound⟩ := run_reaches progress (boot_sound configured) allowed
  refine ⟨reached, ran, fun settled topicFilter => ?_⟩
  have quiet := sound.course topicFilter
  rw [TreeMap.getElem?_of_isEmpty settled.calls] at quiet
  obtain ⟨sound, complete⟩ := quiet (live_of_looping settled.looping)
  have coming : reached.Coming topicFilter ↔ topicFilter ∈ reached.broker := by
    simp [Coming, ahead, settled.wire, settled.requests, settled.unasserted, settled.deferred, filters]
  rw [← coming]
  exact ⟨sound, complete settled.looping⟩

/-! ### A hall, a porch and a full channel -/

private def houseFilters : List IngressSubscription := [⟨"hall", 1, 1⟩, ⟨"porch", 1, 2⟩]

/-- The session comes up and asserts the hall; the porch finds the channel full. -/
private def hallAsserted : List LinkEvent :=
  [.connect, .supervise, .supervise, .supervise, .supervise, .supervise]

private def unsubscribes (topicFilter : String) : List LinkEvent :=
  [.call topicFilter .unsubscribe, .advance topicFilter false, .advance topicFilter false]

private def turn : List LinkEvent := [.poll false, .supervise, .supervise, .supervise]

/-- Every filter is asserted, then the hall is given up and a gate added that finds the channel full. -/
private def gateForHall : List LinkEvent :=
  hallAsserted ++ turn ++ [.poll false] ++ unsubscribes "hall" ++ [.advance "hall" false, .call "gate" (.subscribe 0),
    .advance "gate" false, .advance "gate" false, .advance "gate" false, .supervise, .supervise] ++ turn ++ turn ++
    [.apply, .apply, .apply, .apply]

theorem gate_held_for_hall :
    Along (step 1) (fun link event => link.Apart event ∧ link.Clear 1 event) (boot houseFilters) gateForHall ∧
    ∃ reached, run (step 1) (boot houseFilters) gateForHall = some reached ∧ reached.Settled ∧
      reached.broker = ["porch", "gate"] ∧
      ∀ topicFilter, topicFilter ∈ reached.broker ↔ topicFilter ∈ filters reached.subscriptions := by
  have allowed : Along (step 1) (fun link event => link.Apart event ∧ link.Clear 1 event) (boot houseFilters)
      gateForHall := by decide +kernel
  obtain ⟨reached, ran, facts⟩ : ∃ reached, run (step 1) (boot houseFilters) gateForHall = some reached ∧
      decide (reached.Settled ∧ reached.broker = ["porch", "gate"]) = true :=
    Option.map_eq_some_iff.mp (by decide +kernel)
  obtain ⟨settled, broker⟩ := of_decide_eq_true facts
  obtain ⟨final, same, exactly⟩ := broker_holds_reconnect_set 1 houseFilters gateForHall allowed
  obtain rfl := Option.some.inj (ran.symm.trans same)
  exact ⟨allowed, reached, ran, settled, broker, exactly settled⟩

/-- 63 requests of other tasks and the hall's fill the channel. The porch is given up while it waits to be asserted;
    its UNSUBSCRIBE gets the slot the poll frees and the supervisor subscribes it afterwards. -/
private def porchOvertaken : List LinkEvent :=
  [.connect, .supervise] ++ List.replicate 63 .request ++ List.replicate 4 .supervise ++ unsubscribes "porch" ++
    [.poll false, .advance "porch" false, .supervise, .supervise] ++ (List.replicate 65 turn).flatten ++
    List.replicate 66 .apply

theorem withdrawn_filter_subscribed_again :
    Along (step 64) Apart (boot houseFilters) porchOvertaken ∧
    ∃ reached, run (step 64) (boot houseFilters) porchOvertaken = some reached ∧ reached.Settled ∧
      reached.broker = ["hall", "porch"] ∧ filters reached.subscriptions = ["hall"] := by
  refine ⟨by decide +kernel, ?_⟩
  obtain ⟨reached, ran, facts⟩ : ∃ reached, run (step 64) (boot houseFilters) porchOvertaken = some reached ∧
      decide (reached.Settled ∧ reached.broker = ["hall", "porch"] ∧ filters reached.subscriptions = ["hall"]) = true :=
    Option.map_eq_some_iff.mp (by decide +kernel)
  exact ⟨reached, ran, of_decide_eq_true facts⟩

end BrokerLink

end Brenn.Mqtt
