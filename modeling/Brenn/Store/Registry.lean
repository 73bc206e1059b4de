import Brenn.Lib.Run
import Brenn.Store.RingStore

/-!
The process's ring stores and the resume positions they hand out.

Every store carries the registry's one epoch, and a channel that is registered again gets a store
that numbers from one. A handle to a store outlives its registration, so a store is an index into
everything ever built.
-/

namespace Brenn.Store
open Brenn.Lib Brenn.Queue Std

universe u v w

variable {U : Type u} {T : Type v} {S : Type w} [LinearOrder U] [LinearOrder T] [LinearOrder S]

inductive ChannelScheme where
  | brenn
  | ephemeral
  | local
  | mqtt
  | webhook
  | pwaPush
  deriving Repr, DecidableEq

structure ChannelCapabilities where
  durable : Bool
  transportable : Bool
  deriving Repr, DecidableEq

def ChannelScheme.capabilities : ChannelScheme → Option ChannelCapabilities
  | .brenn | .mqtt | .webhook => some ⟨true, true⟩
  | .ephemeral => some ⟨false, true⟩
  | .local => some ⟨false, false⟩
  | .pwaPush => none

/-- What a channel's directory entry says about its retention. -/
structure ChannelEntry (U : Type u) (T : Type v) where
  uuid : U
  address : T
  transportType : ChannelScheme
  retainDepth : Depth
  deriving Repr, DecidableEq

/-- A store under a supplied epoch; `none` where the source refuses to build one. -/
def RingStore.withEpoch (channelUuid : U) (address : T) (scheme : ChannelScheme) (retainDepth : Depth)
    (epoch : U) : Option (RingStore U T S) :=
  match scheme.capabilities, retainDepth with
  | some capabilities, .bounded depth =>
    if capabilities.durable then none
    else if ¬ depth ≤ maxRingRetainDepth then none
    else some (.fresh channelUuid address depth epoch)
  | _, _ => none

structure RingStores (U : Type u) (T : Type v) (S : Type w) [LinearOrder U] [LinearOrder T] [LinearOrder S] where
  epoch : U
  /-- Every store ever built; a handle is an index. -/
  stores : List (RingStore U T S)
  byUuid : TreeMap U Nat
  byAddress : TreeMap T U

namespace RingStores

def empty (epoch : U) : RingStores U T S := ⟨epoch, [], ∅, ∅⟩

/-- Give a channel a store if it has none; `none` is a panic. -/
def register (registry : RingStores U T S) (entry : ChannelEntry U T) : Option (Bool × RingStores U T S) :=
  match entry.transportType.capabilities with
  | none => none
  | some capabilities =>
    if capabilities.durable then none
    else if registry.byUuid[entry.uuid]?.isSome then some (false, registry)
    else if registry.byAddress[entry.address]?.isSome then none
    else
      match RingStore.withEpoch entry.uuid entry.address entry.transportType entry.retainDepth registry.epoch with
      | none => none
      | some store => some (true,
          { registry with
            stores := registry.stores ++ [store]
            byUuid := registry.byUuid.insert entry.uuid registry.stores.length
            byAddress := registry.byAddress.insert entry.address entry.uuid })

def deregister (registry : RingStores U T S) (channelUuid : U) : Bool × RingStores U T S :=
  match registry.byUuid[channelUuid]? with
  | none => (false, registry)
  | some handle =>
    let byAddress := match registry.stores[handle]? with
      | some store => registry.byAddress.erase store.address
      | none => registry.byAddress
    (true, { registry with byUuid := registry.byUuid.erase channelUuid, byAddress := byAddress })

def put (registry : RingStores U T S) (handle : Nat) (store : RingStore U T S) : RingStores U T S :=
  { registry with stores := registry.stores.set handle store }

end RingStores

/-- A resume position minted from a replay: its epoch and a served seq, with the store that served it. -/
structure Mark (U : Type u) where
  handle : Nat
  epoch : U
  seq : Nat
  deriving Repr, DecidableEq

/-- A process's stores and the positions they have handed out. -/
structure Process (U : Type u) (T : Type v) (S : Type w) [LinearOrder U] [LinearOrder T] [LinearOrder S] where
  registry : RingStores U T S
  served : List (Mark U)

inductive StoreOp (U : Type u) (T : Type v) where
  | register (entry : ChannelEntry U T)
  | deregister (channelUuid : U)
  | append (handle : Nat) (messageId : U) (message : NewMessage T)
  | park (handle : Nat) (messageId : U) (message : NewMessage T) (releaseAt : Nat)
  | releaseDue (handle : Nat) (now : Nat)
  | replayFrom (handle : Nat) (cursor : Option (Resume U)) (limit : Depth)
  deriving Repr, DecidableEq

namespace Process

def new (epoch : U) : Process U T S := ⟨.empty epoch, []⟩

def put (process : Process U T S) (handle : Nat) (store : RingStore U T S) : Process U T S :=
  { process with registry := process.registry.put handle store }

/-- One call. A call on a store names a handle some registration built. -/
def step (process : Process U T S) : StoreOp U T → Option (Process U T S)
  | .register entry =>
    match process.registry.register entry with
    | none => none
    | some (_, registry) => some { process with registry := registry }
  | .deregister channelUuid => some { process with registry := (process.registry.deregister channelUuid).2 }
  | .append handle messageId message =>
    match process.registry.stores[handle]? with
    | none => none
    | some store =>
      match store.append messageId message with
      | none => none
      | some (_, after) => some (process.put handle after)
  | .park handle messageId message releaseAt =>
    match process.registry.stores[handle]? with
    | none => none
    | some store =>
      match store.park messageId message releaseAt with
      | .error _ => some process
      | .ok (_, after) => some (process.put handle after)
  | .releaseDue handle now =>
    match process.registry.stores[handle]? with
    | none => none
    | some store =>
      match store.releaseDue now with
      | none => none
      | some (_, after) => some (process.put handle after)
  | .replayFrom handle cursor limit =>
    match process.registry.stores[handle]? with
    | none => none
    | some store =>
      let replay := store.replayFrom cursor limit
      some { process with
        served := process.served ++ replay.messages.map fun entry => ⟨handle, replay.epoch, entry.seq⟩ }

end Process

/-! ### Positions and the stores that assigned them -/

namespace Process

def channelOf (process : Process U T S) (handle : Nat) : Option U :=
  process.registry.stores[handle]?.map RingStore.channelUuid

/-- The next `entering` seqs of a registered store were served by no other store of its channel. -/
def Clear (process : Process U T S) (handle entering : Nat) : Prop :=
  ∀ store ∈ process.registry.stores[handle]?, process.registry.byUuid[store.channelUuid]? = some handle →
    ∀ mark ∈ process.served, process.channelOf mark.handle = some store.channelUuid → mark.handle ≠ handle →
      mark.seq < store.core.ring.nextSeq ∨ store.core.ring.nextSeq + entering ≤ mark.seq

/-- A store that is not the registered one of its channel retains only seqs the registered one
    has not reached. -/
def Behind (process : Process U T S) (handle : Nat) : Prop :=
  ∀ store ∈ process.registry.stores[handle]?, ∀ current ∈ process.registry.byUuid[store.channelUuid]?,
    current ≠ handle → ∀ fresh ∈ process.registry.stores[current]?,
      ∀ entry ∈ store.core.ring.entries, fresh.core.ring.newestSeq < entry.seq

def dueCount (process : Process U T S) (handle now : Nat) : Nat :=
  match process.registry.stores[handle]? with
  | none => 0
  | some store => (store.core.deferred.releaseDue (releaseTimeOf now)).1.length

/-- No call lets a registered store's seqs and the seqs other stores of the channel served meet. -/
def NoReuse (process : Process U T S) : StoreOp U T → Prop
  | .append handle _ _ => process.Clear handle 1
  | .releaseDue handle now => process.Clear handle (process.dueCount handle now)
  | .replayFrom handle _ _ => process.Behind handle
  | _ => True

instance (process : Process U T S) (handle entering : Nat) : Decidable (process.Clear handle entering) :=
  inferInstanceAs (Decidable (∀ store ∈ process.registry.stores[handle]?, _))

instance (process : Process U T S) (handle : Nat) : Decidable (process.Behind handle) :=
  inferInstanceAs (Decidable (∀ store ∈ process.registry.stores[handle]?, _))

instance (process : Process U T S) : (op : StoreOp U T) → Decidable (process.NoReuse op)
  | .append handle _ _ => inferInstanceAs (Decidable (process.Clear handle 1))
  | .releaseDue handle now => inferInstanceAs (Decidable (process.Clear handle (process.dueCount handle now)))
  | .replayFrom handle _ _ => inferInstanceAs (Decidable (process.Behind handle))
  | .register _ | .deregister _ | .park _ _ _ _ => inferInstanceAs (Decidable True)

/-- Every position a store of the channel handed out that the registered store would continue
    without a gap is one it assigned itself. -/
def Honest (process : Process U T S) : Prop :=
  ∀ (uuid : U) (handle : Nat) (store : RingStore U T S),
    process.registry.byUuid[uuid]? = some handle → process.registry.stores[handle]? = some store →
    ∀ mark ∈ process.served, process.channelOf mark.handle = some uuid → ∀ limit : Depth,
      (store.replayFrom (some ⟨mark.epoch, mark.seq⟩) limit).decision = .exact ∨
        (store.replayFrom (some ⟨mark.epoch, mark.seq⟩) limit).decision = .upToDate →
      mark.handle = handle

/-- What carries `Honest` along a run: a registered store stays below what others have served. -/
structure Apart (process : Process U T S) : Prop where
  registered : ∀ (uuid : U) (handle : Nat),
    process.registry.byUuid[uuid]? = some handle → process.channelOf handle = some uuid
  marked : ∀ mark ∈ process.served, 0 < mark.seq ∧ mark.handle < process.registry.stores.length
  below : ∀ (uuid : U) (handle : Nat) (store : RingStore U T S),
    process.registry.byUuid[uuid]? = some handle → process.registry.stores[handle]? = some store →
    ∀ mark ∈ process.served, process.channelOf mark.handle = some uuid → mark.handle ≠ handle →
      store.core.ring.newestSeq < mark.seq

variable {process : Process U T S}

theorem apart_new (epoch : U) : (new epoch : Process U T S).Apart where
  registered uuid handle found := by simp [new, RingStores.empty] at found
  marked mark member := by simp [new] at member
  below uuid handle store found := by simp [new, RingStores.empty] at found

omit [LinearOrder T] in
/-- A position above everything a ring assigned is answered with a gap, however it is clamped. -/
theorem replayFrom_ahead {store : RingStore U T S} {resume : Resume U}
    (ahead : store.core.ring.newestSeq < resume.seq) (limit : Depth) :
    (store.replayFrom (some resume) limit).decision ≠ .exact ∧
      (store.replayFrom (some resume) limit).decision ≠ .upToDate := by
  have gap : ∃ reason, (store.core.ring.replay (some resume)).decision = .gap reason := by
    by_cases same : resume.epoch = store.core.ring.epoch
    · exact ⟨.resumeAhead, by simp [RetainedRing.replay, same, ahead]⟩
    · exact ⟨.epochChanged, by simp [RetainedRing.replay, same]⟩
  obtain ⟨reason, decided⟩ := gap
  cases limit with
  | unbounded => simp [RingStore.replayFrom, clampReplay, decided]
  | bounded n =>
    simp only [RingStore.replayFrom, clampReplay, decided]
    split <;> simp

theorem Apart.honest (apart : process.Apart) : process.Honest := by
  intro uuid handle store registered held mark member channel limit continues
  by_contra other
  have ahead := apart.below uuid handle store registered held mark member channel other
  obtain ⟨notExact, notUpToDate⟩ := replayFrom_ahead
    (show store.core.ring.newestSeq < (Resume.mk mark.epoch mark.seq).seq from ahead) limit
  rcases continues with exact | upToDate
  · exact notExact exact
  · exact notUpToDate upToDate

section Calls

variable {handle : Nat} {store after : RingStore U T S}

theorem channelOf_put (held : process.registry.stores[handle]? = some store)
    (same : after.channelUuid = store.channelUuid) (other : Nat) :
    (process.put handle after).channelOf other = process.channelOf other := by
  simp only [channelOf, put, RingStores.put, List.getElem?_set]
  by_cases here : handle = other
  · subst here
    obtain ⟨bound, found⟩ := List.getElem?_eq_some_iff.mp held
    simp [bound, found, same]
  · simp [here]

/-- A call that brings messages into a store keeps the stores apart when the seqs it assigns are clear. -/
theorem Apart.put (apart : process.Apart) (held : process.registry.stores[handle]? = some store)
    (same : after.channelUuid = store.channelUuid) {entering : Nat}
    (grown : after.core.ring.nextSeq = store.core.ring.nextSeq + entering) (clear : process.Clear handle entering) :
    (process.put handle after).Apart := by
  have channels : ∀ other, (process.put handle after).channelOf other = process.channelOf other :=
    channelOf_put held same
  refine ⟨?_, ?_, ?_⟩
  · intro uuid current registered
    rw [channels]
    exact apart.registered uuid current registered
  · intro mark member
    simpa [Process.put, RingStores.put] using apart.marked mark member
  · intro uuid current reached registered found mark member channel different
    rw [channels] at channel
    simp only [Process.put, RingStores.put, List.getElem?_set] at found
    by_cases here : handle = current
    · subst here
      obtain ⟨bound, -⟩ := List.getElem?_eq_some_iff.mp held
      obtain rfl : after = reached := by simpa [bound] using found
      have owner : store.channelUuid = uuid := by
        simpa [channelOf, held] using apart.registered uuid handle registered
      have before := apart.below uuid handle store registered held mark member channel different
      have gap := clear store held (owner ▸ registered) mark member (owner ▸ channel) different
      have newest := store.core.ring.newestSeq_succ
      have newest' := after.core.ring.newestSeq_succ
      omega
    · rw [if_neg here] at found
      exact apart.below uuid current reached registered found mark member channel different

omit [LinearOrder U] [LinearOrder T] in
theorem append_after {messageId : U} {message : NewMessage T} {answer}
    (appended : store.append messageId message = some (answer, after)) :
    after.channelUuid = store.channelUuid ∧ after.core.ring.nextSeq = store.core.ring.nextSeq + 1 := by
  simp only [RingStore.append] at appended
  split at appended
  · simp at appended
  · obtain ⟨-, rfl⟩ := Prod.mk.injEq .. ▸ Option.some.inj appended
    simp

omit [LinearOrder U] [LinearOrder T] in
theorem releaseDue_after {now : Nat} {answer} (released : store.releaseDue now = some (answer, after)) :
    after.channelUuid = store.channelUuid ∧ after.core.ring.nextSeq =
      store.core.ring.nextSeq + (store.core.deferred.releaseDue (releaseTimeOf now)).1.length := by
  simp only [RingStore.releaseDue] at released
  split at released
  · simp at released
  · obtain ⟨-, rfl⟩ := Prod.mk.injEq .. ▸ Option.some.inj released
    simp

omit [LinearOrder U] [LinearOrder T] in
theorem park_after {messageId answer : U} {message : NewMessage T} {releaseAt : Nat}
    (parked : store.park messageId message releaseAt = .ok (answer, after)) :
    after.channelUuid = store.channelUuid ∧ after.core.ring = store.core.ring := by
  simp only [RingStore.park, RingCore.park] at parked
  split at parked
  · simp at parked
  · next found =>
    split at found
    · simp at found
    · obtain ⟨-, rfl⟩ := Prod.mk.injEq .. ▸ Except.ok.inj parked
      obtain ⟨-, rfl⟩ := Prod.mk.injEq .. ▸ Except.ok.inj found
      exact ⟨rfl, rfl⟩

end Calls

theorem Apart.register (apart : process.Apart) {entry : ChannelEntry U T} {fresh : Bool}
    {registry : RingStores U T S} (registered : process.registry.register entry = some (fresh, registry)) :
    Apart { process with registry := registry } := by
  simp only [RingStores.register] at registered
  split at registered
  · simp at registered
  split at registered
  · simp at registered
  split at registered
  · obtain ⟨-, rfl⟩ := Prod.mk.injEq .. ▸ Option.some.inj registered
    exact apart
  split at registered
  · simp at registered
  split at registered
  · simp at registered
  next absent _ _ store built =>
    obtain ⟨-, rfl⟩ := Prod.mk.injEq .. ▸ Option.some.inj registered
    have made : store = .fresh entry.uuid entry.address store.core.ring.depth process.registry.epoch ∧
        store.core.ring.newestSeq = 0 := by
      simp only [RingStore.withEpoch] at built
      split at built
      · split at built
        · simp at built
        · split at built
          · simp at built
          · obtain rfl := Option.some.inj built
            exact ⟨rfl, rfl⟩
      · simp at built
    have owner : store.channelUuid = entry.uuid := congrArg RingStore.channelUuid made.1
    -- a handle that existed before keeps its store
    have old (handle : Nat) (known : handle < process.registry.stores.length) :
        (process.registry.stores ++ [store])[handle]? = process.registry.stores[handle]? :=
      List.getElem?_append_left known
    refine ⟨?_, ?_, ?_⟩
    · intro uuid handle found
      simp only [lookup_insert] at found
      split at found
      next same =>
        obtain rfl := Option.some.inj found
        simp [channelOf, owner, same]
      next =>
        have channel := apart.registered uuid handle found
        obtain ⟨held, inside, _⟩ := Option.map_eq_some_iff.mp channel
        obtain ⟨known, -⟩ := List.getElem?_eq_some_iff.mp inside
        simpa [channelOf, old handle known] using channel
    · intro mark member
      have marked := apart.marked mark member
      simp only [List.length_append, List.length_singleton]
      omega
    · intro uuid handle reached found held mark member channel different
      have marked := apart.marked mark member
      simp only [channelOf, old mark.handle marked.2] at channel
      simp only [lookup_insert] at found
      split at found
      next =>
        -- the fresh store has assigned nothing yet
        obtain rfl := Option.some.inj found
        obtain rfl : store = reached := by simpa using held
        omega
      next =>
        obtain ⟨_, inside, _⟩ := Option.map_eq_some_iff.mp (apart.registered uuid handle found)
        obtain ⟨known, -⟩ := List.getElem?_eq_some_iff.mp inside
        simp only [old handle known] at held
        exact apart.below uuid handle reached found held mark member channel different

theorem Apart.deregister (apart : process.Apart) (channelUuid : U) :
    Apart { process with registry := (process.registry.deregister channelUuid).2 } := by
  simp only [RingStores.deregister]
  split
  · exact apart
  · refine ⟨?_, apart.marked, ?_⟩
    · intro uuid handle found
      simp only [lookup_erase] at found
      split at found
      · simp at found
      · exact apart.registered uuid handle found
    · intro uuid handle store found
      simp only [lookup_erase] at found
      split at found
      · simp at found
      · exact apart.below uuid handle store found

omit [LinearOrder T] in
theorem replayFrom_retained {store : RingStore U T S} {cursor : Option (Resume U)} {limit : Depth}
    {entry : Retained (MessageEnvelope U T)} (member : entry ∈ (store.replayFrom cursor limit).messages) :
    entry ∈ store.core.ring.entries := by
  have cut : ∀ replay : StoreReplay (MessageEnvelope U T) U,
      entry ∈ (clampReplay replay limit).messages → entry ∈ replay.messages := by
    intro replay inside
    cases limit with
    | unbounded => exact inside
    | bounded n =>
      simp only [clampReplay] at inside
      split at inside
      · exact inside
      · exact List.mem_of_mem_drop inside
  have inside := cut _ member
  cases cursor with
  | none => exact inside
  | some resume =>
    simp only [RetainedRing.replay] at inside
    split at inside
    · exact inside
    split at inside
    · exact inside
    split at inside
    · simp at inside
    split at inside
    · split at inside
      · exact List.mem_of_mem_drop inside
      · exact inside
    · exact inside

theorem Apart.replayFrom (apart : process.Apart) {handle : Nat} {store : RingStore U T S}
    (held : process.registry.stores[handle]? = some store) (behind : process.Behind handle)
    (cursor : Option (Resume U)) (limit : Depth) :
    Apart { process with
      served := process.served ++ (store.replayFrom cursor limit).messages.map fun entry =>
        ⟨handle, (store.replayFrom cursor limit).epoch, entry.seq⟩ } := by
  refine ⟨apart.registered, ?_, ?_⟩
  · intro mark member
    rcases List.mem_append.mp member with old | new
    · exact apart.marked mark old
    · obtain ⟨entry, served, rfl⟩ := List.mem_map.mp new
      obtain ⟨bound, -⟩ := List.getElem?_eq_some_iff.mp held
      have number := store.core.ring.seq_bounds (replayFrom_retained served)
      have counted := store.core.ring.counted
      exact ⟨by simp only; omega, bound⟩
  · intro uuid current fresh registered found mark member channel different
    rcases List.mem_append.mp member with old | new
    · exact apart.below uuid current fresh registered found mark old channel different
    · obtain ⟨entry, served, rfl⟩ := List.mem_map.mp new
      have owner : store.channelUuid = uuid := by simpa [channelOf, held] using channel
      exact behind store held current (owner ▸ registered) (Ne.symm different) fresh found entry
        (replayFrom_retained served)

theorem Apart.step {after : Process U T S} {op : StoreOp U T} (apart : process.Apart)
    (noReuse : process.NoReuse op) (stepped : process.step op = some after) : after.Apart := by
  cases op with
  | register entry =>
    simp only [Process.step] at stepped
    split at stepped
    · simp at stepped
    next registered =>
      obtain rfl := Option.some.inj stepped
      exact apart.register registered
  | deregister channelUuid =>
    obtain rfl := Option.some.inj stepped
    exact apart.deregister channelUuid
  | append handle messageId message =>
    simp only [Process.step] at stepped
    split at stepped
    · simp at stepped
    next store held =>
      split at stepped
      · simp at stepped
      next appended =>
        obtain rfl := Option.some.inj stepped
        obtain ⟨same, grown⟩ := append_after appended
        exact apart.put held same grown noReuse
  | park handle messageId message releaseAt =>
    simp only [Process.step] at stepped
    split at stepped
    · simp at stepped
    next store held =>
      split at stepped
      · obtain rfl := Option.some.inj stepped
        exact apart
      next parked =>
        obtain rfl := Option.some.inj stepped
        obtain ⟨same, ring⟩ := park_after parked
        have clear : process.Clear handle 0 := by
          intro found held' registered mark member channel different
          exact Nat.lt_or_ge mark.seq found.core.ring.nextSeq
        exact apart.put held same (by rw [ring, Nat.add_zero]) clear
  | releaseDue handle now =>
    simp only [Process.step] at stepped
    split at stepped
    · simp at stepped
    next store held =>
      split at stepped
      · simp at stepped
      next released =>
        obtain rfl := Option.some.inj stepped
        obtain ⟨same, grown⟩ := releaseDue_after released
        have clear : process.Clear handle (store.core.deferred.releaseDue (releaseTimeOf now)).1.length := by
          simpa [NoReuse, dueCount, held] using noReuse
        exact apart.put held same grown clear
  | replayFrom handle cursor limit =>
    simp only [Process.step] at stepped
    split at stepped
    · simp at stepped
    next store held =>
      obtain rfl := Option.some.inj stepped
      exact apart.replayFrom held noReuse cursor limit

end Process

/-- Resume positions across re-registration, in every run in which a registered store never takes
    a seq another store of its channel served and a store that lost its registration is not read
    for seqs its successor has reached: a position that the registered store continues
    without a gap was assigned by that very store. -/
theorem resume_positions_honest (epoch : U) (ops : List (StoreOp U T)) (process : Process U T S)
    (along : Along Process.step Process.NoReuse (Process.new epoch : Process U T S) ops)
    (ran : run Process.step (Process.new epoch) ops = some process) : process.Honest := by
  have preserved (state : Process U T S) (op : StoreOp U T) (next : Process U T S) (apart : state.Apart)
      (noReuse : state.NoReuse op) (stepped : state.step op = some next) : next.Apart :=
    apart.step noReuse stepped
  have apart := run_preserves preserved (Process.apart_new epoch) along ran
  exact apart.honest

private def roomEntry : ChannelEntry Nat Nat := ⟨7, 70, .ephemeral, .bounded 4⟩

private def roomMessage : NewMessage Nat := ⟨1, 2, .normal, none⟩

/-- The second store of a channel is read again after its predecessor served a later seq only. -/
theorem resume_positions_honest_after_clear_reregistration :
    ∃ process : Process Nat Nat Nat,
      Along Process.step Process.NoReuse (Process.new 9 : Process Nat Nat Nat)
        [.register roomEntry, .append 0 100 roomMessage, .append 0 101 roomMessage, .replayFrom 0 none (.bounded 1),
          .deregister 7, .register roomEntry, .append 1 102 roomMessage, .replayFrom 1 none .unbounded] ∧
      run Process.step (Process.new 9)
        [.register roomEntry, .append 0 100 roomMessage, .append 0 101 roomMessage, .replayFrom 0 none (.bounded 1),
          .deregister 7, .register roomEntry, .append 1 102 roomMessage, .replayFrom 1 none .unbounded] =
        some process ∧
      process.Honest := by
  have along : Along Process.step Process.NoReuse (Process.new 9 : Process Nat Nat Nat)
      [.register roomEntry, .append 0 100 roomMessage, .append 0 101 roomMessage, .replayFrom 0 none (.bounded 1),
        .deregister 7, .register roomEntry, .append 1 102 roomMessage, .replayFrom 1 none .unbounded] := by decide
  exact ⟨_, along, rfl, resume_positions_honest 9 _ _ along rfl⟩

/-- A client served seq 1 of a channel's first store resumes there on its second store, which has
    assigned seq 1 to another message, and is told it is up to date. -/
theorem stale_position_answered_upToDate :
    ∃ process : Process Nat Nat Nat,
      run Process.step (Process.new 9)
        [.register roomEntry, .append 0 100 roomMessage, .replayFrom 0 none .unbounded, .deregister 7,
          .register roomEntry, .append 1 101 roomMessage] = some process ∧
      process.served = [⟨0, 9, 1⟩] ∧ ¬ process.Honest := by
  refine ⟨_, rfl, rfl, ?_⟩
  intro honest
  have assigned : (0 : Nat) = 1 := honest 7 1 _ rfl rfl ⟨0, 9, 1⟩ (by decide) rfl .unbounded (.inr (by decide))
  exact absurd assigned (by decide)

end Brenn.Store
