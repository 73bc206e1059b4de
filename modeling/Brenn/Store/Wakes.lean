import Brenn.Queue.Wakes
import Brenn.Store.Parity

/-!
Whom a ring store names as owed something.

The listing reads each position's stakes off folds computed once for the whole ring. It names the
subscribers the wake question answers yes for, with the loudest urgency and the earliest deadline
of the entries their windows would present.
-/

namespace Brenn.Store
open Brenn.Lib Brenn.Queue Std

universe u v w x y

variable {U : Type u} {T : Type v} {S : Type w} [LinearOrder S]

def Named (cursors : TreeMap S SubscriberCursor) (appSlugs : TreeMap S T) : Prop :=
  ∀ subscriber : S, cursors[subscriber]? ≠ none → appSlugs[subscriber]? ≠ none

namespace Named

variable {cursors : TreeMap S SubscriberCursor} {appSlugs : TreeMap S T}

theorem insert (named : Named cursors appSlugs) (subscriber : S) (cursor : SubscriberCursor) (appSlug : T) :
    Named (cursors.insert subscriber cursor) (appSlugs.insert subscriber appSlug) := by
  intro other held
  rw [lookup_insert] at held ⊢
  split
  · simp
  next apart =>
    rw [if_neg apart] at held
    exact named other held

theorem erase (named : Named cursors appSlugs) (subscriber : S) :
    Named (cursors.erase subscriber) (appSlugs.erase subscriber) := by
  intro other held
  rw [lookup_erase] at held ⊢
  split
  next same => simp [same] at held
  next apart =>
    rw [if_neg apart] at held
    exact named other held

theorem move (named : Named cursors appSlugs) {subscriber : S} {old : SubscriberCursor}
    (found : cursors[subscriber]? = some old) (cursor : SubscriberCursor) :
    Named (cursors.insert subscriber cursor) appSlugs := by
  intro other held
  rw [lookup_insert] at held
  by_cases same : subscriber = other
  · subst same
    exact named subscriber (by simp [found])
  · rw [if_neg same] at held
    exact named other held

end Named

/-! ### What every call of the store keeps -/

namespace RingStore

/-- The positions of a store are push-enabled and held under an application. -/
structure Kept (store : RingStore U T S) : Prop where
  enabled : store.core.PushEnabled
  named : Named store.core.cursors store.appSlugs

theorem kept_fresh (channelUuid : U) (address : T) (depth : Nat) (epoch : U) :
    (fresh channelUuid address depth epoch : RingStore U T S).Kept where
  enabled := RingCore.pushEnabled_new epoch depth
  named := by
    intro subscriber held
    have absent : (∅ : TreeMap S SubscriberCursor)[subscriber]? ≠ none := held
    simp at absent

variable {store next : RingStore U T S}

theorem Kept.congr (kept : store.Kept) (cursors : next.core.cursors = store.core.cursors)
    (appSlugs : next.appSlugs = store.appSlugs) : next.Kept := by
  refine ⟨kept.enabled.congr cursors, ?_⟩
  rw [cursors, appSlugs]
  exact kept.named

theorem append_positions {messageId : U} {message : NewMessage T} {report : Nat × List (OverflowEvent S T)}
    (appended : store.append messageId message = some (report, next)) :
    next.core.cursors = store.core.cursors ∧ next.appSlugs = store.appSlugs := by
  unfold append at appended
  dsimp only at appended
  split at appended
  · cases appended
  · cases appended
    exact ⟨RingCore.append_cursors _ _, rfl⟩

theorem releaseDue_positions {now : Nat}
    {report : List (Retained (MessageEnvelope U T)) × List (OverflowEvent S T)}
    (released : store.releaseDue now = some (report, next)) :
    next.core.cursors = store.core.cursors ∧ next.appSlugs = store.appSlugs := by
  unfold releaseDue at released
  dsimp only at released
  split at released
  · cases released
  · cases released
    exact ⟨RingCore.releaseDue_cursors _ _, rfl⟩

theorem park_positions {messageId uuid : U} {message : NewMessage T} {releaseAt : Nat}
    (parked : store.park messageId message releaseAt = .ok (uuid, next)) :
    next.core.cursors = store.core.cursors ∧ next.appSlugs = store.appSlugs := by
  unfold park at parked
  split at parked
  · cases parked
  next admitted =>
    cases parked
    exact ⟨RingCore.park_cursors admitted, rfl⟩

theorem Kept.attach (kept : store.Kept) (subscriber : S) (appSlug : T) (pushDepth : Depth) :
    (store.attach subscriber appSlug pushDepth).2.Kept := by
  refine ⟨kept.enabled.attach subscriber (depthBound pushDepth), ?_⟩
  unfold RingStore.attach RingCore.attach
  by_cases sampled : depthBound pushDepth = 0
  · simp only [if_pos sampled, lookup_erase]
    exact kept.named.erase subscriber
  · simp only [if_neg sampled]
    split
    · simp only [lookup_insert]
      exact kept.named.insert subscriber _ appSlug
    · simp only [lookup_insert]
      exact kept.named.insert subscriber _ appSlug

theorem Kept.attachFrom (kept : store.Kept) {subscriber : S} {appSlug : T} {pushDepth : Depth} {floor : Nat}
    {attached : Attached} (joined : store.attachFrom subscriber appSlug pushDepth floor = some (attached, next)) :
    next.Kept := by
  unfold RingStore.attachFrom at joined
  split at joined
  · cases joined
  next attached core entered =>
    cases joined
    refine ⟨kept.enabled.attachFrom entered, ?_⟩
    unfold RingCore.attachFrom at entered
    split_ifs at entered
    split at entered
    · cases entered
      exact kept.named.insert subscriber _ appSlug
    · cases entered
      exact kept.named.insert subscriber _ appSlug

theorem Kept.window (kept : store.Kept) (subscriber : S) (pushLimit retainLimit : Depth) :
    (store.window subscriber pushLimit retainLimit).2.Kept := by
  refine ⟨kept.enabled.window subscriber _ _, ?_⟩
  unfold RingStore.window RingCore.window
  dsimp only
  split
  · split
    · exact kept.named
    · exact kept.named
  next cursor held => exact kept.named.move held _

theorem Kept.advance (kept : store.Kept) {subscriber : S} {through seenFloor : Nat} {answer : Option Advance}
    (moved : store.advance subscriber through seenFloor = some (answer, next)) : next.Kept := by
  obtain ⟨⟨advance, core⟩, entered, same⟩ := Option.map_eq_some_iff.mp moved
  cases same
  refine ⟨kept.enabled.advance entered, ?_⟩
  unfold RingCore.advance at entered
  split at entered
  · cases entered
    exact kept.named
  next cursor held =>
    split at entered
    · cases entered
    · cases entered
      exact kept.named.move held _

section Calls

variable [DecidableEq U] [DecidableEq T]

theorem Kept.editDeferred (kept : store.Kept) (sender : T) (messageId : U) (body : Option T) (releaseAt : Option Nat)
    (now : Nat) : (store.editDeferred sender messageId body releaseAt now).2.Kept := by
  unfold RingStore.editDeferred
  split
  · exact kept
  next id owned =>
    dsimp only
    split
    next core edited =>
      have same := congrArg (fun answer => answer.2.cursors) edited
      exact kept.congr (same.symm.trans (RingCore.editDeferred_cursors id _ _)) rfl
    next core refused =>
      have same := congrArg (fun answer => answer.2.cursors) refused
      exact kept.congr (same.symm.trans (RingCore.editDeferred_cursors id _ _)) rfl

theorem Kept.cancelDeferred (kept : store.Kept) (sender : T) (messageId : U) (now : Nat) :
    (store.cancelDeferred sender messageId now).2.Kept := by
  unfold RingStore.cancelDeferred
  split
  · exact kept
  next id owned => exact kept.congr (RingCore.cancelDeferred_cursors id) rfl

def after (store : RingStore U T S) (call : Call U T S) : Option (RingStore U T S) :=
  (store.answer call).map Prod.snd

theorem Kept.after (kept : store.Kept) {call : Call U T S} (called : store.after call = some next) : next.Kept := by
  obtain ⟨⟨said, left⟩, answered, rfl⟩ := Option.map_eq_some_iff.mp called
  cases call with
  | append rowId uuid message =>
    obtain ⟨⟨report, appended⟩, entered, same⟩ := Option.map_eq_some_iff.mp answered
    cases same
    obtain ⟨cursors, appSlugs⟩ := append_positions entered
    exact kept.congr cursors appSlugs
  | park rowId uuid message releaseAt =>
    obtain ⟨instant, -, same⟩ := Option.map_eq_some_iff.mp answered
    split at same
    · cases same
      exact kept
    next admitted =>
      cases same
      obtain ⟨cursors, appSlugs⟩ := park_positions admitted
      exact kept.congr cursors appSlugs
  | releaseDue now =>
    obtain ⟨instant, -, read⟩ := Option.bind_eq_some_iff.mp answered
    obtain ⟨⟨report, released⟩, entered, same⟩ := Option.map_eq_some_iff.mp read
    cases same
    obtain ⟨cursors, appSlugs⟩ := releaseDue_positions entered
    exact kept.congr cursors appSlugs
  | editDeferred sender messageUuid body releaseAt now =>
    obtain ⟨instant, -, read⟩ := Option.bind_eq_some_iff.mp answered
    dsimp only at read
    split at read
    · cases read
      exact kept
    · obtain ⟨moved, -, same⟩ := Option.map_eq_some_iff.mp read
      cases same
      exact kept.editDeferred sender messageUuid body moved instant
  | cancelDeferred sender messageUuid now =>
    obtain ⟨instant, -, same⟩ := Option.map_eq_some_iff.mp answered
    cases same
    exact kept.cancelDeferred sender messageUuid instant
  | attach subscriber appSlug pushDepth =>
    cases answered
    exact kept.attach subscriber appSlug pushDepth
  | attachFrom subscriber appSlug pushDepth floor =>
    obtain ⟨⟨attached, joined⟩, entered, same⟩ := Option.map_eq_some_iff.mp answered
    cases same
    exact kept.attachFrom entered
  | detach subscriber =>
    cases answered
    exact ⟨kept.enabled.erase rfl, kept.named.erase subscriber⟩
  | window subscriber pushLimit retainLimit =>
    cases answered
    exact kept.window subscriber pushLimit retainLimit
  | advance subscriber through seenFloor =>
    obtain ⟨⟨advance, moved⟩, entered, same⟩ := Option.map_eq_some_iff.mp answered
    cases same
    exact kept.advance entered
  | deliverableSubscribers =>
    obtain ⟨owed, listed, same⟩ := Option.map_eq_some_iff.mp answered
    cases same
    exact kept
  | replayFrom cursor limit | hasDeliverable subscriber | deferredForSender sender | evict keep =>
    cases answered
    exact kept

theorem kept_run {channelUuid epoch : U} {address : T} {depth : Nat} {calls : List (Call U T S)}
    (ran : run after (fresh channelUuid address depth epoch) calls = some store) : store.Kept := by
  have kept : ∀ (store : RingStore U T S) call next, store.Kept → True → store.after call = some next → next.Kept :=
    fun _ _ _ kept _ called => kept.after called
  exact run_preserves kept (kept_fresh channelUuid address depth epoch) (along_of_forall (fun _ _ => trivial) _ _) ran

end Calls

/-! ### The listing -/

/-- What the listing says of one subscriber is what its unseen entries put at stake. -/
def Staked (store : RingStore U T S) (owed : DeliverableSubscriber S T) : Prop :=
  ∃ cursor, store.core.cursors[owed.subscriber]? = some cursor ∧
    Stakes (stakesFrom cursor.nextOwed store.core.ring.entries) owed.maxUnseenUrgency owed.earliestUnseenDeadline

/-- The store lists every subscriber the wake question answers yes for, once, with its stakes. -/
structure Lists (store : RingStore U T S) (owed : List (DeliverableSubscriber S T)) : Prop where
  listed : store.deliverableSubscribers = some owed
  once : (owed.map DeliverableSubscriber.subscriber).Nodup
  woken : ∀ subscriber, subscriber ∈ owed.map DeliverableSubscriber.subscriber ↔ store.hasDeliverable subscriber = true
  staked : ∀ entry ∈ owed, store.Staked entry

/-- The walk over some of the positions answers one entry for each that is owed something. -/
theorem Kept.walk (kept : store.Kept) (walk : List (S × SubscriberCursor))
    (stored : ∀ entry ∈ walk, store.core.cursors[entry.1]? = some entry.2) :
    ∃ owed, ((walk.filter fun entry => entry.2.hasDeliverable store.core.ring).mapM fun (subscriber, cursor) =>
        match store.appSlugs[subscriber]?, (suffixFolds store.core.ring.entries)[(store.core.ring.entries.takeWhile
          fun entry => decide (entry.seq < cursor.nextOwed)).length]? with
        | some slug, some (loudest, earliest) => some (⟨subscriber, some slug, loudest, earliest⟩ :
            DeliverableSubscriber S T)
        | _, _ => none) = some owed ∧
      owed.map DeliverableSubscriber.subscriber =
        (walk.filter fun entry => entry.2.hasDeliverable store.core.ring).map Prod.fst ∧
      ∀ entry ∈ owed, store.Staked entry := by
  induction walk with
  | nil => exact ⟨[], rfl, rfl, by simp⟩
  | cons entry walk ih =>
    obtain ⟨subscriber, cursor⟩ := entry
    obtain ⟨owed, found, names, staked⟩ := ih fun other member => stored other (List.mem_cons_of_mem _ member)
    have held := stored (subscriber, cursor) List.mem_cons_self
    by_cases owes : cursor.hasDeliverable store.core.ring = true
    · obtain ⟨slug, under⟩ := Option.ne_none_iff_exists'.mp (kept.named subscriber (by simp [held]))
      have trails : (!store.core.ring.isEmpty && decide (store.core.ring.newestSeq ≥ cursor.nextOwed)) = true := by
        rw [SubscriberCursor.hasDeliverable, Bool.and_assoc] at owes
        exact ((Bool.and_eq_true _ _).mp owes).2
      obtain ⟨urgency, deadline, folded, stakes⟩ := ring_stakes store.core.ring trails
      refine ⟨⟨subscriber, some slug, urgency, deadline⟩ :: owed, ?_, ?_, ?_⟩
      · simp only [List.filter_cons, owes, if_true, List.mapM_cons, under, folded, found]
        rfl
      · simp only [List.filter_cons, owes, if_true, List.map_cons, names]
      · intro listed member
        rcases List.mem_cons.mp member with rfl | later
        · exact ⟨cursor, held, stakes⟩
        · exact staked listed later
    · rw [List.filter_cons_of_neg (by simpa using owes)]
      exact ⟨owed, found, names, staked⟩

theorem Kept.lists (kept : store.Kept) : ∃ owed, store.Lists owed := by
  obtain ⟨owed, listed, names, staked⟩ := kept.walk store.core.cursors.toList
    fun entry member => TreeMap.mem_toList_iff_getElem?_eq_some.mp member
  refine ⟨owed, listed, ?_, ?_, staked⟩
  · rw [names]
    refine List.Nodup.map_on ?_ ((nodup_toList _).filter _)
    intro left leftMember right rightMember same
    have first := TreeMap.mem_toList_iff_getElem?_eq_some.mp (List.mem_filter.mp leftMember).1
    have second := TreeMap.mem_toList_iff_getElem?_eq_some.mp (List.mem_filter.mp rightMember).1
    rw [same, second] at first
    exact Prod.ext same (Option.some.inj first).symm
  · intro subscriber
    rw [names]
    unfold hasDeliverable RingCore.hasDeliverable
    constructor
    · intro member
      obtain ⟨⟨name, cursor⟩, listed, rfl⟩ := List.mem_map.mp member
      obtain ⟨walked, owes⟩ := List.mem_filter.mp listed
      have held : store.core.cursors[name]? = some cursor := TreeMap.mem_toList_iff_getElem?_eq_some.mp walked
      simp only [held]
      exact owes
    · intro owes
      split at owes
      next cursor held =>
        refine List.mem_map.mpr ⟨(subscriber, cursor), List.mem_filter.mpr ⟨?_, owes⟩, rfl⟩
        exact TreeMap.mem_toList_iff_getElem?_eq_some.mpr held
      next => cases owes

end RingStore

variable {M : Type x} {E : Type y} {P : Type*} [DecidableEq U] [DecidableEq T]

/-- The wake question, the windows and the listing agree. After any calls of a core, the question
    answers yes for an attached subscriber exactly when every push-enabled window has something
    new, and what is new is then the newest of what the ring holds, as many as were asked for and
    are unseen; after any calls of a ring store, its listing names exactly these subscribers,
    with the loudest urgency and the earliest deadline of their unseen entries. -/
theorem wakes_agree_with_windows :
    (∀ (epoch : E) (depth : Nat) (calls : List (CoreCall M S P)) (core : RingCore M E S P),
      run RingCore.after (.new epoch depth) calls = some core →
      ∀ (subscriber : S) (cursor : SubscriberCursor), core.cursors[subscriber]? = some cursor →
        core.WakesWithWindow subscriber cursor) ∧
    (∀ (channelUuid epoch : U) (address : T) (depth : Nat) (calls : List (Call U T S)) (store : RingStore U T S),
      run RingStore.after (.fresh channelUuid address depth epoch) calls = some store →
      (∀ (subscriber : S) (cursor : SubscriberCursor), store.core.cursors[subscriber]? = some cursor →
        store.core.WakesWithWindow subscriber cursor) ∧
      ∃ owed, store.Lists owed) := by
  constructor
  · intro epoch depth calls core ran subscriber cursor held
    exact (RingCore.pushEnabled_run ran).wakesWithWindow held
  · intro channelUuid epoch address depth calls store ran
    have kept := RingStore.kept_run ran
    exact ⟨fun subscriber cursor held => kept.enabled.wakesWithWindow held, kept.lists⟩

/-- Three messages on a ring of two: a reader that lags past the evicted one is listed, a reader
    that has caught up is not. -/
theorem lagging_reader_listed :
    (∃ core : RingCore String Nat Nat String,
      run RingCore.after (.new 1 3) [.attach 1 2, .append "one", .append "two", .append "three", .setDepth 2] =
        some core ∧
      core.hasDeliverable 1 = true ∧ ∀ cursor, core.cursors[1]? = some cursor → core.WakesWithWindow 1 cursor) ∧
    ∃ store : RingStore Nat String Nat,
      run RingStore.after (.fresh 7 "ephemeral:news" 2 1)
        [.attach 1 "first" (.bounded 2), .attach 2 "second" (.bounded 1),
          .append 1 11 ⟨"press", "one", .high, some 30⟩, .append 2 12 ⟨"press", "two", .normal, some 50⟩,
          .append 3 13 ⟨"press", "three", .low, some 40⟩, .advance 2 3 2] = some store ∧
      store.deliverableSubscribers = some [⟨1, some "first", .normal, some 40⟩] ∧ ∃ owed, store.Lists owed := by
  obtain ⟨core, ranCore, wakes⟩ : ∃ core : RingCore String Nat Nat String,
      run RingCore.after (.new 1 3) [.attach 1 2, .append "one", .append "two", .append "three", .setDepth 2] =
        some core ∧ core.hasDeliverable 1 = true := Option.map_eq_some_iff.mp (by decide +kernel)
  obtain ⟨store, ran, listed⟩ : ∃ store : RingStore Nat String Nat,
      run RingStore.after (.fresh 7 "ephemeral:news" 2 1)
        [.attach 1 "first" (.bounded 2), .attach 2 "second" (.bounded 1),
          .append 1 11 ⟨"press", "one", .high, some 30⟩, .append 2 12 ⟨"press", "two", .normal, some 50⟩,
          .append 3 13 ⟨"press", "three", .low, some 40⟩, .advance 2 3 2] = some store ∧
      store.deliverableSubscribers = some [⟨1, some "first", .normal, some 40⟩] :=
    Option.map_eq_some_iff.mp (by decide +kernel)
  refine ⟨⟨core, ranCore, wakes, ?_⟩, store, ran, listed, ?_⟩
  · exact (wakes_agree_with_windows (U := Nat) (T := String)).1 1 3 _ core ranCore 1
  · exact ((wakes_agree_with_windows (M := String) (E := Nat) (P := String)).2 7 1 _ 2 _ store ran).2

end Brenn.Store
