import Brenn.Lib.Run
import Brenn.Store.Mirror.Owed
import Brenn.Store.Mirror.Parked

/-!
The durable store and the ring store answer alike.

Both stores of a depth are taken through one sequence of calls, with eviction
passes over the durable rows anywhere in between. The durable side holds every row
the ring holds and, until a pass removes them, older ones. The one read that does not go by depth
is `deliverableSubscribers`, which folds over the rows each store still holds.
-/

namespace Brenn.Store
open Brenn.Lib Brenn.Queue Std

universe u v w

variable {U : Type u} {T : Type v} {S : Type w} [LinearOrder S]

/-! ### Calls and answers -/

inductive Call (U : Type u) (T : Type v) (S : Type w) where
  | append (rowId : Nat) (uuid : U) (message : NewMessage T)
  | park (rowId : Nat) (uuid : U) (message : NewMessage T) (releaseAt : Nat)
  | releaseDue (now : Nat)
  | editDeferred (sender : T) (messageUuid : U) (body : Option T) (releaseAt : Option Nat) (now : Nat)
  | cancelDeferred (sender : T) (messageUuid : U) (now : Nat)
  | attach (subscriber : S) (appSlug : T) (pushDepth : Depth)
  | attachFrom (subscriber : S) (appSlug : T) (pushDepth : Depth) (floor : Nat)
  | detach (subscriber : S)
  | window (subscriber : S) (pushLimit retainLimit : Depth)
  | advance (subscriber : S) (through seenFloor : Nat)
  | replayFrom (cursor : Option (Resume U)) (limit : Depth)
  | hasDeliverable (subscriber : S)
  | deliverableSubscribers
  | deferredForSender (sender : T)
  | evict (keep : Nat)
  deriving Repr, DecidableEq

/-- The instants a call states. -/
def Call.instants : Call U T S → List Nat
  | .append _ _ message => message.deliveryDeadline.toList
  | .park _ _ message releaseAt => releaseAt :: message.deliveryDeadline.toList
  | .editDeferred _ _ _ releaseAt now => now :: releaseAt.toList
  | .releaseDue now | .cancelDeferred _ _ now => [now]
  | _ => []

inductive Answer (U : Type u) (T : Type v) (S : Type w) where
  | committed (seq : Nat)
  | refused (cap : Nat)
  | parked (uuid : U)
  | released (messages : List (Retained (MessageEnvelope U T)))
  | deferral (outcome : DeferralOutcome)
  | attached (attached : Attached) (position : Option Nat)
  | detached (position : Option Nat)
  | window (window : Option (Window (MessageEnvelope U T)))
  | advanced (dropped : Option Nat)
  | replayed (replay : StoreReplay (MessageEnvelope U T) U)
  | deliverable (owed : Bool)
  | subscribers (owed : List (DeliverableSubscriber S T))
  | deferred (messages : List (DeferredMessage U T))
  | evicted
  deriving Repr, DecidableEq

def DbChannel.position (channel : DbChannel U T S) (subscriber : S) : Option Nat :=
  channel.cursors[subscriber]?.map SubscriberCursorRow.nextOwedSeq

def RingStore.position (store : RingStore U T S) (subscriber : S) : Option Nat :=
  store.core.cursors[subscriber]?.map SubscriberCursor.nextOwed

variable [DecidableEq U] [DecidableEq T]

def DbChannel.answer (channel : DbChannel U T S) : Call U T S → Option (Answer U T S × DbChannel U T S)
  | .append rowId uuid message =>
    let (seq, after) := channel.append rowId uuid message
    seq.map fun seq => (.committed seq, after)
  | .park rowId uuid message releaseAt =>
    match channel.park rowId uuid message releaseAt with
    | .error refused => some (.refused refused.cap, channel)
    | .ok (uuid, after) => some (.parked uuid, after)
  | .releaseDue now =>
    let (released, after) := channel.releaseDueForChannel now
    some (.released released, after)
  | .editDeferred sender messageUuid body releaseAt now =>
    let (outcome, after) := channel.editDeferred sender messageUuid body releaseAt now
    some (.deferral outcome, after)
  | .cancelDeferred sender messageUuid now =>
    let (outcome, after) := channel.cancelDeferred sender messageUuid now
    some (.deferral outcome, after)
  | .attach subscriber appSlug pushDepth =>
    (channel.attach subscriber appSlug pushDepth).map fun (attached, after) =>
      (.attached attached (after.position subscriber), after)
  | .attachFrom subscriber appSlug pushDepth floor =>
    (channel.attachFrom subscriber appSlug pushDepth floor).map fun (attached, after) =>
      (.attached attached (after.position subscriber), after)
  | .detach subscriber =>
    let (position, after) := channel.detach subscriber
    some (.detached position, after)
  | .window subscriber pushLimit retainLimit =>
    let (window, after) := channel.window subscriber pushLimit retainLimit
    some (.window window, after)
  | .advance subscriber through seenFloor =>
    (channel.advance subscriber through seenFloor).map fun (advance, after) =>
      (.advanced (advance.map Advance.dropped), after)
  | .replayFrom cursor limit => some (.replayed (channel.replayFrom cursor limit), channel)
  | .hasDeliverable subscriber => some (.deliverable (channel.cursorHasDeliverable subscriber), channel)
  | .deliverableSubscribers => some (.subscribers channel.deliverableCursorSubscribers, channel)
  | .deferredForSender sender => some (.deferred (channel.deferredForSender sender), channel)
  | .evict keep => some (.evicted, (channel.busGcEvictChannel keep).2)

/-- The ring's clock; `release_time_of` panics before 1970. -/
def sinceEpoch (instant : Nat) : Option Nat :=
  if unixEpoch ≤ instant then some (instant - unixEpoch) else none

def RingStore.answer (store : RingStore U T S) : Call U T S → Option (Answer U T S × RingStore U T S)
  | .append _ uuid message =>
    (store.append uuid message).map fun (report, after) => (.committed report.1, after)
  | .park _ uuid message releaseAt =>
    (sinceEpoch releaseAt).map fun releaseAt =>
      match store.park uuid message releaseAt with
      | .error refused => (.refused refused.cap, store)
      | .ok (uuid, after) => (.parked uuid, after)
  | .releaseDue now =>
    (sinceEpoch now).bind fun now => (store.releaseDue now).map fun (report, after) => (.released report.1, after)
  | .editDeferred sender messageUuid body releaseAt now =>
    (sinceEpoch now).bind fun now =>
      match store.ownedId sender messageUuid now with
      | .error outcome => some (.deferral outcome.dated, store)
      | .ok _ =>
        -- the new instant is read only for a message that is the sender's to edit
        (releaseAt.mapM sinceEpoch).map fun releaseAt =>
          let (outcome, after) := store.editDeferred sender messageUuid body releaseAt now
          (.deferral outcome.dated, after)
  | .cancelDeferred sender messageUuid now =>
    (sinceEpoch now).map fun now =>
      let (outcome, after) := store.cancelDeferred sender messageUuid now
      (.deferral outcome.dated, after)
  | .attach subscriber appSlug pushDepth =>
    let (attached, after) := store.attach subscriber appSlug pushDepth
    some (.attached attached (after.position subscriber), after)
  | .attachFrom subscriber appSlug pushDepth floor =>
    (store.attachFrom subscriber appSlug pushDepth floor).map fun (attached, after) =>
      (.attached attached (after.position subscriber), after)
  | .detach subscriber =>
    let (position, after) := store.detach subscriber
    some (.detached position, after)
  | .window subscriber pushLimit retainLimit =>
    let (window, after) := store.window subscriber pushLimit retainLimit
    some (.window window, after)
  | .advance subscriber through seenFloor =>
    (store.advance subscriber through seenFloor).map fun (advance, after) =>
      (.advanced (advance.map Advance.dropped), after)
  | .replayFrom cursor limit => some (.replayed (store.replayFrom cursor limit), store)
  | .hasDeliverable subscriber => some (.deliverable (store.hasDeliverable subscriber), store)
  | .deliverableSubscribers => store.deliverableSubscribers.map fun owed => (.subscribers owed, store)
  | .deferredForSender sender =>
    some (.deferred ((store.deferredForSender sender).map fun view =>
      { view with releaseAt := view.releaseAt + unixEpoch }), store)
  | .evict _ => some (.evicted, store)

/-! ### Both stores side by side -/

/-- A durable channel and a ring store taken through the same calls. -/
structure Pair (U : Type u) (T : Type v) (S : Type w) [LinearOrder S] where
  depth : Nat
  durable : DbChannel U T S
  ring : RingStore U T S
  drawn : List U

namespace Pair

def new (channelUuid epoch : U) (address : T) (depth : Nat) : Pair U T S :=
  ⟨depth, .new epoch (.bounded depth), .fresh channelUuid address depth epoch, []⟩

def draws : Call U T S → List U
  | .append _ uuid _ | .park _ uuid _ _ => [uuid]
  | _ => []

def step (pair : Pair U T S) (call : Call U T S) : Option (Pair U T S) :=
  match pair.durable.answer call, pair.ring.answer call with
  | some (_, durable), some (_, ring) =>
    some { pair with durable, ring, drawn := draws call ++ pair.drawn }
  | _, _ => none

def Within (depth : Nat) : Depth → Prop
  | .bounded n => n ≤ depth
  | .unbounded => False

/-- Row ids are drawn above every row, uuids are new, a subscriber asks for no more than the channel's depth, and an
    eviction pass keeps at least that much. -/
def Admitted (pair : Pair U T S) : Call U T S → Prop
  | .append rowId uuid _ | .park rowId uuid _ _ =>
    (∀ row ∈ pair.durable.rows, row.id < rowId) ∧ uuid ∉ pair.drawn
  | .attach _ _ pushDepth | .attachFrom _ _ pushDepth _ => Within pair.depth pushDepth
  | .window _ pushLimit retainLimit => Within pair.depth pushLimit ∧ Within pair.depth retainLimit
  | .evict keep => pair.depth ≤ keep
  | _ => True

/-- Seconds from the year 0 to the year 10000. Up to there the texts of rows compare as their instants. -/
def yearTenThousand : Nat := 315569520000

/-- The calls the stores are compared on. -/
def Regular (pair : Pair U T S) (call : Call U T S) : Prop :=
  pair.Admitted call ∧ ∀ instant ∈ call.instants, instant < yearTenThousand

instance (depth : Nat) : (limit : Depth) → Decidable (Within depth limit)
  | .bounded n => inferInstanceAs (Decidable (n ≤ depth))
  | .unbounded => inferInstanceAs (Decidable False)

instance (pair : Pair U T S) : (call : Call U T S) → Decidable (pair.Admitted call)
  | .append _ _ _ | .park _ _ _ _ => inferInstanceAs (Decidable (_ ∧ _))
  | .attach _ _ pushDepth | .attachFrom _ _ pushDepth _ => inferInstanceAs (Decidable (Within pair.depth pushDepth))
  | .window _ _ _ => inferInstanceAs (Decidable (_ ∧ _))
  | .evict _ => inferInstanceAs (Decidable (_ ≤ _))
  | .releaseDue _ | .editDeferred _ _ _ _ _ | .cancelDeferred _ _ _ | .detach _ | .advance _ _ _ | .replayFrom _ _
  | .hasDeliverable _ | .deliverableSubscribers | .deferredForSender _ => inferInstanceAs (Decidable True)

instance (pair : Pair U T S) (call : Call U T S) : Decidable (pair.Regular call) := inferInstanceAs (Decidable (_ ∧ _))

/-- Where the two stores do not part: every instant the ring reads is from 1970 on, an advance has
    a floor inside its window or a position to check it against, and the rows awaiting eviction
    are outweighed. -/
def Level (pair : Pair U T S) : Call U T S → Prop
  | .park _ _ _ instant | .releaseDue instant | .cancelDeferred _ _ instant => unixEpoch ≤ instant
  | .editDeferred sender messageUuid _ releaseAt now =>
    unixEpoch ≤ now ∧
      ((pair.durable.ownedRow sender messageUuid now).isOk → ∀ instant ∈ releaseAt, unixEpoch ≤ instant)
  | .advance subscriber through seenFloor => seenFloor ≤ through + 1 ∨ pair.durable.cursors[subscriber]?.isSome
  | .deliverableSubscribers => Outweighed pair.depth pair.durable
  | _ => True

instance (pair : Pair U T S) : (call : Call U T S) → Decidable (pair.Level call)
  | .park _ _ _ _ | .releaseDue _ | .cancelDeferred _ _ _ => inferInstanceAs (Decidable (_ ≤ _))
  | .editDeferred _ _ _ _ _ => inferInstanceAs (Decidable (_ ∧ (_ → ∀ instant ∈ _, _ ≤ _)))
  | .advance _ _ _ => inferInstanceAs (Decidable (_ ∨ _))
  | .deliverableSubscribers => inferInstanceAs (Decidable (Outweighed _ _))
  | .append _ _ _ | .attach _ _ _ | .attachFrom _ _ _ _ | .detach _ | .window _ _ _ | .replayFrom _ _
  | .hasDeliverable _ | .deferredForSender _ | .evict _ => inferInstanceAs (Decidable True)

/-- The answers are equal, the owed subscribers up to their order, which in the ring is its map's. -/
def Alike : Answer U T S → Answer U T S → Prop
  | .subscribers durable, .subscribers ring => durable.Perm ring
  | durable, ring => durable = ring

/-- Both stores panic on a call, or both answer it alike. -/
def Agree (pair : Pair U T S) (call : Call U T S) : Prop :=
  match pair.durable.answer call, pair.ring.answer call with
  | none, none => True
  | some (durable, _), some (ring, _) => Alike durable ring
  | _, _ => False

/-! ### The simulation -/

/-- The ring store is the shadow of the durable channel. -/
structure Mirrors (pair : Pair U T S) : Prop where
  retains : Retains pair.depth pair.durable pair.ring.core.ring
  defers : ∃ rowOf, Defers pair.depth pair.durable pair.ring.core.deferred rowOf
  holds : Holds pair.durable.cursors pair.ring.core.cursors pair.ring.appSlugs
  epoch : pair.ring.epoch = pair.durable.resumeEpoch
  uuids : (pair.durable.rows.map MessageRow.uuid).Nodup
  drawn : ∀ row ∈ pair.durable.rows, row.uuid ∈ pair.drawn

/-- What one call does to a pair that mirrors. -/
def Simulated (pair : Pair U T S) (call : Call U T S) : Prop :=
  (pair.durable.answer call = none ∧ pair.ring.answer call = none) ∨
    ∃ left durable right ring, pair.durable.answer call = some (left, durable) ∧
      pair.ring.answer call = some (right, ring) ∧ Alike left right ∧
      Mirrors { pair with durable, ring, drawn := draws call ++ pair.drawn }

omit [DecidableEq U] [DecidableEq T] in
theorem mirrors_new (channelUuid epoch : U) (address : T) {depth : Nat} (positive : 0 < depth) :
    Mirrors (new channelUuid epoch address depth : Pair U T S) where
  retains := Retains.start epoch positive
  defers := ⟨id, Defers.start epoch depth id⟩
  holds := Holds.start
  epoch := rfl
  uuids := .nil
  drawn := by simp [new, DbChannel.new]

variable {pair : Pair U T S}

omit [DecidableEq U] [DecidableEq T] in
theorem Mirrors.repositioned (mirrors : pair.Mirrors) {after : DbChannel U T S} {store : RingStore U T S}
    (moved : Repositioned pair.durable after pair.ring store) :
    Mirrors { pair with durable := after, ring := store } := by
  obtain ⟨durable, epoch, ring, deferred, holds⟩ := moved
  obtain ⟨rowOf, defers⟩ := mirrors.defers
  have sound := mirrors.retains.sound
  rw [durable] at holds ⊢
  refine ⟨?_, ⟨rowOf, ?_⟩, holds, epoch.trans mirrors.epoch, mirrors.uuids, mirrors.drawn⟩
  · rw [ring]
    exact mirrors.retains.aside ⟨sound.exclusive, sound.ids, sound.counted, sound.dense⟩ rfl rfl rfl rfl
  · rw [deferred]
    exact defers.aside rfl

omit [DecidableEq U] [DecidableEq T] in
/-- A write to the rows that leaves every position alone. -/
theorem Mirrors.rewritten (mirrors : pair.Mirrors) {after : DbChannel U T S} {core : RingCore (MessageEnvelope U T) U S T}
    {publishes : Nat} {drawn : List U} (retains : Retains pair.depth after core.ring)
    (defers : ∃ rowOf, Defers pair.depth after core.deferred rowOf) (cursors : after.cursors = pair.durable.cursors)
    (positions : core.cursors = pair.ring.core.cursors) (epoch : after.resumeEpoch = pair.durable.resumeEpoch)
    (uuids : (after.rows.map MessageRow.uuid).Nodup ∧ ∀ row ∈ after.rows, row.uuid ∈ drawn) :
    Mirrors { pair with durable := after, ring := { pair.ring with core, publishes }, drawn } := by
  refine ⟨retains, defers, ?_, mirrors.epoch.trans epoch.symm, uuids.1, uuids.2⟩
  rw [cursors, positions]
  exact mirrors.holds

omit [DecidableEq U] [DecidableEq T] in
theorem Mirrors.kept (mirrors : pair.Mirrors) {after : DbChannel U T S}
    (uuids : (after.rows.map MessageRow.uuid).Sublist (pair.durable.rows.map MessageRow.uuid)) :
    (after.rows.map MessageRow.uuid).Nodup ∧ ∀ row ∈ after.rows, row.uuid ∈ pair.drawn := by
  refine ⟨mirrors.uuids.sublist uuids, fun row member => ?_⟩
  obtain ⟨old, held, same⟩ := List.mem_map.mp (uuids.subset (List.mem_map_of_mem member))
  rw [← same]
  exact mirrors.drawn old held

omit [DecidableEq U] [DecidableEq T] in
theorem Mirrors.added (mirrors : pair.Mirrors) {row : MessageRow U T} (fresh : row.uuid ∉ pair.drawn) :
    ((pair.durable.rows ++ [row]).map MessageRow.uuid).Nodup ∧
      ∀ other ∈ pair.durable.rows ++ [row], other.uuid ∈ row.uuid :: pair.drawn := by
  refine ⟨?_, fun other member => ?_⟩
  · rw [List.map_append, List.nodup_append]
    refine ⟨mirrors.uuids, List.nodup_singleton _, ?_⟩
    rintro uuid member other here rfl
    obtain ⟨old, held, rfl⟩ := List.mem_map.mp member
    rw [List.map_singleton, List.mem_singleton] at here
    exact fresh (here ▸ mirrors.drawn old held)
  · rcases List.mem_append.mp member with old | here
    · exact List.mem_cons_of_mem _ (mirrors.drawn other old)
    · rw [List.mem_singleton.mp here]
      exact List.mem_cons_self

omit [DecidableEq U] [DecidableEq T] in
/-- Every charge of a report names a subscriber the store knows the application of. -/
theorem Mirrors.named (mirrors : pair.Mirrors) {overflow : List (CursorOverflow S)}
    (charges : Charges pair.ring.core.cursors overflow) :
    ∃ events, RingStore.overflowEvents pair.ring.appSlugs overflow = some events := by
  refine overflowEvents_of_charges fun event member => ?_
  have held := charges event member
  rw [mirrors.holds.cursors, Option.isSome_map] at held
  rw [mirrors.holds.appSlugs, Option.isSome_map]
  exact held

theorem Mirrors.append (mirrors : pair.Mirrors) {rowId : Nat} {uuid : U} (message : NewMessage T)
    (above : ∀ row ∈ pair.durable.rows, row.id < rowId) (fresh : uuid ∉ pair.drawn) :
    pair.Simulated (.append rowId uuid message) := by
  obtain ⟨sound, view⟩ := mirrors.retains.sound.append above uuid message
  obtain ⟨rowOf, defers⟩ := mirrors.defers
  obtain ⟨events, named⟩ := mirrors.named (charges_append pair.ring.core (envelopeOf uuid message))
  have ring : pair.ring.answer (.append rowId uuid message) = some (.committed pair.ring.core.ring.nextSeq,
      { pair.ring with
        core := (pair.ring.core.append (envelopeOf uuid message)).2, publishes := pair.ring.publishes + 1 }) := by
    simp [RingStore.answer, RingStore.append, named]
  refine .inr ⟨_, _, _, _, rfl, ring, ?_, ?_⟩
  · show Answer.committed _ = _
    rw [mirrors.retains.head]
  · refine mirrors.rewritten ?_ ⟨rowOf, ?_⟩ rfl ?_ rfl (mirrors.added fresh)
    · rw [RingCore.append_ring]
      exact mirrors.retains.grow sound view rfl rfl rfl
    · rw [RingCore.append_deferred]
      exact defers.aside (DbChannel.append_parkedView rowId uuid message)
    · exact RingCore.append_cursors _ _

omit [DecidableEq U] [DecidableEq T] in
theorem sinceEpoch_of_le {instant : Nat} (dated : unixEpoch ≤ instant) :
    sinceEpoch instant = some (instant - unixEpoch) := if_pos dated

theorem Mirrors.park (mirrors : pair.Mirrors) {rowId : Nat} {uuid : U} (message : NewMessage T) {releaseAt : Nat}
    (dated : unixEpoch ≤ releaseAt) (above : ∀ row ∈ pair.durable.rows, row.id < rowId) (fresh : uuid ∉ pair.drawn) :
    pair.Simulated (.park rowId uuid message releaseAt) := by
  obtain ⟨rowOf, defers⟩ := mirrors.defers
  have refusal := defers.refusal mirrors.retains.cap
  cases refused : pair.ring.core.deferred.refusal with
  | some quota =>
    rw [refused] at refusal
    have durable : pair.durable.answer (.park rowId uuid message releaseAt) = some (.refused quota.cap, pair.durable) := by
      simp [DbChannel.answer, DbChannel.park, refusal]
    have ring : pair.ring.answer (.park rowId uuid message releaseAt) = some (.refused quota.cap, pair.ring) := by
      simp [RingStore.answer, sinceEpoch_of_le dated, RingStore.park, RingCore.park, DeferredSet.park, refused]
    refine .inr ⟨_, _, _, _, durable, ring, rfl, ?_⟩
    obtain ⟨retains, defers, holds, epoch, uuids, drawn⟩ := mirrors
    exact ⟨retains, defers, holds, epoch, uuids, fun row member => List.mem_append_right _ (drawn row member)⟩
  | none =>
    rw [refused] at refusal
    obtain ⟨sound, view⟩ := mirrors.retains.sound.insertParked above uuid message releaseAt
    obtain ⟨id, parked, done, moved⟩ := defers.park mirrors.retains.sound above uuid message dated refused
    have durable : pair.durable.answer (.park rowId uuid message releaseAt) =
        some (.parked uuid, (pair.durable.insertMessage rowId uuid message (some releaseAt)).2) := by
      simp [DbChannel.answer, DbChannel.park, refusal]
    have ring : pair.ring.answer (.park rowId uuid message releaseAt) =
        some (.parked uuid, { pair.ring with core := { pair.ring.core with deferred := parked } }) := by
      simp [RingStore.answer, sinceEpoch_of_le dated, RingStore.park, RingCore.park, done]
    exact .inr ⟨_, _, _, _, durable, ring, rfl,
      mirrors.rewritten (mirrors.retains.aside sound view rfl rfl rfl) moved rfl rfl rfl (mirrors.added fresh)⟩

theorem Mirrors.releaseDue (mirrors : pair.Mirrors) {now : Nat} (dated : unixEpoch ≤ now) :
    pair.Simulated (.releaseDue now) := by
  obtain ⟨rowOf, defers⟩ := mirrors.defers
  have sound := mirrors.retains.sound
  have waiting := DbChannel.waiting_deferredRows sound.ids fun row => decide (row.releaseAt ≤ now)
  have frame := DbChannel.releaseRows_frame
    (pair.durable.deferredRows fun row => decide (row.releaseAt ≤ now)) pair.durable
  obtain ⟨events, named⟩ := mirrors.named (charges_releaseDue pair.ring.core (releaseTimeOf (now - unixEpoch)))
  -- the due messages leave the set before any of them enters the ring
  obtain ⟨retains, released⟩ := Retains.releaseRows
    { pair.ring.core with deferred := (pair.ring.core.deferred.releaseDue (releaseTimeOf (now - unixEpoch))).2 }
    mirrors.retains waiting (defers.due sound dated) ⟨[], []⟩
  have ring : pair.ring.answer (.releaseDue now) = some (.released (pair.durable.releaseDueForChannel now).1,
      { pair.ring with
        core := (pair.ring.core.releaseDue (releaseTimeOf (now - unixEpoch))).2
        publishes := pair.ring.publishes + (pair.durable.releaseDueForChannel now).1.length }) := by
    have same : (pair.ring.core.releaseDue (releaseTimeOf (now - unixEpoch))).1.released =
        (pair.durable.releaseDueForChannel now).1 := released
    simp only [RingStore.answer, sinceEpoch_of_le dated, Option.bind_some, RingStore.releaseDue, named, same,
      Option.map_some]
  refine .inr ⟨_, _, _, _, rfl, ring, rfl, ?_⟩
  refine mirrors.rewritten retains ⟨rowOf, ?_⟩ frame.1 (RingCore.releaseDue_cursors _ _) frame.2.1
    (mirrors.kept (frame.2.2 ▸ List.Sublist.refl _))
  rw [RingCore.releaseDue_deferred]
  exact defers.releaseRows sound dated

theorem Mirrors.cancelDeferred (mirrors : pair.Mirrors) (sender : T) (messageUuid : U) {now : Nat}
    (dated : unixEpoch ≤ now) : pair.Simulated (.cancelDeferred sender messageUuid now) := by
  obtain ⟨rowOf, defers⟩ := mirrors.defers
  rcases defers.owned mirrors.uuids sender messageUuid dated with ⟨outcome, row, id⟩ | ⟨entry, member, row, id, still⟩
  · refine .inr ⟨.deferral outcome.dated, pair.durable, .deferral outcome.dated, pair.ring, ?_, ?_, rfl, mirrors⟩
    · simp [DbChannel.answer, DbChannel.cancelDeferred, row]
    · simp [RingStore.answer, sinceEpoch_of_le dated, RingStore.cancelDeferred, id]
  · have sound := mirrors.retains.sound
    have found := pair.ring.core.deferred.get_of_mem member
    refine .inr ⟨.deferral .applied, pair.durable.deleteRow (rowOf entry.id), .deferral .applied, { pair.ring with
      core := { pair.ring.core with deferred := pair.ring.core.deferred.without entry.id } }, ?_, ?_, rfl, ?_⟩
    · simp [DbChannel.answer, DbChannel.cancelDeferred, row, still]
    · simp [RingStore.answer, sinceEpoch_of_le dated, RingStore.cancelDeferred, id, RingCore.cancelDeferred,
        DeferredSet.cancel, found, DeferralOutcome.dated]
    · obtain ⟨kept, view⟩ := sound.deleteRow still
      exact mirrors.rewritten (mirrors.retains.aside kept view rfl rfl rfl) ⟨rowOf, defers.cancel sound member⟩ rfl rfl rfl
        (mirrors.kept (List.filter_sublist.map MessageRow.uuid))

omit [DecidableEq U] [DecidableEq T] in
theorem mapM_sinceEpoch {releaseAt : Option Nat} (since : ∀ instant ∈ releaseAt, unixEpoch ≤ instant) :
    releaseAt.mapM sinceEpoch = some (releaseAt.map fun instant => instant - unixEpoch) := by
  cases releaseAt with
  | none => rfl
  | some instant =>
    rw [Option.mapM_some, sinceEpoch_of_le (since instant rfl)]
    rfl

theorem Mirrors.editDeferred (mirrors : pair.Mirrors) (sender : T) (messageUuid : U) (body : Option T)
    {releaseAt : Option Nat} {now : Nat} (dated : unixEpoch ≤ now)
    (since : (pair.durable.ownedRow sender messageUuid now).isOk → ∀ instant ∈ releaseAt, unixEpoch ≤ instant) :
    pair.Simulated (.editDeferred sender messageUuid body releaseAt now) := by
  obtain ⟨rowOf, defers⟩ := mirrors.defers
  rcases defers.owned mirrors.uuids sender messageUuid dated with ⟨outcome, row, id⟩ | ⟨entry, member, row, id, still⟩
  · refine .inr ⟨.deferral outcome.dated, pair.durable, .deferral outcome.dated, pair.ring, ?_, ?_, rfl, mirrors⟩
    · simp [DbChannel.answer, DbChannel.editDeferred, row]
    · simp [RingStore.answer, sinceEpoch_of_le dated, id]
  · have sound := mirrors.retains.sound
    have found := pair.ring.core.deferred.get_of_mem member
    have since := since (by rw [row]; rfl)
    obtain ⟨edited, done, moved⟩ := defers.edit sound member body since
    refine .inr ⟨.deferral .applied, pair.durable.rewriteRow (rowOf entry.id) body releaseAt, .deferral .applied,
      { pair.ring with core := { pair.ring.core with deferred := edited } }, ?_, ?_, rfl, ?_⟩
    · simp [DbChannel.answer, DbChannel.editDeferred, row, still]
    · rw [RingStore.answer, sinceEpoch_of_le dated, Option.bind_some, id]
      dsimp only
      rw [mapM_sinceEpoch since, Option.map_some]
      rw [← Function.comp_def releaseTimeOf, ← Option.map_map] at done
      cases body with
      | none =>
        rw [Option.map_none] at done
        simp only [RingStore.editDeferred, id, RingCore.editDeferred, done, DeferralOutcome.dated]
      | some body =>
        rw [Option.map_some] at done
        simp only [RingStore.editDeferred, id, found, RingCore.editDeferred, done, DeferralOutcome.dated]
    · obtain ⟨kept, view⟩ := sound.rewriteRow still body releaseAt
      have uuids := DbChannel.rewriteRow_uuids pair.durable (rowOf entry.id) body releaseAt
      exact mirrors.rewritten (mirrors.retains.aside kept view rfl rfl rfl) ⟨rowOf, moved⟩ rfl rfl rfl
        (mirrors.kept (uuids ▸ List.Sublist.refl _))

omit [DecidableEq U] [DecidableEq T] in
theorem Mirrors.position (mirrors : pair.Mirrors) (subscriber : S) :
    pair.durable.position subscriber = pair.ring.position subscriber := by
  rw [DbChannel.position, RingStore.position, mirrors.holds.cursors, Option.map_map]
  rfl

/-- A call on positions that both stores answer the same way. -/
theorem Mirrors.moved (mirrors : pair.Mirrors) {call : Call U T S} (none : draws call = []) (answer : Answer U T S)
    {after : DbChannel U T S} {store : RingStore U T S} (durable : pair.durable.answer call = some (answer, after))
    (ring : pair.ring.answer call = some (answer, store)) (same : Alike answer answer)
    (moved : Repositioned pair.durable after pair.ring store) : pair.Simulated call := by
  refine .inr ⟨answer, after, answer, store, durable, ring, same, ?_⟩
  rw [none]
  exact mirrors.repositioned moved

theorem Mirrors.attach (mirrors : pair.Mirrors) (subscriber : S) (appSlug : T) {pushDepth : Depth}
    (within : Within pair.depth pushDepth) : pair.Simulated (.attach subscriber appSlug pushDepth) := by
  cases pushDepth with
  | unbounded => exact within.elim
  | bounded n =>
    obtain ⟨after, done, moved⟩ := @attach_mirror _ _ _ _ _ _ _ subscriber mirrors.holds mirrors.retains appSlug _ within
    have position := (mirrors.repositioned moved).position subscriber
    refine mirrors.moved rfl (.attached (pair.ring.attach subscriber appSlug (.bounded n)).1 (after.position subscriber))
      ?_ ?_ rfl moved
    · simp [DbChannel.answer, done]
    · exact congrArg (fun position => some (Answer.attached _ position, _)) position.symm

theorem Mirrors.attachFrom (mirrors : pair.Mirrors) (subscriber : S) (appSlug : T) {pushDepth : Depth} (floor : Nat)
    (within : Within pair.depth pushDepth) : pair.Simulated (.attachFrom subscriber appSlug pushDepth floor) := by
  cases pushDepth with
  | unbounded => exact within.elim
  | bounded n =>
    rcases @attachFrom_mirror _ _ _ _ _ _ _ subscriber mirrors.holds mirrors.retains appSlug _ within floor with
      ⟨durable, ring⟩ | ⟨attached, after, store, durable, ring, moved⟩
    · exact .inl ⟨by simp [DbChannel.answer, durable], by simp [RingStore.answer, ring]⟩
    · have position := (mirrors.repositioned moved).position subscriber
      refine mirrors.moved rfl (.attached attached (after.position subscriber)) ?_ ?_ rfl moved
      · simp [DbChannel.answer, durable]
      · simp only [RingStore.answer, ring, Option.map_some]
        exact congrArg (fun position => some (Answer.attached _ position, _)) position.symm

theorem Mirrors.window (mirrors : pair.Mirrors) (subscriber : S) {pushLimit retainLimit : Depth}
    (pushWithin : Within pair.depth pushLimit) (retainWithin : Within pair.depth retainLimit) :
    pair.Simulated (.window subscriber pushLimit retainLimit) := by
  cases pushLimit with
  | unbounded => exact pushWithin.elim
  | bounded push =>
    cases retainLimit with
    | unbounded => exact retainWithin.elim
    | bounded retain =>
      obtain ⟨same, moved⟩ := window_mirror mirrors.holds mirrors.retains subscriber pushWithin retainWithin
      refine mirrors.moved rfl (.window (pair.durable.window subscriber (.bounded push) (.bounded retain)).1) rfl ?_ rfl moved
      rw [same]
      rfl

theorem Mirrors.advance (mirrors : pair.Mirrors) (subscriber : S) {through seenFloor : Nat}
    (made : seenFloor ≤ through + 1 ∨ pair.durable.cursors[subscriber]?.isSome = true) :
    pair.Simulated (.advance subscriber through seenFloor) := by
  rcases advance_mirror mirrors.holds subscriber made with
    ⟨durable, ring⟩ | ⟨left, right, after, store, durable, ring, same, moved⟩
  · exact .inl ⟨by simp [DbChannel.answer, durable], by simp [RingStore.answer, ring]⟩
  · refine mirrors.moved rfl (.advanced (left.map Advance.dropped)) ?_ ?_ rfl moved
    · simp [DbChannel.answer, durable]
    · simp [RingStore.answer, ring, same]

theorem Mirrors.evict (mirrors : pair.Mirrors) {keep : Nat} (enough : pair.depth ≤ keep) :
    pair.Simulated (.evict keep) := by
  obtain ⟨rowOf, defers⟩ := mirrors.defers
  have frame : (pair.durable.busGcEvictChannel keep).2.cursors = pair.durable.cursors ∧
      (pair.durable.busGcEvictChannel keep).2.resumeEpoch = pair.durable.resumeEpoch ∧
      (pair.durable.busGcEvictChannel keep).2.rows.Sublist pair.durable.rows := by
    simp only [DbChannel.busGcEvictChannel]
    split
    · exact ⟨rfl, rfl, List.Sublist.refl _⟩
    · exact ⟨rfl, rfl, List.filter_sublist⟩
  refine .inr ⟨_, _, _, _, rfl, rfl, rfl, ?_⟩
  exact mirrors.rewritten (mirrors.retains.evict enough)
    ⟨rowOf, defers.aside (mirrors.retains.sound.evict_parkedView keep)⟩ frame.1 rfl frame.2.1
    (mirrors.kept (frame.2.2.map MessageRow.uuid))

/-- Every regular call the stores do not part on is answered alike, and the ring mirrors the rows after it. -/
theorem Mirrors.step (mirrors : pair.Mirrors) {call : Call U T S} (admitted : pair.Admitted call)
    (level : pair.Level call) : pair.Simulated call := by
  have sound := mirrors.retains.sound
  cases call with
  | append rowId uuid message => exact mirrors.append message admitted.1 admitted.2
  | park rowId uuid message releaseAt => exact mirrors.park message level admitted.1 admitted.2
  | releaseDue now => exact mirrors.releaseDue level
  | editDeferred sender messageUuid body releaseAt now => exact mirrors.editDeferred sender messageUuid body level.1 level.2
  | cancelDeferred sender messageUuid now => exact mirrors.cancelDeferred sender messageUuid level
  | attach subscriber appSlug pushDepth => exact mirrors.attach subscriber appSlug admitted
  | attachFrom subscriber appSlug pushDepth floor => exact mirrors.attachFrom subscriber appSlug floor admitted
  | detach subscriber =>
    obtain ⟨same, moved⟩ := detach_mirror mirrors.holds subscriber
    refine mirrors.moved rfl (.detached (pair.durable.detach subscriber).1) rfl ?_ rfl moved
    rw [same]
    rfl
  | window subscriber pushLimit retainLimit => exact mirrors.window subscriber admitted.1 admitted.2
  | advance subscriber through seenFloor => exact mirrors.advance subscriber level
  | evict keep => exact mirrors.evict admitted
  | replayFrom cursor limit =>
    refine .inr ⟨_, _, _, _, rfl, rfl, ?_, mirrors⟩
    show Answer.replayed _ = Answer.replayed _
    rw [RingStore.replayFrom, mirrors.epoch, mirrors.retains.replay]
  | hasDeliverable subscriber =>
    refine .inr ⟨_, _, _, _, rfl, rfl, ?_, mirrors⟩
    show Answer.deliverable _ = Answer.deliverable _
    rw [hasDeliverable_mirror mirrors.holds mirrors.retains]
  | deliverableSubscribers =>
    obtain ⟨owed, found, alike⟩ := owed_level mirrors.holds mirrors.retains
    have ring : pair.ring.answer .deliverableSubscribers = some (.subscribers owed, pair.ring) := by
      simp [RingStore.answer, found]
    exact .inr ⟨_, _, _, _, rfl, ring, alike.mpr level, mirrors⟩
  | deferredForSender sender =>
    obtain ⟨rowOf, defers⟩ := mirrors.defers
    refine .inr ⟨_, _, _, _, rfl, rfl, ?_, mirrors⟩
    show Answer.deferred _ = Answer.deferred _
    rw [defers.forSender sound]

theorem sinceEpoch_of_not_le {instant : Nat} (early : ¬unixEpoch ≤ instant) : sinceEpoch instant = none := if_neg early

/-- Where the stores part on anything but the listing, one of them panics and the other does not. -/
theorem Mirrors.uneven (mirrors : pair.Mirrors) {call : Call U T S} (parted : ¬pair.Level call)
    (asked : call ≠ .deliverableSubscribers) :
    (pair.durable.answer call).isSome ≠ (pair.ring.answer call).isSome := by
  cases call with
  | park rowId uuid message releaseAt =>
    simp only [DbChannel.answer, RingStore.answer, sinceEpoch_of_not_le parted]
    split <;> simp
  | releaseDue now => simp [DbChannel.answer, RingStore.answer, sinceEpoch_of_not_le parted]
  | cancelDeferred sender messageUuid now => simp [DbChannel.answer, RingStore.answer, sinceEpoch_of_not_le parted]
  | editDeferred sender messageUuid body releaseAt now =>
    by_cases dated : unixEpoch ≤ now
    · -- only an owned message's new instant is read
      obtain ⟨owned, instant, given, early⟩ : (pair.durable.ownedRow sender messageUuid now).isOk ∧
          ∃ instant ∈ releaseAt, instant < unixEpoch := by
        by_contra none
        refine parted ⟨dated, fun owned instant given => Nat.le_of_not_lt fun early => ?_⟩
        exact none ⟨owned, instant, given, early⟩
      obtain rfl := Option.mem_def.mp given
      obtain ⟨rowOf, defers⟩ := mirrors.defers
      rcases defers.owned mirrors.uuids sender messageUuid dated with ⟨outcome, row, -⟩ | ⟨entry, -, -, id, -⟩
      · rw [row] at owned
        cases owned
      · simp [DbChannel.answer, RingStore.answer, sinceEpoch_of_le dated, id,
          sinceEpoch_of_not_le (Nat.not_le.mpr early)]
    · simp [DbChannel.answer, RingStore.answer, sinceEpoch_of_not_le dated]
  | advance subscriber through seenFloor =>
    obtain ⟨high, absent⟩ := not_or.mp parted
    have missing : pair.ring.core.cursors[subscriber]? = none := by
      rw [mirrors.holds.cursors, Option.map_eq_none_iff]
      simpa using absent
    simp [DbChannel.answer, DbChannel.advance, high, RingStore.answer, RingStore.advance, RingCore.advance, missing]
  | deliverableSubscribers => exact absurd rfl asked
  | append | attach | attachFrom | detach | window | replayFrom | hasDeliverable | deferredForSender | evict =>
    exact absurd trivial parted

theorem Mirrors.after (mirrors : pair.Mirrors) {call : Call U T S} {after : Pair U T S} (regular : pair.Regular call)
    (stepped : pair.step call = some after) : after.Mirrors := by
  by_cases level : pair.Level call
  · rcases mirrors.step regular.1 level with ⟨durable, -⟩ | ⟨left, durable, right, ring, rows, entries, -, moved⟩
    · simp [Pair.step, durable] at stepped
    · simp only [Pair.step, rows, entries, Option.some.injEq] at stepped
      rw [← stepped]
      exact moved
  · by_cases listing : call = .deliverableSubscribers
    · -- the listing changes neither store
      subst listing
      obtain ⟨owed, found, -⟩ := owed_level mirrors.holds mirrors.retains
      simp only [Pair.step, DbChannel.answer, RingStore.answer, found, Option.map_some, Option.some.injEq] at stepped
      rw [← stepped]
      exact mirrors
    · have uneven := mirrors.uneven level listing
      unfold Pair.step at stepped
      split at stepped
      next durable ring => simp [durable, ring] at uneven
      next => cases stepped

/-- After any sequence of regular calls that both stores answer, with eviction passes anywhere among
    them, the two answer the next one alike if and only if it is one they do not part on. -/
theorem stores_agree (channelUuid epoch : U) (address : T) {depth : Nat} (positive : 0 < depth)
    {calls : List (Call U T S)} {pair : Pair U T S}
    (regular : Along step Regular (new channelUuid epoch address depth) calls)
    (ran : run step (new channelUuid epoch address depth) calls = some pair) {call : Call U T S}
    (next : pair.Regular call) : pair.Agree call ↔ pair.Level call := by
  have preserved : ∀ (pair : Pair U T S) call after, pair.Mirrors → pair.Regular call →
      pair.step call = some after → after.Mirrors := fun _ _ _ mirrors regular stepped => mirrors.after regular stepped
  have mirrors := run_preserves preserved (mirrors_new channelUuid epoch address positive) regular ran
  constructor
  · intro agree
    by_contra parted
    by_cases listing : call = .deliverableSubscribers
    · subst listing
      obtain ⟨owed, found, alike⟩ := owed_level mirrors.holds mirrors.retains
      simp only [Agree, DbChannel.answer, RingStore.answer, found, Option.map_some] at agree
      exact parted (alike.mp agree)
    · have uneven := mirrors.uneven parted listing
      unfold Agree at agree
      split at agree
      next durable ring => simp [durable, ring] at uneven
      next durable ring => simp [durable, ring] at uneven
      next => exact agree
  · intro level
    rcases mirrors.step next.1 level with ⟨durable, ring⟩ | ⟨left, durable, right, ring, rows, entries, alike, -⟩
    · simp [Agree, durable, ring]
    · simpa [Agree, rows, entries] using alike

/-- A park, a listing, a reschedule, its release and an eviction pass. -/
def sampleCalls : List (Call Nat Nat Nat) :=
  [.attach 0 7 (.bounded 2), .append 1 10 ⟨5, 50, .high, none⟩, .park 2 11 ⟨5, 51, .low, some 9⟩ (unixEpoch + 100),
    .deliverableSubscribers, .editDeferred 5 11 (some 52) (some (unixEpoch + 120)) (unixEpoch + 90),
    .append 3 12 ⟨6, 53, .normal, none⟩, .releaseDue (unixEpoch + 130), .append 4 13 ⟨6, 54, .normal, none⟩, .evict 2]

theorem stores_agree_on_window :
    ∃ pair : Pair Nat Nat Nat, 0 < 2 ∧ Along step Regular (new 1 2 3 2) sampleCalls ∧
      run step (new 1 2 3 2) sampleCalls = some pair ∧ pair.Regular (.window 0 (.bounded 1) (.bounded 2)) ∧
      pair.Level (.window 0 (.bounded 1) (.bounded 2)) ∧ pair.Agree (.window 0 (.bounded 1) (.bounded 2)) := by
  have regular : Along step Regular (new 1 2 3 2) sampleCalls := by decide +kernel
  obtain ⟨pair, ran, next⟩ : ∃ pair, run step (new 1 2 3 2) sampleCalls = some pair ∧
      decide (pair.Regular (.window 0 (.bounded 1) (.bounded 2))) = true := (Option.any_eq_true _ _).mp (by decide +kernel)
  have next := of_decide_eq_true next
  exact ⟨pair, by decide, regular, ran, next, trivial, (stores_agree 1 2 3 (by decide) regular ran next).mpr trivial⟩

def answers (pair : Pair U T S) (call : Call U T S) : Option (Answer U T S) × Option (Answer U T S) :=
  ((pair.durable.answer call).map Prod.fst, (pair.ring.answer call).map Prod.fst)

/-- Two messages on a channel of depth one, nothing evicted yet: the durable store still folds the
    first of them in, the ring has let it go. An advance without a position panics on the durable
    side alone where its floor is beyond its window, and a park in the year 0 on the ring's alone. -/
theorem stores_part :
    Along step Regular (new 1 2 3 1 : Pair Nat Nat Nat)
      [.attach 0 7 (.bounded 1), .append 1 10 ⟨5, 50, .high, none⟩, .append 2 11 ⟨5, 51, .low, none⟩,
        .deliverableSubscribers] ∧
    (run step (new 1 2 3 1 : Pair Nat Nat Nat)
      [.attach 0 7 (.bounded 1), .append 1 10 ⟨5, 50, .high, none⟩, .append 2 11 ⟨5, 51, .low, none⟩]).map
        (fun pair => pair.answers .deliverableSubscribers) =
      some (some (.subscribers [⟨0, some 7, .high, none⟩]), some (.subscribers [⟨0, some 7, .low, none⟩])) ∧
    (new 1 2 3 1 : Pair Nat Nat Nat).answers (.advance 0 1 3) = (none, some (.advanced none)) ∧
    (new 1 2 3 1 : Pair Nat Nat Nat).answers (.park 1 10 ⟨5, 50, .low, none⟩ 0) = (some (.parked 10), none) := by
  decide +kernel

end Pair

end Brenn.Store
