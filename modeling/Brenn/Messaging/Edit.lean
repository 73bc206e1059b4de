import Brenn.Lib.Run
import Brenn.Store.Rows

/-!
Cancelling and editing parked messages, section by section under the database lock.

An edit looks the message up in one section and rewrites the row in a later one, which finds the
row by id and does not ask again whether it is parked. Whatever runs in between may
have released the row, or deleted it and handed its id to another message.
-/

namespace Brenn.Messaging
open Brenn.Lib Brenn.Queue Brenn.Store Std

universe u v w

variable {U : Type u} {T : Type v} {S : Type w} [LinearOrder U] [DecidableEq T] [LinearOrder S]

/-! ### The messages table -/

/-- The channels of a database, each with its own rows of the messages table. -/
structure Database (U : Type u) (T : Type v) (S : Type w) [LinearOrder U] [LinearOrder S] where
  channels : TreeMap U (DbChannel U T S)

structure MessageLookup (T : Type v) where
  messageId : Nat
  sender : T
  parked : Bool
  deriving Repr, DecidableEq

/-- The columns an edit asks to change; an inner `none` clears the column. -/
structure EditFields (T : Type v) where
  body : Option T
  deliverAfter : Option (Option Nat)
  deliveryDeadline : Option (Option Nat)
  urgency : Option Urgency
  deriving Repr, DecidableEq

/-- The columns an edit writes. A release time that is cleared or past is written as `later`,
    so that the next release pass takes the row. -/
def EditFields.applied (fields : EditFields T) (now later : Nat) : EditFields T :=
  let normalized := match fields.deliverAfter with
    | some (some releaseAt) => if releaseAt ≤ now then some none else some (some releaseAt)
    | other => other
  { fields with deliverAfter := if normalized = some none then some (some later) else normalized }

def EditFields.apply (fields : EditFields T) (row : MessageRow U T) : MessageRow U T :=
  { row with
    body := fields.body.getD row.body
    deliverAfter := fields.deliverAfter.getD row.deliverAfter
    deliveryDeadline := fields.deliveryDeadline.getD row.deliveryDeadline
    urgency := fields.urgency.getD row.urgency }

namespace Database

variable (db : Database U T S)

def rows : List (MessageRow U T) := db.channels.toList.flatMap fun entry => entry.2.rows

def nextRowId : Nat := (db.rows.map MessageRow.id).max?.getD 0 + 1

def mapChannels (update : DbChannel U T S → DbChannel U T S) : Database U T S :=
  { channels := db.channels.map fun _ channel => update channel }

def lookupMessageForAuthorship (uuid : U) : Option (MessageLookup T) :=
  (db.rows.find? fun row => decide (row.uuid = uuid)).map fun row =>
    ⟨row.id, row.sender, row.deliverAfter.isSome⟩

def withdrawable (messageId : Nat) (callerSender : T) (row : MessageRow U T) : Bool :=
  decide (row.id = messageId) && decide (row.sender = callerSender) && row.deliverAfter.isSome

def withdrawParkedMessage (messageId : Nat) (callerSender : T) : Bool × Database U T S :=
  (db.rows.any (withdrawable messageId callerSender),
    db.mapChannels fun channel =>
      { channel with rows := channel.rows.filter fun row => !withdrawable messageId callerSender row })

/-- Rewrite the row under an id; `none` where it is missing or another sender's. -/
def updateParkedMessage (messageId : Nat) (callerSender : T) (fields : EditFields T) : Option (Database U T S) :=
  match db.rows.find? fun row => decide (row.id = messageId) with
  | none => none
  | some stored =>
    if stored.sender ≠ callerSender then none
    else some (db.mapChannels fun channel =>
      { channel with
        rows := channel.rows.map fun row => if row.id = messageId then fields.apply row else row })

end Database

/-! ### Cancel and edit -/

inductive CancelResult where
  | ok
  | unknownMessage
  | notAuthorized
  | alreadyDelivered
  deriving Repr, DecidableEq

/-- Withdraw a parked message, in one section. `none` is the failed assertion. -/
def cancel (db : Database U T S) (sender : T) (messageUuid : U) : Option (CancelResult × Database U T S) :=
  match db.lookupMessageForAuthorship messageUuid with
  | none => some (.unknownMessage, db)
  | some lookup =>
    if lookup.sender ≠ sender then some (.notAuthorized, db)
    else if !lookup.parked then some (.alreadyDelivered, db)
    else
      let (withdrawn, after) := db.withdrawParkedMessage lookup.messageId sender
      if withdrawn then some (.ok, after) else none

inductive EditResult where
  | unknownMessage
  | notAuthorized
  | alreadyDelivered
  deriving Repr, DecidableEq

structure PendingEdit (T : Type v) where
  messageId : Nat
  sender : T
  fields : EditFields T
  deriving Repr, DecidableEq

def editLookup (db : Database U T S) (sender : T) (messageUuid : U) (fields : EditFields T) :
    Except EditResult (PendingEdit T) :=
  match db.lookupMessageForAuthorship messageUuid with
  | none => .error .unknownMessage
  | some lookup =>
    if lookup.sender ≠ sender then .error .notAuthorized
    else if !lookup.parked then .error .alreadyDelivered
    else .ok ⟨lookup.messageId, sender, fields⟩

def editUpdate (db : Database U T S) (pending : PendingEdit T) (now later : Nat) : Option (Database U T S) :=
  db.updateParkedMessage pending.messageId pending.sender (pending.fields.applied now later)

/-! ### Interleavings -/

/-- A message entering retention: the seq it was assigned and the body it had. -/
structure Entered (U : Type u) (T : Type v) where
  uuid : U
  seq : Nat
  body : T
  deriving Repr, DecidableEq

def enteredBy (entry : Retained (MessageEnvelope U T)) : Entered U T :=
  ⟨entry.message.messageId, entry.seq, entry.message.body⟩

structure World (U : Type u) (T : Type v) (S : Type w) [LinearOrder U] [LinearOrder S] where
  db : Database U T S
  edits : List (PendingEdit T)
  /-- Every uuid drawn so far; a drawn uuid is new. -/
  drawn : List U
  /-- Every assignment of a retention seq so far. -/
  entered : List (Entered U T)

inductive Section (U : Type u) (T : Type v) where
  | createChannel (channel : U) (resumeEpoch : U) (retainDepth : Depth)
  | append (channel : U) (uuid : U) (message : NewMessage T)
  | park (channel : U) (uuid : U) (message : NewMessage T) (releaseAt : Nat)
  | editDeferred (channel : U) (sender : T) (messageUuid : U) (body : Option T) (releaseAt : Option Nat) (now : Nat)
  | cancelDeferred (channel : U) (sender : T) (messageUuid : U) (now : Nat)
  | releaseDue (channel : U) (now : Nat)
  | evict (channel : U) (keep : Nat)
  | cancel (sender : T) (messageUuid : U)
  | editLookup (sender : T) (messageUuid : U) (fields : EditFields T)
  | editUpdate (edit : Nat) (now later : Nat)
  deriving Repr, DecidableEq

namespace World

def new : World U T S := ⟨⟨∅⟩, [], [], []⟩

def put (world : World U T S) (channel : U) (after : DbChannel U T S) (entering : List (Entered U T)) : World U T S :=
  { world with
    db := ⟨world.db.channels.insert channel after⟩
    entered := world.entered ++ entering }

def within (world : World U T S) (channel : U)
    (act : DbChannel U T S → Option (DbChannel U T S × List (Entered U T))) : Option (World U T S) :=
  match world.db.channels[channel]? with
  | none => none
  | some before =>
    match act before with
    | none => none
    | some (after, entering) => some (world.put channel after entering)

def draw (world : World U T S) (uuid : U) : Option (World U T S) :=
  if uuid ∈ world.drawn then none else some { world with drawn := uuid :: world.drawn }

def step (world : World U T S) : Section U T → Option (World U T S)
  | .createChannel channel resumeEpoch retainDepth =>
    if world.db.channels[channel]?.isSome then none
    else some (world.put channel (.new resumeEpoch retainDepth) [])
  | .append channel uuid message =>
    (world.draw uuid).bind fun drawn => drawn.within channel fun before =>
      let (seq, after) := before.append world.db.nextRowId uuid message
      some (after, seq.toList.map fun seq => ⟨uuid, seq, message.body⟩)
  | .park channel uuid message releaseAt =>
    (world.draw uuid).bind fun drawn => drawn.within channel fun before =>
      match before.park world.db.nextRowId uuid message releaseAt with
      | .error _ => some (before, [])
      | .ok (_, after) => some (after, [])
  | .editDeferred channel sender messageUuid body releaseAt now =>
    world.within channel fun before => some ((before.editDeferred sender messageUuid body releaseAt now).2, [])
  | .cancelDeferred channel sender messageUuid now =>
    world.within channel fun before => some ((before.cancelDeferred sender messageUuid now).2, [])
  | .releaseDue channel now =>
    world.within channel fun before =>
      let (released, after) := before.releaseDueForChannel now
      some (after, released.map enteredBy)
  | .evict channel keep => world.within channel fun before => some ((before.busGcEvictChannel keep).2, [])
  | .cancel sender messageUuid =>
    (Messaging.cancel world.db sender messageUuid).map fun (_, db) => { world with db }
  | .editLookup sender messageUuid fields =>
    match Messaging.editLookup world.db sender messageUuid fields with
    | .error _ => some world
    | .ok pending => some { world with edits := world.edits ++ [pending] }
  | .editUpdate edit now later =>
    match world.edits[edit]? with
    | none => none
    | some pending =>
      (Messaging.editUpdate world.db pending now later).map fun db =>
        { world with db, edits := world.edits.eraseIdx edit }

/-- No rewrite lands on a row that has entered retention since its lookup. -/
def StillParked (world : World U T S) : Section U T → Prop
  | .editUpdate edit _ _ => ∀ pending ∈ world.edits[edit]?, ∀ row ∈ world.db.rows,
      row.id = pending.messageId → row.deliverAfter.isSome ∧ row.retainedSeq = none
  | _ => True

instance (world : World U T S) : (act : Section U T) → Decidable (world.StillParked act)
  | .editUpdate edit _ _ => inferInstanceAs (Decidable (∀ pending ∈ world.edits[edit]?, _))
  | .createChannel _ _ _ | .append _ _ _ | .park _ _ _ _ | .editDeferred _ _ _ _ _ _ | .cancelDeferred _ _ _ _
  | .releaseDue _ _ | .evict _ _ | .cancel _ _ | .editLookup _ _ _ => inferInstanceAs (Decidable True)

end World

/-- The seqs are a run of consecutive numbers that ends at `last`, in some order. -/
def Contiguous (last : Nat) (seqs : List Nat) : Prop :=
  ∃ first, first + seqs.length = last + 1 ∧ seqs.Perm (List.range' first seqs.length)

/-- What the rows of a database owe their readers, given every assignment of a seq so far. -/
structure ParkedXorRetained (world : World U T S) : Prop where
  exclusive : ∀ row ∈ world.db.rows, row.retainedSeq.isSome = row.deliverAfter.isNone
  once : (world.entered.map Entered.uuid).Nodup
  unchanged : ∀ row ∈ world.db.rows, ∀ seq, row.retainedSeq = some seq → ⟨row.uuid, seq, row.body⟩ ∈ world.entered
  contiguous : ∀ (uuid : U) (channel : DbChannel U T S), world.db.channels[uuid]? = some channel →
    Contiguous channel.lastRetainedSeq (channel.rows.filterMap MessageRow.retainedSeq)

/-! ### One channel -/

/-- A channel whose rows agree with the uuids drawn and the seqs assigned so far. -/
structure Kept (drawn : List U) (entered : List (Entered U T)) (channel : DbChannel U T S) : Prop where
  sound : channel.Sound
  uuids : (channel.rows.map MessageRow.uuid).Nodup
  known : ∀ row ∈ channel.rows, row.uuid ∈ drawn
  unreleased : ∀ row ∈ channel.rows, row.deliverAfter.isSome → row.uuid ∉ entered.map Entered.uuid
  recorded : ∀ row ∈ channel.rows, ∀ seq, row.retainedSeq = some seq → ⟨row.uuid, seq, row.body⟩ ∈ entered

/-- What a section made of one channel: it may have drawn uuids and let messages into retention. -/
structure Moved (drawn drawnAfter : List U) (entered entering : List (Entered U T))
    (before after : DbChannel U T S) : Prop where
  kept : Kept drawnAfter (entered ++ entering) after
  grown : drawn ⊆ drawnAfter
  distinct : (entering.map Entered.uuid).Nodup
  fresh : ∀ entry ∈ entering, entry.uuid ∉ entered.map Entered.uuid ∧ entry.uuid ∈ drawnAfter
  /-- Every uuid the section worked with was this channel's own or is new. -/
  own : ∀ uuid, uuid ∈ entering.map Entered.uuid ∨ uuid ∈ after.rows.map MessageRow.uuid →
    uuid ∈ before.rows.map MessageRow.uuid ∨ uuid ∉ drawn

section Channel

variable {drawn : List U} {entered : List (Entered U T)} {channel : DbChannel U T S}

omit [LinearOrder U] [DecidableEq T] in
theorem Kept.new (resumeEpoch : U) (retainDepth : Depth) :
    Kept drawn entered (DbChannel.new resumeEpoch retainDepth : DbChannel U T S) where
  sound := DbChannel.sound_new resumeEpoch retainDepth
  uuids := .nil
  known row member := by simp [DbChannel.new] at member
  unreleased row member := by simp [DbChannel.new] at member
  recorded row member := by simp [DbChannel.new] at member

omit [LinearOrder U] [DecidableEq T] in
/-- A section that lets nothing into retention and keeps to the channel's own uuids. -/
theorem Kept.still {after : DbChannel U T S} (kept : Kept drawn entered after)
    (own : ∀ row ∈ after.rows, row.uuid ∈ channel.rows.map MessageRow.uuid) :
    Moved drawn drawn entered [] channel after where
  kept := by rwa [List.append_nil]
  grown := List.Subset.refl drawn
  distinct := .nil
  fresh entry member := by simp at member
  own uuid met := by
    rcases met with entering | inside
    · simp at entering
    · obtain ⟨row, member, rfl⟩ := List.mem_map.mp inside
      exact .inl (own row member)

omit [LinearOrder U] [DecidableEq T] in
/-- Rewriting rows in place, where every row that changes is unreleased and stays so. -/
theorem Kept.mapRows (kept : Kept drawn entered channel) {update : MessageRow U T → MessageRow U T}
    (sameId : ∀ row, (update row).id = row.id) (sameUuid : ∀ row, (update row).uuid = row.uuid)
    (changed : ∀ row ∈ channel.rows, update row = row ∨
      row.deliverAfter.isSome ∧ (update row).deliverAfter.isSome ∧ (update row).retainedSeq = none) :
    Kept drawn entered { channel with rows := channel.rows.map update } := by
  have sameRetained : ∀ row ∈ channel.rows, (update row).retained = row.retained := by
    intro row member
    rcases changed row member with same | ⟨parked, -, unretained⟩
    · rw [same]
    · have before := (kept.sound.exclusive row member).unretained parked
      simp [MessageRow.retained, before, unretained]
  have exclusive : ∀ row ∈ channel.rows, (update row).Exclusive := by
    intro row member
    rcases changed row member with same | ⟨-, parked, unretained⟩
    · rw [same]
      exact kept.sound.exclusive row member
    · obtain ⟨releaseAt, held⟩ := Option.isSome_iff_exists.mp parked
      simp [MessageRow.Exclusive, held, unretained]
  refine ⟨(kept.sound.mapRows sameId sameRetained exclusive).1, ?_, ?_, ?_, ?_⟩
  · rw [List.map_map, show MessageRow.uuid ∘ update = MessageRow.uuid from funext sameUuid]
    exact kept.uuids
  · intro row member
    obtain ⟨old, held, rfl⟩ := List.mem_map.mp member
    rw [sameUuid]
    exact kept.known old held
  · intro row member parked
    obtain ⟨old, held, rfl⟩ := List.mem_map.mp member
    rw [sameUuid]
    rcases changed old held with same | ⟨before, -, -⟩
    · exact kept.unreleased old held (same ▸ parked)
    · exact kept.unreleased old held before
  · intro row member seq retained
    obtain ⟨old, held, rfl⟩ := List.mem_map.mp member
    rcases changed old held with same | ⟨-, -, unretained⟩
    · rw [same] at retained ⊢
      exact kept.recorded old held seq retained
    · rw [unretained] at retained
      cases retained

omit [LinearOrder U] [DecidableEq T] in
theorem Kept.filterRows (kept : Kept drawn entered channel) {keep : MessageRow U T → Bool}
    (keeps : ∀ row ∈ channel.rows, row.deliverAfter = none → keep row = true) :
    Kept drawn entered { channel with rows := channel.rows.filter keep } where
  sound := (kept.sound.filterRows keeps).1
  uuids := kept.uuids.sublist (List.filter_sublist.map MessageRow.uuid)
  known row member := kept.known row (List.mem_filter.mp member).1
  unreleased row member := kept.unreleased row (List.mem_filter.mp member).1
  recorded row member := kept.recorded row (List.mem_filter.mp member).1

omit [LinearOrder U] [DecidableEq T] in
/-- A channel is unaffected by uuids and messages that are not its own. -/
theorem Kept.extend (kept : Kept drawn entered channel) {drawnAfter : List U} {entering : List (Entered U T)}
    (grown : drawn ⊆ drawnAfter)
    (foreign : ∀ uuid ∈ entering.map Entered.uuid, uuid ∉ channel.rows.map MessageRow.uuid) :
    Kept drawnAfter (entered ++ entering) channel where
  sound := kept.sound
  uuids := kept.uuids
  known row member := grown (kept.known row member)
  unreleased row member parked := by
    rw [List.map_append, List.mem_append]
    rintro (old | new)
    · exact kept.unreleased row member parked old
    · exact foreign row.uuid new (List.mem_map_of_mem member)
  recorded row member seq retained := List.mem_append_left _ (kept.recorded row member seq retained)

private def enteringOf (row : MessageRow U T) : List (Entered U T) :=
  row.retainedSeq.toList.map fun seq => ⟨row.uuid, seq, row.body⟩

omit [LinearOrder U] [DecidableEq T] in
private theorem mem_enteringOf {row : MessageRow U T} {uuid : U}
    (member : uuid ∈ (enteringOf row).map Entered.uuid) : uuid = row.uuid ∧ row.retainedSeq.isSome := by
  cases seq : row.retainedSeq with
  | none => simp [enteringOf, seq] at member
  | some seq => simp_all [enteringOf]

omit [LinearOrder U] [DecidableEq T] in
/-- A new row at the end of the table, under a uuid nobody has drawn. -/
theorem Kept.insert (kept : Kept drawn entered channel) {after : DbChannel U T S} {row : MessageRow U T}
    (new : row.uuid ∉ drawn) (rows : after.rows = channel.rows ++ [row]) (sound : after.Sound)
    (earlier : ∀ entry ∈ entered, entry.uuid ∈ drawn) :
    Moved drawn (row.uuid :: drawn) entered (enteringOf row) channel after := by
  have absent : row.uuid ∉ entered.map Entered.uuid := by
    intro member
    obtain ⟨entry, held, same⟩ := List.mem_map.mp member
    exact new (same ▸ earlier entry held)
  have foreign : row.uuid ∉ channel.rows.map MessageRow.uuid := by
    intro member
    obtain ⟨other, held, same⟩ := List.mem_map.mp member
    exact new (same ▸ kept.known other held)
  have others : Kept (row.uuid :: drawn) (entered ++ enteringOf row) channel :=
    kept.extend (List.subset_cons_self row.uuid drawn) fun uuid member => (mem_enteringOf member).1 ▸ foreign
  have exclusive := sound.exclusive row (rows ▸ List.mem_append_right _ (List.mem_singleton_self row))
  refine ⟨⟨sound, ?_, ?_, ?_, ?_⟩, List.subset_cons_self row.uuid drawn, ?_, ?_, ?_⟩
  · rw [rows, List.map_append, List.map_singleton, List.nodup_append]
    refine ⟨kept.uuids, List.nodup_singleton _, ?_⟩
    intro uuid member last inside same
    rw [List.mem_singleton.mp inside] at same
    exact foreign (same ▸ member)
  · intro other member
    rcases List.mem_append.mp (rows ▸ member) with old | last
    · exact others.known other old
    · rw [List.mem_singleton.mp last]
      exact List.mem_cons_self
  · intro other member parked
    rcases List.mem_append.mp (rows ▸ member) with old | last
    · exact others.unreleased other old parked
    · obtain rfl := List.mem_singleton.mp last
      rw [List.map_append, List.mem_append]
      rintro (old | entering)
      · exact absent old
      · have retained := (mem_enteringOf entering).2
        simp [exclusive.unretained parked] at retained
  · intro other member seq retained
    rcases List.mem_append.mp (rows ▸ member) with old | last
    · exact others.recorded other old seq retained
    · obtain rfl := List.mem_singleton.mp last
      refine List.mem_append_right _ ?_
      simp [enteringOf, retained]
  · cases seq : row.retainedSeq <;> simp [enteringOf, seq]
  · intro entry member
    have same := (mem_enteringOf (List.mem_map_of_mem member)).1
    rw [same]
    exact ⟨absent, List.mem_cons_self⟩
  · rintro uuid (entering | inside)
    · exact .inr ((mem_enteringOf entering).1 ▸ new)
    · rw [rows, List.map_append, List.mem_append] at inside
      rcases inside with old | last
      · exact .inl old
      · rw [List.map_singleton, List.mem_singleton] at last
        exact .inr (last ▸ new)

omit [LinearOrder U] [DecidableEq T] in
/-- Release gives an unreleased row its first seq. -/
theorem Kept.releaseRow (kept : Kept drawn entered channel) {row : MessageRow U T} (member : row ∈ channel.rows)
    (parked : row.deliverAfter.isSome) :
    Kept drawn (entered ++ [⟨row.uuid, channel.lastRetainedSeq + 1, row.body⟩]) (channel.releaseRow row.id) := by
  -- every row afterwards is the released one or another row as it was
  have cases : ∀ after ∈ (channel.releaseRow row.id).rows,
      after = row.released (channel.lastRetainedSeq + 1) ∨ after ∈ channel.rows ∧ after.uuid ≠ row.uuid := by
    intro after inside
    obtain ⟨old, held, rfl⟩ := List.mem_map.mp inside
    by_cases here : old.id = row.id
    · rw [if_pos here, List.inj_on_of_nodup_map kept.sound.ids held member here]
      exact .inl rfl
    · rw [if_neg here]
      refine .inr ⟨held, fun same => here ?_⟩
      rw [List.inj_on_of_nodup_map kept.uuids held member same]
  refine ⟨(kept.sound.releaseRow member parked).1, ?_, ?_, ?_, ?_⟩
  · have uuids : (channel.releaseRow row.id).rows.map MessageRow.uuid = channel.rows.map MessageRow.uuid := by
      simp only [DbChannel.releaseRow, List.map_map]
      refine List.map_congr_left fun other _ => ?_
      simp only [Function.comp_apply]
      split <;> rfl
    rw [uuids]
    exact kept.uuids
  · intro after inside
    rcases cases after inside with rfl | ⟨held, -⟩
    · exact kept.known row member
    · exact kept.known after held
  · intro after inside waiting
    rcases cases after inside with rfl | ⟨held, different⟩
    · simp [MessageRow.released] at waiting
    · simp only [List.map_append, List.map_singleton, List.mem_append, List.mem_singleton, not_or]
      exact ⟨kept.unreleased after held waiting, different⟩
  · intro after inside seq retained
    rcases cases after inside with rfl | ⟨held, -⟩
    · obtain rfl := Option.some.inj retained
      exact List.mem_append_right _ List.mem_cons_self
    · exact List.mem_append_left _ (kept.recorded after held seq retained)

omit [LinearOrder U] [DecidableEq T] in
theorem Moved.trans {between after : DbChannel U T S} {drawnNext drawnAfter : List U}
    {entering later : List (Entered U T)} (first : Moved drawn drawnNext entered entering channel between)
    (second : Moved drawnNext drawnAfter (entered ++ entering) later between after) :
    Moved drawn drawnAfter entered (entering ++ later) channel after where
  kept := by
    rw [← List.append_assoc]
    exact second.kept
  grown := List.Subset.trans first.grown second.grown
  distinct := by
    rw [List.map_append]
    refine List.nodup_append.mpr ⟨first.distinct, second.distinct, ?_⟩
    intro uuid early other late same
    obtain ⟨entry, member, rfl⟩ := List.mem_map.mp late
    refine (second.fresh entry member).1 ?_
    rw [List.map_append, ← same]
    exact List.mem_append_right _ early
  fresh entry member := by
    rcases List.mem_append.mp member with early | late
    · obtain ⟨absent, known⟩ := first.fresh entry early
      exact ⟨absent, second.grown known⟩
    · obtain ⟨absent, known⟩ := second.fresh entry late
      rw [List.map_append, List.mem_append, not_or] at absent
      exact ⟨absent.1, known⟩
  own uuid met := by
    have step : uuid ∈ later.map Entered.uuid ∨ uuid ∈ after.rows.map MessageRow.uuid →
        uuid ∈ channel.rows.map MessageRow.uuid ∨ uuid ∉ drawn := by
      intro late
      rcases second.own uuid late with held | new
      · exact first.own uuid (.inr held)
      · exact .inr fun old => new (first.grown old)
    rcases met with entered | inside
    · rw [List.map_append, List.mem_append] at entered
      rcases entered with early | late
      · exact first.own uuid (.inl early)
      · exact step (.inl late)
    · exact step (.inr inside)

omit [LinearOrder U] [DecidableEq T] in
theorem Kept.moved_releaseRow (kept : Kept drawn entered channel) {row : MessageRow U T} (member : row ∈ channel.rows)
    (parked : row.deliverAfter.isSome) :
    Moved drawn drawn entered [⟨row.uuid, channel.lastRetainedSeq + 1, row.body⟩] channel
      (channel.releaseRow row.id) where
  kept := kept.releaseRow member parked
  grown := List.Subset.refl drawn
  distinct := List.nodup_singleton _
  fresh entry inside := by
    rw [List.mem_singleton.mp inside]
    exact ⟨kept.unreleased row member parked, kept.known row member⟩
  own uuid met := by
    left
    rcases met with entering | inside
    · rw [List.map_singleton, List.mem_singleton] at entering
      exact entering ▸ List.mem_map_of_mem member
    · obtain ⟨after, held, rfl⟩ := List.mem_map.mp inside
      obtain ⟨old, before, rfl⟩ := List.mem_map.mp held
      refine List.mem_map.mpr ⟨old, before, ?_⟩
      split <;> rfl

omit [LinearOrder U] [DecidableEq T] in
theorem Kept.releaseRows (kept : Kept drawn entered channel) {due : List (Deferred (MessageRow U T) T)}
    (waiting : channel.Waiting due) :
    Moved drawn drawn entered ((DbChannel.releaseRows due channel).1.map enteredBy) channel
      (DbChannel.releaseRows due channel).2 := by
  induction due generalizing channel entered with
  | nil => exact kept.still fun row member => List.mem_map_of_mem member
  | cons entry due ih =>
    obtain ⟨member, -⟩ := waiting.held entry List.mem_cons_self
    obtain ⟨held, id⟩ := waiting.parked List.mem_cons_self
    have parked : entry.message.deliverAfter.isSome := by rw [held]; rfl
    have first := kept.moved_releaseRow member parked
    rw [id] at first
    exact first.trans (ih first.kept waiting.releaseRow)

theorem Kept.editDeferred (kept : Kept drawn entered channel) (sender : T) (messageUuid : U) (body : Option T)
    (releaseAt : Option Nat) (now : Nat) :
    Moved drawn drawn entered [] channel (channel.editDeferred sender messageUuid body releaseAt now).2 := by
  have idle : Moved drawn drawn entered [] channel channel := kept.still fun row member => List.mem_map_of_mem member
  unfold DbChannel.editDeferred
  split
  · exact idle
  split
  next id _ still =>
    refine Kept.still (kept.mapRows ?_ ?_ ?_) ?_
    · intro row
      split <;> rfl
    · intro row
      split <;> rfl
    · intro row member
      by_cases here : row.id = id
      · have parked := kept.sound.parked_of_stillParked still member here
        refine .inr ⟨parked, ?_, ?_⟩
        · rw [if_pos here]
          cases releaseAt with
          | none => exact parked
          | some releaseAt => rfl
        · rw [if_pos here]
          exact (kept.sound.exclusive row member).unretained parked
      · exact .inl (if_neg here)
    · intro row member
      obtain ⟨old, held, rfl⟩ := List.mem_map.mp member
      refine List.mem_map.mpr ⟨old, held, ?_⟩
      split <;> rfl
  · exact idle

theorem Kept.cancelDeferred (kept : Kept drawn entered channel) (sender : T) (messageUuid : U) (now : Nat) :
    Moved drawn drawn entered [] channel (channel.cancelDeferred sender messageUuid now).2 := by
  have idle : Moved drawn drawn entered [] channel channel := kept.still fun row member => List.mem_map_of_mem member
  unfold DbChannel.cancelDeferred
  split
  · exact idle
  split
  next id _ still =>
    refine Kept.still (kept.filterRows ?_) ?_
    · intro row member released
      by_contra gone
      have here : row.id = id := by simpa using gone
      simpa [released] using kept.sound.parked_of_stillParked still member here
    · intro row member
      exact List.mem_map_of_mem (List.mem_filter.mp member).1
  · exact idle

omit [LinearOrder U] [DecidableEq T] in
theorem Kept.evict (kept : Kept drawn entered channel) (keep : Nat) :
    Moved drawn drawn entered [] channel (channel.busGcEvictChannel keep).2 := by
  have fewer : (channel.busGcEvictChannel keep).2.rows.Sublist channel.rows := by
    simp only [DbChannel.busGcEvictChannel]
    split
    · exact List.Sublist.refl _
    · exact List.filter_sublist
  refine Kept.still ⟨(kept.sound.evict keep).1, ?_, ?_, ?_, ?_⟩ ?_
  · exact kept.uuids.sublist (fewer.map MessageRow.uuid)
  · intro row member
    exact kept.known row (fewer.subset member)
  · intro row member
    exact kept.unreleased row (fewer.subset member)
  · intro row member
    exact kept.recorded row (fewer.subset member)
  · intro row member
    exact List.mem_map_of_mem (fewer.subset member)

end Channel

/-! ### The whole database -/

section Database

variable {db : Database U T S}

omit [DecidableEq T] in
theorem Database.mem_rows {row : MessageRow U T} : row ∈ db.rows ↔
    ∃ (uuid : U) (channel : DbChannel U T S), db.channels[uuid]? = some channel ∧ row ∈ channel.rows := by
  simp only [Database.rows, List.mem_flatMap, Prod.exists, TreeMap.mem_toList_iff_getElem?_eq_some]

omit [DecidableEq T] in
theorem Database.id_lt_nextRowId {uuid : U} {channel : DbChannel U T S} (held : db.channels[uuid]? = some channel) :
    ∀ row ∈ channel.rows, row.id < db.nextRowId := by
  intro row member
  have listed : row.id ∈ db.rows.map MessageRow.id :=
    List.mem_map_of_mem (Database.mem_rows.mpr ⟨uuid, channel, held, member⟩)
  exact Nat.lt_succ_of_le (List.le_max?_getD_of_mem listed)

omit [DecidableEq T] in
theorem Database.lookup_mapChannels (update : DbChannel U T S → DbChannel U T S) (uuid : U) :
    (db.mapChannels update).channels[uuid]? = db.channels[uuid]?.map update := by
  simp only [Database.mapChannels, TreeMap.getElem?_map]

end Database

/-- What carries `ParkedXorRetained` along: every channel is kept, and no uuid is in two of them. -/
structure Consistent (world : World U T S) : Prop where
  each : ∀ (uuid : U) (channel : DbChannel U T S), world.db.channels[uuid]? = some channel →
    Kept world.drawn world.entered channel
  apart : ∀ (left right : U) (first second : DbChannel U T S), world.db.channels[left]? = some first →
    world.db.channels[right]? = some second → ∀ uuid ∈ first.rows.map MessageRow.uuid,
      uuid ∈ second.rows.map MessageRow.uuid → left = right
  once : (world.entered.map Entered.uuid).Nodup
  earlier : ∀ entry ∈ world.entered, entry.uuid ∈ world.drawn

namespace Consistent

variable {world : World U T S}

omit [DecidableEq T] in
theorem start : Consistent (World.new : World U T S) where
  each uuid channel held := by simp [World.new] at held
  apart left right first second held := by simp [World.new] at held
  once := .nil
  earlier entry member := by simp [World.new] at member

omit [DecidableEq T] in
theorem put (consistent : Consistent world) {uuid : U} {before after : DbChannel U T S}
    (held : world.db.channels[uuid]? = some before) {drawnAfter : List U} {entering : List (Entered U T)}
    (moved : Moved world.drawn drawnAfter world.entered entering before after) :
    Consistent (World.put { world with drawn := drawnAfter } uuid after entering) := by
  -- a uuid the section worked with is in no other channel
  have foreign (other : U) (channel : DbChannel U T S) (different : uuid ≠ other)
      (lookup : world.db.channels[other]? = some channel) (message : U)
      (met : message ∈ entering.map Entered.uuid ∨ message ∈ after.rows.map MessageRow.uuid) :
      message ∉ channel.rows.map MessageRow.uuid := by
    intro inside
    rcases moved.own message met with own | new
    · exact different (consistent.apart uuid other before channel held lookup message own inside)
    · obtain ⟨row, member, rfl⟩ := List.mem_map.mp inside
      exact new ((consistent.each other channel lookup).known row member)
  refine ⟨?_, ?_, ?_, ?_⟩
  · intro other channel lookup
    simp only [World.put, lookup_insert] at lookup
    split at lookup
    next here =>
      obtain rfl := Option.some.inj lookup
      exact moved.kept
    next different =>
      refine (consistent.each other channel lookup).extend moved.grown fun message member => ?_
      exact foreign other channel different lookup message (.inl member)
  · intro left right first second leftHeld rightHeld message inFirst inSecond
    simp only [World.put, lookup_insert] at leftHeld rightHeld
    split at leftHeld <;> split at rightHeld
    next here there => exact here ▸ there
    next here different =>
      obtain rfl := Option.some.inj leftHeld
      exact absurd inSecond (foreign right second different rightHeld message (.inr inFirst))
    next different here =>
      obtain rfl := Option.some.inj rightHeld
      exact absurd inFirst (foreign left first different leftHeld message (.inr inSecond))
    next => exact consistent.apart left right first second leftHeld rightHeld message inFirst inSecond
  · simp only [World.put, List.map_append]
    refine List.nodup_append.mpr ⟨consistent.once, moved.distinct, ?_⟩
    intro old member new inside same
    obtain ⟨entry, entered, rfl⟩ := List.mem_map.mp inside
    exact (moved.fresh entry entered).1 (same ▸ member)
  · intro entry member
    rcases List.mem_append.mp member with old | new
    · exact moved.grown (consistent.earlier entry old)
    · exact (moved.fresh entry new).2

omit [DecidableEq T] in
theorem mapChannels (consistent : Consistent world) {update : DbChannel U T S → DbChannel U T S}
    (kept : ∀ (uuid : U) (channel : DbChannel U T S), world.db.channels[uuid]? = some channel →
      Kept world.drawn world.entered channel → Kept world.drawn world.entered (update channel))
    (own : ∀ channel : DbChannel U T S, ∀ uuid ∈ (update channel).rows.map MessageRow.uuid,
      uuid ∈ channel.rows.map MessageRow.uuid) (edits : List (PendingEdit T)) :
    Consistent { world with db := world.db.mapChannels update, edits := edits } := by
  refine ⟨?_, ?_, consistent.once, consistent.earlier⟩
  · intro uuid channel lookup
    rw [Database.lookup_mapChannels] at lookup
    obtain ⟨before, held, rfl⟩ := Option.map_eq_some_iff.mp lookup
    exact kept uuid before held (consistent.each uuid before held)
  · intro left right first second leftHeld rightHeld message inFirst inSecond
    rw [Database.lookup_mapChannels] at leftHeld rightHeld
    obtain ⟨firstBefore, firstHeld, rfl⟩ := Option.map_eq_some_iff.mp leftHeld
    obtain ⟨secondBefore, secondHeld, rfl⟩ := Option.map_eq_some_iff.mp rightHeld
    exact consistent.apart left right firstBefore secondBefore firstHeld secondHeld message
      (own firstBefore message inFirst) (own secondBefore message inSecond)

omit [DecidableEq T] in
theorem createChannel (consistent : Consistent world) (uuid resumeEpoch : U) (retainDepth : Depth) :
    Consistent (world.put uuid (.new resumeEpoch retainDepth) []) := by
  refine ⟨?_, ?_, ?_, ?_⟩
  · intro other channel lookup
    simp only [World.put, lookup_insert, List.append_nil] at lookup ⊢
    split at lookup
    · obtain rfl := Option.some.inj lookup
      exact Kept.new resumeEpoch retainDepth
    · exact consistent.each other channel lookup
  · intro left right first second leftHeld rightHeld message inFirst inSecond
    simp only [World.put, lookup_insert] at leftHeld rightHeld
    split at leftHeld
    · obtain rfl := Option.some.inj leftHeld
      simp [DbChannel.new] at inFirst
    split at rightHeld
    · obtain rfl := Option.some.inj rightHeld
      simp [DbChannel.new] at inSecond
    exact consistent.apart left right first second leftHeld rightHeld message inFirst inSecond
  · simpa [World.put] using consistent.once
  · simpa [World.put] using consistent.earlier

omit [DecidableEq T] in
/-- A section that ran found its channel and left it as `act` says. -/
theorem within_eq_some {after : World U T S} {uuid : U}
    {act : DbChannel U T S → Option (DbChannel U T S × List (Entered U T))}
    (ran : world.within uuid act = some after) :
    ∃ before channel entering, world.db.channels[uuid]? = some before ∧ act before = some (channel, entering) ∧
      after = world.put uuid channel entering := by
  simp only [World.within] at ran
  split at ran
  · cases ran
  next before held =>
    split at ran
    · cases ran
    next channel entering acted =>
      exact ⟨before, channel, entering, held, acted, (Option.some.inj ran).symm⟩

omit [DecidableEq T] in
theorem draw_eq_some {uuid : U} {after : World U T S} (drew : world.draw uuid = some after) :
    uuid ∉ world.drawn ∧ after = { world with drawn := uuid :: world.drawn } := by
  unfold World.draw at drew
  split at drew
  · cases drew
  next new => exact ⟨new, (Option.some.inj drew).symm⟩

omit [DecidableEq T] in
theorem within (consistent : Consistent world) {uuid : U} {after : World U T S}
    {act : DbChannel U T S → DbChannel U T S × List (Entered U T)}
    (moves : ∀ channel : DbChannel U T S, Kept world.drawn world.entered channel →
      Moved world.drawn world.drawn world.entered (act channel).2 channel (act channel).1)
    (ran : world.within uuid (fun channel => some (act channel)) = some after) : Consistent after := by
  obtain ⟨before, channel, entering, held, acted, rfl⟩ := within_eq_some ran
  have moved := moves before (consistent.each uuid before held)
  rw [Option.some.inj acted] at moved
  exact consistent.put held moved

omit [DecidableEq T] in
theorem drew (consistent : Consistent world) (uuid : U) :
    Consistent { world with drawn := uuid :: world.drawn } where
  each other channel held := by
    have kept := (consistent.each other channel held).extend (List.subset_cons_self uuid world.drawn)
      (show ∀ message ∈ ([] : List (Entered U T)).map Entered.uuid, message ∉ channel.rows.map MessageRow.uuid by simp)
    rwa [List.append_nil] at kept
  apart := consistent.apart
  once := consistent.once
  earlier entry member := List.mem_cons_of_mem uuid (consistent.earlier entry member)

theorem append (consistent : Consistent world) {channel uuid : U} {message : NewMessage T} {after : World U T S}
    (stepped : world.step (.append channel uuid message) = some after) : Consistent after := by
  simp only [World.step, Option.bind_eq_some_iff] at stepped
  obtain ⟨drawn, drew, ran⟩ := stepped
  obtain ⟨new, rfl⟩ := draw_eq_some drew
  obtain ⟨before, left, entering, held, acted, rfl⟩ := within_eq_some ran
  obtain ⟨rfl, rfl⟩ := Prod.mk.injEq .. ▸ Option.some.inj acted
  have kept := consistent.each channel before held
  have sound := (kept.sound.append (Database.id_lt_nextRowId held) uuid message).1
  exact consistent.put held (kept.insert new rfl sound consistent.earlier)

theorem park (consistent : Consistent world) {channel uuid : U} {message : NewMessage T} {releaseAt : Nat}
    {after : World U T S} (stepped : world.step (.park channel uuid message releaseAt) = some after) :
    Consistent after := by
  simp only [World.step, Option.bind_eq_some_iff] at stepped
  obtain ⟨drawn, drew, ran⟩ := stepped
  obtain ⟨new, rfl⟩ := draw_eq_some drew
  obtain ⟨before, left, entering, held, acted, rfl⟩ := within_eq_some ran
  have kept := consistent.each channel before held
  split at acted
  · -- refused at the cap: only the uuid is gone
    obtain ⟨rfl, rfl⟩ := Prod.mk.injEq .. ▸ Option.some.inj acted
    have kept := (consistent.drew uuid).each channel before held
    exact (consistent.drew uuid).put held (kept.still fun row member => List.mem_map_of_mem member)
  next admitted =>
    obtain ⟨rfl, rfl⟩ := Prod.mk.injEq .. ▸ Option.some.inj acted
    unfold DbChannel.park at admitted
    split at admitted
    · cases admitted
    · obtain ⟨-, rfl⟩ := Prod.mk.injEq .. ▸ Except.ok.inj admitted
      have sound := (kept.sound.insertParked (Database.id_lt_nextRowId held) uuid message releaseAt).1
      exact consistent.put held (kept.insert new rfl sound consistent.earlier)

theorem cancel (consistent : Consistent world) {sender : T} {messageUuid : U} {answer : CancelResult}
    {db : Database U T S} (cancelled : Messaging.cancel world.db sender messageUuid = some (answer, db)) :
    Consistent { world with db := db } := by
  unfold Messaging.cancel at cancelled
  split at cancelled
  · obtain ⟨-, rfl⟩ := Prod.mk.injEq .. ▸ Option.some.inj cancelled
    exact consistent
  split at cancelled
  · obtain ⟨-, rfl⟩ := Prod.mk.injEq .. ▸ Option.some.inj cancelled
    exact consistent
  split at cancelled
  · obtain ⟨-, rfl⟩ := Prod.mk.injEq .. ▸ Option.some.inj cancelled
    exact consistent
  obtain ⟨-, done⟩ := Option.ite_none_right_eq_some.mp cancelled
  obtain ⟨-, rfl⟩ := Prod.mk.injEq .. ▸ Option.some.inj done
  refine consistent.mapChannels ?_ ?_ world.edits
  · intro uuid channel held kept
    refine kept.filterRows fun row member released => ?_
    simp [Database.withdrawable, released]
  · intro channel uuid inside
    obtain ⟨row, member, rfl⟩ := List.mem_map.mp inside
    exact List.mem_map_of_mem (List.mem_filter.mp member).1

omit [LinearOrder U] [DecidableEq T] in
theorem applied_parked (fields : EditFields T) (now later : Nat) {row : MessageRow U T}
    (parked : row.deliverAfter.isSome) : ((fields.applied now later).apply row).deliverAfter.isSome := by
  rcases asked : fields.deliverAfter with _ | _ | releaseAt
  · simpa [EditFields.apply, EditFields.applied, asked] using parked
  · simp [EditFields.apply, EditFields.applied, asked]
  · by_cases past : releaseAt ≤ now <;> simp [EditFields.apply, EditFields.applied, asked, past]

theorem editUpdate (consistent : Consistent world) {pending : PendingEdit T} {now later : Nat}
    {db : Database U T S} (updated : Messaging.editUpdate world.db pending now later = some db)
    (still : ∀ row ∈ world.db.rows, row.id = pending.messageId → row.deliverAfter.isSome ∧ row.retainedSeq = none)
    (edits : List (PendingEdit T)) : Consistent { world with db := db, edits := edits } := by
  unfold Messaging.editUpdate Database.updateParkedMessage at updated
  split at updated
  · cases updated
  split at updated
  · cases updated
  obtain rfl := Option.some.inj updated
  refine consistent.mapChannels ?_ ?_ edits
  · intro uuid channel held kept
    refine kept.mapRows ?_ ?_ ?_
    · intro row
      split <;> rfl
    · intro row
      split <;> rfl
    · intro row member
      by_cases here : row.id = pending.messageId
      · obtain ⟨parked, unretained⟩ := still row (Database.mem_rows.mpr ⟨uuid, channel, held, member⟩) here
        rw [if_pos here]
        exact .inr ⟨parked, applied_parked pending.fields now later parked, unretained⟩
      · exact .inl (if_neg here)
  · intro channel uuid inside
    obtain ⟨row, member, rfl⟩ := List.mem_map.mp inside
    obtain ⟨old, held, rfl⟩ := List.mem_map.mp member
    refine List.mem_map.mpr ⟨old, held, ?_⟩
    split <;> rfl

theorem step (consistent : Consistent world) {act : Section U T} {after : World U T S}
    (still : world.StillParked act) (stepped : world.step act = some after) : Consistent after := by
  cases act with
  | createChannel channel resumeEpoch retainDepth =>
    simp only [World.step] at stepped
    split at stepped
    · cases stepped
    · obtain rfl := Option.some.inj stepped
      exact consistent.createChannel channel resumeEpoch retainDepth
  | append channel uuid message => exact consistent.append stepped
  | park channel uuid message releaseAt => exact consistent.park stepped
  | editDeferred channel sender messageUuid body releaseAt now =>
    simp only [World.step] at stepped
    refine consistent.within ?_ stepped
    intro before kept
    exact kept.editDeferred sender messageUuid body releaseAt now
  | cancelDeferred channel sender messageUuid now =>
    simp only [World.step] at stepped
    refine consistent.within ?_ stepped
    intro before kept
    exact kept.cancelDeferred sender messageUuid now
  | releaseDue channel now =>
    simp only [World.step] at stepped
    refine consistent.within ?_ stepped
    intro before kept
    exact kept.releaseRows (DbChannel.waiting_deferredRows kept.sound.ids _)
  | evict channel keep =>
    simp only [World.step] at stepped
    refine consistent.within ?_ stepped
    intro before kept
    exact kept.evict keep
  | cancel sender messageUuid =>
    obtain ⟨⟨answer, db⟩, cancelled, rfl⟩ := Option.map_eq_some_iff.mp stepped
    exact consistent.cancel cancelled
  | editLookup sender messageUuid fields =>
    simp only [World.step] at stepped
    split at stepped
    · obtain rfl := Option.some.inj stepped
      exact consistent
    · obtain rfl := Option.some.inj stepped
      exact ⟨consistent.each, consistent.apart, consistent.once, consistent.earlier⟩
  | editUpdate edit now later =>
    simp only [World.step] at stepped
    split at stepped
    · cases stepped
    next pending waiting =>
      obtain ⟨db, updated, rfl⟩ := Option.map_eq_some_iff.mp stepped
      exact consistent.editUpdate updated (still pending waiting) _

omit [DecidableEq T] in
theorem parkedXorRetained (consistent : Consistent world) : ParkedXorRetained world where
  exclusive row member := by
    obtain ⟨uuid, channel, held, inside⟩ := Database.mem_rows.mp member
    exact (consistent.each uuid channel held).sound.exclusive row inside
  once := consistent.once
  unchanged row member seq retained := by
    obtain ⟨uuid, channel, held, inside⟩ := Database.mem_rows.mp member
    exact (consistent.each uuid channel held).recorded row inside seq retained
  contiguous uuid channel held := by
    have sound := (consistent.each uuid channel held).sound
    have counted := sound.counted
    have seqs : channel.rows.filterMap MessageRow.retainedSeq =
        (channel.rows.filterMap MessageRow.retained).map Retained.seq := by
      rw [List.map_filterMap]
      refine List.filterMap_congr fun row _ => ?_
      cases seq : row.retainedSeq <;> simp [MessageRow.retained, seq]
    have same : (channel.rows.filterMap MessageRow.retainedSeq).Perm (channel.retainedView.map Retained.seq) := by
      rw [seqs]
      exact (channel.retainedView_perm.map Retained.seq).symm
    have length : (channel.rows.filterMap MessageRow.retainedSeq).length = channel.retainedView.length := by
      rw [same.length_eq, List.length_map]
    refine ⟨channel.lastRetainedSeq + 1 - channel.retainedView.length, ?_, ?_⟩
    · omega
    · rw [length]
      exact same.trans (.of_eq sound.dense)

end Consistent

/-- Parked and retained rows under every interleaving of lock sections in which no edit rewrites a
    row that a release took since the edit looked it up: each row is parked or retained and not
    both, no message is given a second seq, a retained body is the one that entered, and retention
    is a run of seqs up to the high-water. -/
theorem parked_xor_retained (acts : List (Section U T)) (world : World U T S)
    (along : Along World.step World.StillParked (World.new : World U T S) acts)
    (ran : run World.step World.new acts = some world) : ParkedXorRetained world := by
  have preserved (state : World U T S) (act : Section U T) (next : World U T S) (consistent : Consistent state)
      (still : state.StillParked act) (stepped : state.step act = some next) : Consistent next :=
    consistent.step still stepped
  have consistent := run_preserves preserved Consistent.start along ran
  exact consistent.parkedXorRetained

private def note : NewMessage Nat := ⟨1, 2, .normal, none⟩

/-- An edit reschedules a parked message between two releases. -/
theorem parked_xor_retained_after_reschedule :
    ∃ world : World Nat Nat Nat,
      Along World.step World.StillParked (World.new : World Nat Nat Nat)
        [.createChannel 7 9 (.bounded 4), .park 7 100 note 50, .append 7 101 note,
          .editLookup 1 100 ⟨some 3, some (some 90), none, none⟩, .releaseDue 7 40, .editUpdate 0 40 40,
          .releaseDue 7 95, .evict 7 1] ∧
      run World.step World.new
        [.createChannel 7 9 (.bounded 4), .park 7 100 note 50, .append 7 101 note,
          .editLookup 1 100 ⟨some 3, some (some 90), none, none⟩, .releaseDue 7 40, .editUpdate 0 40 40,
          .releaseDue 7 95, .evict 7 1] = some world ∧
      world.entered = [⟨101, 1, 2⟩, ⟨100, 2, 3⟩] ∧ ParkedXorRetained world := by
  have along : Along World.step World.StillParked (World.new : World Nat Nat Nat)
      [.createChannel 7 9 (.bounded 4), .park 7 100 note 50, .append 7 101 note,
        .editLookup 1 100 ⟨some 3, some (some 90), none, none⟩, .releaseDue 7 40, .editUpdate 0 40 40,
        .releaseDue 7 95, .evict 7 1] := by decide +kernel
  exact ⟨_, along, rfl, rfl, parked_xor_retained _ _ along rfl⟩

/-- A release pass between the two sections of an edit: the edit rewrites the body of a retained
    row and parks it again, and the next release pass gives the message a second seq. -/
theorem edit_rewrites_retained_row :
    ∃ edited again : World Nat Nat Nat,
      run World.step World.new
        [.createChannel 7 9 (.bounded 4), .park 7 100 note 50,
          .editLookup 1 100 ⟨some 3, some (some 90), none, none⟩, .releaseDue 7 60, .editUpdate 0 60 60] =
        some edited ∧
      edited.db.rows = [⟨1, 100, 1, 3, .normal, none, some 90, some 1⟩] ∧ edited.entered = [⟨100, 1, 2⟩] ∧
      ¬ ParkedXorRetained edited ∧
      run World.step edited [.releaseDue 7 95] = some again ∧ again.entered = [⟨100, 1, 2⟩, ⟨100, 2, 3⟩] ∧
      ¬ ParkedXorRetained again := by
  refine ⟨_, _, rfl, rfl, rfl, ?_, rfl, rfl, ?_⟩
  · intro holds
    exact absurd (holds.exclusive ⟨1, 100, 1, 3, .normal, none, some 90, some 1⟩ (by decide +kernel)) (by decide)
  · intro holds
    exact absurd holds.once (by decide +kernel)

end Brenn.Messaging
