import Brenn.Store.Reads
import Brenn.Store.RingStore

/-!
What a ring parks beside a durable channel: the same messages in the same order,
under ids of its own.

Both id counters only climb, so a map from the ring's ids to row ids that preserves their
order carries one list onto the other. Rows are dated from the year 0 on, as their
texts are; the ring dates from 1970 on.
-/

namespace Brenn.Store
open Brenn.Lib Brenn.Queue Std

universe u v w

variable {U : Type u} {T : Type v} {S : Type w} [LinearOrder S]

/-- Seconds from the year 0 to 1970. -/
@[irreducible]
def unixEpoch : Nat := 62167219200

/-- An answer of the ring dated from the year 0 on. -/
def DeferralOutcome.dated : DeferralOutcome → DeferralOutcome
  | .notDeferred (some deliverAfter) => .notDeferred (some (deliverAfter + unixEpoch))
  | outcome => outcome

def asDeferred (entry : Deferred (MessageRow U T) T) : Deferred (MessageEnvelope U T) T :=
  ⟨entry.id, entry.sender, releaseTimeOf (entry.releaseAt - unixEpoch), entry.message.envelope⟩

def renamed (rowOf : Nat → Nat) (entry : Deferred (MessageEnvelope U T) T) : Deferred (MessageEnvelope U T) T :=
  { entry with id := rowOf entry.id }

theorem releaseTimeOf_le_since {a b : Nat} (first : unixEpoch ≤ a) (second : unixEpoch ≤ b) :
    releaseTimeOf (a - unixEpoch) ≤ releaseTimeOf (b - unixEpoch) ↔ a ≤ b := by
  rw [releaseTimeOf_le]
  omega

theorem asDeferred_before {left right : Deferred (MessageRow U T) T} (first : unixEpoch ≤ left.releaseAt)
    (second : unixEpoch ≤ right.releaseAt) : (asDeferred left).Before (asDeferred right) ↔ left.Before right := by
  unfold Deferred.Before asDeferred releaseTimeOf
  dsimp only
  omega

theorem renamed_before {rowOf : Nat → Nat} {left right : Deferred (MessageEnvelope U T) T}
    (same : rowOf left.id < rowOf right.id ↔ left.id < right.id) :
    (renamed rowOf left).Before (renamed rowOf right) ↔ left.Before right := by
  unfold Deferred.Before renamed
  dsimp only
  rw [same]

/-- The set parks what the durable rows park, all from 1970 on, in the same order and under the same cap. -/
structure Defers (depth : Nat) (channel : DbChannel U T S) (set : DeferredSet (MessageEnvelope U T) T)
    (rowOf : Nat → Nat) : Prop where
  cap : set.cap = some depth
  entries : channel.parkedView.map asDeferred = set.entries.map (renamed rowOf)
  order : ∀ left ∈ set.entries, ∀ right ∈ set.entries, left.id < right.id → rowOf left.id < rowOf right.id
  since : ∀ row ∈ channel.parkedView, unixEpoch ≤ row.releaseAt

namespace Defers

variable {depth : Nat} {channel after : DbChannel U T S} {set : DeferredSet (MessageEnvelope U T) T}
  {rowOf : Nat → Nat}

theorem start (epoch : U) (depth : Nat) (rowOf : Nat → Nat) :
    Defers depth (DbChannel.new epoch (.bounded depth) : DbChannel U T S) (.new (some depth)) rowOf :=
  ⟨rfl, rfl, by simp [DeferredSet.new], by simp [DbChannel.parkedView, DbChannel.new, orderBy]⟩

theorem aside (defers : Defers depth channel set rowOf) (same : after.parkedView = channel.parkedView) :
    Defers depth after set rowOf :=
  ⟨defers.cap, same ▸ defers.entries, defers.order, same ▸ defers.since⟩

theorem lt_iff (defers : Defers depth channel set rowOf) {left right : Deferred (MessageEnvelope U T) T}
    (first : left ∈ set.entries) (second : right ∈ set.entries) :
    rowOf left.id < rowOf right.id ↔ left.id < right.id := by
  refine ⟨fun below => ?_, defers.order left first right second⟩
  rcases Nat.lt_trichotomy left.id right.id with lower | same | higher
  · exact lower
  · rw [same] at below
    omega
  · have := defers.order right second left first higher
    omega

theorem eq_iff (defers : Defers depth channel set rowOf) {left right : Deferred (MessageEnvelope U T) T}
    (first : left ∈ set.entries) (second : right ∈ set.entries) : rowOf left.id = rowOf right.id ↔ left.id = right.id := by
  have lower := defers.lt_iff first second
  have higher := defers.lt_iff second first
  omega

theorem row_of (defers : Defers depth channel set rowOf) {entry : Deferred (MessageEnvelope U T) T}
    (member : entry ∈ set.entries) : ∃ row ∈ channel.parkedView, asDeferred row = renamed rowOf entry := by
  refine List.mem_map.mp ?_
  rw [defers.entries]
  exact List.mem_map_of_mem member

theorem entry_of (defers : Defers depth channel set rowOf) {row : Deferred (MessageRow U T) T}
    (member : row ∈ channel.parkedView) : ∃ entry ∈ set.entries, renamed rowOf entry = asDeferred row := by
  refine List.mem_map.mp ?_
  rw [← defers.entries]
  exact List.mem_map_of_mem member

theorem filter (defers : Defers depth channel set rowOf) (left : Deferred (MessageRow U T) T → Bool)
    (right : Deferred (MessageEnvelope U T) T → Bool)
    (same : ∀ row ∈ channel.parkedView, ∀ entry ∈ set.entries, asDeferred row = renamed rowOf entry →
      left row = right entry) :
    (channel.parkedView.filter left).map asDeferred = (set.entries.filter right).map (renamed rowOf) := by
  have entries := defers.entries
  generalize channel.parkedView = rows at same entries
  generalize set.entries = parked at same entries
  induction rows generalizing parked with
  | nil =>
    obtain rfl : parked = [] := by simpa using entries.symm
    rfl
  | cons row rows ih =>
    cases parked with
    | nil => simp at entries
    | cons entry parked =>
      obtain ⟨here, later⟩ := List.cons.inj entries
      have agree := same row List.mem_cons_self entry List.mem_cons_self here
      have rest := ih parked (fun row inside entry member =>
        same row (List.mem_cons_of_mem _ inside) entry (List.mem_cons_of_mem _ member)) later
      by_cases chosen : left row = true
      · rw [List.filter_cons_of_pos chosen, List.filter_cons_of_pos (agree ▸ chosen), List.map_cons, List.map_cons,
          here, rest]
      · rw [List.filter_cons_of_neg chosen, List.filter_cons_of_neg (agree ▸ chosen), rest]

theorem without (defers : Defers depth channel set rowOf) {entry : Deferred (MessageEnvelope U T) T}
    (member : entry ∈ set.entries) :
    (channel.parkedView.filter fun row => decide (row.id ≠ rowOf entry.id)).map asDeferred =
      (set.entries.filter fun other => decide (other.id ≠ entry.id)).map (renamed rowOf) := by
  refine defers.filter _ _ fun row _ other inside same => ?_
  have id : row.id = rowOf other.id := congrArg Deferred.id same
  rw [id, Bool.eq_iff_iff, decide_eq_true_eq, decide_eq_true_eq, not_iff_not]
  exact defers.eq_iff inside member

theorem restored {rows : List (Deferred (MessageRow U T) T)} {parked : List (Deferred (MessageEnvelope U T) T)}
    {row : Deferred (MessageRow U T) T} {entry : Deferred (MessageEnvelope U T) T}
    (entries : rows.map asDeferred = parked.map (renamed rowOf)) (here : asDeferred row = renamed rowOf entry)
    (since : unixEpoch ≤ row.releaseAt ∧ ∀ other ∈ rows, unixEpoch ≤ other.releaseAt)
    (order : ∀ other ∈ parked, rowOf other.id < rowOf entry.id ↔ other.id < entry.id) :
    (insertBy Deferred.Before row rows).map asDeferred =
      (insertBy Deferred.Before entry parked).map (renamed rowOf) := by
  rw [← insertBy_map asDeferred fun other inside => asDeferred_before (since.2 other inside) since.1, here, entries]
  exact insertBy_map (renamed rowOf) fun other inside => renamed_before (order other inside)

/-! ### Parking -/

theorem refusal (defers : Defers depth channel set rowOf) (cap : channel.deferredCap = .bounded depth) :
    channel.deferredCapRefusal = set.refusal.map QuotaExceeded.cap := by
  have counts : channel.countDeferred = set.entries.length := by
    rw [channel.countDeferred_eq, ← List.length_map asDeferred, defers.entries, List.length_map]
  rw [DbChannel.deferredCapRefusal, DeferredSet.refusal, cap, defers.cap]
  dsimp only
  rw [counts]
  split <;> rfl

theorem row_lt (defers : Defers depth channel set rowOf) {entry : Deferred (MessageEnvelope U T) T}
    (member : entry ∈ set.entries) {rowId : Nat} (above : ∀ row ∈ channel.rows, row.id < rowId) :
    rowOf entry.id < rowId := by
  obtain ⟨row, held, same⟩ := defers.row_of member
  obtain ⟨inside, parked⟩ := DbChannel.mem_parkedView.mp held
  obtain ⟨due, -, listed⟩ := Option.map_eq_some_iff.mp parked
  have named : row.id = rowOf entry.id := congrArg Deferred.id same
  have kept : row.message.id = row.id := congrArg Deferred.id listed
  have lower := above row.message inside
  omega

/-- Both sides park a message, the row's id above every other row's. -/
theorem park (defers : Defers depth channel set rowOf) (sound : channel.Sound) {rowId : Nat}
    (above : ∀ row ∈ channel.rows, row.id < rowId) (uuid : U) (message : NewMessage T) {releaseAt : Nat}
    (dated : unixEpoch ≤ releaseAt) (room : set.refusal = none) :
    ∃ id parked, set.park message.sender (envelopeOf uuid message) (releaseTimeOf (releaseAt - unixEpoch)) =
        .ok (id, parked) ∧
      ∃ rowOf', Defers depth (channel.insertMessage rowId uuid message (some releaseAt)).2 parked rowOf' := by
  obtain ⟨row, envelope, view⟩ := sound.insertParked_parkedView above uuid message releaseAt
  obtain ⟨parked, done, cap, inserted⟩ := set.park_entries room message.sender (envelopeOf uuid message)
    (releaseTimeOf (releaseAt - unixEpoch))
  have fresh := set.fresh
  have since : ∀ other ∈ channel.parkedView, unixEpoch ≤ other.releaseAt := defers.since
  refine ⟨set.nextId, parked, done, Function.update rowOf set.nextId rowId, cap.trans defers.cap, ?_, ?_, ?_⟩
  · -- the new id is in use nowhere, so the old entries keep their rows
    have others : set.entries.map (renamed (Function.update rowOf set.nextId rowId)) =
        set.entries.map (renamed rowOf) := by
      refine List.map_congr_left fun entry member => ?_
      rw [renamed, Function.update_of_ne (fresh entry member).ne]
      rfl
    rw [view, inserted]
    refine restored (defers.entries.trans others.symm) ?_ ⟨dated, since⟩ fun other member => ?_
    · simp [asDeferred, renamed, envelope]
    · rw [Function.update_self, Function.update_of_ne (fresh other member).ne]
      exact ⟨fun _ => fresh other member, fun _ => defers.row_lt member above⟩
  · intro left first right second below
    rw [inserted] at first second
    rcases mem_insertBy.mp first with rfl | first <;> rcases mem_insertBy.mp second with rfl | second
    · exact absurd below (Nat.lt_irrefl _)
    · exact absurd below (Nat.not_lt.mpr (fresh right second).le)
    · rw [Function.update_self, Function.update_of_ne (fresh left first).ne]
      exact defers.row_lt first above
    · rw [Function.update_of_ne (fresh left first).ne, Function.update_of_ne (fresh right second).ne]
      exact defers.order left first right second below
  · intro other member
    rw [view] at member
    rcases mem_insertBy.mp member with rfl | old
    · exact dated
    · exact since other old

/-! ### Release -/

theorem due (defers : Defers depth channel set rowOf) (sound : channel.Sound) {now : Nat} (dated : unixEpoch ≤ now) :
    (channel.deferredRows fun row => decide (row.releaseAt ≤ now)).map (fun row => row.message.envelope) =
      (set.releaseDue (releaseTimeOf (now - unixEpoch))).1.map Deferred.message := by
  have chosen := defers.filter (fun row => decide (row.releaseAt ≤ now))
    (fun entry => decide (entry.releaseAt ≤ releaseTimeOf (now - unixEpoch))) fun row inside entry _ same => by
      have times : releaseTimeOf (row.releaseAt - unixEpoch) = entry.releaseAt := congrArg Deferred.releaseAt same
      rw [← times]
      simp only [releaseTimeOf_le_since (defers.since row inside) dated]
  rw [sound.deferredRows_eq, (set.releaseDue_entries _).1]
  simpa [asDeferred, renamed, Function.comp_def] using congrArg (List.map Deferred.message) chosen

/-- What stays parked on both sides after a release. -/
theorem releaseRows (defers : Defers depth channel set rowOf) (sound : channel.Sound) {now : Nat}
    (dated : unixEpoch ≤ now) :
    Defers depth (channel.releaseDueForChannel now).2 (set.releaseDue (releaseTimeOf (now - unixEpoch))).2 rowOf := by
  have view := sound.releaseRows_parkedView
    (DbChannel.waiting_deferredRows sound.ids fun row => decide (row.releaseAt ≤ now))
  have rest : (channel.releaseDueForChannel now).2.parkedView =
      channel.parkedView.filter fun row => !decide (row.releaseAt ≤ now) := by
    refine view.trans (List.filter_congr fun row member => ?_)
    rw [sound.deferredRows_eq, Bool.eq_iff_iff]
    simp only [Bool.not_eq_true', List.contains_eq_mem, decide_eq_false_iff_not, List.mem_map, List.mem_filter,
      decide_eq_true_eq]
    refine not_congr ⟨?_, fun due => ⟨row, ⟨member, due⟩, rfl⟩⟩
    rintro ⟨other, ⟨inside, due⟩, same⟩
    rwa [List.inj_on_of_nodup_map (DbChannel.parkedView_ids sound.ids) inside member same] at due
  refine ⟨defers.cap, ?_, ?_, ?_⟩
  · rw [rest, (set.releaseDue_entries _).2]
    refine defers.filter _ _ fun row inside entry _ same => ?_
    have times : releaseTimeOf (row.releaseAt - unixEpoch) = entry.releaseAt := congrArg Deferred.releaseAt same
    rw [← times]
    simp only [releaseTimeOf_le_since (defers.since row inside) dated]
  · intro left first right second
    rw [(set.releaseDue_entries _).2] at first second
    exact defers.order left (List.mem_of_mem_filter first) right (List.mem_of_mem_filter second)
  · rw [rest]
    exact fun row member => defers.since row (List.mem_of_mem_filter member)

/-! ### Cancels and edits -/

theorem cancel (defers : Defers depth channel set rowOf) (sound : channel.Sound)
    {entry : Deferred (MessageEnvelope U T) T} (member : entry ∈ set.entries) :
    Defers depth (channel.deleteRow (rowOf entry.id)) (set.without entry.id) rowOf := by
  refine ⟨defers.cap, ?_, ?_, ?_⟩
  · rw [sound.deleteRow_parkedView, set.without_entries, defers.without member]
  · intro left first right second
    rw [set.without_entries] at first second
    exact defers.order left (List.mem_of_mem_filter first) right (List.mem_of_mem_filter second)
  · rw [sound.deleteRow_parkedView]
    exact fun row kept => defers.since row (List.mem_of_mem_filter kept)

theorem edit (defers : Defers depth channel set rowOf) (sound : channel.Sound)
    {entry : Deferred (MessageEnvelope U T) T} (member : entry ∈ set.entries) (body : Option T)
    {releaseAt : Option Nat} (dated : ∀ instant ∈ releaseAt, unixEpoch ≤ instant) :
    ∃ edited, set.edit entry.id (body.map fun body => { entry.message with body := body })
        (releaseAt.map fun instant => releaseTimeOf (instant - unixEpoch)) = .ok edited ∧
      Defers depth (channel.rewriteRow (rowOf entry.id) body releaseAt) edited rowOf := by
  obtain ⟨edited, done, cap, entries⟩ := set.edit_entries member
    (body.map fun body => { entry.message with body := body })
    (releaseAt.map fun instant => releaseTimeOf (instant - unixEpoch))
  obtain ⟨row, held, same⟩ := defers.row_of member
  obtain ⟨inside, parked⟩ := DbChannel.mem_parkedView.mp held
  obtain ⟨due, waiting, listed⟩ := Option.map_eq_some_iff.mp parked
  have named : row.message.id = rowOf entry.id := (congrArg Deferred.id listed).trans (congrArg Deferred.id same)
  have view := sound.rewriteRow_parkedView inside waiting body releaseAt
  rw [named] at view
  have listedDue : due = row.releaseAt := congrArg Deferred.releaseAt listed
  have moved : unixEpoch ≤ releaseAt.getD due := by
    cases releaseAt with
    | none => exact listedDue ▸ defers.since row held
    | some instant => exact dated instant rfl
  have others : ∀ other ∈ channel.parkedView.filter fun other => decide (other.id ≠ rowOf entry.id),
      unixEpoch ≤ other.releaseAt := fun other kept => defers.since other (List.mem_of_mem_filter kept)
  refine ⟨edited, done, cap.trans defers.cap, ?_, ?_, ?_⟩
  · rw [view, entries]
    refine restored (defers.without member) ?_ ⟨moved, others⟩ fun other kept => ?_
    · have senders : row.message.sender = entry.sender :=
        (congrArg Deferred.sender listed).trans (congrArg Deferred.sender same)
      have times : releaseTimeOf (row.releaseAt - unixEpoch) = entry.releaseAt := congrArg Deferred.releaseAt same
      have envelope : row.message.envelope = entry.message := congrArg Deferred.message same
      have time : releaseTimeOf (releaseAt.getD due - unixEpoch) =
          (releaseAt.map fun instant => releaseTimeOf (instant - unixEpoch)).getD entry.releaseAt := by
        rw [← times, ← listedDue]
        exact (Option.getD_map (fun instant => releaseTimeOf (instant - unixEpoch)) due releaseAt).symm
      have content : (row.message.rewritten body releaseAt).envelope =
          (body.map fun body => { entry.message with body := body }).getD entry.message := by
        cases body with
        | none => exact envelope
        | some body =>
          rw [← envelope]
          rfl
      simp only [asDeferred, renamed, senders, time, content]
    · exact (defers.lt_iff (List.mem_of_mem_filter kept) member :)
  · have known : ∀ other ∈ edited.entries, ∃ old ∈ set.entries, old.id = other.id := by
      intro other inside
      rw [entries] at inside
      rcases mem_insertBy.mp inside with rfl | kept
      · exact ⟨entry, member, rfl⟩
      · exact ⟨other, List.mem_of_mem_filter kept, rfl⟩
    intro left first right second
    obtain ⟨oldLeft, heldLeft, sameLeft⟩ := known left first
    obtain ⟨oldRight, heldRight, sameRight⟩ := known right second
    rw [← sameLeft, ← sameRight]
    exact defers.order oldLeft heldLeft oldRight heldRight
  · intro other inside
    rw [view] at inside
    rcases mem_insertBy.mp inside with rfl | kept
    · exact moved
    · exact others other kept

section Owned

variable [DecidableEq U] [DecidableEq T] {store : RingStore U T S}

/-- Both sides resolve a uuid to the same parked message, or refuse it with the same answer. -/
theorem owned (defers : Defers depth channel store.core.deferred rowOf)
    (uuids : (channel.rows.map MessageRow.uuid).Nodup) (sender : T) (messageUuid : U) {now : Nat} (dated : unixEpoch ≤ now) :
    (∃ outcome, channel.ownedRow sender messageUuid now = .error outcome.dated ∧
      store.ownedId sender messageUuid (now - unixEpoch) = .error outcome) ∨
    ∃ entry ∈ store.core.deferred.entries, channel.ownedRow sender messageUuid now = .ok (rowOf entry.id) ∧
      store.ownedId sender messageUuid (now - unixEpoch) = .ok entry.id ∧
      channel.stillParked (rowOf entry.id) now = true := by
  unfold DbChannel.ownedRow RingStore.ownedId RingCore.ownedDeferred
  cases found : store.core.deferred.entries.find? fun entry => decide (entry.message.messageId = messageUuid) with
  | none =>
    have absent : channel.lookupDeferred messageUuid = none := by
      refine DbChannel.lookupDeferred_of_absent fun row member named => ?_
      obtain ⟨entry, held, same⟩ := defers.entry_of member
      have envelope : entry.message = row.message.envelope := congrArg Deferred.message same
      have other := List.find?_eq_none.mp found entry held
      rw [envelope] at other
      exact other (decide_eq_true named)
    exact .inl ⟨.notDeferred none, by rw [absent]; rfl, rfl⟩
  | some entry =>
    have member := List.mem_of_find?_eq_some found
    have named : entry.message.messageId = messageUuid := by simpa using List.find?_some found
    obtain ⟨row, held, same⟩ := defers.row_of member
    have envelope : row.message.envelope = entry.message := congrArg Deferred.message same
    have ids : row.id = rowOf entry.id := congrArg Deferred.id same
    have senders : row.sender = entry.sender := congrArg Deferred.sender same
    have times : releaseTimeOf (row.releaseAt - unixEpoch) = entry.releaseAt := congrArg Deferred.releaseAt same
    have since := defers.since row held
    have lookup := DbChannel.lookupDeferred_of_mem uuids held
    rw [show row.message.uuid = messageUuid from (congrArg MessageEnvelope.messageId envelope).trans named, ids,
      senders] at lookup
    simp only [lookup, ← times, releaseTimeOf_le_since since dated]
    by_cases owner : entry.sender = sender
    · by_cases passed : row.releaseAt ≤ now
      · refine .inl ⟨.notDeferred (some (row.releaseAt - unixEpoch)), ?_, by simp [owner, passed]⟩
        simp [owner, passed, DeferralOutcome.dated, Nat.sub_add_cancel since]
      · refine .inr ⟨entry, member, by simp [owner, passed], by simp [owner, passed], ?_⟩
        rw [← ids]
        exact DbChannel.stillParked_of_mem held (Nat.lt_of_not_le passed)
    · exact .inl ⟨.wrongSender, by simp [owner, DeferralOutcome.dated], by simp [owner]⟩

omit [DecidableEq U] in
theorem forSender (defers : Defers depth channel store.core.deferred rowOf) (sound : channel.Sound) (sender : T) :
    channel.deferredForSender sender =
      (store.deferredForSender sender).map fun view => { view with releaseAt := view.releaseAt + unixEpoch } := by
  have chosen := defers.filter (fun row => decide (row.sender = sender)) (fun entry => decide (entry.sender = sender))
    fun row _ entry _ same => by
      have senders : row.sender = entry.sender := congrArg Deferred.sender same
      rw [senders]
  have shown := congrArg (List.map fun entry =>
    (⟨instantOf entry.releaseAt + unixEpoch, entry.message⟩ : DeferredMessage U T)) chosen
  have dated : ∀ row ∈ channel.parkedView.filter fun row => decide (row.sender = sender),
      (⟨row.releaseAt, row.message.envelope⟩ : DeferredMessage U T) =
        ⟨row.releaseAt - unixEpoch + unixEpoch, row.message.envelope⟩ := fun row member => by
    rw [Nat.sub_add_cancel (defers.since row (List.mem_of_mem_filter member))]
  rw [DbChannel.deferredForSender, sound.deferredRows_eq, RingStore.deferredForSender, RingCore.deferredForSender,
    DeferredSet.forSender, List.map_congr_left dated]
  simpa [asDeferred, renamed, Function.comp_def] using shown

end Owned

end Defers

end Brenn.Store
