import Brenn.Bus.Overflow

/-!
What one sender holds parked in a channel's store, and whose call changes it.

A durable channel finds its row by id and a ring its entry, so both rest on distinct ids.
-/

namespace Brenn.Bus
open Brenn.Lib Brenn.Queue Brenn.Store Std

universe u v w

variable {U : Type u} {T : Type v} {S : Type w} [LinearOrder S]

namespace Retention

section Calls

variable [DecidableEq U] [DecidableEq T]

def deferredForSender (sender : T) : Retention U T S → List (DeferredMessage U T)
  | .ring store => store.deferredForSender sender
  | .durable channel => channel.deferredForSender sender

/-- Park a message. One the deferred cap refuses has its schedule dropped. -/
def park (rowId : Nat) (messageId : U) (message : NewMessage T) (releaseAt : Nat) :
    Retention U T S → Retention U T S
  | .ring store =>
    match store.park messageId message releaseAt with
    | .ok (_, store) => .ring store
    | .error _ => .ring store
  | .durable channel =>
    match channel.park rowId messageId message releaseAt with
    | .ok (_, channel) => .durable channel
    | .error _ => .durable channel

def cancelDeferred (sender : T) (messageId : U) (now : Nat) : Retention U T S → DeferralOutcome × Retention U T S
  | .ring store => (store.cancelDeferred sender messageId now).map id .ring
  | .durable channel => (channel.cancelDeferred sender messageId now).map id .durable

def editDeferred (sender : T) (messageId : U) (body : Option T) (releaseAt : Option Nat) (now : Nat) :
    Retention U T S → DeferralOutcome × Retention U T S
  | .ring store => (store.editDeferred sender messageId body releaseAt now).map id .ring
  | .durable channel => (channel.editDeferred sender messageId body releaseAt now).map id .durable

end Calls

def nextRelease : Retention U T S → Option Nat
  | .ring store => store.core.deferred.nextRelease.map instantOf
  | .durable channel => (channel.rows.filterMap MessageRow.deliverAfter).min?

/-- Release what is due, and the senders of what was released. -/
def releaseDue (now : Nat) : Retention U T S → Option (List T × Retention U T S)
  | .ring store => (store.releaseDue now).map fun (answer, store) =>
      (answer.1.map fun released => released.message.sender, .ring store)
  | .durable channel =>
    let (released, channel) := channel.releaseDueForChannel now
    some (released.map fun released => released.message.sender, .durable channel)

/-- Ids are distinct and below the one drawn next, and a ring's entry is its message's sender's. -/
def Numbered (nextRow : Nat) : Retention U T S → Prop
  | .ring store => ∀ entry ∈ store.core.deferred.entries, entry.sender = entry.message.sender
  | .durable channel => (channel.rows.map MessageRow.id).Nodup ∧ ∀ row ∈ channel.rows, row.id < nextRow

theorem Numbered.mono {nextRow later : Nat} {retention : Retention U T S} (numbered : retention.Numbered nextRow)
    (grown : nextRow ≤ later) : retention.Numbered later := by
  cases retention with
  | ring store => exact numbered
  | durable channel => exact ⟨numbered.1, fun row member => (numbered.2 row member).trans_le grown⟩

end Retention

/-! ### Rows -/

theorem ids_update {rows : List (MessageRow U T)} (id : Nat) (update : MessageRow U T → MessageRow U T)
    (kept : ∀ row, (update row).id = row.id) :
    (rows.map fun row => if row.id = id then update row else row).map MessageRow.id = rows.map MessageRow.id := by
  rw [List.map_map]
  refine List.map_congr_left fun row _ => ?_
  simp only [Function.comp_apply]
  split
  · exact kept row
  · rfl

theorem numbered_of_ids {channel after : DbChannel U T S} {nextRow : Nat}
    (numbered : (Retention.durable channel).Numbered nextRow)
    (same : after.rows.map MessageRow.id = channel.rows.map MessageRow.id) :
    (Retention.durable after).Numbered nextRow := by
  refine ⟨same ▸ numbered.1, fun row member => ?_⟩
  obtain ⟨held, inside, eq⟩ := List.mem_map.mp (same ▸ List.mem_map_of_mem (f := MessageRow.id) member)
  exact eq ▸ numbered.2 held inside

variable [DecidableEq T] {other : T}

theorem parked_of_others {rows : List (MessageRow U T)} (others : ∀ row ∈ rows, row.sender ≠ other) :
    (rows.filterMap MessageRow.parked).filter (fun row => decide (row.sender = other)) = [] := by
  refine List.filter_eq_nil_iff.mpr fun entry member same => ?_
  obtain ⟨row, inside, parked⟩ := List.mem_filterMap.mp member
  obtain ⟨_, -, rfl⟩ := Option.map_eq_some_iff.mp parked
  exact others row inside (of_decide_eq_true same)

theorem deferredForSender_splice {channel after : DbChannel U T S} (front gone come back : List (MessageRow U T))
    (held : channel.rows = front ++ gone ++ back) (left : after.rows = front ++ come ++ back)
    (goneOthers : ∀ row ∈ gone, row.sender ≠ other) (comeOthers : ∀ row ∈ come, row.sender ≠ other) :
    after.deferredForSender other = channel.deferredForSender other := by
  unfold DbChannel.deferredForSender DbChannel.deferredRows
  rw [held, left]
  simp only [List.filterMap_append, List.filter_append, parked_of_others goneOthers, parked_of_others comeOthers]

/-- Rewriting the row under an id, where that row is another's before and after. -/
theorem deferredForSender_update {channel after : DbChannel U T S} {row : MessageRow U T}
    (ids : (channel.rows.map MessageRow.id).Nodup) (member : row ∈ channel.rows)
    (update : MessageRow U T → MessageRow U T)
    (left : after.rows = channel.rows.map fun held => if held.id = row.id then update held else held)
    (others : row.sender ≠ other) (kept : (update row).sender = row.sender) :
    after.deferredForSender other = channel.deferredForSender other := by
  obtain ⟨front, back, split, elsewhere⟩ := split_at_key ids member
  refine deferredForSender_splice front [row] [update row] back ?_ ?_ ?_ ?_
  · simpa using split
  · rw [left, split, map_at_key update elsewhere]
    simp
  · simpa using others
  · simpa [kept] using others

theorem ownedRow_mem [DecidableEq U] {channel : DbChannel U T S} {sender : T} {messageId : U} {now id : Nat}
    (owned : channel.ownedRow sender messageId now = .ok id) :
    ∃ row ∈ channel.rows, row.id = id ∧ row.sender = sender := by
  unfold DbChannel.ownedRow at owned
  split at owned
  · cases owned
  next lookup found =>
    split at owned
    · cases owned
    next same =>
      split at owned
      · cases owned
      · obtain ⟨row, inside, read⟩ := List.exists_of_findSome?_eq_some found
        split at read
        · obtain ⟨_, -, rfl⟩ := Option.map_eq_some_iff.mp read
          exact ⟨row, inside, Except.ok.inj owned, not_not.mp same⟩
        · cases read

theorem releaseRows_leave {channel : DbChannel U T S} {nextRow : Nat} {due : List (Deferred (MessageRow U T) T)}
    (numbered : (Retention.durable channel).Numbered nextRow) (waiting : channel.Waiting due) :
    (Retention.durable (DbChannel.releaseRows due channel).2).Numbered nextRow ∧
      ∀ other, other ∉ (DbChannel.releaseRows due channel).1.map (fun released => released.message.sender) →
        (DbChannel.releaseRows due channel).2.deferredForSender other = channel.deferredForSender other := by
  -- over the rows due: releasing the first leaves the others waiting
  induction due generalizing channel with
  | nil => exact ⟨numbered, fun _ _ => rfl⟩
  | cons entry due ih =>
    have inside := (waiting.held entry List.mem_cons_self).1
    have here := (waiting.parked List.mem_cons_self).2
    have ids : (channel.releaseRow entry.id).rows.map MessageRow.id = channel.rows.map MessageRow.id :=
      ids_update entry.id _ fun _ => rfl
    obtain ⟨kept, leaves⟩ := ih (numbered_of_ids numbered ids) waiting.releaseRow
    refine ⟨kept, fun other absent => ?_⟩
    obtain ⟨first, rest⟩ : other ≠ entry.message.sender ∧ _ := List.mem_cons.not.trans not_or |>.mp absent
    refine (leaves other rest).trans ?_
    exact deferredForSender_update numbered.1 inside (fun row => row.released (channel.lastRetainedSeq + 1))
      (here ▸ rfl) (Ne.symm first) rfl

/-! ### Ring entries -/

theorem filter_insertBy {α : Type*} (before : α → α → Prop) [DecidableRel before] {entry : α}
    {wanted : α → Bool} (unwanted : wanted entry = false) (entries : List α) :
    (insertBy before entry entries).filter wanted = entries.filter wanted := by
  rw [insertBy, List.filter_append, List.filter_cons_of_neg (by simp [unwanted]), ← List.filter_append,
    List.takeWhile_append_dropWhile]

theorem forSender_without {M : Type*} {set : DeferredSet M T} {entry : Deferred M T} (member : entry ∈ set.entries)
    (others : entry.sender ≠ other) :
    (set.entries.filter fun held => decide (held.id ≠ entry.id)).filter (fun held => decide (held.sender = other)) =
      set.entries.filter fun held => decide (held.sender = other) := by
  rw [List.filter_filter]
  refine List.filter_congr fun held inside => ?_
  by_cases same : held.sender = other
  · have different : held.id ≠ entry.id := fun id =>
      others (List.inj_on_of_nodup_map set.unique inside member id ▸ same)
    simp [same, different]
  · simp [same]

theorem ring_forSender {store after : RingStore U T S}
    (same : (after.core.deferred.entries.filter fun entry => decide (entry.sender = other)) =
      store.core.deferred.entries.filter fun entry => decide (entry.sender = other)) :
    after.deferredForSender other = store.deferredForSender other := by
  unfold RingStore.deferredForSender RingCore.deferredForSender DeferredSet.forSender
  rw [same]

theorem ownedId_mem [DecidableEq U] {store : RingStore U T S} {sender : T} {messageId : U} {now id : Nat}
    (owned : store.ownedId sender messageId now = .ok id) :
    ∃ entry ∈ store.core.deferred.entries, entry.id = id ∧ entry.sender = sender := by
  unfold RingStore.ownedId RingCore.ownedDeferred at owned
  split at owned
  next found =>
    split at found
    · cases found
    next entry named =>
      split at found
      · cases found
      next same =>
        split at found
        · cases found
        · injection found with id _
          exact ⟨entry, List.mem_of_find?_eq_some named, id.trans (Except.ok.inj owned), not_not.mp same⟩
  all_goals cases owned

theorem enterDue_messages {M Ep P : Type*} (core : RingCore M Ep S P) (due : List (Deferred M P))
    (report : ReleaseReport M S) : (core.enterDue due report).1.released.map Retained.message =
      report.released.map Retained.message ++ due.map Deferred.message := by
  induction due generalizing core report with
  | nil => simp [RingCore.enterDue]
  | cons entry due ih => simp [RingCore.enterDue, ih]

/-! ### Each call, over both stores -/

namespace Retention

variable {retention after : Retention U T S} {nextRow : Nat}

/-- A call of one sender keeps the numbering and every other sender's parked set. -/
structure Leaves (nextRow : Nat) (sender : T) (before after : Retention U T S) : Prop where
  numbered : after.Numbered nextRow
  others : ∀ other ≠ sender, after.deferredForSender other = before.deferredForSender other

theorem Leaves.refl (numbered : retention.Numbered nextRow) (sender : T) : retention.Leaves nextRow sender retention :=
  ⟨numbered, fun _ _ => rfl⟩

/-- A release keeps the numbering and the parked set of every sender it does not report. -/
theorem releaseDue_leaves (numbered : retention.Numbered nextRow) {now : Nat} {senders : List T}
    (released : retention.releaseDue now = some (senders, after)) :
    after.Numbered nextRow ∧
      ∀ other ∉ senders, after.deferredForSender other = retention.deferredForSender other := by
  cases retention with
  | ring store =>
    obtain ⟨⟨answer, done⟩, swept, same⟩ := Option.map_eq_some_iff.mp released
    obtain ⟨rfl, rfl⟩ := Prod.mk.inj same
    unfold RingStore.releaseDue at swept
    dsimp only at swept
    split at swept
    · cases swept
    next overflow _ =>
      obtain ⟨rfl, rfl⟩ := Prod.mk.inj (Option.some.inj swept)
      obtain ⟨due, left⟩ := store.core.deferred.releaseDue_entries (releaseTimeOf now)
      have messages := enterDue_messages
        { store.core with deferred := (store.core.deferred.releaseDue (releaseTimeOf now)).2 }
        (store.core.deferred.releaseDue (releaseTimeOf now)).1 ⟨[], []⟩
      refine ⟨fun entry member => ?_, fun other absent => ring_forSender ?_⟩
      · rw [RingCore.releaseDue_deferred, left] at member
        exact numbered entry (List.mem_of_mem_filter member)
      · rw [RingCore.releaseDue_deferred, left, List.filter_filter]
        refine List.filter_congr fun entry member => ?_
        by_cases own : entry.sender = other
        · -- an entry of theirs that was due would have been reported
          have waits : ¬ entry.releaseAt ≤ releaseTimeOf now := by
            intro ripe
            have taken : entry.message ∈ (store.core.releaseDue (releaseTimeOf now)).1.released.map Retained.message := by
              rw [RingCore.releaseDue, messages, due]
              exact List.mem_map_of_mem (List.mem_filter.mpr ⟨member, decide_eq_true ripe⟩)
            obtain ⟨released, listed, same⟩ := List.mem_map.mp taken
            exact absent (List.mem_map.mpr ⟨released, listed, by rw [same, ← numbered entry member, own]⟩)
          simp [own, waits]
        · simp [own]
  | durable channel =>
    obtain ⟨rfl, rfl⟩ := Prod.mk.inj (Option.some.inj released)
    exact releaseRows_leave numbered (DbChannel.waiting_deferredRows numbered.1 _)

theorem park_leaves (numbered : retention.Numbered nextRow) (messageId : U) (message : NewMessage T) (releaseAt : Nat) :
    retention.Leaves (nextRow + 1) message.sender (retention.park nextRow messageId message releaseAt) := by
  have later := numbered.mono (Nat.le_succ nextRow)
  cases retention with
  | ring store =>
    unfold park RingStore.park RingCore.park
    dsimp only
    cases room : store.core.deferred.refusal with
    | some refused =>
      simp only [DeferredSet.park, room]
      exact .refl later _
    | none =>
      obtain ⟨set, parked, -, entries⟩ := store.core.deferred.park_entries room message.sender
        (envelopeOf messageId message) (releaseTimeOf releaseAt)
      simp only [parked]
      refine ⟨fun entry member => ?_, fun other different => ring_forSender ?_⟩
      · rcases mem_insertBy.mp (entries ▸ member) with rfl | old
        · rfl
        · exact numbered entry old
      · rw [entries]
        exact filter_insertBy Deferred.Before (decide_eq_false different.symm) _
  | durable channel =>
    unfold park DbChannel.park
    dsimp only
    cases channel.deferredCapRefusal with
    | some cap => exact .refl later _
    | none =>
      refine ⟨⟨?_, fun row member => ?_⟩, fun other different => ?_⟩
      · rw [DbChannel.insertMessage, List.map_append, List.nodup_append]
        refine ⟨numbered.1, List.nodup_singleton _, ?_⟩
        simpa using fun row member => (numbered.2 row member).ne
      · rcases List.mem_append.mp member with old | new
        · exact later.2 row old
        · rw [List.mem_singleton.mp new]
          exact Nat.lt_succ_self nextRow
      · refine deferredForSender_splice channel.rows [] _ [] (by simp) (List.append_nil _).symm (by simp) ?_
        simpa using different.symm

variable [DecidableEq U]

theorem cancelDeferred_leaves (numbered : retention.Numbered nextRow) (sender : T) (messageId : U) (now : Nat) :
    retention.Leaves nextRow sender (retention.cancelDeferred sender messageId now).2 := by
  cases retention with
  | ring store =>
    simp only [cancelDeferred, Prod.map_snd, RingStore.cancelDeferred]
    cases owned : store.ownedId sender messageId now with
    | error outcome => exact .refl numbered _
    | ok id =>
      obtain ⟨entry, member, rfl, own⟩ := ownedId_mem owned
      have entries := store.core.deferred.without_entries entry.id
      simp only [RingCore.cancelDeferred, DeferredSet.cancel, store.core.deferred.get_of_mem member, Option.map_some]
      refine ⟨fun held inside => numbered held ?_, fun other different => ring_forSender ?_⟩
      · exact List.mem_of_mem_filter (entries ▸ inside)
      · rw [entries]
        exact forSender_without member (own ▸ different.symm)
  | durable channel =>
    simp only [cancelDeferred, Prod.map_snd, DbChannel.cancelDeferred]
    cases owned : channel.ownedRow sender messageId now with
    | error outcome => exact .refl numbered _
    | ok id =>
      dsimp only
      split
      · obtain ⟨row, member, rfl, own⟩ := ownedRow_mem owned
        refine ⟨⟨numbered.1.sublist (List.filter_sublist.map _), fun held inside => ?_⟩, fun other different => ?_⟩
        · exact numbered.2 held (List.mem_of_mem_filter inside)
        · obtain ⟨front, back, split, elsewhere⟩ := split_at_key numbered.1 member
          refine deferredForSender_splice front [row] [] back (by simpa using split) ?_
            (by simpa [own] using different.symm) (by simp)
          simp only [DbChannel.deleteRow, split, filter_at_key elsewhere, List.append_nil]
      · exact .refl numbered _

theorem editDeferred_leaves (numbered : retention.Numbered nextRow) (sender : T) (messageId : U) (body : Option T)
    (releaseAt : Option Nat) (now : Nat) :
    retention.Leaves nextRow sender (retention.editDeferred sender messageId body releaseAt now).2 := by
  cases retention with
  | ring store =>
    simp only [editDeferred, Prod.map_snd, RingStore.editDeferred]
    cases owned : store.ownedId sender messageId now with
    | error outcome => exact .refl numbered _
    | ok id =>
      obtain ⟨entry, member, rfl, own⟩ := ownedId_mem owned
      have leaves message (kept : (message.getD entry.message).sender = entry.message.sender) :
          (Retention.ring store).Leaves nextRow sender
            (.ring { store with core := (store.core.editDeferred entry.id message (releaseAt.map releaseTimeOf)).2 }) := by
        obtain ⟨set, done, -, entries⟩ := store.core.deferred.edit_entries member message (releaseAt.map releaseTimeOf)
        simp only [RingCore.editDeferred, done]
        refine ⟨fun held inside => ?_, fun other different => ring_forSender ?_⟩
        · rcases mem_insertBy.mp (entries ▸ inside) with rfl | old
          · exact (numbered entry member).trans kept.symm
          · exact numbered held (List.mem_of_mem_filter old)
        · rw [entries, filter_insertBy Deferred.Before (decide_eq_false (own ▸ different.symm))]
          exact forSender_without member (own ▸ different.symm)
      simp only [store.core.deferred.get_of_mem member]
      cases body with
      | none =>
        have left := leaves none rfl
        revert left
        rcases store.core.editDeferred entry.id none _ with ⟨_ | _, core⟩ <;> exact id
      | some body =>
        have left := leaves (some { entry.message with body := body }) rfl
        revert left
        rcases store.core.editDeferred entry.id (some { entry.message with body := body }) _ with ⟨_ | _, core⟩
          <;> exact id
  | durable channel =>
    simp only [editDeferred, Prod.map_snd, DbChannel.editDeferred]
    cases owned : channel.ownedRow sender messageId now with
    | error outcome => exact .refl numbered _
    | ok id =>
      dsimp only
      split
      · obtain ⟨row, member, rfl, own⟩ := ownedRow_mem owned
        refine ⟨numbered_of_ids numbered (ids_update row.id _ fun _ => rfl), fun other different => ?_⟩
        exact deferredForSender_update numbered.1 member (fun row => row.rewritten body releaseAt) rfl
          (own ▸ different.symm) rfl
      · exact .refl numbered _

end Retention

end Brenn.Bus
