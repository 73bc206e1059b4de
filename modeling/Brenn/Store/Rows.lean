import Brenn.Store.Durable

/-!
What the rows of a durable channel are, read in order.

`retainedView` is retention oldest first and `parkedView` the unreleased rows in
release order. Each section that writes rows is described by what it does to the two views.
-/

namespace Brenn.Store
open Brenn.Lib Brenn.Queue Std

universe u v w

variable {U : Type u} {T : Type v} {S : Type w} [LinearOrder S]

def oldestFirst (left right : Retained (MessageEnvelope U T)) : Prop := left.seq < right.seq

instance : DecidableRel (oldestFirst (U := U) (T := T)) := fun _ _ => inferInstanceAs (Decidable (_ < _))

instance : IsTrans (Retained (MessageEnvelope U T)) oldestFirst := ⟨fun _ _ _ => Nat.lt_trans⟩

instance : Std.Irrefl (oldestFirst (U := U) (T := T)) := ⟨fun _ => Nat.lt_irrefl _⟩

instance : IsTrans (Retained (MessageEnvelope U T)) newestFirst :=
  ⟨fun _ _ _ first second => Nat.lt_trans second first⟩

instance : Std.Irrefl (newestFirst (U := U) (T := T)) := ⟨fun _ => Nat.lt_irrefl _⟩

instance : IsTrans (MessageRow U T) MessageRow.newestFirst :=
  ⟨fun _ _ _ first second => Nat.lt_trans second first⟩

/-- The row is parked or retained, and not both. -/
def MessageRow.Exclusive (row : MessageRow U T) : Prop := row.retainedSeq.isSome = row.deliverAfter.isNone

theorem MessageRow.Exclusive.unretained {row : MessageRow U T} (exclusive : row.Exclusive)
    (parked : row.deliverAfter.isSome) : row.retainedSeq = none := by
  obtain ⟨releaseAt, held⟩ := Option.isSome_iff_exists.mp parked
  simpa [MessageRow.Exclusive, held] using exclusive

namespace DbChannel

variable {channel : DbChannel U T S}

def retainedView (channel : DbChannel U T S) : List (Retained (MessageEnvelope U T)) :=
  orderBy oldestFirst (channel.rows.filterMap MessageRow.retained)

def parkedView (channel : DbChannel U T S) : List (Deferred (MessageRow U T) T) :=
  orderBy Deferred.Before (channel.rows.filterMap MessageRow.parked)

structure Sound (channel : DbChannel U T S) : Prop where
  exclusive : ∀ row ∈ channel.rows, row.Exclusive
  ids : (channel.rows.map MessageRow.id).Nodup
  counted : channel.retainedView.length ≤ channel.lastRetainedSeq
  dense : Numbered Retained.seq (channel.lastRetainedSeq + 1 - channel.retainedView.length) channel.retainedView

theorem sound_new (resumeEpoch : U) (deferredCap : Depth) : (new resumeEpoch deferredCap : DbChannel U T S).Sound where
  exclusive row member := by simp [new] at member
  ids := .nil
  counted := Nat.zero_le _
  dense := numbered_nil

theorem parked_ids (ids : (channel.rows.map MessageRow.id).Nodup) :
    ((channel.rows.filterMap MessageRow.parked).map Deferred.id).Nodup := by
  have distinct : channel.rows.Pairwise fun left right => left.id ≠ right.id := List.pairwise_map.mp ids
  refine List.pairwise_map.mpr (List.pairwise_filterMap.mpr (distinct.imp ?_))
  intro left right different first firstParked second secondParked
  obtain ⟨_, _, rfl⟩ := Option.map_eq_some_iff.mp firstParked
  obtain ⟨_, _, rfl⟩ := Option.map_eq_some_iff.mp secondParked
  exact different

theorem parked_apart (ids : (channel.rows.map MessageRow.id).Nodup) :
    (channel.rows.filterMap MessageRow.parked).Pairwise fun left right => left.Before right ∨ right.Before left :=
  (List.pairwise_map.mp (parked_ids ids)).imp Deferred.Before.apart

theorem Sound.parkedView_sorted (sound : channel.Sound) : channel.parkedView.Pairwise Deferred.Before :=
  pairwise_orderBy (parked_apart sound.ids)

theorem Sound.retainedView_sorted (sound : channel.Sound) : channel.retainedView.Pairwise oldestFirst :=
  sound.dense.pairwise

/-- A table whose retained rows are those of `view`, in some order, reads as `view`. -/
theorem retainedView_eq {first : Nat} {view : List (Retained (MessageEnvelope U T))}
    (numbered : Numbered Retained.seq first view)
    (same : view.Perm (channel.rows.filterMap MessageRow.retained)) : channel.retainedView = view := by
  unfold DbChannel.retainedView
  exact orderBy_eq numbered.pairwise same

theorem retainedView_perm (channel : DbChannel U T S) :
    channel.retainedView.Perm (channel.rows.filterMap MessageRow.retained) := orderBy_perm _

/-! ### Writes -/

section Writes

variable {after : DbChannel U T S}

/-- A write that gives one message the next seq puts it at the end of retention. -/
theorem Sound.entered (sound : channel.Sound) {envelope : MessageEnvelope U T}
    (exclusive : ∀ row ∈ after.rows, row.Exclusive) (ids : (after.rows.map MessageRow.id).Nodup)
    (next : after.lastRetainedSeq = channel.lastRetainedSeq + 1)
    (same : (after.rows.filterMap MessageRow.retained).Perm
      (⟨channel.lastRetainedSeq + 1, envelope⟩ :: channel.rows.filterMap MessageRow.retained)) :
    after.Sound ∧
      after.retainedView = channel.retainedView ++ [⟨channel.lastRetainedSeq + 1, envelope⟩] := by
  have counted := sound.counted
  have numbered := sound.dense.snoc
    (show Retained.seq ⟨channel.lastRetainedSeq + 1, envelope⟩ = _ by simp only; omega)
  have view : after.retainedView = channel.retainedView ++ [⟨channel.lastRetainedSeq + 1, envelope⟩] := by
    refine retainedView_eq numbered (List.Perm.trans ?_ same.symm)
    exact (List.perm_append_singleton _ _).trans (channel.retainedView_perm.cons _)
  refine ⟨⟨exclusive, ids, ?_, ?_⟩, view⟩
  · rw [view, next, List.length_append, List.length_singleton]
    omega
  · rw [view, next, List.length_append, List.length_singleton]
    rwa [show channel.lastRetainedSeq + 1 + 1 - (channel.retainedView.length + 1) =
      channel.lastRetainedSeq + 1 - channel.retainedView.length by omega]

/-- A write that touches no retained row keeps retention as it reads. -/
theorem Sound.aside (sound : channel.Sound) (exclusive : ∀ row ∈ after.rows, row.Exclusive)
    (ids : (after.rows.map MessageRow.id).Nodup) (last : after.lastRetainedSeq = channel.lastRetainedSeq)
    (same : after.rows.filterMap MessageRow.retained = channel.rows.filterMap MessageRow.retained) :
    after.Sound ∧ after.retainedView = channel.retainedView := by
  have view : after.retainedView = channel.retainedView := congrArg (orderBy oldestFirst) same
  refine ⟨⟨exclusive, ids, ?_, ?_⟩, view⟩
  · rw [view, last]
    exact sound.counted
  · rw [view, last]
    exact sound.dense

theorem nodup_ids_snoc {rows : List (MessageRow U T)} {row : MessageRow U T}
    (ids : (rows.map MessageRow.id).Nodup) (above : ∀ other ∈ rows, other.id < row.id) :
    ((rows ++ [row]).map MessageRow.id).Nodup := by
  rw [List.map_append, List.map_singleton]
  refine List.nodup_append.mpr ⟨ids, List.nodup_singleton _, ?_⟩
  intro id member last inside
  obtain ⟨other, held, rfl⟩ := List.mem_map.mp member
  rw [List.mem_singleton.mp inside]
  exact (above other held).ne

theorem Sound.append (sound : channel.Sound) {rowId : Nat} (above : ∀ row ∈ channel.rows, row.id < rowId)
    (uuid : U) (message : NewMessage T) :
    (channel.append rowId uuid message).2.Sound ∧ (channel.append rowId uuid message).2.retainedView =
      channel.retainedView ++ [⟨channel.lastRetainedSeq + 1, envelopeOf uuid message⟩] := by
  refine sound.entered ?_ (nodup_ids_snoc sound.ids above) rfl ?_
  · intro row member
    rcases List.mem_append.mp member with old | new
    · exact sound.exclusive row old
    · rw [List.mem_singleton.mp new]
      rfl
  · simp only [DbChannel.append, insertMessage, List.filterMap_append]
    exact List.perm_append_singleton _ _

theorem Sound.insertParked (sound : channel.Sound) {rowId : Nat} (above : ∀ row ∈ channel.rows, row.id < rowId)
    (uuid : U) (message : NewMessage T) (releaseAt : Nat) :
    (channel.insertMessage rowId uuid message (some releaseAt)).2.Sound ∧
      (channel.insertMessage rowId uuid message (some releaseAt)).2.retainedView = channel.retainedView := by
  refine sound.aside ?_ (nodup_ids_snoc sound.ids above) rfl ?_
  · intro row member
    rcases List.mem_append.mp member with old | new
    · exact sound.exclusive row old
    · rw [List.mem_singleton.mp new]
      rfl
  · simp [insertMessage, MessageRow.retained]

/-- Rewriting unreleased rows in place, each staying unreleased. -/
theorem Sound.mapRows (sound : channel.Sound) {update : MessageRow U T → MessageRow U T}
    (sameId : ∀ row, (update row).id = row.id) (sameRetained : ∀ row ∈ channel.rows, (update row).retained = row.retained)
    (exclusive : ∀ row ∈ channel.rows, (update row).Exclusive) :
    DbChannel.Sound { channel with rows := channel.rows.map update } ∧
      DbChannel.retainedView { channel with rows := channel.rows.map update } = channel.retainedView := by
  refine sound.aside ?_ ?_ rfl ?_
  · intro row member
    obtain ⟨old, held, rfl⟩ := List.mem_map.mp member
    exact exclusive old held
  · rw [List.map_map, show MessageRow.id ∘ update = MessageRow.id from funext sameId]
    exact sound.ids
  · rw [List.filterMap_map]
    exact List.filterMap_congr sameRetained

theorem Sound.filterRows (sound : channel.Sound) {keep : MessageRow U T → Bool}
    (keeps : ∀ row ∈ channel.rows, row.deliverAfter = none → keep row = true) :
    DbChannel.Sound { channel with rows := channel.rows.filter keep } ∧
      DbChannel.retainedView { channel with rows := channel.rows.filter keep } = channel.retainedView := by
  refine sound.aside ?_ ?_ rfl ?_
  · intro row member
    exact sound.exclusive row (List.mem_filter.mp member).1
  · exact sound.ids.sublist (List.filter_sublist.map MessageRow.id)
  · rw [List.filterMap_filter]
    refine List.filterMap_congr fun row member => ?_
    by_cases kept : keep row
    · rw [if_pos kept]
    · have parked : row.deliverAfter.isSome := by
        rw [Option.isSome_iff_ne_none]
        exact fun released => kept (keeps row member released)
      rw [if_neg kept, MessageRow.retained, (sound.exclusive row member).unretained parked]
      rfl

theorem Sound.releaseRow (sound : channel.Sound) {row : MessageRow U T} (member : row ∈ channel.rows)
    (parked : row.deliverAfter.isSome) :
    (channel.releaseRow row.id).Sound ∧ (channel.releaseRow row.id).retainedView =
      channel.retainedView ++ [⟨channel.lastRetainedSeq + 1, row.envelope⟩] := by
  obtain ⟨before, behind, split, elsewhere⟩ := split_at_key sound.ids member
  have rows : (channel.releaseRow row.id).rows =
      before ++ row.released (channel.lastRetainedSeq + 1) :: behind := by
    rw [DbChannel.releaseRow, split]
    exact map_at_key (fun other => other.released (channel.lastRetainedSeq + 1)) elsewhere
  refine sound.entered ?_ ?_ rfl ?_
  · intro other inside
    rw [rows] at inside
    rcases List.mem_append.mp inside with old | rest
    · exact sound.exclusive other (split ▸ List.mem_append_left _ old)
    · rcases List.mem_cons.mp rest with rfl | old
      · rfl
      · exact sound.exclusive other (split ▸ List.mem_append_right _ (List.mem_cons_of_mem _ old))
  · have ids := sound.ids
    rw [split] at ids
    rw [rows]
    simpa [MessageRow.released] using ids
  · -- the row had no seq before, so retention gains exactly its new one
    have fresh : row.retained = none := by
      rw [MessageRow.retained, (sound.exclusive row member).unretained parked]
      rfl
    rw [rows, split, List.filterMap_append, List.filterMap_append, List.filterMap_cons_none fresh]
    exact List.perm_middle

structure Waiting (channel : DbChannel U T S) (due : List (Deferred (MessageRow U T) T)) : Prop where
  held : ∀ entry ∈ due, entry.message ∈ channel.rows ∧ entry.message.parked = some entry
  distinct : (due.map Deferred.id).Nodup

theorem Waiting.parked {due : List (Deferred (MessageRow U T) T)} (waiting : channel.Waiting due)
    {entry : Deferred (MessageRow U T) T} (member : entry ∈ due) :
    entry.message.deliverAfter = some entry.releaseAt ∧ entry.message.id = entry.id := by
  obtain ⟨releaseAt, held, same⟩ := Option.map_eq_some_iff.mp (waiting.held entry member).2
  refine ⟨?_, congrArg Deferred.id same⟩
  rw [held, ← congrArg Deferred.releaseAt same]

theorem waiting_deferredRows (ids : (channel.rows.map MessageRow.id).Nodup)
    (wanted : Deferred (MessageRow U T) T → Bool) : channel.Waiting (channel.deferredRows wanted) where
  held entry member := by
    obtain ⟨inside, -⟩ := List.mem_filter.mp (mem_orderBy.mp member)
    obtain ⟨row, held, parked⟩ := List.mem_filterMap.mp inside
    obtain ⟨_, _, rfl⟩ := Option.map_eq_some_iff.mp parked
    exact ⟨held, parked⟩
  distinct := by
    refine ((orderBy_perm _).map Deferred.id).nodup_iff.mpr ?_
    exact (parked_ids ids).sublist (List.filter_sublist.map Deferred.id)

theorem Waiting.releaseRow {entry : Deferred (MessageRow U T) T} {due : List (Deferred (MessageRow U T) T)}
    (waiting : channel.Waiting (entry :: due)) : (channel.releaseRow entry.id).Waiting due where
  held other member := by
    have inside := List.mem_cons_of_mem entry member
    obtain ⟨first, -⟩ := List.nodup_cons.mp waiting.distinct
    have different : other.message.id ≠ entry.id := by
      rw [(waiting.parked inside).2]
      exact fun same => first (same ▸ List.mem_map_of_mem member)
    refine ⟨List.mem_map.mpr ⟨other.message, (waiting.held other inside).1, ?_⟩, (waiting.held other inside).2⟩
    rw [if_neg different]
  distinct := (List.nodup_cons.mp waiting.distinct).2

theorem Sound.releaseRows {due : List (Deferred (MessageRow U T) T)} (sound : channel.Sound)
    (waiting : channel.Waiting due) :
    (releaseRows due channel).2.Sound ∧
      (releaseRows due channel).2.retainedView = channel.retainedView ++ (releaseRows due channel).1 := by
  induction due generalizing channel with
  | nil => exact ⟨sound, (List.append_nil _).symm⟩
  | cons entry due ih =>
    have parked := waiting.parked List.mem_cons_self
    obtain ⟨soundNext, view⟩ := sound.releaseRow (waiting.held entry List.mem_cons_self).1
      (by rw [parked.1]; rfl)
    rw [parked.2] at soundNext view
    obtain ⟨soundAfter, viewAfter⟩ := ih soundNext waiting.releaseRow
    refine ⟨soundAfter, ?_⟩
    simp only [DbChannel.releaseRows, viewAfter, view, List.append_assoc, List.singleton_append]

/-- The row that a deferral section found still parked is the one under its id. -/
theorem Sound.parked_of_stillParked (sound : channel.Sound) {id now : Nat} (still : channel.stillParked id now)
    {row : MessageRow U T} (member : row ∈ channel.rows) (same : row.id = id) : row.deliverAfter.isSome := by
  obtain ⟨found, held, checked⟩ := List.any_eq_true.mp still
  obtain ⟨foundId, waiting⟩ := Bool.and_eq_true .. ▸ checked
  have here : found = row := List.inj_on_of_nodup_map sound.ids held member ((of_decide_eq_true foundId).trans same.symm)
  rw [here] at waiting
  cases released : row.deliverAfter with
  | none => simp [released] at waiting
  | some releaseAt => rfl

/-! ### Eviction -/

theorem Sound.newest_retained (sound : channel.Sound) :
    orderBy newestFirst (channel.rows.filterMap MessageRow.retained) = channel.retainedView.reverse := by
  have reversed : channel.retainedView.reverse.Pairwise newestFirst :=
    List.pairwise_reverse.mpr sound.retainedView_sorted
  exact orderBy_eq reversed ((List.reverse_perm _).trans channel.retainedView_perm)

theorem Sound.newest_rows (sound : channel.Sound) :
    (orderBy MessageRow.newestFirst (channel.rows.filter fun row => row.retainedSeq.isSome)).filterMap
      MessageRow.retained = channel.retainedView.reverse := by
  have seqs : (channel.rows.filterMap MessageRow.retained).Pairwise fun left right => left.seq ≠ right.seq :=
    channel.retainedView_perm.pairwise (sound.retainedView_sorted.imp fun older => Nat.ne_of_lt older) Ne.symm
  have apart : (channel.rows.filter fun row => row.retainedSeq.isSome).Pairwise fun left right =>
      left.newestFirst right ∨ right.newestFirst left := by
    refine ((List.pairwise_filterMap.mp seqs).filter _).imp_of_mem ?_
    intro left right leftHeld rightHeld different
    obtain ⟨first, firstSeq⟩ := Option.isSome_iff_exists.mp (List.mem_filter.mp leftHeld).2
    obtain ⟨second, secondSeq⟩ := Option.isSome_iff_exists.mp (List.mem_filter.mp rightHeld).2
    have distinct := different _ (by simp only [MessageRow.retained, firstSeq]; rfl) _
      (by simp only [MessageRow.retained, secondSeq]; rfl)
    simp only [MessageRow.newestFirst, firstSeq, secondSeq, Option.getD_some]
    simp only at distinct
    omega
  have ordered : ((orderBy MessageRow.newestFirst (channel.rows.filter fun row => row.retainedSeq.isSome)).filterMap
      MessageRow.retained).Pairwise newestFirst := by
    refine List.pairwise_filterMap.mpr ((pairwise_orderBy apart).imp ?_)
    intro left right newer first firstHeld second secondHeld
    obtain ⟨_, firstSeq, rfl⟩ := Option.map_eq_some_iff.mp firstHeld
    obtain ⟨_, secondSeq, rfl⟩ := Option.map_eq_some_iff.mp secondHeld
    simpa [MessageRow.newestFirst, newestFirst, firstSeq, secondSeq] using newer
  have same : ((orderBy MessageRow.newestFirst (channel.rows.filter fun row => row.retainedSeq.isSome)).filterMap
      MessageRow.retained).Perm (channel.rows.filterMap MessageRow.retained) := by
    refine ((orderBy_perm _).filterMap MessageRow.retained).trans (.of_eq ?_)
    rw [List.filterMap_filter]
    refine List.filterMap_congr fun row _ => ?_
    cases held : row.retainedSeq <;> simp [MessageRow.retained, held]
  rw [← orderBy_eq ordered same, sound.newest_retained]

/-- Eviction leaves the newest `keep` of retention and every unreleased row. -/
theorem Sound.evict (sound : channel.Sound) (keep : Nat) :
    (channel.busGcEvictChannel keep).2.Sound ∧ (channel.busGcEvictChannel keep).2.retainedView =
      channel.retainedView.drop (channel.retainedView.length - keep) := by
  have rowCount : (channel.rows.filter fun row => row.retainedSeq.isSome).length = channel.retainedView.length := by
    rw [channel.retainedView_perm.length_eq, List.length_filterMap_eq_countP, List.countP_eq_length_filter]
    simp [MessageRow.retained]
  simp only [busGcEvictChannel, rowCount]
  split
  next fits =>
    rw [Nat.sub_eq_zero_of_le fits]
    exact ⟨sound, rfl⟩
  next more =>
  generalize ordered : orderBy MessageRow.newestFirst (channel.rows.filter fun row => row.retainedSeq.isSome) = newest
  have held : ∀ row ∈ newest, row ∈ channel.rows ∧ row.retainedSeq.isSome := by
    intro row member
    rw [← ordered, mem_orderBy] at member
    exact List.mem_filter.mp member
  have kept : (newest.take keep).filterMap MessageRow.retained =
      (channel.retainedView.drop (channel.retainedView.length - keep)).reverse := by
    rw [take_filterMap fun row member => by simpa [MessageRow.retained] using (held row member).2, ← ordered,
      sound.newest_rows, List.take_reverse]
  have distinct : (newest.take keep).Nodup := by
    refine List.Nodup.sublist (List.take_sublist keep newest) ?_
    rw [← ordered, (orderBy_perm _).nodup_iff]
    exact sound.ids.of_map.filter _
  have chosen := filter_keys_perm sound.ids (fun row member => (held row (List.mem_of_mem_take member)).1) distinct
  have remaining (after : DbChannel U T S) (rows : after.rows = channel.rows.filter fun row =>
      !(row.retainedSeq.isSome && !((newest.take keep).map MessageRow.id).contains row.id)) :
      (channel.retainedView.drop (channel.retainedView.length - keep)).Perm
        (after.rows.filterMap MessageRow.retained) := by
    refine (List.reverse_perm _).symm.trans ?_
    rw [← kept]
    refine (chosen.filterMap MessageRow.retained).symm.trans (.of_eq ?_)
    rw [rows, List.filterMap_filter, List.filterMap_filter]
    refine List.filterMap_congr fun row _ => ?_
    cases seq : row.retainedSeq <;> simp [MessageRow.retained, seq]
  have numbered := sound.dense.drop (Nat.sub_le channel.retainedView.length keep)
  have view := retainedView_eq numbered (remaining { channel with rows := _ } rfl)
  refine ⟨⟨?_, ?_, ?_, ?_⟩, view⟩
  · intro row member
    exact sound.exclusive row (List.mem_filter.mp member).1
  · exact sound.ids.sublist (List.filter_sublist.map MessageRow.id)
  · rw [view, List.length_drop]
    exact Nat.le_trans (Nat.sub_le _ _) sound.counted
  · have counted := sound.counted
    rw [view, List.length_drop]
    rwa [show channel.lastRetainedSeq + 1 - (channel.retainedView.length - (channel.retainedView.length - keep)) =
      channel.lastRetainedSeq + 1 - channel.retainedView.length + (channel.retainedView.length - keep) by omega]

/-! ### The parked view -/

theorem parkedView_perm (channel : DbChannel U T S) :
    channel.parkedView.Perm (channel.rows.filterMap MessageRow.parked) := orderBy_perm _

theorem parkedView_eq {view : List (Deferred (MessageRow U T) T)} (sorted : view.Pairwise Deferred.Before)
    (same : view.Perm (channel.rows.filterMap MessageRow.parked)) : channel.parkedView = view :=
  orderBy_eq sorted same

theorem mem_parkedView {entry : Deferred (MessageRow U T) T} :
    entry ∈ channel.parkedView ↔ entry.message ∈ channel.rows ∧ entry.message.parked = some entry := by
  rw [channel.parkedView_perm.mem_iff, List.mem_filterMap]
  constructor
  · rintro ⟨row, member, parked⟩
    obtain ⟨_, _, rfl⟩ := Option.map_eq_some_iff.mp parked
    exact ⟨member, parked⟩
  · rintro ⟨member, parked⟩
    exact ⟨entry.message, member, parked⟩

theorem parkedView_ids (ids : (channel.rows.map MessageRow.id).Nodup) :
    (channel.parkedView.map Deferred.id).Nodup :=
  (channel.parkedView_perm.map Deferred.id).nodup_iff.mpr (parked_ids ids)

/-- The rows kept by a selection are parked as before. -/
theorem Sound.parkedView_filter (sound : channel.Sound) {keep : Deferred (MessageRow U T) T → Bool}
    (same : after.rows.filterMap MessageRow.parked = (channel.rows.filterMap MessageRow.parked).filter keep) :
    after.parkedView = channel.parkedView.filter keep := by
  rw [parkedView, same, orderBy_filter (parked_apart sound.ids)]
  rfl

theorem append_parkedView (rowId : Nat) (uuid : U) (message : NewMessage T) :
    (channel.append rowId uuid message).2.parkedView = channel.parkedView := by
  refine congrArg (orderBy Deferred.Before) ?_
  simp only [DbChannel.append, insertMessage, List.filterMap_append]
  exact List.append_nil _

theorem Sound.insertParked_parkedView (sound : channel.Sound) {rowId : Nat}
    (above : ∀ row ∈ channel.rows, row.id < rowId) (uuid : U) (message : NewMessage T) (releaseAt : Nat) :
    ∃ row : MessageRow U T, row.envelope = envelopeOf uuid message ∧
      (channel.insertMessage rowId uuid message (some releaseAt)).2.parkedView =
        insertBy Deferred.Before ⟨rowId, message.sender, releaseAt, row⟩ channel.parkedView := by
  refine ⟨⟨rowId, uuid, message.sender, message.body, message.urgency, message.deliveryDeadline, some releaseAt, none⟩,
    rfl, parkedView_eq (pairwise_insertBy sound.parkedView_sorted ?_) ?_⟩
  · intro entry member
    obtain ⟨held, parked⟩ := mem_parkedView.mp member
    obtain ⟨_, _, same⟩ := Option.map_eq_some_iff.mp parked
    refine Deferred.Before.apart ?_
    rw [← same]
    exact (above entry.message held).ne
  · refine (insertBy_perm _ _).trans ?_
    simp only [insertMessage, List.filterMap_append]
    exact (channel.parkedView_perm.cons _).trans (List.perm_append_singleton _ _).symm

theorem Sound.deleteRow_parkedView (sound : channel.Sound) (id : Nat) :
    (channel.deleteRow id).parkedView = channel.parkedView.filter fun entry => decide (entry.id ≠ id) := by
  refine sound.parkedView_filter ?_
  simp only [deleteRow, List.filterMap_filter, List.filter_filterMap]
  refine List.filterMap_congr fun row _ => ?_
  by_cases here : row.id = id <;> cases held : row.deliverAfter <;>
    simp [MessageRow.parked, Option.filter, here, held]

theorem Sound.releaseRow_parkedView (sound : channel.Sound) (id : Nat) :
    (channel.releaseRow id).parkedView = channel.parkedView.filter fun entry => decide (entry.id ≠ id) := by
  refine sound.parkedView_filter ?_
  simp only [DbChannel.releaseRow, List.filterMap_map, List.filter_filterMap]
  refine List.filterMap_congr fun row _ => ?_
  by_cases here : row.id = id <;> cases held : row.deliverAfter <;>
    simp [MessageRow.parked, MessageRow.released, Option.filter, here, held]

theorem Sound.rewriteRow_parkedView (sound : channel.Sound) {row : MessageRow U T} (held : row ∈ channel.rows)
    {due : Nat} (waiting : row.deliverAfter = some due) (body : Option T) (releaseAt : Option Nat) :
    (channel.rewriteRow row.id body releaseAt).parkedView = insertBy Deferred.Before
      ⟨row.id, row.sender, releaseAt.getD due, row.rewritten body releaseAt⟩
      (channel.parkedView.filter fun other => decide (other.id ≠ row.id)) := by
  refine parkedView_eq (pairwise_insertBy (sound.parkedView_sorted.filter _) ?_) ?_
  · intro other member
    exact Deferred.Before.apart (of_decide_eq_true (List.mem_filter.mp member).2)
  · have parked : (row.rewritten body releaseAt).parked =
        some ⟨row.id, row.sender, releaseAt.getD due, row.rewritten body releaseAt⟩ := by
      cases releaseAt <;> simp [MessageRow.parked, MessageRow.rewritten, waiting]
    refine (insertBy_perm _ _).trans (.trans ?_
      ((map_at_key_perm sound.ids held fun other => other.rewritten body releaseAt).filterMap MessageRow.parked).symm)
    rw [List.filterMap_cons_some parked, ← sound.deleteRow_parkedView]
    exact (parkedView_perm _).cons _

theorem Sound.releaseRows_parkedView {due : List (Deferred (MessageRow U T) T)} (sound : channel.Sound)
    (waiting : channel.Waiting due) : (DbChannel.releaseRows due channel).2.parkedView =
      channel.parkedView.filter fun entry => !(due.map Deferred.id).contains entry.id := by
  induction due generalizing channel with
  | nil => exact (List.filter_eq_self.mpr fun entry _ => rfl).symm
  | cons entry due ih =>
    have parked := waiting.parked List.mem_cons_self
    have soundNext := (sound.releaseRow (waiting.held entry List.mem_cons_self).1 (by rw [parked.1]; rfl)).1
    rw [parked.2] at soundNext
    simp only [DbChannel.releaseRows]
    rw [ih soundNext waiting.releaseRow, sound.releaseRow_parkedView, List.filter_filter]
    refine List.filter_congr fun other _ => ?_
    by_cases here : other.id = entry.id <;> simp [here]

theorem Sound.evict_parkedView (sound : channel.Sound) (keep : Nat) :
    (channel.busGcEvictChannel keep).2.parkedView = channel.parkedView := by
  simp only [busGcEvictChannel]
  split
  · rfl
  · refine congrArg (orderBy Deferred.Before) ?_
    rw [List.filterMap_filter]
    refine List.filterMap_congr fun row member => ?_
    -- a deleted row is retained, so it is not parked
    have exclusive := sound.exclusive row member
    cases seq : row.retainedSeq with
    | none => simp
    | some seq' =>
      have released : row.deliverAfter = none := by simpa [MessageRow.Exclusive, seq] using exclusive.symm
      simp [MessageRow.parked, released]

theorem Sound.deleteRow (sound : channel.Sound) {id now : Nat} (still : channel.stillParked id now) :
    (channel.deleteRow id).Sound ∧ (channel.deleteRow id).retainedView = channel.retainedView := by
  refine sound.filterRows fun row member released => ?_
  by_contra gone
  have here : row.id = id := by simpa using gone
  simpa [released] using sound.parked_of_stillParked still member here

theorem Sound.rewriteRow (sound : channel.Sound) {id now : Nat} (still : channel.stillParked id now)
    (body : Option T) (releaseAt : Option Nat) :
    (channel.rewriteRow id body releaseAt).Sound ∧
      (channel.rewriteRow id body releaseAt).retainedView = channel.retainedView := by
  refine sound.mapRows (fun row => ?_) (fun row member => ?_) fun row member => ?_
  · split <;> rfl
  · by_cases here : row.id = id
    · have unretained := (sound.exclusive row member).unretained (sound.parked_of_stillParked still member here)
      simp [here, MessageRow.retained, MessageRow.rewritten, unretained]
    · rw [if_neg here]
  · by_cases here : row.id = id
    · have parked := sound.parked_of_stillParked still member here
      have unretained := (sound.exclusive row member).unretained parked
      obtain ⟨due, waiting⟩ := Option.isSome_iff_exists.mp parked
      cases releaseAt <;> simp [here, MessageRow.Exclusive, MessageRow.rewritten, unretained, waiting]
    · rw [if_neg here]
      exact sound.exclusive row member

/-- Release touches neither the positions, nor the epoch, nor any uuid. -/
theorem releaseRows_frame (due : List (Deferred (MessageRow U T) T)) (channel : DbChannel U T S) :
    (releaseRows due channel).2.cursors = channel.cursors ∧
      (releaseRows due channel).2.resumeEpoch = channel.resumeEpoch ∧
      (releaseRows due channel).2.rows.map MessageRow.uuid = channel.rows.map MessageRow.uuid := by
  induction due generalizing channel with
  | nil => exact ⟨rfl, rfl, rfl⟩
  | cons entry due ih =>
    obtain ⟨cursors, epoch, uuids⟩ := ih (channel.releaseRow entry.id)
    refine ⟨cursors, epoch, uuids.trans ?_⟩
    rw [releaseRow, List.map_map]
    refine List.map_congr_left fun row _ => ?_
    simp only [Function.comp_apply]
    split <;> rfl

theorem rewriteRow_uuids (channel : DbChannel U T S) (id : Nat) (body : Option T) (releaseAt : Option Nat) :
    (channel.rewriteRow id body releaseAt).rows.map MessageRow.uuid = channel.rows.map MessageRow.uuid := by
  rw [rewriteRow, List.map_map]
  refine List.map_congr_left fun row _ => ?_
  simp only [Function.comp_apply]
  split <;> rfl

end Writes

end DbChannel

end Brenn.Store
