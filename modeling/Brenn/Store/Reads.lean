import Brenn.Store.Rows

/-!
What the reads of a durable channel return, in terms of its ordered views.

Every retention read is a cut of `retainedView`: the newest so many entries, or
those above a seq, which is the same thing because retention is dense.
-/

namespace Brenn.Store
open Brenn.Lib Brenn.Queue Std

universe u v w

variable {U : Type u} {T : Type v} {S : Type w} [LinearOrder S]

def newestOf {α : Type u} : Depth → List α → List α
  | .bounded n, xs => newest n xs
  | .unbounded, xs => xs

theorem reverse_limited_reverse {α : Type u} (limit : Depth) (xs : List α) :
    (limited limit xs.reverse).reverse = newestOf limit xs := by
  cases limit with
  | unbounded => simp [limited, newestOf]
  | bounded n => simp [limited, newestOf, newest, List.take_reverse]

theorem newestOf_newest {α : Type u} (limit : Depth) (n : Nat) (xs : List α) :
    newestOf limit (newest n xs) = newestOf (Depth.narrowedBy (.bounded n) limit) xs := by
  cases limit with
  | unbounded => rfl
  | bounded m => simp [newestOf, Depth.narrowedBy, Nat.min_comm]

namespace DbChannel

variable {channel : DbChannel U T S}

theorem Sound.read (sound : channel.Sound) (wanted : Nat → Bool) (limit : Depth) :
    channel.readRetained wanted limit =
      newestOf limit (channel.retainedView.filter fun entry => wanted entry.seq) := by
  have apart : (channel.rows.filterMap MessageRow.retained).Pairwise fun left right =>
      newestFirst left right ∨ newestFirst right left :=
    channel.retainedView_perm.pairwise (sound.retainedView_sorted.imp .inr) Or.symm
  rw [readRetained, orderBy_filter apart, sound.newest_retained, List.filter_reverse, reverse_limited_reverse]

theorem Sound.window_eq (sound : channel.Sound) (limit : Depth) :
    channel.loadChannelRetainedWindowSeq limit = newestOf limit channel.retainedView := by
  rw [loadChannelRetainedWindowSeq, sound.read]
  simp

/-- What lies at or above a seq is the newest of retention. -/
theorem Sound.filter_from (sound : channel.Sound) (seq : Nat) :
    channel.retainedView.filter (fun entry => decide (seq ≤ entry.seq)) =
      newest (channel.lastRetainedSeq + 1 - seq) channel.retainedView := by
  have counted := sound.counted
  rw [sound.dense.filter_newest, Nat.sub_add_cancel (by omega)]

theorem Sound.after_eq (sound : channel.Sound) (afterSeq : Nat) (clamp : Depth) :
    channel.loadChannelMessagesAfterSeq afterSeq clamp =
      newestOf clamp (newest (channel.lastRetainedSeq - afterSeq) channel.retainedView) := by
  rw [loadChannelMessagesAfterSeq, sound.read]
  have cut := sound.filter_from (afterSeq + 1)
  rw [Nat.add_sub_add_right] at cut
  exact congrArg (newestOf clamp) cut

theorem Sound.count_after (sound : channel.Sound) (afterSeq : Nat) :
    channel.channelRetainedCountAfterSeq afterSeq =
      min (channel.lastRetainedSeq - afterSeq) channel.retainedView.length := by
  have counted : channel.channelRetainedCountAfterSeq afterSeq =
      (channel.rows.filterMap MessageRow.retained).countP fun entry => decide (afterSeq < entry.seq) := by
    rw [channelRetainedCountAfterSeq, List.countP_filterMap]
    refine List.countP_congr fun row _ => ?_
    cases seq : row.retainedSeq <;> simp [MessageRow.retained, seq]
  have cut := sound.filter_from (afterSeq + 1)
  rw [Nat.add_sub_add_right] at cut
  rw [counted, ← channel.retainedView_perm.countP_eq, List.countP_eq_length_filter, ← length_newest, ← cut]
  rfl

theorem minSeq_reverse {first : Nat} {view : List (Retained (MessageEnvelope U T))}
    (numbered : Numbered Retained.seq first view) :
    (minSeq view.reverse).getD (first + view.length) = first := by
  cases view with
  | nil => rfl
  | cons entry rest =>
    obtain ⟨here, later⟩ := numbered_cons.mp numbered
    have least : minSeq (entry :: rest).reverse = some first := by
      refine List.min?_eq_some_iff.mpr ⟨?_, ?_⟩
      · simp [here]
      · intro seq member
        obtain ⟨other, inside, rfl⟩ := List.mem_map.mp member
        exact (numbered.key_bounds (List.mem_reverse.mp inside)).1
    rw [least]
    rfl

theorem Sound.primed_eq (sound : channel.Sound) (n : Nat) :
    channel.primedPosition (.bounded n) =
      channel.lastRetainedSeq + 1 - min n channel.retainedView.length := by
  have counted := sound.counted
  have numbered := sound.dense.newest n
  rw [Nat.sub_add_cancel (by omega), length_newest] at numbered
  have least := minSeq_reverse numbered
  rw [length_newest, Nat.sub_add_cancel (by omega)] at least
  rw [primedPosition, retainedTailFloorSeq, sound.newest_retained]
  simpa [limited, newest, List.take_reverse] using least

/-- The seqs of the retained rows are the run that ends at the high-water. -/
theorem Sound.retained_iff (sound : channel.Sound) (seq : Nat) :
    (∃ row ∈ channel.rows, row.retainedSeq = some seq) ↔
      channel.lastRetainedSeq + 1 - channel.retainedView.length ≤ seq ∧ seq ≤ channel.lastRetainedSeq := by
  have counted := sound.counted
  have listed : (∃ row ∈ channel.rows, row.retainedSeq = some seq) ↔ ∃ entry ∈ channel.retainedView, entry.seq = seq := by
    constructor
    · rintro ⟨row, member, held⟩
      refine ⟨⟨seq, row.envelope⟩, channel.retainedView_perm.mem_iff.mpr (List.mem_filterMap.mpr ⟨row, member, ?_⟩), rfl⟩
      simp [MessageRow.retained, held]
    · rintro ⟨entry, member, rfl⟩
      obtain ⟨row, inside, held⟩ := List.mem_filterMap.mp (channel.retainedView_perm.mem_iff.mp member)
      obtain ⟨_, found, rfl⟩ := Option.map_eq_some_iff.mp held
      exact ⟨row, inside, found⟩
  rw [listed, sound.dense.mem_keys]
  omega

theorem Sound.deferredRows_eq (sound : channel.Sound) (wanted : Deferred (MessageRow U T) T → Bool) :
    channel.deferredRows wanted = channel.parkedView.filter wanted :=
  orderBy_filter (parked_apart sound.ids) wanted

theorem countDeferred_eq (channel : DbChannel U T S) : channel.countDeferred = channel.parkedView.length := by
  rw [channel.parkedView_perm.length_eq, List.length_filterMap_eq_countP]
  simp [countDeferred, MessageRow.parked]

section Lookup

variable [DecidableEq U]

theorem lookupDeferred_of_mem (uuids : (channel.rows.map MessageRow.uuid).Nodup)
    {entry : Deferred (MessageRow U T) T} (member : entry ∈ channel.parkedView) :
    channel.lookupDeferred entry.message.uuid = some ⟨entry.id, entry.sender, entry.releaseAt⟩ := by
  obtain ⟨held, parked⟩ := mem_parkedView.mp member
  obtain ⟨before, after, split, elsewhere⟩ := split_at_key uuids held
  have skipped : before.findSome? (fun row => if row.uuid = entry.message.uuid then
      row.deliverAfter.map fun releaseAt => DeferredLookup.mk row.id row.sender releaseAt else none) = none := by
    refine List.findSome?_eq_none_iff.mpr fun row inside => ?_
    rw [if_neg (elsewhere row (List.mem_append_left after inside))]
  obtain ⟨releaseAt, waiting, same⟩ := Option.map_eq_some_iff.mp parked
  have chosen : (⟨entry.message.id, entry.message.sender, releaseAt⟩ : DeferredLookup T) =
      ⟨entry.id, entry.sender, entry.releaseAt⟩ := by
    have ids := congrArg Deferred.id same
    have senders := congrArg Deferred.sender same
    have times := congrArg Deferred.releaseAt same
    dsimp only at ids senders times
    rw [ids, senders, times]
  rw [lookupDeferred, split, List.findSome?_append, skipped, List.findSome?_cons, if_pos rfl, waiting, Option.map_some,
    chosen]
  rfl

theorem lookupDeferred_of_absent {messageUuid : U}
    (absent : ∀ entry ∈ channel.parkedView, entry.message.uuid ≠ messageUuid) :
    channel.lookupDeferred messageUuid = none := by
  refine List.findSome?_eq_none_iff.mpr fun row member => ?_
  by_cases here : row.uuid = messageUuid
  · cases waiting : row.deliverAfter with
    | none => simp [here]
    | some releaseAt =>
      have parked : row.parked = some ⟨row.id, row.sender, releaseAt, row⟩ := by simp [MessageRow.parked, waiting]
      exact absurd here (absent ⟨row.id, row.sender, releaseAt, row⟩ (mem_parkedView.mpr ⟨member, parked⟩))
  · rw [if_neg here]

omit [DecidableEq U] in
theorem stillParked_of_mem {entry : Deferred (MessageRow U T) T} (member : entry ∈ channel.parkedView) {now : Nat}
    (waits : now < entry.releaseAt) : channel.stillParked entry.id now = true := by
  obtain ⟨held, parked⟩ := mem_parkedView.mp member
  obtain ⟨releaseAt, waiting, same⟩ := Option.map_eq_some_iff.mp parked
  refine List.any_eq_true.mpr ⟨entry.message, held, ?_⟩
  rw [← same] at waits ⊢
  simpa [waiting] using waits

end Lookup

end DbChannel

end Brenn.Store
