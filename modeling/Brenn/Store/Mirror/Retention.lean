import Brenn.Store.Reads
import Brenn.Store.RingStore

/-!
What a ring retains beside a durable channel: the newest `depth` entries of the
durable rows, under the same seqs.

Every read that goes by depth sees the newest rows only, so it reads the same on both sides.
-/

namespace Brenn.Store
open Brenn.Lib Brenn.Queue Std

universe u v w x

variable {U : Type u} {T : Type v} {S : Type w} [LinearOrder S]

/-! ### Clamped replays -/

section Clamp

variable {M : Type u} {Ep : Type v} (epoch : Ep) (messages : List (Retained M))

theorem clampReplay_of_ne_exact {decision : ReplayDecision} (other : decision ≠ .exact) (limit : Depth) :
    clampReplay ⟨epoch, messages, decision⟩ limit = ⟨epoch, newestOf limit messages, decision⟩ := by
  cases limit with
  | unbounded => rfl
  | bounded n =>
    simp only [clampReplay, newestOf]
    split
    next fits => rw [newest_of_length_le fits]
    next => rfl

theorem clampReplay_exact_bounded (n : Nat) : clampReplay ⟨epoch, messages, .exact⟩ (.bounded n) =
    if messages.length ≤ n then ⟨epoch, messages, .exact⟩
    else ⟨epoch, newest n messages, .gap .beyondRetained⟩ := by
  simp only [clampReplay, newest, if_true]

end Clamp

/-! ### Retention -/

/-- The ring holds the newest `depth` of the durable rows, and those rows reach at least that far back. -/
structure Retains (depth : Nat) (channel : DbChannel U T S) (ring : RetainedRing (MessageEnvelope U T) U) :
    Prop where
  sound : channel.Sound
  positive : 0 < depth
  bound : ring.depth = depth
  cap : channel.deferredCap = .bounded depth
  epoch : ring.epoch = channel.resumeEpoch
  head : ring.nextSeq = channel.lastRetainedSeq + 1
  entries : ring.entries = newest depth channel.retainedView
  kept : min depth channel.lastRetainedSeq ≤ channel.retainedView.length

namespace Retains

variable {depth : Nat} {channel after : DbChannel U T S} {ring : RetainedRing (MessageEnvelope U T) U}

theorem start (epoch : U) (positive : 0 < depth) :
    Retains depth (DbChannel.new epoch (.bounded depth) : DbChannel U T S) (.new epoch depth) where
  sound := DbChannel.sound_new epoch _
  positive := positive
  bound := rfl
  cap := rfl
  epoch := rfl
  head := rfl
  entries := by simp [newest, DbChannel.retainedView, DbChannel.new, orderBy]
  kept := Nat.min_le_right _ _

theorem newestSeq (retains : Retains depth channel ring) : ring.newestSeq = channel.lastRetainedSeq := by
  have newest := ring.newestSeq_succ
  have head := retains.head
  omega

theorem length (retains : Retains depth channel ring) :
    ring.entries.length = min depth channel.lastRetainedSeq := by
  have counted := retains.sound.counted
  have kept := retains.kept
  rw [retains.entries, length_newest]
  omega

theorem grow (retains : Retains depth channel ring) {message : MessageEnvelope U T} (sound : after.Sound)
    (view : after.retainedView = channel.retainedView ++ [⟨channel.lastRetainedSeq + 1, message⟩])
    (last : after.lastRetainedSeq = channel.lastRetainedSeq + 1) (cap : after.deferredCap = channel.deferredCap)
    (epoch : after.resumeEpoch = channel.resumeEpoch) : Retains depth after (ring.append message).2 where
  sound := sound
  positive := retains.positive
  bound := by rw [ring.append_depth, retains.bound]
  cap := cap.trans retains.cap
  epoch := by rw [ring.append_epoch, retains.epoch, epoch]
  head := by rw [ring.append_nextSeq, retains.head, last]
  entries := by
    have cut : (ring.append message).2.entries = newest depth (ring.entries ++ [⟨ring.nextSeq, message⟩]) := by
      rw [ring.append_entries, retains.bound, newest, List.length_append, List.length_singleton]
    rw [cut, retains.entries, newest_snoc, view, retains.head]
  kept := by
    have kept := retains.kept
    rw [view, last, List.length_append, List.length_singleton]
    omega

theorem aside (retains : Retains depth channel ring) (sound : after.Sound)
    (view : after.retainedView = channel.retainedView) (last : after.lastRetainedSeq = channel.lastRetainedSeq)
    (cap : after.deferredCap = channel.deferredCap) (epoch : after.resumeEpoch = channel.resumeEpoch) :
    Retains depth after ring where
  sound := sound
  positive := retains.positive
  bound := retains.bound
  cap := cap.trans retains.cap
  epoch := retains.epoch.trans epoch.symm
  head := by rw [retains.head, last]
  entries := by rw [retains.entries, view]
  kept := by
    rw [view, last]
    exact retains.kept

theorem evict (retains : Retains depth channel ring) {keep : Nat} (enough : depth ≤ keep) :
    Retains depth (channel.busGcEvictChannel keep).2 ring := by
  obtain ⟨sound, view⟩ := retains.sound.evict keep
  have cut : (channel.busGcEvictChannel keep).2.retainedView = newest keep channel.retainedView := view
  have counted := retains.sound.counted
  have kept := retains.kept
  have same : (channel.busGcEvictChannel keep).2.lastRetainedSeq = channel.lastRetainedSeq ∧
      (channel.busGcEvictChannel keep).2.deferredCap = channel.deferredCap ∧
      (channel.busGcEvictChannel keep).2.resumeEpoch = channel.resumeEpoch := by
    simp only [DbChannel.busGcEvictChannel]
    split <;> exact ⟨rfl, rfl, rfl⟩
  refine ⟨sound, retains.positive, retains.bound, ?_, ?_, ?_, ?_, ?_⟩
  · rw [same.2.1, retains.cap]
  · rw [same.2.2, retains.epoch]
  · rw [same.1, retains.head]
  · rw [retains.entries, cut, newest_newest, Nat.min_eq_left enough]
  · rw [same.1, cut, length_newest]
    omega

/-! ### Reads by depth -/

theorem tail (retains : Retains depth channel ring) {n : Nat} (within : n ≤ depth) :
    ring.tail n = newest n channel.retainedView := by
  rw [ring.tail_eq, retains.entries]
  exact (newest_newest n depth _).trans (by rw [Nat.min_eq_left within])

theorem primed (retains : Retains depth channel ring) {n : Nat} (within : n ≤ depth) :
    (SubscriberCursor.primed ring n).nextOwed = channel.primedPosition (.bounded n) := by
  have counted := retains.sound.counted
  have kept := retains.kept
  have length := retains.length
  rw [primed_nextOwed, retains.sound.primed_eq, retains.head, length]
  omega

/-- A position trails something the durable rows retain exactly when it trails the high-water. -/
theorem owes (retains : Retains depth channel ring) (nextOwed : Nat) :
    (channel.rows.any fun row => row.retainedSeq.any fun seq => decide (nextOwed ≤ seq)) =
      (!ring.isEmpty && decide (ring.newestSeq ≥ nextOwed)) := by
  have counted := retains.sound.counted
  have kept := retains.kept
  have positive := retains.positive
  have length := retains.length
  have nonempty : (!ring.isEmpty) = decide (0 < channel.lastRetainedSeq) := by
    by_cases empty : ring.entries = []
    · have none : channel.lastRetainedSeq = 0 := by
        rw [empty, List.length_nil] at length
        omega
      simp [RetainedRing.isEmpty, empty, none]
    · have some : 0 < channel.lastRetainedSeq := by
        have := List.length_pos_iff.mpr empty
        omega
      simp [RetainedRing.isEmpty, empty, some]
  rw [nonempty, retains.newestSeq, Bool.eq_iff_iff]
  simp only [List.any_eq_true, Option.any_eq_true, decide_eq_true_eq, Bool.and_eq_true]
  constructor
  · rintro ⟨row, member, seq, held, owed⟩
    have bounds := (retains.sound.retained_iff seq).mp ⟨row, member, held⟩
    omega
  · rintro ⟨some, owed⟩
    -- the newest row is retained, whatever eviction has done
    obtain ⟨row, member, held⟩ := (retains.sound.retained_iff channel.lastRetainedSeq).mpr (by omega)
    exact ⟨row, member, _, held, owed⟩

theorem since (retains : Retains depth channel ring) {seq : Nat} (trailing : seq < channel.lastRetainedSeq)
    (covered : channel.lastRetainedSeq - seq ≤ depth) :
    ring.since seq = newest (channel.lastRetainedSeq - seq) channel.retainedView := by
  have length := retains.length
  have head := retains.head
  have offset : ring.offsetAfter seq = ring.entries.length - (channel.lastRetainedSeq - seq) := by
    unfold RetainedRing.offsetAfter
    cases front : ring.entries.head? with
    | none =>
      have empty := List.head?_eq_none_iff.mp front
      simp [empty]
    | some oldest =>
      have number := ring.dense.key_head front
      simp only
      omega
  rw [RetainedRing.since, offset, retains.entries]
  exact (newest_newest _ depth _).trans (by rw [Nat.min_eq_left covered])

/-- Whether the ring's front edge reaches down to a trailing position. -/
theorem replay_trailing [DecidableEq U] (retains : Retains depth channel ring) {cursor : Resume U}
    (same : cursor.epoch = channel.resumeEpoch) (trailing : cursor.seq < channel.lastRetainedSeq) :
    ring.replay (some cursor) =
      if channel.lastRetainedSeq - cursor.seq ≤ depth then
        ⟨newest (channel.lastRetainedSeq - cursor.seq) channel.retainedView, .exact⟩
      else ⟨newest depth channel.retainedView, .gap .beyondRetained⟩ := by
  have length := retains.length
  have head := retains.head
  have newestSeq := retains.newestSeq
  have sameRing : cursor.epoch = ring.epoch := same.trans retains.epoch.symm
  simp only [RetainedRing.replay, sameRing, newestSeq]
  rw [if_neg (by simp), if_neg (by omega), if_neg (by omega)]
  cases front : ring.entries.head? with
  | none =>
    have positive := retains.positive
    have empty := List.head?_eq_none_iff.mp front
    rw [empty, List.length_nil] at length
    omega
  | some oldest =>
    have number := ring.dense.key_head front
    simp only
    by_cases covered : channel.lastRetainedSeq - cursor.seq ≤ depth
    · rw [if_pos (by omega), if_pos covered, retains.since trailing covered]
    · rw [if_neg (by omega), if_neg covered, retains.entries]

/-- Clamping the ring's replay gives the durable store's, for every position and every limit. -/
theorem replay [DecidableEq U] (retains : Retains depth channel ring) (cursor : Option (Resume U)) (limit : Depth) :
    clampReplay ⟨channel.resumeEpoch, (ring.replay cursor).messages, (ring.replay cursor).decision⟩ limit =
      channel.replayFrom cursor limit := by
  have kept := retains.kept
  have cut := newestOf_newest limit depth channel.retainedView
  cases cursor with
  | none =>
    simp only [RetainedRing.replay, DbChannel.replayFrom, retains.cap, retains.sound.window_eq]
    rw [clampReplay_of_ne_exact _ _ (by simp), retains.entries, cut]
  | some cursor =>
    simp only [DbChannel.replayFrom, retains.cap, retains.sound.window_eq]
    by_cases same : cursor.epoch = channel.resumeEpoch
    swap
    · simp only [RetainedRing.replay, retains.epoch, same, ne_eq, not_false_eq_true, if_true]
      rw [clampReplay_of_ne_exact _ _ (by simp), retains.entries, cut]
    rw [if_neg (not_not.mpr same)]
    rcases Nat.lt_trichotomy cursor.seq channel.lastRetainedSeq with trailing | level | ahead
    · -- behind the high-water: an exact suffix exactly when all of it fits both caps
      rw [if_neg (by omega), if_neg (by omega), retains.replay_trailing same trailing, retains.sound.count_after,
        retains.sound.after_eq]
      by_cases covered : channel.lastRetainedSeq - cursor.seq ≤ depth
      · have present : min (channel.lastRetainedSeq - cursor.seq) channel.retainedView.length =
            channel.lastRetainedSeq - cursor.seq := by omega
        simp only [if_pos covered, present, true_and]
        cases limit with
        | unbounded => simp [clampReplay, Depth.narrowedBy, newestOf, covered]
        | bounded n =>
          rw [clampReplay_exact_bounded, length_newest, present]
          by_cases fits : channel.lastRetainedSeq - cursor.seq ≤ n
          · simp [Depth.narrowedBy, newestOf, covered, fits]
          · have narrow : min n (channel.lastRetainedSeq - cursor.seq) = min depth n := by omega
            simp [Depth.narrowedBy, newestOf, fits, narrow]
      · simp only [if_neg covered]
        rw [clampReplay_of_ne_exact _ _ (by simp), cut, if_neg]
        rintro ⟨-, fits⟩
        cases limit <;> simp [Depth.narrowedBy, covered] at fits
    · have upToDate : ring.replay (some cursor) = ⟨[], .upToDate⟩ := by
        simp [RetainedRing.replay, retains.epoch, same, retains.newestSeq, level]
      rw [if_pos level, upToDate, clampReplay_of_ne_exact _ _ (by simp)]
      cases limit <;> simp [newestOf, newest]
    · rw [if_neg (by omega), if_pos ahead]
      simp only [RetainedRing.replay, retains.epoch, same, retains.newestSeq, ahead, ne_eq,
        not_true_eq_false, if_false, if_true]
      rw [clampReplay_of_ne_exact _ _ (by simp), retains.entries, cut]

theorem releaseRows (core : RingCore (MessageEnvelope U T) U S T) (retains : Retains depth channel core.ring)
    {due : List (Deferred (MessageRow U T) T)} {queued : List (Deferred (MessageEnvelope U T) T)}
    (waiting : channel.Waiting due) (same : due.map (fun entry => entry.message.envelope) = queued.map Deferred.message)
    (report : ReleaseReport (MessageEnvelope U T) S) :
    Retains depth (DbChannel.releaseRows due channel).2 (core.enterDue queued report).2.ring ∧
      (core.enterDue queued report).1.released = report.released ++ (DbChannel.releaseRows due channel).1 := by
  induction due generalizing channel core queued report with
  | nil =>
    obtain rfl : queued = [] := by simpa using same.symm
    exact ⟨retains, (List.append_nil _).symm⟩
  | cons entry due ih =>
    cases queued with
    | nil => simp at same
    | cons first queued =>
      obtain ⟨here, later⟩ : entry.message.envelope = first.message ∧
          due.map (fun entry => entry.message.envelope) = queued.map Deferred.message := by simpa using same
      have parked := waiting.parked List.mem_cons_self
      obtain ⟨sound, view⟩ := retains.sound.releaseRow (waiting.held entry List.mem_cons_self).1
        (by rw [parked.1]; rfl)
      rw [parked.2] at sound view
      have next : Retains depth (channel.releaseRow entry.id) (core.append first.message).2.ring := by
        rw [core.append_ring, ← here]
        exact retains.grow sound view rfl rfl rfl
      obtain ⟨held, released⟩ := ih (core.append first.message).2 next waiting.releaseRow later
        { released := report.released ++ [⟨(core.append first.message).1.seq, first.message⟩]
          overflow := mergeOverflow report.overflow (core.append first.message).1.overflow }
      refine ⟨held, ?_⟩
      simp only [RingCore.enterDue, DbChannel.releaseRows]
      rw [released, List.append_assoc, List.singleton_append, core.append_seq, retains.head, here]

end Retains

/-! ### Overflow is charged to positions that are held -/

section Overflow

variable {M : Type u} {Ep : Type v} {P : Type x}

theorem mem_addOverflow {event charged : CursorOverflow S} {into : List (CursorOverflow S)}
    (member : charged ∈ addOverflow event into) :
    charged.subscriber = event.subscriber ∨ ∃ old ∈ into, old.subscriber = charged.subscriber := by
  induction into with
  | nil => exact .inl (by rw [List.mem_singleton.mp member])
  | cons existing rest ih =>
    unfold addOverflow at member
    split at member
    · rcases List.mem_cons.mp member with rfl | old
      · exact .inr ⟨existing, List.mem_cons_self, rfl⟩
      · exact .inr ⟨charged, List.mem_cons_of_mem existing old, rfl⟩
    · rcases List.mem_cons.mp member with rfl | inside
      · exact .inr ⟨charged, List.mem_cons_self, rfl⟩
      · rcases ih inside with same | ⟨old, held, same⟩
        · exact .inl same
        · exact .inr ⟨old, List.mem_cons_of_mem existing held, same⟩

/-- Every event of a batch names a subscriber that holds a position. -/
def Charges (cursors : TreeMap S SubscriberCursor) (overflow : List (CursorOverflow S)) : Prop :=
  ∀ event ∈ overflow, cursors[event.subscriber]?.isSome

theorem Charges.merge {cursors : TreeMap S SubscriberCursor} {into more : List (CursorOverflow S)}
    (old : Charges cursors into) (new : Charges cursors more) : Charges cursors (mergeOverflow into more) := by
  induction more generalizing into with
  | nil => exact old
  | cons event more ih =>
    refine ih ?_ fun other member => new other (List.mem_cons_of_mem event member)
    intro charged member
    rcases mem_addOverflow member with same | ⟨earlier, held, same⟩
    · rw [same]
      exact new event List.mem_cons_self
    · rw [← same]
      exact old earlier held

theorem charges_append (core : RingCore M Ep S P) (message : M) : Charges core.cursors (core.append message).1.overflow := by
  intro event member
  simp only [RingCore.append] at member
  split at member
  · simp at member
  · obtain ⟨⟨subscriber, cursor⟩, walked, found⟩ := List.mem_filterMap.mp member
    have held : core.cursors[subscriber]? = some cursor := TreeMap.mem_toList_iff_getElem?_eq_some.mp walked
    simp only at found
    split at found
    · obtain rfl := Option.some.inj found
      simp [held]
    · cases found

theorem charges_enterDue {core : RingCore M Ep S P} {due : List (Deferred M P)} {report : ReleaseReport M S}
    (old : Charges core.cursors report.overflow) : Charges core.cursors (core.enterDue due report).1.overflow := by
  induction due generalizing core report with
  | nil => exact old
  | cons entry due ih =>
    have merged := old.merge (charges_append core entry.message)
    have rest := @ih (core.append entry.message).2
      { released := report.released ++ [⟨(core.append entry.message).1.seq, entry.message⟩]
        overflow := mergeOverflow report.overflow (core.append entry.message).1.overflow }
    rw [core.append_cursors] at rest
    exact rest merged

theorem charges_releaseDue (core : RingCore M Ep S P) (now : Nat) :
    Charges core.cursors (core.releaseDue now).1.overflow :=
  @charges_enterDue _ _ _ _ _ { core with deferred := (core.deferred.releaseDue now).2 } _ ⟨[], []⟩
    fun _ member => nomatch member

theorem overflowEvents_of_charges {appSlugs : TreeMap S T} {overflow : List (CursorOverflow S)}
    (named : ∀ event ∈ overflow, appSlugs[event.subscriber]?.isSome) :
    ∃ events, RingStore.overflowEvents appSlugs overflow = some events := by
  induction overflow with
  | nil => exact ⟨[], rfl⟩
  | cons event rest ih =>
    obtain ⟨events, found⟩ := ih fun other member => named other (List.mem_cons_of_mem event member)
    obtain ⟨slug, held⟩ := Option.isSome_iff_exists.mp (named event List.mem_cons_self)
    exact ⟨_, by simp only [RingStore.overflowEvents, held, found]; rfl⟩

end Overflow

end Brenn.Store
