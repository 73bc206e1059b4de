import Brenn.Store.Mirror.Positions

/-!
Who is owed something, and what is at stake for them.

The durable fold of urgency and deadline runs over every row not evicted yet, the ring's over the
entries it holds. They agree exactly while those entries outweigh the rows the ring has let go.
-/

namespace Brenn.Store
open Brenn.Lib Brenn.Queue Std

universe u v w

variable {U : Type u} {T : Type v} {S : Type w} [LinearOrder S]

theorem Urgency.rank_injective {a b : Urgency} (same : a.rank = b.rank) : a = b := by
  cases a <;> cases b <;> simp [Urgency.rank] at same ⊢

theorem Urgency.rank_max (a b : Urgency) : (a.max b).rank = a.rank ⊔ b.rank := by
  unfold Urgency.max
  split <;> omega

/-- `deadline` is at least as early as `other`, an absent one being the latest. -/
def NoLater (deadline other : Option Nat) : Prop := soonest deadline other = deadline

instance (deadline other : Option Nat) : Decidable (NoLater deadline other) :=
  inferInstanceAs (Decidable (soonest deadline other = deadline))

theorem noLater_antisymm {a b : Option Nat} (left : NoLater a b) (right : NoLater b a) : a = b := by
  cases a <;> cases b <;> simp_all [NoLater, soonest]

theorem noLater_soonest_left (a b : Option Nat) : NoLater (soonest a b) a := by
  cases a <;> cases b <;> simp [NoLater, soonest]

theorem noLater_soonest_right (a b : Option Nat) : NoLater (soonest a b) b := by
  cases a <;> cases b <;> simp [NoLater, soonest]

theorem NoLater.trans {a b c : Option Nat} (first : NoLater a b) (second : NoLater b c) : NoLater a c := by
  cases a <;> cases b <;> cases c <;> simp_all [NoLater, soonest]
  omega

theorem soonest_eq (a b : Option Nat) : soonest a b = a ∨ soonest a b = b := by
  cases a with
  | none => exact .inr rfl
  | some a =>
    cases b with
    | none => exact .inl rfl
    | some b =>
      rcases Nat.le_total a b with le | le
      · exact .inl (by simp [soonest, le])
      · exact .inr (by simp [soonest, le])

/-- `urgency` is the loudest of some messages and `deadline` the earliest of theirs. -/
structure Stakes (messages : List (Urgency × Option Nat)) (urgency : Urgency) (deadline : Option Nat) : Prop where
  loudest : ∀ message ∈ messages, message.1.rank ≤ urgency.rank
  voiced : ∃ message ∈ messages, message.1 = urgency
  earliest : ∀ message ∈ messages, NoLater deadline message.2
  dated : ∃ message ∈ messages, message.2 = deadline

namespace Stakes

variable {messages others : List (Urgency × Option Nat)} {urgency otherUrgency : Urgency}
  {deadline otherDeadline : Option Nat}

theorem single (message : Urgency × Option Nat) : Stakes [message] message.1 message.2 := by
  refine ⟨?_, ⟨message, List.mem_singleton_self _, rfl⟩, ?_, ⟨message, List.mem_singleton_self _, rfl⟩⟩
  · rintro other member
    rw [List.mem_singleton.mp member]
  · rintro other member
    rw [List.mem_singleton.mp member]
    cases message.2 <;> simp [NoLater, soonest]

theorem cons (stakes : Stakes messages urgency deadline) (message : Urgency × Option Nat) :
    Stakes (message :: messages) (urgency.max message.1) (soonest deadline message.2) where
  loudest other member := by
    rw [Urgency.rank_max]
    rcases List.mem_cons.mp member with rfl | old
    · exact Nat.le_max_right _ _
    · exact Nat.le_trans (stakes.loudest other old) (Nat.le_max_left _ _)
  voiced := by
    unfold Urgency.max
    split
    · exact ⟨message, List.mem_cons_self, rfl⟩
    · obtain ⟨other, old, same⟩ := stakes.voiced
      exact ⟨other, List.mem_cons_of_mem _ old, same⟩
  earliest other member := by
    rcases List.mem_cons.mp member with rfl | old
    · exact noLater_soonest_right _ _
    · exact (noLater_soonest_left _ _).trans (stakes.earliest other old)
  dated := by
    rcases soonest_eq deadline message.2 with same | same
    · obtain ⟨other, old, held⟩ := stakes.dated
      exact ⟨other, List.mem_cons_of_mem _ old, held.trans same.symm⟩
    · exact ⟨message, List.mem_cons_self, same.symm⟩

theorem congr (stakes : Stakes messages urgency deadline) (same : ∀ message, message ∈ messages ↔ message ∈ others) :
    Stakes others urgency deadline := by
  obtain ⟨loudest, ⟨loud, loudHeld, voiced⟩, earliest, ⟨early, earlyHeld, dated⟩⟩ := stakes
  exact ⟨fun message member => loudest message ((same message).mpr member), ⟨loud, (same loud).mp loudHeld, voiced⟩,
    fun message member => earliest message ((same message).mpr member), ⟨early, (same early).mp earlyHeld, dated⟩⟩

/-- More messages are at least as loud and due at least as early. -/
theorem mono (stakes : Stakes messages urgency deadline) (more : Stakes others otherUrgency otherDeadline)
    (inside : ∀ message ∈ messages, message ∈ others) :
    urgency.rank ≤ otherUrgency.rank ∧ NoLater otherDeadline deadline := by
  obtain ⟨loud, loudHeld, rfl⟩ := stakes.voiced
  obtain ⟨early, earlyHeld, rfl⟩ := stakes.dated
  exact ⟨more.loudest loud (inside loud loudHeld), more.earliest early (inside early earlyHeld)⟩

end Stakes

/-- Every message is matched among the newest by one as loud and by one due as early. -/
def Outweighs (newest messages : List (Urgency × Option Nat)) : Prop :=
  ∀ message ∈ messages, (∃ other ∈ newest, message.1.rank ≤ other.1.rank) ∧ ∃ other ∈ newest, NoLater other.2 message.2

/-- Some of the messages put the same at stake as all of them if and only if they outweigh the rest. -/
theorem Stakes.eq_iff_outweighs {messages newest : List (Urgency × Option Nat)} {urgency newestUrgency : Urgency}
    {deadline newestDeadline : Option Nat} (all : Stakes messages urgency deadline)
    (some : Stakes newest newestUrgency newestDeadline) (inside : ∀ message ∈ newest, message ∈ messages) :
    urgency = newestUrgency ∧ deadline = newestDeadline ↔ Outweighs newest messages := by
  constructor
  · rintro ⟨rfl, rfl⟩ message member
    obtain ⟨loud, loudHeld, voiced⟩ := some.voiced
    obtain ⟨early, earlyHeld, dated⟩ := some.dated
    exact ⟨⟨loud, loudHeld, voiced ▸ all.loudest message member⟩, early, earlyHeld, dated ▸ all.earliest message member⟩
  · intro outweighs
    obtain ⟨below, later⟩ := some.mono all inside
    obtain ⟨loud, loudHeld, rfl⟩ := all.voiced
    obtain ⟨early, earlyHeld, rfl⟩ := all.dated
    obtain ⟨other, held, louder⟩ := (outweighs loud loudHeld).1
    obtain ⟨sooner, kept, earlier⟩ := (outweighs early earlyHeld).2
    exact ⟨Urgency.rank_injective (Nat.le_antisymm (Nat.le_trans louder (some.loudest other held)) below),
      noLater_antisymm later ((some.earliest sooner kept).trans earlier)⟩

/-! ### The folds of each store -/

def stakeOf (message : MessageEnvelope U T) : Urgency × Option Nat := (message.urgency, message.deliveryDeadline)

def stakesFrom (nextOwed : Nat) (retained : List (Retained (MessageEnvelope U T))) : List (Urgency × Option Nat) :=
  (retained.filter fun entry => decide (nextOwed ≤ entry.seq)).map fun entry => stakeOf entry.message

theorem stakes_foldl {messages : List (Urgency × Option Nat)} {urgency : Urgency} {deadline : Option Nat}
    (stakes : Stakes messages urgency deadline) (rows : List (MessageRow U T)) :
    Stakes (messages ++ rows.map fun row => stakeOf row.envelope)
      (rows.foldl (fun loudest row => loudest.max row.urgency) urgency)
      (rows.foldl (fun earliest row => soonest earliest row.deliveryDeadline) deadline) := by
  induction rows generalizing messages urgency deadline with
  | nil => simpa using stakes
  | cons row rows ih =>
    refine (ih (stakes.cons (stakeOf row.envelope))).congr fun message => ?_
    simp only [List.cons_append, List.mem_cons, List.mem_append, List.map_cons]
    tauto

/-- The first of the suffix folds is over everything, the others are those of the rest. -/
theorem suffixFolds_cons (entry : Retained (MessageEnvelope U T)) (rest : List (Retained (MessageEnvelope U T))) :
    ∃ urgency deadline, suffixFolds (entry :: rest) = (urgency, deadline) :: suffixFolds rest ∧
      Stakes ((entry :: rest).map fun entry => stakeOf entry.message) urgency deadline := by
  induction rest generalizing entry with
  | nil => exact ⟨_, _, rfl, .single (stakeOf entry.message)⟩
  | cons second rest ih =>
    obtain ⟨urgency, deadline, folds, stakes⟩ := ih second
    refine ⟨_, _, ?_, stakes.cons (stakeOf entry.message)⟩
    rw [suffixFolds, folds]
    rfl

theorem suffixFolds_at {retained : List (Retained (MessageEnvelope U T))} {first : Nat} (inside : first < retained.length) :
    ∃ urgency deadline, (suffixFolds retained)[first]? = some (urgency, deadline) ∧
      Stakes ((retained.drop first).map fun entry => stakeOf entry.message) urgency deadline := by
  induction retained generalizing first with
  | nil => simp at inside
  | cons entry rest ih =>
    obtain ⟨urgency, deadline, folds, stakes⟩ := suffixFolds_cons entry rest
    rw [folds]
    cases first with
    | zero => exact ⟨urgency, deadline, rfl, stakes⟩
    | succ first => exact ih (Nat.lt_of_succ_lt_succ inside)

/-- The rows a position trails put at stake what its stretch of retention does. -/
theorem mem_trailed (channel : DbChannel U T S) (nextOwed : Nat) (message : Urgency × Option Nat) :
    message ∈ ((channel.rows.filter fun row => row.retainedSeq.any fun seq => decide (nextOwed ≤ seq)).map
        fun row => stakeOf row.envelope) ↔
      message ∈ stakesFrom nextOwed channel.retainedView := by
  simp only [stakesFrom, List.mem_map, List.mem_filter, channel.retainedView_perm.mem_iff, List.mem_filterMap,
    MessageRow.retained, Option.map_eq_some_iff, Option.any_eq_true, decide_eq_true_eq]
  constructor
  · rintro ⟨row, ⟨held, seq, numbered, owed⟩, same⟩
    exact ⟨⟨seq, row.envelope⟩, ⟨⟨row, held, seq, numbered, rfl⟩, owed⟩, same⟩
  · rintro ⟨entry, ⟨⟨row, held, seq, numbered, rfl⟩, owed⟩, same⟩
    exact ⟨row, ⟨held, seq, numbered, owed⟩, same⟩

section Subscribers

variable {depth : Nat} {channel : DbChannel U T S} {store : RingStore U T S}

theorem ring_stakes (ring : RetainedRing (MessageEnvelope U T) U) {nextOwed : Nat}
    (owed : (!ring.isEmpty && decide (ring.newestSeq ≥ nextOwed)) = true) :
    ∃ urgency deadline, (suffixFolds ring.entries)[(ring.entries.takeWhile
        fun entry => decide (entry.seq < nextOwed)).length]? = some (urgency, deadline) ∧
      Stakes (stakesFrom nextOwed ring.entries) urgency deadline := by
  obtain ⟨-, rest⟩ := takeWhile_eq_filter ring.dense.pairwise
    (show ∀ x y : Retained (MessageEnvelope U T), x.seq < y.seq → decide (y.seq < nextOwed) = true →
        decide (x.seq < nextOwed) = true by
      intro x y before passed
      have passed := of_decide_eq_true passed
      exact decide_eq_true (by omega))
  have cut := (take_drop_takeWhile (fun entry => decide (entry.seq < nextOwed)) ring.entries).2.trans rest
  have trailed : (ring.entries.filter fun entry => !decide (entry.seq < nextOwed)) =
      ring.entries.filter fun entry => decide (nextOwed ≤ entry.seq) := by
    refine List.filter_congr fun entry _ => ?_
    rw [Bool.eq_iff_iff, Bool.not_eq_true', decide_eq_false_iff_not, decide_eq_true_eq, Nat.not_lt]
  rw [trailed] at cut
  -- the newest entry is trailed, so the cut lies inside the ring
  have inside : (ring.entries.takeWhile fun entry => decide (entry.seq < nextOwed)).length < ring.entries.length := by
    obtain ⟨filled, newest⟩ := (Bool.and_eq_true _ _).mp owed
    have nonempty : ring.entries ≠ [] := by simpa [RetainedRing.isEmpty] using filled
    have last := ring.dense.key_last (List.getLast?_eq_some_getLast nonempty)
    have newestSeq := ring.newestSeq_succ
    have counted := ring.counted
    have trails := of_decide_eq_true newest
    refine Nat.lt_of_not_le fun beyond => ?_
    rw [List.drop_eq_nil_of_le beyond] at cut
    have absent := List.filter_eq_nil_iff.mp cut.symm _ (List.getLast_mem nonempty)
    have := List.length_pos_iff.mpr nonempty
    exact absent (decide_eq_true (by omega))
  obtain ⟨urgency, deadline, found, stakes⟩ := suffixFolds_at inside
  rw [cut] at stakes
  exact ⟨urgency, deadline, found, stakes⟩

/-- The ring holds exactly the retained messages whose seq is one of the newest `depth`. -/
theorem Retains.mem_entries {ring : RetainedRing (MessageEnvelope U T) U} (retains : Retains depth channel ring)
    {entry : Retained (MessageEnvelope U T)} :
    entry ∈ ring.entries ↔ entry ∈ channel.retainedView ∧ channel.lastRetainedSeq < entry.seq + depth := by
  have counted := retains.sound.counted
  have cut := retains.sound.filter_from (channel.lastRetainedSeq + 1 - depth)
  have same : ring.entries = channel.retainedView.filter
      fun entry => decide (channel.lastRetainedSeq + 1 - depth ≤ entry.seq) := by
    rw [retains.entries, cut]
    by_cases deep : depth ≤ channel.lastRetainedSeq + 1
    · rw [show channel.lastRetainedSeq + 1 - (channel.lastRetainedSeq + 1 - depth) = depth by omega]
    · rw [newest_of_length_le (by omega), newest_of_length_le (by omega)]
  rw [same, List.mem_filter, decide_eq_true_eq]
  refine and_congr_right fun _ => ?_
  omega

/-- What a position trails among the newest `depth` rows outweighs what it trails in all. -/
def Outweighed (depth : Nat) (channel : DbChannel U T S) : Prop :=
  ∀ entry ∈ channel.cursors.toList,
    Outweighs (stakesFrom (max entry.2.nextOwedSeq (channel.lastRetainedSeq + 1 - depth)) channel.retainedView)
      (stakesFrom entry.2.nextOwedSeq channel.retainedView)

instance (depth : Nat) (channel : DbChannel U T S) : Decidable (Outweighed depth channel) :=
  inferInstanceAs (Decidable (∀ entry ∈ _, ∀ message ∈ _, (∃ other ∈ _, _ ≤ _) ∧ ∃ other ∈ _, NoLater _ _))

/-- A position has at stake in the ring what it trails among the newest rows. -/
theorem Retains.mem_stakesFrom {ring : RetainedRing (MessageEnvelope U T) U} (retains : Retains depth channel ring)
    (nextOwed : Nat) (message : Urgency × Option Nat) :
    message ∈ stakesFrom nextOwed ring.entries ↔
      message ∈ stakesFrom (max nextOwed (channel.lastRetainedSeq + 1 - depth)) channel.retainedView := by
  simp only [stakesFrom, List.mem_map, List.mem_filter, decide_eq_true_eq, retains.mem_entries]
  refine exists_congr fun entry => and_congr_left fun _ => ?_
  rw [and_assoc]
  refine and_congr_right fun _ => ?_
  omega

/-- The two stores' answers about one subscriber. Each folds over what it holds of the messages
    the position trails. -/
structure OwedAlike (depth : Nat) (channel : DbChannel U T S) (durable inRing : DeliverableSubscriber S T) : Prop where
  subscriber : durable.subscriber = inRing.subscriber
  appSlug : durable.appSlug = inRing.appSlug
  folds : ∃ cursor, channel.cursors[durable.subscriber]? = some cursor ∧
    Stakes (stakesFrom cursor.nextOwedSeq channel.retainedView) durable.maxUnseenUrgency
      durable.earliestUnseenDeadline ∧
    Stakes (stakesFrom (max cursor.nextOwedSeq (channel.lastRetainedSeq + 1 - depth)) channel.retainedView)
      inRing.maxUnseenUrgency inRing.earliestUnseenDeadline

theorem mem_stakesFrom_max (nextOwed floor : Nat) (retained : List (Retained (MessageEnvelope U T))) :
    ∀ message ∈ stakesFrom (max nextOwed floor) retained, message ∈ stakesFrom nextOwed retained := by
  simp only [stakesFrom, List.mem_map, List.mem_filter, decide_eq_true_eq]
  rintro message ⟨entry, ⟨held, owed⟩, same⟩
  exact ⟨entry, ⟨held, Nat.le_trans (Nat.le_max_left _ _) owed⟩, same⟩

/-- The rows a position trails, folded as the durable store folds them. -/
theorem durable_stakes {nextOwed : Nat} {row : MessageRow U T} {rest : List (MessageRow U T)}
    (trailed : (channel.rows.filter fun row => row.retainedSeq.any fun seq => decide (nextOwed ≤ seq)) = row :: rest) :
    Stakes (stakesFrom nextOwed channel.retainedView)
      (rest.foldl (fun loudest row => loudest.max row.urgency) row.urgency)
      (rest.foldl (fun earliest row => soonest earliest row.deliveryDeadline) row.deliveryDeadline) := by
  refine (stakes_foldl (.single (stakeOf row.envelope)) rest).congr fun message => ?_
  have listed := mem_trailed channel nextOwed message
  rw [trailed] at listed
  exact listed

/-- Both stores name the subscribers that trail something, each once. -/
theorem owed_mirror (holds : Holds channel.cursors store.core.cursors store.appSlugs)
    (retains : Retains depth channel store.core.ring) :
    ∃ both : List (DeliverableSubscriber S T × DeliverableSubscriber S T),
      channel.deliverableCursorSubscribers = both.map Prod.fst ∧
      store.deliverableSubscribers = some (both.map Prod.snd) ∧
      (∀ owed ∈ both, OwedAlike depth channel owed.1 owed.2) ∧
      ∀ entry ∈ channel.cursors.toList, stakesFrom entry.2.nextOwedSeq channel.retainedView ≠ [] →
        ∃ owed ∈ both, owed.1.subscriber = entry.1 := by
  have walked := toList_of_lookup holds.cursors
  have stored : ∀ entry ∈ channel.cursors.toList, channel.cursors[entry.1]? = some entry.2 :=
    fun entry member => TreeMap.mem_toList_iff_getElem?_eq_some.mp member
  unfold RingStore.deliverableSubscribers DbChannel.deliverableCursorSubscribers
  rw [walked]
  generalize channel.cursors.toList = walk at stored
  induction walk with
  | nil => exact ⟨[], rfl, rfl, by simp, by simp⟩
  | cons entry walk ih =>
    obtain ⟨subscriber, cursor⟩ := entry
    obtain ⟨both, durable, ring, alike, named⟩ := ih fun other member => stored other (List.mem_cons_of_mem _ member)
    have held := stored (subscriber, cursor) List.mem_cons_self
    have enabled : (positionOf cursor).isPushEnabled = true := by
      have pushed := holds.pushed subscriber cursor held
      rwa [isPushEnabled_eq] at pushed
    have slug : store.appSlugs[subscriber]? = some cursor.appSlug := by rw [holds.appSlugs, held, Option.map_some]
    have owes : (positionOf cursor).hasDeliverable store.core.ring =
        (!store.core.ring.isEmpty && decide (store.core.ring.newestSeq ≥ cursor.nextOwedSeq)) := by
      rw [SubscriberCursor.hasDeliverable, enabled, Bool.true_and]
      rfl
    have same := retains.owes cursor.nextOwedSeq
    rw [List.filterMap_cons, List.map_cons]
    cases trailed : channel.rows.filter fun row =>
        row.retainedSeq.any fun seq => decide (cursor.nextOwedSeq ≤ seq) with
    | nil =>
      have quiet : (positionOf cursor).hasDeliverable store.core.ring = false := by
        rw [owes, ← same, List.any_eq_false]
        exact List.filter_eq_nil_iff.mp trailed
      rw [List.filter_cons_of_neg (by simp [quiet])]
      simp only [trailed]
      refine ⟨both, durable, ring, alike, fun other member some => ?_⟩
      rcases List.mem_cons.mp member with rfl | later
      · have listed := mem_trailed channel cursor.nextOwedSeq
        rw [trailed] at listed
        exact absurd (List.eq_nil_iff_forall_not_mem.mpr fun message inside =>
          List.not_mem_nil ((listed message).mpr inside)) some
      · exact named other later some
    | cons row rest =>
      have loud : (positionOf cursor).hasDeliverable store.core.ring = true := by
        obtain ⟨member, trails⟩ := List.mem_filter.mp (trailed ▸ List.mem_cons_self : row ∈ channel.rows.filter _)
        rw [owes, ← same]
        exact List.any_eq_true.mpr ⟨row, member, trails⟩
      obtain ⟨urgency, deadline, folded, stakes⟩ := ring_stakes store.core.ring (owes.symm.trans loud)
      have folded : (suffixFolds store.core.ring.entries)[(store.core.ring.entries.takeWhile
          fun entry => decide (entry.seq < (positionOf cursor).nextOwed)).length]? = some (urgency, deadline) := folded
      simp only [trailed, List.filter_cons, loud, if_true, List.mapM_cons, slug, folded, ring]
      refine ⟨(_, ⟨subscriber, some cursor.appSlug, urgency, deadline⟩) :: both, by rw [durable]; rfl, rfl, ?_, ?_⟩
      · refine List.forall_mem_cons.mpr ⟨⟨rfl, rfl, cursor, held, durable_stakes trailed, ?_⟩, alike⟩
        exact stakes.congr (retains.mem_stakesFrom cursor.nextOwedSeq)
      · intro other member some
        rcases List.mem_cons.mp member with rfl | later
        · exact ⟨_, List.mem_cons_self, rfl⟩
        · obtain ⟨owed, inside, name⟩ := named other later some
          exact ⟨owed, List.mem_cons_of_mem _ inside, name⟩

/-- The answers about owed subscribers are the same up to their order, which the ring's map
    decides, if and only if the newest rows outweigh the others. -/
theorem owed_level (holds : Holds channel.cursors store.core.cursors store.appSlugs)
    (retains : Retains depth channel store.core.ring) :
    ∃ owed, store.deliverableSubscribers = some owed ∧
      (channel.deliverableCursorSubscribers.Perm owed ↔ Outweighed depth channel) := by
  obtain ⟨both, durable, ring, alike, named⟩ := owed_mirror holds retains
  refine ⟨_, ring, fun same entry member => ?_, fun outweighed => ?_⟩
  · by_cases trails : stakesFrom entry.2.nextOwedSeq channel.retainedView = []
    · rw [trails]
      exact fun message absent => absurd absent List.not_mem_nil
    -- the ring gives the durable answer about this subscriber, so both fold to the same
    obtain ⟨owed, inside, name⟩ := named entry member trails
    obtain ⟨cursor, held, rows, -⟩ := (alike owed inside).folds
    obtain ⟨other, listed, answer⟩ := List.mem_map.mp
      (same.mem_iff.mp (durable ▸ List.mem_map_of_mem inside : owed.1 ∈ channel.deliverableCursorSubscribers))
    obtain ⟨again, heldAgain, -, entries⟩ := (alike other listed).folds
    rw [(alike other listed).subscriber, answer, held] at heldAgain
    rw [answer, ← Option.some.inj heldAgain] at entries
    rw [name, TreeMap.mem_toList_iff_getElem?_eq_some.mp member] at held
    rw [← Option.some.inj held] at rows entries
    exact (rows.eq_iff_outweighs entries (mem_stakesFrom_max _ _ _)).mp ⟨rfl, rfl⟩
  · have level : ∀ owed ∈ both, owed.1 = owed.2 := by
      rintro ⟨⟨name, slug, loudest, earliest⟩, ⟨otherName, otherSlug, otherLoudest, otherEarliest⟩⟩ member
      obtain ⟨subscriber, appSlug, cursor, held, rows, entries⟩ := alike _ member
      obtain ⟨urgency, deadline⟩ := (rows.eq_iff_outweighs entries (mem_stakesFrom_max _ _ _)).mpr
        (outweighed (_, cursor) (TreeMap.mem_toList_iff_getElem?_eq_some.mpr held))
      simp only at subscriber appSlug urgency deadline
      rw [subscriber, appSlug, urgency, deadline]
    rw [durable, List.map_congr_left level]

end Subscribers

end Brenn.Store
