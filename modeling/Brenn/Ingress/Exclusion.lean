import Brenn.Ingress.Dispatch

/-!
An ingress row is handed to its conversation at most once.

A conversation is held by a fan-out or by a drain, never by two of them, and everything handed
over is marked or still in the hands of the holder that is going to mark it.
-/

namespace Brenn.Ingress
open Brenn.Lib Std

/-! ### What a fan-out and a drain hold -/

section
variable (pushes : Pushes) (inFlight : List Nat) (drains : TreeMap Nat Drain)

/-- A fan-out of a subscriber in flight: unmarked rows of the subscriber, none handed over yet. -/
structure FanOutHolds (key : Nat) (fanOut : FanOut) : Prop where
  inFlight : key ∈ inFlight
  rows : ∀ row ∈ fanOut.rows, row.targetSubscriber = key ∧ pushes.Holds false row
  ids : ∀ id ∈ fanOut.deliveredIds, ∃ row, pushes[id]? = some row ∧ row.push.targetSubscriber = key
  distinct : (fanOut.rows.map IngressPush.pushId ++ fanOut.deliveredIds).Nodup
  undrained : ∀ (bridge : Nat) drain, drains[bridge]? = some drain → drain.conversation ≠ key

/-- A drain, the only one of a conversation that is not in flight; its kept rows are unmarked until they are sent. -/
structure DrainHolds (bridge : Nat) (drain : Drain) : Prop where
  idle : drain.conversation ∉ inFlight
  rows : ∀ row ∈ drain.kept ++ drain.stale,
    row.targetSubscriber = drain.conversation ∧ ∃ delivered, pushes.Holds delivered row
  pending : drain.stage ≠ .sent → ∀ row ∈ drain.kept, pushes.Holds false row
  distinct : ((drain.kept ++ drain.stale).map IngressPush.pushId).Nodup
  alone : ∀ (other : Nat) otherDrain, drains[other]? = some otherDrain →
    otherDrain.conversation = drain.conversation → other = bridge

/-- A row that was handed over is marked, or its holder is going to mark it. -/
def Accounted (fanOuts : TreeMap Nat FanOut) (id : Nat) : Prop :=
  ∃ row, pushes[id]? = some row ∧
    (row.delivered = true ∨
      (∃ fanOut, fanOuts[row.push.targetSubscriber]? = some fanOut ∧ id ∈ fanOut.deliveredIds) ∨
      ∃ (bridge : Nat) (drain : Drain), drains[bridge]? = some drain ∧ drain.conversation = row.push.targetSubscriber ∧
        drain.stage = .sent ∧ id ∈ drain.kept.map IngressPush.pushId)

end

structure HandedOnce (world : World) : Prop where
  keyed : world.pushes.Keyed
  fresh : ∀ (id : Nat) row, world.pushes[id]? = some row → id < world.nextPushId
  due : ∀ dueRows ∈ world.dueRows, (∀ row ∈ dueRows, ∃ delivered, world.pushes.Holds delivered row) ∧
    (dueRows.map IngressPush.pushId).Nodup
  fanOut : ∀ (key : Nat) fanOut, world.fanOuts[key]? = some fanOut →
    FanOutHolds world.pushes world.inFlight world.drains key fanOut
  completed : ∀ key ∈ world.completed, world.fanOuts[key]? = none
  finished : ∀ key ∈ world.completed, key ∈ world.inFlight
  drain : ∀ (bridge : Nat) drain, world.drains[bridge]? = some drain →
    DrainHolds world.pushes world.inFlight world.drains bridge drain
  handed : ∀ id ∈ world.handed, Accounted world.pushes world.drains world.fanOuts id
  once : world.handed.Nodup

/-! ### Marking rows -/

section
variable {pushes : Pushes} {ids : List Nat}

theorem Pushes.Holds.mark {delivered : Bool} {push : IngressPush} (stored : pushes.Holds delivered push) (ids : List Nat) :
    (pushes.markPendingPushesDelivered ids).Holds (decide (push.pushId ∈ ids) || delivered) push := by
  rw [Holds, Pushes.lookup_mark, stored]
  by_cases listed : push.pushId ∈ ids <;> simp [listed]

theorem Pushes.Holds.unmarked {push : IngressPush} (stored : pushes.Holds false push) (other : push.pushId ∉ ids) :
    (pushes.markPendingPushesDelivered ids).Holds false push := by
  have marked := stored.mark ids
  rwa [decide_eq_false other, Bool.false_or] at marked

theorem Pushes.stored_mark {id : Nat} {row : PushRow} (stored : pushes[id]? = some row) (ids : List Nat) :
    ∃ marked, (pushes.markPendingPushesDelivered ids)[id]? = some marked ∧ marked.push = row.push ∧
      (row.delivered = true → marked.delivered = true) ∧ (id ∈ ids → marked.delivered = true) := by
  rw [Pushes.lookup_mark, stored]
  by_cases listed : id ∈ ids <;> simp [listed]

theorem Pushes.stored_of_mark {id : Nat} {marked : PushRow}
    (stored : (pushes.markPendingPushesDelivered ids)[id]? = some marked) :
    ∃ row, pushes[id]? = some row ∧ row.push = marked.push := by
  rw [Pushes.lookup_mark] at stored
  obtain ⟨row, there, rfl⟩ := Option.map_eq_some_iff.mp stored
  refine ⟨row, there, ?_⟩
  split <;> rfl

theorem not_mem_of_elsewhere {conversation : Nat} {push : IngressPush} {delivered : Bool}
    (owned : ∀ id ∈ ids, ∃ row, pushes[id]? = some row ∧ row.push.targetSubscriber = conversation)
    (stored : pushes.Holds delivered push) (elsewhere : push.targetSubscriber ≠ conversation) : push.pushId ∉ ids := by
  intro listed
  obtain ⟨row, there, own⟩ := owned _ listed
  obtain rfl := Option.some.inj (stored.symm.trans there)
  exact elsewhere own

variable {inFlight : List Nat} {drains : TreeMap Nat Drain}

theorem FanOutHolds.mark {key : Nat} {fanOut : FanOut} (holds : FanOutHolds pushes inFlight drains key fanOut)
    (others : ∀ row ∈ fanOut.rows, row.pushId ∉ ids) :
    FanOutHolds (pushes.markPendingPushesDelivered ids) inFlight drains key fanOut where
  inFlight := holds.inFlight
  rows row listed := ⟨(holds.rows row listed).1, (holds.rows row listed).2.unmarked (others row listed)⟩
  ids id listed := by
    obtain ⟨row, stored, own⟩ := holds.ids id listed
    obtain ⟨marked, there, same, _⟩ := Pushes.stored_mark stored ids
    exact ⟨marked, there, same ▸ own⟩
  distinct := holds.distinct
  undrained := holds.undrained

theorem DrainHolds.mark {bridge : Nat} {drain : Drain} (holds : DrainHolds pushes inFlight drains bridge drain)
    (others : drain.stage ≠ .sent → ∀ row ∈ drain.kept, row.pushId ∉ ids) :
    DrainHolds (pushes.markPendingPushesDelivered ids) inFlight drains bridge drain where
  idle := holds.idle
  rows row listed := by
    obtain ⟨own, delivered, stored⟩ := holds.rows row listed
    exact ⟨own, _, stored.mark ids⟩
  pending unsent row listed := (holds.pending unsent row listed).unmarked (others unsent row listed)
  distinct := holds.distinct
  alone := holds.alone

theorem Accounted.mark {fanOuts : TreeMap Nat FanOut} {id : Nat} (accounted : Accounted pushes drains fanOuts id) :
    Accounted (pushes.markPendingPushesDelivered ids) drains fanOuts id := by
  obtain ⟨row, stored, why⟩ := accounted
  obtain ⟨marked, there, same, kept, _⟩ := Pushes.stored_mark stored ids
  exact ⟨marked, there, same ▸ why.imp_left kept⟩

end

/-! ### One section at a time -/

namespace HandedOnce

variable {world after : World}

theorem empty : HandedOnce {} where
  keyed := by intro id row there; simp at there
  fresh := by simp
  due := by simp
  fanOut := by simp
  completed := by simp
  finished := by simp
  drain := by simp
  handed := by simp
  once := List.nodup_nil

theorem enqueue (kept : HandedOnce world) (targetSubscriber : Nat) (eagerWake : Bool) (source : String)
    (publishTsNs : Nat) : HandedOnce (world.enqueue targetSubscriber eagerWake source publishTsNs) := by
  -- No stored row is under the id the new one takes.
  have apart : ∀ (id : Nat) row, world.pushes[id]? = some row →
      (world.enqueue targetSubscriber eagerWake source publishTsNs).pushes[id]? = some row := by
    intro id row stored
    have older := kept.fresh id row stored
    rw [World.enqueue, lookup_insert, if_neg (by omega)]
    exact stored
  have holds : ∀ delivered push, world.pushes.Holds delivered push →
      (world.enqueue targetSubscriber eagerWake source publishTsNs).pushes.Holds delivered push :=
    fun delivered push stored => apart _ _ stored
  refine {
    keyed := forall_lookup_insert rfl fun id row _ stored => kept.keyed id row stored
    fresh := forall_lookup_insert (Nat.lt_succ_self _) fun id row _ stored => Nat.lt_succ_of_lt (kept.fresh id row stored)
    due := ?_, fanOut := ?_, completed := kept.completed, finished := kept.finished, drain := ?_, handed := ?_
    once := kept.once }
  · intro dueRows scanned
    obtain ⟨stored, distinct⟩ := kept.due dueRows scanned
    exact ⟨fun row listed => (stored row listed).imp fun delivered => holds delivered row, distinct⟩
  · intro key fanOut running
    have held := kept.fanOut key fanOut running
    exact { held with
      rows := fun row listed => ⟨(held.rows row listed).1, holds _ _ (held.rows row listed).2⟩
      ids := fun id listed => (held.ids id listed).imp fun row => And.imp_left (apart id row) }
  · intro bridge drain running
    have held := kept.drain bridge drain running
    exact { held with
      rows := fun row listed => (held.rows row listed).imp_right fun stored => stored.imp fun delivered => holds delivered row
      pending := fun unsent row listed => holds _ _ (held.pending unsent row listed) }
  · intro id listed
    obtain ⟨row, stored, why⟩ := kept.handed id listed
    exact ⟨row, apart id row stored, why⟩

theorem scan (kept : HandedOnce world) (stepped : world.scan = some after) : HandedOnce after := by
  unfold World.scan at stepped
  split at stepped
  next =>
    cases stepped
    refine { kept with due := ?_ }
    rintro _ ⟨⟩
    refine ⟨fun row listed => ?_, Pushes.nodup_load kept.keyed _⟩
    obtain ⟨delivered, stored, _⟩ := (Pushes.mem_load kept.keyed).mp listed
    exact ⟨delivered, stored⟩
  next => cases stepped

/-- What starting a fan-out under each of some keys leaves under a key. -/
theorem lookup_started (rows : Nat → List IngressPush) (keys : List Nat) (fanOuts : TreeMap Nat FanOut) (key : Nat) :
    (keys.foldl (fun fanOuts key => fanOuts.insert key ⟨rows key, []⟩) fanOuts)[key]? =
      if key ∈ keys then some ⟨rows key, []⟩ else fanOuts[key]? := by
  induction keys generalizing fanOuts with
  | nil => simp
  | cons first keys ih =>
    rw [List.foldl_cons, ih, lookup_insert]
    by_cases later : key ∈ keys
    · simp [later]
    · by_cases here : first = key
      · subst here
        simp
      · simp [later, here, Ne.symm here]

theorem spawn (kept : HandedOnce world) (apart : world.Apart .spawn) (stepped : world.spawn = some after) :
    HandedOnce after := by
  unfold World.spawn at stepped
  split at stepped
  next => cases stepped
  next dueRows scanned =>
    obtain ⟨stored, distinct⟩ := kept.due dueRows scanned
    have started := apart dueRows scanned
    cases stepped
    -- A key that is started is the subscriber of an eligible row.
    have eligible : ∀ key ∈ ((world.eligible dueRows).map IngressPush.targetSubscriber).dedup,
        ∃ row ∈ world.eligible dueRows, row.targetSubscriber = key :=
      fun key listed => List.mem_map.mp (List.mem_dedup.mp listed)
    have notInFlight : ∀ key ∈ ((world.eligible dueRows).map IngressPush.targetSubscriber).dedup, key ∉ world.inFlight := by
      intro key listed
      obtain ⟨row, picked, rfl⟩ := eligible key listed
      exact of_decide_eq_true (List.mem_filter.mp picked).2
    have undrained : ∀ key ∈ ((world.eligible dueRows).map IngressPush.targetSubscriber).dedup,
        ∀ (bridge : Nat) drain, world.drains[bridge]? = some drain → drain.conversation ≠ key := by
      intro key listed bridge drain running
      obtain ⟨row, picked, rfl⟩ := eligible key listed
      exact (started row picked).2 (bridge, drain) (TreeMap.mem_toList_iff_getElem?_eq_some.mpr running)
    -- Fan-outs already running are of subscribers in flight, so they are not started over.
    have running : ∀ (key : Nat) fanOut, world.fanOuts[key]? = some fanOut →
        key ∉ ((world.eligible dueRows).map IngressPush.targetSubscriber).dedup :=
      fun key fanOut there listed => notInFlight key listed (kept.fanOut key fanOut there).inFlight
    refine { kept with due := by simp, fanOut := ?_, completed := ?_, finished := ?_, drain := ?_, handed := ?_ }
    · intro key fanOut there
      rw [lookup_started] at there
      split at there
      next listed =>
        cases there
        refine { inFlight := List.mem_append_left _ listed, rows := ?_, ids := by simp, distinct := ?_,
                 undrained := undrained key listed }
        · intro row listed
          obtain ⟨picked, own⟩ := List.mem_filter.mp listed
          obtain ⟨delivered, here⟩ := stored row (List.mem_filter.mp picked).1
          have unmarked : delivered = false := (started row picked).1 _ here
          exact ⟨of_decide_eq_true own, unmarked ▸ here⟩
        · rw [List.append_nil]
          exact (distinct.sublist (List.filter_sublist.map _)).sublist (List.filter_sublist.map _)
      next =>
        have held := kept.fanOut key fanOut there
        exact { held with inFlight := List.mem_append_right _ held.inFlight }
    · intro key listed
      rw [lookup_started, if_neg (fun started => notInFlight key started (kept.finished key listed))]
      exact kept.completed key listed
    · exact fun key listed => List.mem_append_right _ (kept.finished key listed)
    · intro bridge drain there
      have held := kept.drain bridge drain there
      refine { held with idle := fun listed => ?_ }
      rcases List.mem_append.mp listed with new | old
      · exact undrained _ new bridge drain there rfl
      · exact held.idle old
    · intro id listed
      obtain ⟨row, there, why⟩ := kept.handed id listed
      refine ⟨row, there, why.imp_right (Or.imp_left fun ⟨fanOut, held, among⟩ => ⟨fanOut, ?_, among⟩)⟩
      rw [lookup_started, if_neg (running _ fanOut held)]
      exact held

theorem unhanded_fanOut (kept : HandedOnce world) {key : Nat} {row : IngressPush} {rows : List IngressPush}
    {deliveredIds : List Nat} (running : world.fanOuts[key]? = some ⟨row :: rows, deliveredIds⟩) :
    row.pushId ∉ world.handed := by
  intro listed
  have held := kept.fanOut key _ running
  obtain ⟨own, unmarked⟩ := held.rows row (by simp)
  obtain ⟨stored, there, why⟩ := kept.handed _ listed
  obtain rfl := Option.some.inj (unmarked.symm.trans there)
  rcases why with marked | ⟨fanOut, there, among⟩ | ⟨bridge, drain, there, same, _⟩
  · cases marked
  · simp only [own, running, Option.some.injEq] at there
    subst there
    have distinct := held.distinct
    simp only [List.map_cons, List.cons_append, List.nodup_cons, List.mem_append, not_or] at distinct
    exact distinct.1.2 among
  · exact held.undrained bridge drain there (same.trans own)

theorem dispatchRow (kept : HandedOnce world) {subscriber : Nat} (stepped : world.dispatchRow subscriber = some after) :
    HandedOnce after := by
  unfold World.dispatchRow at stepped
  split at stepped
  next row rows deliveredIds running =>
    have held := kept.fanOut subscriber _ running
    obtain ⟨own, unmarked⟩ := held.rows row (by simp)
    have rest : ∀ other ∈ rows, other.targetSubscriber = subscriber ∧ world.pushes.Holds false other :=
      fun other listed => held.rows other (List.mem_cons_of_mem _ listed)
    have unfinished : ∀ fanOut, ∀ key ∈ world.completed, (world.fanOuts.insert subscriber fanOut)[key]? = none := by
      intro fanOut key listed
      have absent := kept.completed key listed
      rw [lookup_insert, if_neg (fun same => by rw [← same, running] at absent; cases absent), absent]
    split at stepped
    next =>
      cases stepped
      refine { kept with fanOut := ?_, completed := unfinished _, handed := ?_, once := ?_ }
      · refine forall_lookup_insert { held with rows := rest, ids := ?_, distinct := ?_ }
          fun key fanOut _ there => kept.fanOut key fanOut there
        · exact List.forall_mem_cons.mpr ⟨⟨_, unmarked, own⟩, held.ids⟩
        · exact List.perm_middle.nodup_iff.mpr held.distinct
      · refine List.forall_mem_cons.mpr ⟨⟨_, unmarked, .inr (.inl ⟨⟨rows, row.pushId :: deliveredIds⟩, ?_, by simp⟩)⟩,
          fun id listed => ?_⟩
        · simp only [own, lookup_insert, if_true]
        · obtain ⟨stored, there, why⟩ := kept.handed id listed
          refine ⟨stored, there, why.imp_right (Or.imp_left fun ⟨fanOut, running', among⟩ => ?_)⟩
          rw [lookup_insert]
          split
          next same =>
            rw [← same, running] at running'
            cases running'
            exact ⟨_, rfl, List.mem_cons_of_mem _ among⟩
          next => exact ⟨fanOut, running', among⟩
      · exact List.nodup_cons.mpr ⟨kept.unhanded_fanOut running, kept.once⟩
    next =>
      cases stepped
      refine { kept with fanOut := ?_, completed := unfinished _, handed := ?_ }
      · refine forall_lookup_insert { held with rows := rest, distinct := ?_ }
          fun key fanOut _ there => kept.fanOut key fanOut there
        exact (List.nodup_cons.mp held.distinct).2
      · intro id listed
        obtain ⟨stored, there, why⟩ := kept.handed id listed
        refine ⟨stored, there, why.imp_right (Or.imp_left fun ⟨fanOut, running', among⟩ => ?_)⟩
        rw [lookup_insert]
        split
        next same =>
          rw [← same, running] at running'
          cases running'
          exact ⟨_, rfl, among⟩
        next => exact ⟨fanOut, running', among⟩
  next => cases stepped

/-- Marking rows of one conversation leaves the holders of the others what they hold. -/
theorem mark (kept : HandedOnce world) (conversation : Nat) {ids : List Nat}
    (owned : ∀ id ∈ ids, ∃ row, world.pushes[id]? = some row ∧ row.push.targetSubscriber = conversation)
    (fanOuts : ∀ fanOut, world.fanOuts[conversation]? = some fanOut → ∀ row ∈ fanOut.rows, row.pushId ∉ ids)
    (drains : ∀ (bridge : Nat) drain, world.drains[bridge]? = some drain → drain.conversation = conversation →
      drain.stage ≠ .sent → ∀ row ∈ drain.kept, row.pushId ∉ ids) :
    HandedOnce { world with pushes := world.pushes.markPendingPushesDelivered ids } where
  keyed id marked stored := by
    obtain ⟨row, there, same⟩ := Pushes.stored_of_mark stored
    exact same ▸ kept.keyed id row there
  fresh id marked stored := by
    obtain ⟨row, there, _⟩ := Pushes.stored_of_mark stored
    exact kept.fresh id row there
  due dueRows scanned := by
    obtain ⟨stored, distinct⟩ := kept.due dueRows scanned
    refine ⟨fun row listed => ?_, distinct⟩
    obtain ⟨delivered, there⟩ := stored row listed
    exact ⟨_, there.mark ids⟩
  fanOut key fanOut running := by
    have held := kept.fanOut key fanOut running
    refine held.mark fun row listed => ?_
    by_cases same : key = conversation
    · exact fanOuts fanOut (same ▸ running) row listed
    · exact not_mem_of_elsewhere owned (held.rows row listed).2 ((held.rows row listed).1 ▸ same)
  completed := kept.completed
  finished := kept.finished
  drain bridge drain running := by
    have held := kept.drain bridge drain running
    refine held.mark fun unsent row listed => ?_
    by_cases same : drain.conversation = conversation
    · exact drains bridge drain running same unsent row listed
    · exact not_mem_of_elsewhere owned (held.pending unsent row listed)
        ((held.rows row (List.mem_append_left _ listed)).1 ▸ same)
  handed id listed := (kept.handed id listed).mark
  once := kept.once

theorem markDelivered (kept : HandedOnce world) {subscriber : Nat}
    (stepped : world.markDelivered subscriber = some after) : HandedOnce after := by
  unfold World.markDelivered at stepped
  split at stepped
  next deliveredIds running =>
    cases stepped
    have held := kept.fanOut subscriber _ running
    have marked := kept.mark subscriber held.ids
      (fun fanOut there row listed => by rw [running] at there; cases there; cases listed)
      fun bridge drain there same => absurd same (held.undrained bridge drain there)
    refine { marked with fanOut := ?_, completed := ?_, finished := ?_, handed := ?_ }
    · exact fun key fanOut there => marked.fanOut key fanOut (lookup_of_erase there)
    · refine List.forall_mem_cons.mpr ⟨by simp, fun key listed => ?_⟩
      rw [lookup_erase, kept.completed key listed, ite_self]
    · exact List.forall_mem_cons.mpr ⟨held.inFlight, kept.finished⟩
    · intro id listed
      obtain ⟨row, there, why⟩ := kept.handed id listed
      obtain ⟨after, stored, same, keeps, marks⟩ := Pushes.stored_mark there deliveredIds
      refine ⟨after, stored, ?_⟩
      rcases why with delivered | ⟨fanOut, running', among⟩ | drained
      · exact .inl (keeps delivered)
      · by_cases own : row.push.targetSubscriber = subscriber
        · rw [own, running] at running'
          cases running'
          exact .inl (marks among)
        · refine .inr (.inl ⟨fanOut, ?_, among⟩)
          rw [same, lookup_erase, if_neg (Ne.symm own)]
          exact running'
      · exact .inr (.inr (same ▸ drained))
  next => cases stepped

theorem supervise (kept : HandedOnce world) {subscriber : Nat} (stepped : world.supervise subscriber = some after) :
    HandedOnce after := by
  unfold World.supervise at stepped
  split at stepped
  next finished =>
    cases stepped
    refine { kept with fanOut := ?_, completed := ?_, finished := ?_, drain := ?_ }
    · intro key fanOut running
      have held := kept.fanOut key fanOut running
      refine { held with inFlight := List.mem_filter.mpr ⟨held.inFlight, decide_eq_true fun same => ?_⟩ }
      have absent := kept.completed subscriber finished
      rw [← same, running] at absent
      cases absent
    · exact fun key listed => kept.completed key (List.mem_filter.mp listed).1
    · intro key listed
      obtain ⟨waiting, other⟩ := List.mem_filter.mp listed
      exact List.mem_filter.mpr ⟨kept.finished key waiting, other⟩
    · intro bridge drain running
      have held := kept.drain bridge drain running
      exact { held with idle := fun listed => held.idle (List.mem_filter.mp listed).1 }
  next => cases stepped

theorem split_perm (events : List IngressPush) (idleTooLong : Bool) :
    ((splitStaleRepoSync events idleTooLong).1 ++ (splitStaleRepoSync events idleTooLong).2).Perm events := by
  unfold splitStaleRepoSync
  split
  · rw [List.partition_eq_filter_filter]
    exact List.filter_append_perm _ _
  · simp

theorem drainLoad (kept : HandedOnce world) {bridge conversation : Nat} {idleTooLong : Bool}
    (apart : world.Apart (.drainLoad bridge conversation idleTooLong))
    (stepped : world.drainLoad bridge conversation idleTooLong = some after) : HandedOnce after := by
  unfold World.drainLoad at stepped
  split at stepped
  next => cases stepped
  next free =>
    cases stepped
    obtain ⟨idle, undrained⟩ := apart
    have alone : ∀ (other : Nat) drain, world.drains[other]? = some drain → drain.conversation ≠ conversation :=
      fun other drain running => undrained (other, drain) (TreeMap.mem_toList_iff_getElem?_eq_some.mpr running)
    have split := split_perm (world.pushes.loadPendingIngressForDrain conversation) idleTooLong
    have loaded : ∀ row ∈ world.pushes.loadPendingIngressForDrain conversation,
        row.targetSubscriber = conversation ∧ world.pushes.Holds false row := by
      intro row listed
      obtain ⟨delivered, stored, wanted⟩ := (Pushes.mem_load kept.keyed).mp listed
      simp only [Bool.and_eq_true, Bool.not_eq_true', decide_eq_true_eq] at wanted
      exact ⟨wanted.2, wanted.1 ▸ stored⟩
    refine { kept with fanOut := ?_, drain := ?_, handed := ?_ }
    · intro key fanOut running
      have held := kept.fanOut key fanOut running
      refine { held with undrained := forall_lookup_insert ?_ fun other drain _ there => held.undrained other drain there }
      rintro rfl
      exact idle held.inFlight
    · refine forall_lookup_insert { idle := idle, rows := ?_, pending := ?_, distinct := ?_, alone := ?_ } ?_
      · exact fun row listed => (loaded row (split.subset listed)).imp_right fun stored => ⟨_, stored⟩
      · exact fun _ row listed => (loaded row (split.subset (List.mem_append_left _ listed))).2
      · exact (split.map _).nodup_iff.mpr (Pushes.nodup_load kept.keyed _)
      · exact forall_lookup_insert (fun _ => rfl) fun other drain _ there same => absurd same (alone other drain there)
      · intro other drain _ running
        have held := kept.drain other drain running
        refine { held with alone := forall_lookup_insert (fun same => ?_) fun third thirdDrain _ there => ?_ }
        · exact absurd same.symm (alone other drain running)
        · exact held.alone third thirdDrain there
    · intro id listed
      obtain ⟨row, there, why⟩ := kept.handed id listed
      refine ⟨row, there, why.imp_right (Or.imp_right fun ⟨other, drain, running, rest⟩ => ⟨other, drain, ?_, rest⟩)⟩
      rw [lookup_insert, if_neg (fun same => by rw [← same, free] at running; cases running)]
      exact running

theorem advance (kept : HandedOnce world) {bridge : Nat} {drain : Drain} (running : world.drains[bridge]? = some drain)
    (moved : Drain) (sameConversation : moved.conversation = drain.conversation) (sameKept : moved.kept = drain.kept)
    (sameStale : moved.stale = drain.stale) (unsent : moved.stage ≠ .sent → drain.stage ≠ .sent)
    (sent : drain.stage = .sent → moved.stage = .sent) :
    HandedOnce { world with drains := world.drains.insert bridge moved } := by
  have held := kept.drain bridge drain running
  refine { kept with fanOut := ?_, drain := ?_, handed := ?_ }
  · intro key fanOut there
    have own := kept.fanOut key fanOut there
    refine { own with undrained := forall_lookup_insert ?_ fun other found _ present => own.undrained other found present }
    rw [sameConversation]
    exact own.undrained bridge drain running
  · refine forall_lookup_insert { idle := ?_, rows := ?_, pending := ?_, distinct := ?_, alone := ?_ }
      fun other found _ present => ?_
    · rw [sameConversation]
      exact held.idle
    · rw [sameConversation, sameKept, sameStale]
      exact held.rows
    · rw [sameKept]
      exact fun still => held.pending (unsent still)
    · rw [sameKept, sameStale]
      exact held.distinct
    · rw [sameConversation]
      exact forall_lookup_insert (fun _ => rfl) fun other found _ present => held.alone other found present
    · have others := kept.drain other found present
      refine { others with alone := forall_lookup_insert ?_ fun third thirdDrain _ there => others.alone third thirdDrain there }
      rw [sameConversation]
      exact others.alone bridge drain running
  · intro id listed
    obtain ⟨row, there, why⟩ := kept.handed id listed
    refine ⟨row, there, why.imp_right (Or.imp_right ?_)⟩
    rintro ⟨other, found, present, same, stage, among⟩
    by_cases here : bridge = other
    · subst here
      rw [running] at present
      cases present
      exact ⟨bridge, moved, by simp, sameConversation.trans same, sent stage, sameKept ▸ among⟩
    · exact ⟨other, found, by rw [lookup_insert, if_neg here]; exact present, same, stage, among⟩

theorem drainDrop (kept : HandedOnce world) {bridge : Nat} (stepped : world.drainDrop bridge = some after) :
    HandedOnce after := by
  unfold World.drainDrop at stepped
  split at stepped
  next conversation keptRows stale running =>
    cases stepped
    have held := kept.drain bridge _ running
    have moved := kept.advance running ⟨conversation, keptRows, stale, .dropped⟩ rfl rfl rfl (by simp) (by simp)
    have distinct := held.distinct
    rw [List.map_append, List.nodup_append] at distinct
    refine moved.mark conversation ?_ ?_ ?_
    · intro id listed
      obtain ⟨row, among, rfl⟩ := List.mem_map.mp listed
      obtain ⟨own, delivered, stored⟩ := held.rows row (List.mem_append_right _ among)
      exact ⟨_, stored, own⟩
    · exact fun fanOut there => absurd rfl ((kept.fanOut conversation fanOut there).undrained bridge _ running)
    · intro other drain there same unsent row listed dropped
      have here : (world.drains.insert bridge ⟨conversation, keptRows, stale, .dropped⟩)[bridge]? =
          some ⟨conversation, keptRows, stale, .dropped⟩ := TreeMap.getElem?_insert_self
      obtain rfl := (moved.drain bridge _ here).alone other drain there same
      obtain rfl := Option.some.inj (here.symm.trans there)
      exact distinct.2.2 _ (List.mem_map_of_mem listed) _ dropped rfl
  next => cases stepped

theorem unhanded_drain (kept : HandedOnce world) {bridge : Nat} {drain : Drain}
    (running : world.drains[bridge]? = some drain) (unsent : drain.stage ≠ .sent) {row : IngressPush}
    (among : row ∈ drain.kept) : row.pushId ∉ world.handed := by
  intro listed
  have held := kept.drain bridge drain running
  have unmarked := held.pending unsent row among
  have own := (held.rows row (List.mem_append_left _ among)).1
  obtain ⟨stored, there, why⟩ := kept.handed _ listed
  obtain rfl := Option.some.inj (unmarked.symm.trans there)
  rcases why with marked | ⟨fanOut, there, _⟩ | ⟨other, otherDrain, there, same, sent, _⟩
  · cases marked
  · exact (kept.fanOut _ fanOut there).undrained bridge drain running own.symm
  · obtain rfl := held.alone other otherDrain there (same.trans own)
    obtain rfl := Option.some.inj (running.symm.trans there)
    exact unsent sent

theorem drainSend (kept : HandedOnce world) {bridge : Nat} (stepped : world.drainSend bridge = some after) :
    HandedOnce after := by
  unfold World.drainSend at stepped
  split at stepped
  next conversation keptRows stale running =>
    cases stepped
    have held := kept.drain bridge _ running
    have moved := kept.advance running ⟨conversation, keptRows, stale, .sent⟩ rfl rfl rfl (by simp) (by simp)
    have distinct := held.distinct
    rw [List.map_append, List.nodup_append] at distinct
    refine { moved with handed := ?_, once := ?_ }
    · intro id listed
      rcases List.mem_append.mp listed with sent | before
      · obtain ⟨row, among, rfl⟩ := List.mem_map.mp sent
        obtain ⟨own, delivered, stored⟩ := held.rows row (List.mem_append_left _ among)
        exact ⟨_, stored, .inr (.inr
          ⟨bridge, ⟨conversation, keptRows, stale, .sent⟩, TreeMap.getElem?_insert_self, own.symm, rfl, sent⟩)⟩
      · exact moved.handed id before
    · refine List.nodup_append.mpr ⟨distinct.1, kept.once, ?_⟩
      rintro id sent _ before rfl
      obtain ⟨row, among, rfl⟩ := List.mem_map.mp sent
      exact kept.unhanded_drain running (by simp) among before
  next => cases stepped

theorem drainMark (kept : HandedOnce world) {bridge : Nat} (stepped : world.drainMark bridge = some after) :
    HandedOnce after := by
  unfold World.drainMark at stepped
  split at stepped
  next conversation keptRows stale running =>
    cases stepped
    have held := kept.drain bridge _ running
    have owned : ∀ id ∈ keptRows.map IngressPush.pushId,
        ∃ row, world.pushes[id]? = some row ∧ row.push.targetSubscriber = conversation := by
      intro id listed
      obtain ⟨row, among, rfl⟩ := List.mem_map.mp listed
      obtain ⟨own, delivered, stored⟩ := held.rows row (List.mem_append_left _ among)
      exact ⟨_, stored, own⟩
    have marked := kept.mark conversation owned
      (fun fanOut there => absurd rfl ((kept.fanOut conversation fanOut there).undrained bridge _ running))
      (by
        intro other drain there same unsent
        obtain rfl := held.alone other drain there same
        obtain rfl := Option.some.inj (running.symm.trans there)
        exact absurd rfl unsent)
    refine { marked with fanOut := ?_, drain := ?_, handed := ?_ }
    · intro key fanOut there
      have own := marked.fanOut key fanOut there
      exact { own with undrained := fun other drain present => own.undrained other drain (lookup_of_erase present) }
    · intro other drain present
      have others := marked.drain other drain (lookup_of_erase present)
      exact { others with alone := fun third thirdDrain there => others.alone third thirdDrain (lookup_of_erase there) }
    · intro id listed
      obtain ⟨row, there, why⟩ := kept.handed id listed
      obtain ⟨after, stored, same, keeps, marks⟩ := Pushes.stored_mark there (keptRows.map IngressPush.pushId)
      refine ⟨after, stored, ?_⟩
      rcases why with delivered | handed | ⟨other, drain, present, own, sent, among⟩
      · exact .inl (keeps delivered)
      · exact .inr (.inl (same ▸ handed))
      · by_cases here : bridge = other
        · subst here
          obtain rfl := Option.some.inj (running.symm.trans present)
          exact .inl (marks among)
        · refine .inr (.inr ⟨other, drain, ?_, own.trans (congrArg _ same.symm), sent, among⟩)
          rw [lookup_erase, if_neg here]
          exact present
  next => cases stepped

theorem step (world : World) (event : Event) (after : World) (kept : HandedOnce world) (apart : world.Apart event)
    (stepped : world.step event = some after) : HandedOnce after := by
  cases event with
  | enqueue targetSubscriber eagerWake source publishTsNs =>
    exact Option.some.inj stepped ▸ kept.enqueue targetSubscriber eagerWake source publishTsNs
  | bridgeUp conversation => exact Option.some.inj stepped ▸ { kept with }
  | bridgeDown conversation => exact Option.some.inj stepped ▸ { kept with }
  | scan => exact kept.scan stepped
  | spawn => exact kept.spawn apart stepped
  | dispatchRow subscriber => exact kept.dispatchRow stepped
  | markDelivered subscriber => exact kept.markDelivered stepped
  | supervise subscriber => exact kept.supervise stepped
  | drainLoad bridge conversation idleTooLong => exact kept.drainLoad apart stepped
  | drainDrop bridge => exact kept.drainDrop stepped
  | drainSend bridge => exact kept.drainSend stepped
  | drainMark bridge => exact kept.drainMark stepped

end HandedOnce

/-- In every run whose sections keep fan-outs and drains of a conversation apart, no row is
    handed to its conversation twice. -/
theorem ingress_handed_at_most_once (events : List Event) (world : World)
    (ran : run World.step {} events = some world) (apart : Along World.step World.Apart {} events) :
    world.handed.Nodup :=
  (run_preserves HandedOnce.step HandedOnce.empty apart ran).once

/-- Two fan-outs of a conversation, a drain with stale news, and a fan-out that finds no bridge. -/
def apartRun : List Event :=
  [.enqueue 5 true "cron:daily" 10, .enqueue 5 true "repo_sync:pulled" 20, .bridgeUp 5, .scan, .spawn, .dispatchRow 5,
    .dispatchRow 5, .markDelivered 5, .supervise 5, .bridgeDown 5, .enqueue 5 true "cron:daily" 30,
    .enqueue 5 false "repo_sync:pulled" 40, .scan, .spawn, .dispatchRow 5, .markDelivered 5, .supervise 5,
    .drainLoad 1 5 true, .drainDrop 1, .drainSend 1, .bridgeUp 5, .drainMark 1, .scan, .spawn]

theorem apart_run_hands_once :
    ∃ world, run World.step {} apartRun = some world ∧ world.handed = [3, 2, 1] ∧ world.handed.Nodup := by
  have reached : (run World.step {} apartRun).map World.handed = some [3, 2, 1] := by decide +kernel
  obtain ⟨world, ran, handed⟩ := Option.map_eq_some_iff.mp reached
  exact ⟨world, ran, handed, ingress_handed_at_most_once apartRun world ran (by decide +kernel)⟩

/-- The loop scans a row that the fan-out under way is about to mark, and finds the subscriber no
    longer in flight; and a drain loads a row that a fan-out then hands to the bridge. -/
theorem scanned_row_handed_twice :
    (run World.step {} [.enqueue 5 true "cron:daily" 10, .bridgeUp 5, .scan, .spawn, .dispatchRow 5, .scan,
        .markDelivered 5, .supervise 5, .spawn, .dispatchRow 5]).map World.handed = some [1, 1] ∧
      (run World.step {} [.enqueue 5 true "cron:daily" 10, .drainLoad 1 5 false, .bridgeUp 5, .scan, .spawn,
        .dispatchRow 5, .drainDrop 1, .drainSend 1]).map World.handed = some [1, 1] := by
  decide +kernel

end Brenn.Ingress
