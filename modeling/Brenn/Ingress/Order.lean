import Brenn.Ingress.Exclusion

/-!
The order in which a conversation gets its ingress rows.

A fan-out tries the rows of a conversation in the order of their stamps and goes on past a row that
finds no bridge or whose send fails. The order stands as long as a bridge does not come up behind
a row passed by.
-/

namespace Brenn.Ingress
open Brenn.Lib Std

def Pushes.Has (pushes : Pushes) (push : IngressPush) : Prop := ∃ delivered, pushes.Holds delivered push

/-- Published to one conversation, the first strictly before the second. -/
def IngressPush.Before (earlier later : IngressPush) : Prop :=
  earlier.targetSubscriber = later.targetSubscriber ∧ earlier.publishTsNs < later.publishTsNs

instance (earlier later : IngressPush) : Decidable (earlier.Before later) := inferInstanceAs (Decidable (_ ∧ _))

/-- The rows of a conversation are loud and stored in the order of their stamps, a bridge comes up only
    while no row that was passed by is before one its fan-out has still to try, and no bridge drains on
    its own. -/
def World.InTurn (world : World) : Event → Prop
  | .enqueue targetSubscriber eagerWake _ publishTsNs =>
    eagerWake = true ∧ ∀ entry ∈ world.pushes.toList, entry.2.push.targetSubscriber = targetSubscriber →
      entry.2.push.publishTsNs ≤ publishTsNs
  | .bridgeUp conversation => conversation ∈ world.activeBridges ∨
    ∀ fanOut ∈ world.fanOuts[conversation]?, ∀ row ∈ fanOut.rows, ∀ entry ∈ world.pushes.toList,
      entry.2.push.Before row → entry.2.push.pushId ∈ world.handed ∨ entry.2.push ∈ fanOut.rows
  | .drainLoad .. | .drainDrop _ | .drainSend _ | .drainMark _ => False
  | _ => True

instance (world : World) : (event : Event) → Decidable (world.InTurn event)
  | .enqueue .. => inferInstanceAs (Decidable (_ ∧ _))
  | .bridgeUp _ => inferInstanceAs (Decidable (_ ∨ ∀ fanOut ∈ _, ∀ row ∈ _, ∀ entry ∈ _, _ → _ ∨ _))
  | .drainLoad .. | .drainDrop _ | .drainSend _ | .drainMark _ => inferInstanceAs (Decidable False)
  | .bridgeDown _ | .scan | .spawn | .dispatchRow _ | .markDelivered _ | .supervise _ => inferInstanceAs (Decidable True)

/-! ### What is listed -/

structure Listed (pushes : Pushes) (rows : List IngressPush) : Prop where
  stored : ∀ row ∈ rows, pushes.Has row
  sorted : rows.Pairwise fun earlier later => earlier.publishTsNs ≤ later.publishTsNs

/-- Whatever comes before a listed row was handed over or is listed too. -/
def Gathered (pushes : Pushes) (handed : List Nat) (rows : List IngressPush) : Prop :=
  ∀ row ∈ rows, ∀ earlier, pushes.Has earlier → earlier.Before row → earlier.pushId ∈ handed ∨ earlier ∈ rows

structure Orderly (world : World) : Prop where
  keyed : world.pushes.Keyed
  fresh : ∀ (id : Nat) row, world.pushes[id]? = some row → id < world.nextPushId
  loud : ∀ push, world.pushes.Has push → push.eagerWake = true
  marked : ∀ push, world.pushes.Holds true push → push.pushId ∈ world.handed
  known : ∀ id ∈ world.handed, id < world.nextPushId
  due : ∀ dueRows ∈ world.dueRows, Listed world.pushes dueRows ∧ Gathered world.pushes world.handed dueRows
  fanOut : ∀ (key : Nat) fanOut, world.fanOuts[key]? = some fanOut → Listed world.pushes fanOut.rows ∧
    (∀ id ∈ fanOut.deliveredIds, id ∈ world.handed) ∧
    (key ∈ world.activeBridges → Gathered world.pushes world.handed fanOut.rows)
  ordered : ∀ earlier later, world.pushes.Has earlier → world.pushes.Has later → earlier.Before later →
    ∀ after before, world.handed = after ++ later.pushId :: before → earlier.pushId ∈ before

/-! ### Lists kept by the steps -/

section
variable {pushes stored : Pushes} {handed : List Nat} {rows : List IngressPush}

theorem Listed.mono (listed : Listed pushes rows) (kept : ∀ push, pushes.Has push → stored.Has push) : Listed stored rows :=
  ⟨fun row here => kept row (listed.stored row here), listed.sorted⟩

theorem Listed.sublist {fewer : List IngressPush} (listed : Listed pushes rows) (part : fewer.Sublist rows) :
    Listed pushes fewer :=
  ⟨fun row here => listed.stored row (part.mem here), listed.sorted.sublist part⟩

theorem Gathered.handing (gathered : Gathered pushes handed rows) (id : Nat) : Gathered pushes (id :: handed) rows :=
  fun row here earlier known before => (gathered row here earlier known before).imp_left (List.mem_cons_of_mem _)

theorem Gathered.filter (gathered : Gathered pushes handed rows) {wanted : IngressPush → Bool}
    (together : ∀ row other, row.targetSubscriber = other.targetSubscriber → wanted row = wanted other) :
    Gathered pushes handed (rows.filter wanted) := by
  intro row here earlier known before
  obtain ⟨listed, wants⟩ := List.mem_filter.mp here
  refine (gathered row listed earlier known before).imp_right fun among => List.mem_filter.mpr ⟨among, ?_⟩
  rw [together earlier row before.1, wants]

end

namespace Orderly

variable {world after : World}

theorem empty : Orderly {} where
  keyed := by intro id row there; simp at there
  fresh := by simp
  loud push stored := by
    obtain ⟨delivered, there⟩ := stored
    simp [Pushes.Holds] at there
  marked push there := by simp [Pushes.Holds] at there
  known := nofun
  due := nofun
  fanOut := by simp
  ordered _ _ _ _ _ after before split := by simp at split

theorem enqueue (orderly : Orderly world) {targetSubscriber : Nat} {eagerWake : Bool} {source : String} {publishTsNs : Nat}
    (inTurn : world.InTurn (.enqueue targetSubscriber eagerWake source publishTsNs)) :
    Orderly (world.enqueue targetSubscriber eagerWake source publishTsNs) := by
  obtain ⟨loud, stamped⟩ := inTurn
  have absent : world.pushes[world.nextPushId]? = none := by
    cases stored : world.pushes[world.nextPushId]? with
    | none => rfl
    | some row => exact absurd (orderly.fresh _ row stored) (Nat.lt_irrefl _)
  have latest : ∀ push, world.pushes.Has push → push.targetSubscriber = targetSubscriber →
      push.publishTsNs ≤ publishTsNs := fun push stored => by
    obtain ⟨delivered, there⟩ := stored
    exact stamped (push.pushId, ⟨push, delivered⟩) (TreeMap.mem_toList_iff_getElem?_eq_some.mpr there)
  have holds : ∀ {delivered push}, (world.enqueue targetSubscriber eagerWake source publishTsNs).pushes.Holds delivered push →
      (push = ⟨world.nextPushId, targetSubscriber, eagerWake, source, publishTsNs⟩ ∧ delivered = false) ∨
        world.pushes.Holds delivered push := by
    intro delivered push stored
    unfold Pushes.Holds World.enqueue at stored
    rw [lookup_insert] at stored
    split at stored
    · cases stored
      exact .inl ⟨rfl, rfl⟩
    · exact .inr stored
  have has : ∀ {push}, (world.enqueue targetSubscriber eagerWake source publishTsNs).pushes.Has push →
      push = ⟨world.nextPushId, targetSubscriber, eagerWake, source, publishTsNs⟩ ∨ world.pushes.Has push :=
    fun ⟨delivered, stored⟩ => (holds stored).imp And.left fun old => ⟨delivered, old⟩
  have still : ∀ push, world.pushes.Has push → (world.enqueue targetSubscriber eagerWake source publishTsNs).pushes.Has push := by
    rintro push ⟨delivered, stored⟩
    refine ⟨delivered, ?_⟩
    unfold Pushes.Holds World.enqueue
    rw [lookup_insert, if_neg, stored]
    rintro same
    exact nomatch (same ▸ absent).symm.trans stored
  have gathered : ∀ {rows}, Listed world.pushes rows → Gathered world.pushes world.handed rows →
      Gathered (world.enqueue targetSubscriber eagerWake source publishTsNs).pushes world.handed rows := by
    intro rows listed gathered row here earlier known before
    rcases has known with rfl | old
    · exact absurd before.2 (Nat.not_lt.mpr (latest row (listed.stored row here) before.1.symm))
    · exact gathered row here earlier old before
  refine ⟨?_, ?_, ?_, ?_, ?_, ?_, ?_, ?_⟩
  · refine forall_lookup_insert rfl fun id row _ stored => orderly.keyed id row stored
  · exact forall_lookup_insert (Nat.lt_succ_self _) fun id row _ stored => (orderly.fresh id row stored).trans (Nat.lt_succ_self _)
  · intro push stored
    rcases has stored with rfl | old
    · exact loud
    · exact orderly.loud push old
  · intro push stored
    rcases holds stored with ⟨-, new⟩ | old
    · cases new
    · exact orderly.marked push old
  · exact fun id handed => (orderly.known id handed).trans (Nat.lt_succ_self _)
  · intro dueRows scanned
    obtain ⟨listed, ready⟩ := orderly.due dueRows scanned
    exact ⟨listed.mono still, gathered listed ready⟩
  · intro key fanOut there
    obtain ⟨listed, ids, ready⟩ := orderly.fanOut key fanOut there
    exact ⟨listed.mono still, ids, fun live => gathered listed (ready live)⟩
  · intro earlier later known known' before after rest split
    rcases has known' with rfl | old
    · -- a row that is not there yet was not handed over
      have among : world.nextPushId ∈ world.handed := by
        rw [show world.handed = _ from split]
        exact List.mem_append_right _ List.mem_cons_self
      exact absurd (orderly.known _ among) (Nat.lt_irrefl _)
    · rcases has known with rfl | older
      · exact absurd before.2 (Nat.not_lt.mpr (latest later old before.1.symm))
      · exact orderly.ordered earlier later older old before after rest split

theorem bridgeUp (orderly : Orderly world) {conversation : Nat} (inTurn : world.InTurn (.bridgeUp conversation)) :
    Orderly { world with activeBridges := conversation :: world.activeBridges } := by
  refine { orderly with fanOut := fun key fanOut there => ?_ }
  obtain ⟨listed, ids, ready⟩ := orderly.fanOut key fanOut there
  refine ⟨listed, ids, fun live => ?_⟩
  rcases List.mem_cons.mp live with rfl | before
  · rcases inTurn with up | clear
    · exact ready up
    · rintro row here earlier ⟨delivered, stored⟩ before
      exact clear fanOut there row here _ (TreeMap.mem_toList_iff_getElem?_eq_some.mpr stored) before
  · exact ready before

theorem bridgeDown (orderly : Orderly world) (conversation : Nat) :
    Orderly { world with activeBridges := world.activeBridges.filter fun live => decide (live ≠ conversation) } := by
  refine { orderly with fanOut := fun key fanOut there => ?_ }
  obtain ⟨listed, ids, ready⟩ := orderly.fanOut key fanOut there
  exact ⟨listed, ids, fun live => ready (List.mem_of_mem_filter live)⟩

theorem scan (orderly : Orderly world) (stepped : world.scan = some after) : Orderly after := by
  unfold World.scan at stepped
  split at stepped
  next =>
    cases stepped
    refine { orderly with due := ?_ }
    rintro _ ⟨⟩
    refine ⟨⟨fun row listed => ?_, List.pairwise_insertionSort _ _⟩, fun row _ earlier known _ => ?_⟩
    · obtain ⟨delivered, stored, -⟩ := (Pushes.mem_load orderly.keyed).mp listed
      exact ⟨delivered, stored⟩
    · obtain ⟨delivered, stored⟩ := known
      cases delivered with
      | true => exact .inl (orderly.marked earlier stored)
      | false =>
        refine .inr ((Pushes.mem_load orderly.keyed).mpr ⟨false, stored, ?_⟩)
        simp [orderly.loud earlier ⟨false, stored⟩]
  next => cases stepped

/-- A fan-out starts with all the rows the scan listed for its conversation. -/
theorem spawn (orderly : Orderly world) (stepped : world.spawn = some after) : Orderly after := by
  unfold World.spawn at stepped
  split at stepped
  next => cases stepped
  next dueRows scanned =>
    obtain ⟨listed, ready⟩ := orderly.due dueRows scanned
    cases stepped
    refine { orderly with due := nofun, fanOut := fun key fanOut there => ?_ }
    rw [HandedOnce.lookup_started] at there
    split at there
    next =>
      cases there
      refine ⟨(listed.sublist List.filter_sublist).sublist List.filter_sublist, nofun, fun _ => ?_⟩
      refine Gathered.filter (Gathered.filter ready ?_) ?_ <;> intro row other same <;> rw [same]
    next => exact orderly.fanOut key fanOut there

/-- The first row of a fan-out whose bridge is up has everything before it handed over. -/
theorem first_due (orderly : Orderly world) {subscriber : Nat} {row : IngressPush} {rows : List IngressPush} {ids : List Nat}
    (running : world.fanOuts[subscriber]? = some ⟨row :: rows, ids⟩) (live : subscriber ∈ world.activeBridges)
    {earlier : IngressPush} (known : world.pushes.Has earlier) (before : earlier.Before row) : earlier.pushId ∈ world.handed := by
  obtain ⟨listed, -, ready⟩ := orderly.fanOut subscriber _ running
  refine (ready live row List.mem_cons_self earlier known before).resolve_right fun among => ?_
  rcases List.mem_cons.mp among with rfl | later
  · exact Nat.lt_irrefl _ before.2
  · exact Nat.not_lt.mpr ((List.pairwise_cons.mp listed.sorted).1 earlier later) before.2

theorem has_inj {earlier later : IngressPush} (known : world.pushes.Has earlier) (known' : world.pushes.Has later)
    (same : earlier.pushId = later.pushId) : earlier = later := by
  obtain ⟨delivered, there⟩ := known
  obtain ⟨delivered', there'⟩ := known'
  unfold Pushes.Holds at there there'
  rw [same, there'] at there
  exact (PushRow.mk.inj (Option.some.inj there)).1.symm

theorem dispatchRow (orderly : Orderly world) {subscriber : Nat} (stepped : world.dispatchRow subscriber = some after) :
    Orderly after := by
  unfold World.dispatchRow at stepped
  split at stepped
  next row rows deliveredIds running =>
    obtain ⟨listed, ids, ready⟩ := orderly.fanOut subscriber _ running
    have rest := listed.sublist (List.sublist_cons_self row rows)
    have here := listed.stored row List.mem_cons_self
    split at stepped
    next live =>
      cases stepped
      refine { orderly with marked := ?_, known := ?_, due := ?_, fanOut := ?_, ordered := ?_ }
      · exact fun push stored => List.mem_cons_of_mem _ (orderly.marked push stored)
      · refine List.forall_mem_cons.mpr ⟨?_, orderly.known⟩
        obtain ⟨delivered, stored⟩ := here
        exact orderly.fresh _ _ stored
      · intro dueRows scanned
        obtain ⟨due, gathered⟩ := orderly.due dueRows scanned
        exact ⟨due, gathered.handing _⟩
      · refine forall_lookup_insert ⟨rest, ?_, fun _ => ?_⟩ fun key fanOut _ there => ?_
        · exact List.forall_mem_cons.mpr ⟨List.mem_cons_self, fun id old => List.mem_cons_of_mem _ (ids id old)⟩
        · intro other among earlier known before
          rcases ready live other (List.mem_cons_of_mem _ among) earlier known before with done | still
          · exact .inl (List.mem_cons_of_mem _ done)
          · rcases List.mem_cons.mp still with rfl | later
            · exact .inl List.mem_cons_self
            · exact .inr later
        · obtain ⟨due, told, gathered⟩ := orderly.fanOut key fanOut there
          exact ⟨due, fun id old => List.mem_cons_of_mem _ (told id old), fun up => (gathered up).handing _⟩
      · intro earlier later known known' before newer older split
        cases newer with
        | nil =>
          obtain ⟨same, rfl⟩ := List.cons.inj split
          obtain rfl := has_inj here known' same
          exact orderly.first_due running live known before
        | cons newest newer => exact orderly.ordered earlier later known known' before newer older (List.cons.inj split).2
    next down =>
      cases stepped
      refine { orderly with fanOut := ?_ }
      exact forall_lookup_insert ⟨rest, ids, fun live => absurd live down⟩ fun key fanOut _ there => orderly.fanOut key fanOut there
  next => cases stepped

theorem markDelivered (orderly : Orderly world) {subscriber : Nat} (stepped : world.markDelivered subscriber = some after) :
    Orderly after := by
  unfold World.markDelivered at stepped
  split at stepped
  next deliveredIds running =>
    obtain ⟨-, ids, -⟩ := orderly.fanOut subscriber _ running
    cases stepped
    have has : ∀ push, (world.pushes.markPendingPushesDelivered deliveredIds).Has push → world.pushes.Has push := by
      rintro push ⟨delivered, stored⟩
      obtain ⟨row, there, same⟩ := Pushes.stored_of_mark stored
      obtain rfl : row.push = push := same
      exact ⟨row.delivered, there⟩
    have still : ∀ push, world.pushes.Has push → (world.pushes.markPendingPushesDelivered deliveredIds).Has push :=
      fun push ⟨_, stored⟩ => ⟨_, stored.mark deliveredIds⟩
    have gathered : ∀ {rows}, Gathered world.pushes world.handed rows →
        Gathered (world.pushes.markPendingPushesDelivered deliveredIds) world.handed rows :=
      fun gathered row here earlier known before => gathered row here earlier (has earlier known) before
    refine { keyed := ?_, fresh := ?_, loud := ?_, marked := ?_, known := orderly.known, due := ?_, fanOut := ?_, ordered := ?_ }
    · intro id row stored
      obtain ⟨old, there, same⟩ := Pushes.stored_of_mark stored
      exact same ▸ orderly.keyed id old there
    · intro id row stored
      obtain ⟨old, there, -⟩ := Pushes.stored_of_mark stored
      exact orderly.fresh id old there
    · exact fun push stored => orderly.loud push (has push stored)
    · intro push stored
      obtain ⟨delivered, old⟩ := has push ⟨true, stored⟩
      have marked := old.mark deliveredIds
      rw [Pushes.Holds, stored, Option.some.injEq, PushRow.mk.injEq] at marked
      rcases (Bool.or_eq_true _ _).mp marked.2.symm with listed | before
      · exact ids _ (of_decide_eq_true listed)
      · exact orderly.marked push (before ▸ old)
    · intro dueRows scanned
      obtain ⟨listed, ready⟩ := orderly.due dueRows scanned
      exact ⟨listed.mono still, gathered ready⟩
    · intro key fanOut there
      obtain ⟨listed, told, ready⟩ := orderly.fanOut key fanOut (lookup_of_erase there)
      exact ⟨listed.mono still, told, fun live => gathered (ready live)⟩
    · exact fun earlier later known known' => orderly.ordered earlier later (has _ known) (has _ known')
  next => cases stepped

theorem step (world : World) (event : Event) (after : World) (orderly : Orderly world) (inTurn : world.InTurn event)
    (stepped : world.step event = some after) : Orderly after := by
  cases event with
  | enqueue targetSubscriber eagerWake source publishTsNs => exact Option.some.inj stepped ▸ orderly.enqueue inTurn
  | bridgeUp conversation => exact Option.some.inj stepped ▸ orderly.bridgeUp inTurn
  | bridgeDown conversation => exact Option.some.inj stepped ▸ orderly.bridgeDown conversation
  | scan => exact orderly.scan stepped
  | spawn => exact orderly.spawn stepped
  | dispatchRow subscriber => exact orderly.dispatchRow stepped
  | markDelivered subscriber => exact orderly.markDelivered stepped
  | supervise subscriber =>
    simp only [World.step, World.supervise] at stepped
    split at stepped
    · exact Option.some.inj stepped ▸ { orderly with }
    · cases stepped
  | _ => exact inTurn.elim

end Orderly

/-- In every run of scans and fan-outs in which no bridge comes up behind a row that was passed by:
    where a row was handed over, every row published to the conversation before it had been. -/
theorem ingress_handed_in_order (events : List Event) (world : World) (ran : run World.step {} events = some world)
    (inTurn : Along World.step World.InTurn {} events) :
    ∀ earlier later, world.pushes.Has earlier → world.pushes.Has later → earlier.Before later →
      ∀ after before, world.handed = after ++ later.pushId :: before → earlier.pushId ∈ before :=
  (run_preserves Orderly.step Orderly.empty inTurn ran).ordered

def sleepingRun : List Event :=
  [.enqueue 5 true "cron:daily" 10, .enqueue 5 true "cron:daily" 20, .scan, .spawn, .dispatchRow 5, .dispatchRow 5,
    .markDelivered 5, .supervise 5, .bridgeUp 5, .scan, .spawn, .dispatchRow 5, .dispatchRow 5, .markDelivered 5]

theorem sleeping_run_in_order :
    ∃ world, run World.step {} sleepingRun = some world ∧ world.handed = [2, 1] ∧
      ∀ earlier later, world.pushes.Has earlier → world.pushes.Has later → earlier.Before later →
        ∀ after before, world.handed = after ++ later.pushId :: before → earlier.pushId ∈ before := by
  have reached : (run World.step {} sleepingRun).map World.handed = some [2, 1] := by decide +kernel
  obtain ⟨world, ran, handed⟩ := Option.map_eq_some_iff.mp reached
  exact ⟨world, ran, handed, ingress_handed_in_order sleepingRun world ran (by decide +kernel)⟩

/-- The first row finds no bridge, the bridge comes up, and the fan-out goes on with the second. -/
theorem later_row_overtakes :
    ∃ world, run World.step {} [.enqueue 5 true "cron:daily" 10, .enqueue 5 true "cron:daily" 20, .scan, .spawn,
        .dispatchRow 5, .bridgeUp 5, .dispatchRow 5, .markDelivered 5] = some world ∧ world.handed = [2] ∧
      ∃ earlier later, world.pushes.Holds false earlier ∧ world.pushes.Holds true later ∧ earlier.Before later ∧
        later.pushId ∈ world.handed ∧ earlier.pushId ∉ world.handed := by
  obtain ⟨world, ran, facts⟩ : ∃ world : World, run World.step {} [.enqueue 5 true "cron:daily" 10, .enqueue 5 true "cron:daily" 20,
        .scan, .spawn, .dispatchRow 5, .bridgeUp 5, .dispatchRow 5, .markDelivered 5] = some world ∧
      decide (world.handed = [2] ∧ world.pushes[1]? = some (PushRow.mk ⟨1, 5, true, "cron:daily", 10⟩ false) ∧
        world.pushes[2]? = some (PushRow.mk ⟨2, 5, true, "cron:daily", 20⟩ true)) = true :=
    Option.map_eq_some_iff.mp (by decide +kernel)
  obtain ⟨handed, first, second⟩ := of_decide_eq_true facts
  refine ⟨world, ran, handed, ⟨1, 5, true, "cron:daily", 10⟩, ⟨2, 5, true, "cron:daily", 20⟩, first, second,
    ⟨rfl, by decide⟩, ?_, ?_⟩
  · rw [handed]
    decide
  · rw [handed]
    decide

end Brenn.Ingress
