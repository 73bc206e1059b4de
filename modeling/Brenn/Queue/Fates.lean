import Brenn.Lib.Run
import Brenn.Queue.Deferred

/-!
The fates of parked messages over whole runs of a deferred set.

Beside the set a run keeps the ids it issued, the ids it cancelled and what each release
call returned. Every issued id is still parked, cancelled, or in one release.
-/

namespace Brenn.Queue
open Brenn.Lib

universe u v

variable {M : Type u} {P : Type v}

inductive DeferredOp (M : Type u) (P : Type v) where
  | park (sender : P) (message : M) (releaseAt : Nat)
  | edit (id : Nat) (message : Option M) (releaseAt : Option Nat)
  | cancel (id : Nat)
  | releaseDue (now : Nat)
  | setCap (cap : Option Nat)
  deriving Repr, DecidableEq

structure Schedule (M : Type u) (P : Type v) where
  set : DeferredSet M P
  issued : List Nat := []
  cancelled : List Nat := []
  /-- What each release call returned, in call order. -/
  releases : List (List (Deferred M P)) := []

def Deferred.edited (entry : Deferred M P) (message : Option M) (releaseAt : Option Nat) : Deferred M P :=
  { entry with message := message.getD entry.message, releaseAt := releaseAt.getD entry.releaseAt }

namespace Schedule

def opened (cap : Option Nat) : Schedule M P := { set := .new cap }

def step (schedule : Schedule M P) : DeferredOp M P → Option (Schedule M P)
  | .park sender message releaseAt =>
    match schedule.set.park sender message releaseAt with
    | .error _ => some schedule
    | .ok (id, set) => some { schedule with set, issued := schedule.issued ++ [id] }
  | .edit id message releaseAt =>
    match schedule.set.edit id message releaseAt with
    | .error _ => some schedule
    | .ok set => some { schedule with set }
  | .cancel id =>
    match schedule.set.cancel id with
    | none => some schedule
    | some (entry, set) => some { schedule with set, cancelled := schedule.cancelled ++ [entry.id] }
  | .releaseDue now =>
    let (due, set) := schedule.set.releaseDue now
    some { schedule with set, releases := schedule.releases ++ [due] }
  | .setCap cap => some { schedule with set := schedule.set.setCap cap }

def others (schedule : Schedule M P) (id : Nat) : List (Deferred M P) :=
  schedule.set.entries.filter fun entry => decide (entry.id ≠ id)

def Full (schedule : Schedule M P) : Prop := ∃ cap, schedule.set.cap = some cap ∧ cap ≤ schedule.set.len

/-- What one operation does, to the entry it names and to every other. -/
def Does (schedule next : Schedule M P) : DeferredOp M P → Prop
  | .park sender message releaseAt =>
    (schedule.Full → next = schedule) ∧
    (¬ schedule.Full → next.issued = schedule.issued ++ [schedule.set.nextId] ∧
      next.set.nextId = schedule.set.nextId + 1 ∧
      (⟨schedule.set.nextId, sender, releaseAt, message⟩ : Deferred M P) ∈ next.set.entries ∧
      next.others schedule.set.nextId = schedule.set.entries ∧
      next.cancelled = schedule.cancelled ∧ next.releases = schedule.releases)
  | .edit id message releaseAt =>
    ((∀ entry ∈ schedule.set.entries, entry.id ≠ id) → next = schedule) ∧
    next.others id = schedule.others id ∧
    (∀ entry ∈ schedule.set.entries, entry.id = id → entry.edited message releaseAt ∈ next.set.entries) ∧
    next.set.nextId = schedule.set.nextId ∧ next.issued = schedule.issued ∧ next.cancelled = schedule.cancelled ∧
    next.releases = schedule.releases
  | .cancel id =>
    ((∀ entry ∈ schedule.set.entries, entry.id ≠ id) → next = schedule) ∧
    next.set.entries = schedule.others id ∧
    ((∃ entry ∈ schedule.set.entries, entry.id = id) → next.cancelled = schedule.cancelled ++ [id]) ∧
    next.set.nextId = schedule.set.nextId ∧ next.issued = schedule.issued ∧ next.releases = schedule.releases
  | .releaseDue now =>
    next.releases = schedule.releases ++ [schedule.set.entries.filter fun entry => decide (entry.releaseAt ≤ now)] ∧
    next.set.entries = (schedule.set.entries.filter fun entry => decide (now < entry.releaseAt)) ∧
    next.set.nextId = schedule.set.nextId ∧ next.issued = schedule.issued ∧ next.cancelled = schedule.cancelled
  | .setCap cap => next = { schedule with set := schedule.set.setCap cap }

/-! ### One operation -/

variable (schedule : Schedule M P)

theorem full_iff : schedule.Full ↔ schedule.set.refusal.isSome := by
  unfold Full DeferredSet.refusal DeferredSet.len
  cases schedule.set.cap with
  | none => simp
  | some cap => by_cases reached : cap ≤ schedule.set.entries.length <;> simp [reached]

/-- Putting an entry at its place leaves the others where they are. -/
theorem filter_insertBy {wanted : Deferred M P → Bool} {entry : Deferred M P} {entries : List (Deferred M P)}
    (out : wanted entry = false) (kept : ∀ other ∈ entries, wanted other = true) :
    (insertBy Deferred.Before entry entries).filter wanted = entries := by
  unfold insertBy
  rw [List.filter_append, List.filter_cons_of_neg (by simp [out]), ← List.filter_append, List.takeWhile_append_dropWhile]
  exact List.filter_eq_self.mpr kept

theorem edit_absent {id : Nat} (absent : ∀ entry ∈ schedule.set.entries, entry.id ≠ id) (message : Option M)
    (releaseAt : Option Nat) : schedule.set.edit id message releaseAt = .error ⟨id⟩ := by
  have missing : schedule.set.get id = none := List.find?_eq_none.mpr fun entry listed => by simpa using absent entry listed
  simp [DeferredSet.edit, missing]

theorem cancel_absent {id : Nat} (absent : ∀ entry ∈ schedule.set.entries, entry.id ≠ id) :
    schedule.set.cancel id = none := by
  have missing : schedule.set.get id = none := List.find?_eq_none.mpr fun entry listed => by simpa using absent entry listed
  simp [DeferredSet.cancel, missing]

theorem others_absent {id : Nat} (absent : ∀ entry ∈ schedule.set.entries, entry.id ≠ id) :
    schedule.others id = schedule.set.entries :=
  List.filter_eq_self.mpr fun entry listed => decide_eq_true (absent entry listed)

def places : List Nat :=
  schedule.set.entries.map Deferred.id ++ (schedule.cancelled ++ schedule.releases.flatten.map Deferred.id)

theorem park_does (sender : P) (message : M) (releaseAt : Nat) :
    ∃ next, schedule.step (.park sender message releaseAt) = some next ∧
      schedule.Does next (.park sender message releaseAt) ∧
      (schedule.places.Perm schedule.issued → next.places.Perm next.issued) := by
  by_cases full : schedule.Full
  · obtain ⟨refused, reached⟩ := Option.isSome_iff_exists.mp (schedule.full_iff.mp full)
    exact ⟨schedule, by simp [step, DeferredSet.park, reached], ⟨fun _ => rfl, fun room => absurd full room⟩, id⟩
  · have room : schedule.set.refusal = none := by
      rw [← Option.not_isSome_iff_eq_none, ← schedule.full_iff]
      exact full
    obtain ⟨after, parked, _, entries⟩ := schedule.set.park_entries room sender message releaseAt
    refine ⟨{ schedule with set := after, issued := schedule.issued ++ [schedule.set.nextId] }, by simp [step, parked],
      ⟨fun reached => absurd reached full, fun _ => ⟨rfl, DeferredSet.park_nextId parked, ?_, ?_, rfl, rfl⟩⟩, ?_⟩
    · rw [entries]
      exact mem_insertBy.mpr (.inl rfl)
    · simp only [others, entries]
      exact filter_insertBy (by simp) fun other listed => by simpa using (schedule.set.fresh other listed).ne
    · intro placed
      have moved : (after.entries.map Deferred.id).Perm (schedule.set.nextId :: schedule.set.entries.map Deferred.id) := by
        rw [entries]
        exact (insertBy_perm _ _).map Deferred.id
      refine (moved.append_right _).trans ?_
      exact (List.Perm.cons _ placed).trans (List.perm_append_singleton _ _).symm

theorem entries_perm {entry : Deferred M P} (listed : entry ∈ schedule.set.entries) :
    schedule.set.entries.Perm (entry :: schedule.others entry.id) := by
  simpa [others] using map_at_key_perm schedule.set.unique listed fun other => other

theorem edit_does (id : Nat) (message : Option M) (releaseAt : Option Nat) :
    ∃ next, schedule.step (.edit id message releaseAt) = some next ∧
      schedule.Does next (.edit id message releaseAt) ∧
      (schedule.places.Perm schedule.issued → next.places.Perm next.issued) := by
  by_cases held : ∃ entry ∈ schedule.set.entries, entry.id = id
  · obtain ⟨entry, listed, rfl⟩ := held
    obtain ⟨after, edited, _, entries⟩ := schedule.set.edit_entries listed message releaseAt
    refine ⟨{ schedule with set := after }, by simp [step, edited], ⟨fun absent => absurd rfl (absent entry listed),
      ?_, fun other inside same => ?_, DeferredSet.edit_nextId edited, rfl, rfl, rfl⟩, ?_⟩
    · simp only [others, entries]
      exact filter_insertBy (by simp) fun other inside => (List.mem_filter.mp inside).2
    · obtain rfl : other = entry := List.inj_on_of_nodup_map schedule.set.unique inside listed same
      rw [entries]
      exact mem_insertBy.mpr (.inl rfl)
    · intro placed
      have moved : (after.entries.map Deferred.id).Perm (schedule.set.entries.map Deferred.id) := by
        rw [entries]
        exact ((insertBy_perm _ _).map Deferred.id).trans ((schedule.entries_perm listed).map Deferred.id).symm
      exact (moved.append_right _).trans placed
  · have absent : ∀ entry ∈ schedule.set.entries, entry.id ≠ id := fun entry listed same => held ⟨entry, listed, same⟩
    exact ⟨schedule, by simp [step, schedule.edit_absent absent], ⟨fun _ => rfl, rfl, fun entry listed same =>
      absurd same (absent entry listed), rfl, rfl, rfl, rfl⟩, fun placed => placed⟩

theorem cancel_does (id : Nat) : ∃ next, schedule.step (.cancel id) = some next ∧ schedule.Does next (.cancel id) ∧
    (schedule.places.Perm schedule.issued → next.places.Perm next.issued) := by
  by_cases held : ∃ entry ∈ schedule.set.entries, entry.id = id
  · obtain ⟨entry, listed, rfl⟩ := held
    have rest := schedule.set.without_entries entry.id
    refine ⟨{ schedule with set := schedule.set.without entry.id, cancelled := schedule.cancelled ++ [entry.id] },
      by simp [step, DeferredSet.cancel, schedule.set.get_of_mem listed],
      ⟨fun absent => absurd rfl (absent entry listed), rest, fun _ => rfl, rfl, rfl, rfl⟩, fun placed => ?_⟩
    refine .trans (List.perm_iff_count.mpr fun other => ?_) placed
    have taken := ((schedule.entries_perm listed).map Deferred.id).count_eq other
    simp only [others, places, rest, List.count_append, List.map_cons, List.count_cons, List.count_nil] at taken ⊢
    omega
  · have absent : ∀ entry ∈ schedule.set.entries, entry.id ≠ id := fun entry listed same => held ⟨entry, listed, same⟩
    exact ⟨schedule, by simp [step, schedule.cancel_absent absent], ⟨fun _ => rfl, (schedule.others_absent absent).symm,
      fun present => absurd present held, rfl, rfl, rfl⟩, fun placed => placed⟩

theorem releaseDue_does (now : Nat) :
    ∃ next, schedule.step (.releaseDue now) = some next ∧ schedule.Does next (.releaseDue now) ∧
      (schedule.places.Perm schedule.issued → next.places.Perm next.issued) := by
  obtain ⟨due, rest⟩ := schedule.set.releaseDue_entries now
  refine ⟨{ schedule with
      set := (schedule.set.releaseDue now).2
      releases := schedule.releases ++ [(schedule.set.releaseDue now).1] }, rfl, ⟨?_, ?_, rfl, rfl, rfl⟩, ?_⟩
  · rw [due]
  · rw [rest]
    refine List.filter_congr fun entry _ => ?_
    rw [← decide_not]
    exact decide_eq_decide.mpr not_le
  · intro placed
    refine .trans (List.perm_iff_count.mpr fun other => ?_) placed
    have split := ((List.filter_append_perm (fun entry : Deferred M P => decide (entry.releaseAt ≤ now))
      schedule.set.entries).map Deferred.id).count_eq other
    simp only [places, due, rest, List.flatten_append, List.flatten_singleton, List.map_append,
      List.count_append] at split ⊢
    omega

/-- Every operation goes through, does what is said, and leaves each issued id in one place. -/
theorem step_does (op : DeferredOp M P) : ∃ next, schedule.step op = some next ∧ schedule.Does next op ∧
    (schedule.places.Perm schedule.issued → next.places.Perm next.issued) := by
  cases op with
  | park sender message releaseAt => exact schedule.park_does sender message releaseAt
  | edit id message releaseAt => exact schedule.edit_does id message releaseAt
  | cancel id => exact schedule.cancel_does id
  | releaseDue now => exact schedule.releaseDue_does now
  | setCap cap => exact ⟨_, rfl, rfl, fun placed => placed⟩

/-! ### Whole runs -/

/-- The set is in order, and each id it issued has one fate. -/
structure Accounted (schedule : Schedule M P) : Prop where
  sorted : schedule.set.entries.Pairwise Deferred.Before
  unique : (schedule.set.entries.map Deferred.id).Nodup
  fresh : ∀ entry ∈ schedule.set.entries, entry.id < schedule.set.nextId
  earliest : schedule.set.nextRelease = (schedule.set.entries.map Deferred.releaseAt).min?
  /-- Parks were numbered in their order, and no number came back. -/
  numbered : schedule.issued = List.range' 1 (schedule.set.nextId - 1)
  ordered : ∀ call ∈ schedule.releases, call.Pairwise Deferred.Before
  fates : ∀ id, (schedule.set.entries.map Deferred.id).count id + schedule.cancelled.count id +
    (schedule.releases.map fun call => (call.map Deferred.id).count id).sum = if id ∈ schedule.issued then 1 else 0

structure Booked (schedule : Schedule M P) : Prop where
  placed : schedule.places.Perm schedule.issued
  started : 1 ≤ schedule.set.nextId
  numbered : schedule.issued = List.range' 1 (schedule.set.nextId - 1)
  ordered : ∀ call ∈ schedule.releases, call.Pairwise Deferred.Before

theorem opened_booked (cap : Option Nat) : (opened cap : Schedule M P).Booked where
  placed := .refl _
  started := le_rfl
  numbered := rfl
  ordered := by simp [opened]

/-- An operation other than a park issues nothing; a park issues the next number. -/
theorem Booked.does {schedule next : Schedule M P} {op : DeferredOp M P} (booked : schedule.Booked)
    (does : schedule.Does next op) (placed : next.places.Perm next.issued) : next.Booked := by
  -- the numbering under an operation that leaves the counter and the issued ids alone
  have unnumbered (counter : next.set.nextId = schedule.set.nextId) (issued : next.issued = schedule.issued)
      (ordered : ∀ call ∈ next.releases, call.Pairwise Deferred.Before) : next.Booked :=
    ⟨placed, counter ▸ booked.started, by rw [issued, counter, booked.numbered], ordered⟩
  cases op with
  | park sender message releaseAt =>
    by_cases full : schedule.Full
    · exact does.1 full ▸ booked
    · obtain ⟨issued, counter, _, _, _, releases⟩ := does.2 full
      have started := booked.started
      refine ⟨placed, by omega, ?_, releases ▸ booked.ordered⟩
      rw [issued, counter, booked.numbered, show schedule.set.nextId + 1 - 1 = schedule.set.nextId - 1 + 1 by omega,
        List.range'_concat]
      congr 2
      omega
  | edit id message releaseAt =>
    obtain ⟨_, _, _, counter, issued, _, releases⟩ := does
    exact unnumbered counter issued (releases ▸ booked.ordered)
  | cancel id =>
    obtain ⟨_, _, _, counter, issued, releases⟩ := does
    exact unnumbered counter issued (releases ▸ booked.ordered)
  | releaseDue now =>
    obtain ⟨releases, _, counter, issued, _⟩ := does
    refine unnumbered counter issued fun call called => ?_
    rw [releases] at called
    rcases List.mem_append.mp called with before | now
    · exact booked.ordered call before
    · rw [List.mem_singleton.mp now]
      exact schedule.set.sorted.filter _
  | setCap cap => exact unnumbered (does ▸ rfl) (does ▸ rfl) (does ▸ booked.ordered)

theorem nextRelease_eq_min (set : DeferredSet M P) : set.nextRelease = (set.entries.map Deferred.releaseAt).min? := by
  have sorted := set.sorted
  unfold DeferredSet.nextRelease
  generalize set.entries = entries at sorted
  cases entries with
  | nil => rfl
  | cons first rest =>
    refine (List.min?_eq_some_iff.mpr ⟨List.mem_cons_self, fun time listed => ?_⟩).symm
    rcases List.mem_cons.mp listed with rfl | later
    · exact le_rfl
    · obtain ⟨entry, inside, rfl⟩ := List.mem_map.mp later
      have before := List.rel_of_pairwise_cons sorted inside
      unfold Deferred.Before at before
      omega

theorem Booked.accounted {schedule : Schedule M P} (booked : schedule.Booked) : schedule.Accounted where
  sorted := schedule.set.sorted
  unique := schedule.set.unique
  fresh := schedule.set.fresh
  earliest := nextRelease_eq_min schedule.set
  numbered := booked.numbered
  ordered := booked.ordered
  fates := by
    intro id
    have once : schedule.issued.Nodup := booked.numbered ▸ List.nodup_range'
    have placed := booked.placed.count_eq id
    rw [List.Nodup.count once] at placed
    rw [← placed, places, List.count_append, List.count_append, Nat.add_assoc, List.map_flatten, List.count_flatten,
      List.map_map]
    rfl

theorem run_booked (cap : Option Nat) (ops : List (DeferredOp M P)) :
    ∃ reached : Schedule M P, run step (opened cap) ops = some reached ∧ reached.Booked := by
  refine run_reaches (fun schedule op booked _ => ?_) (opened_booked cap) (along_of_forall (fun _ _ => trivial) _ ops)
  obtain ⟨next, stepped, does, placed⟩ := schedule.step_does op
  exact ⟨next, stepped, booked.does does (placed booked.placed)⟩

/-- Scheduled messages are neither lost nor duplicated nor reordered by any run of operations. -/
theorem run_accounted (cap : Option Nat) (ops : List (DeferredOp M P)) :
    ∃ reached : Schedule M P, run step (opened cap) ops = some reached ∧ reached.Accounted ∧
      ∀ op, ∃ next, reached.step op = some next ∧ reached.Does next op := by
  obtain ⟨reached, ran, booked⟩ := run_booked cap ops
  refine ⟨reached, ran, booked.accounted, fun op => ?_⟩
  obtain ⟨next, stepped, does, _⟩ := reached.step_does op
  exact ⟨next, stepped, does⟩

end Schedule

end Brenn.Queue
