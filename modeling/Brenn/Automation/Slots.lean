import Brenn.Automation.Jobs

/-!
A slot of an automation job fires at most once.

The commit moves a row past the fire. An edit that read the row before can write an instant
back that the row has fired past, a trigger with no further occurrence leaves the instant in
place, and a clock behind the slot commits an instant the slot is not behind of. Where none of
these happens, every committed fire and its slot stay behind the row.
-/

namespace Brenn.Automation
open Brenn.Lib Std

variable {Trigger Action : Type}

def World.snapshots (world : World Trigger Action) : List (JobSnapshot Trigger Action) :=
  (world.firing.map Fire.job).toList ++ world.queue

/-- A section that loses no fire: a fire starts with the clock at or past its slot, the fired
    trigger has a later occurrence, and an edit writes an instant past the row's last fire. -/
def AutomationEngine.Steady (engine : AutomationEngine Trigger) (world : World Trigger Action) :
    Event Trigger Action → Prop
  | .fireStart fireTs => ∀ job ∈ world.queue.head?, job.row.nextFireAt ≤ fireTs
  | .commitFire => ∀ fire ∈ world.firing, (engine.calendar.computeNext fire.job.row.trigger fire.fireTs).isSome
  | .editUpdate call =>
    ∀ edit ∈ world.edits[call]?, ∀ found ∈ world.jobs.getJob edit.request.id, ∀ last ∈ found.row.lastFiredAt,
      last < formatTsForDb edit.nextFireAt
  | _ => True

instance (engine : AutomationEngine Trigger) (world : World Trigger Action) :
    (event : Event Trigger Action) → Decidable (engine.Steady world event)
  | .fireStart fireTs =>
    inferInstanceAs (Decidable (∀ job ∈ world.queue.head?, job.row.nextFireAt ≤ fireTs))
  | .commitFire =>
    inferInstanceAs (Decidable (∀ fire ∈ world.firing,
      (engine.calendar.computeNext fire.job.row.trigger fire.fireTs).isSome))
  | .editUpdate call =>
    inferInstanceAs (Decidable (∀ edit ∈ world.edits[call]?, ∀ found ∈ world.jobs.getJob edit.request.id,
      ∀ last ∈ found.row.lastFiredAt, last < formatTsForDb edit.nextFireAt))
  | .create .. | .delete _ | .editLoad .. | .getDueJobs _ | .fireAct _ | .finishFire _ => inferInstanceAs (Decidable True)

/-! ### Rows and snapshots behind their uuids -/

/-- Uuids name at most one row, and a snapshot's row id is the only place its job can be. -/
structure Identified (jobs : Jobs Trigger Action) (nextUuid : Nat) (snapshots : List (JobSnapshot Trigger Action)) :
    Prop where
  known : ∀ (id : Nat) row, jobs[id]? = some row → row.uuid < nextUuid
  unique : ∀ (id : Nat) row (other : Nat) otherRow, jobs[id]? = some row → jobs[other]? = some otherRow →
    row.uuid = otherRow.uuid → id = other
  read : ∀ snapshot ∈ snapshots, snapshot.row.uuid < nextUuid
  distinct : (snapshots.map fun snapshot => snapshot.row.uuid).Nodup
  apart : (snapshots.map JobSnapshot.rowId).Nodup
  home : ∀ snapshot ∈ snapshots, ∀ (id : Nat) row, jobs[id]? = some row → row.uuid = snapshot.row.uuid →
    id = snapshot.rowId

namespace Identified

variable {jobs : Jobs Trigger Action} {nextUuid : Nat} {snapshots : List (JobSnapshot Trigger Action)}

theorem was {id : Nat} {row : JobRow Trigger Action} (held : jobs[id]? = some row) (written : JobRow Trigger Action)
    (same : written.uuid = row.uuid) {other : Nat} {found : JobRow Trigger Action}
    (there : (jobs.insert id written)[other]? = some found) :
    ∃ before, jobs[other]? = some before ∧ before.uuid = found.uuid := by
  rw [lookup_insert] at there
  split at there
  next here =>
    subst here
    cases there
    exact ⟨row, held, same.symm⟩
  next => exact ⟨found, there, rfl⟩

theorem rewrite (identified : Identified jobs nextUuid snapshots) {id : Nat} {row written : JobRow Trigger Action}
    (held : jobs[id]? = some row) (same : written.uuid = row.uuid) :
    Identified (jobs.insert id written) nextUuid snapshots where
  known other found there := by
    obtain ⟨before, stored, named⟩ := was held written same there
    exact named ▸ identified.known other before stored
  unique first firstRow second secondRow here there equal := by
    obtain ⟨before, stored, named⟩ := was held written same here
    obtain ⟨after, storedAfter, namedAfter⟩ := was held written same there
    exact identified.unique first before second after stored storedAfter (by rw [named, namedAfter, equal])
  read := identified.read
  distinct := identified.distinct
  apart := identified.apart
  home snapshot kept other found there named := by
    obtain ⟨before, stored, sameName⟩ := was held written same there
    exact identified.home snapshot kept other before stored (sameName.trans named)

theorem create (identified : Identified jobs nextUuid snapshots) {row : JobRow Trigger Action}
    (named : row.uuid = nextUuid) (id : Nat) : Identified (jobs.insert id row) (nextUuid + 1) snapshots where
  known := forall_lookup_insert (by omega) fun other found _ there => Nat.lt_succ_of_lt (identified.known other found there)
  unique first firstRow second secondRow here there equal := by
    rw [lookup_insert] at here there
    split at here <;> split at there
    next a b => exact a.symm.trans b
    next =>
      cases here
      exact absurd (identified.known second secondRow there) (by omega)
    next =>
      cases there
      exact absurd (identified.known first firstRow here) (by omega)
    next => exact identified.unique first firstRow second secondRow here there equal
  read snapshot kept := Nat.lt_succ_of_lt (identified.read snapshot kept)
  distinct := identified.distinct
  apart := identified.apart
  home snapshot kept := forall_lookup_insert
    (fun equal => absurd (identified.read snapshot kept) (by omega))
    fun other found _ there => identified.home snapshot kept other found there

theorem erase (identified : Identified jobs nextUuid snapshots) (id : Nat) :
    Identified (jobs.erase id) nextUuid snapshots where
  known other row there := identified.known other row (lookup_of_erase there)
  unique first firstRow second secondRow here there :=
    identified.unique first firstRow second secondRow (lookup_of_erase here) (lookup_of_erase there)
  read := identified.read
  distinct := identified.distinct
  apart := identified.apart
  home snapshot kept other row there := identified.home snapshot kept other row (lookup_of_erase there)

theorem tail {snapshot : JobSnapshot Trigger Action} (identified : Identified jobs nextUuid (snapshot :: snapshots)) :
    Identified jobs nextUuid snapshots where
  known := identified.known
  unique := identified.unique
  read other kept := identified.read other (List.mem_cons_of_mem _ kept)
  distinct := (List.nodup_cons.mp identified.distinct).2
  apart := (List.nodup_cons.mp identified.apart).2
  home other kept := identified.home other (List.mem_cons_of_mem _ kept)

theorem due (identified : Identified jobs nextUuid snapshots) (now : Nat) :
    Identified jobs nextUuid (jobs.getDueJobs now) where
  known := identified.known
  unique := identified.unique
  read snapshot listed := identified.known _ _ (Jobs.mem_getDueJobs.mp listed).1
  distinct := by
    refine List.Nodup.map_on ?_ (Jobs.nodup_getDueJobs now)
    rintro ⟨id, row⟩ here ⟨other, otherRow⟩ there equal
    have stored := (Jobs.mem_getDueJobs.mp here).1
    have storedOther := (Jobs.mem_getDueJobs.mp there).1
    obtain rfl := identified.unique id row other otherRow stored storedOther equal
    exact congrArg (JobSnapshot.mk id) (Option.some.inj (stored.symm.trans storedOther))
  apart := by
    refine List.Nodup.map_on ?_ (Jobs.nodup_getDueJobs now)
    rintro ⟨id, row⟩ here ⟨other, otherRow⟩ there equal
    have stored := (Jobs.mem_getDueJobs.mp here).1
    have storedOther := (Jobs.mem_getDueJobs.mp there).1
    obtain rfl : id = other := equal
    exact congrArg (JobSnapshot.mk id) (Option.some.inj (stored.symm.trans storedOther))
  home snapshot listed id row there named :=
    identified.unique id row snapshot.rowId snapshot.row there (Jobs.mem_getDueJobs.mp listed).1 named

theorem others {snapshot : JobSnapshot Trigger Action} (identified : Identified jobs nextUuid (snapshot :: snapshots))
    {other : JobSnapshot Trigger Action} (kept : other ∈ snapshots) :
    snapshot.row.uuid ≠ other.row.uuid ∧ snapshot.rowId ≠ other.rowId := by
  refine ⟨fun same => (List.nodup_cons.mp identified.distinct).1 ?_, fun same => (List.nodup_cons.mp identified.apart).1 ?_⟩
  · exact List.mem_map.mpr ⟨other, kept, same.symm⟩
  · exact List.mem_map.mpr ⟨other, kept, same.symm⟩

end Identified

/-! ### Committed fires stay behind the rows -/

/-- A last fire that reaches the second of a committed one. -/
def Noted (lastFiredAt : Option Nat) (done : CommittedFire) : Prop :=
  ∃ last, lastFiredAt = some last ∧ formatTsForDb done.firedAt ≤ last

/-- Every committed fire is behind its job's row and behind the snapshots of the job the loop still holds. -/
structure Behind (jobs : Jobs Trigger Action) (snapshots : List (JobSnapshot Trigger Action))
    (committed : List CommittedFire) : Prop where
  slot : ∀ done ∈ committed, done.slot ≤ done.firedAt
  row : ∀ (id : Nat) row, jobs[id]? = some row → ∀ done ∈ committed, done.uuid = row.uuid →
    Noted row.lastFiredAt done ∧ done.firedAt < row.nextFireAt
  snapshot : ∀ snapshot ∈ snapshots, ∀ done ∈ committed, done.uuid = snapshot.row.uuid →
    done.firedAt < snapshot.row.nextFireAt
  stranger : ∀ snapshot ∈ snapshots, ∀ row, jobs[snapshot.rowId]? = some row → row.uuid ≠ snapshot.row.uuid →
    ∀ done ∈ committed, done.uuid ≠ row.uuid

namespace Behind

variable {jobs : Jobs Trigger Action} {snapshots : List (JobSnapshot Trigger Action)}
  {committed : List CommittedFire}

theorem create (behind : Behind jobs snapshots committed) {id : Nat} {row : JobRow Trigger Action}
    (unfired : ∀ done ∈ committed, done.uuid ≠ row.uuid) : Behind (jobs.insert id row) snapshots committed where
  slot := behind.slot
  row := forall_lookup_insert (fun done held named => absurd named (unfired done held))
    fun other found _ there => behind.row other found there
  snapshot := behind.snapshot
  stranger snapshot kept found there := by
    rw [lookup_insert] at there
    split at there
    next =>
      cases there
      exact fun _ => unfired
    next => exact behind.stranger snapshot kept found there

theorem erase (behind : Behind jobs snapshots committed) (id : Nat) :
    Behind (jobs.erase id) snapshots committed where
  slot := behind.slot
  row other row there := behind.row other row (lookup_of_erase there)
  snapshot := behind.snapshot
  stranger snapshot kept row there := behind.stranger snapshot kept row (lookup_of_erase there)

/-- An edit that writes an instant past the last fire writes one past every committed fire. -/
theorem editUpdate (behind : Behind jobs snapshots committed) {id : Nat} {edit : PendingEdit Trigger Action}
    {row : JobRow Trigger Action} (held : jobs[id]? = some row)
    (past : ∀ last ∈ row.lastFiredAt, last < formatTsForDb edit.nextFireAt) :
    Behind (jobs.insert id (edit.updateJob row)) snapshots committed where
  slot := behind.slot
  row := by
    refine forall_lookup_insert ?_ fun other found _ there => behind.row other found there
    intro done kept sameJob
    obtain ⟨⟨last, fired, reached⟩, -⟩ := behind.row id row held done kept sameJob
    exact ⟨⟨last, fired, reached⟩, lt_formatTsForDb (reached.trans_lt (past last fired))⟩
  snapshot := behind.snapshot
  stranger snapshot kept found there other := by
    rw [lookup_insert] at there
    split at there
    next here =>
      cases there
      exact behind.stranger snapshot kept row (here ▸ held) other
    next => exact behind.stranger snapshot kept found there other

theorem due (behind : Behind jobs snapshots committed) (now : Nat) :
    Behind jobs (jobs.getDueJobs now) committed := by
  refine { behind with snapshot := ?_, stranger := ?_ }
  · exact fun snapshot listed done kept named =>
      (behind.row _ _ (Jobs.mem_getDueJobs.mp listed).1 done kept named).2
  · intro snapshot listed row there other
    obtain rfl := Option.some.inj (there.symm.trans (Jobs.mem_getDueJobs.mp listed).1)
    exact absurd rfl other

theorem tail {snapshot : JobSnapshot Trigger Action} (behind : Behind jobs (snapshot :: snapshots) committed) :
    Behind jobs snapshots committed :=
  { behind with
    snapshot := fun other kept => behind.snapshot other (List.mem_cons_of_mem _ kept)
    stranger := fun other kept => behind.stranger other (List.mem_cons_of_mem _ kept) }

/-- The row under the fired id is the fired job's, or one that took the id of a deleted job and was never fired. -/
theorem commit {nextUuid : Nat} {job : JobSnapshot Trigger Action} {engine : AutomationEngine Trigger}
    {fireTs nextFireAt now : Nat} {rawOutcome : Outcome} {row : JobRow Trigger Action}
    (behind : Behind jobs (job :: snapshots) committed) (identified : Identified jobs nextUuid (job :: snapshots))
    (started : job.row.nextFireAt ≤ fireTs) (held : jobs[job.rowId]? = some row)
    (next : engine.calendar.computeNext job.row.trigger fireTs = some nextFireAt) :
    Behind (jobs.insert job.rowId (engine.commitRow job.row fireTs nextFireAt now rawOutcome row)) snapshots
      (⟨job.row.uuid, job.row.nextFireAt, fireTs⟩ :: committed) := by
  have later := engine.calendar.later next
  have whole := engine.calendar.whole next
  -- Whatever was committed for the row's job was committed before the slot.
  have earlier : ∀ done ∈ committed, done.uuid = row.uuid → done.firedAt < job.row.nextFireAt := by
    intro done kept named
    by_cases same : row.uuid = job.row.uuid
    · exact behind.snapshot job (by simp) done kept (named.trans same)
    · exact absurd named (behind.stranger job (by simp) row held same done kept)
  have elsewhere : ∀ (id : Nat) found, job.rowId ≠ id → jobs[id]? = some found → job.row.uuid ≠ found.uuid :=
    fun id found apart there same => apart (identified.home job (by simp) id found there same.symm).symm
  refine { slot := ?_, row := ?_, snapshot := ?_, stranger := ?_ }
  · exact List.forall_mem_cons.mpr ⟨started, behind.slot⟩
  · refine forall_lookup_insert ?_ fun id found apart there => ?_
    · simp only [AutomationEngine.commitRow, whole]
      refine List.forall_mem_cons.mpr ⟨fun _ => ⟨⟨_, rfl, le_rfl⟩, later⟩, fun done kept named => ?_⟩
      have before := earlier done kept named
      exact ⟨⟨_, rfl, formatTsForDb_mono (by omega)⟩, by omega⟩
    · exact List.forall_mem_cons.mpr ⟨fun same => absurd same (elsewhere id found apart there), behind.row id found there⟩
  · intro snapshot kept
    exact List.forall_mem_cons.mpr ⟨fun same => absurd same (identified.others kept).1, behind.tail.snapshot snapshot kept⟩
  · intro snapshot kept found there other
    rw [lookup_insert, if_neg (identified.others kept).2] at there
    exact List.forall_mem_cons.mpr ⟨elsewhere _ found (identified.others kept).2 there,
      behind.tail.stranger snapshot kept found there other⟩

end Behind

/-! ### Dispatched slots -/

/-- No row holds a job and the loop holds no snapshot of it. -/
def Gone (world : World Trigger Action) (uuid : Nat) : Prop :=
  (∀ (id : Nat) row, world.jobs[id]? = some row → row.uuid ≠ uuid) ∧
    ∀ snapshot ∈ world.snapshots, snapshot.row.uuid ≠ uuid

/-- A dispatched slot was committed, is about to be, or belongs to a job that is gone. -/
def Accounted (world : World Trigger Action) (slot : Nat × Nat) : Prop :=
  (∃ done ∈ world.committed, done.uuid = slot.1 ∧ done.slot = slot.2) ∨
    (∃ fire ∈ world.firing, fire.job.row.uuid = slot.1 ∧ fire.job.row.nextFireAt = slot.2 ∧
      ∀ rateLimited, fire.stage ≠ .started rateLimited) ∨
    Gone world slot.1

structure FiredOnce (world : World Trigger Action) : Prop where
  identified : Identified world.jobs world.nextUuid world.snapshots
  behind : Behind world.jobs world.snapshots world.committed
  committed : ∀ done ∈ world.committed, done.uuid < world.nextUuid
  named : ∀ slot ∈ world.dispatched, slot.1 < world.nextUuid
  started : ∀ fire ∈ world.firing, fire.job.row.nextFireAt ≤ fire.fireTs
  accounted : ∀ slot ∈ world.dispatched, Accounted world slot
  once : world.dispatched.Nodup

namespace FiredOnce

variable {world : World Trigger Action}

theorem empty : FiredOnce ({} : World Trigger Action) where
  identified := ⟨by simp, by simp, by simp [World.snapshots], by simp [World.snapshots], by simp [World.snapshots],
    by simp [World.snapshots]⟩
  behind := ⟨by simp, by simp, by simp [World.snapshots], by simp [World.snapshots]⟩
  committed := by simp
  named := by simp
  started := by simp
  accounted := by simp
  once := List.nodup_nil

theorem create (kept : FiredOnce world) (engine : AutomationEngine Trigger) (callerAppSlug : String)
    (request : CreateJob Trigger Action) (now : Nat) : FiredOnce (engine.create world callerAppSlug request now) := by
  unfold AutomationEngine.create
  split
  next => exact kept
  next nextFireAt counted =>
    split
    next => exact kept
    next =>
      split
      next => exact kept
      next =>
        refine { identified := kept.identified.create rfl _, behind := kept.behind.create ?_,
                 committed := ?_, named := ?_, started := kept.started, accounted := ?_, once := kept.once }
        · exact fun done held => (kept.committed done held).ne
        · exact fun done held => Nat.lt_succ_of_lt (kept.committed done held)
        · exact fun slot listed => Nat.lt_succ_of_lt (kept.named slot listed)
        · intro slot listed
          refine (kept.accounted slot listed).imp_right (Or.imp_right fun gone => ⟨?_, gone.2⟩)
          exact forall_lookup_insert (kept.named slot listed).ne' fun id row _ there => gone.1 id row there

theorem delete (kept : FiredOnce world) (uuid : Nat) : FiredOnce (AutomationEngine.delete world uuid) := by
  unfold AutomationEngine.delete
  split
  next => exact kept
  next found _ =>
    refine { kept with identified := kept.identified.erase _, behind := kept.behind.erase _, accounted := ?_ }
    intro slot listed
    refine (kept.accounted slot listed).imp_right (Or.imp_right fun gone => ⟨?_, gone.2⟩)
    exact fun id row there => gone.1 id row (lookup_of_erase there)

theorem editLoad (kept : FiredOnce world) (engine : AutomationEngine Trigger) (call : Nat) (callerAppSlug : String)
    (request : EditJob Trigger Action) (permitted : Bool) (now : Nat) :
    FiredOnce (engine.editLoad world call callerAppSlug request permitted now) := by
  unfold AutomationEngine.editLoad
  split
  next => exact kept
  next existing loaded =>
    split
    next => exact kept
    next =>
      split
      next => exact kept
      next =>
        split
        next => exact kept
        next => exact { kept with }

theorem editUpdate (kept : FiredOnce world) {call : Nat} {after : World Trigger Action}
    (past : ∀ edit ∈ world.edits[call]?, ∀ found ∈ world.jobs.getJob edit.request.id, ∀ last ∈ found.row.lastFiredAt,
      last < formatTsForDb edit.nextFireAt)
    (stepped : AutomationEngine.editUpdate world call = some after) : FiredOnce after := by
  unfold AutomationEngine.editUpdate at stepped
  split at stepped
  next => cases stepped
  next edit pending =>
    split at stepped
    next =>
      cases stepped
      exact { kept with }
    next found loaded =>
      cases stepped
      have stored := (Jobs.getJob_some loaded).1
      refine { kept with
        identified := kept.identified.rewrite stored rfl
        behind := kept.behind.editUpdate stored (past edit pending found loaded)
        accounted := ?_ }
      intro slot listed
      refine (kept.accounted slot listed).imp_right (Or.imp_right fun gone => ⟨?_, gone.2⟩)
      intro id row there
      obtain ⟨before, held, same⟩ := Identified.was stored (edit.updateJob found.row) rfl there
      exact same ▸ gone.1 id before held

theorem getDueJobs (kept : FiredOnce world) {now : Nat} {after : World Trigger Action}
    (stepped : AutomationEngine.getDueJobs world now = some after) : FiredOnce after := by
  unfold AutomationEngine.getDueJobs at stepped
  split at stepped
  next idle _ =>
    cases stepped
    have read : World.snapshots { world with queue := world.jobs.getDueJobs now, decided := [] } =
        world.jobs.getDueJobs now := by simp [World.snapshots, idle]
    refine { kept with identified := ?_, behind := ?_, accounted := ?_ }
    · rw [read]
      exact kept.identified.due now
    · rw [read]
      exact kept.behind.due now
    intro slot listed
    refine (kept.accounted slot listed).imp_right (Or.imp_right fun gone => ⟨gone.1, ?_⟩)
    rw [read]
    exact fun snapshot due => gone.1 _ _ (Jobs.mem_getDueJobs.mp due).1
  next => cases stepped

theorem advance (kept : FiredOnce world) {fire : Fire Trigger Action} (firing : world.firing = some fire)
    (moved : Fire Trigger Action) (sameJob : moved.job = fire.job) (sameTs : moved.fireTs = fire.fireTs)
    (done : ∀ rateLimited, moved.stage ≠ .started rateLimited) :
    FiredOnce { world with firing := some moved } := by
  have read : World.snapshots { world with firing := some moved } = world.snapshots := by
    simp [World.snapshots, firing, sameJob]
  refine { kept with identified := read ▸ kept.identified, behind := read ▸ kept.behind, started := ?_, accounted := ?_ }
  · rintro _ ⟨⟩
    rw [sameJob, sameTs]
    exact kept.started fire firing
  · intro slot listed
    rcases kept.accounted slot listed with committed | ⟨current, here, sameUuid, sameSlot, _⟩ | gone
    · exact .inl committed
    · obtain rfl := Option.some.inj (firing.symm.trans here)
      exact .inr (.inl ⟨moved, rfl, by rw [sameJob, sameUuid], by rw [sameJob, sameSlot], done⟩)
    · exact .inr (.inr ⟨gone.1, read ▸ gone.2⟩)

theorem fireStart (kept : FiredOnce world) {engine : AutomationEngine Trigger} {fireTs : Nat}
    {after : World Trigger Action} (reached : ∀ job ∈ world.queue.head?, job.row.nextFireAt ≤ fireTs)
    (stepped : engine.fireStart world fireTs = some after) : FiredOnce after := by
  unfold AutomationEngine.fireStart at stepped
  split at stepped
  next job queue idle waiting =>
    cases stepped
    have read : world.snapshots = job :: queue := by simp [World.snapshots, idle, waiting]
    refine { kept with
      identified := (read ▸ kept.identified : Identified _ _ (job :: queue))
      behind := (read ▸ kept.behind : Behind _ (job :: queue) _)
      started := ?_, accounted := ?_ }
    · rintro _ ⟨⟩
      exact reached job (by simp [waiting])
    · intro slot listed
      rcases kept.accounted slot listed with committed | ⟨current, here, _⟩ | gone
      · exact .inl committed
      · rw [idle] at here
        cases here
      · exact .inr (.inr ⟨gone.1, (read ▸ gone.2 : ∀ snapshot ∈ job :: queue, snapshot.row.uuid ≠ slot.1)⟩)
  next => cases stepped

theorem undispatched (kept : FiredOnce world) {job : JobSnapshot Trigger Action} {fireTs : Nat} {rateLimited : Bool}
    (firing : world.firing = some ⟨job, fireTs, .started rateLimited⟩) :
    (job.row.uuid, job.row.nextFireAt) ∉ world.dispatched := by
  intro listed
  have current : job ∈ world.snapshots := by simp [World.snapshots, firing]
  rcases kept.accounted _ listed with ⟨done, held, named, slot⟩ | ⟨fire, here, _, _, acted⟩ | gone
  · have before := kept.behind.snapshot job current done held named
    have reached := kept.behind.slot done held
    rw [slot] at reached
    dsimp only at reached
    omega
  · obtain rfl := Option.some.inj (firing.symm.trans here)
    exact acted rateLimited rfl
  · exact gone.2 job current rfl

theorem fireAct (kept : FiredOnce world) {result : ActionResult} {after : World Trigger Action}
    (stepped : AutomationEngine.fireAct world result = some after) : FiredOnce after := by
  unfold AutomationEngine.fireAct at stepped
  split at stepped
  next job fireTs rateLimited firing =>
    split at stepped
    next =>
      cases stepped
      exact kept.advance firing _ rfl rfl (by simp)
    next =>
      split at stepped
      next outcome =>
        cases stepped
        exact kept.advance firing _ rfl rfl (by simp)
      next outcome =>
        cases stepped
        have moved := kept.advance firing ⟨job, fireTs, .acted outcome⟩ rfl rfl (by simp)
        have current : job ∈ world.snapshots := by simp [World.snapshots, firing]
        refine { moved with named := ?_, accounted := ?_, once := ?_ }
        · exact List.forall_mem_cons.mpr ⟨kept.identified.read job current, kept.named⟩
        · exact List.forall_mem_cons.mpr ⟨.inr (.inl ⟨_, rfl, rfl, rfl, by simp⟩), moved.accounted⟩
        · exact List.nodup_cons.mpr ⟨kept.undispatched firing, kept.once⟩
  next => cases stepped

theorem finishFire (kept : FiredOnce world) {engine : AutomationEngine Trigger} {now : Nat}
    {after : World Trigger Action} (stepped : engine.finishFire world now = some after) : FiredOnce after := by
  unfold AutomationEngine.finishFire at stepped
  split at stepped
  next job fireTs rawOutcome firing =>
    cases stepped
    exact kept.advance firing _ rfl rfl (by simp)
  next => cases stepped

theorem commitFire (kept : FiredOnce world) {engine : AutomationEngine Trigger} {after : World Trigger Action}
    (recurs : ∀ fire ∈ world.firing, (engine.calendar.computeNext fire.job.row.trigger fire.fireTs).isSome)
    (stepped : engine.commitFire world = some after) : FiredOnce after := by
  unfold AutomationEngine.commitFire at stepped
  split at stepped
  next job fireTs rawOutcome stored emitReport now firing =>
    have read : world.snapshots = job :: world.queue := by simp [World.snapshots, firing]
    have identified : Identified world.jobs world.nextUuid (job :: world.queue) := read ▸ kept.identified
    have behind : Behind world.jobs (job :: world.queue) world.committed := read ▸ kept.behind
    dsimp only at stepped
    split at stepped
    next => cases stepped
    next unsatisfiable _ =>
      have := recurs _ firing
      rw [unsatisfiable] at this
      cases this
    next next missing =>
      cases stepped
      refine { kept with identified := identified.tail, behind := behind.tail, started := by simp, accounted := ?_ }
      intro slot listed
      rcases kept.accounted slot listed with committed | ⟨fire, here, named, _⟩ | gone
      · exact .inl committed
      · obtain rfl := Option.some.inj (firing.symm.trans here)
        refine .inr (.inr ⟨fun id row there same => ?_, fun snapshot waiting => ?_⟩)
        · have place := identified.home job (by simp) id row there (same.trans named.symm)
          rw [place, missing] at there
          cases there
        · exact named ▸ (identified.others waiting).1.symm
      · exact .inr (.inr ⟨gone.1, fun snapshot waiting => gone.2 snapshot (by rw [read]; exact List.mem_cons_of_mem _ waiting)⟩)
    next nextFireAt row counted held =>
      cases stepped
      refine {
        identified := identified.tail.rewrite held rfl
        behind := behind.commit identified (kept.started _ firing) held counted
        committed := ?_, named := kept.named, started := by simp, accounted := ?_, once := kept.once }
      · exact List.forall_mem_cons.mpr ⟨identified.read job (by simp), kept.committed⟩
      · intro slot listed
        rcases kept.accounted slot listed with ⟨done, committed, named⟩ | ⟨fire, here, named, slotted, _⟩ | gone
        · exact .inl ⟨done, List.mem_cons_of_mem _ committed, named⟩
        · obtain rfl := Option.some.inj (firing.symm.trans here)
          exact .inl ⟨_, List.mem_cons_self, named, slotted⟩
        · refine .inr (.inr ⟨fun id found there => ?_, fun snapshot waiting => ?_⟩)
          · obtain ⟨before, stored, same⟩ := Identified.was held
              (engine.commitRow job.row fireTs nextFireAt now rawOutcome row) rfl there
            exact same ▸ gone.1 id before stored
          · exact gone.2 snapshot (by rw [read]; exact List.mem_cons_of_mem _ waiting)
  next => cases stepped

theorem step {engine : AutomationEngine Trigger} (world : World Trigger Action) (event : Event Trigger Action)
    (after : World Trigger Action) (kept : FiredOnce world) (steady : engine.Steady world event)
    (stepped : engine.step world event = some after) : FiredOnce after := by
  cases event with
  | create callerAppSlug request now => exact Option.some.inj stepped ▸ kept.create engine callerAppSlug request now
  | delete uuid => exact Option.some.inj stepped ▸ kept.delete uuid
  | editLoad call callerAppSlug request permitted now =>
    exact Option.some.inj stepped ▸ kept.editLoad engine call callerAppSlug request permitted now
  | editUpdate call => exact kept.editUpdate steady stepped
  | getDueJobs now => exact kept.getDueJobs stepped
  | fireStart fireTs => exact kept.fireStart steady stepped
  | fireAct result => exact kept.fireAct stepped
  | finishFire now => exact kept.finishFire stepped
  | commitFire => exact kept.commitFire steady stepped

end FiredOnce

/-- In a run of steady sections no slot of a job is dispatched twice, and a job whose slot was
    fired and committed is never again scheduled at that slot, or at or before the fire. -/
theorem slot_fires_at_most_once (engine : AutomationEngine Trigger) (events : List (Event Trigger Action))
    (world : World Trigger Action) (ran : run engine.step {} events = some world)
    (steady : Along engine.step engine.Steady {} events) :
    world.dispatched.Nodup ∧
      ∀ done ∈ world.committed, ∀ (id : Nat) row, world.jobs[id]? = some row → row.uuid = done.uuid →
        done.slot < row.nextFireAt ∧ done.firedAt < row.nextFireAt := by
  have kept : FiredOnce world := run_preserves FiredOnce.step FiredOnce.empty steady ran
  refine ⟨kept.once, fun done committed id row stored named => ?_⟩
  have past := (kept.behind.row id row stored done committed named.symm).2
  exact ⟨(kept.behind.slot done committed).trans_lt past, past⟩

/-! Jobs on a period of so many seconds, zero for one that never comes. -/

def everySeconds : Calendar Nat where
  computeNext period anchor :=
    if period = 0 then none else some ((anchor / (period * 1000) + 1) * (period * 1000))
  later {period anchor next} answered := by
    split at answered
    next => cases answered
    next positive =>
      cases answered
      rw [Nat.add_mul, Nat.one_mul]
      have := Nat.div_add_mod' anchor (period * 1000)
      have := Nat.mod_lt anchor (show 0 < period * 1000 by omega)
      omega
  whole {period anchor next} answered := by
    split at answered
    next => cases answered
    next =>
      cases answered
      rw [formatTsForDb, ← Nat.mul_assoc, Nat.mul_div_cancel _ (by decide)]

def everySecondsEngine : AutomationEngine Nat :=
  ⟨everySeconds, ⟨10, 5, 1, 10⟩⟩

/-- A job fired at its slot while a rename waits between its sections. -/
def renamedWhileFiring : List (Event Nat Unit) :=
  [.create "notes" ⟨"tick", 60, (), true⟩ 1000, .editLoad 7 "notes" ⟨0, some "tock", none, none, none⟩ true 59000,
    .getDueJobs 60000, .fireStart 60000, .fireAct (.dispatched .ok), .finishFire 60100, .commitFire, .editUpdate 7,
    .getDueJobs 61000, .fireStart 61000, .fireAct (.dispatched .ok)]

/-- The rename writes the slot it loaded back, and the slot is dispatched a second time. -/
theorem renamed_slot_fires_twice :
    (run everySecondsEngine.step {} renamedWhileFiring).map (fun world => world.dispatched) =
      some [(0, 60000), (0, 60000)] := by
  decide +kernel

/-- A rename, a new trigger and a deletion around fires of two jobs. -/
def steadyRun : List (Event Nat Unit) :=
  [.create "notes" ⟨"tick", 60, (), true⟩ 1000, .create "notes" ⟨"tock", 30, (), true⟩ 2000,
    .getDueJobs 60500, .editLoad 7 "notes" ⟨0, some "tick!", none, none, none⟩ true 60600, .editUpdate 7,
    .fireStart 60700, .fireAct (.dispatched .budget), .finishFire 60800, .commitFire,
    .fireStart 60900, .fireAct (.dispatched .ok), .delete 1, .finishFire 61000, .commitFire,
    .editLoad 8 "notes" ⟨0, none, some 45, none, none⟩ true 62000, .editUpdate 8]

theorem steady_run_fires_once :
    ∃ world, run everySecondsEngine.step {} steadyRun = some world ∧ world.dispatched.Nodup ∧
      ∀ done ∈ world.committed, ∀ (id : Nat) row, world.jobs[id]? = some row → row.uuid = done.uuid →
        done.slot < row.nextFireAt ∧ done.firedAt < row.nextFireAt := by
  have reached : (run everySecondsEngine.step {} steadyRun).isSome := by decide +kernel
  obtain ⟨world, ran⟩ := Option.isSome_iff_exists.mp reached
  exact ⟨world, ran, slot_fires_at_most_once everySecondsEngine steadyRun world ran (by decide +kernel)⟩

end Brenn.Automation
