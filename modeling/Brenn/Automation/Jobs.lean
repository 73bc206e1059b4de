import Brenn.Lib.Maps
import Brenn.Lib.Run

/-!
Automation jobs, section by section under the database lock.

One loop reads the due jobs as snapshots and fires them one after another; a fire runs its action
without the lock and commits under the snapshot's row id. An edit loads a job in one section and
writes whole columns back in a later one, found by uuid. A row id freed by a delete can be drawn
again. Instants are milliseconds; a stored column keeps whole seconds.
-/

namespace Brenn.Automation
open Brenn.Lib Std

/-! ### Instants and triggers -/

/-- A timestamp as its column holds it. -/
def formatTsForDb (instant : Nat) : Nat := instant / 1000 * 1000

theorem formatTsForDb_mono {earlier later : Nat} (le : earlier ≤ later) : formatTsForDb earlier ≤ formatTsForDb later :=
  Nat.mul_le_mul_right 1000 (Nat.div_le_div_right le)

theorem lt_formatTsForDb {earlier later : Nat} (lt : formatTsForDb earlier < formatTsForDb later) :
    earlier < formatTsForDb later := by
  unfold formatTsForDb at lt ⊢
  omega

/-- `computeNext` answers the first occurrence strictly after an instant, on a whole second. -/
structure Calendar (Trigger : Type) where
  computeNext : Trigger → Nat → Option Nat
  later : ∀ {trigger anchor next}, computeNext trigger anchor = some next → anchor < next
  whole : ∀ {trigger anchor next}, computeNext trigger anchor = some next → formatTsForDb next = next

variable {Trigger Action : Type}

def Calendar.Occurrence (calendar : Calendar Trigger) (trigger : Trigger) (instant : Nat) : Prop :=
  ∃ anchor, calendar.computeNext trigger anchor = some instant

/-! ### The tables -/

inductive Outcome where
  | ok
  | auth
  | budget
  | rateLimit
  | rateLimitSuppressedReport
  | actionError
  | appGone
  deriving Repr, DecidableEq

structure JobRow (Trigger Action : Type) where
  uuid : Nat
  ownerAppSlug : String
  name : String
  trigger : Trigger
  action : Action
  enabled : Bool
  consecutiveFailures : Nat
  createdAt : Nat
  updatedAt : Nat
  lastFiredAt : Option Nat
  nextFireAt : Nat
  autoDisabledAt : Option Nat
  deriving Repr, DecidableEq

structure JobSnapshot (Trigger Action : Type) where
  rowId : Nat
  row : JobRow Trigger Action
  deriving Repr, DecidableEq

structure FireRow where
  jobId : Nat
  firedAt : Nat
  outcome : Outcome
  errorClass : Option Outcome
  deriving Repr, DecidableEq

abbrev Jobs (Trigger Action : Type) := TreeMap Nat (JobRow Trigger Action)

namespace Jobs

variable (jobs : Jobs Trigger Action)

/-- The id drawn for the next row: one above the largest in use. -/
def nextRowId : Nat := (jobs.toList.map Prod.fst).max?.getD 0 + 1

def countJobsForApp (ownerAppSlug : String) : Nat :=
  jobs.toList.countP fun entry => decide (entry.2.ownerAppSlug = ownerAppSlug)

def getJob (uuid : Nat) : Option (JobSnapshot Trigger Action) :=
  (jobs.toList.find? fun entry => decide (entry.2.uuid = uuid)).map fun entry => ⟨entry.1, entry.2⟩

def getDueJobs (now : Nat) : List (JobSnapshot Trigger Action) :=
  (jobs.toList.filter fun entry => entry.2.enabled && decide (entry.2.nextFireAt ≤ formatTsForDb now)).map
    (fun entry => ⟨entry.1, entry.2⟩) |>.insertionSort fun earlier later => earlier.row.nextFireAt ≤ later.row.nextFireAt

variable {jobs}

theorem lookup_nextRowId : jobs[jobs.nextRowId]? = none := by
  by_contra held
  obtain ⟨row, stored⟩ := Option.ne_none_iff_exists'.mp held
  have listed := List.mem_map_of_mem (f := Prod.fst) (TreeMap.mem_toList_iff_getElem?_eq_some.mpr stored)
  have below := List.le_max?_getD_of_mem (k := 0) listed
  unfold nextRowId at below
  omega

theorem getJob_some {uuid : Nat} {found : JobSnapshot Trigger Action} (loaded : jobs.getJob uuid = some found) :
    jobs[found.rowId]? = some found.row ∧ found.row.uuid = uuid := by
  obtain ⟨entry, here, rfl⟩ := Option.map_eq_some_iff.mp loaded
  exact ⟨TreeMap.mem_toList_iff_getElem?_eq_some.mp (List.mem_of_find?_eq_some here),
    by simpa using List.find?_some here⟩

theorem mem_getDueJobs {now : Nat} {due : JobSnapshot Trigger Action} :
    due ∈ jobs.getDueJobs now ↔
      jobs[due.rowId]? = some due.row ∧ due.row.enabled = true ∧ due.row.nextFireAt ≤ formatTsForDb now := by
  rw [getDueJobs, List.mem_insertionSort, List.mem_map]
  constructor
  · rintro ⟨entry, picked, rfl⟩
    obtain ⟨listed, wanted⟩ := List.mem_filter.mp picked
    exact ⟨TreeMap.mem_toList_iff_getElem?_eq_some.mp listed, by simpa using wanted⟩
  · rintro ⟨stored, enabled, reached⟩
    exact ⟨(due.rowId, due.row), List.mem_filter.mpr
      ⟨TreeMap.mem_toList_iff_getElem?_eq_some.mpr stored, by simp [enabled, reached]⟩, rfl⟩

theorem nodup_getDueJobs (now : Nat) : (jobs.getDueJobs now).Nodup := by
  refine (List.perm_insertionSort _ _).nodup_iff.mpr (List.Nodup.map ?_ ((nodup_toList jobs).filter _))
  rintro ⟨id, row⟩ ⟨otherId, otherRow⟩ same
  cases same
  rfl

end Jobs

/-! ### Windows over the fires table -/

/-- How many fires of a job since `windowSecs` before `now` have an outcome that counts. -/
def countWindow (counts : Outcome → Bool) (fires : List FireRow) (jobId now windowSecs : Nat) : Nat :=
  fires.countP fun fire =>
    decide (fire.jobId = jobId) && decide (formatTsForDb (now - windowSecs * 1000) ≤ fire.firedAt) && counts fire.outcome

def countFiresInWindow (fires : List FireRow) (jobId now windowSecs : Nat) : Nat :=
  countWindow (fun outcome => decide (outcome ≠ .rateLimit)) fires jobId now windowSecs

def countReportableFiresInWindow (fires : List FireRow) (jobId now windowSecs : Nat) : Nat :=
  countWindow (fun outcome => decide (outcome ≠ .ok ∧ outcome ≠ .rateLimitSuppressedReport)) fires jobId now windowSecs

/-! ### Requests -/

structure CreateJob (Trigger Action : Type) where
  name : String
  trigger : Trigger
  action : Action
  enabled : Bool
  deriving Repr, DecidableEq

/-- An edit names the columns it changes. -/
structure EditJob (Trigger Action : Type) where
  id : Nat
  name : Option String
  trigger : Option Trigger
  action : Option Action
  enabled : Option Bool
  deriving Repr, DecidableEq

def validateName (name : String) : Bool := decide (name ≠ "") && decide (name.utf8ByteSize ≤ 128)

structure PendingEdit (Trigger Action : Type) where
  existing : JobSnapshot Trigger Action
  request : EditJob Trigger Action
  now : Nat
  nextFireAt : Nat
  deriving Repr, DecidableEq

namespace PendingEdit

variable (edit : PendingEdit Trigger Action)

def newTrigger : Trigger := edit.request.trigger.getD edit.existing.row.trigger

def newEnabled : Bool := edit.request.enabled.getD edit.existing.row.enabled

/-- A job found disabled and written enabled starts over. -/
def resetFailureCounter : Bool := edit.newEnabled && !edit.existing.row.enabled

def decides : Bool := edit.resetFailureCounter || edit.request.trigger.isSome

def updateJob (row : JobRow Trigger Action) : JobRow Trigger Action :=
  { row with
    name := edit.request.name.getD edit.existing.row.name
    trigger := edit.newTrigger
    action := edit.request.action.getD edit.existing.row.action
    enabled := edit.newEnabled
    updatedAt := formatTsForDb edit.now
    nextFireAt := formatTsForDb edit.nextFireAt
    consecutiveFailures := if edit.resetFailureCounter then 0 else row.consecutiveFailures
    autoDisabledAt := if edit.resetFailureCounter then none else row.autoDisabledAt }

end PendingEdit

/-! ### Fires -/

/-- How an action ended: refused before it was dispatched, or dispatched with an outcome. -/
inductive ActionResult where
  | refused (outcome : Outcome)
  | dispatched (outcome : Outcome)
  deriving Repr, DecidableEq

inductive Stage where
  | started (rateLimited : Bool)
  | acted (rawOutcome : Outcome)
  | judged (rawOutcome storedOutcome : Outcome) (emitReport : Bool) (now : Nat)
  deriving Repr, DecidableEq

structure Fire (Trigger Action : Type) where
  job : JobSnapshot Trigger Action
  fireTs : Nat
  stage : Stage
  deriving Repr, DecidableEq

/-- A fire whose bookkeeping went through: the job and the instant it was scheduled for, and when it fired. -/
structure CommittedFire where
  uuid : Nat
  slot : Nat
  firedAt : Nat
  deriving Repr, DecidableEq

structure AutomationGlobalConfig where
  maxFiresPerHourPerJob : Nat
  maxErrorReportsPerHourPerJob : Nat
  consecutiveFailuresToDisable : Nat
  maxJobsPerApp : Nat
  deriving Repr, DecidableEq

structure AutomationEngine (Trigger : Type) where
  calendar : Calendar Trigger
  defaults : AutomationGlobalConfig

/-- The tables, what the loop and the edits hold between sections, what was dispatched and committed, and the jobs
    an edit decided about since the loop last read the due ones. -/
structure World (Trigger Action : Type) where
  jobs : Jobs Trigger Action := ∅
  fires : List FireRow := []
  nextUuid : Nat := 0
  queue : List (JobSnapshot Trigger Action) := []
  firing : Option (Fire Trigger Action) := none
  edits : TreeMap Nat (PendingEdit Trigger Action) := ∅
  dispatched : List (Nat × Nat) := []
  committed : List CommittedFire := []
  decided : List Nat := []

inductive Event (Trigger Action : Type) where
  | create (callerAppSlug : String) (request : CreateJob Trigger Action) (now : Nat)
  | delete (uuid : Nat)
  | editLoad (call : Nat) (callerAppSlug : String) (request : EditJob Trigger Action) (permitted : Bool) (now : Nat)
  | editUpdate (call : Nat)
  | getDueJobs (now : Nat)
  | fireStart (fireTs : Nat)
  | fireAct (result : ActionResult)
  | finishFire (now : Nat)
  | commitFire
  deriving Repr, DecidableEq

namespace AutomationEngine

variable (engine : AutomationEngine Trigger) (world : World Trigger Action)

def create (callerAppSlug : String) (request : CreateJob Trigger Action) (now : Nat) : World Trigger Action :=
  match engine.calendar.computeNext request.trigger now with
  | none => world
  | some nextFireAt =>
    if !validateName request.name then world
    else if engine.defaults.maxJobsPerApp ≤ world.jobs.countJobsForApp callerAppSlug then world
    else
      { world with
        nextUuid := world.nextUuid + 1
        jobs := world.jobs.insert world.jobs.nextRowId
          { uuid := world.nextUuid, ownerAppSlug := callerAppSlug, name := request.name, trigger := request.trigger
            action := request.action, enabled := request.enabled, consecutiveFailures := 0
            createdAt := formatTsForDb now, updatedAt := formatTsForDb now, lastFiredAt := none
            nextFireAt := formatTsForDb nextFireAt, autoDisabledAt := none } }

/-- Delete a job by uuid, once its owner has been checked; its fires go with it. -/
def delete (uuid : Nat) : World Trigger Action :=
  match world.jobs.getJob uuid with
  | none => world
  | some found =>
    { world with
      jobs := world.jobs.erase found.rowId
      fires := world.fires.filter fun fire => decide (fire.jobId ≠ found.rowId) }

/-- A new trigger is scheduled from the later of the last fire and now; an edit without one keeps the instant it
    loaded. -/
def editedNext (existing : JobRow Trigger Action) (request : EditJob Trigger Action) (now : Nat) : Option Nat :=
  match request.trigger with
  | none => some existing.nextFireAt
  | some trigger => engine.calendar.computeNext trigger (max (existing.lastFiredAt.getD now) now)

/-- The first section of an edit. `permitted` stands for the checks of the caller's app, its grants and the action,
    which read no job. -/
def editLoad (call : Nat) (callerAppSlug : String) (request : EditJob Trigger Action) (permitted : Bool) (now : Nat) :
    World Trigger Action :=
  match world.jobs.getJob request.id with
  | none => world
  | some existing =>
    if existing.row.ownerAppSlug ≠ callerAppSlug then world
    else if !permitted || !(request.name.map validateName).getD true then world
    else
      match engine.editedNext existing.row request now with
      | none => world
      | some nextFireAt => { world with edits := world.edits.insert call ⟨existing, request, now, nextFireAt⟩ }

def editUpdate (call : Nat) : Option (World Trigger Action) :=
  match world.edits[call]? with
  | none => none
  | some edit =>
    match world.jobs.getJob edit.request.id with
    | none => some { world with edits := world.edits.erase call }
    | some found =>
      some { world with
        edits := world.edits.erase call
        jobs := world.jobs.insert found.rowId (edit.updateJob found.row)
        decided := if edit.decides then edit.request.id :: world.decided else world.decided }

def getDueJobs (now : Nat) : Option (World Trigger Action) :=
  match world.firing, world.queue with
  | none, [] => some { world with queue := world.jobs.getDueJobs now, decided := [] }
  | _, _ => none

def fireStart (fireTs : Nat) : Option (World Trigger Action) :=
  match world.firing, world.queue with
  | none, job :: queue =>
    let rateLimited := decide (engine.defaults.maxFiresPerHourPerJob ≤
      countFiresInWindow world.fires job.rowId fireTs 3600)
    some { world with queue := queue, firing := some ⟨job, fireTs, .started rateLimited⟩ }
  | _, _ => none

def fireAct (result : ActionResult) : Option (World Trigger Action) :=
  match world.firing with
  | some ⟨job, fireTs, .started rateLimited⟩ =>
    if rateLimited then some { world with firing := some ⟨job, fireTs, .acted .rateLimit⟩ }
    else
      match result with
      | .refused outcome => some { world with firing := some ⟨job, fireTs, .acted outcome⟩ }
      | .dispatched outcome =>
        some { world with
          firing := some ⟨job, fireTs, .acted outcome⟩
          dispatched := (job.row.uuid, job.row.nextFireAt) :: world.dispatched }
  | _ => none

def storedOutcome (fires : List FireRow) (jobId : Nat) (rawOutcome : Outcome) (now : Nat) : Outcome × Bool :=
  if rawOutcome = .ok then (.ok, false)
  else if engine.defaults.maxErrorReportsPerHourPerJob ≤ countReportableFiresInWindow fires jobId now 3600 then
    (.rateLimitSuppressedReport, false)
  else (rawOutcome, true)

def finishFire (now : Nat) : Option (World Trigger Action) :=
  match world.firing with
  | some ⟨job, fireTs, .acted rawOutcome⟩ =>
    let (stored, emitReport) := engine.storedOutcome world.fires job.rowId rawOutcome now
    some { world with firing := some ⟨job, fireTs, .judged rawOutcome stored emitReport now⟩ }
  | _ => none

def newConsecutiveFailures (snapshot : JobRow Trigger Action) (rawOutcome : Outcome) : Nat :=
  if rawOutcome = .ok then 0 else snapshot.consecutiveFailures + 1

def shouldAutoDisable (snapshot : JobRow Trigger Action) (rawOutcome : Outcome) : Bool :=
  decide (rawOutcome ≠ .ok) &&
    decide (engine.defaults.consecutiveFailuresToDisable ≤ newConsecutiveFailures snapshot rawOutcome)

def commitRow (snapshot : JobRow Trigger Action) (fireTs nextFireAt now : Nat) (rawOutcome : Outcome)
    (row : JobRow Trigger Action) : JobRow Trigger Action :=
  let disables := engine.shouldAutoDisable snapshot rawOutcome
  { row with
    lastFiredAt := some (formatTsForDb fireTs)
    consecutiveFailures := newConsecutiveFailures snapshot rawOutcome
    nextFireAt := formatTsForDb nextFireAt
    enabled := if disables then false else row.enabled
    autoDisabledAt := if disables then some (formatTsForDb now) else row.autoDisabledAt
    updatedAt := formatTsForDb now }

/-- A trigger without a further occurrence disables its job and leaves the schedule as it is. -/
def disableRow (now : Nat) (row : JobRow Trigger Action) : JobRow Trigger Action :=
  { row with enabled := false, autoDisabledAt := some (formatTsForDb now), updatedAt := formatTsForDb now }

/-- The last section of a fire. Without a row it writes nothing; for a trigger without a further occurrence the
    fire's own row then refers to no job, which is `none`. -/
def commitFire : Option (World Trigger Action) :=
  match world.firing with
  | some ⟨job, fireTs, .judged rawOutcome stored _ now⟩ =>
    let done : CommittedFire := ⟨job.row.uuid, job.row.nextFireAt, fireTs⟩
    let errorClass := if rawOutcome = .ok then none else some rawOutcome
    match engine.calendar.computeNext job.row.trigger fireTs, world.jobs[job.rowId]? with
    | none, none => none
    | none, some row =>
      let outcome := if rawOutcome = .ok then .actionError else rawOutcome
      some { world with
        firing := none
        jobs := world.jobs.insert job.rowId (disableRow now row)
        fires := ⟨job.rowId, formatTsForDb fireTs, outcome, some (errorClass.getD .actionError)⟩ :: world.fires
        committed := done :: world.committed }
    | some _, none => some { world with firing := none }
    | some nextFireAt, some row =>
      let fires := ⟨job.rowId, formatTsForDb fireTs, stored, errorClass⟩ :: world.fires
      some { world with
        firing := none
        jobs := world.jobs.insert job.rowId (engine.commitRow job.row fireTs nextFireAt now rawOutcome row)
        fires := fires.filter fun fire =>
          !(decide (fire.jobId = job.rowId) && decide (fire.firedAt < formatTsForDb (now - 86400000)))
        committed := done :: world.committed }
  | _ => none

/-- One section. `none` is a section that cannot run now, or a panic. -/
def step (world : World Trigger Action) : Event Trigger Action → Option (World Trigger Action)
  | .create callerAppSlug request now => some (engine.create world callerAppSlug request now)
  | .delete uuid => some (delete world uuid)
  | .editLoad call callerAppSlug request permitted now =>
    some (engine.editLoad world call callerAppSlug request permitted now)
  | .editUpdate call => editUpdate world call
  | .getDueJobs now => getDueJobs world now
  | .fireStart fireTs => engine.fireStart world fireTs
  | .fireAct result => fireAct world result
  | .finishFire now => engine.finishFire world now
  | .commitFire => engine.commitFire world

end AutomationEngine

end Brenn.Automation
