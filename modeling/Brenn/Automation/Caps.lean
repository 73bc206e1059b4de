import Brenn.Automation.Slots

/-!
What the two caps of a job count.

Both gates count rows of the fires table, by the row id a fire was read with and by the outcome
stored there, which the report gate itself decides. Beside the tables a history keeps every fire
under the uuid of its job, with the outcome it really had, and is never pruned.
-/

namespace Brenn.Automation
open Brenn.Lib

variable {Trigger Action : Type}

/-! ### Histories -/

/-- A fire as it went, with its outcome before and after the report gate. -/
structure FireRecord where
  uuid : Nat
  firedAt : Nat
  rawOutcome : Outcome
  storedOutcome : Outcome
  reported : Option Nat
  deriving Repr, DecidableEq

/-- Within the hour that ends at an instant, by whole seconds. -/
def InHour (stop instant : Nat) : Prop :=
  formatTsForDb (stop - 3600000) ≤ formatTsForDb instant ∧ formatTsForDb instant ≤ formatTsForDb stop

instance (stop instant : Nat) : Decidable (InHour stop instant) := inferInstanceAs (Decidable (_ ∧ _))

/-- A job's fires of an hour that were not dropped for rate. -/
def firesInHour (history : List FireRecord) (uuid stop : Nat) : Nat :=
  history.countP fun record =>
    decide (record.uuid = uuid) && decide (InHour stop record.firedAt) && decide (record.rawOutcome ≠ .rateLimit)

def reportsInHour (history : List FireRecord) (uuid stop : Nat) : Nat :=
  history.countP fun record => decide (record.uuid = uuid) && record.reported.any fun reported => decide (InHour stop reported)

/-- The tables with every fire there was and the last instant a fire read. -/
structure Watched (Trigger Action : Type) where
  world : World Trigger Action := {}
  history : List FireRecord := []
  clock : Nat := 0

def ActionResult.outcome : ActionResult → Outcome
  | .refused outcome | .dispatched outcome => outcome

/-- The job of a snapshot still stands under the row id it was read with. -/
def World.Holds (world : World Trigger Action) (job : JobSnapshot Trigger Action) : Prop :=
  (world.jobs[job.rowId]?).map JobRow.uuid = some job.row.uuid

instance (world : World Trigger Action) (job : JobSnapshot Trigger Action) : Decidable (world.Holds job) :=
  inferInstanceAs (Decidable (_ = _))

namespace AutomationEngine

variable (engine : AutomationEngine Trigger)

/-- The record a commit leaves, if it finds a row, with the report it then emits. -/
def recorded (world : World Trigger Action) : Option FireRecord :=
  match world.firing with
  | some ⟨job, fireTs, .judged rawOutcome stored emitReport now⟩ =>
    match engine.calendar.computeNext job.row.trigger fireTs, world.jobs[job.rowId]? with
    | _, none => none
    | none, some _ =>
      some ⟨job.row.uuid, fireTs, rawOutcome, if rawOutcome = .ok then .actionError else rawOutcome, some now⟩
    | some _, some _ => some ⟨job.row.uuid, fireTs, rawOutcome, stored, if emitReport then some now else none⟩
  | _ => none

end AutomationEngine

namespace Watched

variable (engine : AutomationEngine Trigger) (watched : Watched Trigger Action)

def noted : Event Trigger Action → List FireRecord
  | .commitFire => (engine.recorded watched.world).toList ++ watched.history
  | _ => watched.history

def ticked : Event Trigger Action → Nat
  | .fireStart fireTs => fireTs
  | .finishFire now => now
  | _ => watched.clock

def step (event : Event Trigger Action) : Option (Watched Trigger Action) := do
  let after ← engine.step watched.world event
  some { world := after, history := watched.noted engine event, clock := watched.ticked event }

/-- The clock does not run back. While its job stands, a fire comes to its bookkeeping with a trigger
    that comes again and, if it was dropped for rate, with a report that is not suppressed, and no
    report of the hour is of a fire from before it. No row id is drawn again under a fire. -/
def Metered : Event Trigger Action → Prop
  | .fireStart fireTs => watched.clock ≤ fireTs
  | .fireAct result => result.outcome ≠ .rateLimit ∧ result.outcome ≠ .rateLimitSuppressedReport
  | .finishFire now => watched.clock ≤ now ∧ ∀ fire ∈ watched.world.firing, watched.world.Holds fire.job →
      (engine.calendar.computeNext fire.job.row.trigger fire.fireTs).isSome = true ∧
      (fire.stage = .acted .rateLimit →
        engine.storedOutcome watched.world.fires fire.job.rowId .rateLimit now = (.rateLimit, true)) ∧
      ∀ record ∈ watched.history, record.uuid = fire.job.row.uuid → ∀ reported ∈ record.reported,
        InHour now reported → InHour now record.firedAt
  | .commitFire => ∀ fire ∈ watched.world.firing, ∀ row ∈ watched.world.jobs[fire.job.rowId]?,
      row.uuid = fire.job.row.uuid
  | _ => True

instance : (event : Event Trigger Action) → Decidable (watched.Metered engine event)
  | .fireStart _ => inferInstanceAs (Decidable (_ ≤ _))
  | .fireAct _ => inferInstanceAs (Decidable (_ ∧ _))
  | .finishFire _ => inferInstanceAs (Decidable (_ ∧ _))
  | .commitFire => inferInstanceAs (Decidable (∀ _ ∈ watched.world.firing, ∀ _ ∈ watched.world.jobs[_]?, _))
  | .create .. | .delete _ | .editLoad .. | .editUpdate _ | .getDueJobs _ => inferInstanceAs (Decidable True)

end Watched

/-! ### Hours -/

theorem formatTsForDb_hour {earlier later : Nat} (le : formatTsForDb earlier ≤ formatTsForDb later) :
    formatTsForDb (earlier - 3600000) ≤ formatTsForDb (later - 3600000) := by
  have hour (instant : Nat) : (instant - 3600000) / 1000 = instant / 1000 - 3600 := by omega
  have seconds : earlier / 1000 ≤ later / 1000 := Nat.le_of_mul_le_mul_right le (by decide)
  refine Nat.mul_le_mul_right 1000 ?_
  rw [hour earlier, hour later]
  exact Nat.sub_le_sub_right seconds 3600

/-- What lies in an hour that an instant is in, and not after it, lies in the hour up to it. -/
theorem InHour.upTo {stop now instant : Nat} (inside : InHour stop instant) (reaches : InHour stop now)
    (before : instant ≤ now) : InHour now instant :=
  ⟨(formatTsForDb_hour reaches.2).trans inside.1, formatTsForDb_mono before⟩

/-! ### What a fire still to be committed carries -/

def Settled (engine : AutomationEngine Trigger) (watched : Watched Trigger Action) (fire : Fire Trigger Action) : Prop :=
  fire.fireTs ≤ watched.clock ∧
    match fire.stage with
    | .started _ => True
    | .acted rawOutcome => rawOutcome ≠ .rateLimitSuppressedReport
    | .judged rawOutcome stored emitReport now =>
      now = watched.clock ∧ (watched.world.Holds fire.job →
        (engine.calendar.computeNext fire.job.row.trigger fire.fireTs).isSome = true ∧
        (emitReport = true ↔ stored ≠ .ok ∧ stored ≠ .rateLimitSuppressedReport) ∧
        (stored = .rateLimit ↔ rawOutcome = .rateLimit) ∧
        (emitReport = true →
          reportsInHour watched.history fire.job.row.uuid now < engine.defaults.maxErrorReportsPerHourPerJob))

/-- The rows of the table under a row id from an instant on whose outcome counts. -/
def rowsSince (fires : List FireRow) (jobId start : Nat) (counts : Outcome → Bool) : Nat :=
  fires.countP fun fire => decide (fire.jobId = jobId) && decide (start ≤ fire.firedAt) && counts fire.outcome

def recordsSince (history : List FireRecord) (uuid start : Nat) (counts : Outcome → Bool) : Nat :=
  history.countP fun record =>
    decide (record.uuid = uuid) && decide (start ≤ formatTsForDb record.firedAt) && counts record.storedOutcome

/-- What every run keeps. Under the row id of a job the table counts what the history does, as far back as it is not
    pruned. -/
structure Counted (engine : AutomationEngine Trigger) (watched : Watched Trigger Action) : Prop where
  identified : Identified watched.world.jobs watched.world.nextUuid watched.world.snapshots
  owned : ∀ fire ∈ watched.world.fires, watched.world.jobs[fire.jobId]? ≠ none
  known : ∀ record ∈ watched.history, record.uuid < watched.world.nextUuid
  kept : ∀ (id : Nat) row, watched.world.jobs[id]? = some row → ∀ start counts,
    formatTsForDb (watched.clock - 86400000) ≤ start →
      rowsSince watched.world.fires id start counts = recordsSince watched.history row.uuid start counts
  past : ∀ record ∈ watched.history, record.firedAt ≤ watched.clock ∧
    ∀ reported ∈ record.reported, record.firedAt ≤ reported ∧ reported ≤ watched.clock
  dropped : ∀ record ∈ watched.history, record.storedOutcome = .rateLimit ↔ record.rawOutcome = .rateLimit
  reportable : ∀ record ∈ watched.history,
    record.reported.isSome = true ↔ record.storedOutcome ≠ .ok ∧ record.storedOutcome ≠ .rateLimitSuppressedReport
  capped : ∀ uuid stop, reportsInHour watched.history uuid stop ≤ engine.defaults.maxErrorReportsPerHourPerJob
  firing : ∀ fire ∈ watched.world.firing, Settled engine watched fire

/-- A section that writes no fire. Each row after it was one of the same job before or is a new job's, and
    none is gone. -/
structure KeepsFires (world after : World Trigger Action) : Prop where
  uuids : world.nextUuid ≤ after.nextUuid
  fires : after.fires = world.fires
  was : ∀ (id : Nat) row, after.jobs[id]? = some row →
    (∃ before, world.jobs[id]? = some before ∧ before.uuid = row.uuid) ∨
      (world.jobs[id]? = none ∧ row.uuid = world.nextUuid)
  still : ∀ id : Nat, world.jobs[id]? ≠ none → after.jobs[id]? ≠ none

namespace Counted

variable {engine : AutomationEngine Trigger} {watched : Watched Trigger Action}

theorem empty (engine : AutomationEngine Trigger) : Counted engine ({} : Watched Trigger Action) where
  identified := FiredOnce.empty.identified
  owned := nofun
  known := nofun
  kept id row held := by simp at held
  past := nofun
  dropped := nofun
  reportable := nofun
  capped _ _ := Nat.zero_le _
  firing := nofun

theorem carry (counted : Counted engine watched) {after : World Trigger Action} {now : Nat}
    (identified : Identified after.jobs after.nextUuid after.snapshots) (keeps : KeepsFires watched.world after)
    (ordered : watched.clock ≤ now)
    (firing : ∀ fire ∈ after.firing, Settled engine { watched with world := after, clock := now } fire) :
    Counted engine { watched with world := after, clock := now } where
  identified := identified
  owned fire listed := by
    dsimp only at listed
    rw [keeps.fires] at listed
    exact keeps.still _ (counted.owned fire listed)
  known record listed := (counted.known record listed).trans_le keeps.uuids
  kept id row held start counts recent := by
    dsimp only at recent ⊢
    rw [keeps.fires]
    rcases keeps.was id row held with ⟨before, stored, same⟩ | ⟨vacant, fresh⟩
    · rw [← same]
      exact counted.kept id before stored start counts ((formatTsForDb_mono (Nat.sub_le_sub_right ordered _)).trans recent)
    · -- no fire stands under a row id that was vacant, and none is of a job just named
      have none : rowsSince watched.world.fires id start counts = 0 := by
        refine List.countP_eq_zero.mpr fun fire listed picked => ?_
        simp only [Bool.and_eq_true, decide_eq_true_eq] at picked
        exact counted.owned fire listed (by rw [picked.1.1, vacant])
      have unknown : recordsSince watched.history row.uuid start counts = 0 := by
        refine List.countP_eq_zero.mpr fun record listed picked => ?_
        simp only [Bool.and_eq_true, decide_eq_true_eq] at picked
        exact absurd (counted.known record listed) (by omega)
      rw [none, unknown]
  past record listed :=
    ⟨(counted.past record listed).1.trans ordered,
      fun reported told => ((counted.past record listed).2 reported told).imp_right (·.trans ordered)⟩
  dropped := counted.dropped
  reportable := counted.reportable
  capped := counted.capped
  firing := firing

/-- What is settled about a fire stays so while other sections write: a job that still stands did. -/
theorem settled_of_holds {after : Watched Trigger Action} {fire : Fire Trigger Action}
    (settled : Settled engine watched fire) (clock : after.clock = watched.clock) (history : after.history = watched.history)
    (stood : after.world.Holds fire.job → watched.world.Holds fire.job) : Settled engine after fire := by
  obtain ⟨started, stage⟩ := settled
  refine ⟨clock ▸ started, ?_⟩
  cases at_ : fire.stage with
  | started limited => trivial
  | acted rawOutcome => simpa only [at_] using stage
  | judged rawOutcome stored emitReport now =>
    rw [at_] at stage
    refine ⟨stage.1.trans clock.symm, fun holds => ?_⟩
    rw [history]
    exact stage.2 (stood holds)

theorem untouched (counted : Counted engine watched) {after : World Trigger Action}
    (identified : Identified after.jobs after.nextUuid after.snapshots) (keeps : KeepsFires watched.world after)
    (firing : after.firing = watched.world.firing) : Counted engine { watched with world := after } := by
  refine counted.carry identified keeps (Nat.le_refl _) fun fire under => ?_
  rw [firing] at under
  refine settled_of_holds (counted.firing fire under) rfl rfl fun holds => ?_
  obtain ⟨row, held, named⟩ := Option.map_eq_some_iff.mp holds
  have read := counted.identified.read fire.job (by
    have here : watched.world.firing = some fire := under
    simp [World.snapshots, here])
  rcases keeps.was _ row held with ⟨before, stored, same⟩ | ⟨_, fresh⟩
  · exact Option.map_eq_some_iff.mpr ⟨before, stored, same.trans named⟩
  · omega

theorem stayed (counted : Counted engine watched) {after : World Trigger Action} {now : Nat}
    (jobs : after.jobs = watched.world.jobs) (uuids : after.nextUuid = watched.world.nextUuid)
    (fires : after.fires = watched.world.fires)
    (identified : Identified watched.world.jobs watched.world.nextUuid after.snapshots) (ordered : watched.clock ≤ now)
    (firing : ∀ fire ∈ after.firing, Settled engine { watched with world := after, clock := now } fire) :
    Counted engine { watched with world := after, clock := now } := by
  have keeps : KeepsFires watched.world after :=
    { uuids := uuids.ge
      fires := fires
      was id row held := .inl ⟨row, jobs ▸ held, rfl⟩
      still id held := jobs ▸ held }
  exact counted.carry (by rw [jobs, uuids]; exact identified) keeps ordered firing

theorem held_of_insert {jobs : Jobs Trigger Action} {id at_ : Nat} {row : JobRow Trigger Action}
    (held : jobs[id]? ≠ none) : (jobs.insert at_ row)[id]? ≠ none := by
  rw [lookup_insert]
  split
  · simp
  · exact held

theorem create (counted : Counted engine watched) (callerAppSlug : String) (request : CreateJob Trigger Action)
    (now : Nat) : Counted engine { watched with world := engine.create watched.world callerAppSlug request now } := by
  unfold AutomationEngine.create
  repeat' split
  iterate 3 exact counted
  have vacant : watched.world.jobs[watched.world.jobs.nextRowId]? = none := Jobs.lookup_nextRowId
  refine counted.untouched (counted.identified.create rfl _) ⟨Nat.le_succ _, rfl, ?_, fun id => held_of_insert⟩ rfl
  exact forall_lookup_insert (.inr ⟨vacant, rfl⟩) fun id row _ there => .inl ⟨row, there, rfl⟩

theorem delete (counted : Counted engine watched) (uuid : Nat) :
    Counted engine { watched with world := AutomationEngine.delete watched.world uuid } := by
  unfold AutomationEngine.delete
  split
  next => exact counted
  next found _ =>
    refine { counted with identified := counted.identified.erase _, owned := ?_, kept := ?_, firing := ?_ }
    · intro fire listed
      obtain ⟨held, other⟩ := List.mem_filter.mp listed
      dsimp only
      rw [lookup_erase, if_neg (Ne.symm (of_decide_eq_true other))]
      exact counted.owned fire held
    · intro id row held start counts recent
      have other : id ≠ found.rowId := by
        rintro rfl
        rw [lookup_erase, if_pos rfl] at held
        cases held
      rw [← counted.kept id row (lookup_of_erase held) start counts recent, rowsSince, List.countP_filter]
      refine List.countP_congr fun fire _ => ?_
      simp only [Bool.and_eq_true, decide_eq_true_eq]
      exact ⟨fun picked => picked.1, fun picked => ⟨picked, picked.1.1 ▸ other⟩⟩
    · intro fire under
      refine settled_of_holds (counted.firing fire under) rfl rfl fun holds => ?_
      obtain ⟨row, held, named⟩ := Option.map_eq_some_iff.mp holds
      exact Option.map_eq_some_iff.mpr ⟨row, lookup_of_erase held, named⟩

theorem editLoad (counted : Counted engine watched) (call : Nat) (callerAppSlug : String) (request : EditJob Trigger Action)
    (permitted : Bool) (now : Nat) :
    Counted engine { watched with world := engine.editLoad watched.world call callerAppSlug request permitted now } := by
  unfold AutomationEngine.editLoad
  repeat' split
  all_goals first
    | exact counted
    | exact counted.stayed rfl rfl rfl counted.identified (Nat.le_refl _) counted.firing

theorem editUpdate (counted : Counted engine watched) {call : Nat} {after : World Trigger Action}
    (stepped : AutomationEngine.editUpdate watched.world call = some after) :
    Counted engine { watched with world := after } := by
  unfold AutomationEngine.editUpdate at stepped
  split at stepped
  · cases stepped
  next edit _ =>
    split at stepped
    · cases stepped
      exact counted.stayed rfl rfl rfl counted.identified (Nat.le_refl _) counted.firing
    next found loaded =>
      cases stepped
      obtain ⟨stored, _⟩ := Jobs.getJob_some loaded
      refine counted.untouched (counted.identified.rewrite stored rfl)
        ⟨Nat.le_refl _, rfl, fun id row there => ?_, fun id => held_of_insert⟩ rfl
      exact .inl (Identified.was stored (edit.updateJob found.row) rfl there)

theorem getDueJobs (counted : Counted engine watched) {now : Nat} {after : World Trigger Action}
    (stepped : AutomationEngine.getDueJobs watched.world now = some after) :
    Counted engine { watched with world := after } := by
  unfold AutomationEngine.getDueJobs at stepped
  split at stepped
  next idle _ =>
    cases stepped
    refine counted.stayed rfl rfl rfl ?_ (Nat.le_refl _) fun fire under => ?_
    · rw [show World.snapshots { watched.world with queue := watched.world.jobs.getDueJobs now, decided := [] } =
        watched.world.jobs.getDueJobs now by simp [World.snapshots, idle]]
      exact counted.identified.due now
    · rw [show watched.world.firing = none from idle] at under
      cases under
  next => cases stepped

theorem fireStart (counted : Counted engine watched) {fireTs : Nat} {after : World Trigger Action}
    (ordered : watched.clock ≤ fireTs) (stepped : engine.fireStart watched.world fireTs = some after) :
    Counted engine { watched with world := after, clock := fireTs } := by
  unfold AutomationEngine.fireStart at stepped
  split at stepped
  next job queue idle waiting =>
    cases stepped
    have read : watched.world.snapshots = job :: queue := by simp [World.snapshots, idle, waiting]
    refine counted.stayed rfl rfl rfl (read ▸ counted.identified : Identified _ _ (job :: queue)) ordered ?_
    rintro _ ⟨⟩
    exact ⟨Nat.le_refl _, trivial⟩
  next => cases stepped

theorem advance (counted : Counted engine watched) {fire moved : Fire Trigger Action} {now : Nat}
    {after : World Trigger Action} (under : watched.world.firing = some fire) (moves : after.firing = some moved)
    (sameJob : moved.job = fire.job) (jobs : after.jobs = watched.world.jobs)
    (uuids : after.nextUuid = watched.world.nextUuid) (fires : after.fires = watched.world.fires)
    (queue : after.queue = watched.world.queue) (ordered : watched.clock ≤ now)
    (settled : Settled engine { watched with world := after, clock := now } moved) :
    Counted engine { watched with world := after, clock := now } := by
  have read : after.snapshots = watched.world.snapshots := by simp [World.snapshots, under, moves, sameJob, queue]
  refine counted.stayed jobs uuids fires (read ▸ counted.identified) ordered fun fire here => ?_
  rw [moves] at here
  cases here
  exact settled

theorem fireAct (counted : Counted engine watched) {result : ActionResult} {after : World Trigger Action}
    (possible : result.outcome ≠ .rateLimitSuppressedReport)
    (stepped : AutomationEngine.fireAct watched.world result = some after) :
    Counted engine { watched with world := after } := by
  unfold AutomationEngine.fireAct at stepped
  split at stepped
  next job fireTs rateLimited under =>
    have started := (counted.firing _ under).1
    split at stepped
    next =>
      cases stepped
      exact counted.advance under rfl rfl rfl rfl rfl rfl (Nat.le_refl _) ⟨started, nofun⟩
    next =>
      split at stepped
      all_goals
        cases stepped
        exact counted.advance under rfl rfl rfl rfl rfl rfl (Nat.le_refl _) ⟨started, possible⟩
  next => cases stepped

theorem countWindow_eq (counted : Counted engine watched) {job : JobSnapshot Trigger Action} {now : Nat}
    (holds : watched.world.Holds job) (ordered : watched.clock ≤ now) (counts : Outcome → Bool) :
    countWindow counts watched.world.fires job.rowId now 3600 =
      recordsSince watched.history job.row.uuid (formatTsForDb (now - 3600000)) counts := by
  obtain ⟨row, held, named⟩ := Option.map_eq_some_iff.mp holds
  rw [← named]
  exact counted.kept _ row held _ counts (formatTsForDb_mono (by omega))

theorem reports_eq (counted : Counted engine watched) {job : JobSnapshot Trigger Action} {now : Nat}
    (holds : watched.world.Holds job) (ordered : watched.clock ≤ now)
    (timely : ∀ record ∈ watched.history, record.uuid = job.row.uuid → ∀ reported ∈ record.reported,
      InHour now reported → InHour now record.firedAt) :
    countReportableFiresInWindow watched.world.fires job.rowId now 3600 =
      reportsInHour watched.history job.row.uuid now := by
  rw [countReportableFiresInWindow, counted.countWindow_eq holds ordered]
  refine List.countP_congr fun record listed => ?_
  simp only [Bool.and_eq_true, decide_eq_true_eq, Option.any_eq_true]
  constructor
  · rintro ⟨⟨own, recent⟩, stored⟩
    obtain ⟨reported, told⟩ := Option.isSome_iff_exists.mp ((counted.reportable record listed).mpr stored)
    obtain ⟨after, before⟩ := (counted.past record listed).2 reported told
    exact ⟨own, reported, told, recent.trans (formatTsForDb_mono after), formatTsForDb_mono (before.trans ordered)⟩
  · rintro ⟨own, reported, told, inside⟩
    exact ⟨⟨own, (timely record listed own reported told inside).1⟩,
      (counted.reportable record listed).mp (Option.isSome_of_mem told)⟩

/-- The rate gate counts the fires of the hour that were not dropped. -/
theorem fires_eq (counted : Counted engine watched) {job : JobSnapshot Trigger Action} {fireTs : Nat}
    (holds : watched.world.Holds job) (ordered : watched.clock ≤ fireTs) :
    countFiresInWindow watched.world.fires job.rowId fireTs 3600 = firesInHour watched.history job.row.uuid fireTs := by
  rw [countFiresInWindow, counted.countWindow_eq holds ordered]
  refine List.countP_congr fun record listed => ?_
  have past := formatTsForDb_mono ((counted.past record listed).1.trans ordered)
  simp only [Bool.and_eq_true, decide_eq_true_eq, ne_eq, counted.dropped record listed, InHour, past, and_true]

/-- What the report gate stores tells the dropped fires and the reported ones, if it suppresses no report of
    a dropped one. -/
theorem storedOutcome_tells {fires : List FireRow} {jobId now : Nat} {rawOutcome : Outcome}
    (named : rawOutcome ≠ .rateLimitSuppressedReport)
    (through : rawOutcome = .rateLimit → engine.storedOutcome fires jobId .rateLimit now = (.rateLimit, true)) :
    let judged := engine.storedOutcome fires jobId rawOutcome now
    (judged.2 = true ↔ judged.1 ≠ .ok ∧ judged.1 ≠ .rateLimitSuppressedReport) ∧
      (judged.1 = .rateLimit ↔ rawOutcome = .rateLimit) ∧
      (judged.2 = true → countReportableFiresInWindow fires jobId now 3600 < engine.defaults.maxErrorReportsPerHourPerJob) := by
  unfold AutomationEngine.storedOutcome at through ⊢
  by_cases succeeded : rawOutcome = .ok
  · simp [succeeded]
  · by_cases free : countReportableFiresInWindow fires jobId now 3600 < engine.defaults.maxErrorReportsPerHourPerJob
    · simp [succeeded, named, free, not_le.mpr free]
    · have other : rawOutcome ≠ .rateLimit := fun dropped => by simp [not_lt.mp free] at through; exact through dropped
      simp [succeeded, not_lt.mp free, other]

theorem finishFire (counted : Counted engine watched) {now : Nat} {after : World Trigger Action}
    (metered : watched.Metered engine (.finishFire now)) (stepped : engine.finishFire watched.world now = some after) :
    Counted engine { watched with world := after, clock := now } := by
  obtain ⟨ordered, each⟩ := metered
  unfold AutomationEngine.finishFire at stepped
  split at stepped
  next job fireTs rawOutcome under =>
    obtain ⟨started, named⟩ := counted.firing _ under
    have tells := fun holds => storedOutcome_tells named fun dropped => (each _ under holds).2.1 (congrArg _ dropped)
    generalize engine.storedOutcome watched.world.fires job.rowId rawOutcome now = judged at stepped tells
    cases stepped
    refine counted.advance under rfl rfl rfl rfl rfl rfl ordered ⟨started.trans ordered, rfl, fun holds => ?_⟩
    obtain ⟨recurs, -, timely⟩ := each _ under holds
    rw [← counted.reports_eq holds ordered timely]
    exact ⟨recurs, tells holds⟩
  next => cases stepped

/-- Every report of an hour that reaches now lies in the hour up to now. -/
theorem reportsInHour_le (counted : Counted engine watched) {uuid stop : Nat} (reaches : InHour stop watched.clock) :
    reportsInHour watched.history uuid stop ≤ reportsInHour watched.history uuid watched.clock := by
  refine List.countP_mono_left fun record listed picked => ?_
  simp only [Bool.and_eq_true, decide_eq_true_eq, Option.any_eq_true] at picked ⊢
  obtain ⟨own, reported, told, inside⟩ := picked
  exact ⟨own, reported, told, inside.upTo reaches ((counted.past record listed).2 reported told).2⟩

/-- A fire of a job that stands joins the history, and the table for as long as a window may count it. -/
theorem join (counted : Counted engine watched) {after : World Trigger Action} {record : FireRecord}
    {job : JobSnapshot Trigger Action} {row written : JobRow Trigger Action}
    (held : watched.world.jobs[job.rowId]? = some row) (named : row.uuid = job.row.uuid) (own : record.uuid = job.row.uuid)
    (jobs : after.jobs = watched.world.jobs.insert job.rowId written) (same : written.uuid = row.uuid)
    (uuids : after.nextUuid = watched.world.nextUuid)
    (identified : Identified watched.world.jobs watched.world.nextUuid after.snapshots)
    (listed : ∀ fire ∈ after.fires, fire.jobId = job.rowId ∨ fire ∈ watched.world.fires)
    (rows : ∀ (jobId start : Nat) (counts : Outcome → Bool), formatTsForDb (watched.clock - 86400000) ≤ start →
      rowsSince after.fires jobId start counts = rowsSince watched.world.fires jobId start counts +
        if (decide (job.rowId = jobId) && decide (start ≤ formatTsForDb record.firedAt) && counts record.storedOutcome) =
          true then 1 else 0)
    (done : after.firing = none) (started : record.firedAt ≤ watched.clock)
    (now : ∀ reported ∈ record.reported, reported = watched.clock)
    (dropped : record.storedOutcome = .rateLimit ↔ record.rawOutcome = .rateLimit)
    (reportable : record.reported.isSome = true ↔
      record.storedOutcome ≠ .ok ∧ record.storedOutcome ≠ .rateLimitSuppressedReport)
    (room : record.reported.isSome = true →
      reportsInHour watched.history record.uuid watched.clock < engine.defaults.maxErrorReportsPerHourPerJob) :
    Counted engine { watched with world := after, history := record :: watched.history } where
  identified := by
    dsimp only
    rw [jobs, uuids]
    exact identified.rewrite held same
  owned fire member := by
    dsimp only at member ⊢
    rw [jobs, lookup_insert]
    split
    · simp
    next other => exact counted.owned fire ((listed fire member).resolve_left (Ne.symm other))
  known := by
    dsimp only
    rw [uuids]
    refine List.forall_mem_cons.mpr ⟨?_, counted.known⟩
    rw [own, ← named]
    exact counted.identified.known _ row held
  kept id found stored start counts recent := by
    dsimp only at stored recent ⊢
    rw [jobs] at stored
    obtain ⟨before, was, equal⟩ := Identified.was held written same stored
    rw [rows id start counts recent, counted.kept id before was start counts recent, equal, recordsSince, recordsSince,
      List.countP_cons]
    -- a row id and the uuid found under it name the same job
    have key : job.rowId = id ↔ record.uuid = found.uuid := by
      rw [own, ← named, ← equal]
      constructor
      · rintro rfl
        rw [Option.some.inj (held.symm.trans was)]
      · exact counted.identified.unique _ row _ before held was
    simp only [key]
  past := by
    refine List.forall_mem_cons.mpr ⟨⟨started, fun reported told => ?_⟩, counted.past⟩
    rw [now reported told]
    exact ⟨started, Nat.le_refl _⟩
  dropped := List.forall_mem_cons.mpr ⟨dropped, counted.dropped⟩
  reportable := List.forall_mem_cons.mpr ⟨reportable, counted.reportable⟩
  capped uuid stop := by
    have before := counted.capped uuid stop
    unfold reportsInHour at before ⊢
    rw [List.countP_cons]
    split
    next inside =>
      simp only [Bool.and_eq_true, decide_eq_true_eq, Option.any_eq_true] at inside
      obtain ⟨rfl, reported, told, reaches⟩ := inside
      obtain rfl := now reported told
      exact Nat.lt_of_le_of_lt (counted.reportsInHour_le reaches) (room (Option.isSome_of_mem told))
    next => exact before
  firing fire under := by
    dsimp only at under
    rw [done] at under
    cases under

theorem commitFire (counted : Counted engine watched) {after : World Trigger Action}
    (metered : watched.Metered engine .commitFire) (stepped : engine.commitFire watched.world = some after) :
    Counted engine { watched with world := after, history := watched.noted engine .commitFire } := by
  unfold AutomationEngine.commitFire at stepped
  split at stepped
  next job fireTs rawOutcome stored emitReport now under =>
    obtain ⟨started, rfl, settled⟩ := counted.firing _ under
    have read : watched.world.snapshots = job :: watched.world.queue := by simp [World.snapshots, under]
    have identified : Identified watched.world.jobs watched.world.nextUuid watched.world.queue :=
      (read ▸ counted.identified : Identified _ _ (job :: watched.world.queue)).tail
    have holds : ∀ {row}, watched.world.jobs[job.rowId]? = some row → watched.world.Holds job := fun {row} held =>
      Option.map_eq_some_iff.mpr ⟨row, held, metered _ under row held⟩
    unfold Watched.noted AutomationEngine.recorded
    rw [under]
    dsimp only at stepped settled ⊢
    split at stepped
    next => cases stepped
    next row never held =>
      have recurs := (settled (holds held)).1
      rw [never] at recurs
      cases recurs
    next nextFireAt comes gone =>
      cases stepped
      rw [comes, gone]
      refine counted.stayed rfl rfl rfl identified (Nat.le_refl _) fun fire under => ?_
      cases under
    next nextFireAt row comes held =>
      cases stepped
      rw [comes, held]
      obtain ⟨-, told, drops, room⟩ := settled (holds held)
      refine counted.join held (metered _ under row held) rfl rfl rfl rfl identified (fun fire listed => ?_)
        (fun jobId start counts recent => ?_) rfl started ?_ drops ?_ ?_
      · dsimp only at listed
        rcases List.mem_cons.mp (List.mem_of_mem_filter listed) with rfl | before
        · exact .inl rfl
        · exact .inr before
      · -- the rows the commit prunes are older than any window still reads
        rw [rowsSince, List.countP_filter]
        refine (List.countP_congr fun fire _ => ?_).trans List.countP_cons
        simp only [Bool.and_eq_true, Bool.not_eq_true', Bool.and_eq_false_imp, decide_eq_true_eq, decide_eq_false_iff_not,
          not_lt]
        exact ⟨fun picked => picked.1, fun picked => ⟨picked, fun _ => recent.trans picked.1.2⟩⟩
      · intro reported emitted
        cases emitReport
        · cases emitted
        · exact (Option.some.inj emitted).symm
      · cases emitReport <;> simpa using told
      · intro reports
        refine room ?_
        cases emitReport
        · exact absurd reports (by simp)
        · rfl
  next => cases stepped

theorem step (watched : Watched Trigger Action) (event : Event Trigger Action) (after : Watched Trigger Action)
    (counted : Counted engine watched) (metered : watched.Metered engine event)
    (stepped : watched.step engine event = some after) : Counted engine after := by
  obtain ⟨next, moved, same⟩ := Option.bind_eq_some_iff.mp stepped
  obtain rfl := Option.some.inj same
  cases event with
  | create callerAppSlug request now =>
    cases moved
    exact counted.create callerAppSlug request now
  | delete uuid =>
    cases moved
    exact counted.delete uuid
  | editLoad call callerAppSlug request permitted now =>
    cases moved
    exact counted.editLoad call callerAppSlug request permitted now
  | editUpdate call => exact counted.editUpdate moved
  | getDueJobs now => exact counted.getDueJobs moved
  | fireStart fireTs => exact counted.fireStart metered moved
  | fireAct result => exact counted.fireAct metered.2 moved
  | finishFire now => exact counted.finishFire metered moved
  | commitFire => exact counted.commitFire metered moved

end Counted

def cappedEngine : AutomationEngine Nat := ⟨everySeconds, ⟨2, 1, 100, 10⟩⟩

def tick (now : Nat) : Event Nat Unit := .create "notes" ⟨"tick", 60, (), true⟩ now

def fired (instants : List Nat) : List (Event Nat Unit) :=
  instants.flatMap fun instant =>
    [.getDueJobs instant, .fireStart instant, .fireAct (.dispatched .ok), .finishFire instant, .commitFire]

/-- The job of the next fire after a run, where that is dropped, and how many of its fires of the hour before went
    through. -/
def droppedAfter (events : List (Event Nat Unit)) (fireTs : Nat) : Option (Nat × Nat) := do
  let watched ← run (Watched.step cappedEngine) {} events
  let started ← cappedEngine.step watched.world (.fireStart fireTs)
  match started.firing with
  | some ⟨job, _, .started true⟩ => some (job.row.uuid, firesInHour watched.history job.row.uuid fireTs)
  | _ => none

end Brenn.Automation
