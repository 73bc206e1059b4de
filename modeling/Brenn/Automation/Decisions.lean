import Brenn.Automation.Slots

/-!
The schedule follows the trigger, and the latest decision about a job stands.

A fire commits what it counted from its snapshot, and an edit writes what it loaded. An edit
that runs while a fire is under way stands if the fire succeeds.
-/

namespace Brenn.Automation
open Brenn.Lib Std

variable {Trigger Action : Type}

def Fire.succeeded (fire : Fire Trigger Action) : Bool :=
  match fire.stage with
  | .judged rawOutcome _ _ _ => decide (rawOutcome = .ok)
  | _ => false

/-- A fire commits to a row with the trigger it read, and to one an edit decided about since only if it succeeded
    and its trigger goes on. An edit that does not state whether the job is enabled finds that as it loaded it. -/
def AutomationEngine.Undisturbed (engine : AutomationEngine Trigger) (world : World Trigger Action) :
    Event Trigger Action → Prop
  | .commitFire =>
    ∀ fire ∈ world.firing, ∀ row ∈ world.jobs[fire.job.rowId]?, row.trigger = fire.job.row.trigger ∧
      (row.uuid ∈ world.decided →
        fire.succeeded = true ∧ (engine.calendar.computeNext fire.job.row.trigger fire.fireTs).isSome)
  | .editUpdate call =>
    ∀ edit ∈ world.edits[call]?, ∀ found ∈ world.jobs.getJob edit.request.id,
      edit.request.enabled = none → found.row.enabled = edit.existing.row.enabled
  | _ => True

instance [DecidableEq Trigger] (engine : AutomationEngine Trigger) (world : World Trigger Action) :
    (event : Event Trigger Action) → Decidable (engine.Undisturbed world event)
  | .commitFire =>
    inferInstanceAs (Decidable (∀ fire ∈ world.firing, ∀ row ∈ world.jobs[fire.job.rowId]?,
      row.trigger = fire.job.row.trigger ∧ (row.uuid ∈ world.decided →
        fire.succeeded = true ∧ (engine.calendar.computeNext fire.job.row.trigger fire.fireTs).isSome)))
  | .editUpdate call =>
    inferInstanceAs (Decidable (∀ edit ∈ world.edits[call]?, ∀ found ∈ world.jobs.getJob edit.request.id,
      edit.request.enabled = none → found.row.enabled = edit.existing.row.enabled))
  | .create .. | .delete _ | .editLoad .. | .getDueJobs _ | .fireStart _ | .fireAct _ | .finishFire _ =>
    inferInstanceAs (Decidable True)

/-! ### Instants and their triggers -/

/-- Every row is scheduled at an occurrence of its trigger, and every edit is going to write one. -/
structure Scheduled (engine : AutomationEngine Trigger) (world : World Trigger Action) : Prop where
  row : ∀ (id : Nat) row, world.jobs[id]? = some row → engine.calendar.Occurrence row.trigger row.nextFireAt
  edit : ∀ (call : Nat) edit, world.edits[call]? = some edit →
    engine.calendar.Occurrence edit.newTrigger (formatTsForDb edit.nextFireAt)

theorem Calendar.Occurrence.formatted {calendar : Calendar Trigger} {trigger : Trigger} {instant : Nat}
    (due : calendar.Occurrence trigger instant) : calendar.Occurrence trigger (formatTsForDb instant) := by
  obtain ⟨anchor, answered⟩ := due
  exact ⟨anchor, by rw [calendar.whole answered, answered]⟩

namespace Scheduled

variable {engine : AutomationEngine Trigger} {world : World Trigger Action}

theorem editedNext {row : JobRow Trigger Action} {request : EditJob Trigger Action} {now nextFireAt : Nat}
    (due : engine.calendar.Occurrence row.trigger row.nextFireAt)
    (counted : engine.editedNext row request now = some nextFireAt) :
    engine.calendar.Occurrence (request.trigger.getD row.trigger) (formatTsForDb nextFireAt) := by
  unfold AutomationEngine.editedNext at counted
  split at counted
  next kept =>
    obtain rfl := Option.some.inj counted
    rw [kept]
    exact due.formatted
  next trigger stated =>
    rw [stated]
    exact Calendar.Occurrence.formatted ⟨_, counted⟩

theorem create (scheduled : Scheduled engine world) (callerAppSlug : String) (request : CreateJob Trigger Action)
    (now : Nat) : Scheduled engine (engine.create world callerAppSlug request now) := by
  unfold AutomationEngine.create
  split
  next => exact scheduled
  next nextFireAt counted =>
    split
    next => exact scheduled
    next =>
      split
      next => exact scheduled
      next =>
        exact ⟨forall_lookup_insert (Calendar.Occurrence.formatted ⟨now, counted⟩)
          fun id row _ there => scheduled.row id row there, scheduled.edit⟩

theorem delete (scheduled : Scheduled engine world) (uuid : Nat) :
    Scheduled engine (AutomationEngine.delete world uuid) := by
  unfold AutomationEngine.delete
  split
  next => exact scheduled
  next => exact ⟨fun id row there => scheduled.row id row (lookup_of_erase there), scheduled.edit⟩

theorem editLoad (scheduled : Scheduled engine world) (call : Nat) (callerAppSlug : String)
    (request : EditJob Trigger Action) (permitted : Bool) (now : Nat) :
    Scheduled engine (engine.editLoad world call callerAppSlug request permitted now) := by
  unfold AutomationEngine.editLoad
  split
  next => exact scheduled
  next existing loaded =>
    split
    next => exact scheduled
    next =>
      split
      next => exact scheduled
      next =>
        split
        next => exact scheduled
        next nextFireAt counted =>
          have due := scheduled.row _ _ (Jobs.getJob_some loaded).1
          exact ⟨scheduled.row, forall_lookup_insert (editedNext due counted)
            fun other edit _ pending => scheduled.edit other edit pending⟩

theorem editUpdate (scheduled : Scheduled engine world) {call : Nat} {after : World Trigger Action}
    (stepped : AutomationEngine.editUpdate world call = some after) : Scheduled engine after := by
  unfold AutomationEngine.editUpdate at stepped
  split at stepped
  next => cases stepped
  next edit pending =>
    have others := fun (other : Nat) found there => scheduled.edit other found (lookup_of_erase (k := call) there)
    split at stepped
    next =>
      cases stepped
      exact ⟨scheduled.row, others⟩
    next found _ =>
      cases stepped
      exact ⟨forall_lookup_insert (scheduled.edit call edit pending) fun id row _ there => scheduled.row id row there,
        others⟩

/-- A fire that commits to a row with the trigger it read schedules it at the trigger's next occurrence. -/
theorem commitFire (scheduled : Scheduled engine world) {after : World Trigger Action}
    (undisturbed : engine.Undisturbed world .commitFire) (stepped : engine.commitFire world = some after) :
    Scheduled engine after := by
  unfold AutomationEngine.commitFire at stepped
  split at stepped
  next job fireTs rawOutcome stored emitReport now firing =>
    dsimp only at stepped
    split at stepped
    next => cases stepped
    next row _ held =>
      cases stepped
      exact ⟨forall_lookup_insert (scheduled.row _ row held) fun id found _ there => scheduled.row id found there,
        scheduled.edit⟩
    next =>
      cases stepped
      exact ⟨scheduled.row, scheduled.edit⟩
    next nextFireAt row counted held =>
      cases stepped
      obtain ⟨sameTrigger, _⟩ := undisturbed _ firing row held
      refine ⟨forall_lookup_insert ?_ fun id found _ there => scheduled.row id found there, scheduled.edit⟩
      exact Calendar.Occurrence.formatted ⟨fireTs, by simp only [AutomationEngine.commitRow, sameTrigger, counted]⟩
  next => cases stepped

theorem unchanged (scheduled : Scheduled engine world) {after : World Trigger Action}
    (sameJobs : after.jobs = world.jobs) (sameEdits : after.edits = world.edits) : Scheduled engine after :=
  ⟨sameJobs ▸ scheduled.row, sameEdits ▸ scheduled.edit⟩

theorem step (world : World Trigger Action) (event : Event Trigger Action) (after : World Trigger Action)
    (scheduled : Scheduled engine world) (undisturbed : engine.Undisturbed world event)
    (stepped : engine.step world event = some after) : Scheduled engine after := by
  cases event with
  | create callerAppSlug request now => exact Option.some.inj stepped ▸ scheduled.create callerAppSlug request now
  | delete uuid => exact Option.some.inj stepped ▸ scheduled.delete uuid
  | editLoad call callerAppSlug request permitted now =>
    exact Option.some.inj stepped ▸ scheduled.editLoad call callerAppSlug request permitted now
  | editUpdate call => exact scheduled.editUpdate stepped
  | commitFire => exact scheduled.commitFire undisturbed stepped
  | getDueJobs now =>
    simp only [AutomationEngine.step, AutomationEngine.getDueJobs] at stepped
    split at stepped <;> cases stepped
    exact scheduled.unchanged rfl rfl
  | fireStart fireTs =>
    simp only [AutomationEngine.step, AutomationEngine.fireStart] at stepped
    split at stepped <;> cases stepped
    exact scheduled.unchanged rfl rfl
  | fireAct result =>
    simp only [AutomationEngine.step, AutomationEngine.fireAct] at stepped
    split at stepped
    next =>
      split at stepped
      next =>
        cases stepped
        exact scheduled.unchanged rfl rfl
      next => split at stepped <;> cases stepped <;> exact scheduled.unchanged rfl rfl
    next => cases stepped
  | finishFire now =>
    simp only [AutomationEngine.step, AutomationEngine.finishFire] at stepped
    split at stepped <;> cases stepped
    exact scheduled.unchanged rfl rfl

end Scheduled

/-! ### Decisions that stand -/

/-- A commit keeps the row's trigger, and a job that an edit decided about since the loop read it is neither
    disabled nor counted up. An edit that does not ask to enable the job leaves a disabled one disabled. -/
def Honoured (world : World Trigger Action) (event : Event Trigger Action) (after : World Trigger Action) : Prop :=
  match event with
  | .commitFire =>
    ∀ fire ∈ world.firing, ∀ row ∈ world.jobs[fire.job.rowId]?, ∃ written ∈ after.jobs[fire.job.rowId]?,
      written.trigger = row.trigger ∧
        (row.uuid ∈ world.decided →
          written.enabled = row.enabled ∧ written.consecutiveFailures ≤ row.consecutiveFailures)
  | .editUpdate call =>
    ∀ edit ∈ world.edits[call]?, ∀ found ∈ world.jobs.getJob edit.request.id,
      edit.request.enabled ≠ some true → found.row.enabled = false →
        ∃ written ∈ after.jobs[found.rowId]?, written.enabled = false
  | _ => True

theorem commitFire_honoured {engine : AutomationEngine Trigger} {world after : World Trigger Action}
    (undisturbed : engine.Undisturbed world .commitFire) (stepped : engine.commitFire world = some after) :
    Honoured world .commitFire after := by
  intro fire firing row held
  obtain ⟨_, decided⟩ := undisturbed fire firing row held
  obtain ⟨job, fireTs, stage⟩ := fire
  have here : world.firing = some ⟨job, fireTs, stage⟩ := firing
  have found : world.jobs[job.rowId]? = some row := held
  unfold AutomationEngine.commitFire at stepped
  rw [here] at stepped
  cases stage with
  | started | acted => cases stepped
  | judged rawOutcome stored emitReport now =>
    simp only [found] at stepped
    cases counted : engine.calendar.computeNext job.row.trigger fireTs with
    | none =>
      rw [counted] at stepped
      cases stepped
      refine ⟨AutomationEngine.disableRow now row, by simp, rfl, fun listed => ?_⟩
      have goesOn := (decided listed).2
      simp [counted] at goesOn
    | some nextFireAt =>
      rw [counted] at stepped
      cases stepped
      refine ⟨engine.commitRow job.row fireTs nextFireAt now rawOutcome row, by simp, rfl, fun listed => ?_⟩
      obtain rfl : rawOutcome = .ok := of_decide_eq_true (decided listed).1
      simp [AutomationEngine.commitRow, AutomationEngine.shouldAutoDisable, AutomationEngine.newConsecutiveFailures]

theorem editUpdate_honoured {engine : AutomationEngine Trigger} {world after : World Trigger Action} {call : Nat}
    (undisturbed : engine.Undisturbed world (.editUpdate call))
    (stepped : AutomationEngine.editUpdate world call = some after) : Honoured world (.editUpdate call) after := by
  intro edit pending found loaded unasked disabled
  have here : world.edits[call]? = some edit := pending
  have there : world.jobs.getJob edit.request.id = some found := loaded
  simp only [AutomationEngine.editUpdate, here, there] at stepped
  cases stepped
  refine ⟨edit.updateJob found.row, by simp, ?_⟩
  show edit.request.enabled.getD edit.existing.row.enabled = false
  cases stated : edit.request.enabled with
  | none => rw [Option.getD_none, ← undisturbed edit pending found loaded stated, disabled]
  | some enabled =>
    cases enabled with
    | false => rfl
    | true => exact absurd stated unasked

theorem honoured_step {engine : AutomationEngine Trigger} {world after : World Trigger Action}
    {event : Event Trigger Action} (undisturbed : engine.Undisturbed world event)
    (stepped : engine.step world event = some after) : Honoured world event after := by
  cases event with
  | commitFire => exact commitFire_honoured undisturbed stepped
  | editUpdate call => exact editUpdate_honoured undisturbed stepped
  | create | delete | editLoad | getDueJobs | fireStart | fireAct | finishFire => trivial

/-- In a run of undisturbed sections every job is scheduled at an occurrence of its trigger, and
    every further undisturbed section honours the decisions before it. -/
theorem schedule_follows_trigger (engine : AutomationEngine Trigger) (events : List (Event Trigger Action))
    (world : World Trigger Action) (ran : run engine.step {} events = some world)
    (undisturbed : Along engine.step engine.Undisturbed {} events) :
    (∀ (id : Nat) row, world.jobs[id]? = some row → engine.calendar.Occurrence row.trigger row.nextFireAt) ∧
      ∀ event after, engine.Undisturbed world event → engine.step world event = some after →
        Honoured world event after := by
  have scheduled : Scheduled engine world :=
    run_preserves Scheduled.step ⟨by simp, by simp⟩ undisturbed ran
  exact ⟨scheduled.row, fun event after => honoured_step⟩

/-- A job re-enabled while a fire of it succeeds, and renamed after it was disabled. -/
def decidedRun : List (Event Nat Unit) :=
  [.create "notes" ⟨"tick", 60, (), true⟩ 1000, .getDueJobs 60000, .fireStart 60000,
    .editLoad 1 "notes" ⟨0, none, none, none, some false⟩ true 60100, .editUpdate 1,
    .editLoad 2 "notes" ⟨0, none, none, none, some true⟩ true 60200, .editUpdate 2,
    .fireAct (.dispatched .ok), .finishFire 60300, .commitFire,
    .editLoad 3 "notes" ⟨0, none, none, none, some false⟩ true 60400, .editUpdate 3,
    .editLoad 4 "notes" ⟨0, some "tock", none, none, none⟩ true 60500]

theorem decided_run_follows_trigger :
    ∃ world, run everySecondsEngine.step {} decidedRun = some world ∧
      (∀ (id : Nat) row, world.jobs[id]? = some row → everySeconds.Occurrence row.trigger row.nextFireAt) ∧
      everySecondsEngine.Undisturbed world (.editUpdate 4) ∧
      ∀ event after, everySecondsEngine.Undisturbed world event → everySecondsEngine.step world event = some after →
        Honoured world event after := by
  have reached : (run everySecondsEngine.step {} decidedRun).any fun world =>
      decide (everySecondsEngine.Undisturbed world (.editUpdate 4)) := by decide +kernel
  obtain ⟨world, ran, next⟩ := (Option.any_eq_true _ _).mp reached
  obtain ⟨follows, honours⟩ := schedule_follows_trigger everySecondsEngine decidedRun world ran (by decide +kernel)
  exact ⟨world, ran, follows, of_decide_eq_true next, honours⟩

theorem everySeconds_dvd {period instant : Nat} (due : everySeconds.Occurrence period instant) :
    period * 1000 ∣ instant := by
  obtain ⟨anchor, answered⟩ := due
  simp only [everySeconds] at answered
  split at answered
  next => cases answered
  next =>
    cases answered
    exact Nat.dvd_mul_left _ _

/-- A job fired while edits decide about it: `edits` lie between the start of the fire and its action. -/
def firedAround (edits : List (Event Nat Unit)) (outcome : Outcome) : List (Event Nat Unit) :=
  [.create "notes" ⟨"tick", 60, (), true⟩ 1000, .getDueJobs 60000, .fireStart 60000] ++ edits ++
    [.fireAct (.dispatched outcome), .finishFire 60300, .commitFire]

/-- The trigger, enablement, next instant and failure count of the first job, once nothing is under way. -/
def quietJob (world : World Nat Unit) : Option (Nat × Bool × Nat × Nat) :=
  if world.firing.isNone && world.queue.isEmpty && world.edits.isEmpty then
    world.jobs[1]?.map fun row => (row.trigger, row.enabled, row.nextFireAt, row.consecutiveFailures)
  else none

/-- A new trigger is followed by an instant of the old one, a re-enabled job is counted and
    disabled by the fire under way, and a rename re-enables a job that the fire disabled. -/
theorem stale_writers_win :
    ((run everySecondsEngine.step {} (firedAround
        [.editLoad 1 "notes" ⟨0, none, some 45, none, none⟩ true 60100, .editUpdate 1] .ok)).bind quietJob =
          some (45, true, 120000, 0) ∧ ¬ everySeconds.Occurrence 45 120000) ∧
      (run everySecondsEngine.step {} (firedAround
        [.editLoad 1 "notes" ⟨0, none, none, none, some false⟩ true 60100, .editUpdate 1,
          .editLoad 2 "notes" ⟨0, none, none, none, some true⟩ true 60200, .editUpdate 2] .budget)).bind quietJob =
          some (60, false, 120000, 1) ∧
      (run everySecondsEngine.step {} (firedAround
        [.editLoad 1 "notes" ⟨0, some "tock", none, none, none⟩ true 60100] .budget ++ [.editUpdate 1])).bind quietJob =
          some (60, true, 60000, 1) := by
  refine ⟨⟨by decide +kernel, fun due => ?_⟩, by decide +kernel, by decide +kernel⟩
  have := everySeconds_dvd due
  omega

end Brenn.Automation
