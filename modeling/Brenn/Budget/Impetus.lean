import Brenn.Lib.Run

/-!
A conversation's impetus pool: what its unattended activity spends.

Each section under the database lock is one step. The command door and the holder of the delivery
lock look whether the pool has room, hand their turn to the harness and draw a unit after that.
The conversation's own publishes draw first, and one that is refused at the park has its unit
given back.
-/

namespace Brenn.Budget
open Brenn.Lib

/-! ### The stored budget -/

/-- A conversation's budget row; without one nothing was ever drawn. -/
abbrev BudgetRow := Option Int

inductive BudgetDecrement where
  | ok (remaining : Nat)
  | exhausted
  deriving Repr, DecidableEq

def readSendBudget (row : BudgetRow) : Option Nat := row.map fun remaining => (max remaining 0).toNat

/-- Make the row if there is none, then take a unit where one is left. -/
def decrementSendBudget (row : BudgetRow) (defaultBudget : Nat) : BudgetDecrement × BudgetRow :=
  let remaining := row.getD defaultBudget
  if remaining > 0 then (.ok (max (remaining - 1) 0).toNat, some (remaining - 1)) else (.exhausted, some remaining)

def refundSendBudget (row : BudgetRow) (defaultBudget : Nat) : BudgetRow :=
  row.map fun (remaining : Int) => if remaining < defaultBudget then remaining + 1 else remaining

/-! ### The conversation -/

inductive Actor where
  | door
  | delivery
  deriving Repr, DecidableEq

inductive Turn where
  | idle
  | admitted
  | handedOff
  deriving Repr, DecidableEq

def Turn.inProgress : Turn → Nat
  | .idle => 0
  | .admitted | .handedOff => 1

def Turn.undrawn : Turn → Nat
  | .handedOff => 1
  | .idle | .admitted => 0

@[simp] theorem Turn.idle_inProgress : Turn.idle.inProgress = 0 := rfl
@[simp] theorem Turn.admitted_inProgress : Turn.admitted.inProgress = 1 := rfl
@[simp] theorem Turn.handedOff_inProgress : Turn.handedOff.inProgress = 1 := rfl
@[simp] theorem Turn.idle_undrawn : Turn.idle.undrawn = 0 := rfl
@[simp] theorem Turn.admitted_undrawn : Turn.admitted.undrawn = 0 := rfl
@[simp] theorem Turn.handedOff_undrawn : Turn.handedOff.undrawn = 1 := rfl

theorem Turn.undrawn_le (turn : Turn) : turn.undrawn ≤ turn.inProgress ∧ turn.inProgress ≤ 1 := by
  cases turn <;> decide

structure Pool where
  ceiling : Nat
  row : BudgetRow
  door : Turn
  delivery : Turn
  /-- Publishes that drew and enter retention at once. -/
  appending : Nat
  /-- Publishes that drew and are to be parked. -/
  parking : Nat
  /-- Refused parks whose unit was not yet given back. -/
  refunding : Nat
  turns : Nat
  accepted : Nat
  paid : Nat
  /-- Draws for a turn that found none. -/
  absorbed : Nat
  deriving Repr, DecidableEq

inductive PoolEvent where
  | hasRoom (actor : Actor)
  /-- The harness gets the turn, or the handoff fails. -/
  | handOff (actor : Actor) (reached : Bool)
  | draw (actor : Actor)
  | publish (scheduled : Bool)
  | append
  | park (room : Bool)
  | refund
  deriving Repr, DecidableEq

namespace Pool

def full (ceiling : Nat) (drawn : Bool) : Pool :=
  { ceiling, row := if drawn then some (ceiling : Int) else none, door := .idle, delivery := .idle, appending := 0
    parking := 0, refunding := 0, turns := 0, accepted := 0, paid := 0, absorbed := 0 }

variable (pool : Pool)

def remaining : Int := pool.row.getD pool.ceiling

def turn : Actor → Turn
  | .door => pool.door
  | .delivery => pool.delivery

def setTurn (actor : Actor) (turn : Turn) : Pool :=
  match actor with
  | .door => { pool with door := turn }
  | .delivery => { pool with delivery := turn }

def impetusPoolHasRoom : Bool := (readSendBudget pool.row).getD pool.ceiling > 0

/-- Spend a unit on a turn the harness got; an empty pool is passed over. -/
def drawImpetusPool : Pool :=
  match decrementSendBudget pool.row pool.ceiling with
  | (.ok _, row) => { pool with row, paid := pool.paid + 1 }
  | (.exhausted, row) => { pool with row, absorbed := pool.absorbed + 1 }

/-- One section. An event whose actor or publish is not there changes nothing. -/
def after : PoolEvent → Pool
  | .hasRoom actor => if pool.turn actor = .idle ∧ pool.impetusPoolHasRoom then pool.setTurn actor .admitted else pool
  | .handOff actor reached =>
    if pool.turn actor = .admitted then
      if reached then { pool.setTurn actor .handedOff with turns := pool.turns + 1 } else pool.setTurn actor .idle
    else pool
  | .draw actor => if pool.turn actor = .handedOff then (pool.setTurn actor .idle).drawImpetusPool else pool
  | .publish scheduled =>
    match decrementSendBudget pool.row pool.ceiling with
    | (.ok _, row) =>
      if scheduled then { pool with row, parking := pool.parking + 1 }
      else { pool with row, appending := pool.appending + 1 }
    | (.exhausted, row) => { pool with row }
  | .append =>
    if 0 < pool.appending then { pool with appending := pool.appending - 1, accepted := pool.accepted + 1 } else pool
  | .park room =>
    if 0 < pool.parking then
      if room then { pool with parking := pool.parking - 1, accepted := pool.accepted + 1 }
      else { pool with parking := pool.parking - 1, refunding := pool.refunding + 1 }
    else pool
  | .refund =>
    if 0 < pool.refunding then
      { pool with row := refundSendBudget pool.row pool.ceiling, refunding := pool.refunding - 1 }
    else pool

def step (event : PoolEvent) : Option Pool := some (pool.after event)

/-- No turn draws from an empty pool while a scheduled publish of the conversation is between
    its draw and its park, or its unit is still to be given back. -/
def Settled : PoolEvent → Prop
  | .draw actor => pool.turn actor = .handedOff → pool.remaining = 0 → pool.parking = 0 ∧ pool.refunding = 0
  | _ => True

instance (event : PoolEvent) : Decidable (pool.Settled event) :=
  match event with
  | .draw _ => inferInstanceAs (Decidable (_ → _ → _))
  | .hasRoom _ | .handOff _ _ | .publish _ | .append | .park _ | .refund => .isTrue trivial

/-! ### What is conserved -/

def inProgress : Nat := pool.door.inProgress + pool.delivery.inProgress

def undrawn : Nat := pool.door.undrawn + pool.delivery.undrawn

structure Passes (before after : Turn) (door delivery : Turn) : Prop where
  inProgress : door.inProgress + delivery.inProgress + before.inProgress = pool.inProgress + after.inProgress
  undrawn : door.undrawn + delivery.undrawn + before.undrawn = pool.undrawn + after.undrawn

theorem setTurn_passes {actor : Actor} {before : Turn} (stood : pool.turn actor = before) (after : Turn) :
    ∃ door delivery, pool.setTurn actor after = { pool with door, delivery } ∧ pool.Passes before after door delivery := by
  subst stood
  cases actor with
  | door =>
    exact ⟨after, pool.delivery, rfl, by simp only [inProgress, turn]; omega, by simp only [undrawn, turn]; omega⟩
  | delivery =>
    exact ⟨pool.door, after, rfl, by simp only [inProgress, turn]; omega, by simp only [undrawn, turn]; omega⟩

/-- Every unit of the ceiling is left, paid a turn, or is held by or went with a publish; every turn was paid,
    absorbed, or has still to draw. -/
structure Conserved : Prop where
  nonneg : 0 ≤ pool.remaining
  units : pool.remaining + pool.paid + pool.appending + pool.parking + pool.refunding + pool.accepted = pool.ceiling
  turns : pool.turns = pool.paid + pool.absorbed + pool.undrawn

/-- Once a draw was absorbed the pool stays empty, and only turns already in progress come through. -/
def Emptied : Prop :=
  0 < pool.absorbed → pool.remaining = 0 ∧ pool.parking = 0 ∧ pool.refunding = 0 ∧ pool.absorbed + pool.inProgress ≤ 2

variable {pool}

variable (pool) in
/-- A draw takes a unit, or finds none and leaves the row as it reads. -/
theorem decrement_cases :
    (0 < pool.remaining ∧ ∃ left, decrementSendBudget pool.row pool.ceiling = (.ok left, some (pool.remaining - 1))) ∨
      ¬ 0 < pool.remaining ∧ decrementSendBudget pool.row pool.ceiling = (.exhausted, some pool.remaining) := by
  unfold decrementSendBudget remaining
  dsimp only
  by_cases room : 0 < pool.row.getD (pool.ceiling : Int)
  · exact .inl ⟨room, _, if_pos room⟩
  · exact .inr ⟨room, if_neg room⟩

theorem full_conserved (ceiling : Nat) (drawn : Bool) : (full ceiling drawn).Conserved where
  nonneg := by cases drawn <;> simp [full, remaining]
  units := by cases drawn <;> simp [full, remaining]
  turns := by cases drawn <;> rfl

theorem hasRoom_iff : pool.impetusPoolHasRoom = true ↔ 0 < pool.remaining := by
  unfold impetusPoolHasRoom readSendBudget
  unfold remaining
  cases pool.row with
  | none => simp
  | some left =>
    simp only [Option.getD_some, Option.map_some, decide_eq_true_eq]
    omega

inductive Moves (pool : Pool) : PoolEvent → Pool → Prop where
  | stays (event : PoolEvent) : Moves pool event pool
  | admits (actor : Actor) (door delivery : Turn) (room : 0 < pool.remaining)
      (passes : pool.Passes .idle .admitted door delivery) :
    Moves pool (.hasRoom actor) { pool with door, delivery }
  | handsOff (actor : Actor) (door delivery : Turn) (passes : pool.Passes .admitted .handedOff door delivery) :
    Moves pool (.handOff actor true) { pool with door, delivery, turns := pool.turns + 1 }
  | fails (actor : Actor) (door delivery : Turn) (passes : pool.Passes .admitted .idle door delivery) :
    Moves pool (.handOff actor false) { pool with door, delivery }
  | pays (actor : Actor) (door delivery : Turn) (room : 0 < pool.remaining)
      (passes : pool.Passes .handedOff .idle door delivery) :
    Moves pool (.draw actor) { pool with door, delivery, row := some (pool.remaining - 1), paid := pool.paid + 1 }
  | absorbs (actor : Actor) (door delivery : Turn) (handed : pool.turn actor = .handedOff) (empty : ¬ 0 < pool.remaining)
      (passes : pool.Passes .handedOff .idle door delivery) :
    Moves pool (.draw actor) { pool with door, delivery, row := some pool.remaining, absorbed := pool.absorbed + 1 }
  | schedules (room : 0 < pool.remaining) :
    Moves pool (.publish true) { pool with row := some (pool.remaining - 1), parking := pool.parking + 1 }
  | publishes (room : 0 < pool.remaining) :
    Moves pool (.publish false) { pool with row := some (pool.remaining - 1), appending := pool.appending + 1 }
  | denies (scheduled : Bool) : Moves pool (.publish scheduled) { pool with row := some pool.remaining }
  | appends (some' : 0 < pool.appending) :
    Moves pool .append { pool with appending := pool.appending - 1, accepted := pool.accepted + 1 }
  | parks (some' : 0 < pool.parking) :
    Moves pool (.park true) { pool with parking := pool.parking - 1, accepted := pool.accepted + 1 }
  | refuses (some' : 0 < pool.parking) :
    Moves pool (.park false) { pool with parking := pool.parking - 1, refunding := pool.refunding + 1 }
  | refunds (some' : 0 < pool.refunding) :
    Moves pool .refund
      { pool with row := refundSendBudget pool.row pool.ceiling, refunding := pool.refunding - 1 }

theorem after_moves (event : PoolEvent) : Moves pool event (pool.after event) := by
  cases event with
  | hasRoom actor =>
    rw [after]
    split
    next here =>
      obtain ⟨door, delivery, same, passes⟩ := pool.setTurn_passes here.1 .admitted
      exact same ▸ .admits actor door delivery (hasRoom_iff.mp here.2) passes
    next => exact .stays _
  | handOff actor reached =>
    rw [after]
    split
    next admitted =>
      cases reached with
      | true =>
        obtain ⟨door, delivery, same, passes⟩ := pool.setTurn_passes admitted .handedOff
        simpa only [same, if_true] using Moves.handsOff actor door delivery passes
      | false =>
        obtain ⟨door, delivery, same, passes⟩ := pool.setTurn_passes admitted .idle
        simpa only [same, Bool.false_eq_true, if_false] using Moves.fails actor door delivery passes
    next => exact .stays _
  | draw actor =>
    rw [after]
    split
    next handed =>
      obtain ⟨door, delivery, same, passes⟩ := pool.setTurn_passes handed .idle
      rcases pool.decrement_cases with ⟨room, left, drawn⟩ | ⟨empty, drawn⟩
      · simpa only [drawImpetusPool, same, drawn] using Moves.pays actor door delivery room passes
      · simpa only [drawImpetusPool, same, drawn] using Moves.absorbs actor door delivery handed empty passes
    next => exact .stays _
  | publish scheduled =>
    rcases pool.decrement_cases with ⟨room, left, drawn⟩ | ⟨empty, drawn⟩
    · cases scheduled with
      | true => simpa only [after, drawn, if_true] using Moves.schedules room
      | false => simpa only [after, drawn, Bool.false_eq_true, if_false] using Moves.publishes room
    · simpa only [after, drawn] using Moves.denies scheduled
  | append =>
    rw [after]
    split
    next some' => exact .appends some'
    next => exact .stays _
  | park room =>
    rw [after]
    split
    next some' =>
      cases room with
      | true => exact .parks some'
      | false => exact .refuses some'
    next => exact .stays _
  | refund =>
    rw [after]
    split
    next some' => exact .refunds some'
    next => exact .stays _

theorem refund_remaining (below : pool.remaining < pool.ceiling) :
    (refundSendBudget pool.row pool.ceiling).getD (pool.ceiling : Int) = pool.remaining + 1 := by
  unfold remaining at *
  cases row : pool.row with
  | none => simp [row] at below
  | some left => simp_all [refundSendBudget]

section Invariants

variable {next : Pool} {event : PoolEvent}

theorem Moves.conserved (moves : Moves pool event next) (conserved : pool.Conserved) :
    next.Conserved ∧ next.ceiling = pool.ceiling := by
  obtain ⟨nonneg, units, turns⟩ := conserved
  cases moves with
  | stays => exact ⟨⟨nonneg, units, turns⟩, rfl⟩
  | admits _ door delivery room passes | fails _ door delivery passes =>
    exact ⟨⟨nonneg, units, turns.trans (congrArg _ passes.undrawn.symm)⟩, rfl⟩
  | handsOff _ door delivery passes =>
    have moved := passes.undrawn
    simp only [Turn.admitted_undrawn, Turn.handedOff_undrawn] at moved
    exact ⟨⟨nonneg, units, by simp only [undrawn] at *; omega⟩, rfl⟩
  | pays _ door delivery room passes =>
    have moved := passes.undrawn
    simp only [Turn.idle_undrawn, Turn.handedOff_undrawn] at moved
    exact ⟨⟨by simp only [remaining, Option.getD_some] at *; omega,
      by simp only [remaining, Option.getD_some] at *; omega, by simp only [undrawn] at *; omega⟩, rfl⟩
  | absorbs _ door delivery _ empty passes =>
    have moved := passes.undrawn
    simp only [Turn.idle_undrawn, Turn.handedOff_undrawn] at moved
    exact ⟨⟨nonneg, units, by simp only [undrawn] at *; omega⟩, rfl⟩
  | schedules room | publishes room =>
    exact ⟨⟨by simp only [remaining, Option.getD_some] at *; omega,
      by simp only [remaining, Option.getD_some] at *; omega, turns⟩, rfl⟩
  | denies scheduled => exact ⟨⟨nonneg, units, turns⟩, rfl⟩
  | appends some' | parks some' | refuses some' =>
    exact ⟨⟨nonneg, by simp only [remaining] at *; omega, turns⟩, rfl⟩
  | refunds some' =>
    have given := refund_remaining (show pool.remaining < pool.ceiling by omega)
    exact ⟨⟨by simp only [remaining] at *; omega, by simp only [remaining] at *; omega, turns⟩, rfl⟩

/-- An absorbed draw leaves at most one other turn in progress, and after it no unit comes back. -/
theorem Moves.emptied (moves : Moves pool event next) (conserved : pool.Conserved) (emptied : pool.Emptied)
    (settled : pool.Settled event) : next.Emptied := by
  have nonneg := conserved.nonneg
  have busy : pool.inProgress ≤ 2 := by
    have door := pool.door.undrawn_le
    have delivery := pool.delivery.undrawn_le
    unfold inProgress
    omega
  unfold Emptied at *
  cases moves with
  | stays => exact emptied
  | admits _ door delivery room passes =>
    intro absorbed
    have empty := (emptied absorbed).1
    omega
  | handsOff _ door delivery passes | fails _ door delivery passes =>
    intro absorbed
    have moved := passes.inProgress
    obtain ⟨empty, parked, refunded, last⟩ := emptied absorbed
    refine ⟨empty, parked, refunded, ?_⟩
    simp only [Turn.idle_inProgress, Turn.admitted_inProgress, Turn.handedOff_inProgress] at moved
    simp only [inProgress] at *
    omega
  | pays _ door delivery room passes =>
    intro absorbed
    have empty := (emptied absorbed).1
    omega
  | absorbs actor door delivery handed empty passes =>
    intro _
    have moved := passes.inProgress
    obtain ⟨parked, refunded⟩ := settled handed (by omega)
    refine ⟨by simp only [remaining, Option.getD_some] at *; omega, parked, refunded, ?_⟩
    simp only [Turn.idle_inProgress, Turn.handedOff_inProgress] at moved
    simp only [inProgress] at *
    omega
  | schedules room | publishes room =>
    intro absorbed
    have empty := (emptied absorbed).1
    omega
  | denies scheduled => exact emptied
  | appends some' => exact emptied
  | parks some' | refuses some' | refunds some' =>
    intro absorbed
    obtain ⟨-, parked, refunded, -⟩ := emptied absorbed
    omega

end Invariants

/-! ### Whole runs -/

theorem run_conserved {events : List PoolEvent} {start reached : Pool} (conserved : start.Conserved)
    (ran : run step start events = some reached) : reached.Conserved ∧ reached.ceiling = start.ceiling := by
  have kept : ∀ pool event next, pool.Conserved ∧ pool.ceiling = start.ceiling → True → step pool event = some next →
      next.Conserved ∧ next.ceiling = start.ceiling := by
    rintro pool event next ⟨conserved, ceiling⟩ - stepped
    rw [← Option.some.inj stepped]
    obtain ⟨after, same⟩ := (pool.after_moves event).conserved conserved
    exact ⟨after, same.trans ceiling⟩
  exact run_preserves kept ⟨conserved, rfl⟩ (along_of_forall (fun _ _ => trivial) start events) ran

theorem run_emptied {events : List PoolEvent} {ceiling : Nat} {drawn : Bool} {reached : Pool}
    (settled : Along step Settled (full ceiling drawn) events)
    (ran : run step (full ceiling drawn) events = some reached) : reached.Emptied := by
  have kept : ∀ pool event next, pool.Conserved ∧ pool.Emptied → pool.Settled event → step pool event = some next →
      next.Conserved ∧ next.Emptied := by
    rintro pool event next ⟨conserved, emptied⟩ settled stepped
    rw [← Option.some.inj stepped]
    have moves := pool.after_moves event
    exact ⟨(moves.conserved conserved).1, moves.emptied conserved emptied settled⟩
  exact (run_preserves kept ⟨full_conserved ceiling drawn, fun absorbed => by cases absorbed⟩ settled ran).2

/-- From a full pool and with no reset, the stored remainder keeps between zero and the ceiling, and
    the turns handed to the harness and the accepted publishes together are at most the ceiling and
    two more, if no turn draws from an empty pool over an unsettled scheduled publish. -/
theorem unattended_activity_bounded (ceiling : Nat) (drawn : Bool) (events : List PoolEvent) {reached : Pool}
    (ran : run step (full ceiling drawn) events = some reached) :
    (0 ≤ reached.remaining ∧ reached.remaining ≤ ceiling) ∧
      (Along step Settled (full ceiling drawn) events → reached.turns + reached.accepted ≤ ceiling + 2) := by
  obtain ⟨conserved, same⟩ := run_conserved (full_conserved ceiling drawn) ran
  have units := conserved.units
  have turns := conserved.turns
  rw [same] at units
  refine ⟨⟨conserved.nonneg, ?_⟩, fun settled => ?_⟩
  · simp only [full] at units
    omega
  · have emptied := run_emptied settled ran
    have nonneg := conserved.nonneg
    have door := reached.door.undrawn_le
    have delivery := reached.delivery.undrawn_le
    simp only [full] at units
    simp only [undrawn] at turns
    unfold Emptied inProgress at emptied
    rcases Nat.eq_zero_or_pos reached.absorbed with none | some'
    · omega
    · have last := (emptied some').2.2.2
      omega

/-- Both actors look at the last unit before either draws. -/
private def sharedUnit : List PoolEvent :=
  [.publish false, .append, .hasRoom .door, .hasRoom .delivery, .handOff .door true, .handOff .delivery true, .draw .door,
    .draw .delivery, .hasRoom .door]

/-- Two turns and a publish come of a ceiling of two. -/
theorem last_unit_shared :
    ∃ reached, run step (full 2 false) sharedUnit = some reached ∧
      (reached.turns = 2 ∧ reached.accepted = 1 ∧ reached.absorbed = 1) ∧ reached.turns + reached.accepted ≤ 2 + 2 :=
  ⟨_, rfl, by decide, (unattended_activity_bounded 2 false sharedUnit rfl).2 (by decide)⟩

/-- A turn of the door, whose unit a scheduled publish holds while it draws and gives back after. -/
private def unpaidTurn : List PoolEvent :=
  [.hasRoom .door, .publish true, .handOff .door true, .draw .door, .park false, .refund]

/-- A pool of one unit pays for four turns, and is full again. -/
theorem unpaid_turns_unbounded :
    ((run step (full 1 false) (unpaidTurn ++ unpaidTurn ++ unpaidTurn ++ unpaidTurn)).map fun reached =>
      (reached.turns, reached.accepted, reached.remaining)) = some (4, 0, 1) := by
  decide

end Pool

end Brenn.Budget
