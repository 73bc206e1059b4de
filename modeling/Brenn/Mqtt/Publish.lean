import Brenn.Lib.Maps
import Brenn.Lib.Run

/-!
Which publish hears of which packet.

A publish at qos 1 or 2 leaves a waiter at the back of a queue and hands its packet to the client.
The event loop reports each packet it has given an identifier to, and the supervisor binds the
waiter at the front of the queue to that identifier. Nothing else ties a packet to its waiter.

Callers are numbered, and a caller's number stands for its payload. The client in the handle's
cell is the number of the event loop it sends to.
-/

namespace Brenn.Mqtt
open Brenn.Lib Std

inductive PubackOutcome where
  | success
  | brokerRejected (reason : String)
  deriving Repr, DecidableEq

/-- Where a call is. The three stages in the middle hold the lock on the client cell. -/
inductive PublishStage where
  | waiting
  | pushing (eventLoop : Nat)
  | submitting (eventLoop : Nat)
  | retracting
  | awaiting
  deriving Repr, DecidableEq

namespace PublishStage

def holds : PublishStage → Bool
  | .pushing _ | .submitting _ | .retracting => true
  | .waiting | .awaiting => false

/-- Whether the call has left its waiter in the queue and not yet handed its packet over. -/
def queued : PublishStage → Bool
  | .submitting _ | .retracting => true
  | .waiting | .pushing _ | .awaiting => false

end PublishStage

/-- The requests accepted and not reported yet, and the packets in flight, by identifier. -/
structure EventLoop where
  number : Nat
  requests : List Nat
  inflight : TreeMap Nat Nat

/-- Where the supervisor is. A flag says whether it ends afterwards or goes back to connecting. -/
inductive Supervisor where
  | top
  | connecting
  /-- The connect failed and all waiters have been told; the cell is to be cleared. -/
  | refused (ends : Bool)
  | connected
  /-- The connection is over; the cell is to be cleared, and then the waiters are told. -/
  | parting (ends : Bool)
  | failing (ends : Bool)
  | stopped
  deriving Repr, DecidableEq

def Supervisor.loopless : Supervisor → Bool
  | .top | .refused _ | .stopped => true
  | .connecting | .connected | .parting _ | .failing _ => false

def Supervisor.next (ends : Bool) : Supervisor := if ends then .stopped else .top

/-- An answer of the broker that a caller was given, and the caller whose packet it was about. -/
structure Heard where
  caller : Nat
  packetOf : Nat
  outcome : PubackOutcome
  deriving Repr, DecidableEq

structure Publishing where
  supervisor : Supervisor
  eventLoop : Option EventLoop
  built : Nat
  client : Option Nat
  clientGuard : Option Nat
  pendingPublishes : List Nat
  inflightPublishes : TreeMap Nat Nat
  callers : Nat → Option PublishStage
  called : Nat
  heard : List Heard

inductive PublishEvent where
  | publish
  | acquire (caller : Nat)
  | push (caller : Nat)
  | submit (caller : Nat) (full : Bool)
  | retract (caller : Nat)
  | cancel (caller : Nat)
  | connect
  | connack
  | refuse (authoritative : Bool)
  | lose (authoritative : Bool)
  | stop
  | clear
  | fail
  | panics
  | outgoing (pkid : Nat)
  | answer (pkid : Nat) (outcome : PubackOutcome)
  deriving Repr, DecidableEq

def told (callers : Nat → Option PublishStage) (waiters : List Nat) (caller : Nat) : Option PublishStage :=
  if callers caller = some .awaiting ∧ caller ∈ waiters then none else callers caller

namespace Publishing

variable (state : Publishing)

/-! ### The caller's side -/

def publish : Publishing :=
  { state with
    callers := Function.update state.callers state.called (some .waiting)
    called := state.called + 1 }

/-- The lock is free. An empty cell is an error at once. -/
def acquire (caller : Nat) : Publishing :=
  match state.callers caller, state.clientGuard with
  | some .waiting, none =>
    match state.client with
    | none => { state with callers := Function.update state.callers caller none }
    | some number =>
      { state with
        callers := Function.update state.callers caller (some (.pushing number))
        clientGuard := some caller }
  | _, _ => state

def push (caller : Nat) : Publishing :=
  match state.callers caller with
  | some (.pushing number) =>
    { state with
      callers := Function.update state.callers caller (some (.submitting number))
      pendingPublishes := state.pendingPublishes ++ [caller] }
  | _ => state

def refused (caller : Nat) : Publishing :=
  { state with callers := Function.update state.callers caller (some .retracting) }

/-- A client whose event loop is gone refuses as a full channel does. -/
def submit (caller : Nat) (full : Bool) : Publishing :=
  match state.callers caller with
  | some (.submitting number) =>
    match state.eventLoop with
    | some eventLoop =>
      if eventLoop.number = number ∧ full = false then
        { state with
          eventLoop := some { eventLoop with requests := eventLoop.requests ++ [caller] }
          callers := Function.update state.callers caller (some .awaiting)
          clientGuard := none }
      else state.refused caller
    | none => state.refused caller
  | _ => state

def retract (caller : Nat) : Publishing :=
  match state.callers caller with
  | some .retracting =>
    { state with
      callers := Function.update state.callers caller none
      pendingPublishes := state.pendingPublishes.dropLast
      clientGuard := none }
  | _ => state

/-- A call can be dropped wherever it awaits; between its push and its submission it does not. -/
def cancel (caller : Nat) : Publishing :=
  match state.callers caller with
  | some .waiting | some .awaiting => { state with callers := Function.update state.callers caller none }
  | some (.pushing _) | some .retracting =>
    { state with
      callers := Function.update state.callers caller none
      clientGuard := none }
  | some (.submitting _) | none => state

/-! ### The supervisor's side -/

def connect : Publishing :=
  match state.supervisor with
  | .top =>
    { state with
      supervisor := .connecting
      eventLoop := some ⟨state.built, [], ∅⟩
      built := state.built + 1 }
  | _ => state

def connack : Publishing :=
  match state.supervisor, state.clientGuard with
  | .connecting, none =>
    { state with
      supervisor := .connected
      client := state.eventLoop.map (·.number) }
  | _, _ => state

/-- The event loop, which nothing polls any more, is dropped with the queues. -/
def failAllPublishes (supervisor : Supervisor) : Publishing :=
  { state with
    supervisor := supervisor
    eventLoop := none
    callers := told state.callers (state.pendingPublishes ++ state.inflightPublishes.values)
    pendingPublishes := []
    inflightPublishes := ∅ }

def refuse (authoritative : Bool) : Publishing :=
  match state.supervisor with
  | .connecting => state.failAllPublishes (.refused authoritative)
  | _ => state

def lose (authoritative : Bool) : Publishing :=
  match state.supervisor with
  | .connected => { state with supervisor := .parting authoritative }
  | _ => state

/-- A stop during the connect leaves the queues as they are. -/
def stop : Publishing :=
  match state.supervisor with
  | .top | .connected => { state with supervisor := .parting true }
  | .connecting =>
    { state with
      supervisor := .stopped
      eventLoop := none }
  | _ => state

def clear : Publishing :=
  match state.supervisor, state.clientGuard with
  | .refused ends, none =>
    { state with
      supervisor := Supervisor.next ends
      client := none }
  | .parting ends, none =>
    { state with
      supervisor := .failing ends
      client := none }
  | _, _ => state

def fail : Publishing :=
  match state.supervisor with
  | .failing ends => state.failAllPublishes (Supervisor.next ends)
  | _ => state

/-- The event loop dies with the body; a new body starts with the handle as it is. -/
def panics : Publishing :=
  match state.supervisor with
  | .stopped => state
  | _ =>
    { state with
      supervisor := .top
      eventLoop := none }

/-- The oldest accepted request gets a free identifier. The waiter that a binding replaces is dropped with it. -/
def outgoing (pkid : Nat) : Publishing :=
  match state.supervisor, state.eventLoop with
  | .connected, some eventLoop =>
    match eventLoop.requests with
    | [] => state
    | owner :: requests =>
      if pkid ≠ 0 ∧ eventLoop.inflight[pkid]?.isNone then
        let sent : EventLoop := { eventLoop with requests, inflight := eventLoop.inflight.insert pkid owner }
        match state.pendingPublishes with
        | [] => { state with eventLoop := some sent }
        | waiter :: pending =>
          { state with
            eventLoop := some sent
            callers := told state.callers state.inflightPublishes[pkid]?.toList
            pendingPublishes := pending
            inflightPublishes := state.inflightPublishes.insert pkid waiter }
      else state
  | _, _ => state

/-- The broker's last word on a packet in flight: PUBACK, PUBCOMP or a PUBREC that rejects. -/
def answer (pkid : Nat) (outcome : PubackOutcome) : Publishing :=
  match state.supervisor, state.eventLoop with
  | .connected, some eventLoop =>
    match eventLoop.inflight[pkid]? with
    | none => state
    | some owner =>
      let answered : Publishing :=
        { state with
          eventLoop := some { eventLoop with inflight := eventLoop.inflight.erase pkid }
          inflightPublishes := state.inflightPublishes.erase pkid }
      match state.inflightPublishes[pkid]? with
      | none => answered
      | some waiter =>
        if state.callers waiter = some .awaiting then
          { answered with
            callers := Function.update state.callers waiter none
            heard := state.heard ++ [⟨waiter, owner, outcome⟩] }
        else answered
  | _, _ => state

def step : PublishEvent → Option Publishing
  | .publish => some state.publish
  | .acquire caller => some (state.acquire caller)
  | .push caller => some (state.push caller)
  | .submit caller full => some (state.submit caller full)
  | .retract caller => some (state.retract caller)
  | .cancel caller => some (state.cancel caller)
  | .connect => some state.connect
  | .connack => some state.connack
  | .refuse authoritative => some (state.refuse authoritative)
  | .lose authoritative => some (state.lose authoritative)
  | .stop => some state.stop
  | .clear => some state.clear
  | .fail => some state.fail
  | .panics => some state.panics
  | .outgoing pkid => some (state.outgoing pkid)
  | .answer pkid outcome => some (state.answer pkid outcome)

def requests : List Nat := state.eventLoop.elim [] (·.requests)

/-- No call is cancelled while it takes its waiter back, and the body does not panic while a request it has
    accepted waits for its identifier. -/
def Clear : PublishEvent → Prop
  | .cancel caller => state.callers caller ≠ some .retracting
  | .panics => state.requests = []
  | _ => True

instance (event : PublishEvent) : Decidable (state.Clear event) :=
  match event with
  | .cancel caller => inferInstanceAs (Decidable (state.callers caller ≠ some .retracting))
  | .panics => inferInstanceAs (Decidable (state.requests = []))
  | .publish | .acquire _ | .push _ | .submit .. | .retract _ | .connect | .connack | .refuse _ | .lose _ | .stop
  | .clear | .fail | .outgoing _ | .answer .. => inferInstanceAs (Decidable True)

/-! ### Queue and event loop in step -/

def ownWaiter : List Nat :=
  state.clientGuard.elim [] fun caller => if (state.callers caller).any PublishStage.queued then [caller] else []

/-- The queue holds the waiters of the accepted requests in their order, and then that of the call that holds the
    lock, unless it has been told of a failed connect meanwhile. -/
def InStep : Prop :=
  state.pendingPublishes = state.requests ++ state.ownWaiter ∨
    state.pendingPublishes = [] ∧ state.requests = [] ∧ ∀ caller number eventLoop,
      state.callers caller = some (.submitting number) → state.eventLoop = some eventLoop → eventLoop.number ≠ number

end Publishing

/-- One call at most holds the lock, and what it sends to is what the cell holds. -/
structure Calling (callers : Nat → Option PublishStage) (called : Nat) (clientGuard client : Option Nat) : Prop where
  uncalled : ∀ caller, called ≤ caller → callers caller = none
  guarded : ∀ caller, clientGuard = some caller ↔ (callers caller).any PublishStage.holds = true
  sends : ∀ caller number, callers caller = some (.pushing number) ∨ callers caller = some (.submitting number) →
    client = some number

namespace Publishing

variable (state : Publishing)

structure Sound : Prop where
  calling : Calling state.callers state.called state.clientGuard state.client
  loopBuilt : ∀ eventLoop, state.eventLoop = some eventLoop → eventLoop.number < state.built
  clientBuilt : ∀ number, state.client = some number → number < state.built
  gone : state.supervisor.loopless = true → state.eventLoop = none
  connecting : state.supervisor = .connecting → state.requests = [] ∧
    ∀ eventLoop, state.eventLoop = some eventLoop → state.client ≠ some eventLoop.number
  inStep : state.InStep
  bound : ∀ eventLoop (pkid : Nat) owner, state.eventLoop = some eventLoop → eventLoop.inflight[pkid]? = some owner →
    state.inflightPublishes[pkid]? = some owner
  own : ∀ answer ∈ state.heard, answer.caller = answer.packetOf

end Publishing

section

variable {callers : Nat → Option PublishStage} {called : Nat} {clientGuard client : Option Nat}

theorem Calling.unheld (calling : Calling callers called none client) (caller : Nat) :
    (callers caller).any PublishStage.holds = false := by
  rw [← Bool.not_eq_true, ← calling.guarded caller]
  simp

theorem Calling.holder (calling : Calling callers called clientGuard client) {caller : Nat} {stage : PublishStage}
    (at_ : callers caller = some stage) (holds : stage.holds = true) : clientGuard = some caller :=
  (calling.guarded caller).mpr (by rw [at_]; exact holds)

theorem Calling.write (calling : Calling callers called none client) (written : Option Nat) :
    Calling callers called none written := by
  refine ⟨calling.uncalled, calling.guarded, fun caller number at_ => ?_⟩
  have unheld := calling.unheld caller
  obtain at_ | at_ := at_ <;> simp [at_, PublishStage.holds] at unheld

/-- Calls that do not hold the lock come and go. -/
theorem Calling.recall (calling : Calling callers called clientGuard client) {next : Nat → Option PublishStage}
    {after : Nat} (uncalled : ∀ caller, after ≤ caller → next caller = none)
    (kept : ∀ caller, next caller = callers caller ∨
      (next caller).any PublishStage.holds = false ∧ (callers caller).any PublishStage.holds = false) :
    Calling next after clientGuard client := by
  refine ⟨uncalled, fun caller => ?_, fun caller number at_ => ?_⟩
  · rw [calling.guarded caller]
    obtain same | ⟨is, was⟩ := kept caller
    · rw [same]
    · rw [is, was]
  · obtain same | ⟨is, -⟩ := kept caller
    · exact calling.sends caller number (same ▸ at_)
    · obtain at_ | at_ := at_ <;> simp [at_, PublishStage.holds] at is

/-- A call that holds the lock, or takes it while it is free, goes on to its next stage. -/
theorem Calling.moves (calling : Calling callers called clientGuard client) {caller : Nat}
    (mine : clientGuard = none ∨ clientGuard = some caller) (known : callers caller ≠ none)
    (stage : Option PublishStage)
    (sends : ∀ number, stage = some (.pushing number) ∨ stage = some (.submitting number) → client = some number) :
    Calling (Function.update callers caller stage) called (if stage.any PublishStage.holds then some caller else none)
      client := by
  have others (other : Nat) (apart : other ≠ caller) : (callers other).any PublishStage.holds = false := by
    rw [← Bool.not_eq_true, ← calling.guarded other]
    obtain free | held := mine
    · simp [free]
    · rw [held]
      exact fun same => apart (Option.some.inj same).symm
  refine ⟨fun other later => ?_, fun other => ?_, fun other number at_ => ?_⟩
  · have apart : other ≠ caller := by
      rintro rfl
      exact known (calling.uncalled other later)
    rw [Function.update_of_ne apart]
    exact calling.uncalled other later
  · by_cases same : other = caller
    · subst same
      rw [Function.update_self]
      by_cases holds : stage.any PublishStage.holds = true
      · simp [holds]
      · simp [Bool.not_eq_true _ ▸ holds]
    · rw [Function.update_of_ne same, others other same]
      split
      · simp [Ne.symm same]
      · simp
  · by_cases same : other = caller
    · subst same
      rw [Function.update_self] at at_
      exact sends number at_
    · rw [Function.update_of_ne same] at at_
      exact calling.sends other number at_

end

namespace Publishing

variable {state : Publishing}

theorem ownWaiter_free (free : state.clientGuard = none) : state.ownWaiter = [] := by
  rw [ownWaiter, free]
  rfl

theorem ownWaiter_at {caller : Nat} {stage : PublishStage} (held : state.clientGuard = some caller)
    (at_ : state.callers caller = some stage) : state.ownWaiter = if stage.queued then [caller] else [] := by
  rw [ownWaiter, held, Option.elim_some, at_]
  rfl

theorem ownWaiter_update {caller : Nat} {stage : PublishStage} {pending : List Nat}
    (held : state.clientGuard = some caller) :
    ownWaiter { state with
      callers := Function.update state.callers caller (some stage), pendingPublishes := pending } =
      if stage.queued then [caller] else [] :=
  ownWaiter_at held (Function.update_self ..)

/-- While no waiter of a call at work is in the queue, the queue is that of the accepted requests. -/
theorem InStep.unqueued (inStep : state.InStep) (unqueued : state.ownWaiter = []) :
    state.pendingPublishes = state.requests := by
  obtain queue | ⟨empty, idle, -⟩ := inStep
  · rw [queue, unqueued, List.append_nil]
  · rw [empty, idle]

/-- The call that holds the lock is not among those that come and go. -/
theorem ownWaiter_recall (calling : Calling state.callers state.called state.clientGuard state.client)
    {callers : Nat → Option PublishStage} (called : Nat)
    (kept : ∀ caller, callers caller = state.callers caller ∨
      (callers caller).any PublishStage.holds = false ∧ (state.callers caller).any PublishStage.holds = false) :
    ownWaiter { state with callers := callers, called := called } = state.ownWaiter := by
  unfold ownWaiter
  dsimp only
  cases held : state.clientGuard with
  | none => rfl
  | some caller =>
    have holds := (calling.guarded caller).mp held
    have same := (kept caller).resolve_right fun both => by simp [both.2] at holds
    simp [same]

theorem Sound.recall (sound : state.Sound) {callers : Nat → Option PublishStage} {called : Nat}
    (uncalled : ∀ caller, called ≤ caller → callers caller = none)
    (kept : ∀ caller, callers caller = state.callers caller ∨
      (callers caller).any PublishStage.holds = false ∧ (state.callers caller).any PublishStage.holds = false) :
    Sound { state with callers := callers, called := called } := by
  have waiter := ownWaiter_recall sound.calling called kept
  refine ⟨sound.calling.recall uncalled kept, sound.loopBuilt, sound.clientBuilt, sound.gone, sound.connecting, ?_,
    sound.bound, sound.own⟩
  obtain queue | ⟨empty, idle, gone⟩ := sound.inStep
  · exact .inl (queue.trans (congrArg (state.requests ++ ·) waiter.symm))
  · refine .inr ⟨empty, idle, fun caller number eventLoop at_ => ?_⟩
    have same := (kept caller).resolve_right fun both => by
      have unheld := both.1
      rw [show callers caller = some (.submitting number) from at_] at unheld
      simp [PublishStage.holds] at unheld
    exact gone caller number eventLoop (same ▸ at_)

theorem told_kept (callers : Nat → Option PublishStage) (waiters : List Nat) (caller : Nat) :
    told callers waiters caller = callers caller ∨
      (told callers waiters caller).any PublishStage.holds = false ∧ (callers caller).any PublishStage.holds = false := by
  unfold told
  split
  · next waits => exact .inr ⟨rfl, by rw [waits.1]; rfl⟩
  · exact .inl rfl

theorem Sound.tells (sound : state.Sound) (waiters : List Nat) :
    Sound { state with callers := told state.callers waiters } := by
  refine sound.recall (fun caller later => ?_) (told_kept state.callers waiters)
  unfold told
  split
  · rfl
  · exact sound.calling.uncalled caller later

theorem Sound.ends (sound : state.Sound) {caller : Nat} (unheld : (state.callers caller).any PublishStage.holds = false) :
    Sound { state with callers := Function.update state.callers caller none } := by
  refine sound.recall (fun other later => ?_) fun other => ?_
  · by_cases same : other = caller
    · rw [same, Function.update_self]
    · rw [Function.update_of_ne same]
      exact sound.calling.uncalled other later
  · by_cases same : other = caller
    · subst same
      exact .inr ⟨by rw [Function.update_self]; rfl, unheld⟩
    · exact .inl (Function.update_of_ne same ..)

/-! ### The caller's steps -/

theorem Sound.publish (sound : state.Sound) : state.publish.Sound := by
  have new := sound.calling.uncalled state.called le_rfl
  refine sound.recall (fun caller later => ?_) fun caller => ?_
  · rw [Function.update_of_ne (by omega)]
    exact sound.calling.uncalled caller (by omega)
  · by_cases same : caller = state.called
    · subst same
      exact .inr ⟨by rw [Function.update_self]; rfl, by rw [new]; rfl⟩
    · exact .inl (Function.update_of_ne same ..)

/-- What the other calls are about to submit is not changed by one call's step. -/
theorem submitting_of_update {callers : Nat → Option PublishStage} {caller other number : Nat}
    {stage : Option PublishStage} (apart : ∀ number, stage ≠ some (.submitting number))
    (at_ : Function.update callers caller stage other = some (.submitting number)) :
    callers other = some (.submitting number) := by
  by_cases same : other = caller
  · subst same
    rw [Function.update_self] at at_
    exact absurd at_ (apart number)
  · rwa [Function.update_of_ne same] at at_

theorem Sound.acquire (sound : state.Sound) (caller : Nat) : (state.acquire caller).Sound := by
  unfold Publishing.acquire
  split
  · next at_ free =>
    split
    · exact sound.ends (by rw [at_]; rfl)
    · next number held =>
      have calling := sound.calling.moves (.inl free) (by rw [at_]; simp) (some (.pushing number)) (by
        rintro other (same | same)
        · obtain rfl : number = other := by simpa using same
          exact held
        · simp at same)
      refine ⟨calling, sound.loopBuilt, sound.clientBuilt, sound.gone, sound.connecting, .inl ?_, sound.bound, sound.own⟩
      have queue := sound.inStep.unqueued (ownWaiter_free free)
      rw [ownWaiter_at rfl (Function.update_self ..)]
      exact queue.trans (List.append_nil _).symm
  · exact sound

theorem Sound.push (sound : state.Sound) (caller : Nat) : (state.push caller).Sound := by
  unfold Publishing.push
  split
  · next number at_ =>
    have held := sound.calling.holder at_ rfl
    have calling := sound.calling.moves (.inr held) (by rw [at_]; simp) (some (.submitting number)) (by
      rintro other (same | same)
      · simp at same
      · obtain rfl : number = other := by simpa using same
        exact sound.calling.sends caller number (.inl at_))
    refine ⟨held ▸ calling, sound.loopBuilt, sound.clientBuilt, sound.gone, sound.connecting, .inl ?_, sound.bound,
      sound.own⟩
    have queue := sound.inStep.unqueued (ownWaiter_at held at_)
    rw [ownWaiter_update held]
    exact congrArg (· ++ [caller]) queue
  · exact sound

theorem Sound.refused (sound : state.Sound) {caller number : Nat}
    (at_ : state.callers caller = some (.submitting number)) : (state.refused caller).Sound := by
  have held := sound.calling.holder at_ rfl
  have calling := sound.calling.moves (.inr held) (by rw [at_]; simp) (some .retracting) (by simp)
  refine ⟨held ▸ calling, sound.loopBuilt, sound.clientBuilt, sound.gone, sound.connecting, ?_, sound.bound, sound.own⟩
  obtain queue | ⟨empty, idle, gone⟩ := sound.inStep
  · left
    rw [ownWaiter_at held at_] at queue
    rw [Publishing.refused, ownWaiter_update held]
    exact queue
  · exact .inr ⟨empty, idle, fun other number eventLoop at_ =>
      gone other number eventLoop (submitting_of_update (by simp) at_)⟩

theorem Sound.submit (sound : state.Sound) (caller : Nat) (full : Bool) : (state.submit caller full).Sound := by
  unfold Publishing.submit
  split
  · next number at_ =>
    split
    · next eventLoop live =>
      split
      · next accepted =>
        have held := sound.calling.holder at_ rfl
        have sends := sound.calling.sends caller number (.inr at_)
        have calling := sound.calling.moves (.inr held) (by rw [at_]; simp) (some .awaiting) (by simp)
        have queue := sound.inStep.resolve_right fun idle =>
          idle.2.2 caller number eventLoop at_ live accepted.1
        have before : state.requests = eventLoop.requests := by rw [requests, live]; rfl
        refine ⟨calling, ?_, sound.clientBuilt, fun gone => ?_, fun connecting => ?_, .inl ?_, ?_, sound.own⟩
        · rintro _ ⟨⟩
          exact sound.loopBuilt eventLoop live
        · exact absurd (live.symm.trans (sound.gone gone)) (by simp)
        · -- The loop of a connect under way is not the one in the cell, so it takes no request.
          exact absurd (by rw [sends, accepted.1]) ((sound.connecting connecting).2 eventLoop live)
        · rw [ownWaiter_free rfl, List.append_nil]
          rw [ownWaiter_at held at_, before] at queue
          exact queue
        · rintro _ pkid owner ⟨⟩
          exact sound.bound eventLoop pkid owner live
      · exact sound.refused at_
    · exact sound.refused at_
  · exact sound

theorem Sound.retract (sound : state.Sound) (caller : Nat) : (state.retract caller).Sound := by
  unfold Publishing.retract
  split
  · next at_ =>
    have held := sound.calling.holder at_ rfl
    have calling := sound.calling.moves (.inr held) (by rw [at_]; simp) none (by simp)
    refine ⟨calling, sound.loopBuilt, sound.clientBuilt, sound.gone, sound.connecting, .inl ?_, sound.bound, sound.own⟩
    rw [ownWaiter_free rfl, List.append_nil]
    show state.pendingPublishes.dropLast = state.requests
    obtain queue | ⟨empty, idle, -⟩ := sound.inStep
    · rw [queue, ownWaiter_at held at_]
      exact List.dropLast_concat
    · rw [empty, idle]
      rfl
  · exact sound

theorem Sound.cancel (sound : state.Sound) {caller : Nat} (clear : state.callers caller ≠ some .retracting) :
    (state.cancel caller).Sound := by
  unfold Publishing.cancel
  split
  · next at_ => exact sound.ends (by rw [at_]; rfl)
  · next at_ => exact sound.ends (by rw [at_]; rfl)
  · next number at_ =>
    have held := sound.calling.holder at_ rfl
    have calling := sound.calling.moves (.inr held) (by rw [at_]; simp) none (by simp)
    refine ⟨calling, sound.loopBuilt, sound.clientBuilt, sound.gone, sound.connecting, .inl ?_, sound.bound, sound.own⟩
    rw [ownWaiter_free rfl, List.append_nil]
    exact sound.inStep.unqueued (ownWaiter_at held at_)
  · next at_ => exact absurd at_ clear
  · exact sound
  · exact sound

/-! ### The supervisor's steps -/

/-- The supervisor goes on with the handle and the event loop as they are. -/
theorem Sound.proceeds (sound : state.Sound) {supervisor : Supervisor} (keeps : supervisor.loopless = false)
    (connecting : supervisor ≠ .connecting) : Sound { state with supervisor := supervisor } :=
  ⟨sound.calling, sound.loopBuilt, sound.clientBuilt, fun gone => absurd (keeps.symm.trans gone) (by simp),
    fun same => absurd same connecting, sound.inStep, sound.bound, sound.own⟩

/-- With no event loop and no waiter left there is nothing to be out of step. -/
theorem Sound.failAllPublishes (sound : state.Sound) (supervisor : Supervisor) :
    (state.failAllPublishes supervisor).Sound := by
  have tells := sound.tells (state.pendingPublishes ++ state.inflightPublishes.values)
  exact ⟨tells.calling, by simp [Publishing.failAllPublishes], sound.clientBuilt, fun _ => rfl,
    fun _ => ⟨rfl, by simp [Publishing.failAllPublishes]⟩, .inr ⟨rfl, rfl, by simp [Publishing.failAllPublishes]⟩,
    by simp [Publishing.failAllPublishes], sound.own⟩

/-- An event loop that has reported all it accepted can be dropped. -/
theorem Sound.drops (sound : state.Sound) (idle : state.requests = []) (supervisor : Supervisor) :
    Sound { state with supervisor := supervisor, eventLoop := none } := by
  refine ⟨sound.calling, by simp, sound.clientBuilt, fun _ => rfl, fun _ => ⟨rfl, by simp⟩, ?_, by simp, sound.own⟩
  obtain queue | ⟨empty, -, -⟩ := sound.inStep
  · rw [idle] at queue
    exact .inl queue
  · exact .inr ⟨empty, rfl, by simp⟩

theorem Sound.connect (sound : state.Sound) : state.connect.Sound := by
  unfold Publishing.connect
  split
  · next top =>
    have idle : state.requests = [] := by rw [requests, sound.gone (by rw [top]; rfl)]; rfl
    refine ⟨sound.calling, ?_, fun number held => Nat.lt_succ_of_lt (sound.clientBuilt number held),
      fun gone => absurd gone (by simp [Supervisor.loopless]), fun _ => ⟨rfl, ?_⟩, ?_, ?_, sound.own⟩
    · rintro _ ⟨⟩
      exact Nat.lt_succ_self _
    · rintro _ ⟨⟩ held
      exact absurd (sound.clientBuilt _ held) (lt_irrefl _)
    · obtain queue | ⟨empty, -, -⟩ := sound.inStep
      · rw [idle] at queue
        exact .inl queue
      · refine .inr ⟨empty, rfl, ?_⟩
        rintro caller number _ at_ ⟨⟩
        have older := sound.clientBuilt number (sound.calling.sends caller number (.inr at_))
        exact (Nat.ne_of_lt older).symm
    · rintro _ pkid owner ⟨⟩ found
      simp at found
  · exact sound

theorem Sound.connack (sound : state.Sound) : state.connack.Sound := by
  unfold Publishing.connack
  split
  · next free =>
    have calling := sound.calling
    rw [free] at calling
    refine ⟨free ▸ calling.write _, sound.loopBuilt, fun number held => ?_,
      fun gone => absurd gone (by simp [Supervisor.loopless]), by simp, sound.inStep, sound.bound, sound.own⟩
    obtain ⟨eventLoop, live, rfl⟩ := Option.map_eq_some_iff.mp held
    exact sound.loopBuilt eventLoop live
  · exact sound

theorem Sound.clear (sound : state.Sound) : state.clear.Sound := by
  unfold Publishing.clear
  have calling := sound.calling
  split
  · next ends at_ free =>
    rw [free] at calling
    have gone := sound.gone (by rw [at_]; rfl)
    have idle : state.requests = [] := by rw [requests, gone]; rfl
    refine ⟨free ▸ calling.write _, sound.loopBuilt, by simp, fun _ => gone, fun _ => ⟨idle, by simp⟩, sound.inStep,
      sound.bound, sound.own⟩
  · next ends at_ free =>
    rw [free] at calling
    exact ⟨free ▸ calling.write _, sound.loopBuilt, by simp, fun gone => absurd gone (by simp [Supervisor.loopless]),
      by simp, sound.inStep, sound.bound, sound.own⟩
  · exact sound

theorem Sound.stop (sound : state.Sound) : state.stop.Sound := by
  unfold Publishing.stop
  split
  · exact sound.proceeds rfl (by simp)
  · exact sound.proceeds rfl (by simp)
  · next connecting => exact sound.drops (sound.connecting connecting).1 .stopped
  · exact sound

theorem Sound.panics (sound : state.Sound) (idle : state.requests = []) : state.panics.Sound := by
  unfold Publishing.panics
  split
  · exact sound
  · exact sound.drops idle .top

/-- The waiter at the front of the queue is that of the oldest request, and is bound to its packet. -/
theorem Sound.outgoing (sound : state.Sound) (pkid : Nat) : (state.outgoing pkid).Sound := by
  unfold Publishing.outgoing
  split
  · next eventLoop connected live =>
    split
    · exact sound
    · next owner rest accepted =>
      split
      · next fresh =>
        have before : state.requests = owner :: rest := by rw [requests, live]; exact accepted
        have queue := sound.inStep.resolve_right fun idle => by simp [before] at idle
        rw [before] at queue
        rw [show state.pendingPublishes = owner :: (rest ++ state.ownWaiter) from queue]
        have waiter := ownWaiter_recall sound.calling state.called
          (told_kept state.callers state.inflightPublishes[pkid]?.toList)
        refine ⟨(sound.tells _).calling, ?_, sound.clientBuilt, fun gone => absurd gone (by rw [connected]; simp [Supervisor.loopless]),
          fun same => absurd (connected.symm.trans same) (by simp), .inl ?_, ?_, sound.own⟩
        · rintro _ ⟨⟩
          exact sound.loopBuilt eventLoop live
        · exact congrArg (rest ++ ·) waiter.symm
        · rintro _ other bound ⟨⟩ found
          dsimp only at found ⊢
          rw [lookup_insert] at found ⊢
          split at found
          · next same => rw [if_pos same, found]
          · next apart =>
            rw [if_neg apart]
            exact sound.bound eventLoop other bound live found
      · exact sound
  · exact sound

theorem Sound.answer (sound : state.Sound) (pkid : Nat) (outcome : PubackOutcome) :
    (state.answer pkid outcome).Sound := by
  unfold Publishing.answer
  split
  · next eventLoop connected live =>
    split
    · exact sound
    · next owner found =>
      rw [sound.bound eventLoop pkid owner live found]
      dsimp only
      have answered : Sound { state with
          eventLoop := some { eventLoop with inflight := eventLoop.inflight.erase pkid }
          inflightPublishes := state.inflightPublishes.erase pkid } := by
        refine ⟨sound.calling, ?_, sound.clientBuilt, fun gone => absurd gone (by rw [connected]; simp [Supervisor.loopless]),
          fun same => absurd (connected.symm.trans same) (by simp), ?_, ?_, sound.own⟩
        · rintro _ ⟨⟩
          exact sound.loopBuilt eventLoop live
        · have same : state.requests = eventLoop.requests := by rw [requests, live]; rfl
          obtain queue | ⟨empty, idle, gone⟩ := sound.inStep
          · rw [same] at queue
            exact .inl queue
          · rw [same] at idle
            refine .inr ⟨empty, idle, ?_⟩
            rintro caller number _ at_ ⟨⟩
            exact gone caller number eventLoop at_ live
        · rintro _ other bound ⟨⟩ kept
          dsimp only at kept ⊢
          rw [lookup_erase] at kept ⊢
          split at kept
          · simp at kept
          · next apart =>
            rw [if_neg apart]
            exact sound.bound eventLoop other bound live kept
      split
      · next waits =>
        have unheld : (state.callers owner).any PublishStage.holds = false := by rw [waits]; rfl
        have ends := answered.ends unheld
        refine ⟨ends.calling, ends.loopBuilt, ends.clientBuilt, ends.gone, ends.connecting, ends.inStep, ends.bound, ?_⟩
        intro entry member
        obtain member | member := List.mem_append.mp member
        · exact sound.own entry member
        · rw [List.mem_singleton.mp member]
      · exact answered
  · exact sound

theorem step_sound (sound : state.Sound) {event : PublishEvent} (clear : state.Clear event) :
    ∃ next, state.step event = some next ∧ next.Sound := by
  cases event with
  | publish => exact ⟨_, rfl, sound.publish⟩
  | acquire caller => exact ⟨_, rfl, sound.acquire caller⟩
  | push caller => exact ⟨_, rfl, sound.push caller⟩
  | submit caller full => exact ⟨_, rfl, sound.submit caller full⟩
  | retract caller => exact ⟨_, rfl, sound.retract caller⟩
  | cancel caller => exact ⟨_, rfl, sound.cancel clear⟩
  | connect => exact ⟨_, rfl, sound.connect⟩
  | connack => exact ⟨_, rfl, sound.connack⟩
  | refuse authoritative =>
    refine ⟨_, rfl, ?_⟩
    unfold Publishing.refuse
    split
    · exact sound.failAllPublishes _
    · exact sound
  | lose authoritative =>
    refine ⟨_, rfl, ?_⟩
    unfold Publishing.lose
    split
    · exact sound.proceeds rfl (by simp)
    · exact sound
  | stop => exact ⟨_, rfl, sound.stop⟩
  | clear => exact ⟨_, rfl, sound.clear⟩
  | fail =>
    refine ⟨_, rfl, ?_⟩
    unfold Publishing.fail
    split
    · exact sound.failAllPublishes _
    · exact sound
  | panics => exact ⟨_, rfl, sound.panics clear⟩
  | outgoing pkid => exact ⟨_, rfl, sound.outgoing pkid⟩
  | answer pkid outcome => exact ⟨_, rfl, sound.answer pkid outcome⟩

def new : Publishing := ⟨.top, none, 0, none, none, [], ∅, fun _ => none, 0, []⟩

theorem new_sound : new.Sound := by
  refine ⟨⟨fun _ _ => rfl, fun _ => by simp [new], by simp [new]⟩, by simp [new], by simp [new], fun _ => rfl,
    fun same => absurd same (by simp [new]), .inl rfl, by simp [new], by simp [new]⟩

/-- If no call is cancelled while it takes its waiter back and the supervisor's body does not panic while an
    accepted request waits for its identifier, every answer a call is given is about its own packet. -/
theorem publishes_hear_of_their_own (events : List PublishEvent)
    (clear : Along Publishing.step Publishing.Clear new events) :
    ∃ reached, run Publishing.step new events = some reached ∧
      ∀ answer ∈ reached.heard, answer.caller = answer.packetOf := by
  have progress : ∀ state event, Sound state → state.Clear event → ∃ next, state.step event = some next ∧ Sound next :=
    fun _ _ sound clear => step_sound sound clear
  obtain ⟨reached, ran, sound⟩ := run_reaches progress new_sound clear
  exact ⟨reached, ran, sound.own⟩

/-! ### Two publishes in a row -/

private def sends (caller : Nat) : List PublishEvent :=
  [.publish, .acquire caller, .push caller, .submit caller false]

/-- A publish that finds the channel full takes its waiter back, and a body that panics has reported what it
    accepted. -/
private def orderly : List PublishEvent :=
  [.connect, .connack] ++ sends 0 ++ [.publish, .acquire 1, .push 1, .submit 1 true, .retract 1, .outgoing 1, .panics,
    .connect, .connack] ++ sends 2 ++ [.outgoing 1, .answer 1 .success]

theorem orderly_publishes : ∃ reached, run Publishing.step new orderly = some reached ∧
    reached.heard = [⟨2, 2, .success⟩] ∧ ∀ answer ∈ reached.heard, answer.caller = answer.packetOf := by
  obtain ⟨reached, ran, heard⟩ : ∃ reached, run Publishing.step new orderly = some reached ∧
      decide (reached.heard = [⟨2, 2, .success⟩]) = true :=
    Option.map_eq_some_iff.mp (by decide +kernel)
  obtain ⟨final, same, own⟩ := publishes_hear_of_their_own orderly (by decide +kernel)
  obtain rfl := Option.some.inj (ran.symm.trans same)
  exact ⟨reached, ran, of_decide_eq_true heard, own⟩

/-- A waiter whose packet died with a panicked body is bound to the next publish's packet, and its call is
    told of that. And the waiter of a publish cancelled after a full channel stays, and shifts the others by
    one. -/
theorem stale_waiters_shift_answers :
    (∃ reached, run Publishing.step new
        ([.connect, .connack] ++ sends 0 ++ [.panics, .connect, .connack] ++ sends 1 ++
          [.outgoing 1, .answer 1 .success]) = some reached ∧
      reached.heard = [⟨0, 1, .success⟩]) ∧
    ∃ reached, run Publishing.step new
        ([.connect, .connack, .publish, .acquire 0, .push 0, .submit 0 true, .cancel 0] ++ sends 1 ++ sends 2 ++
          [.outgoing 1, .outgoing 2, .answer 2 (.brokerRejected "quota")]) = some reached ∧
      reached.heard = [⟨1, 2, .brokerRejected "quota"⟩] := by
  refine ⟨?_, ?_⟩
  · obtain ⟨reached, ran, facts⟩ : ∃ reached, run Publishing.step new
        ([.connect, .connack] ++ sends 0 ++ [.panics, .connect, .connack] ++ sends 1 ++
          [.outgoing 1, .answer 1 .success]) = some reached ∧
        decide (reached.heard = [⟨0, 1, .success⟩]) = true :=
      Option.map_eq_some_iff.mp (by decide +kernel)
    exact ⟨reached, ran, of_decide_eq_true facts⟩
  · obtain ⟨reached, ran, facts⟩ : ∃ reached, run Publishing.step new
        ([.connect, .connack, .publish, .acquire 0, .push 0, .submit 0 true, .cancel 0] ++ sends 1 ++ sends 2 ++
          [.outgoing 1, .outgoing 2, .answer 2 (.brokerRejected "quota")]) = some reached ∧
        decide (reached.heard = [⟨1, 2, .brokerRejected "quota"⟩]) = true :=
      Option.map_eq_some_iff.mp (by decide +kernel)
    exact ⟨reached, ran, of_decide_eq_true facts⟩

end Publishing

end Brenn.Mqtt
