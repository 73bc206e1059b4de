import Brenn.Lib.Maps

/-!
One activation's publish budget.

Sinks `K` are the host's. Every judgement answers a verdict and the gate after it, so that what a
refusal leaves behind is a fact and not a convention. A panic of the source is `none`.
-/

namespace Brenn.Budget
open Brenn.Lib Std

def millitokensPerPublish : Nat := 1000
def maxPublishesPerActivation : Nat := 256
def maxPublishBytesPerActivation : Nat := 4 * 1024 * 1024
def maxPublishCallsPerActivation : Nat := 512

/-- The last millisecond an instant of the calendar can name: the end of the year 262142. -/
def maxEpochMs : Nat := 8210266876799999

def utcFromEpochMs (ms : Nat) : Option Nat := if ms ≤ maxEpochMs then some ms else none

inductive GateRefusal where
  | callCap (cap : Nat)
  | bodyTooLarge (len max : Nat)
  | unrepresentableDeliverAfter (ms : Nat)
  | sinkExhausted
  | entryCap (cap : Nat)
  | byteCap (cap : Nat)
  | opCap (cap : Nat)
  deriving Repr, DecidableEq

def checkDeliverAfter : Option Nat → Except GateRefusal Unit
  | some ms => if (utcFromEpochMs ms).isNone then .error (.unrepresentableDeliverAfter ms) else .ok ()
  | none => .ok ()

/-! ### How a refusal is told to the guest -/

inductive PayloadFault where
  | bodyTooLarge (len max : Nat)
  | unrepresentableDeliverAfter (ms : Nat)
  deriving Repr, DecidableEq

def PayloadFault.describe : PayloadFault → String
  | .bodyTooLarge len max => "payload " ++ toString len ++ " bytes exceeds max " ++ toString max
  | .unrepresentableDeliverAfter ms => "deliver_after " ++ toString ms ++ " ms is not a representable timestamp"

inductive PublishRefusalKind where
  | invalidPayload (fault : PayloadFault)
  | quotaExceeded
  deriving Repr, DecidableEq

inductive DeferRefusalKind where
  | invalidDeliverAfter
  | quotaExceeded
  deriving Repr, DecidableEq

def publishRefusalKind : GateRefusal → PublishRefusalKind
  | .bodyTooLarge len max => .invalidPayload (.bodyTooLarge len max)
  | .unrepresentableDeliverAfter ms => .invalidPayload (.unrepresentableDeliverAfter ms)
  | .callCap _ | .sinkExhausted | .entryCap _ | .byteCap _ | .opCap _ => .quotaExceeded

def deferRefusalKind : GateRefusal → DeferRefusalKind
  | .unrepresentableDeliverAfter _ => .invalidDeliverAfter
  | .callCap _ | .bodyTooLarge _ _ | .sinkExhausted | .entryCap _ | .byteCap _ | .opCap _ => .quotaExceeded

/-! ### The gate -/

structure PublishCheck (K : Type) where
  sink : K
  bodyLen : Nat
  deliverAfter : Option Nat
  entryAddend : Nat
  deriving Repr, DecidableEq

structure ActivationGate (K : Type) [LinearOrder K] where
  maxBodyBytes : Nat
  /-- Remaining millitokens per sink. -/
  sinks : TreeMap K Nat
  /-- Every call, accepted or refused. -/
  calls : Nat
  /-- Accepted publishes, those with no sink among them. -/
  entries : Nat
  dropped : Nat
  ops : Nat
  bytes : Nat

namespace ActivationGate

variable {K : Type} [LinearOrder K]

def new (maxBodyBytes : Nat) (sinks : TreeMap K Nat) : ActivationGate K :=
  { maxBodyBytes, sinks, calls := 0, entries := 0, dropped := 0, ops := 0, bytes := 0 }

variable (gate : ActivationGate K)

def called : ActivationGate K := { gate with calls := gate.calls + 1 }

def chargeCall : Except GateRefusal Unit × ActivationGate K :=
  (if gate.called.calls > maxPublishCallsPerActivation then .error (.callCap maxPublishCallsPerActivation) else .ok (),
    gate.called)

/-- The entry ceiling and the byte aggregate, the two outer backstops of a publish. -/
def ceilings (bodyLen entryAddend : Nat) : Except GateRefusal Unit :=
  if gate.entries + entryAddend ≥ maxPublishesPerActivation then .error (.entryCap maxPublishesPerActivation)
  else if gate.bytes + bodyLen > maxPublishBytesPerActivation then .error (.byteCap maxPublishBytesPerActivation)
  else .ok ()

def admitPublish (check : PublishCheck K) : Option (Except GateRefusal Unit × ActivationGate K) :=
  if check.bodyLen > gate.maxBodyBytes then some (.error (.bodyTooLarge check.bodyLen gate.maxBodyBytes), gate)
  else
    match checkDeliverAfter check.deliverAfter with
    | .error refusal => some (.error refusal, gate)
    | .ok () =>
      match gate.sinks[check.sink]? with
      | none => none
      | some remaining =>
        if remaining < millitokensPerPublish then some (.error .sinkExhausted, gate)
        else
          match gate.ceilings check.bodyLen check.entryAddend with
          | .error refusal => some (.error refusal, gate)
          | .ok () =>
            some (.ok (),
              { gate with
                sinks := gate.sinks.insert check.sink (remaining - millitokensPerPublish)
                bytes := gate.bytes + check.bodyLen
                entries := gate.entries + 1 })

/-- The same judgement for a declared port nobody wired: no bucket pays and nothing is kept. -/
def admitPublishWithoutSink (bodyLen : Nat) (deliverAfter : Option Nat) (entryAddend : Nat) :
    Except GateRefusal Unit × ActivationGate K :=
  if bodyLen > gate.maxBodyBytes then (.error (.bodyTooLarge bodyLen gate.maxBodyBytes), gate)
  else
    match checkDeliverAfter deliverAfter with
    | .error refusal => (.error refusal, gate)
    | .ok () =>
      match gate.ceilings bodyLen entryAddend with
      | .error refusal => (.error refusal, gate)
      | .ok () =>
        (.ok (), { gate with bytes := gate.bytes + bodyLen, entries := gate.entries + 1, dropped := gate.dropped + 1 })

def admitOp (editBodyLen : Option Nat) : Except GateRefusal Unit × ActivationGate K :=
  if gate.ops ≥ maxPublishesPerActivation then (.error (.opCap maxPublishesPerActivation), gate)
  else
    match editBodyLen with
    | none => (.ok (), { gate with ops := gate.ops + 1 })
    | some len =>
      if len > gate.maxBodyBytes then (.error (.bodyTooLarge len gate.maxBodyBytes), gate)
      else if gate.bytes + len > maxPublishBytesPerActivation then (.error (.byteCap maxPublishBytesPerActivation), gate)
      else (.ok (), { gate with bytes := gate.bytes + len, ops := gate.ops + 1 })

/-! ### What each judgement does -/

/-- A publish refused changes nothing; one accepted has room, and is paid for and counted. -/
theorem admitPublish_spec {check : PublishCheck K} {verdict : Except GateRefusal Unit} {next : ActivationGate K}
    (judged : gate.admitPublish check = some (verdict, next)) :
    (∃ refusal, verdict = .error refusal ∧ next = gate) ∨
    (verdict = .ok () ∧ check.bodyLen ≤ gate.maxBodyBytes ∧
      gate.entries + check.entryAddend < maxPublishesPerActivation ∧
      ∃ remaining, gate.sinks[check.sink]? = some remaining ∧ millitokensPerPublish ≤ remaining ∧
        next = { gate with
          sinks := gate.sinks.insert check.sink (remaining - millitokensPerPublish)
          bytes := gate.bytes + check.bodyLen
          entries := gate.entries + 1 }) := by
  unfold admitPublish at judged
  by_cases large : check.bodyLen > gate.maxBodyBytes
  · rw [if_pos large] at judged
    cases judged
    exact .inl ⟨_, rfl, rfl⟩
  · rw [if_neg large] at judged
    cases late : checkDeliverAfter check.deliverAfter with
    | error refusal =>
      rw [late] at judged
      cases judged
      exact .inl ⟨_, rfl, rfl⟩
    | ok _ =>
      rw [late] at judged
      cases bucket : gate.sinks[check.sink]? with
      | none => simp [bucket] at judged
      | some remaining =>
        simp only [bucket] at judged
        by_cases poor : remaining < millitokensPerPublish
        · rw [if_pos poor] at judged
          cases judged
          exact .inl ⟨_, rfl, rfl⟩
        · rw [if_neg poor] at judged
          unfold ceilings at judged
          by_cases crowded : gate.entries + check.entryAddend ≥ maxPublishesPerActivation
          · rw [if_pos crowded] at judged
            cases judged
            exact .inl ⟨_, rfl, rfl⟩
          · rw [if_neg crowded] at judged
            by_cases heavy : gate.bytes + check.bodyLen > maxPublishBytesPerActivation
            · rw [if_pos heavy] at judged
              cases judged
              exact .inl ⟨_, rfl, rfl⟩
            · rw [if_neg heavy] at judged
              cases judged
              exact .inr ⟨rfl, by omega, by omega, remaining, rfl, by omega, rfl⟩

theorem admitPublish_isSome {check : PublishCheck K} (seeded : (gate.sinks[check.sink]?).isSome) :
    (gate.admitPublish check).isSome := by
  obtain ⟨remaining, bucket⟩ := Option.isSome_iff_exists.mp seeded
  unfold admitPublish
  simp only [bucket]
  split
  · rfl
  · cases checkDeliverAfter check.deliverAfter with
    | error refusal => rfl
    | ok _ =>
      dsimp only
      split
      · rfl
      · cases gate.ceilings check.bodyLen check.entryAddend <;> rfl

theorem admitPublishWithoutSink_spec (bodyLen : Nat) (deliverAfter : Option Nat) (entryAddend : Nat) :
    (∃ refusal, gate.admitPublishWithoutSink bodyLen deliverAfter entryAddend = (.error refusal, gate)) ∨
    gate.admitPublishWithoutSink bodyLen deliverAfter entryAddend = (.ok (),
      { gate with bytes := gate.bytes + bodyLen, entries := gate.entries + 1, dropped := gate.dropped + 1 }) ∧
      bodyLen ≤ gate.maxBodyBytes ∧ gate.entries + entryAddend < maxPublishesPerActivation := by
  unfold admitPublishWithoutSink
  by_cases large : bodyLen > gate.maxBodyBytes
  · exact .inl ⟨_, if_pos large⟩
  · rw [if_neg large]
    cases checkDeliverAfter deliverAfter with
    | error refusal => exact .inl ⟨refusal, rfl⟩
    | ok _ =>
      unfold ceilings
      by_cases crowded : gate.entries + entryAddend ≥ maxPublishesPerActivation
      · rw [if_pos crowded]
        exact .inl ⟨_, rfl⟩
      · rw [if_neg crowded]
        by_cases heavy : gate.bytes + bodyLen > maxPublishBytesPerActivation
        · rw [if_pos heavy]
          exact .inl ⟨_, rfl⟩
        · rw [if_neg heavy]
          exact .inr ⟨rfl, by omega, by omega⟩

theorem admitOp_spec (editBodyLen : Option Nat) :
    (∃ refusal, gate.admitOp editBodyLen = (.error refusal, gate)) ∨
    gate.admitOp editBodyLen = (.ok (), { gate with bytes := gate.bytes + editBodyLen.getD 0, ops := gate.ops + 1 }) ∧
      (∀ len, editBodyLen = some len → len ≤ gate.maxBodyBytes) ∧ gate.ops < maxPublishesPerActivation := by
  unfold admitOp
  by_cases crowded : gate.ops ≥ maxPublishesPerActivation
  · exact .inl ⟨_, if_pos crowded⟩
  · rw [if_neg crowded]
    cases editBodyLen with
    | none => exact .inr ⟨rfl, by simp, by omega⟩
    | some len =>
      by_cases large : len > gate.maxBodyBytes
      · exact .inl ⟨_, if_pos large⟩
      · dsimp only
        rw [if_neg large]
        by_cases heavy : gate.bytes + len > maxPublishBytesPerActivation
        · exact .inl ⟨_, if_pos heavy⟩
        · rw [if_neg heavy]
          exact .inr ⟨rfl, by rintro _ ⟨⟩; omega, by omega⟩

end ActivationGate

/-! ### Seeding -/

structure SinkBudget where
  fillMt : Nat
  capacityMt : Nat
  deriving Repr, DecidableEq

def saturatingU64 (n : Nat) : Nat := min n (2 ^ 64 - 1)

def grantInputMt (ports : List (Nat × Nat)) : Nat :=
  (ports.map fun port => saturatingU64 (port.1 * port.2)).foldl (fun sum mt => saturatingU64 (sum + mt)) 0

def seedSinkBudget (carryMt : Nat) (budget : SinkBudget) (grantInputMt : Nat) : Nat :=
  saturatingU64 (saturatingU64 (min carryMt budget.capacityMt + budget.fillMt) + grantInputMt)

end Brenn.Budget
