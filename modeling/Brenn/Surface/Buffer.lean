import Brenn.Attach.Batch
import Brenn.Budget.Gate
import Brenn.Lib.Quoting
import Brenn.Lib.Run
import Brenn.Surface.Stores

/-!
What one activation buffers.

A buffer reaches the router or the wire only when its activation answers ok. Admission is judged
call by call, against the gate and the one byte budget of the flush; the wire judges the flush once,
as a batch. The results connect the two.
-/

namespace Brenn.Surface
open Brenn.Lib Brenn.Attach Brenn.Budget Std

inductive PortFault (ε : Type) where
  | refused (error : ε)
  | undeclared (port : String)
  deriving Repr, DecidableEq

inductive PublishError where
  | invalidPayload
  | quotaExceeded
  deriving Repr, DecidableEq

inductive DeferError where
  | outOfRange
  | quotaExceeded
  | invalidDeliverAfter
  deriving Repr, DecidableEq

inductive CallError where
  | invalidPayload (fault : String)
  | quotaExceeded
  deriving Repr, DecidableEq

abbrev PublishFault := PortFault PublishError
abbrev DeferFault := PortFault DeferError

def publishError (refusal : GateRefusal) : PublishFault :=
  .refused <| match publishRefusalKind refusal with
    | .invalidPayload _ => .invalidPayload
    | .quotaExceeded => .quotaExceeded

def callError (refusal : GateRefusal) : CallError :=
  match publishRefusalKind refusal with
  | .invalidPayload fault => .invalidPayload fault.describe
  | .quotaExceeded => .quotaExceeded

def deferError (refusal : GateRefusal) : DeferFault :=
  .refused <| match deferRefusalKind refusal with
    | .invalidDeliverAfter => .invalidDeliverAfter
    | .quotaExceeded => .quotaExceeded

def takeBytes : Nat → List Char → List Char
  | _, [] => []
  | budget, c :: rest => if c.utf8Size ≤ budget then c :: takeBytes (budget - c.utf8Size) rest else []

/-- A text cut to a byte cap, with a marker where it was cut. -/
def truncateReportField (value : String) (cap : Nat) : String :=
  let marker := "…[truncated]"
  if value.utf8ByteSize ≤ cap then value
  else String.ofList (takeBytes (cap - marker.utf8ByteSize) value.toList) ++ marker

def maxPortNameReportBytes : Nat := 256

def portForReport (port : String) : String := truncateReportField (debugText port) maxPortNameReportBytes

structure BufferedPublish where
  port : String
  channel : String
  body : String
  urgency : Urgency
  urgencyOverride : Option Urgency
  deliverAfter : Option Nat
  deriving Repr, DecidableEq

structure BufferedDeferOp where
  port : String
  channel : String
  messageId : Nat
  kind : DeferOp
  deriving Repr, DecidableEq

structure OutputSpec where
  channel : String
  defaultUrgency : Urgency
  bindable : surfaceBindableAddress channel = true
  deriving Repr, DecidableEq

structure PublishBuffer where
  outputs : TreeMap String OutputSpec
  declaredOutPorts : List String
  gate : ActivationGate String
  /-- The ids behind the indices of the deferred windows this activation was handed. -/
  deferred : TreeMap String (List Nat)
  entries : List BufferedPublish
  deferOps : List BufferedDeferOp

structure BufferedFlush where
  publishes : List BufferedPublish
  deferOps : List BufferedDeferOp
  carry : TreeMap String Nat

/-! ### The part of a flush that crosses the wire -/

def DeferOp.editBody : DeferOp → Option String
  | .cancel => none
  | .edit body _ => body

def wireEntry (publish : BufferedPublish) : BatchEntry := { channel := publish.channel, body := publish.body }

def wireOp (op : BufferedDeferOp) : BatchDeferredOp :=
  { channel := op.channel
    op := match op.kind with
      | .cancel => .cancel
      | .edit body _ => .edit body }

/-- The batch a flush sends: its transportable publishes and ops. -/
def wireBatch (publishes : List BufferedPublish) (deferOps : List BufferedDeferOp) : FlushBatch :=
  { entries := (publishes.filter fun publish => channelIsTransportable publish.channel).map wireEntry
    ops := (deferOps.filter fun op => channelIsTransportable op.channel).map wireOp }

namespace PublishBuffer

def new (outputs : TreeMap String OutputSpec) (declaredOutPorts : List String) (sinkMt : TreeMap String Nat)
    (maxBodyBytes : Nat) (deferred : TreeMap String (List Nat)) : PublishBuffer :=
  { outputs, declaredOutPorts, gate := .new (min maxBodyBytes usizeMax) sinkMt, deferred, entries := [], deferOps := [] }

variable (buffer : PublishBuffer)

/-- What the buffered transportable part charges against the wire's body cap. -/
def batchCharge : Nat :=
  let entries := ((buffer.entries.filter fun entry => channelIsTransportable entry.channel).map fun entry =>
    entry.channel.utf8ByteSize + entry.body.utf8ByteSize).sum
  let ops := ((buffer.deferOps.filter fun op => channelIsTransportable op.channel).map fun op =>
    op.channel.utf8ByteSize + (op.kind.editBody.map String.utf8ByteSize).getD 0).sum
  entries + ops

def overrunsBatchBudget (channel : String) (charge : Nat) : Bool :=
  channelIsTransportable channel && decide (buffer.batchCharge + charge > buffer.gate.maxBodyBytes)

def admitCall (payload : String) : Except CallError Unit × PublishBuffer :=
  match buffer.gate.chargeCall with
  | (.error refusal, gate) => (.error (callError refusal), { buffer with gate })
  | (.ok (), gate) =>
    if payload.utf8ByteSize ≤ gate.maxBodyBytes then (.ok (), { buffer with gate })
    else (.error (callError (.bodyTooLarge payload.utf8ByteSize gate.maxBodyBytes)), { buffer with gate })

/-- A declared port nobody wired takes the publish and drops it. -/
def publishUnwired (port body : String) (deliverAfter : Option Nat) : Except PublishFault Unit × PublishBuffer :=
  if buffer.declaredOutPorts.contains port = false then (.error (.undeclared (portForReport port)), buffer)
  else
    match buffer.gate.admitPublishWithoutSink body.utf8ByteSize deliverAfter 0 with
    | (.error refusal, gate) => (.error (publishError refusal), { buffer with gate })
    | (.ok (), gate) => (.ok (), { buffer with gate })

def publishWired (port : String) (spec : OutputSpec) (body : String) (urgencyOverride : Option Urgency)
    (deliverAfter : Option Nat) : Option (Except PublishFault Unit × PublishBuffer) :=
  let charge := spec.channel.utf8ByteSize + body.utf8ByteSize
  if body.utf8ByteSize ≤ buffer.gate.maxBodyBytes ∧ buffer.overrunsBatchBudget spec.channel charge = true then
    some (.error (.refused .quotaExceeded), buffer)
  else
    match buffer.gate.admitPublish ⟨port, body.utf8ByteSize, deliverAfter, 0⟩ with
    | none => none
    | some (.error refusal, gate) => some (.error (publishError refusal), { buffer with gate })
    | some (.ok (), gate) =>
      let publish : BufferedPublish :=
        { port, channel := spec.channel, body, urgency := urgencyOverride.getD spec.defaultUrgency, urgencyOverride
          deliverAfter }
      some (.ok (), { buffer with gate, entries := buffer.entries ++ [publish] })

def publishInner (port body : String) (urgencyOverride : Option Urgency) (deliverAfter : Option Nat) :
    Option (Except PublishFault Unit × PublishBuffer) :=
  match buffer.gate.chargeCall with
  | (.error refusal, gate) => some (.error (publishError refusal), { buffer with gate })
  | (.ok (), gate) =>
    match buffer.outputs[port]? with
    | none => some ({ buffer with gate }.publishUnwired port body deliverAfter)
    | some spec => { buffer with gate }.publishWired port spec body urgencyOverride deliverAfter

def publish (port body : String) := buffer.publishInner port body none none

def publishDeferred (port body : String) (deliverAfter : Nat) := buffer.publishInner port body none (some deliverAfter)

def publishWithUrgency (port body : String) (urgency : Urgency) := buffer.publishInner port body (some urgency) none

def deferResolved (port : String) (spec : OutputSpec) (messageId : Nat) (kind : DeferOp) :
    Except DeferFault Unit × PublishBuffer :=
  let editBodyLen := kind.editBody.map String.utf8ByteSize
  let charge := spec.channel.utf8ByteSize + editBodyLen.getD 0
  if (editBodyLen.all fun len => len ≤ buffer.gate.maxBodyBytes) = true ∧
      buffer.overrunsBatchBudget spec.channel charge = true then
    (.error (.refused .quotaExceeded), buffer)
  else
    match buffer.gate.admitOp editBodyLen with
    | (.error refusal, gate) => (.error (deferError refusal), { buffer with gate })
    | (.ok (), gate) =>
      (.ok (), { buffer with gate, deferOps := buffer.deferOps ++ [⟨port, spec.channel, messageId, kind⟩] })

def editDeliverAfter : DeferOp → Option Nat
  | .cancel => none
  | .edit _ deliverAfter => deliverAfter

def deferInner (port : String) (index : Nat) (kind : DeferOp) : Except DeferFault Unit × PublishBuffer :=
  match checkDeliverAfter (editDeliverAfter kind) with
  | .error refusal => (.error (deferError refusal), buffer)
  | .ok () =>
    match buffer.gate.chargeCall with
    | (.error refusal, gate) => (.error (deferError refusal), { buffer with gate })
    | (.ok (), gate) =>
      match buffer.outputs[port]? with
      | none =>
        if buffer.declaredOutPorts.contains port = false then
          (.error (.undeclared (portForReport port)), { buffer with gate })
        else (.error (.refused .outOfRange), { buffer with gate })
      | some spec =>
        match (buffer.deferred[port]?.getD [])[index]? with
        | none => (.error (.refused .outOfRange), { buffer with gate })
        | some messageId => { buffer with gate }.deferResolved port spec messageId kind

def deferCancel (port : String) (index : Nat) := buffer.deferInner port index .cancel

def deferEdit (port : String) (index : Nat) (body : Option String) (deliverAfter : Option Nat) :=
  buffer.deferInner port index (.edit body deliverAfter)

/-- Hand the buffer over, once its entries are those the gate admitted. -/
def take : Option BufferedFlush :=
  if buffer.gate.entries = buffer.entries.length + buffer.gate.dropped then
    some { publishes := buffer.entries, deferOps := buffer.deferOps, carry := buffer.gate.sinks }
  else none

def intoCarry : TreeMap String Nat := buffer.gate.sinks

/-! ### Every call an activation can make -/

inductive Call where
  | publish (port body : String)
  | publishDeferred (port body : String) (deliverAfter : Nat)
  | publishWithUrgency (port body : String) (urgency : Urgency)
  | deferCancel (port : String) (index : Nat)
  | deferEdit (port : String) (index : Nat) (body : Option String) (deliverAfter : Option Nat)
  | admitCall (payload : String)
  deriving Repr, DecidableEq

def make : Call → Option (Bool × PublishBuffer)
  | .publish port body => (buffer.publish port body).map fun (answer, next) => (answer.isOk, next)
  | .publishDeferred port body deliverAfter =>
    (buffer.publishDeferred port body deliverAfter).map fun (answer, next) => (answer.isOk, next)
  | .publishWithUrgency port body urgency =>
    (buffer.publishWithUrgency port body urgency).map fun (answer, next) => (answer.isOk, next)
  | .deferCancel port index => some ((buffer.deferCancel port index).1.isOk, (buffer.deferCancel port index).2)
  | .deferEdit port index body deliverAfter =>
    some ((buffer.deferEdit port index body deliverAfter).1.isOk, (buffer.deferEdit port index body deliverAfter).2)
  | .admitCall payload => some ((buffer.admitCall payload).1.isOk, (buffer.admitCall payload).2)

def after (call : Call) : Option PublishBuffer := (buffer.make call).map Prod.snd

/-! ### What one call does -/

def called : PublishBuffer := { buffer with gate := buffer.gate.called }

/-- An edit whose release time no clock can name is turned away before it is counted. -/
def Call.isUntimely : Call → Bool
  | .deferEdit _ _ _ deliverAfter => !(checkDeliverAfter deliverAfter).isOk
  | _ => false

/-- What a refusal leaves: the buffer as it was, the call counted if it got that far. -/
def refusing (call : Call) : PublishBuffer := if call.isUntimely then buffer else buffer.called

/-- What an accepted call leaves, beyond having been counted. -/
inductive Admits : PublishBuffer → Prop where
  | peer : Admits buffer.called
  | unwired (len : Nat) (room : buffer.gate.entries < maxPublishesPerActivation) :
    Admits { buffer.called with gate :=
      { buffer.gate.called with
        bytes := buffer.gate.bytes + len, entries := buffer.gate.entries + 1, dropped := buffer.gate.dropped + 1 } }
  | wired (publish : BufferedPublish) (remaining : Nat) (room : buffer.gate.entries < maxPublishesPerActivation)
    (budget : buffer.overrunsBatchBudget publish.channel
      (publish.channel.utf8ByteSize + publish.body.utf8ByteSize) = false)
    (bucket : buffer.gate.sinks[publish.port]? = some remaining) (paid : millitokensPerPublish ≤ remaining) :
    Admits { buffer.called with
      gate := { buffer.gate.called with
        sinks := buffer.gate.sinks.insert publish.port (remaining - millitokensPerPublish)
        bytes := buffer.gate.bytes + publish.body.utf8ByteSize
        entries := buffer.gate.entries + 1 }
      entries := buffer.entries ++ [publish] }
  | scheduled (op : BufferedDeferOp) (room : buffer.gate.ops < maxPublishesPerActivation)
    (budget : buffer.overrunsBatchBudget op.channel
      (op.channel.utf8ByteSize + (op.kind.editBody.map String.utf8ByteSize).getD 0) = false) :
    Admits { buffer.called with
      gate := { buffer.gate.called with
        bytes := buffer.gate.bytes + (op.kind.editBody.map String.utf8ByteSize).getD 0
        ops := buffer.gate.ops + 1 }
      deferOps := buffer.deferOps ++ [op] }

theorem publishUnwired_spec (port body : String) (deliverAfter : Option Nat) :
    (∃ fault, buffer.called.publishUnwired port body deliverAfter = (.error fault, buffer.called)) ∨
    ∃ next, buffer.called.publishUnwired port body deliverAfter = (.ok (), next) ∧ buffer.Admits next := by
  unfold publishUnwired
  by_cases declared : buffer.called.declaredOutPorts.contains port = false
  · exact .inl ⟨_, if_pos declared⟩
  · rw [if_neg declared]
    rcases buffer.called.gate.admitPublishWithoutSink_spec body.utf8ByteSize deliverAfter 0 with
      ⟨refusal, refused⟩ | ⟨accepted, -, room⟩
    · rw [refused]
      exact .inl ⟨_, rfl⟩
    · rw [accepted]
      exact .inr ⟨_, rfl, .unwired _ room⟩

theorem publishWired_spec {port : String} {spec : OutputSpec} {body : String} {urgencyOverride : Option Urgency}
    {deliverAfter : Option Nat} {answer : Except PublishFault Unit} {next : PublishBuffer}
    (made : buffer.called.publishWired port spec body urgencyOverride deliverAfter = some (answer, next)) :
    (∃ fault, answer = .error fault ∧ next = buffer.called) ∨ answer = .ok () ∧ buffer.Admits next := by
  unfold publishWired at made
  dsimp only at made
  by_cases broke : body.utf8ByteSize ≤ buffer.called.gate.maxBodyBytes ∧ buffer.called.overrunsBatchBudget spec.channel
      (spec.channel.utf8ByteSize + body.utf8ByteSize) = true
  · rw [if_pos broke] at made
    cases made
    exact .inl ⟨_, rfl, rfl⟩
  · rw [if_neg broke] at made
    cases judged : buffer.called.gate.admitPublish ⟨port, body.utf8ByteSize, deliverAfter, 0⟩ with
    | none => simp [judged] at made
    | some verdict =>
      obtain ⟨verdict, gate⟩ := verdict
      rw [judged] at made
      rcases buffer.called.gate.admitPublish_spec judged with
        ⟨refusal, rfl, rfl⟩ | ⟨rfl, small, room, remaining, bucket, paid, rfl⟩
      · cases made
        exact .inl ⟨_, rfl, rfl⟩
      · cases made
        -- the gate found the body small enough, so the budget was asked and had room
        have budget : buffer.overrunsBatchBudget spec.channel (spec.channel.utf8ByteSize + body.utf8ByteSize) = false := by
          cases overrun : buffer.overrunsBatchBudget spec.channel (spec.channel.utf8ByteSize + body.utf8ByteSize) with
          | false => rfl
          | true => exact absurd ⟨small, overrun⟩ broke
        exact .inr ⟨rfl, .wired ⟨port, spec.channel, body, _, urgencyOverride, deliverAfter⟩ remaining room budget bucket paid⟩

theorem publishInner_spec {port body : String} {urgencyOverride : Option Urgency} {deliverAfter : Option Nat}
    {answer : Except PublishFault Unit} {next : PublishBuffer}
    (made : buffer.publishInner port body urgencyOverride deliverAfter = some (answer, next)) :
    (∃ fault, answer = .error fault ∧ next = buffer.called) ∨ answer = .ok () ∧ buffer.Admits next := by
  unfold publishInner ActivationGate.chargeCall at made
  by_cases spent : buffer.gate.called.calls > maxPublishCallsPerActivation
  · rw [if_pos spent] at made
    cases made
    exact .inl ⟨_, rfl, rfl⟩
  · rw [if_neg spent] at made
    dsimp only at made
    cases wired : buffer.outputs[port]? with
    | none =>
      rw [wired] at made
      rcases buffer.publishUnwired_spec port body deliverAfter with ⟨fault, refused⟩ | ⟨reached, accepted, admits⟩
      · cases (Option.some.inj made).symm.trans refused
        exact .inl ⟨fault, rfl, rfl⟩
      · cases (Option.some.inj made).symm.trans accepted
        exact .inr ⟨rfl, admits⟩
    | some spec =>
      rw [wired] at made
      exact buffer.publishWired_spec made

theorem deferResolved_spec (port : String) (spec : OutputSpec) (messageId : Nat) (kind : DeferOp) :
    (∃ fault, buffer.called.deferResolved port spec messageId kind = (.error fault, buffer.called)) ∨
    ∃ next, buffer.called.deferResolved port spec messageId kind = (.ok (), next) ∧ buffer.Admits next := by
  unfold deferResolved
  dsimp only
  by_cases broke : ((kind.editBody.map String.utf8ByteSize).all fun len => len ≤ buffer.called.gate.maxBodyBytes) = true ∧
      buffer.called.overrunsBatchBudget spec.channel
        (spec.channel.utf8ByteSize + (kind.editBody.map String.utf8ByteSize).getD 0) = true
  · exact .inl ⟨_, if_pos broke⟩
  · rw [if_neg broke]
    rcases buffer.called.gate.admitOp_spec (kind.editBody.map String.utf8ByteSize) with
      ⟨refusal, refused⟩ | ⟨accepted, small, room⟩
    · rw [refused]
      exact .inl ⟨_, rfl⟩
    · rw [accepted]
      have fits : ((kind.editBody.map String.utf8ByteSize).all fun len => len ≤ buffer.called.gate.maxBodyBytes) = true := by
        simpa [Option.all_eq_true] using small
      have budget : buffer.overrunsBatchBudget spec.channel
          (spec.channel.utf8ByteSize + (kind.editBody.map String.utf8ByteSize).getD 0) = false := by
        cases overrun : buffer.overrunsBatchBudget spec.channel
            (spec.channel.utf8ByteSize + (kind.editBody.map String.utf8ByteSize).getD 0) with
        | false => rfl
        | true => exact absurd ⟨fits, overrun⟩ broke
      exact .inr ⟨_, rfl, .scheduled ⟨port, spec.channel, messageId, kind⟩ room budget⟩

theorem deferInner_spec (port : String) (index : Nat) (kind : DeferOp) :
    (∃ fault, buffer.deferInner port index kind = (.error fault,
      if (checkDeliverAfter (editDeliverAfter kind)).isOk then buffer.called else buffer)) ∨
    ∃ next, buffer.deferInner port index kind = (.ok (), next) ∧ buffer.Admits next := by
  unfold deferInner
  cases checkDeliverAfter (editDeliverAfter kind) with
  | error refusal => exact .inl ⟨_, rfl⟩
  | ok _ =>
    unfold ActivationGate.chargeCall
    by_cases spent : buffer.gate.called.calls > maxPublishCallsPerActivation
    · rw [if_pos spent]
      exact .inl ⟨_, rfl⟩
    · rw [if_neg spent]
      dsimp only
      cases buffer.outputs[port]? with
      | none =>
        by_cases declared : buffer.declaredOutPorts.contains port = false
        · exact .inl ⟨_, if_pos declared⟩
        · exact .inl ⟨_, if_neg declared⟩
      | some spec =>
        cases (buffer.deferred[port]?.getD [])[index]? with
        | none => exact .inl ⟨_, rfl⟩
        | some messageId => exact buffer.deferResolved_spec port spec messageId kind

theorem admitCall_spec (payload : String) :
    (∃ fault, buffer.admitCall payload = (.error fault, buffer.called)) ∨
    buffer.admitCall payload = (.ok (), buffer.called) := by
  unfold admitCall ActivationGate.chargeCall
  by_cases spent : buffer.gate.called.calls > maxPublishCallsPerActivation
  · rw [if_pos spent]
    exact .inl ⟨_, rfl⟩
  · rw [if_neg spent]
    dsimp only
    by_cases fits : payload.utf8ByteSize ≤ buffer.gate.called.maxBodyBytes
    · exact .inr (if_pos fits)
    · exact .inl ⟨_, if_neg fits⟩

/-- A call is refused and leaves the buffer alone, or is accepted in one of four ways. -/
theorem make_spec {call : Call} {accepted : Bool} {next : PublishBuffer}
    (made : buffer.make call = some (accepted, next)) :
    accepted = false ∧ next = buffer.refusing call ∨ accepted = true ∧ buffer.Admits next := by
  have published : ∀ {port body urgencyOverride deliverAfter},
      ((buffer.publishInner port body urgencyOverride deliverAfter).map fun (answer, next) => (answer.isOk, next)) =
        some (accepted, next) →
      accepted = false ∧ next = buffer.called ∨ accepted = true ∧ buffer.Admits next := by
    intro port body urgencyOverride deliverAfter made
    obtain ⟨⟨answer, reached⟩, inner, same⟩ := Option.map_eq_some_iff.mp made
    cases same
    rcases buffer.publishInner_spec inner with ⟨fault, rfl, rfl⟩ | ⟨rfl, admits⟩
    · exact .inl ⟨rfl, rfl⟩
    · exact .inr ⟨rfl, admits⟩
  cases call with
  | publish port body => exact published made
  | publishDeferred port body deliverAfter => exact published made
  | publishWithUrgency port body urgency => exact published made
  | deferCancel port index =>
    cases made
    rcases buffer.deferInner_spec port index .cancel with ⟨fault, refused⟩ | ⟨next, accepted, admits⟩
    · exact .inl ⟨congrArg (·.1.isOk) refused, congrArg Prod.snd refused⟩
    · exact .inr ⟨congrArg (·.1.isOk) accepted, (congrArg Prod.snd accepted).symm ▸ admits⟩
  | deferEdit port index body deliverAfter =>
    cases made
    rcases buffer.deferInner_spec port index (.edit body deliverAfter) with ⟨fault, refused⟩ | ⟨next, accepted, admits⟩
    · refine .inl ⟨congrArg (·.1.isOk) refused, (congrArg Prod.snd refused).trans ?_⟩
      simp only [refusing, Call.isUntimely, editDeliverAfter]
      by_cases timely : (checkDeliverAfter deliverAfter).isOk = true <;> simp [timely]
    · exact .inr ⟨congrArg (·.1.isOk) accepted, (congrArg Prod.snd accepted).symm ▸ admits⟩
  | admitCall payload =>
    cases made
    rcases buffer.admitCall_spec payload with ⟨fault, refused⟩ | accepted
    · exact .inl ⟨congrArg (·.1.isOk) refused, congrArg Prod.snd refused⟩
    · exact .inr ⟨congrArg (·.1.isOk) accepted, (congrArg Prod.snd accepted).symm ▸ .peer⟩

/-! ### What every buffer keeps -/

/-- What the buffered part charges is what the wire will charge for it. -/
theorem batchCharge_eq : buffer.batchCharge =
    batchChargedBytes (wireBatch buffer.entries buffer.deferOps).entries
      (wireBatch buffer.entries buffer.deferOps).ops := by
  unfold batchCharge batchChargedBytes wireBatch
  simp only [List.map_map]
  congr 2
  refine List.map_congr_left fun op _ => ?_
  cases kind : op.kind <;> simp [wireOp, kind, DeferOp.editBody]

/-- The gate counts what the buffer holds, and the wire's budget is kept. -/
structure Balanced (cap : Nat) : Prop where
  bodyCap : buffer.gate.maxBodyBytes = cap
  entries : buffer.gate.entries = buffer.entries.length + buffer.gate.dropped
  ops : buffer.gate.ops = buffer.deferOps.length
  fewEntries : buffer.gate.entries ≤ maxPublishesPerActivation
  fewOps : buffer.gate.ops ≤ maxPublishesPerActivation
  charge : buffer.batchCharge ≤ cap

variable {buffer} {cap : Nat}

theorem Balanced.called (balanced : buffer.Balanced cap) : buffer.called.Balanced cap :=
  ⟨balanced.bodyCap, balanced.entries, balanced.ops, balanced.fewEntries, balanced.fewOps, balanced.charge⟩

/-- What one more publish or op adds to the charge stays within the budget that was asked. -/
theorem Balanced.spend (balanced : buffer.Balanced cap) {channel : String} {charge : Nat}
    (budget : buffer.overrunsBatchBudget channel charge = false) :
    buffer.batchCharge + (if channelIsTransportable channel then charge else 0) ≤ cap := by
  have within := balanced.charge
  unfold overrunsBatchBudget at budget
  rw [balanced.bodyCap] at budget
  cases crosses : channelIsTransportable channel with
  | false => simpa using within
  | true => simpa [crosses] using budget

theorem Balanced.admits {next : PublishBuffer} (balanced : buffer.Balanced cap) (admits : buffer.Admits next) :
    next.Balanced cap := by
  cases admits with
  | peer => exact balanced.called
  | unwired len room =>
    have counted := balanced.entries
    exact ⟨balanced.bodyCap, by dsimp only [PublishBuffer.called]; omega, balanced.ops, Nat.succ_le_of_lt room,
      balanced.fewOps, balanced.charge⟩
  | wired publish remaining room budget bucket paid =>
    have counted := balanced.entries
    refine ⟨balanced.bodyCap, ?_, balanced.ops, Nat.succ_le_of_lt room, balanced.fewOps, ?_⟩
    · simp only [List.length_append, List.length_singleton, ActivationGate.called]
      omega
    · refine le_of_eq_of_le ?_ (balanced.spend budget)
      unfold batchCharge PublishBuffer.called
      simp only [List.filter_append, List.map_append, List.sum_append]
      cases crosses : channelIsTransportable publish.channel <;> simp [crosses]
      omega
  | scheduled op room budget =>
    have counted := balanced.ops
    refine ⟨balanced.bodyCap, balanced.entries, ?_, balanced.fewEntries, Nat.succ_le_of_lt room, ?_⟩
    · simp only [List.length_append, List.length_singleton]
      omega
    · refine le_of_eq_of_le ?_ (balanced.spend budget)
      unfold batchCharge PublishBuffer.called
      simp only [List.filter_append, List.map_append, List.sum_append]
      cases crosses : channelIsTransportable op.channel <;> simp [crosses]
      omega

theorem Balanced.after {call : Call} {next : PublishBuffer} (balanced : buffer.Balanced cap)
    (reached : buffer.after call = some next) : next.Balanced cap := by
  obtain ⟨⟨accepted, answered⟩, made, rfl⟩ := Option.map_eq_some_iff.mp reached
  rcases buffer.make_spec made with ⟨-, rfl⟩ | ⟨-, admits⟩
  · unfold refusing
    split
    · exact balanced
    · exact balanced.called
  · exact balanced.admits admits

/-- A balanced buffer can be taken, and the part of it that crosses the wire is a legal batch. -/
theorem Balanced.legal (balanced : buffer.Balanced cap) {maxBodyBytes : Nat} (within : cap ≤ maxBodyBytes) :
    ∃ flush, buffer.take = some flush ∧
      checkBatchLegality (wireBatch flush.publishes flush.deferOps).entries
        (wireBatch flush.publishes flush.deferOps).ops maxBodyBytes = .ok () := by
  refine ⟨_, if_pos balanced.entries, ?_⟩
  have charged := balanced.charge
  rw [batchCharge_eq] at charged
  have few : (wireBatch buffer.entries buffer.deferOps).entries.length +
      (wireBatch buffer.entries buffer.deferOps).ops.length ≤ maxBatchOps := by
    have publishes := List.length_filter_le (fun publish => channelIsTransportable publish.channel) buffer.entries
    have schedules := List.length_filter_le (fun op => channelIsTransportable op.channel) buffer.deferOps
    have entries := balanced.entries
    have ops := balanced.ops
    have fewEntries := balanced.fewEntries
    have fewOps := balanced.fewOps
    simp only [wireBatch, List.length_map, maxBatchOps, maxPublishesPerActivation] at *
    omega
  unfold checkBatchLegality
  simp only [if_neg (Nat.not_lt.mpr few), if_neg (Nat.not_lt.mpr (charged.trans within))]

/-! ### Calls are answered -/

def Seeded (buffer : PublishBuffer) : Prop :=
  ∀ port : String, (buffer.outputs[port]?).isSome → (buffer.gate.sinks[port]?).isSome

theorem Seeded.made (seeded : buffer.Seeded) (call : Call) : (buffer.make call).isSome := by
  have published : ∀ port body urgencyOverride deliverAfter,
      (buffer.publishInner port body urgencyOverride deliverAfter).isSome := by
    intro port body urgencyOverride deliverAfter
    unfold publishInner ActivationGate.chargeCall
    by_cases spent : buffer.gate.called.calls > maxPublishCallsPerActivation
    · rw [if_pos spent]
      rfl
    · rw [if_neg spent]
      dsimp only
      cases wired : buffer.outputs[port]? with
      | none => rfl
      | some spec =>
        have judged : (buffer.called.gate.admitPublish ⟨port, body.utf8ByteSize, deliverAfter, 0⟩).isSome :=
          ActivationGate.admitPublish_isSome _ (seeded port (by simp [wired]))
        obtain ⟨⟨verdict, gate⟩, judged⟩ := Option.isSome_iff_exists.mp judged
        unfold publishWired
        dsimp only [PublishBuffer.called] at judged ⊢
        split
        · rfl
        · rw [judged]
          cases verdict <;> rfl
  cases call with
  | publish port body => simpa [make, publish] using published _ _ _ _
  | publishDeferred port body deliverAfter => simpa [make, publishDeferred] using published _ _ _ _
  | publishWithUrgency port body urgency => simpa [make, publishWithUrgency] using published _ _ _ _
  | deferCancel port index => rfl
  | deferEdit port index body deliverAfter => rfl
  | admitCall payload => rfl

theorem Seeded.after {call : Call} {next : PublishBuffer} (seeded : buffer.Seeded)
    (reached : buffer.after call = some next) : next.Seeded := by
  obtain ⟨⟨accepted, answered⟩, made, rfl⟩ := Option.map_eq_some_iff.mp reached
  rcases buffer.make_spec made with ⟨-, rfl⟩ | ⟨-, admits⟩
  · unfold refusing
    split <;> exact seeded
  · cases admits with
    | peer => exact seeded
    | unwired len room => exact seeded
    | scheduled op room budget => exact seeded
    | wired publish remaining room budget bucket paid =>
      intro port bound
      dsimp only [PublishBuffer.called]
      rw [lookup_insert]
      split
      · rfl
      · exact seeded port bound

theorem balanced_new (outputs : TreeMap String OutputSpec) (declaredOutPorts : List String) (sinkMt : TreeMap String Nat)
    (maxBodyBytes : Nat) (deferred : TreeMap String (List Nat)) :
    (new outputs declaredOutPorts sinkMt maxBodyBytes deferred).Balanced (min maxBodyBytes usizeMax) :=
  ⟨rfl, rfl, rfl, Nat.zero_le _, Nat.zero_le _, Nat.zero_le _⟩

/-- Whatever an activation's buffer admits, the wire accepts: over every sequence of calls on a
    buffer whose body cap is within the attachment's, the buffer reached can be taken, its
    transportable part is a legal batch, the gate's counts are the buffer's, and a call it would
    refuse leaves everything but the call count alone. With a bucket for every bound port, every
    sequence of calls is answered. -/
theorem admitted_calls_compose_a_legal_batch (outputs : TreeMap String OutputSpec) (declaredOutPorts : List String)
    (sinkMt : TreeMap String Nat) (bodyCap : Nat) (deferred : TreeMap String (List Nat)) (maxBodyBytes : Nat)
    (within : bodyCap ≤ maxBodyBytes) (calls : List Call) :
    (∀ buffer, run after (new outputs declaredOutPorts sinkMt bodyCap deferred) calls = some buffer →
      (∃ flush, buffer.take = some flush ∧
        checkBatchLegality (wireBatch flush.publishes flush.deferOps).entries
          (wireBatch flush.publishes flush.deferOps).ops maxBodyBytes = .ok ()) ∧
      buffer.gate.entries = buffer.entries.length + buffer.gate.dropped ∧
      buffer.gate.ops = buffer.deferOps.length ∧
      ∀ call next, buffer.make call = some (false, next) →
        ∃ counted, next = { buffer with gate := { buffer.gate with calls := counted } } ∧
          counted = buffer.gate.calls + if call.isUntimely then 0 else 1) ∧
    ((∀ port : String, (outputs[port]?).isSome → (sinkMt[port]?).isSome) →
      ∃ buffer, run after (new outputs declaredOutPorts sinkMt bodyCap deferred) calls = some buffer) := by
  have start := balanced_new outputs declaredOutPorts sinkMt bodyCap deferred
  refine ⟨fun buffer ran => ?_, fun seeded => ?_⟩
  · have preserved : ∀ (buffer : PublishBuffer) (call : Call) (next : PublishBuffer),
        buffer.Balanced (min bodyCap usizeMax) → True → buffer.after call = some next →
        next.Balanced (min bodyCap usizeMax) := fun _ _ _ balanced _ reached => balanced.after reached
    have balanced := run_preserves preserved start (along_of_forall (fun _ _ => trivial) _ _) ran
    refine ⟨balanced.legal ((Nat.min_le_left _ _).trans within), balanced.entries, balanced.ops, ?_⟩
    intro call next made
    rcases buffer.make_spec made with ⟨-, rfl⟩ | ⟨impossible, -⟩
    · refine ⟨_, ?_, rfl⟩
      unfold refusing
      split <;> rfl
    · cases impossible
  · have progress : ∀ (buffer : PublishBuffer) (call : Call), buffer.Seeded → True →
        ∃ next, buffer.after call = some next ∧ next.Seeded := by
      intro buffer call seeded _
      obtain ⟨answer, made⟩ := Option.isSome_iff_exists.mp (seeded.made call)
      have reached : buffer.after call = some answer.2 := by simp [after, made]
      exact ⟨_, reached, seeded.after reached⟩
    have begin : (new outputs declaredOutPorts sinkMt bodyCap deferred).Seeded := seeded
    obtain ⟨buffer, ran, -⟩ := run_reaches progress begin (along_of_forall (fun _ _ => trivial) _ _)
    exact ⟨buffer, ran⟩

def barOutputs : TreeMap String OutputSpec :=
  (TreeMap.empty.insert "out" ⟨"brenn:site.bar.out", .normal, by decide +kernel⟩).insert
    "notes" ⟨"local:page/notes", .low, by decide +kernel⟩

def barCalls : List Call :=
  [.publish "out" "on", .publishDeferred "notes" "later" 5, .publishWithUrgency "spare" "lost" .high,
    .publish "ghost" "x", .deferCancel "out" 0, .deferEdit "out" 1 (some "edited") none,
    .deferEdit "out" 0 none (some (2 ^ 63)), .admitCall "peer", .publish "out" "a body that overruns the budget left"]

theorem bar_calls_compose_a_legal_batch : 64 ≤ 64 ∧ ∃ buffer flush,
    run after (new barOutputs ["notes", "out", "spare"] ((TreeMap.empty.insert "out" 5000).insert "notes" 5000) 64
      (TreeMap.empty.insert "out" [7, 8])) barCalls = some buffer ∧
    buffer.take = some flush ∧
    checkBatchLegality (wireBatch flush.publishes flush.deferOps).entries
      (wireBatch flush.publishes flush.deferOps).ops 64 = .ok () := by
  have reached : (run after (new barOutputs ["notes", "out", "spare"]
      ((TreeMap.empty.insert "out" 5000).insert "notes" 5000) 64 (TreeMap.empty.insert "out" [7, 8])) barCalls).isSome := by
    decide +kernel
  obtain ⟨buffer, ran⟩ := Option.isSome_iff_exists.mp reached
  obtain ⟨⟨flush, taken, legal⟩, -⟩ := (admitted_calls_compose_a_legal_batch barOutputs ["notes", "out", "spare"]
    ((TreeMap.empty.insert "out" 5000).insert "notes" 5000) 64 (TreeMap.empty.insert "out" [7, 8]) 64 (Nat.le_refl 64)
    barCalls).1 buffer ran
  exact ⟨Nat.le_refl 64, buffer, flush, ran, taken, legal⟩

end PublishBuffer

end Brenn.Surface
