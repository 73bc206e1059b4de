import Brenn.Surface.Buffer

/-!
Wiring is not observable.

A component may publish on a port its deployer left unwired: the message is dropped and the
component is told nothing. `Twins` says how a bound and an unbound buffer differ; every call keeps
it and is answered alike, as long as the bound port's bucket is not what refuses.
-/

namespace Brenn.Budget
open Brenn.Lib Std

variable {K : Type} [LinearOrder K]

namespace ActivationGate

/-- Two gates that differ at most in one sink's bucket and in what they dropped. -/
def SameBut (sink : K) (left right : ActivationGate K) : Prop :=
  ∃ sinks dropped, right = { left with sinks, dropped } ∧ ∀ other, sink ≠ other → sinks[other]? = left.sinks[other]?

variable {sink : K} {left right : ActivationGate K}

theorem SameBut.called (same : SameBut sink left right) : SameBut sink left.called right.called := by
  obtain ⟨sinks, dropped, rfl, others⟩ := same
  exact ⟨sinks, dropped, rfl, others⟩

theorem SameBut.admitPublish (same : SameBut sink left right) {check : PublishCheck K} (apart : sink ≠ check.sink) :
    (left.admitPublish check = none ∧ right.admitPublish check = none) ∨
    ∃ verdict next twin, left.admitPublish check = some (verdict, next) ∧
      right.admitPublish check = some (verdict, twin) ∧ SameBut sink next twin := by
  obtain ⟨sinks, dropped, rfl, others⟩ := same
  have unchanged : SameBut sink left { left with sinks, dropped } := ⟨sinks, dropped, rfl, others⟩
  unfold ActivationGate.admitPublish ActivationGate.ceilings
  dsimp only
  rw [others _ apart]
  by_cases large : check.bodyLen > left.maxBodyBytes
  · rw [if_pos large, if_pos large]
    exact .inr ⟨_, _, _, rfl, rfl, unchanged⟩
  rw [if_neg large, if_neg large]
  cases checkDeliverAfter check.deliverAfter with
  | error refusal => exact .inr ⟨_, _, _, rfl, rfl, unchanged⟩
  | ok _ =>
    cases left.sinks[check.sink]? with
    | none => exact .inl ⟨rfl, rfl⟩
    | some remaining =>
      dsimp only
      by_cases poor : remaining < millitokensPerPublish
      · rw [if_pos poor, if_pos poor]
        exact .inr ⟨_, _, _, rfl, rfl, unchanged⟩
      rw [if_neg poor, if_neg poor]
      by_cases crowded : left.entries + check.entryAddend ≥ maxPublishesPerActivation
      · rw [if_pos crowded]
        exact .inr ⟨_, _, _, rfl, rfl, unchanged⟩
      rw [if_neg crowded]
      by_cases heavy : left.bytes + check.bodyLen > maxPublishBytesPerActivation
      · rw [if_pos heavy]
        exact .inr ⟨_, _, _, rfl, rfl, unchanged⟩
      rw [if_neg heavy]
      refine .inr ⟨_, _, _, rfl, rfl, ⟨_, dropped, rfl, fun other different => ?_⟩⟩
      rw [lookup_insert, lookup_insert, others other different]

theorem SameBut.admitPublishWithoutSink (same : SameBut sink left right) (bodyLen : Nat) (deliverAfter : Option Nat) :
    ∃ verdict next twin, left.admitPublishWithoutSink bodyLen deliverAfter 0 = (verdict, next) ∧
      right.admitPublishWithoutSink bodyLen deliverAfter 0 = (verdict, twin) ∧ SameBut sink next twin := by
  obtain ⟨sinks, dropped, rfl, others⟩ := same
  unfold ActivationGate.admitPublishWithoutSink ActivationGate.ceilings
  dsimp only
  by_cases large : bodyLen > left.maxBodyBytes
  · rw [if_pos large, if_pos large]
    exact ⟨_, _, _, rfl, rfl, ⟨sinks, dropped, rfl, others⟩⟩
  rw [if_neg large, if_neg large]
  cases checkDeliverAfter deliverAfter with
  | error refusal => exact ⟨_, _, _, rfl, rfl, ⟨sinks, dropped, rfl, others⟩⟩
  | ok _ =>
    dsimp only
    by_cases crowded : left.entries + 0 ≥ maxPublishesPerActivation
    · rw [if_pos crowded]
      exact ⟨_, _, _, rfl, rfl, ⟨sinks, dropped, rfl, others⟩⟩
    rw [if_neg crowded]
    by_cases heavy : left.bytes + bodyLen > maxPublishBytesPerActivation
    · rw [if_pos heavy]
      exact ⟨_, _, _, rfl, rfl, ⟨sinks, dropped, rfl, others⟩⟩
    rw [if_neg heavy]
    exact ⟨_, _, _, rfl, rfl, ⟨sinks, dropped + 1, rfl, others⟩⟩

theorem SameBut.admitOp (same : SameBut sink left right) (editBodyLen : Option Nat) :
    ∃ verdict next twin, left.admitOp editBodyLen = (verdict, next) ∧ right.admitOp editBodyLen = (verdict, twin) ∧
      SameBut sink next twin := by
  obtain ⟨sinks, dropped, rfl, others⟩ := same
  unfold ActivationGate.admitOp
  dsimp only
  by_cases crowded : left.ops ≥ maxPublishesPerActivation
  · rw [if_pos crowded, if_pos crowded]
    exact ⟨_, _, _, rfl, rfl, ⟨sinks, dropped, rfl, others⟩⟩
  rw [if_neg crowded, if_neg crowded]
  cases editBodyLen with
  | none => exact ⟨_, _, _, rfl, rfl, ⟨sinks, dropped, rfl, others⟩⟩
  | some len =>
    dsimp only
    by_cases large : len > left.maxBodyBytes
    · rw [if_pos large, if_pos large]
      exact ⟨_, _, _, rfl, rfl, ⟨sinks, dropped, rfl, others⟩⟩
    rw [if_neg large, if_neg large]
    by_cases heavy : left.bytes + len > maxPublishBytesPerActivation
    · rw [if_pos heavy, if_pos heavy]
      exact ⟨_, _, _, rfl, rfl, ⟨sinks, dropped, rfl, others⟩⟩
    rw [if_neg heavy, if_neg heavy]
    exact ⟨_, _, _, rfl, rfl, ⟨sinks, dropped, rfl, others⟩⟩

/-- The sink's bucket can pay for the next publish, or the entry ceiling refuses it anyway. -/
def Pays (gate : ActivationGate K) (sink : K) : Prop :=
  ∃ remaining, gate.sinks[sink]? = some remaining ∧
    (millitokensPerPublish ≤ remaining ∨ maxPublishesPerActivation ≤ gate.entries)

/-- Two verdicts a guest is told in the same words. -/
def ToldAlike : Except GateRefusal Unit → Except GateRefusal Unit → Prop
  | .ok (), .ok () => True
  | .error refusal, .error other => publishRefusalKind other = publishRefusalKind refusal
  | _, _ => False

/-- A publish the sink pays for and one without a sink are accepted alike, or refused in the same
    words. -/
theorem SameBut.paid_or_dropped (same : SameBut sink left right) (pays : left.Pays sink) (bodyLen : Nat)
    (deliverAfter : Option Nat) :
    ∃ verdict next told twin, left.admitPublish ⟨sink, bodyLen, deliverAfter, 0⟩ = some (verdict, next) ∧
      right.admitPublishWithoutSink bodyLen deliverAfter 0 = (told, twin) ∧ SameBut sink next twin ∧
      ToldAlike verdict told := by
  obtain ⟨remaining, bucket, paid⟩ := pays
  obtain ⟨sinks, dropped, rfl, others⟩ := same
  have unchanged : SameBut sink left { left with sinks, dropped } := ⟨sinks, dropped, rfl, others⟩
  unfold ActivationGate.admitPublish ActivationGate.admitPublishWithoutSink ActivationGate.ceilings
  dsimp only
  by_cases large : bodyLen > left.maxBodyBytes
  · rw [if_pos large, if_pos large]
    exact ⟨_, _, _, _, rfl, rfl, unchanged, rfl⟩
  rw [if_neg large, if_neg large]
  cases checkDeliverAfter deliverAfter with
  | error refusal => exact ⟨_, _, _, _, rfl, rfl, unchanged, rfl⟩
  | ok _ =>
    simp only [bucket]
    by_cases crowded : left.entries + 0 ≥ maxPublishesPerActivation
    · rw [if_pos crowded]
      -- past the ceiling the bucket may be what refuses first, which the guest is told as a quota too
      by_cases poor : remaining < millitokensPerPublish
      · rw [if_pos poor]
        exact ⟨_, _, _, _, rfl, rfl, unchanged, rfl⟩
      · rw [if_neg poor]
        exact ⟨_, _, _, _, rfl, rfl, unchanged, rfl⟩
    have rich : ¬ remaining < millitokensPerPublish :=
      Nat.not_lt.mpr (paid.resolve_right fun full => crowded full)
    rw [if_neg rich, if_neg crowded]
    by_cases heavy : left.bytes + bodyLen > maxPublishBytesPerActivation
    · rw [if_pos heavy]
      exact ⟨_, _, _, _, rfl, rfl, unchanged, rfl⟩
    rw [if_neg heavy]
    refine ⟨_, _, _, _, rfl, rfl, ⟨sinks, dropped + 1, rfl, fun other different => ?_⟩, trivial⟩
    rw [lookup_insert, if_neg different]
    exact others other different

end ActivationGate

end Brenn.Budget

namespace Brenn.Surface.PublishBuffer
open Brenn.Lib Brenn.Attach Brenn.Budget Std

/-! ### What a component is answered -/

inductive Reply where
  | published (answer : Except PublishFault Unit)
  | scheduled (answer : Except DeferFault Unit)
  | admitted (answer : Except CallError Unit)

def reply (buffer : PublishBuffer) : Call → Option (Reply × PublishBuffer)
  | .publish port body => (buffer.publish port body).map fun (answer, next) => (.published answer, next)
  | .publishDeferred port body deliverAfter =>
    (buffer.publishDeferred port body deliverAfter).map fun (answer, next) => (.published answer, next)
  | .publishWithUrgency port body urgency =>
    (buffer.publishWithUrgency port body urgency).map fun (answer, next) => (.published answer, next)
  | .deferCancel port index =>
    let (answer, next) := buffer.deferCancel port index
    some (.scheduled answer, next)
  | .deferEdit port index body deliverAfter =>
    let (answer, next) := buffer.deferEdit port index body deliverAfter
    some (.scheduled answer, next)
  | .admitCall payload =>
    let (answer, next) := buffer.admitCall payload
    some (.admitted answer, next)

def replies : PublishBuffer → List Call → Option (List Reply × PublishBuffer)
  | buffer, [] => some ([], buffer)
  | buffer, call :: calls =>
    match buffer.reply call with
    | none => none
    | some (first, next) => (next.replies calls).map fun (rest, last) => (first :: rest, last)

theorem after_eq_reply (buffer : PublishBuffer) (call : Call) :
    buffer.after call = (buffer.reply call).map Prod.snd := by
  cases call <;> simp only [after, make, reply, Option.map_map] <;> rfl

structure Counters where
  calls : Nat
  entries : Nat
  ops : Nat
  bytes : Nat
  deriving Repr, DecidableEq

def counters (buffer : PublishBuffer) : Counters :=
  ⟨buffer.gate.calls, buffer.gate.entries, buffer.gate.ops, buffer.gate.bytes⟩

/-! ### Two buffers, one port apart -/

/-- Two buffers that differ in one declared port: bound to a confined channel with nothing parked
    on it in the first, unbound in the second. -/
structure Twins (port : String) (wired unwired : PublishBuffer) : Prop where
  gate : ActivationGate.SameBut port wired.gate unwired.gate
  declaredOutPorts : unwired.declaredOutPorts = wired.declaredOutPorts
  declared : wired.declaredOutPorts.contains port = true
  bound : ∃ spec, wired.outputs[port]? = some spec ∧ channelIsTransportable spec.channel = false
  unbound : unwired.outputs[port]? = none
  outputs : ∀ other : String, port ≠ other → unwired.outputs[other]? = wired.outputs[other]?
  empty : wired.deferred[port]?.getD [] = []
  deferred : ∀ other : String, port ≠ other → unwired.deferred[other]? = wired.deferred[other]?
  charge : unwired.batchCharge = wired.batchCharge

/-- Two answers that a component cannot tell apart, from buffers that stay twins. -/
def Alike {ρ : Type} (port : String) (left right : ρ × PublishBuffer) : Prop :=
  right.1 = left.1 ∧ Twins port left.2 right.2

namespace Twins

variable {port : String} {wired unwired : PublishBuffer}

theorem withGate (twins : Twins port wired unwired) {next twin : ActivationGate String}
    (same : ActivationGate.SameBut port next twin) :
    Twins port { wired with gate := next } { unwired with gate := twin } :=
  ⟨same, twins.declaredOutPorts, twins.declared, twins.bound, twins.unbound, twins.outputs, twins.empty, twins.deferred,
    twins.charge⟩

/-- The first twin may buffer a publish on its own confined channel. -/
theorem buffers (twins : Twins port wired unwired) {publish : BufferedPublish}
    (confined : channelIsTransportable publish.channel = false) :
    Twins port { wired with entries := wired.entries ++ [publish] } unwired := by
  refine ⟨twins.gate, twins.declaredOutPorts, twins.declared, twins.bound, twins.unbound, twins.outputs, twins.empty,
    twins.deferred, twins.charge.trans ?_⟩
  simp [batchCharge, List.filter_append, confined]

theorem bothBuffer (twins : Twins port wired unwired) (publish : BufferedPublish) :
    Twins port { wired with entries := wired.entries ++ [publish] }
      { unwired with entries := unwired.entries ++ [publish] } := by
  refine ⟨twins.gate, twins.declaredOutPorts, twins.declared, twins.bound, twins.unbound, twins.outputs, twins.empty,
    twins.deferred, ?_⟩
  have charge := twins.charge
  simp only [batchCharge, List.filter_append, List.map_append, List.sum_append] at charge ⊢
  omega

theorem bothSchedule (twins : Twins port wired unwired) (op : BufferedDeferOp) :
    Twins port { wired with deferOps := wired.deferOps ++ [op] }
      { unwired with deferOps := unwired.deferOps ++ [op] } := by
  refine ⟨twins.gate, twins.declaredOutPorts, twins.declared, twins.bound, twins.unbound, twins.outputs, twins.empty,
    twins.deferred, ?_⟩
  have charge := twins.charge
  simp only [batchCharge, List.filter_append, List.map_append, List.sum_append] at charge ⊢
  omega

theorem chargeCall (twins : Twins port wired unwired) :
    ∃ verdict, wired.gate.chargeCall = (verdict, wired.gate.called) ∧
      unwired.gate.chargeCall = (verdict, unwired.gate.called) := by
  obtain ⟨sinks, dropped, same, -⟩ := twins.gate
  exact ⟨_, rfl, by rw [same]; rfl⟩

theorem maxBodyBytes (twins : Twins port wired unwired) : unwired.gate.maxBodyBytes = wired.gate.maxBodyBytes := by
  obtain ⟨sinks, dropped, same, -⟩ := twins.gate
  rw [same]

theorem overrunsBatchBudget (twins : Twins port wired unwired) (channel : String) (charge : Nat) :
    unwired.overrunsBatchBudget channel charge = wired.overrunsBatchBudget channel charge := by
  unfold PublishBuffer.overrunsBatchBudget
  rw [twins.charge, twins.maxBodyBytes]

/-! ### One publish -/

theorem publishUnwired (twins : Twins port wired unwired) (other body : String) (deliverAfter : Option Nat) :
    Alike port (wired.publishUnwired other body deliverAfter) (unwired.publishUnwired other body deliverAfter) := by
  unfold PublishBuffer.publishUnwired
  by_cases undeclared : wired.declaredOutPorts.contains other = false
  · rw [if_pos undeclared, if_pos (twins.declaredOutPorts ▸ undeclared)]
    exact ⟨rfl, twins⟩
  rw [if_neg undeclared, if_neg (twins.declaredOutPorts ▸ undeclared)]
  obtain ⟨verdict, next, twin, left, right, same⟩ :=
    twins.gate.admitPublishWithoutSink body.utf8ByteSize deliverAfter
  rw [left, right]
  cases verdict with
  | error refusal => exact ⟨rfl, twins.withGate same⟩
  | ok _ => exact ⟨rfl, twins.withGate same⟩

theorem publishWired (twins : Twins port wired unwired) {other : String} (apart : port ≠ other) (spec : OutputSpec)
    (body : String) (urgencyOverride : Option Urgency) (deliverAfter : Option Nat) :
    Option.Rel (Alike port) (wired.publishWired other spec body urgencyOverride deliverAfter)
      (unwired.publishWired other spec body urgencyOverride deliverAfter) := by
  unfold PublishBuffer.publishWired
  dsimp only
  rw [twins.overrunsBatchBudget, twins.maxBodyBytes]
  split
  · exact .some ⟨rfl, twins⟩
  have judged := twins.gate.admitPublish
    (show port ≠ (⟨other, body.utf8ByteSize, deliverAfter, 0⟩ : PublishCheck String).sink from apart)
  rcases judged with ⟨left, right⟩ | ⟨verdict, next, twin, left, right, same⟩
  · rw [left, right]
    exact .none
  · rw [left, right]
    cases verdict with
    | error refusal => exact .some ⟨rfl, twins.withGate same⟩
    | ok _ => exact .some ⟨rfl, (twins.withGate same).bothBuffer _⟩

/-- On the port itself, bound to a confined channel in the one and unbound in the other. -/
theorem publishApart (twins : Twins port wired unwired) (pays : wired.gate.Pays port) {spec : OutputSpec}
    (confined : channelIsTransportable spec.channel = false) (body : String) (urgencyOverride : Option Urgency)
    (deliverAfter : Option Nat) :
    Option.Rel (Alike port) (wired.publishWired port spec body urgencyOverride deliverAfter)
      (some (unwired.publishUnwired port body deliverAfter)) := by
  unfold PublishBuffer.publishWired PublishBuffer.publishUnwired PublishBuffer.overrunsBatchBudget
  dsimp only
  have declared : ¬ unwired.declaredOutPorts.contains port = false := by
    rw [twins.declaredOutPorts, twins.declared]
    exact Bool.noConfusion
  rw [confined, Bool.false_and, if_neg (by simp), if_neg declared]
  obtain ⟨verdict, next, told, twin, left, right, same, alike⟩ :=
    twins.gate.paid_or_dropped pays body.utf8ByteSize deliverAfter
  rw [left, right]
  cases verdict with
  | error refusal =>
    cases told with
    | error other =>
      refine .some ⟨?_, twins.withGate same⟩
      have words : publishRefusalKind other = publishRefusalKind refusal := alike
      simp only [publishError, words]
    | ok _ => exact alike.elim
  | ok _ =>
    cases told with
    | error other => exact alike.elim
    | ok _ => exact .some ⟨rfl, (twins.withGate same).buffers confined⟩

theorem publishInner (twins : Twins port wired unwired) (pays : wired.gate.Pays port) (name body : String)
    (urgencyOverride : Option Urgency) (deliverAfter : Option Nat) :
    Option.Rel (Alike port) (wired.publishInner name body urgencyOverride deliverAfter)
      (unwired.publishInner name body urgencyOverride deliverAfter) := by
  obtain ⟨verdict, left, right⟩ := twins.chargeCall
  have counted := twins.withGate twins.gate.called
  unfold PublishBuffer.publishInner
  rw [left, right]
  cases verdict with
  | error refusal => exact .some ⟨rfl, counted⟩
  | ok _ =>
    dsimp only
    by_cases same : port = name
    · subst same
      obtain ⟨spec, bound, confined⟩ := twins.bound
      rw [bound, twins.unbound]
      exact counted.publishApart pays confined body urgencyOverride deliverAfter
    · rw [twins.outputs name same]
      cases wired.outputs[name]? with
      | none => exact .some (counted.publishUnwired name body deliverAfter)
      | some spec => exact counted.publishWired same spec body urgencyOverride deliverAfter

/-! ### The other calls -/

theorem deferResolved (twins : Twins port wired unwired) (name : String) (spec : OutputSpec) (messageId : Nat)
    (kind : DeferOp) :
    Alike port (wired.deferResolved name spec messageId kind) (unwired.deferResolved name spec messageId kind) := by
  unfold PublishBuffer.deferResolved
  dsimp only
  rw [twins.overrunsBatchBudget, twins.maxBodyBytes]
  split
  · exact ⟨rfl, twins⟩
  obtain ⟨verdict, next, twin, left, right, same⟩ := twins.gate.admitOp (kind.editBody.map String.utf8ByteSize)
  rw [left, right]
  cases verdict with
  | error refusal => exact ⟨rfl, twins.withGate same⟩
  | ok _ => exact ⟨rfl, (twins.withGate same).bothSchedule _⟩

theorem deferInner (twins : Twins port wired unwired) (name : String) (index : Nat) (kind : DeferOp) :
    Alike port (wired.deferInner name index kind) (unwired.deferInner name index kind) := by
  unfold PublishBuffer.deferInner
  cases checkDeliverAfter (editDeliverAfter kind) with
  | error refusal => exact ⟨rfl, twins⟩
  | ok _ =>
    obtain ⟨verdict, left, right⟩ := twins.chargeCall
    have counted := twins.withGate twins.gate.called
    dsimp only
    rw [left, right]
    cases verdict with
    | error refusal => exact ⟨rfl, counted⟩
    | ok _ =>
      dsimp only
      by_cases same : port = name
      · -- nothing is parked on the bound port, and an unbound port has no window
        subst same
        obtain ⟨spec, bound, -⟩ := twins.bound
        have declared : ¬ unwired.declaredOutPorts.contains port = false := by
          rw [twins.declaredOutPorts, twins.declared]
          exact Bool.noConfusion
        rw [bound, twins.unbound, twins.empty]
        dsimp only
        rw [if_neg declared]
        exact ⟨rfl, counted⟩
      · rw [twins.outputs name same, twins.deferred name same]
        cases wired.outputs[name]? with
        | none =>
          dsimp only
          by_cases undeclared : wired.declaredOutPorts.contains name = false
          · rw [if_pos undeclared, if_pos (twins.declaredOutPorts ▸ undeclared)]
            exact ⟨rfl, counted⟩
          · rw [if_neg undeclared, if_neg (twins.declaredOutPorts ▸ undeclared)]
            exact ⟨rfl, counted⟩
        | some spec =>
          cases (wired.deferred[name]?.getD [])[index]? with
          | none => exact ⟨rfl, counted⟩
          | some messageId => exact counted.deferResolved name spec messageId kind

theorem admitCall (twins : Twins port wired unwired) (payload : String) :
    Alike port (wired.admitCall payload) (unwired.admitCall payload) := by
  obtain ⟨verdict, left, right⟩ := twins.chargeCall
  have counted := twins.withGate twins.gate.called
  have cap : unwired.gate.called.maxBodyBytes = wired.gate.called.maxBodyBytes := twins.maxBodyBytes
  unfold PublishBuffer.admitCall
  rw [left, right]
  cases verdict with
  | error refusal => exact ⟨rfl, counted⟩
  | ok _ =>
    dsimp only
    rw [cap]
    split
    · exact ⟨rfl, counted⟩
    · exact ⟨rfl, counted⟩

theorem reply (twins : Twins port wired unwired) (pays : wired.gate.Pays port) (call : Call) :
    Option.Rel (Alike port) (wired.reply call) (unwired.reply call) := by
  have published : ∀ name body urgencyOverride deliverAfter, Option.Rel (Alike port)
      ((wired.publishInner name body urgencyOverride deliverAfter).map fun (answer, next) => (Reply.published answer, next))
      ((unwired.publishInner name body urgencyOverride deliverAfter).map
        fun (answer, next) => (Reply.published answer, next)) := by
    intro name body urgencyOverride deliverAfter
    have inner := twins.publishInner pays name body urgencyOverride deliverAfter
    revert inner
    generalize wired.publishInner name body urgencyOverride deliverAfter = left
    generalize unwired.publishInner name body urgencyOverride deliverAfter = right
    rintro (⟨⟨answered, still⟩⟩ | _)
    · exact .some ⟨congrArg Reply.published answered, still⟩
    · exact .none
  cases call with
  | publish name body => exact published name body none none
  | publishDeferred name body deliverAfter => exact published name body none (some deliverAfter)
  | publishWithUrgency name body urgency => exact published name body (some urgency) none
  | deferCancel name index =>
    obtain ⟨answered, still⟩ := twins.deferInner name index .cancel
    exact .some ⟨congrArg Reply.scheduled answered, still⟩
  | deferEdit name index body deliverAfter =>
    obtain ⟨answered, still⟩ := twins.deferInner name index (.edit body deliverAfter)
    exact .some ⟨congrArg Reply.scheduled answered, still⟩
  | admitCall payload =>
    obtain ⟨answered, still⟩ := twins.admitCall payload
    exact .some ⟨congrArg Reply.admitted answered, still⟩

theorem replies (twins : Twins port wired unwired) (calls : List Call)
    (ample : Along after (fun buffer _ => buffer.gate.Pays port) wired calls) :
    Option.Rel (Alike port) (wired.replies calls) (unwired.replies calls) := by
  induction calls generalizing wired unwired with
  | nil => exact .some ⟨rfl, twins⟩
  | cons call calls ih =>
    have first := twins.reply ample.1 call
    have stepped := wired.after_eq_reply call
    simp only [PublishBuffer.replies]
    generalize wired.reply call = left at first stepped
    generalize unwired.reply call = right at first
    cases first with
    | none => exact .none
    | @some left right alike =>
      have rest := ih alike.2 (ample.tail stepped)
      obtain ⟨answer, next⟩ := left
      obtain ⟨told, twin⟩ := right
      obtain rfl : told = answer := alike.1
      dsimp only
      generalize next.replies calls = later at rest
      generalize twin.replies calls = also at rest
      cases rest with
      | none => exact .none
      | some same => exact .some ⟨congrArg (told :: ·) same.1, same.2⟩

end Twins

/-! ### Buckets that do not run out -/

/-- The port's bucket can pay for every publish the entry ceiling still leaves room for. -/
def Funded (port : String) (buffer : PublishBuffer) : Prop :=
  ∃ remaining, buffer.gate.sinks[port]? = some remaining ∧
    millitokensPerPublish * (maxPublishesPerActivation - buffer.gate.entries) ≤ remaining

theorem Funded.pays {port : String} {buffer : PublishBuffer} (funded : Funded port buffer) :
    buffer.gate.Pays port := by
  obtain ⟨remaining, bucket, enough⟩ := funded
  refine ⟨remaining, bucket, ?_⟩
  simp only [millitokensPerPublish, maxPublishesPerActivation] at enough ⊢
  omega

theorem Funded.after {port : String} {buffer next : PublishBuffer} {call : Call} (funded : Funded port buffer)
    (reached : buffer.after call = some next) : Funded port next := by
  obtain ⟨remaining, bucket, enough⟩ := funded
  obtain ⟨⟨accepted, answered⟩, made, rfl⟩ := Option.map_eq_some_iff.mp reached
  rcases buffer.make_spec made with ⟨-, rfl⟩ | ⟨-, admits⟩
  · unfold refusing
    split
    · exact ⟨remaining, bucket, enough⟩
    · exact ⟨remaining, bucket, enough⟩
  · cases admits with
    | peer => exact ⟨remaining, bucket, enough⟩
    | scheduled op room budget => exact ⟨remaining, bucket, enough⟩
    | unwired len room =>
      refine ⟨remaining, bucket, ?_⟩
      simp only [millitokensPerPublish, maxPublishesPerActivation] at enough ⊢
      omega
    | wired publish left room budget paying paid =>
      dsimp only [Funded, PublishBuffer.called]
      simp only [millitokensPerPublish, maxPublishesPerActivation] at enough paid ⊢
      by_cases same : publish.port = port
      · subst same
        obtain rfl := Option.some.inj (paying.symm.trans bucket)
        refine ⟨_, by rw [lookup_insert, if_pos rfl], ?_⟩
        omega
      · refine ⟨remaining, by rw [lookup_insert, if_neg same, bucket], ?_⟩
        omega

/-- A bucket seeded for as many publishes as an activation may make never runs out. -/
theorem Funded.ample {port : String} {buffer : PublishBuffer} (funded : Funded port buffer) (calls : List Call) :
    Along PublishBuffer.after (fun buffer _ => buffer.gate.Pays port) buffer calls :=
  along_of_invariant (fun _ _ _ funded reached => funded.after reached) (fun _ _ funded => funded.pays) funded calls

/-- The buffers of two activations whose instances differ in whether one port is wired. -/
theorem twins_new {outputs : TreeMap String OutputSpec} {declaredOutPorts : List String} {sinkMt : TreeMap String Nat}
    {deferred : TreeMap String (List Nat)} {port : String} {spec : OutputSpec} (maxBodyBytes : Nat)
    (declared : declaredOutPorts.contains port = true) (bound : outputs[port]? = some spec)
    (confined : channelIsTransportable spec.channel = false) (empty : deferred[port]?.getD [] = []) :
    Twins port (new outputs declaredOutPorts sinkMt maxBodyBytes deferred)
      (new (outputs.erase port) declaredOutPorts (sinkMt.erase port) maxBodyBytes (deferred.erase port)) where
  gate := ⟨sinkMt.erase port, 0, rfl, fun other apart => by rw [lookup_erase, if_neg apart]; rfl⟩
  declaredOutPorts := rfl
  declared := declared
  bound := ⟨spec, bound, confined⟩
  unbound := by
    show (outputs.erase port)[port]? = none
    rw [lookup_erase, if_pos rfl]
  outputs other apart := by
    show (outputs.erase port)[other]? = outputs[other]?
    rw [lookup_erase, if_neg apart]
  empty := empty
  deferred other apart := by
    show (deferred.erase port)[other]? = deferred[other]?
    rw [lookup_erase, if_neg apart]
  charge := rfl

/-- A component cannot tell whether a declared output port is wired. Take two buffers that differ
    in one declared port, bound to a confined channel with nothing parked there in the one and
    unbound in the other: as long as the bound port's bucket does not run out, every sequence of
    calls is answered with the same answers and leaves the same call, entry, op and byte counts. -/
theorem wiring_is_not_observable {port : String} {wired unwired : PublishBuffer} (twins : Twins port wired unwired)
    (calls : List Call) (ample : Along after (fun buffer _ => buffer.gate.Pays port) wired calls) :
    (unwired.replies calls).map (fun answered => (answered.1, answered.2.counters)) =
      (wired.replies calls).map fun answered => (answered.1, answered.2.counters) := by
  have alike := twins.replies calls ample
  generalize wired.replies calls = left at alike
  generalize unwired.replies calls = right at alike
  cases alike with
  | none => rfl
  | @some left right same =>
    obtain ⟨sinks, dropped, gate, -⟩ := same.2.gate
    simp only [Option.map_some, same.1, counters, gate]

/-- One call of each kind against a page-local port in the first buffer, unwired in the second. -/
theorem notes_wiring_not_observable :
    Funded "notes" (new barOutputs ["notes", "out", "spare"]
      ((TreeMap.empty.insert "out" 5000).insert "notes" 256000) 64 (TreeMap.empty.insert "out" [7, 8])) ∧
    ((new (barOutputs.erase "notes") ["notes", "out", "spare"]
        (((TreeMap.empty.insert "out" 5000).insert "notes" 256000).erase "notes") 64
        ((TreeMap.empty.insert "out" [7, 8]).erase "notes")).replies barCalls).map
      (fun answered => (answered.1, answered.2.counters)) =
    ((new barOutputs ["notes", "out", "spare"] ((TreeMap.empty.insert "out" 5000).insert "notes" 256000) 64
        (TreeMap.empty.insert "out" [7, 8])).replies barCalls).map
      fun answered => (answered.1, answered.2.counters) := by
  have funded : Funded "notes" (new barOutputs ["notes", "out", "spare"]
      ((TreeMap.empty.insert "out" 5000).insert "notes" 256000) 64 (TreeMap.empty.insert "out" [7, 8])) :=
    ⟨256000, by decide +kernel, by decide⟩
  exact ⟨funded, wiring_is_not_observable
    (twins_new 64 (by decide) (show barOutputs["notes"]? = some ⟨"local:page/notes", .low, by decide +kernel⟩ by decide +kernel)
      (by decide +kernel) (by decide +kernel)) barCalls (funded.ample barCalls)⟩

end Brenn.Surface.PublishBuffer
