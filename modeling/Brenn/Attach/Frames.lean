import Brenn.Lib.Json
import Brenn.Attach.Batch
import Brenn.Attach.Connection
import Brenn.Store.Contract

/-!
The frames an attacher sends, as text, and the cap their reader advertises.

The cap is derived from the body cap alone: the escaped body budget pays for the channels and
bodies of a batch, an allowance for each operation and a base overhead for everything else.
-/

namespace Brenn.Attach.Wire
open Brenn.Lib Brenn.Lib.Json Brenn.Store

/-! ### Frames -/

structure BatchEntry where
  channel : String
  body : String
  urgency : Urgency
  deliverAfter : Option UInt64
  deriving Repr, DecidableEq

inductive DeferredOpKind where
  | cancel
  | edit (body : Option String) (deliverAfter : Option UInt64)
  deriving Repr, DecidableEq

structure BatchDeferredOp where
  channel : String
  messageId : BitVec 128
  op : DeferredOpKind
  deriving Repr, DecidableEq

inductive AlertSeverity where
  | info
  | warning
  | critical
  deriving Repr, DecidableEq

inductive ClientFrame where
  | hello (versions : Conn.VersionRange) (ident : String)
  | subscribe (channel : String) (pushDepth retainDepth : UInt64) (resume : Option String)
  | unsubscribe (channel : String)
  | publish (channel : String) (attribution : Option String) (body : String) (urgency : Urgency)
      (correlation : Option UInt64)
  | publishBatch (attribution : Option String) (correlation : UInt64) (publishes : List BatchEntry)
      (deferredOps : List BatchDeferredOp)
  | alert (attribution : Option String) (severity : AlertSeverity) (title body : String)
  deriving Repr, DecidableEq

/-! ### Their text -/

def urgencyStr : Urgency → String
  | .veryLow => "very-low"
  | .low => "low"
  | .normal => "normal"
  | .high => "high"

def AlertSeverity.str : AlertSeverity → String
  | .info => "info"
  | .warning => "warning"
  | .critical => "critical"

/-- An identifier as its five hyphenated groups of hexadecimal digits. -/
def uuid (id : BitVec 128) : List Char :=
  '\x22' :: (hex 8 (id.toNat / 2 ^ 96) ++ '-' :: (hex 4 (id.toNat / 2 ^ 80) ++ '-' :: (hex 4 (id.toNat / 2 ^ 64) ++
    '-' :: (hex 4 (id.toNat / 2 ^ 48) ++ '-' :: (hex 12 id.toNat ++ ['\x22'])))))

def timestamp (value : Option UInt64) : Option (List Char) := value.map fun ms => Json.number ms.toNat

def BatchEntry.text (entry : BatchEntry) : List Char :=
  object ([("channel", string entry.channel), ("body", string entry.body), ("urgency", string (urgencyStr entry.urgency))] ++
    optionalField "deliver_after" (timestamp entry.deliverAfter))

def DeferredOpKind.text : DeferredOpKind → List Char
  | .cancel => object [("kind", string "cancel")]
  | .edit body deliverAfter =>
    object (("kind", string "edit") :: (optionalField "body" (body.map string) ++
      optionalField "deliver_after" (timestamp deliverAfter)))

def BatchDeferredOp.text (op : BatchDeferredOp) : List Char :=
  object [("channel", string op.channel), ("message_id", uuid op.messageId), ("op", op.op.text)]

/-- The control ops of a batch, left out where there are none. -/
def deferredOpsField (deferredOps : List BatchDeferredOp) : List (String × List Char) :=
  if deferredOps.isEmpty then [] else [("deferred_ops", array (deferredOps.map BatchDeferredOp.text))]

def ClientFrame.text : ClientFrame → List Char
  | .hello versions ident =>
    object [("type", string "Hello"),
      ("versions", object [("min", Json.number versions.min), ("max", Json.number versions.max)]), ("ident", string ident)]
  | .subscribe channel pushDepth retainDepth resume =>
    object ([("type", string "Subscribe"), ("channel", string channel), ("push_depth", Json.number pushDepth.toNat),
      ("retain_depth", Json.number retainDepth.toNat)] ++ optionalField "resume" (resume.map string))
  | .unsubscribe channel => object [("type", string "Unsubscribe"), ("channel", string channel)]
  | .publish channel attribution body urgency correlation =>
    object ([("type", string "Publish"), ("channel", string channel)] ++ (optionalField "attribution" (attribution.map string) ++
      ([("body", string body), ("urgency", string (urgencyStr urgency))] ++ optionalField "correlation" (timestamp correlation))))
  | .publishBatch attribution correlation publishes deferredOps =>
    object ([("type", string "PublishBatch")] ++ (optionalField "attribution" (attribution.map string) ++
      ([("correlation", Json.number correlation.toNat), ("publishes", array (publishes.map BatchEntry.text))] ++
        deferredOpsField deferredOps)))
  | .alert attribution severity title body =>
    object ([("type", string "Alert")] ++ (optionalField "attribution" (attribution.map string) ++
      [("severity", string severity.str), ("title", string title), ("body", string body)]))

/-! ### The law of a batch and the reader's cap -/

def BatchEntry.charged (entry : BatchEntry) : Attach.BatchEntry := { channel := entry.channel, body := entry.body }

def DeferredOpKind.charged : DeferredOpKind → Attach.DeferredOpKind
  | .cancel => .cancel
  | .edit body _ => .edit body

def BatchDeferredOp.charged (op : BatchDeferredOp) : Attach.BatchDeferredOp :=
  { channel := op.channel, op := op.op.charged }

/-- Whether two lists compose a legal batch; the law reads nothing but channels and bodies. -/
def checkBatchLegality (publishes : List BatchEntry) (deferredOps : List BatchDeferredOp) (maxBodyBytes : Nat) :
    Except BatchIllegal Unit :=
  Attach.checkBatchLegality (publishes.map BatchEntry.charged) (deferredOps.map BatchDeferredOp.charged) maxBodyBytes

def publishFrameOverheadBytes : Nat := 8 * 1024
def jsonEscapeExpansion : Nat := 6
def batchOpOverheadBytes : Nat := 256
def maxAlertTitleBytes : Nat := 256
def maxAlertBodyBytes : Nat := 4 * 1024

def checked (usizeMax n : Nat) : Option Nat := if n ≤ usizeMax then some n else none

/-- The read cap of an attachment; `none` is the panic where a `usize` does not hold it. -/
def maxClientFrameBytes (usizeMax maxBodyBytes : Nat) : Option Nat :=
  (checked usizeMax (maxBodyBytes * jsonEscapeExpansion)).bind fun scaled =>
    (checked usizeMax (scaled + maxBatchOps * batchOpOverheadBytes)).bind fun scaled =>
      checked usizeMax (scaled + publishFrameOverheadBytes)

theorem checked_eq_some {usizeMax n value : Nat} (held : checked usizeMax n = some value) : value = n := by
  unfold checked at held
  split at held
  · exact (Option.some.inj held).symm
  · cases held

theorem maxClientFrameBytes_eq {usizeMax maxBodyBytes cap : Nat}
    (derived : maxClientFrameBytes usizeMax maxBodyBytes = some cap) :
    cap = 6 * maxBodyBytes + 512 * 256 + 8192 := by
  obtain ⟨scaled, first, rest⟩ := Option.bind_eq_some_iff.mp derived
  obtain ⟨padded, second, last⟩ := Option.bind_eq_some_iff.mp rest
  rw [checked_eq_some last, checked_eq_some second, checked_eq_some first]
  unfold jsonEscapeExpansion maxBatchOps batchOpOverheadBytes publishFrameOverheadBytes
  omega

/-! ### What a frame's text comes to -/

theorem size_urgency (urgency : Urgency) : size (string (urgencyStr urgency)) ≤ 10 := by
  cases urgency <;> decide

theorem size_severity (severity : AlertSeverity) : size (string severity.str) ≤ 10 := by
  cases severity <;> decide

theorem size_uuid (id : BitVec 128) : size (uuid id) = 38 := by
  simp only [uuid, size_cons, size_append, size_hex, size_nil]
  rfl

theorem timestamp_bounded (value : Option UInt64) : ∀ text ∈ timestamp value, size text ≤ 20 := by
  intro text written
  obtain ⟨ms, -, rfl⟩ := Option.map_eq_some_iff.mp written
  exact size_u64 ms

theorem string_bounded {value : Option String} {bound : Nat} (short : ∀ text ∈ value, text.utf8ByteSize ≤ bound) :
    ∀ text ∈ value.map string, size text ≤ 6 * bound + 2 := by
  intro text written
  obtain ⟨source, given, rfl⟩ := Option.map_eq_some_iff.mp written
  exact Nat.le_trans (size_string source) (Nat.add_le_add_right (Nat.mul_le_mul_left 6 (short source given)) 2)

theorem BatchEntry.size_text (entry : BatchEntry) :
    size entry.text + 1 ≤ 6 * (entry.channel.utf8ByteSize + entry.body.utf8ByteSize) + 256 := by
  have fields := size_object ([("channel", string entry.channel), ("body", string entry.body),
    ("urgency", string (urgencyStr entry.urgency))] ++ optionalField "deliver_after" (timestamp entry.deliverAfter))
  have released := cost_optionalField "deliver_after" (timestamp_bounded entry.deliverAfter)
  have keys : size (string "channel") = 9 ∧ size (string "body") = 6 ∧ size (string "urgency") = 9 ∧
      size (string "deliver_after") = 15 := by decide
  have channel := size_string entry.channel
  have body := size_string entry.body
  have urgency := size_urgency entry.urgency
  simp only [cost_append, cost_cons, cost_nil] at fields
  unfold BatchEntry.text
  omega

def DeferredOpKind.bodyBytes : DeferredOpKind → Nat
  | .cancel => 0
  | .edit body _ => (body.map String.utf8ByteSize).getD 0

theorem DeferredOpKind.size_text (op : DeferredOpKind) : size op.text ≤ 6 * op.bodyBytes + 71 := by
  have keys : size (string "kind") = 6 ∧ size (string "body") = 6 ∧ size (string "deliver_after") = 15 ∧
      size (string "edit") = 6 := by decide
  cases op with
  | cancel => exact show size (object [("kind", string "cancel")]) ≤ 71 by decide
  | edit body deliverAfter =>
    have fields := size_object (("kind", string "edit") :: (optionalField "body" (body.map string) ++
      optionalField "deliver_after" (timestamp deliverAfter)))
    have own : ∀ text ∈ body, text.utf8ByteSize ≤ (body.map String.utf8ByteSize).getD 0 := by
      rintro text rfl
      exact Nat.le_refl _
    have rewritten := cost_optionalField "body" (string_bounded own)
    have released := cost_optionalField "deliver_after" (timestamp_bounded deliverAfter)
    simp only [cost_append, cost_cons] at fields
    unfold DeferredOpKind.text DeferredOpKind.bodyBytes
    dsimp only
    omega

theorem BatchDeferredOp.size_text (op : BatchDeferredOp) :
    size op.text + 1 ≤ 6 * (op.channel.utf8ByteSize + op.op.bodyBytes) + 256 := by
  have fields := size_object [("channel", string op.channel), ("message_id", uuid op.messageId), ("op", op.op.text)]
  have keys : size (string "channel") = 9 ∧ size (string "message_id") = 12 ∧ size (string "op") = 4 := by decide
  have channel := size_string op.channel
  have id := size_uuid op.messageId
  have kind := op.op.size_text
  simp only [cost_cons, cost_nil] at fields
  unfold BatchDeferredOp.text
  omega

/-- Operations that each keep to their charge and their allowance do so together. -/
theorem sum_charged {α : Type*} (operations : List α) {text charge : α → Nat}
    (each : ∀ operation, text operation + 1 ≤ 6 * charge operation + 256) :
    (operations.map fun operation => text operation + 1).sum ≤
      6 * (operations.map charge).sum + 256 * operations.length := by
  induction operations with
  | nil => exact Nat.le_refl _
  | cons operation operations ih =>
    have here := each operation
    simp only [List.map_cons, List.sum_cons, List.length_cons]
    omega

theorem checkBatchLegality_ok {publishes : List BatchEntry} {deferredOps : List BatchDeferredOp} {maxBodyBytes : Nat}
    (legal : checkBatchLegality publishes deferredOps maxBodyBytes = .ok ()) :
    publishes.length + deferredOps.length ≤ 512 ∧
      (publishes.map fun entry => entry.channel.utf8ByteSize + entry.body.utf8ByteSize).sum +
        (deferredOps.map fun op => op.channel.utf8ByteSize + op.op.bodyBytes).sum ≤ maxBodyBytes := by
  unfold checkBatchLegality Attach.checkBatchLegality at legal
  dsimp only at legal
  split at legal
  · cases legal
  next count =>
    split at legal
    · cases legal
    next bytes =>
      have charged : batchChargedBytes (publishes.map BatchEntry.charged) (deferredOps.map BatchDeferredOp.charged) =
          (publishes.map fun entry => entry.channel.utf8ByteSize + entry.body.utf8ByteSize).sum +
            (deferredOps.map fun op => op.channel.utf8ByteSize + op.op.bodyBytes).sum := by
        unfold batchChargedBytes
        dsimp only
        rw [List.map_map, List.map_map]
        congr 2
        refine List.map_congr_left fun op _ => ?_
        cases kind : op.op <;> simp [BatchDeferredOp.charged, DeferredOpKind.charged, DeferredOpKind.bodyBytes, kind]
      simp only [List.length_map, maxBatchOps] at count
      rw [charged] at bytes
      omega

theorem cost_deferredOpsField (deferredOps : List BatchDeferredOp) :
    cost (deferredOpsField deferredOps) ≤ ((deferredOps.map fun op => size op.text + 1).sum) + 18 := by
  unfold deferredOpsField
  have key : size (string "deferred_ops") = 14 := by decide
  split
  · exact Nat.zero_le _
  · have items := size_array deferredOps BatchDeferredOp.text
    simp only [cost_cons, cost_nil]
    omega

variable {usizeMax maxBodyBytes cap : Nat} {attribution : Option String}

theorem size_publishBatch (correlation : UInt64) {publishes : List BatchEntry} {deferredOps : List BatchDeferredOp}
    (legal : checkBatchLegality publishes deferredOps maxBodyBytes = .ok ())
    (short : ∀ name ∈ attribution, name.utf8ByteSize ≤ 1024) :
    size (ClientFrame.publishBatch attribution correlation publishes deferredOps).text ≤
      6 * maxBodyBytes + 512 * 256 + 8192 := by
  obtain ⟨count, bytes⟩ := checkBatchLegality_ok legal
  have entries := sum_charged publishes BatchEntry.size_text
  have ops := sum_charged deferredOps BatchDeferredOp.size_text
  have fields := size_object ([("type", string "PublishBatch")] ++ (optionalField "attribution" (attribution.map string) ++
    ([("correlation", Json.number correlation.toNat), ("publishes", array (publishes.map BatchEntry.text))] ++
      deferredOpsField deferredOps)))
  have attributed := cost_optionalField "attribution" (string_bounded short)
  have listed := size_array publishes BatchEntry.text
  have controls := cost_deferredOpsField deferredOps
  have routed := size_u64 correlation
  have keys : size (string "type") = 6 ∧ size (string "PublishBatch") = 14 ∧ size (string "attribution") = 13 ∧
      size (string "correlation") = 13 ∧ size (string "publishes") = 11 := by decide
  simp only [cost_append, cost_cons, cost_nil] at fields
  unfold ClientFrame.text
  dsimp only
  omega

theorem size_publish {channel body : String} (urgency : Urgency) (correlation : Option UInt64)
    (fits : body.utf8ByteSize ≤ maxBodyBytes) (named : channel.utf8ByteSize ≤ 512)
    (short : ∀ name ∈ attribution, name.utf8ByteSize ≤ 512) :
    size (ClientFrame.publish channel attribution body urgency correlation).text ≤ 6 * maxBodyBytes + 8192 := by
  have fields := size_object ([("type", string "Publish"), ("channel", string channel)] ++
    (optionalField "attribution" (attribution.map string) ++
      ([("body", string body), ("urgency", string (urgencyStr urgency))] ++ optionalField "correlation" (timestamp correlation))))
  have attributed := cost_optionalField "attribution" (string_bounded short)
  have routed := cost_optionalField "correlation" (timestamp_bounded correlation)
  have address := size_string channel
  have content := size_string body
  have urgent := size_urgency urgency
  have keys : size (string "type") = 6 ∧ size (string "Publish") = 9 ∧ size (string "channel") = 9 ∧
      size (string "attribution") = 13 ∧ size (string "body") = 6 ∧ size (string "urgency") = 9 ∧
      size (string "correlation") = 13 := by decide
  simp only [cost_append, cost_cons, cost_nil] at fields
  unfold ClientFrame.text
  dsimp only
  omega

theorem size_alert (severity : AlertSeverity) {title body : String} (titled : title.utf8ByteSize ≤ maxAlertTitleBytes)
    (fits : body.utf8ByteSize ≤ maxAlertBodyBytes) (short : ∀ name ∈ attribution, name.utf8ByteSize ≤ 1024) :
    size (ClientFrame.alert attribution severity title body).text ≤ 512 * 256 + 8192 := by
  have fields := size_object ([("type", string "Alert")] ++ (optionalField "attribution" (attribution.map string) ++
    [("severity", string severity.str), ("title", string title), ("body", string body)]))
  have attributed := cost_optionalField "attribution" (string_bounded short)
  have heading := size_string title
  have content := size_string body
  have severe := size_severity severity
  have keys : size (string "type") = 6 ∧ size (string "Alert") = 7 ∧ size (string "attribution") = 13 ∧
      size (string "severity") = 10 ∧ size (string "title") = 7 ∧ size (string "body") = 6 := by decide
  simp only [cost_append, cost_cons, cost_nil] at fields
  unfold maxAlertTitleBytes at titled
  unfold maxAlertBodyBytes at fits
  unfold ClientFrame.text
  dsimp only
  omega

/-- Every legal batch, every publish within its caps and every alert within its caps is a frame the peer reads,
    for every body cap the peer's read cap can be derived from. -/
theorem legal_frames_fit (derived : maxClientFrameBytes usizeMax maxBodyBytes = some cap) :
    (∀ attribution correlation publishes deferredOps, checkBatchLegality publishes deferredOps maxBodyBytes = .ok () →
      (∀ name ∈ attribution, name.utf8ByteSize ≤ 1024) →
        size (ClientFrame.publishBatch attribution correlation publishes deferredOps).text ≤ cap) ∧
    (∀ channel attribution body urgency correlation, body.utf8ByteSize ≤ maxBodyBytes →
      channel.utf8ByteSize ≤ 512 → (∀ name ∈ attribution, name.utf8ByteSize ≤ 512) →
        size (ClientFrame.publish channel attribution body urgency correlation).text ≤ cap) ∧
    ∀ attribution severity title body, title.utf8ByteSize ≤ maxAlertTitleBytes → body.utf8ByteSize ≤ maxAlertBodyBytes →
      (∀ name ∈ attribution, name.utf8ByteSize ≤ 1024) →
        size (ClientFrame.alert attribution severity title body).text ≤ cap := by
  rw [maxClientFrameBytes_eq derived]
  refine ⟨?_, ?_, ?_⟩
  · intro attribution correlation publishes deferredOps legal short
    exact size_publishBatch correlation legal short
  · intro channel attribution body urgency correlation fits named short
    have bound := size_publish urgency correlation fits named short
    omega
  · intro attribution severity title body titled fits short
    have bound := size_alert severity titled fits short
    omega

/-- A batch of one note and one withdrawn note under the smallest body cap that allows it. -/
theorem two_operations_fit :
    size (ClientFrame.publishBatch (some "panel") 7 [⟨"local:notes", "hello", .normal, some 1700000000000⟩]
      [⟨"local:notes", 5, .cancel⟩]).text ≤ 139426 := by
  have derived : maxClientFrameBytes (2 ^ 32 - 1) 27 = some 139426 := by decide
  exact (legal_frames_fit derived).1 (some "panel") 7 _ _ (by decide) (by decide)

theorem size_attribution_le_alert (name : String) (severity : AlertSeverity) (title body : String) :
    size (string name) ≤ size (ClientFrame.alert (some name) severity title body).text := by
  refine @size_le_object _ "attribution" _ ?_
  simp [optionalField]

/-- Nothing bounds the name an alert is raised under. -/
theorem alert_under_long_name_too_long : ∃ name cap, maxClientFrameBytes (2 ^ 32 - 1) 0 = some cap ∧
    "".utf8ByteSize ≤ maxAlertTitleBytes ∧ "".utf8ByteSize ≤ maxAlertBodyBytes ∧
    cap < size (ClientFrame.alert (some name) .info "" "").text := by
  refine ⟨String.ofList (List.replicate 24000 '\x01'), 139264, by decide, by decide, by decide, ?_⟩
  have inside := size_attribution_le_alert (String.ofList (List.replicate 24000 '\x01')) .info "" ""
  rw [size_string_control] at inside
  omega

end Brenn.Attach.Wire
