import Mathlib

/-!
The batches of the attach protocol, and what one may carry.
-/

namespace Brenn.Attach

structure BatchEntry where
  channel : String
  body : String
  deriving Repr, DecidableEq

inductive DeferredOpKind where
  | cancel
  | edit (body : Option String)
  deriving Repr, DecidableEq

structure BatchDeferredOp where
  channel : String
  op : DeferredOpKind
  deriving Repr, DecidableEq

structure FlushBatch where
  entries : List BatchEntry
  ops : List BatchDeferredOp
  deriving Repr, DecidableEq

inductive BatchIllegal where
  | tooManyOps (ops cap : Nat)
  | tooManyBytes (bytes cap : Nat)
  deriving Repr, DecidableEq

def maxBatchOps : Nat := 512

/-- Every variable-length text a batch carries, charged against the body cap. -/
def batchChargedBytes (publishes : List BatchEntry) (deferredOps : List BatchDeferredOp) : Nat :=
  let entries := (publishes.map fun entry => entry.channel.utf8ByteSize + entry.body.utf8ByteSize).sum
  let ops := (deferredOps.map fun op => op.channel.utf8ByteSize +
    match op.op with
    | .cancel => 0
    | .edit body => (body.map String.utf8ByteSize).getD 0).sum
  entries + ops

def checkBatchLegality (publishes : List BatchEntry) (deferredOps : List BatchDeferredOp) (maxBodyBytes : Nat) :
    Except BatchIllegal Unit :=
  let ops := publishes.length + deferredOps.length
  if ops > maxBatchOps then .error (.tooManyOps ops maxBatchOps)
  else
    let bytes := batchChargedBytes publishes deferredOps
    if bytes > maxBodyBytes then .error (.tooManyBytes bytes maxBodyBytes) else .ok ()

end Brenn.Attach
