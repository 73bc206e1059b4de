import Brenn.Queue.Core

/-!
What both retention stores answer with.

Uuids `U`, texts `T` and participants `S` are opaque ordered types. Instants are
whole seconds since the Unix epoch; a release time is the millisecond figure the
queue works in. Envelope fields that no store reads are left out.
-/

namespace Brenn.Store
open Brenn.Queue

universe u v w

variable {U : Type u} {T : Type v} {S : Type w}

inductive Depth where
  | bounded (n : Nat)
  | unbounded
  deriving Repr, DecidableEq

def Depth.isPushEnabled : Depth → Bool
  | .bounded 0 => false
  | _ => true

def Depth.narrowedBy : Depth → Depth → Depth
  | .unbounded, narrower => narrower
  | wider, .unbounded => wider
  | .bounded a, .bounded b => .bounded (min a b)

/-- A depth as a count; an unbounded one is `u64::MAX`. -/
def depthBound : Depth → Nat
  | .bounded n => n
  | .unbounded => 2 ^ 64 - 1

inductive Urgency where
  | veryLow
  | low
  | normal
  | high
  deriving Repr, DecidableEq

def Urgency.rank : Urgency → Nat
  | .veryLow => 0
  | .low => 1
  | .normal => 2
  | .high => 3

def Urgency.max (a b : Urgency) : Urgency := if a.rank ≤ b.rank then b else a

/-- The earlier of two deadlines, an absent one yielding to any. -/
def soonest : Option Nat → Option Nat → Option Nat
  | some a, some b => some (min a b)
  | some a, none => some a
  | none, b => b

structure NewMessage (T : Type v) where
  sender : T
  body : T
  urgency : Urgency
  deliveryDeadline : Option Nat
  deriving Repr, DecidableEq

structure MessageEnvelope (U : Type u) (T : Type v) where
  messageId : U
  sender : T
  body : T
  urgency : Urgency
  deliveryDeadline : Option Nat
  deriving Repr, DecidableEq

def envelopeOf (messageId : U) (message : NewMessage T) : MessageEnvelope U T :=
  ⟨messageId, message.sender, message.body, message.urgency, message.deliveryDeadline⟩

/-- What a resuming consumer is owed, the decision behind it and the epoch that numbered it. -/
structure StoreReplay (M : Type u) (Ep : Type v) where
  epoch : Ep
  messages : List (Retained M)
  decision : ReplayDecision
  deriving Repr, DecidableEq

/-- Narrow a replay to its newest `limit` messages. Cutting into an exact suffix breaks continuity. -/
def clampReplay {M : Type u} {Ep : Type v} (replay : StoreReplay M Ep) : Depth → StoreReplay M Ep
  | .unbounded => replay
  | .bounded n =>
    if replay.messages.length ≤ n then replay
    else
      { replay with
        messages := replay.messages.drop (replay.messages.length - n)
        decision := if replay.decision = .exact then .gap .beyondRetained else replay.decision }

/-- A subscriber owed something, with the loudest and the most urgent of it. -/
structure DeliverableSubscriber (S : Type w) (T : Type v) where
  subscriber : S
  appSlug : Option T
  maxUnseenUrgency : Urgency
  earliestUnseenDeadline : Option Nat
  deriving Repr, DecidableEq

structure OverflowEvent (S : Type w) (T : Type v) where
  subscriber : S
  dropped : Nat
  appSlug : Option T
  deriving Repr, DecidableEq

structure DeferredMessage (U : Type u) (T : Type v) where
  releaseAt : Nat
  envelope : MessageEnvelope U T
  deriving Repr, DecidableEq

inductive DeferralOutcome where
  | applied
  | notDeferred (deliverAfter : Option Nat)
  | wrongSender
  deriving Repr, DecidableEq

def releaseTimeOf (instant : Nat) : Nat := instant * 1000

def instantOf (releaseTime : Nat) : Nat := releaseTime / 1000

@[simp] theorem instantOf_releaseTimeOf (instant : Nat) : instantOf (releaseTimeOf instant) = instant := by
  simp [instantOf, releaseTimeOf]

@[simp] theorem releaseTimeOf_le {a b : Nat} : releaseTimeOf a ≤ releaseTimeOf b ↔ a ≤ b := by
  unfold releaseTimeOf
  omega

end Brenn.Store
