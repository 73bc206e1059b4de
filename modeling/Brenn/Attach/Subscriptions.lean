import Brenn.Lib.Maps

/-!
The attach client's wire subscription plane.

Channels `C` are ordered addresses, cursors `κ` and messages `M` are opaque. A panic of the
source is `none`, an intake it refuses is an error under the source's text.
-/

namespace Brenn.Attach
open Brenn.Lib Std

universe u v w

/-- An address that says whether it is confined to the page. -/
class Confinable (C : Type u) where
  isLocalChannel : C → Bool

/-- Addresses of which none is confined to the page. -/
instance : Confinable Nat := ⟨fun _ => false⟩

/-! ### What crosses the wire -/

structure SubscriptionDepths where
  pushDepth : Nat
  retainDepth : Nat
  deriving Repr, DecidableEq

inductive ResumePolicy where
  | resume
  | cursorless
  deriving Repr, DecidableEq

inductive SubscribeOutcome where
  | ok
  | unavailable
  deriving Repr, DecidableEq

inductive WireGapReason where
  | beyondRetained
  | epochChanged
  deriving Repr, DecidableEq

structure GapInfo where
  reason : WireGapReason
  deriving Repr, DecidableEq

structure DeliverRow (M : Type v) (κ : Type w) where
  envelope : M
  seq : Nat
  cursor : κ
  dropped : Nat
  deriving Repr, DecidableEq

inductive SubscriptionFrame (C : Type u) (κ : Type w) where
  | subscribe (channel : C) (depths : SubscriptionDepths) (resume : Option κ)
  | unsubscribe (channel : C)
  deriving Repr, DecidableEq

def SubscriptionFrame.channel {C : Type u} {κ : Type w} : SubscriptionFrame C κ → C
  | .subscribe channel _ _ => channel
  | .unsubscribe channel => channel

def SubscriptionFrame.opens {C : Type u} {κ : Type w} : SubscriptionFrame C κ → Bool
  | .subscribe _ _ _ => true
  | .unsubscribe _ => false

/-! ### One channel -/

inductive WireState where
  | unsubscribed
  | pending
  | active
  deriving Repr, DecidableEq

structure ChannelSubscription (κ : Type w) where
  refcount : Nat
  depths : SubscriptionDepths
  resumePolicy : ResumePolicy
  wire : WireState
  token : Option κ
  spanHw : Option Nat
  hasBeenActive : Bool
  stragglerReported : Bool
  stated : Option (SubscriptionDepths × ResumePolicy)
  deriving Repr, DecidableEq

inductive SubscribeSettlement (C : Type u) (κ : Type w) where
  | opened (frames : List (SubscriptionFrame C κ)) (live : Bool) (replayCount : Nat) (gap : Option GapInfo)
  | unavailable
  deriving Repr, DecidableEq

inductive DeliverDisposition where
  | accept (dropped : Nat)
  | discard (first : Bool) (dropped : Nat)
  deriving Repr, DecidableEq

namespace ChannelSubscription

variable {C : Type u} {κ : Type w}

def fresh (depths : SubscriptionDepths) (resumePolicy : ResumePolicy) : ChannelSubscription κ :=
  { refcount := 0, depths, resumePolicy, wire := .unsubscribed, token := none, spanHw := none, hasBeenActive := false
    stragglerReported := false, stated := none }

variable (entry : ChannelSubscription κ)

def prepareSubscribe : Option κ × ChannelSubscription κ :=
  (match entry.resumePolicy with
    | .resume => entry.token
    | .cursorless => none,
    { entry with wire := .pending, spanHw := none, stated := some (entry.depths, entry.resumePolicy) })

def subscribeFrame (channel : C) : SubscriptionFrame C κ × ChannelSubscription κ :=
  let (resume, entry) := entry.prepareSubscribe
  (.subscribe channel entry.depths resume, entry)

/-- A channel nobody holds is stated afresh by the next to acquire it. -/
def restate (depths : SubscriptionDepths) (resumePolicy : ResumePolicy) : ChannelSubscription κ :=
  if entry.refcount = 0 then { entry with depths, resumePolicy } else entry

/-- One more reference, up to what a `u32` counts. -/
def hold : ChannelSubscription κ := { entry with refcount := min (entry.refcount + 1) (2 ^ 32 - 1) }

def isSpent : Bool := entry.refcount = 0 && entry.wire = .unsubscribed && !entry.hasBeenActive

end ChannelSubscription

/-! ### The plane -/

structure Subscriptions (C : Type u) (κ : Type w) [LinearOrder C] where
  channels : TreeMap C (ChannelSubscription κ)
  live : Bool

/-- Take each row's seq against the span's high water, answering the new one or the two that clash. -/
def spanAdvance {M : Type v} {κ : Type w} : Option Nat → List (DeliverRow M κ) → Except (Nat × Nat) (Option Nat)
  | hw, [] => .ok hw
  | some seen, row :: rows => if row.seq ≤ seen then .error (row.seq, seen) else spanAdvance (some row.seq) rows
  | none, row :: rows => spanAdvance (some row.seq) rows

namespace Subscriptions

variable {C : Type u} {M : Type v} {κ : Type w} [LinearOrder C]

def new : Subscriptions C κ := { channels := ∅, live := false }

variable (subs : Subscriptions C κ)

def acquire [Confinable C] (channel : C) (depths : SubscriptionDepths) (resumePolicy : ResumePolicy) :
    Option (List (SubscriptionFrame C κ) × Subscriptions C κ) :=
  if Confinable.isLocalChannel channel then none
  else if depths.pushDepth = 0 ∧ depths.retainDepth = 0 then none
  else
    let entry := (subs.channels[channel]?.getD (.fresh depths resumePolicy)).restate depths resumePolicy
    if entry.depths ≠ depths ∨ entry.resumePolicy ≠ resumePolicy then none
    else if entry.wire = .unsubscribed ∧ subs.live = true then
      let (frame, entry) := entry.hold.subscribeFrame channel
      some ([frame], { subs with channels := subs.channels.insert channel entry })
    else some ([], { subs with channels := subs.channels.insert channel entry.hold })

def forgetIfSpent (channel : C) : Subscriptions C κ :=
  match subs.channels[channel]? with
  | some entry => if entry.isSpent then { subs with channels := subs.channels.erase channel } else subs
  | none => subs

def release (channel : C) : Option (List (SubscriptionFrame C κ) × Subscriptions C κ) :=
  match subs.channels[channel]? with
  | none => none
  | some entry =>
    if entry.refcount = 0 then none
    else
      let entry := { entry with refcount := entry.refcount - 1 }
      if 0 < entry.refcount then some ([], { subs with channels := subs.channels.insert channel entry })
      else
        -- nobody is owed replay any more
        let entry := { entry with token := none }
        if entry.wire = .active then
          let entry := { entry with wire := .unsubscribed }
          some ([.unsubscribe channel], { subs with channels := subs.channels.insert channel entry }.forgetIfSpent channel)
        else some ([], { subs with channels := subs.channels.insert channel entry }.forgetIfSpent channel)

def goLive : Subscriptions C κ := { subs with live := true }

def isSurvivor (entry : ChannelSubscription κ) : Bool := 0 < entry.refcount && entry.wire = .unsubscribed

def resubscribeSurvivors : List (SubscriptionFrame C κ) × Subscriptions C κ :=
  ((subs.channels.toList.filter fun item => isSurvivor item.2).map fun item => (item.2.subscribeFrame item.1).1,
    { subs with
      channels := subs.channels.map fun channel entry =>
        if isSurvivor entry then (entry.subscribeFrame channel).2 else entry })

def onAttached : List (SubscriptionFrame C κ) × Subscriptions C κ := subs.goLive.resubscribeSurvivors

def onDetached : Subscriptions C κ :=
  { live := false
    channels := (subs.channels.filter fun _ entry => 0 < entry.refcount).map fun _ entry =>
      { entry with wire := .unsubscribed, spanHw := none, hasBeenActive := false, stragglerReported := false } }

section Intake

variable [ToString C]

def onSubscribeResult (channel : C) (outcome : SubscribeOutcome) (replayCount : Nat) (gap : Option GapInfo) :
    Except String (SubscribeSettlement C κ × Subscriptions C κ) :=
  match subs.channels[channel]? with
  | none => .error ("SubscribeResult for a channel not pending: " ++ toString channel)
  | some entry =>
    if entry.wire ≠ .pending then .error ("SubscribeResult for a channel not pending: " ++ toString channel)
    else
      let put entry := { subs with channels := subs.channels.insert channel entry }
      match outcome with
      | .unavailable =>
        .ok (.unavailable, put { entry with wire := .unsubscribed, refcount := 0, spanHw := none, stated := none })
      | .ok =>
        let entry := { entry with hasBeenActive := true, stragglerReported := false }
        if entry.refcount = 0 then
          .ok (.opened [.unsubscribe channel] false replayCount gap, put { entry with wire := .unsubscribed })
        else if entry.stated ≠ some (entry.depths, entry.resumePolicy) then
          -- the peer acknowledged a statement that was replaced while it was in flight
          let (frame, entry) := entry.subscribeFrame channel
          .ok (.opened [.unsubscribe channel, frame] false replayCount gap, put entry)
        else .ok (.opened [] true replayCount gap, put { entry with wire := .active })

def onDeliver (channel : C) (rows : List (DeliverRow M κ)) : Except String (DeliverDisposition × Subscriptions C κ) :=
  match rows with
  | [] => .error ("Deliver with no rows on " ++ toString channel)
  | head :: rest =>
    match rest.find? fun row => row.dropped ≠ 0 with
    | some row =>
      .error ("Deliver on " ++ toString channel ++ " reports " ++ toString row.dropped ++ " dropped past its first row: a pass's loss belongs to the subscription and rides the row that follows it")
    | none =>
      let last := rest.getLast?.getD head
      let unopened := "Deliver on a channel never active on this attachment: " ++ toString channel
      match subs.channels[channel]? with
      | none => .error unopened
      | some entry =>
        if entry.hasBeenActive = false then .error unopened
        else if entry.wire ≠ .active then
          .ok (.discard (!entry.stragglerReported) head.dropped,
            { subs with channels := subs.channels.insert channel { entry with stragglerReported := true } })
        else
          match spanAdvance entry.spanHw (head :: rest) with
          | .error (seq, seen) =>
            .error ("Deliver seq regression on " ++ toString channel ++ ": " ++ toString seq ++ " not greater than " ++ toString seen)
          | .ok hw =>
            let token := match entry.resumePolicy with
              | .resume => some last.cursor
              | .cursorless => entry.token
            .ok (.accept head.dropped,
              { subs with channels := subs.channels.insert channel { entry with spanHw := hw, token } })

end Intake

def isActive (channel : C) : Bool :=
  match subs.channels[channel]? with
  | some entry => entry.wire = .active
  | none => false

def refcount (channel : C) : Nat := (subs.channels[channel]?.map ChannelSubscription.refcount).getD 0

end Subscriptions

end Brenn.Attach
