import Brenn.Attach.Subscriptions
import Brenn.Store.Contract

/-!
The attach server's subscription plane: one connection's active channels, its
positions in their retention, and the three paths a row takes to the socket.

Any retention store will do (`RetentionStore`). A row's envelope keeps the position its
message was retained under, which the wire carries only inside the cursor. A panic
of the source is `none`.
-/

namespace Brenn.Attach
open Brenn.Lib Brenn.Queue Brenn.Store Std

universe u v w x

/-! ### Stores -/

/-- An answer to a resume position that claims continuity only where it has it. -/
structure Honest {M : Type v} {Ep : Type w} (cursor : Option (Resume Ep)) (replay : StoreReplay M Ep) : Prop where
  dense : ∃ first, Numbered Retained.seq first replay.messages
  fresh : replay.decision = .fresh ↔ cursor = none
  upToDate : replay.decision = .upToDate → replay.messages = []
  exact : ∀ resume, cursor = some resume → replay.decision = .exact →
    Numbered Retained.seq (resume.seq + 1) replay.messages

/-- A channel's retention, as a resuming consumer reads it. -/
class RetentionStore (σ : Type x) (M : outParam (Type v)) (Ep : outParam (Type w)) where
  replayFrom : σ → Option (Resume Ep) → Depth → StoreReplay M Ep
  honest : ∀ store cursor limit, Honest cursor (replayFrom store cursor limit)

/-! ### Cursors -/

structure CursorState (C : Type u) (Ep : Type w) where
  incarnation : Int
  channel : C
  resume : Resume Ep
  deriving Repr, DecidableEq

/-- A token as the server reads it back: what it means, or why it does not parse. -/
structure Cursor (C : Type u) (Ep : Type w) where
  parsed : Except String (CursorState C Ep)

def mint {C : Type u} {Ep : Type w} (incarnation : Int) (channel : C) (resume : Resume Ep) : Cursor C Ep :=
  ⟨.ok ⟨incarnation, channel, resume⟩⟩

structure SubscriptionFacts where
  pushDepth : Nat
  retainDepth : Nat
  deriving Repr, DecidableEq

def SubscriptionFacts.pushEnabled (facts : SubscriptionFacts) : Bool := facts.pushDepth ≥ 1

def SubscriptionFacts.replayClamp (facts : SubscriptionFacts) : Depth := .bounded (max facts.pushDepth facts.retainDepth)

inductive ServerFrame (C : Type u) (M : Type v) (Ep : Type w) where
  | subscribeResult (channel : C) (outcome : SubscribeOutcome) (replayCount : Nat) (gap : Option GapInfo)
  | deliver (channel : C) (rows : List (DeliverRow (Retained M) (Cursor C Ep)))

def ServerFrame.channel {C : Type u} {M : Type v} {Ep : Type w} : ServerFrame C M Ep → C
  | .subscribeResult channel _ _ _ => channel
  | .deliver channel _ => channel

inductive Violation (C : Type u) where
  | unsubscribable (channel : C)
  | duplicateSubscribe (channel : C)
  | beyondCap (cap : Nat)
  | noWindow (channel : C)
  | unparseableCursor (channel : C) (detail : String)
  | foreignCursor (channel : C)
  | unsubscribeInactive (channel : C)
  deriving Repr, DecidableEq

structure Profile (C : Type u) where
  subscribable : C → Option SubscriptionFacts
  maxActiveSubscriptions : Nat
  allowsChannelAccess : C → Bool

/-! ### Positions -/

structure WireCursors (C : Type u) (Ep : Type w) [LinearOrder C] where
  spanSeq : TreeMap C Nat
  incarnation : Int
  pos : TreeMap C (Resume Ep)

structure PassRow (M : Type v) where
  retained : Retained M
  dropped : Nat
  deriving Repr, DecidableEq

namespace WireCursors

variable {C : Type u} {M : Type v} {Ep : Type w} [LinearOrder C] (cursors : WireCursors C Ep)

def new (incarnation : Int) : WireCursors C Ep := { spanSeq := ∅, incarnation, pos := ∅ }

def startSpan (channel : C) (epoch : Ep) (anchor : Nat) : WireCursors C Ep :=
  { cursors with spanSeq := cursors.spanSeq.insert channel 0, pos := cursors.pos.insert channel ⟨epoch, anchor⟩ }

def clear (channel : C) : WireCursors C Ep :=
  { cursors with spanSeq := cursors.spanSeq.erase channel, pos := cursors.pos.erase channel }

/-- The span seq and the cursor of the row at `retainedSeq`, the position advanced to it. -/
def next (channel : C) (retainedSeq : Nat) : Option ((Nat × Cursor C Ep) × WireCursors C Ep) :=
  match cursors.spanSeq[channel]?, cursors.pos[channel]? with
  | some seq, some pos =>
    let pos := { pos with seq := max pos.seq retainedSeq }
    some ((seq + 1, mint cursors.incarnation channel pos),
      { cursors with spanSeq := cursors.spanSeq.insert channel (seq + 1), pos := cursors.pos.insert channel pos })
  | _, _ => none

def mintRows (channel : C) : List (PassRow M) → WireCursors C Ep →
    Option (List (DeliverRow (Retained M) (Cursor C Ep)) × WireCursors C Ep)
  | [], cursors => some ([], cursors)
  | row :: pass, cursors =>
    match cursors.next channel row.retained.seq with
    | none => none
    | some ((seq, cursor), cursors) =>
      (mintRows channel pass cursors).map fun (rows, cursors) =>
        (⟨row.retained, seq, cursor, row.dropped⟩ :: rows, cursors)

end WireCursors

/-! ### The session -/

structure Session (C : Type u) (Ep : Type w) [LinearOrder C] where
  active : TreeMap C SubscriptionFacts
  cursors : WireCursors C Ep

/-- The gap a replay decision is answered with, and the position the span anchors at. -/
def resumeAnswer (decision : ReplayDecision) (echoedSeq : Option Nat) : Option GapInfo × Nat :=
  match decision with
  | .fresh => (none, 0)
  | .upToDate | .exact => (none, echoedSeq.getD 0)
  | .gap .beyondRetained => (some ⟨.beyondRetained⟩, 0)
  | .gap .epochChanged => (some ⟨.epochChanged⟩, 0)
  | .gap .resumeAhead => (some ⟨.epochChanged⟩, 0)

namespace Session

variable {C : Type u} {M : Type v} {Ep : Type w} {σ : Type x} [LinearOrder C]

def new (incarnation : Int) : Session C Ep := { active := ∅, cursors := .new incarnation }

variable (session : Session C Ep)

/-- Write a pass as one frame; a pass with no rows writes none. -/
def sendPass (channel : C) (pass : List (PassRow M)) : Option (List (ServerFrame C M Ep) × Session C Ep) :=
  match pass with
  | [] => some ([], session)
  | row :: rest =>
    (session.cursors.mintRows channel (row :: rest)).map fun (rows, cursors) =>
      ([.deliver channel rows], { session with cursors })

def handleUnsubscribe (channel : C) : Except (Violation C) (Session C Ep) :=
  if session.active[channel]?.isSome then
    .ok { active := session.active.erase channel, cursors := session.cursors.clear channel }
  else .error (.unsubscribeInactive channel)

def parseResumeCursor (cursor : Cursor C Ep) (channel : C) : Except (Violation C) (CursorState C Ep) :=
  match cursor.parsed with
  | .error detail => .error (.unparseableCursor channel detail)
  | .ok state => if state.channel ≠ channel then .error (.foreignCursor channel) else .ok state

variable (profile : Profile C)

/-- Every violation a `Subscribe` could earn, or the facts and the position it resolves to. -/
def admitSubscribe (channel : C) (depths : SubscriptionDepths) (resume : Option (Cursor C Ep)) :
    Except (Violation C) (SubscriptionFacts × Option (CursorState C Ep)) :=
  match profile.subscribable channel with
  | none => .error (.unsubscribable channel)
  | some bound =>
    if session.active[channel]?.isSome then .error (.duplicateSubscribe channel)
    else if session.active.size ≥ profile.maxActiveSubscriptions then .error (.beyondCap profile.maxActiveSubscriptions)
    else
      let facts : SubscriptionFacts := ⟨min depths.pushDepth bound.pushDepth, min depths.retainDepth bound.retainDepth⟩
      if facts.pushDepth = 0 ∧ facts.retainDepth = 0 then .error (.noWindow channel)
      else
        match resume with
        | none => .ok (facts, none)
        | some cursor => (parseResumeCursor cursor channel).map fun state => (facts, some state)

variable [RetentionStore σ M Ep]

/-- Whether a cursor was minted under a boot this store never counted. -/
def isStale (echoed : Option (CursorState C Ep)) : Bool :=
  match echoed with
  | some state => state.incarnation > session.cursors.incarnation
  | none => false

def storeCursor (echoed : Option (CursorState C Ep)) : Option (Resume Ep) :=
  if session.isStale echoed then none else echoed.map CursorState.resume

def startSpan (channel : C) (facts : SubscriptionFacts) (epoch : Ep) (anchor : Nat) : Session C Ep :=
  { active := session.active.insert channel facts, cursors := session.cursors.startSpan channel epoch anchor }

/-- Answer an admitted subscription, then replay what retention holds above the anchor as one pass. A denied floor
    replays nothing. -/
def openSpan (channel : C) (facts : SubscriptionFacts) (echoed : Option (CursorState C Ep)) (store : σ) :
    Option (List (ServerFrame C M Ep) × Session C Ep) :=
  let replay := RetentionStore.replayFrom store (session.storeCursor echoed) facts.replayClamp
  let answer := resumeAnswer replay.decision ((session.storeCursor echoed).map Resume.seq)
  let gap := if session.isStale echoed then some ⟨.epochChanged⟩ else answer.1
  let window := if profile.allowsChannelAccess channel then replay.messages else []
  ((session.startSpan channel facts replay.epoch answer.2).sendPass channel
    (window.map fun retained => ⟨retained, 0⟩)).map fun (frames, session) =>
      (.subscribeResult channel .ok window.length gap :: frames, session)

def handleSubscribe (directory : C → Option σ) (channel : C) (depths : SubscriptionDepths)
    (resume : Option (Cursor C Ep)) : Option (Except (Violation C) (List (ServerFrame C M Ep) × Session C Ep)) :=
  match session.admitSubscribe profile channel depths resume with
  | .error violation => some (.error violation)
  | .ok (facts, echoed) =>
    match directory channel with
    | none => some (.ok ([.subscribeResult channel .unavailable 0 none], session))
    | some store => (session.openSpan profile channel facts echoed store).map .ok

def drainWindow (facts : SubscriptionFacts) (cursor : Resume Ep) (replay : StoreReplay M Ep) :
    List (Retained M) × Nat :=
  match replay.decision with
  | .gap _ =>
    let (suffix, lost) := gapSuffix replay.messages cursor.seq
    (suffix, if facts.pushEnabled then lost else 0)
  | _ => (replay.messages, 0)

def lossOnFirst (lost : Nat) : List (Retained M) → List (PassRow M)
  | [] => []
  | first :: rest => ⟨first, lost⟩ :: rest.map fun retained => ⟨retained, 0⟩

def drainChannel (directory : C → Option σ) (channel : C) : Option (List (ServerFrame C M Ep) × Session C Ep) :=
  match session.cursors.pos[channel]?, session.active[channel]?, directory channel with
  | some cursor, some facts, some store =>
    let (window, lost) := drainWindow facts cursor (RetentionStore.replayFrom store (some cursor) facts.replayClamp)
    if window.isEmpty || !profile.allowsChannelAccess channel then some ([], session)
    else session.sendPass channel (lossOnFirst lost window)
  | _, _, _ => none

/-- Decide one live copy by the channel's position. -/
def sendLiveCopy (directory : C → Option σ) (channel : C) (copy : Retained M) :
    Option (List (ServerFrame C M Ep) × Session C Ep) :=
  if session.active[channel]?.isNone then some ([], session)
  else if !profile.allowsChannelAccess channel then some ([], session)
  else
    match session.cursors.pos[channel]? with
    | none => none
    | some pos =>
      if copy.seq ≤ pos.seq then some ([], session)
      else if copy.seq = pos.seq + 1 then session.sendPass channel [⟨copy, 0⟩]
      else session.drainChannel profile directory channel

def sendLive (directory : C → Option σ) :
    List (C × Retained M) → Session C Ep → Option (List (ServerFrame C M Ep) × Session C Ep)
  | [], session => some ([], session)
  | (channel, copy) :: batch, session =>
    match session.sendLiveCopy profile directory channel copy with
    | none => none
    | some (frames, session) =>
      (sendLive directory batch session).map fun (more, session) => (frames ++ more, session)

end Session

end Brenn.Attach
