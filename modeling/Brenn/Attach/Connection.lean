import Brenn.Lib.Run

/-!
The connection of an attachment, a pure machine over the inputs of a transport and a timer.

Reading a frame's text is a parameter; a frame of the planes above carries a body `F` that the
connection does not look into. Instants and spans are milliseconds in a `u64`, so
sums saturate; the one expectation of the source is `none`.
-/

namespace Brenn.Attach.Conn
open Brenn.Lib

universe u

/-! ### Time and chance -/

def maxU64 : Nat := 2 ^ 64 - 1
def maxU32 : Nat := 2 ^ 32 - 1

def saturating (n : Nat) : Nat := min n maxU64

def saturatingAddMs (now ms : Nat) : Nat := saturating (now + ms)

/-- The generator the backoff jitter is drawn from. -/
structure SplitMix64 where
  state : UInt64
  deriving Repr, DecidableEq

def SplitMix64.nextU64 (rng : SplitMix64) : UInt64 × SplitMix64 :=
  let state := rng.state + 0x9E3779B97F4A7C15
  let z := (state ^^^ (state >>> 30)) * 0xBF58476D1CE4E5B9
  let z := (z ^^^ (z >>> 27)) * 0x94D049BB133111EB
  (z ^^^ (z >>> 31), ⟨state⟩)

/-! ### Frames -/

structure VersionRange where
  min : Nat
  max : Nat
  deriving Repr, DecidableEq

def supportedVersions : VersionRange := ⟨4, 4⟩

def negotiate (a b : VersionRange) : Option Nat :=
  let agreed := Min.min a.max b.max
  if agreed ≥ Max.max a.min b.min then some agreed else none

structure AttachmentFacts where
  version : Nat
  participantId : String
  sessionId : String
  heartbeatSecs : Nat
  maxBodyBytes : Nat
  maxFrameBytes : Nat
  alertGranted : Bool
  deriving Repr, DecidableEq

inductive ServerFrame (F : Type u) where
  | hello (versions : VersionRange) (ident : String)
  | welcome (facts : AttachmentFacts)
  | heartbeat
  | subscribeResult (body : F)
  | deliver (body : F)
  | publishResult (body : F)
  | publishBatchResult (body : F)
  | deferredView (body : F)
  deriving Repr, DecidableEq

def ServerFrame.typeName {F : Type u} : ServerFrame F → String
  | .hello _ _ => "Hello"
  | .welcome _ => "Welcome"
  | .heartbeat => "Heartbeat"
  | .subscribeResult _ => "SubscribeResult"
  | .deliver _ => "Deliver"
  | .publishResult _ => "PublishResult"
  | .publishBatchResult _ => "PublishBatchResult"
  | .deferredView _ => "DeferredView"

/-! ### Inputs, effects and events -/

inductive DetachReason where
  | livenessTimeout
  | transportClosed (code : Option Nat) (reason : String)
  deriving Repr, DecidableEq

inductive ConnEvent where
  | attached (facts : AttachmentFacts)
  | detached (reason : DetachReason)
  | fatal (detail : String)
  | incompatible (ours theirs : VersionRange)
  | peerClosedTerminal (code : Nat) (reason : String)
  deriving Repr, DecidableEq

/-- The one frame the connection sends itself. -/
structure Hello where
  versions : VersionRange
  ident : String
  deriving Repr, DecidableEq

inductive ConnEffect where
  | connect (url : String)
  | closeTransport
  | setWakeup (deadline : Option Nat)
  | sendFrame (hello : Hello)
  | emit (event : ConnEvent)
  deriving Repr, DecidableEq

inductive ConnInput where
  | opened
  | connectFailed
  | disconnected (code : Option Nat) (reason : String)
  | textFrame (text : String)
  | binaryFrame
  | hostFatal (detail : String)
  | tick
  deriving Repr, DecidableEq

structure ConnStep (F : Type u) where
  effects : List ConnEffect
  /-- A frame of the planes above. -/
  routed : Option (ServerFrame F)
  deriving Repr, DecidableEq

inductive ConnState where
  | connecting
  | negotiating
  | awaitingWelcome
  | active
  | backoff
  | terminal
  deriving Repr, DecidableEq

structure ConnConfig where
  url : String
  ident : String
  initialBackoffMs : Nat
  maxBackoffMs : Nat
  connectTimeoutMs : Nat
  livenessMultiplier : Nat
  backoffJitterSeed : UInt64
  terminalCloseCodes : List Nat
  deriving Repr, DecidableEq

structure Connection where
  url : String
  ident : String
  initialBackoffMs : Nat
  maxBackoffMs : Nat
  connectTimeoutMs : Nat
  livenessMultiplier : Nat
  terminalCloseCodes : List Nat
  livenessMs : Nat
  state : ConnState
  backoffStep : Nat
  deadline : Nat
  version : Option Nat
  jitter : SplitMix64
  deriving Repr, DecidableEq

namespace Connection

variable {F : Type u} (conn : Connection)

def beginConnect (now : Nat) : List ConnEffect × Connection :=
  let deadline := saturatingAddMs now conn.connectTimeoutMs
  ([.connect conn.url, .setWakeup (some deadline)], { conn with state := .connecting, deadline })

/-- Build a connection and start its first attempt. A liveness multiplier of zero, or a span that
    no `u64` holds, is a panic. -/
def start (config : ConnConfig) (now : Nat) : Option (List ConnEffect × Connection) :=
  if config.livenessMultiplier = 0 then none
  else if config.initialBackoffMs > maxU64 ∨ config.maxBackoffMs > maxU64 ∨ config.connectTimeoutMs > maxU64 then none
  else
    let conn : Connection :=
      { url := config.url, ident := config.ident, initialBackoffMs := config.initialBackoffMs
        maxBackoffMs := config.maxBackoffMs, connectTimeoutMs := config.connectTimeoutMs
        livenessMultiplier := config.livenessMultiplier, terminalCloseCodes := config.terminalCloseCodes
        livenessMs := 0, state := .backoff, backoffStep := 0, deadline := now, version := none
        jitter := ⟨config.backoffJitterSeed⟩ }
    some (conn.beginConnect now)

def doubled (cap : Nat) : Nat → Nat → Nat
  | 0, nominal => nominal
  | steps + 1, nominal =>
    let nominal := saturating (nominal * 2)
    if nominal ≥ cap then nominal else doubled cap steps nominal

/-- The next backoff delay: the capped nominal, jittered over its upper half. -/
def backoffDelayMs : Nat × SplitMix64 :=
  let nominal := min (doubled conn.maxBackoffMs conn.backoffStep conn.initialBackoffMs) conn.maxBackoffMs
  let half := nominal / 2
  let (draw, jitter) := conn.jitter.nextU64
  (nominal - half + draw.toNat % (half + 1), jitter)

def enterBackoff (now : Nat) : List ConnEffect × Connection :=
  let (delay, jitter) := conn.backoffDelayMs
  let deadline := saturatingAddMs now delay
  ([.setWakeup (some deadline)],
    { conn with
      version := none, jitter, backoffStep := min (conn.backoffStep + 1) maxU32, state := .backoff, deadline })

def goFatal (detail : String) : List ConnEffect × Connection :=
  ([.closeTransport, .emit (.fatal detail), .setWakeup none], { conn with state := .terminal })

def plain (answer : List ConnEffect × Connection) : ConnStep F × Connection := (⟨answer.1, none⟩, answer.2)

def onDisconnected (code : Option Nat) (reason : String) (now : Nat) : List ConnEffect × Connection :=
  match code.filter fun code => conn.terminalCloseCodes.contains code with
  | some code =>
    ([.emit (.peerClosedTerminal code reason), .setWakeup none], { conn with state := .terminal })
  | none =>
    let (effects, next) := conn.enterBackoff now
    (.emit (.detached (.transportClosed code reason)) :: effects, next)

variable (parse : String → Except String (ServerFrame F))

def parseFrame (text : String) : Except String (ServerFrame F) :=
  match parse text with
  | .ok frame => .ok frame
  | .error err => .error ("unparseable server frame: " ++ err)

def onTextNegotiating (text : String) : ConnStep F × Connection :=
  match parseFrame parse text with
  | .error detail => plain (conn.goFatal detail)
  | .ok (.hello versions _) =>
    match negotiate supportedVersions versions with
    | some version => (⟨[], none⟩, { conn with version := some version, state := .awaitingWelcome })
    | none =>
      (⟨[.closeTransport, .emit (.incompatible supportedVersions versions), .setWakeup none], none⟩,
        { conn with state := .terminal })
  | .ok frame => plain (conn.goFatal ("expected Hello as the first server frame, got " ++ frame.typeName))

def armLiveness (now : Nat) : Connection := { conn with deadline := saturatingAddMs now conn.livenessMs }

def onTextAwaitingWelcome (text : String) (now : Nat) : Option (ConnStep F × Connection) :=
  match parseFrame parse text with
  | .error detail => some (plain (conn.goFatal detail))
  | .ok (.welcome facts) =>
    match conn.version with
    | none => none
    | some agreed =>
      if facts.version ≠ agreed then
        some (plain (conn.goFatal ("Welcome states version " ++ toString facts.version ++ ", but the handshake agreed " ++
          toString agreed)))
      else if facts.heartbeatSecs = 0 then some (plain (conn.goFatal "Welcome states a zero heartbeat interval"))
      else
        let next := { conn with
          backoffStep := 0
          state := .active
          livenessMs := saturating (saturating (facts.heartbeatSecs * conn.livenessMultiplier) * 1000) }.armLiveness now
        some (⟨[.emit (.attached facts), .setWakeup (some next.deadline)], none⟩, next)
  | .ok frame => some (plain (conn.goFatal ("expected Welcome after the version handshake, got " ++ frame.typeName)))

def onTextActive (text : String) (now : Nat) : ConnStep F × Connection :=
  match parseFrame parse text with
  | .error detail => plain (conn.goFatal detail)
  | .ok (.hello _ _) => plain (conn.goFatal "second Hello frame")
  | .ok (.welcome _) => plain (conn.goFatal "second Welcome frame")
  | .ok .heartbeat => (⟨[.setWakeup (some (conn.armLiveness now).deadline)], none⟩, conn.armLiveness now)
  | .ok frame => (⟨[.setWakeup (some (conn.armLiveness now).deadline)], some frame⟩, conn.armLiveness now)

/-- A timer that fired before its deadline is armed again; past it, the state's own answer. -/
def onTick (now : Nat) (due : List ConnEffect × Connection) : ConnStep F × Connection :=
  if now ≥ conn.deadline then plain due else (⟨[.setWakeup (some conn.deadline)], none⟩, conn)

def onInput (input : ConnInput) (now : Nat) : Option (ConnStep F × Connection) :=
  match conn.state, input with
  | _, .hostFatal detail => some (plain (conn.goFatal detail))
  | .terminal, _ => some (⟨[], none⟩, conn)
  | .connecting, .opened =>
    some (⟨[.sendFrame ⟨supportedVersions, conn.ident⟩], none⟩, { conn with state := .negotiating })
  | .connecting, .connectFailed => some (plain (conn.enterBackoff now))
  | .negotiating, .disconnected code reason | .awaitingWelcome, .disconnected code reason
  | .active, .disconnected code reason => some (plain (conn.onDisconnected code reason now))
  | .negotiating, .textFrame text => some (conn.onTextNegotiating parse text)
  | .awaitingWelcome, .textFrame text => conn.onTextAwaitingWelcome parse text now
  | .active, .textFrame text => some (conn.onTextActive parse text now)
  | .negotiating, .binaryFrame | .awaitingWelcome, .binaryFrame | .active, .binaryFrame =>
    some (plain (conn.goFatal "unexpected binary frame from peer"))
  | .connecting, .tick | .negotiating, .tick | .awaitingWelcome, .tick =>
    let (effects, next) := conn.enterBackoff now
    some (conn.onTick now (.closeTransport :: effects, next))
  | .active, .tick =>
    let (effects, next) := conn.enterBackoff now
    some (conn.onTick now (.closeTransport :: .emit (.detached .livenessTimeout) :: effects, next))
  | .backoff, .tick => some (conn.onTick now (conn.beginConnect now))
  | .connecting, .disconnected _ _ | .connecting, .textFrame _ | .connecting, .binaryFrame
  | .negotiating, .opened | .negotiating, .connectFailed
  | .awaitingWelcome, .opened | .awaitingWelcome, .connectFailed
  | .active, .opened | .active, .connectFailed
  | .backoff, .opened | .backoff, .connectFailed | .backoff, .disconnected _ _ | .backoff, .textFrame _
  | .backoff, .binaryFrame => some (⟨[], none⟩, conn)

/-! ### The backoff schedule -/

/-- Doubling with saturation and an early stop is doubling, up to the cap. -/
theorem min_doubled {cap : Nat} (fits : cap ≤ maxU64) (steps nominal : Nat) :
    min (doubled cap steps nominal) cap = min cap (nominal * 2 ^ steps) := by
  induction steps generalizing nominal with
  | zero =>
    rw [doubled, pow_zero, Nat.mul_one, Nat.min_comm]
  | succ steps ih =>
    rw [doubled]
    have grows : nominal * 2 ≤ nominal * 2 ^ (steps + 1) :=
      Nat.mul_le_mul_left _ (Nat.le_self_pow (Nat.succ_ne_zero steps) 2)
    by_cases reached : saturating (nominal * 2) ≥ cap
    · rw [if_pos reached, Nat.min_eq_right reached, Nat.min_eq_left]
      unfold saturating at reached
      omega
    · have exact : saturating (nominal * 2) = nominal * 2 := by
        unfold saturating at reached ⊢
        omega
      rw [if_neg reached, exact, ih, Nat.mul_assoc, ← Nat.pow_succ']

/-- A step count that saturates names the same capped delay. -/
theorem capped_saturates {cap initial : Nat} (fits : cap ≤ maxU64) (count : Nat) :
    min cap (initial * 2 ^ min count maxU32) = min cap (initial * 2 ^ count) := by
  rcases Nat.le_total count maxU32 with few | many
  · rw [Nat.min_eq_left few]
  rcases Nat.eq_zero_or_pos initial with rfl | some
  · simp
  have large : ∀ steps, maxU32 ≤ steps → cap ≤ initial * 2 ^ steps := by
    intro steps enough
    have wide : 64 ≤ steps := by
      unfold maxU32 at enough
      omega
    have power : 2 ^ 64 ≤ 2 ^ steps := Nat.pow_le_pow_right (by decide) wide
    have scaled : 2 ^ steps ≤ initial * 2 ^ steps := Nat.le_mul_of_pos_left _ some
    unfold maxU64 at fits
    omega
  rw [Nat.min_eq_right many, Nat.min_eq_left (large maxU32 (Nat.le_refl _)), Nat.min_eq_left (large count many)]

theorem backoffDelayMs_bounds {cap count : Nat} (fits : cap ≤ maxU64) (max : conn.maxBackoffMs = cap)
    (counted : conn.backoffStep = min count maxU32) :
    min cap (conn.initialBackoffMs * 2 ^ count) ≤ 2 * conn.backoffDelayMs.1 ∧
      conn.backoffDelayMs.1 ≤ min cap (conn.initialBackoffMs * 2 ^ count) := by
  have nominal : min (doubled conn.maxBackoffMs conn.backoffStep conn.initialBackoffMs) conn.maxBackoffMs =
      min cap (conn.initialBackoffMs * 2 ^ count) := by
    rw [max, min_doubled fits, counted, capped_saturates fits]
  unfold backoffDelayMs
  dsimp only
  rw [nominal]
  generalize min cap (conn.initialBackoffMs * 2 ^ count) = n
  have jitter := Nat.mod_lt conn.jitter.nextU64.1.toNat (show n / 2 + 1 > 0 by omega)
  omega

end Connection

def ConnEvent.isTerminal : ConnEvent → Bool
  | .fatal _ | .incompatible _ _ | .peerClosedTerminal _ _ => true
  | .attached _ | .detached _ => false

def ConnEvent.isAttached : ConnEvent → Bool
  | .attached _ => true
  | _ => false

def events (effects : List ConnEffect) : List ConnEvent :=
  effects.filterMap fun
    | .emit event => some event
    | _ => none

def wakeups (effects : List ConnEffect) : List (Option Nat) :=
  effects.filterMap fun
    | .setWakeup deadline => some deadline
    | _ => none

def lastWakeup (effects : List ConnEffect) : Option (Option Nat) := (wakeups effects).getLast?

namespace Connection

variable {F : Type u} {conn next : Connection} {now : Nat} {answer : ConnStep F}

inductive Moves (conn : Connection) (now : Nat) : ConnStep F → Connection → Prop where
  | absorbed : Moves conn now ⟨[], none⟩ conn
  | opens (connecting : conn.state = .connecting) :
    Moves conn now ⟨[.sendFrame ⟨supportedVersions, conn.ident⟩], none⟩ { conn with state := .negotiating }
  | agrees (version : Nat) (negotiating : conn.state = .negotiating) :
    Moves conn now ⟨[], none⟩ { conn with version := some version, state := .awaitingWelcome }
  | attaches (facts : AttachmentFacts) (livenessMs : Nat) (awaiting : conn.state = .awaitingWelcome) :
    Moves conn now ⟨[.emit (.attached facts), .setWakeup (some (saturatingAddMs now livenessMs))], none⟩
      { conn with backoffStep := 0, state := .active, livenessMs, deadline := saturatingAddMs now livenessMs }
  | hears (routed : Option (ServerFrame F)) (active : conn.state = .active) :
    Moves conn now ⟨[.setWakeup (some (conn.armLiveness now).deadline)], routed⟩ (conn.armLiveness now)
  | waits (live : conn.state ≠ .terminal) : Moves conn now ⟨[.setWakeup (some conn.deadline)], none⟩ conn
  | connects (backoff : conn.state = .backoff) : Moves conn now (plain (conn.beginConnect now)).1 (conn.beginConnect now).2
  | retreats (closing : List ConnEffect) (live : conn.state ≠ .terminal) (tried : conn.state ≠ .backoff)
    (silent : wakeups closing = [])
    (said : (conn.state ≠ .active ∧ events closing = []) ∨ ∃ reason, events closing = [.detached reason]) :
    Moves conn now ⟨closing ++ (conn.enterBackoff now).1, none⟩ (conn.enterBackoff now).2
  | ends (effects : List ConnEffect) (event : ConnEvent) (terminal : event.isTerminal = true)
    (said : events effects = [event]) : Moves conn now ⟨effects, none⟩ { conn with state := .terminal }

theorem goFatal_moves (detail : String) : Moves (F := F) conn now (plain (conn.goFatal detail)).1
    (conn.goFatal detail).2 := .ends _ (.fatal detail) rfl rfl

theorem onDisconnected_moves (code : Option Nat) (reason : String) (live : conn.state ≠ .terminal)
    (tried : conn.state ≠ .backoff) :
    Moves (F := F) conn now (plain (conn.onDisconnected code reason now)).1 (conn.onDisconnected code reason now).2 := by
  unfold onDisconnected
  cases found : code.filter fun code => conn.terminalCloseCodes.contains code with
  | some code => exact .ends _ (.peerClosedTerminal code reason) rfl rfl
  | none =>
    exact .retreats [.emit (.detached (.transportClosed code reason))] live tried rfl (.inr ⟨_, rfl⟩)

variable (parse : String → Except String (ServerFrame F))

theorem onTextNegotiating_moves (text : String) (negotiating : conn.state = .negotiating) :
    Moves conn now (conn.onTextNegotiating parse text).1 (conn.onTextNegotiating parse text).2 := by
  unfold onTextNegotiating
  cases parseFrame parse text with
  | error detail => exact goFatal_moves detail
  | ok frame =>
    cases frame with
    | hello versions ident =>
      dsimp only
      cases negotiate supportedVersions versions with
      | some version => exact .agrees version negotiating
      | none => exact .ends _ (.incompatible supportedVersions versions) rfl rfl
    | _ => exact goFatal_moves _

theorem onTextAwaitingWelcome_moves (text : String) (awaiting : conn.state = .awaitingWelcome)
    (agreed : conn.version ≠ none) :
    ∃ answer next, conn.onTextAwaitingWelcome parse text now = some (answer, next) ∧ Moves conn now answer next := by
  obtain ⟨version, known⟩ := Option.ne_none_iff_exists'.mp agreed
  unfold onTextAwaitingWelcome
  cases parseFrame parse text with
  | error detail => exact ⟨_, _, rfl, goFatal_moves detail⟩
  | ok frame =>
    cases frame with
    | welcome facts =>
      dsimp only
      rw [known]
      dsimp only
      by_cases other : facts.version ≠ version
      · rw [if_pos other]
        exact ⟨_, _, rfl, goFatal_moves _⟩
      rw [if_neg other]
      by_cases still : facts.heartbeatSecs = 0
      · rw [if_pos still]
        exact ⟨_, _, rfl, goFatal_moves _⟩
      rw [if_neg still, ← known]
      exact ⟨_, _, rfl, .attaches facts _ awaiting⟩
    | _ => exact ⟨_, _, rfl, goFatal_moves _⟩

theorem onTextActive_moves (text : String) (active : conn.state = .active) :
    Moves conn now (conn.onTextActive parse text now).1 (conn.onTextActive parse text now).2 := by
  unfold onTextActive
  cases parseFrame parse text with
  | error detail => exact goFatal_moves detail
  | ok frame =>
    cases frame with
    | hello versions ident => exact goFatal_moves _
    | welcome facts => exact goFatal_moves _
    | heartbeat => exact .hears none active
    | _ => exact .hears (some _) active

theorem onTick_moves {due : List ConnEffect × Connection} (live : conn.state ≠ .terminal)
    (moves : Moves (F := F) conn now (plain due).1 due.2) :
    Moves (F := F) conn now (conn.onTick now due).1 (conn.onTick (F := F) now due).2 := by
  unfold onTick
  split
  · exact moves
  · exact .waits live

theorem timeout_moves (live : conn.state ≠ .terminal) (tried : conn.state ≠ .backoff) (quiet : conn.state ≠ .active) :
    Moves (F := F) conn now (conn.onTick now (.closeTransport :: (conn.enterBackoff now).1, (conn.enterBackoff now).2)).1
      (conn.onTick (F := F) now (.closeTransport :: (conn.enterBackoff now).1, (conn.enterBackoff now).2)).2 :=
  onTick_moves live (.retreats [.closeTransport] live tried rfl (.inl ⟨quiet, rfl⟩))

theorem onInput_moves (input : ConnInput) (now : Nat) (agreed : conn.state = .awaitingWelcome → conn.version ≠ none) :
    ∃ answer next, conn.onInput parse input now = some (answer, next) ∧ Moves conn now answer next := by
  unfold onInput
  cases phase : conn.state with
  | connecting =>
    cases input with
    | opened => exact ⟨_, _, rfl, .opens phase⟩
    | connectFailed =>
      exact ⟨_, _, rfl, .retreats [] (by simp [phase]) (by simp [phase]) rfl (.inl ⟨by simp [phase], rfl⟩)⟩
    | tick => exact ⟨_, _, rfl, timeout_moves (by simp [phase]) (by simp [phase]) (by simp [phase])⟩
    | hostFatal detail => exact ⟨_, _, rfl, goFatal_moves detail⟩
    | _ => exact ⟨_, _, rfl, .absorbed⟩
  | negotiating =>
    cases input with
    | disconnected code reason => exact ⟨_, _, rfl, onDisconnected_moves code reason (by simp [phase]) (by simp [phase])⟩
    | textFrame text => exact ⟨_, _, rfl, onTextNegotiating_moves parse text phase⟩
    | binaryFrame => exact ⟨_, _, rfl, goFatal_moves _⟩
    | tick => exact ⟨_, _, rfl, timeout_moves (by simp [phase]) (by simp [phase]) (by simp [phase])⟩
    | hostFatal detail => exact ⟨_, _, rfl, goFatal_moves detail⟩
    | _ => exact ⟨_, _, rfl, .absorbed⟩
  | awaitingWelcome =>
    cases input with
    | disconnected code reason => exact ⟨_, _, rfl, onDisconnected_moves code reason (by simp [phase]) (by simp [phase])⟩
    | textFrame text => exact onTextAwaitingWelcome_moves parse text phase (agreed phase)
    | binaryFrame => exact ⟨_, _, rfl, goFatal_moves _⟩
    | tick => exact ⟨_, _, rfl, timeout_moves (by simp [phase]) (by simp [phase]) (by simp [phase])⟩
    | hostFatal detail => exact ⟨_, _, rfl, goFatal_moves detail⟩
    | _ => exact ⟨_, _, rfl, .absorbed⟩
  | active =>
    cases input with
    | disconnected code reason => exact ⟨_, _, rfl, onDisconnected_moves code reason (by simp [phase]) (by simp [phase])⟩
    | textFrame text => exact ⟨_, _, rfl, onTextActive_moves parse text phase⟩
    | binaryFrame => exact ⟨_, _, rfl, goFatal_moves _⟩
    | tick =>
      refine ⟨_, _, rfl, onTick_moves (by simp [phase]) ?_⟩
      exact .retreats [.closeTransport, .emit (.detached .livenessTimeout)] (by simp [phase]) (by simp [phase]) rfl
        (.inr ⟨_, rfl⟩)
    | hostFatal detail => exact ⟨_, _, rfl, goFatal_moves detail⟩
    | _ => exact ⟨_, _, rfl, .absorbed⟩
  | backoff =>
    cases input with
    | tick => exact ⟨_, _, rfl, onTick_moves (by simp [phase]) (.connects phase)⟩
    | hostFatal detail => exact ⟨_, _, rfl, goFatal_moves detail⟩
    | _ => exact ⟨_, _, rfl, .absorbed⟩
  | terminal =>
    cases input with
    | hostFatal detail => exact ⟨_, _, rfl, goFatal_moves detail⟩
    | _ => exact ⟨_, _, rfl, .absorbed⟩

theorem onInput_terminal {input : ConnInput} (finished : conn.state = .terminal) (other : ∀ detail, input ≠ .hostFatal detail)
    (now : Nat) : conn.onInput parse input now = some (⟨[], none⟩, conn) := by
  unfold onInput
  rw [finished]
  cases input with
  | hostFatal detail => exact absurd rfl (other detail)
  | _ => rfl

end Connection

/-! ### Watching a connection -/

/-- A connection with everything it has answered so far, and the backoffs since it last attached. -/
structure Watched (F : Type u) where
  conn : Connection
  effects : List ConnEffect
  routed : List (ServerFrame F)
  backoffs : Nat
  deriving Repr, DecidableEq

namespace Watched

variable {F : Type u} (parse : String → Except String (ServerFrame F)) (watched : Watched F)

def recount (answer : ConnStep F) (next : Connection) : Nat :=
  if (events answer.effects).any ConnEvent.isAttached then 0
  else if watched.conn.state ≠ .backoff ∧ next.state = .backoff then watched.backoffs + 1
  else watched.backoffs

def follow (answer : ConnStep F) (next : Connection) : Watched F :=
  { conn := next, effects := watched.effects ++ answer.effects, routed := watched.routed ++ answer.routed.toList
    backoffs := watched.recount answer next }

def step (input : Nat × ConnInput) : Option (Watched F) :=
  (watched.conn.onInput parse input.2 input.1).map fun answered => watched.follow answered.1 answered.2

def start (config : ConnConfig) (now : Nat) : Option (Watched F) :=
  (Connection.start config now).map fun begun => { conn := begun.2, effects := begun.1, routed := [], backoffs := 0 }

end Watched

def stillOpen (live : Bool) : ConnEvent → Bool
  | .attached _ => true
  | .detached _ => false
  | _ => live

def isOpen (history : List ConnEvent) : Bool := history.foldl stillOpen false

/-- Every attachment of a history starts where none is open. -/
def Alternates (history : List ConnEvent) : Prop :=
  ∀ before facts after, history = before ++ .attached facts :: after → isOpen before = false

section Histories

variable {history more : List ConnEvent}

theorem Alternates.append (alternates : Alternates history) (others : ∀ facts, .attached facts ∉ more) :
    Alternates (history ++ more) := by
  intro before facts after split
  rcases List.append_eq_append_iff.mp split with ⟨middle, rfl, rest⟩ | ⟨middle, rfl, rest⟩
  · exact absurd (rest ▸ List.mem_append_right middle List.mem_cons_self) (others facts)
  · cases middle with
    | nil =>
      rw [List.nil_append] at rest
      exact absurd (rest ▸ List.mem_cons_self) (others facts)
    | cons event middle =>
      obtain ⟨rfl, -⟩ := List.cons.inj rest
      exact alternates before facts middle rfl

theorem Alternates.attach (alternates : Alternates history) (shut : isOpen history = false) (facts : AttachmentFacts) :
    Alternates (history ++ [.attached facts]) := by
  intro before other after split
  rcases List.append_eq_append_iff.mp split with ⟨middle, rfl, rest⟩ | ⟨middle, rfl, rest⟩
  · cases middle with
    | nil => simpa using shut
    | cons event middle => simp at rest
  · cases middle with
    | nil => simpa using shut
    | cons event middle =>
      obtain ⟨rfl, -⟩ := List.cons.inj rest
      exact alternates before other middle rfl

theorem detached_of_closed {between : List ConnEvent} (closed : between.foldl stillOpen true = false) :
    ∃ reason, .detached reason ∈ between := by
  induction between with
  | nil => cases closed
  | cons event between ih =>
    cases event with
    | detached reason => exact ⟨reason, List.mem_cons_self⟩
    | _ =>
      obtain ⟨reason, found⟩ := ih closed
      exact ⟨reason, List.mem_cons_of_mem _ found⟩

theorem Alternates.between (alternates : Alternates history) {before between after : List ConnEvent}
    {first second : AttachmentFacts}
    (split : history = before ++ .attached first :: (between ++ .attached second :: after)) :
    ∃ reason, .detached reason ∈ between := by
  have shut := alternates (before ++ .attached first :: between) second after (by simp [split])
  rw [isOpen, List.foldl_append, List.foldl_cons] at shut
  exact detached_of_closed shut

end Histories

theorem events_append (first second : List ConnEffect) : events (first ++ second) = events first ++ events second :=
  List.filterMap_append

theorem lastWakeup_append (first second : List ConnEffect) :
    lastWakeup (first ++ second) = (lastWakeup second).or (lastWakeup first) := by
  rw [lastWakeup, wakeups, List.filterMap_append, List.getLast?_append]
  rfl

namespace Connection

variable {F : Type u} {conn next : Connection} {now : Nat} {answer : ConnStep F}

theorem Moves.said (moves : Moves conn now answer next) :
    (events answer.effects = [] ∧ (next.state = conn.state ∨
        conn.state ≠ .active ∧ conn.state ≠ .terminal ∧ next.state ≠ .active ∧ next.state ≠ .terminal)) ∨
      (∃ facts, events answer.effects = [.attached facts] ∧ conn.state = .awaitingWelcome ∧ next.state = .active) ∨
      (∃ reason, events answer.effects = [.detached reason] ∧ conn.state ≠ .terminal ∧ next.state = .backoff) ∨
      (∃ event, events answer.effects = [event] ∧ event.isTerminal = true ∧ next.state = .terminal) := by
  cases moves with
  | absorbed => exact .inl ⟨rfl, .inl rfl⟩
  | opens connecting => exact .inl ⟨rfl, .inr (by simp [connecting])⟩
  | agrees version negotiating => exact .inl ⟨rfl, .inr (by simp [negotiating])⟩
  | attaches facts livenessMs awaiting => exact .inr (.inl ⟨facts, rfl, awaiting, rfl⟩)
  | hears routed active => exact .inl ⟨rfl, .inl rfl⟩
  | waits live => exact .inl ⟨rfl, .inl rfl⟩
  | connects backoff => exact .inl ⟨rfl, .inr (by simp [backoff, beginConnect])⟩
  | retreats closing live tried silent said =>
    have spoken : events (closing ++ (conn.enterBackoff now).1) = events closing := by
      rw [events_append]
      exact List.append_nil _
    rcases said with ⟨quiet, none⟩ | ⟨reason, told⟩
    · exact .inl ⟨spoken.trans none, .inr ⟨quiet, live, nofun, nofun⟩⟩
    · exact .inr (.inr (.inl ⟨reason, spoken.trans told, live, rfl⟩))
  | ends effects event terminal said => exact .inr (.inr (.inr ⟨event, said, terminal, rfl⟩))

/-- An answer arms the timer at the deadline it leaves, or leaves both alone. -/
theorem Moves.armed (moves : Moves conn now answer next) (live : next.state ≠ .terminal) :
    lastWakeup answer.effects = some (some next.deadline) ∨
      (lastWakeup answer.effects = none ∧ next.deadline = conn.deadline ∧ conn.state ≠ .terminal) := by
  cases moves with
  | absorbed => exact .inr ⟨rfl, rfl, live⟩
  | opens connecting => exact .inr ⟨rfl, rfl, by simp [connecting]⟩
  | agrees version negotiating => exact .inr ⟨rfl, rfl, by simp [negotiating]⟩
  | attaches facts livenessMs awaiting => exact .inl rfl
  | hears routed active => exact .inl rfl
  | waits live => exact .inl rfl
  | connects backoff => exact .inl rfl
  | retreats closing live tried silent said =>
    left
    rw [lastWakeup_append]
    rfl
  | ends effects event terminal said => exact absurd rfl live

/-- What an answer leaves of the settings, the version and the backoff count. -/
theorem Moves.kept (moves : Moves conn now answer next) :
    next.initialBackoffMs = conn.initialBackoffMs ∧ next.maxBackoffMs = conn.maxBackoffMs ∧
      (next.state = .awaitingWelcome → next.version ≠ none ∨ (conn.state = .awaitingWelcome ∧ next.version = conn.version)) := by
  cases moves with
  | absorbed => exact ⟨rfl, rfl, fun awaiting => .inr ⟨awaiting, rfl⟩⟩
  | agrees version negotiating => exact ⟨rfl, rfl, fun _ => .inl nofun⟩
  | hears routed active => exact ⟨rfl, rfl, fun awaiting => .inr ⟨awaiting, rfl⟩⟩
  | waits live => exact ⟨rfl, rfl, fun awaiting => .inr ⟨awaiting, rfl⟩⟩
  | _ => exact ⟨rfl, rfl, nofun⟩

theorem Moves.backedOff (moves : Moves conn now answer next) (tried : conn.state ≠ .backoff) (backoff : next.state = .backoff) :
    next = (conn.enterBackoff now).2 := by
  cases moves with
  | absorbed => exact absurd backoff tried
  | hears routed active => exact absurd backoff tried
  | waits live => exact absurd backoff tried
  | retreats closing live tried silent said => rfl
  | _ => cases backoff

theorem Moves.routed (moves : Moves conn now answer next) {frame : ServerFrame F} (routed : answer.routed = some frame) :
    conn.state = .active := by
  cases moves with
  | hears _ active => exact active
  | _ => cases routed

end Connection

namespace Watched

variable {F : Type u}

/-- What holds of a connection and of everything it has answered. -/
structure Sound (config : ConnConfig) (watched : Watched F) : Prop where
  initial : watched.conn.initialBackoffMs = config.initialBackoffMs
  cap : watched.conn.maxBackoffMs = config.maxBackoffMs
  fits : config.maxBackoffMs ≤ maxU64
  armed : watched.conn.state ≠ .terminal → lastWakeup watched.effects = some (some watched.conn.deadline)
  agreed : watched.conn.state = .awaitingWelcome → watched.conn.version ≠ none
  counted : watched.conn.backoffStep = min watched.backoffs maxU32
  shut : watched.conn.state ≠ .active → watched.conn.state ≠ .terminal → isOpen (events watched.effects) = false
  alternates : Alternates (events watched.effects)
  ended : ∀ event ∈ events watched.effects, event.isTerminal = true → watched.conn.state = .terminal

variable {config : ConnConfig} {watched : Watched F} {next : Connection} {now : Nat} {answer : ConnStep F}

/-- The count the connection keeps is the count of its backoffs, up to saturation. -/
theorem recount_counted (moves : watched.conn.Moves now answer next)
    (counted : watched.conn.backoffStep = min watched.backoffs maxU32) :
    next.backoffStep = min (watched.recount answer next) maxU32 := by
  have unchanged (silent : events answer.effects = []) (apart : watched.conn.state = .backoff ∨ next.state ≠ .backoff) :
      watched.recount answer next = watched.backoffs := by
    rw [recount, silent, if_neg (by simp), if_neg (by tauto)]
  cases moves with
  | absorbed => rwa [unchanged rfl (by tauto)]
  | opens connecting => rwa [unchanged rfl (.inr nofun)]
  | agrees version negotiating => rwa [unchanged rfl (.inr nofun)]
  | attaches facts livenessMs awaiting => exact (Nat.zero_min _).symm
  | hears routed active => rwa [unchanged rfl (.inr (by simp [Connection.armLiveness, active]))]
  | waits live => rwa [unchanged rfl (by tauto)]
  | connects backoff => rwa [unchanged rfl (.inl backoff)]
  | retreats closing live tried silent said =>
    have spoken : (events (closing ++ (watched.conn.enterBackoff now).1)).any ConnEvent.isAttached = false := by
      rw [events_append]
      rcases said with ⟨-, none⟩ | ⟨reason, told⟩
      · rw [none]
        rfl
      · rw [told]
        rfl
    rw [recount, if_neg (by simp [spoken]), if_pos ⟨tried, rfl⟩]
    show min (watched.conn.backoffStep + 1) maxU32 = _
    omega
  | ends effects event terminal said =>
    have quiet : (events effects).any ConnEvent.isAttached = false := by
      rw [said]
      cases event <;> simp_all [ConnEvent.isTerminal, ConnEvent.isAttached]
    rwa [recount, if_neg (by simp [quiet]), if_neg nofun]

theorem follow_sound (sound : Sound config watched) (moves : watched.conn.Moves now answer next) :
    Sound config (watched.follow answer next) := by
  obtain ⟨initial, cap, version⟩ := moves.kept
  refine ⟨initial.trans sound.initial, cap.trans sound.cap, sound.fits, ?_, ?_, recount_counted moves sound.counted, ?_, ?_, ?_⟩
  · intro live
    show lastWakeup (watched.effects ++ answer.effects) = _
    rw [lastWakeup_append]
    rcases moves.armed live with set | ⟨none, same, before⟩
    · rw [set]
      rfl
    · rw [none, Option.none_or, sound.armed before]
      exact congrArg (some ∘ some) same.symm
  · intro awaiting
    rcases version awaiting with known | ⟨before, same⟩
    · exact known
    · exact same ▸ sound.agreed before
  all_goals
    dsimp only [follow]
    rw [events_append]
  · intro inactive live
    rcases moves.said with ⟨none, steady⟩ | ⟨facts, -, -, active⟩ | ⟨reason, told, -, -⟩ | ⟨event, -, -, terminal⟩
    · rw [none, List.append_nil]
      rcases steady with same | ⟨before, started, -, -⟩
      · exact sound.shut (same ▸ inactive) (same ▸ live)
      · exact sound.shut before started
    · exact absurd active inactive
    · rw [told, isOpen, List.foldl_append]
      rfl
    · exact absurd terminal live
  · rcases moves.said with ⟨none, -⟩ | ⟨facts, told, awaiting, -⟩ | ⟨reason, told, -, -⟩ | ⟨event, told, terminal, -⟩
    · rw [none, List.append_nil]
      exact sound.alternates
    · rw [told]
      exact sound.alternates.attach (sound.shut (by simp [awaiting]) (by simp [awaiting])) facts
    · rw [told]
      exact sound.alternates.append (by simp)
    · rw [told]
      refine sound.alternates.append fun facts among => ?_
      obtain rfl := List.mem_singleton.mp among
      cases terminal
  · intro event among terminal
    have finished (before : event ∈ events watched.effects) := sound.ended event before terminal
    rcases moves.said with ⟨none, steady⟩ | ⟨facts, told, awaiting, -⟩ | ⟨reason, told, live, -⟩ | ⟨other, -, -, ended⟩
    · rw [none, List.append_nil] at among
      rcases steady with same | ⟨-, live, -, -⟩
      · exact same.trans (finished among)
      · exact absurd (finished among) live
    · rw [told, List.mem_append, List.mem_singleton] at among
      rcases among with before | rfl
      · exact absurd (awaiting.symm.trans (finished before)) nofun
      · cases terminal
    · rw [told, List.mem_append, List.mem_singleton] at among
      rcases among with before | rfl
      · exact absurd (finished before) live
      · cases terminal
    · exact ended

theorem start_sound {begun : Watched F} (started : Watched.start config now = some begun) : Sound config begun := by
  obtain ⟨answer, connected, rfl⟩ := Option.map_eq_some_iff.mp started
  unfold Connection.start at connected
  by_cases zero : config.livenessMultiplier = 0
  · rw [if_pos zero] at connected
    cases connected
  rw [if_neg zero] at connected
  by_cases wide : config.initialBackoffMs > maxU64 ∨ config.maxBackoffMs > maxU64 ∨ config.connectTimeoutMs > maxU64
  · rw [if_pos wide] at connected
    cases connected
  rw [if_neg wide] at connected
  obtain rfl := Option.some.inj connected
  refine ⟨rfl, rfl, by omega, fun _ => rfl, nofun, (Nat.zero_min _).symm, fun _ _ => rfl, ?_, nofun⟩
  intro before facts after split
  exact absurd split.symm (by simp [events, Connection.beginConnect])

variable (parse : String → Except String (ServerFrame F))

theorem step_sound (input : Nat × ConnInput) (sound : Sound config watched) :
    ∃ reached, watched.step parse input = some reached ∧ Sound config reached := by
  obtain ⟨answer, next, answered, moves⟩ := Connection.onInput_moves parse input.2 input.1 sound.agreed
  refine ⟨watched.follow answer next, ?_, follow_sound sound moves⟩
  rw [step, answered]
  rfl

structure Answers (config : ConnConfig) (watched : Watched F) (now : Nat) (input : ConnInput) (answer : ConnStep F)
    (next : Connection) : Prop where
  silent : (∃ event ∈ events watched.effects, event.isTerminal = true) → (∀ detail, input ≠ .hostFatal detail) →
    answer = ⟨[], none⟩ ∧ next = watched.conn
  routed : answer.routed ≠ none → watched.conn.state = .active
  delayed : watched.conn.state ≠ .backoff → next.state = .backoff →
    let nominal := min config.maxBackoffMs (config.initialBackoffMs * 2 ^ watched.backoffs)
    let delay := watched.conn.backoffDelayMs.1
    next.deadline = saturatingAddMs now delay ∧ nominal ≤ 2 * delay ∧ delay ≤ nominal ∧ nominal ≤ maxU64

theorem answers (sound : Sound config watched) {input : ConnInput}
    (answered : watched.conn.onInput parse input now = some (answer, next)) :
    Answers config watched now input answer next := by
  obtain ⟨other, after, same, moves⟩ := Connection.onInput_moves parse input now sound.agreed
  obtain ⟨rfl, rfl⟩ : other = answer ∧ after = next := by simpa using same.symm.trans answered
  constructor
  · rintro ⟨event, among, terminal⟩ unforced
    have absorbed := Connection.onInput_terminal parse (sound.ended event among terminal) unforced now
    simpa using answered.symm.trans absorbed
  · intro given
    obtain ⟨frame, routed⟩ := Option.ne_none_iff_exists'.mp given
    exact moves.routed routed
  · intro tried backoff
    have bounds := watched.conn.backoffDelayMs_bounds sound.fits sound.cap sound.counted
    rw [sound.initial] at bounds
    refine ⟨?_, bounds.1, bounds.2, Nat.le_trans (Nat.min_le_left _ _) sound.fits⟩
    rw [moves.backedOff tried backoff]
    rfl

/-- On every history of inputs the timer last armed is the state's own deadline, a detachment lies between
    any two attachments, and each further input is answered as `Answers` says. -/
theorem connection_well_formed (parse : String → Except String (ServerFrame F)) {config : ConnConfig} {now : Nat}
    {begun : Watched F} (started : Watched.start config now = some begun) (inputs : List (Nat × ConnInput)) :
    ∃ watched, run (step parse) begun inputs = some watched ∧
      (watched.conn.state ≠ .terminal → lastWakeup watched.effects = some (some watched.conn.deadline)) ∧
      (∀ before between after first second,
        events watched.effects = before ++ .attached first :: (between ++ .attached second :: after) →
          ∃ reason, .detached reason ∈ between) ∧
      ∀ now input, ∃ answer next, watched.conn.onInput parse input now = some (answer, next) ∧
        Answers config watched now input answer next := by
  have progress : ∀ (watched : Watched F) input, Sound config watched → True →
      ∃ reached, watched.step parse input = some reached ∧ Sound config reached :=
    fun _ input sound _ => step_sound parse input sound
  obtain ⟨watched, ran, sound⟩ := run_reaches progress (start_sound started) (along_of_forall (fun _ _ => trivial) _ inputs)
  refine ⟨watched, ran, sound.armed, ?_, ?_⟩
  · intro before between after first second split
    exact sound.alternates.between split
  · intro now input
    obtain ⟨answer, next, answered, -⟩ := Connection.onInput_moves parse input now sound.agreed
    exact ⟨answer, next, answered, answers parse sound answered⟩

def homeConfig : ConnConfig :=
  { url := "wss://home", ident := "page", initialBackoffMs := 500, maxBackoffMs := 30000, connectTimeoutMs := 10000
    livenessMultiplier := 3, backoffJitterSeed := 7, terminalCloseCodes := [4001] }

def homeFacts : AttachmentFacts :=
  { version := 4, participantId := "page", sessionId := "one", heartbeatSecs := 20, maxBodyBytes := 65536
    maxFrameBytes := 1048576, alertGranted := false }

def homeParse : String → Except String (ServerFrame Nat)
  | "hello" => .ok (.hello ⟨4, 4⟩ "home")
  | "welcome" => .ok (.welcome homeFacts)
  | _ => .ok .heartbeat

/-- Attach, hear nothing for the liveness span, retry and attach again. -/
def homeInputs : List (Nat × ConnInput) :=
  [(200, .opened), (210, .textFrame "hello"), (220, .textFrame "welcome"), (100000, .tick), (101000, .tick),
    (101100, .opened), (101110, .textFrame "hello"), (101120, .textFrame "welcome")]

theorem home_reattached : ∃ begun watched, Watched.start homeConfig 100 = some begun ∧
    run (step homeParse) begun homeInputs = some watched ∧ watched.conn.state = .active ∧
    events watched.effects = [.attached homeFacts, .detached .livenessTimeout, .attached homeFacts] ∧
    lastWakeup watched.effects = some (some watched.conn.deadline) := by
  obtain ⟨begun, started, facts⟩ : ∃ begun, Watched.start homeConfig 100 = some begun ∧
      decide ((run (step homeParse) begun homeInputs).map (fun watched => (watched.conn.state, events watched.effects)) =
        some (.active, [.attached homeFacts, .detached .livenessTimeout, .attached homeFacts])) = true :=
    Option.map_eq_some_iff.mp (by decide +kernel)
  obtain ⟨watched, ran, armed, -⟩ := connection_well_formed homeParse started homeInputs
  have facts := of_decide_eq_true facts
  rw [ran] at facts
  obtain ⟨active, told⟩ := Prod.mk.inj (Option.some.inj facts)
  exact ⟨begun, watched, started, ran, active, told, armed (active ▸ nofun)⟩

/-- A connection already fatal answers another fatal verdict of its host: it closes the transport it has
    closed, says the verdict and disarms the timer. -/
theorem second_host_fatal_spoken : ∃ begun : Watched Nat, Watched.start homeConfig 100 = some begun ∧
    ∃ watched, run (step fun _ => .ok .heartbeat) begun [(200, .hostFatal "first")] = some watched ∧
      events watched.effects = [.fatal "first"] ∧ watched.conn.state = .terminal ∧
      watched.conn.onInput (fun _ => .ok (ServerFrame.heartbeat (F := Nat))) (.hostFatal "second") 300 =
        some (⟨[.closeTransport, .emit (.fatal "second"), .setWakeup none], none⟩, watched.conn) := by
  exact ⟨_, rfl, _, rfl, rfl, rfl, rfl⟩

end Watched

end Brenn.Attach.Conn
