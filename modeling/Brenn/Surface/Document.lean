import Brenn.Attach.Subscriptions
import Brenn.Lib.Quoting

/-!
The bindings document a surface page runs under.

The wire half of the schema with its structural validation, and the kernel's own
reading of a validated document. JSON itself is a parameter, a function from a body to a document
or a fault. Call bindings and the per-component config map are left out: no turn of the page reads
them.
-/

namespace Brenn.Surface
open Brenn.Lib Brenn.Attach Std

/-! ### Addresses -/

/-- The address schemes of the bus; `localPage` is the page-confined one. -/
inductive ChannelScheme where
  | brenn
  | ephemeral
  | localPage
  | mqtt
  | webhook
  | pwaPush
  deriving Repr, DecidableEq

structure ChannelCapabilities where
  durable : Bool
  transportable : Bool
  deriving Repr, DecidableEq

namespace ChannelScheme

def of (address : String) : Option ChannelScheme :=
  if address.startsWith "brenn:" then some .brenn
  else if address.startsWith "ephemeral:" then some .ephemeral
  else if address.startsWith "local:" then some .localPage
  else if address.startsWith "mqtt:" then some .mqtt
  else if address.startsWith "webhook:" then some .webhook
  else if address.startsWith "pwa_push:" then some .pwaPush
  else none

def capabilities : ChannelScheme → Option ChannelCapabilities
  | .brenn | .mqtt | .webhook => some ⟨true, true⟩
  | .ephemeral => some ⟨false, true⟩
  | .localPage => some ⟨false, false⟩
  | .pwaPush => none

def surfaceBindable : ChannelScheme → Bool
  | .brenn | .ephemeral | .localPage => true
  | .mqtt | .webhook | .pwaPush => false

end ChannelScheme

def channelCapabilities (address : String) : Option ChannelCapabilities :=
  (ChannelScheme.of address).bind ChannelScheme.capabilities

def isLocalChannel (address : String) : Bool :=
  (channelCapabilities address).any fun capabilities => !capabilities.transportable

def surfaceBindableAddress (channel : String) : Bool := (ChannelScheme.of channel).any ChannelScheme.surfaceBindable

/-- Whether a bindable channel crosses the wire. The source asserts that it is one. -/
def channelIsTransportable (channel : String) : Bool :=
  (channelCapabilities channel).any ChannelCapabilities.transportable

/-! ### The reserved planes -/

structure ReservedLocalChannel where
  address : String
  ringDepth : Nat
  kernelPublishOnly : Bool
  deriving Repr, DecidableEq

def localThemeChannel : String := "local:brenn/theme"
def localTakeoverChannel : String := "local:brenn/takeover"
def localLinkStateChannel : String := "local:brenn/link-state"
def localSurfaceStateChannel : String := "local:brenn/surface-state"
def localToastChannel : String := "local:brenn/toast"
def localOverlayStateChannel : String := "local:brenn/overlay-state"

def reservedLocalChannels : List ReservedLocalChannel :=
  [⟨localThemeChannel, 1, false⟩, ⟨localTakeoverChannel, 1, false⟩, ⟨localLinkStateChannel, 1, true⟩,
    ⟨localSurfaceStateChannel, 1, true⟩, ⟨localToastChannel, 0, true⟩, ⟨localOverlayStateChannel, 1, false⟩]

def reservedLocalChannel (address : String) : Option ReservedLocalChannel :=
  reservedLocalChannels.find? fun reserved => reserved.address = address

def isReservedLocalNamespace (address : String) : Bool := address.startsWith "local:brenn/"

/-! ### The schema -/

/-- The loudness ladder, quietest first. -/
inductive NoiseLevel where
  | silent
  | metered
  | alarm
  | fatal
  deriving Repr, DecidableEq

def NoiseLevel.rank : NoiseLevel → Nat
  | .silent => 0
  | .metered => 1
  | .alarm => 2
  | .fatal => 3

instance : LE NoiseLevel := ⟨fun quiet loud => quiet.rank ≤ loud.rank⟩
instance : DecidableRel (fun quiet loud : NoiseLevel => quiet ≤ loud) :=
  fun quiet loud => inferInstanceAs (Decidable (quiet.rank ≤ loud.rank))

inductive Urgency where
  | veryLow
  | low
  | normal
  | high
  deriving Repr, DecidableEq

inductive LogLevel where
  | trace
  | debug
  | info
  | warn
  | error
  deriving Repr, DecidableEq

def LogLevel.asWireStr : LogLevel → String
  | .trace => "trace"
  | .debug => "debug"
  | .info => "info"
  | .warn => "warn"
  | .error => "error"

/-- The two capabilities the page's turns read; a document carries more. -/
inductive ComponentGrant where
  | ports
  | dom
  deriving Repr, DecidableEq

structure ComponentEntry where
  instanceId : String
  parkedBatchDepth : Nat
  grants : List ComponentGrant
  declaredOutPorts : List String
  syncPorts : List String
  callPorts : List String
  deriving Repr, DecidableEq

/-- One input binding: a channel wired to an instance's port. -/
structure Binding where
  channel : String
  instanceId : String
  port : String
  pushDepth : Nat
  retainDepth : Nat
  noise : NoiseLevel
  deriving Repr, DecidableEq

/-- One output binding: an instance's port wired to a channel. -/
structure OutputBinding where
  channel : String
  instanceId : String
  port : String
  urgency : Urgency
  fillMt : Nat
  capacityMt : Nat
  deriving Repr, DecidableEq

structure LocalChannel where
  channel : String
  ringDepth : Nat
  deriving Repr, DecidableEq

structure PlatformSection where
  geometryChannel : String
  statusChannel : String
  statusIntervalSecs : Nat
  errorChannel : Option String
  errorReportFloor : Option LogLevel
  deriving Repr, DecidableEq

structure BindingsDocument where
  v : Nat
  components : List ComponentEntry
  subscriptions : List Binding
  outputs : List OutputBinding
  localChannels : List LocalChannel
  chromeInstance : String
  platform : PlatformSection
  /-- The page's address space holds no vector of `2 ^ 31` records. -/
  addressable : subscriptions.length < 2 ^ 31 := by decide

theorem unbound_addressable : ([] : List Binding).length < 2 ^ 31 := by decide

/-! ### Structural validation -/

def firstRepeat {α κ : Type} [DecidableEq κ] (key : α → κ) : List κ → List α → Option α
  | _, [] => none
  | seen, item :: items => if key item ∈ seen then some item else firstRepeat key (key item :: seen) items

def refuse : Option String → Except String Unit
  | some fault => .error fault
  | none => .ok ()

def isSortedVocabulary : List String → Bool
  | first :: second :: rest => decide (first < second) && isSortedVocabulary (second :: rest)
  | _ => true

namespace BindingsDocument

def statusIntervalSecsMin : Nat := 5
def statusIntervalSecsMax : Nat := 3600

variable (doc : BindingsDocument)

/-- How a vocabulary is shown in a fault's text. -/
def showVocabulary (ports : List String) : String := "[" ++ ", ".intercalate (ports.map debugText) ++ "]"

def vocabularyFault (component : ComponentEntry) (kind : String) (ports : List String) : Option String :=
  if isSortedVocabulary ports then none
  else some ("bindings document declares component instance " ++ component.instanceId ++ "'s " ++ kind ++
    " vocabulary " ++ showVocabulary ports ++ ", which is not sorted and duplicate-free")

def isDeclared (instanceId : String) : Bool := doc.components.any fun component => component.instanceId = instanceId

def bound : List (String × String × String) :=
  doc.subscriptions.map (fun b => (b.instanceId, b.port, b.channel)) ++
    doc.outputs.map fun b => (b.instanceId, b.port, b.channel)

def repeatedInstance : Option String :=
  (firstRepeat ComponentEntry.instanceId [] doc.components).map fun component =>
    "bindings document declares component instance " ++ component.instanceId ++ " twice"

def unsortedVocabulary : Option String :=
  doc.components.findSome? fun component =>
    ((vocabularyFault component "port" component.declaredOutPorts).or
      (vocabularyFault component "sync" component.syncPorts)).or
      (vocabularyFault component "call" component.callPorts)

def repeatedOutputPort : Option String :=
  (firstRepeat (fun b : OutputBinding => (b.instanceId, b.port)) [] doc.outputs).map fun b =>
    "bindings document binds output port " ++ b.instanceId ++ "/" ++ b.port ++ " twice"

def repeatedInputPort : Option String :=
  (firstRepeat (fun b : Binding => (b.instanceId, b.port)) [] doc.subscriptions).map fun b =>
    "bindings document binds input port " ++ b.instanceId ++ "/" ++ b.port ++ " twice"

def undeclaredOutputPort : Option String :=
  (doc.outputs.find? fun b =>
    doc.components.any fun component => component.instanceId = b.instanceId && !component.declaredOutPorts.contains b.port).map
    fun b => "bindings document binds output port " ++ b.instanceId ++ "/" ++ b.port ++
      ", which the component's declared port vocabulary does not contain"

def repeatedLocalChannel : Option String :=
  (firstRepeat LocalChannel.channel [] doc.localChannels).map fun lc =>
    "bindings document declares local channel " ++ lc.channel ++ " twice"

def channelFault (channel : String) : Option String :=
  if surfaceBindableAddress channel = false then
    some ("bindings document binds channel " ++ channel ++ ", whose scheme is not surface-bindable")
  else if isLocalChannel channel && !(doc.localChannels.any fun lc => lc.channel = channel) then
    some ("bindings document binds local channel " ++ channel ++ " but declares no router entry for it")
  else none

def unroutableChannel : Option String := doc.bound.findSome? fun (_, _, channel) => doc.channelFault channel

def restatedPlane : Option String :=
  doc.localChannels.findSome? fun lc =>
    match reservedLocalChannel lc.channel with
    | some reserved =>
      if lc.ringDepth = reserved.ringDepth then none
      else some ("bindings document declares reserved local channel " ++ lc.channel ++ " at ring depth " ++
        toString lc.ringDepth ++ ", but the contract fixes it at " ++ toString reserved.ringDepth)
    | none => none

def undeclaredInstance : Option String :=
  (doc.bound.find? fun (instanceId, _, _) => !doc.isDeclared instanceId).map fun (instanceId, port, channel) =>
    "bindings document binds " ++ instanceId ++ "/" ++ port ++ " on " ++ channel ++
      ", naming an instance absent from the component list"

def undeclaredChrome : Option String :=
  if doc.isDeclared doc.chromeInstance then none
  else some ("bindings document names chrome instance " ++ debugText doc.chromeInstance ++
    ", which is absent from the component list")

def halfSetFloor : Option String :=
  match doc.platform.errorChannel, doc.platform.errorReportFloor with
  | some _, some _ | none, none => none
  | some channel, none => some ("bindings document declares error channel " ++ channel ++ " with no report floor")
  | none, some floor =>
    some ("bindings document declares error report floor " ++ floor.asWireStr ++ " with no error channel")

def platformFault : Option String :=
  ([("geometry_channel", doc.platform.geometryChannel), ("status_channel", doc.platform.statusChannel)] ++
    doc.platform.errorChannel.toList.map fun channel => ("error_channel", channel)).findSome? fun (field, channel) =>
      if surfaceBindableAddress channel && !isLocalChannel channel then none
      else some ("bindings document names " ++ field ++ " " ++ debugText channel ++
        ", which is not a channel the kernel can publish across the wire")

def cadenceFault : Option String :=
  if statusIntervalSecsMin ≤ doc.platform.statusIntervalSecs ∧ doc.platform.statusIntervalSecs ≤ statusIntervalSecsMax then
    none
  else some ("bindings document declares status_interval_secs " ++ toString doc.platform.statusIntervalSecs ++
    ", outside " ++ toString statusIntervalSecsMin ++ "..=" ++ toString statusIntervalSecsMax)

/-- The structural rules, in the order the source reads them. -/
def validate : Except String Unit := do
  refuse doc.repeatedInstance
  refuse doc.unsortedVocabulary
  refuse doc.repeatedOutputPort
  refuse doc.repeatedInputPort
  refuse doc.undeclaredOutputPort
  refuse doc.repeatedLocalChannel
  refuse doc.unroutableChannel
  refuse doc.restatedPlane
  refuse doc.undeclaredInstance
  refuse doc.undeclaredChrome
  refuse doc.halfSetFloor
  refuse doc.platformFault
  refuse doc.cadenceFault

end BindingsDocument

/-! ### What a validated document guarantees -/

theorem firstRepeat_eq_none {α κ : Type} [DecidableEq κ] {key : α → κ} {seen : List κ} {items : List α} :
    firstRepeat key seen items = none ↔ (items.map key).Nodup ∧ ∀ item ∈ items, key item ∉ seen := by
  induction items generalizing seen with
  | nil => simp [firstRepeat]
  | cons item items ih =>
    by_cases repeated : key item ∈ seen
    · simp [firstRepeat, repeated]
    · simp only [firstRepeat, repeated, if_false, ih, List.map_cons, List.nodup_cons, List.mem_cons, List.mem_map,
        not_or, not_exists, not_and, forall_eq_or_imp, not_false_eq_true, true_and]
      constructor
      · rintro ⟨distinct, elsewhere⟩
        exact ⟨⟨fun other member => (elsewhere other member).1, distinct⟩, fun other member => (elsewhere other member).2⟩
      · rintro ⟨⟨fresh, distinct⟩, elsewhere⟩
        exact ⟨distinct, fun other member => ⟨fresh other member, elsewhere other member⟩⟩

namespace BindingsDocument

variable {doc : BindingsDocument}

/-- What later passes rest on: an output port is bound once, and to a channel a surface may bind. -/
structure WellFormed (doc : BindingsDocument) : Prop where
  outputs : (doc.outputs.map fun b => (b.instanceId, b.port)).Nodup
  bindable : ∀ b ∈ doc.outputs, surfaceBindableAddress b.channel = true

theorem refuse_eq_ok {fault : Option String} : refuse fault = .ok () ↔ fault = none := by
  cases fault <;> simp [refuse]

/-- A document is accepted exactly when no rule finds a fault. -/
theorem validate_eq_ok : doc.validate = .ok () ↔
    doc.repeatedInstance = none ∧ doc.unsortedVocabulary = none ∧ doc.repeatedOutputPort = none ∧
      doc.repeatedInputPort = none ∧ doc.undeclaredOutputPort = none ∧ doc.repeatedLocalChannel = none ∧
      doc.unroutableChannel = none ∧ doc.restatedPlane = none ∧ doc.undeclaredInstance = none ∧
      doc.undeclaredChrome = none ∧ doc.halfSetFloor = none ∧ doc.platformFault = none ∧ doc.cadenceFault = none := by
  have step : ∀ (fault : Option String) (rest : Except String Unit),
      (refuse fault >>= fun _ => rest) = .ok () ↔ fault = none ∧ rest = .ok () := by
    intro fault rest
    cases fault <;> simp [refuse, bind, Except.bind]
  unfold validate
  simp only [step, refuse_eq_ok]

theorem wellFormed_of_validate (accepted : doc.validate = .ok ()) : doc.WellFormed := by
  obtain ⟨-, -, noOutput, -, -, -, routable, -⟩ := validate_eq_ok.mp accepted
  rw [repeatedOutputPort, Option.map_eq_none_iff, firstRepeat_eq_none] at noOutput
  refine ⟨noOutput.1, fun b member => ?_⟩
  have clean : doc.channelFault b.channel = none :=
    List.findSome?_eq_none_iff.mp routable _ (List.mem_append_right _ (List.mem_map_of_mem member))
  unfold channelFault at clean
  by_contra unbindable
  rw [if_pos (Bool.eq_false_of_not_eq_true unbindable)] at clean
  cases clean

end BindingsDocument

/-! ### The kernel's reading -/

/-- The page is a 32-bit build. -/
def usizeMax : Nat := 2 ^ 32 - 1

/-- A document in force. Its tables are functions of the document here; the source caches them. -/
structure AppliedBindings where
  body : String
  doc : BindingsDocument
  valid : doc.validate = .ok ()

namespace AppliedBindings

variable (bindings : AppliedBindings)

theorem wellFormed : bindings.doc.WellFormed := BindingsDocument.wellFormed_of_validate bindings.valid

def component (instanceId : String) : Option ComponentEntry :=
  bindings.doc.components.find? fun component => component.instanceId = instanceId

def output (instanceId port : String) : Option OutputBinding :=
  bindings.doc.outputs.find? fun b => b.instanceId = instanceId && b.port = port

def outputsOf (instanceId : String) : List OutputBinding :=
  bindings.doc.outputs.filter fun b => b.instanceId = instanceId

/-- The port vocabulary an instance's component declares; an undeclared instance has none, and
    the source panics. -/
def declaredOutPorts (instanceId : String) : Option (List String) :=
  (bindings.component instanceId).map ComponentEntry.declaredOutPorts

def inputsOf (instanceId : String) : List Binding :=
  bindings.doc.subscriptions.filter fun b => b.instanceId = instanceId

/-- A channel's router entry and every window bound to it. Absent for a channel the document does not mention. -/
def statedDepth (channel : String) : Option Nat :=
  match (bindings.doc.localChannels.filter fun lc => lc.channel = channel).map LocalChannel.ringDepth ++
      (bindings.doc.subscriptions.filter fun b => b.channel = channel).map fun b => max b.pushDepth b.retainDepth with
  | [] => none
  | stated => some (stated.foldl max 0)

def storeDepth (channel : String) : Option Nat :=
  (bindings.statedDepth channel).map fun depth =>
    match reservedLocalChannel channel with
    | some reserved => max depth reserved.ringDepth
    | none => depth

def storeChannels : List String :=
  bindings.doc.localChannels.map LocalChannel.channel ++ bindings.doc.subscriptions.map Binding.channel

def storeDepths : TreeMap String Nat :=
  bindings.storeChannels.foldl (fun table channel => table.insert channel ((bindings.storeDepth channel).getD 0)) ∅

end AppliedBindings

end Brenn.Surface
