import Brenn.Lib.Run
import Brenn.Mqtt.Session

/-!
Filter edits while a session is restarted.

A restart registers the successor's handle first, with an empty filter set, then claims the set,
waits for the predecessor to end, copies its filters and lets go. An edit of the predecessor is
inherited or done again, and one of a claimed set waits for the copy. A set that is registered and
not yet claimed takes the edit and is overwritten.
-/

namespace Brenn.Mqtt
open Brenn.Lib Std

/-! ### Edits -/

inductive FilterEdit where
  | subscribe (qos : Nat)
  | unsubscribe
  deriving Repr, DecidableEq

namespace FilterEdit

/-- What an edit makes of the qos a filter is held at. A filter that is held keeps its qos. -/
def apply : FilterEdit → Option Nat → Option Nat
  | .subscribe qos, held => some (held.getD qos)
  | .unsubscribe, _ => none

/-- The edit of one handle's set; `none` is the assertion on the qos. -/
def perform (edit : FilterEdit) (topicFilter : String) (subscriptions : List IngressSubscription) :
    Option (List IngressSubscription) :=
  match edit with
  | .subscribe qos => addSubscription subscriptions topicFilter qos
  | .unsubscribe => some (removeSubscription subscriptions topicFilter)

theorem apply_apply (edit : FilterEdit) (held : Option Nat) : edit.apply (edit.apply held) = edit.apply held := by
  cases edit <;> rfl

theorem qosOf_perform {edit : FilterEdit} {topicFilter : String} {subscriptions next : List IngressSubscription}
    (performed : edit.perform topicFilter subscriptions = some next) (other : String) :
    qosOf next other =
      if other = topicFilter then edit.apply (qosOf subscriptions topicFilter) else qosOf subscriptions other := by
  cases edit with
  | unsubscribe =>
    obtain rfl := Option.some.inj performed
    exact qosOf_remove subscriptions topicFilter other
  | subscribe qos =>
    have agrees : (FilterEdit.subscribe qos).apply (qosOf subscriptions topicFilter) = some qos := by
      rw [FilterEdit.perform, addSubscription_eq] at performed
      cases held : qosOf subscriptions topicFilter with
      | none => rfl
      | some present =>
        rw [held] at performed
        obtain ⟨same, -⟩ : present = qos ∧ _ := by simpa using performed
        exact congrArg some same
    rw [agrees]
    exact qosOf_add performed other

/-- An edit that panics is one that would leave the filter as it is, wherever it is made. -/
theorem apply_of_panics {edit : FilterEdit} {topicFilter : String} {subscriptions : List IngressSubscription}
    (panics : edit.perform topicFilter subscriptions = none) {held : Option Nat}
    (same : edit.apply held = edit.apply (qosOf subscriptions topicFilter)) : edit.apply held = held := by
  cases edit with
  | unsubscribe => simp [perform] at panics
  | subscribe qos =>
    rw [perform, addSubscription_eq] at panics
    cases present : qosOf subscriptions topicFilter with
    | none => simp [present] at panics
    | some other =>
      have apart : other ≠ qos := by simpa [present] using panics
      cases held with
      | some held => rfl
      | none =>
        rw [present] at same
        exact absurd (Option.some.inj same).symm apart

end FilterEdit

/-! ### Filter sets without repetitions -/

/-- No filter is held twice, and no two entries have one identifier. -/
structure Ordered (subscriptions : List IngressSubscription) : Prop where
  filters : (subscriptions.map (·.topicFilter)).Nodup
  ids : (subscriptions.map (·.subId)).Nodup

def Roomy (subscriptions : List IngressSubscription) : Prop := ∀ held ∈ subscriptions, held.subId + 1 < 2 ^ 32

instance (subscriptions : List IngressSubscription) : Decidable (Roomy subscriptions) :=
  inferInstanceAs (Decidable (∀ held ∈ subscriptions, held.subId + 1 < 2 ^ 32))

theorem ordered_nil : Ordered [] := ⟨List.nodup_nil, List.nodup_nil⟩

theorem subId_lt_next {subscriptions : List IngressSubscription} (roomy : Roomy subscriptions) {held : IngressSubscription}
    (member : held ∈ subscriptions) : held.subId < nextSubId subscriptions := by
  have inside : held.subId ∈ subscriptions.map (·.subId) := List.mem_map_of_mem member
  obtain ⟨top, greatest⟩ := Option.isSome_iff_exists.mp (List.isSome_max?_of_mem inside)
  obtain ⟨attained, bound⟩ := List.max?_eq_some_iff.mp greatest
  obtain ⟨largest, among, named⟩ := List.mem_map.mp attained
  have room := roomy largest among
  have below := bound held.subId inside
  rw [nextSubId, greatest, Option.getD_some, Nat.mod_eq_of_lt (by omega)]
  omega

theorem Ordered.perform {edit : FilterEdit} {topicFilter : String} {subscriptions next : List IngressSubscription}
    (ordered : Ordered subscriptions) (roomy : Roomy subscriptions)
    (performed : edit.perform topicFilter subscriptions = some next) : Ordered next := by
  cases edit with
  | unsubscribe =>
    obtain rfl := Option.some.inj performed
    have fewer : (removeSubscription subscriptions topicFilter).Sublist subscriptions := List.filter_sublist
    exact ⟨ordered.filters.sublist (fewer.map _), ordered.ids.sublist (fewer.map _)⟩
  | subscribe qos =>
    rw [FilterEdit.perform, addSubscription_eq] at performed
    cases held : qosOf subscriptions topicFilter with
    | some present =>
      rw [held] at performed
      obtain ⟨-, rfl⟩ : present = qos ∧ subscriptions = next := by simpa using performed
      exact ordered
    | none =>
      rw [held] at performed
      obtain rfl := Option.some.inj performed
      have absent := qosOf_eq_none.mp held
      refine ⟨?_, ?_⟩
      · rw [List.map_append, List.map_singleton]
        refine List.nodup_append.mpr ⟨ordered.filters, List.nodup_singleton _, ?_⟩
        rintro filter member other same rfl
        obtain ⟨entry, inside, named⟩ := List.mem_map.mp member
        exact absent entry inside (named.trans (List.mem_singleton.mp same))
      · rw [List.map_append, List.map_singleton]
        refine List.nodup_append.mpr ⟨ordered.ids, List.nodup_singleton _, ?_⟩
        rintro subId member other same rfl
        obtain ⟨entry, inside, named⟩ := List.mem_map.mp member
        have less := subId_lt_next roomy inside
        rw [named, List.mem_singleton.mp same] at less
        exact Nat.lt_irrefl _ less

/-! ### Sessions -/

def maxRetargets : Nat := 8

/-- `none` is the panic of an edit that has been re-aimed too often. -/
def retargetOnSwap (attempts : Nat) : Option Nat := if attempts + 1 ≤ maxRetargets then some (attempts + 1) else none

/-- What an edit does next. Handles are numbered in the order in which they are registered. -/
inductive EditStage where
  | resolving
  | editing (handle : Nat)
  | checking (handle : Nat)
  deriving Repr, DecidableEq

def EditStage.edits : EditStage → Option Nat
  | .editing handle => some handle
  | .resolving | .checking _ => none

structure EditCall where
  edit : FilterEdit
  stage : EditStage
  attempts : Nat
  deriving Repr, DecidableEq

inductive Handover where
  | idle
  | registered
  | claimed
  | joined
  | copied (subscriptions : List IngressSubscription)
  deriving Repr, DecidableEq

def Handover.guards : Handover → Bool
  | .idle | .registered => false
  | .claimed | .joined | .copied _ => true

structure Sessions where
  subscriptions : Nat → List IngressSubscription
  current : Nat
  handover : Handover
  /-- The calls that have not returned, by their filter. -/
  calls : TreeMap String EditCall

inductive SessionEvent where
  | call (topicFilter : String) (edit : FilterEdit)
  | advance (topicFilter : String)
  /-- The next step of the restart under way, or a new restart. -/
  | restart
  deriving Repr, DecidableEq

namespace Sessions

variable (sessions : Sessions)

def setCall (topicFilter : String) (call : EditCall) : Sessions :=
  { sessions with calls := sessions.calls.insert topicFilter call }

def endCall (topicFilter : String) : Sessions := { sessions with calls := sessions.calls.erase topicFilter }

def advance (topicFilter : String) (call : EditCall) : Sessions :=
  match call.stage with
  | .resolving => sessions.setCall topicFilter { call with stage := .editing sessions.current }
  | .editing handle =>
    -- The write waits while the restart holds the set.
    if handle = sessions.current ∧ sessions.handover.guards = true then sessions
    else
      match call.edit.perform topicFilter (sessions.subscriptions handle) with
      | none => sessions.endCall topicFilter
      | some subscriptions =>
        ({ sessions with
            subscriptions := Function.update sessions.subscriptions handle subscriptions } : Sessions).setCall topicFilter
          { call with stage := .checking handle }
  | .checking handle =>
    if handle = sessions.current then sessions.endCall topicFilter
    else
      match retargetOnSwap call.attempts with
      | none => sessions.endCall topicFilter
      | some attempts => sessions.setCall topicFilter { call with stage := .resolving, attempts := attempts }

/-- `register_and_spawn` with a predecessor. -/
def restart : Sessions :=
  match sessions.handover with
  | .idle =>
    { sessions with
      subscriptions := Function.update sessions.subscriptions (sessions.current + 1) []
      current := sessions.current + 1
      handover := .registered }
  | .registered => { sessions with handover := .claimed }
  | .claimed => { sessions with handover := .joined }
  | .joined => { sessions with handover := .copied (sessions.subscriptions (sessions.current - 1)) }
  | .copied subscriptions =>
    { sessions with
      subscriptions := Function.update sessions.subscriptions sessions.current subscriptions
      handover := .idle }

def step : SessionEvent → Option Sessions
  | .call topicFilter edit => some (sessions.setCall topicFilter ⟨edit, .resolving, 0⟩)
  | .advance topicFilter => some (sessions.calls[topicFilter]?.elim sessions (sessions.advance topicFilter))
  | .restart => some sessions.restart

/-- Calls on one filter do not overlap, and the session is restarted fewer than `maxRetargets` times. -/
def Admits : SessionEvent → Prop
  | .call topicFilter _ => sessions.calls[topicFilter]? = none
  | .advance _ => True
  | .restart => sessions.handover = .idle → sessions.current + 1 < maxRetargets

/-- No edit is made to a set that is registered and not yet claimed, and no identifier wraps around. -/
def Clear : SessionEvent → Prop
  | .advance topicFilter => ∀ call ∈ sessions.calls[topicFilter]?, ∀ handle ∈ call.stage.edits,
    (handle = sessions.current → sessions.handover ≠ .registered) ∧ Roomy (sessions.subscriptions handle)
  | .call .. | .restart => True

instance (event : SessionEvent) : Decidable (sessions.Admits event) :=
  match event with
  | .call topicFilter _ =>
    decidable_of_iff (sessions.calls[topicFilter]?.isNone = true) Option.isNone_iff_eq_none
  | .advance _ => inferInstanceAs (Decidable True)
  | .restart => inferInstanceAs (Decidable (sessions.handover = .idle → sessions.current + 1 < maxRetargets))

instance (event : SessionEvent) : Decidable (sessions.Clear event) :=
  match event with
  | .advance topicFilter =>
    inferInstanceAs (Decidable (∀ call ∈ sessions.calls[topicFilter]?, ∀ handle ∈ call.stage.edits,
      (handle = sessions.current → sessions.handover ≠ .registered) ∧ Roomy (sessions.subscriptions handle)))
  | .call .. | .restart => inferInstanceAs (Decidable True)

end Sessions

/-! ### The set in force -/

/-- What the filters should be held at, after a call more. -/
def SessionEvent.follow (targets : String → Option Nat) : SessionEvent → String → Option Nat
  | .call topicFilter edit => Function.update targets topicFilter (edit.apply (targets topicFilter))
  | .advance _ | .restart => targets

namespace Sessions

variable (sessions : Sessions)

/-- The set that the next handle takes over: the predecessor's until it has been copied. -/
def authority : List IngressSubscription :=
  match sessions.handover with
  | .idle => sessions.subscriptions sessions.current
  | .registered | .claimed | .joined => sessions.subscriptions (sessions.current - 1)
  | .copied subscriptions => subscriptions

/-- A handle whose set is not about to be overwritten. -/
def Settled (handle : Nat) : Prop := handle < sessions.current ∨ sessions.handover = .idle

/-- What an edit under way can count on: wherever it looks next, making it gives what it should. -/
structure OnCourse (target : Option Nat) (topicFilter : String) (call : EditCall) : Prop where
  applies : call.edit.apply (qosOf sessions.authority topicFilter) = target
  resolving : call.stage = .resolving → call.attempts ≤ sessions.current
  editing : ∀ handle, call.stage = .editing handle → handle ≤ sessions.current ∧ call.attempts ≤ handle ∧
    (sessions.Settled handle → call.edit.apply (qosOf (sessions.subscriptions handle) topicFilter) = target)
  checking : ∀ handle, call.stage = .checking handle → handle ≤ sessions.current ∧ call.attempts ≤ handle ∧
    (handle = sessions.current → sessions.handover = .idle ∧
      qosOf (sessions.subscriptions handle) topicFilter = target)

structure Sound (targets : String → Option Nat) (sessions : Sessions) : Prop where
  ordered : ∀ handle, Ordered (sessions.subscriptions handle)
  copied : ∀ subscriptions, sessions.handover = .copied subscriptions → Ordered subscriptions
  few : sessions.current < maxRetargets
  quiet : ∀ topicFilter : String, sessions.calls[topicFilter]? = none →
    qosOf sessions.authority topicFilter = targets topicFilter
  working : ∀ (topicFilter : String) call, sessions.calls[topicFilter]? = some call →
    sessions.OnCourse (targets topicFilter) topicFilter call

variable {sessions} {targets : String → Option Nat}

/-! ### What the steps keep -/

theorem OnCourse.moves {next : Sessions} {target : Option Nat} {topicFilter : String} {call : EditCall}
    (course : sessions.OnCourse target topicFilter call)
    (applies : call.edit.apply (qosOf next.authority topicFilter) = target) (later : sessions.current ≤ next.current)
    (editing : ∀ handle, call.stage = .editing handle → next.Settled handle →
      call.edit.apply (qosOf (next.subscriptions handle) topicFilter) = target)
    (checking : ∀ handle, call.stage = .checking handle → handle = next.current →
      next.handover = .idle ∧ qosOf (next.subscriptions handle) topicFilter = target) :
    next.OnCourse target topicFilter call := by
  refine ⟨applies, fun stage => (course.resolving stage).trans later, fun handle stage => ?_, fun handle stage => ?_⟩
  · obtain ⟨known, tries, -⟩ := course.editing handle stage
    exact ⟨known.trans later, tries, editing handle stage⟩
  · obtain ⟨known, tries, -⟩ := course.checking handle stage
    exact ⟨known.trans later, tries, checking handle stage⟩

/-- Calls are judged by the handles alone. -/
theorem OnCourse.withCalls {target : Option Nat} {topicFilter : String} {call : EditCall}
    (course : sessions.OnCourse target topicFilter call) (calls : TreeMap String EditCall) :
    OnCourse { sessions with calls := calls } target topicFilter call :=
  course.moves course.applies le_rfl (fun handle stage => (course.editing handle stage).2.2)
    fun handle stage => (course.checking handle stage).2.2

theorem Sound.setCall (sound : Sound targets sessions) {topicFilter : String} {call : EditCall} {target : Option Nat}
    (course : sessions.OnCourse target topicFilter call) :
    Sound (Function.update targets topicFilter target) (sessions.setCall topicFilter call) := by
  refine ⟨sound.ordered, sound.copied, sound.few, fun other absent => ?_, forall_lookup_insert ?_ ?_⟩
  · dsimp only [Sessions.setCall] at absent
    rw [lookup_insert] at absent
    split at absent
    · simp at absent
    · next apart =>
      rw [Function.update_of_ne (Ne.symm apart)]
      exact sound.quiet other absent
  · rw [Function.update_self]
    exact course.withCalls _
  · intro other held apart found
    rw [Function.update_of_ne (Ne.symm apart)]
    exact (sound.working other held found).withCalls _

theorem Sound.endCall (sound : Sound targets sessions) {topicFilter : String}
    (done : qosOf sessions.authority topicFilter = targets topicFilter) :
    Sound targets (sessions.endCall topicFilter) := by
  refine ⟨sound.ordered, sound.copied, sound.few, fun other absent => ?_, fun other held found => ?_⟩
  · dsimp only [Sessions.endCall] at absent
    rw [lookup_erase] at absent
    split at absent
    · next same => exact same ▸ done
    · exact sound.quiet other absent
  · exact (sound.working other held (lookup_of_erase found)).withCalls _

/-- Writing one handle's set changes the set in force only if it is that one. -/
theorem authority_write (sessions : Sessions) (handle : Nat) (written : List IngressSubscription) :
    let next : Sessions := { sessions with subscriptions := Function.update sessions.subscriptions handle written }
    next.authority = sessions.authority ∨
      sessions.authority = sessions.subscriptions handle ∧ next.authority = written := by
  have at_ (place : Nat) : Function.update sessions.subscriptions handle written place = sessions.subscriptions place ∨
      sessions.subscriptions place = sessions.subscriptions handle ∧
        Function.update sessions.subscriptions handle written place = written := by
    by_cases same : place = handle
    · subst same
      exact .inr ⟨rfl, Function.update_self ..⟩
    · exact .inl (Function.update_of_ne same ..)
  unfold Sessions.authority
  cases sessions.handover with
  | idle => exact at_ _
  | registered => exact at_ _
  | claimed => exact at_ _
  | joined => exact at_ _
  | copied subscriptions => exact .inl rfl

theorem Sound.writes (sound : Sound targets sessions) {topicFilter : String} {call : EditCall} {handle : Nat}
    (held : sessions.calls[topicFilter]? = some call) (stage : call.stage = .editing handle)
    (settled : sessions.Settled handle) (roomy : Roomy (sessions.subscriptions handle))
    {written : List IngressSubscription}
    (performed : call.edit.perform topicFilter (sessions.subscriptions handle) = some written) :
    Sound targets { sessions with subscriptions := Function.update sessions.subscriptions handle written } := by
  let next : Sessions := { sessions with subscriptions := Function.update sessions.subscriptions handle written }
  have course := sound.working topicFilter call held
  have here : qosOf written topicFilter = targets topicFilter := by
    rw [FilterEdit.qosOf_perform performed, if_pos rfl]
    exact (course.editing handle stage).2.2 settled
  have elsewhere (other : String) (apart : other ≠ topicFilter) :
      qosOf written other = qosOf (sessions.subscriptions handle) other := by
    rw [FilterEdit.qosOf_perform performed, if_neg apart]
  have read (place : Nat) (other : String) (apart : other ≠ topicFilter) :
      qosOf (next.subscriptions place) other = qosOf (sessions.subscriptions place) other := by
    by_cases same : place = handle
    · subst same
      rw [show next.subscriptions place = written from Function.update_self ..]
      exact elsewhere other apart
    · rw [show next.subscriptions place = sessions.subscriptions place from Function.update_of_ne same ..]
  have inForce (other : String) (apart : other ≠ topicFilter) :
      qosOf next.authority other = qosOf sessions.authority other := by
    obtain same | ⟨was, is⟩ := authority_write sessions handle written
    · rw [same]
    · rw [is, was]
      exact elsewhere other apart
  -- The target is what the edit gives, so making the edit once more gives it again.
  have again : call.edit.apply (targets topicFilter) = targets topicFilter := by
    rw [← course.applies, FilterEdit.apply_apply]
  refine ⟨fun place => ?_, sound.copied, sound.few, fun other absent => ?_, fun other working found => ?_⟩
  · dsimp only
    by_cases same : place = handle
    · subst same
      rw [Function.update_self]
      exact (sound.ordered place).perform roomy performed
    · rw [Function.update_of_ne same]
      exact sound.ordered place
  · have apart : other ≠ topicFilter := by
      rintro rfl
      exact absurd (absent.symm.trans held) (by simp)
    exact (inForce other apart).trans (sound.quiet other absent)
  · by_cases same : other = topicFilter
    · subst same
      obtain rfl := Option.some.inj (found.symm.trans held)
      refine course.moves ?_ le_rfl (fun place at_ _ => ?_) fun place at_ => ?_
      · obtain same | ⟨-, is⟩ := authority_write sessions handle written
        · rw [same]
          exact course.applies
        · rw [is, here]
          exact again
      · obtain rfl : place = handle := by simpa [stage] using at_.symm
        dsimp only
        rw [Function.update_self, here]
        exact again
      · simp [stage] at at_
    · have own := sound.working other working found
      refine own.moves ?_ le_rfl (fun place at_ stays => ?_) fun place at_ now => ?_
      · rw [inForce other same]
        exact own.applies
      · rw [read place other same]
        exact (own.editing place at_).2.2 stays
      · rw [read place other same]
        exact (own.checking place at_).2.2 now

theorem authority_idle (idle : sessions.handover = .idle) :
    sessions.authority = sessions.subscriptions sessions.current := by
  rw [Sessions.authority, idle]

theorem advance_sound (sound : Sound targets sessions) {topicFilter : String} {call : EditCall}
    (held : sessions.calls[topicFilter]? = some call) (clear : sessions.Clear (.advance topicFilter)) :
    Sound targets (sessions.advance topicFilter call) := by
  have course := sound.working topicFilter call held
  have setCall {next : Sessions} (kept : Sound targets next) {moved : EditCall}
      (onCourse : next.OnCourse (targets topicFilter) topicFilter moved) :
      Sound targets (next.setCall topicFilter moved) := by
    have set_ := kept.setCall onCourse
    rwa [Function.update_eq_self] at set_
  unfold Sessions.advance
  cases stage : call.stage with
  | resolving =>
    refine setCall sound ⟨course.applies, by simp, fun handle at_ => ?_, by simp⟩
    obtain rfl : sessions.current = handle := by simpa using at_
    refine ⟨le_rfl, course.resolving stage, fun settled => ?_⟩
    rw [← authority_idle (settled.resolve_left (lt_irrefl _))]
    exact course.applies
  | editing handle =>
    dsimp only
    split
    · exact sound
    · next free =>
      obtain ⟨known, tries, applies⟩ := course.editing handle stage
      obtain ⟨claimed, roomy⟩ := clear call held handle (by rw [stage]; rfl)
      have settled : sessions.Settled handle := by
        obtain less | rfl := Nat.lt_or_eq_of_le known
        · exact .inl less
        · right
          cases during : sessions.handover with
          | idle => rfl
          | registered => exact absurd during (claimed rfl)
          | claimed | joined | copied => exact absurd ⟨rfl, by rw [during]; rfl⟩ free
      cases performed : call.edit.perform topicFilter (sessions.subscriptions handle) with
      | none =>
        refine sound.endCall ?_
        have same := course.applies.trans (applies settled).symm
        rw [← FilterEdit.apply_of_panics performed same]
        exact course.applies
      | some written =>
        have wrote := sound.writes held stage settled roomy performed
        refine setCall wrote ⟨(wrote.working topicFilter call held).applies, by simp, by simp, fun place at_ => ?_⟩
        obtain rfl : handle = place := by simpa using at_
        refine ⟨known, tries, fun now => ⟨settled.resolve_left (by rw [now]; exact lt_irrefl _), ?_⟩⟩
        dsimp only
        rw [Function.update_self, FilterEdit.qosOf_perform performed, if_pos rfl]
        exact applies settled
  | checking handle =>
    dsimp only
    obtain ⟨known, tries, finished⟩ := course.checking handle stage
    split
    · next now =>
      obtain ⟨idle, done⟩ := finished now
      refine sound.endCall ?_
      rw [authority_idle idle, ← now]
      exact done
    · next swapped =>
      have less := Nat.lt_of_le_of_ne known swapped
      have few := sound.few
      rw [retargetOnSwap, if_pos (by omega)]
      refine setCall sound ⟨course.applies, fun _ => ?_, by simp, by simp⟩
      dsimp only
      omega

theorem restart_sound (sound : Sound targets sessions)
    (admits : sessions.handover = .idle → sessions.current + 1 < maxRetargets) : Sound targets sessions.restart := by
  unfold Sessions.restart
  -- A restart that goes on without touching a set: the set in force and the settled handles are as they were.
  have goesOn {handover : Handover} (during : sessions.handover ≠ .idle) (still : handover ≠ .idle)
      (authority : Sessions.authority { sessions with handover := handover } = sessions.authority)
      (copied : ∀ subscriptions, handover = .copied subscriptions → Ordered subscriptions) :
      Sound targets { sessions with handover := handover } := by
    refine ⟨sound.ordered, copied, sound.few, fun other absent => ?_, fun other call found => ?_⟩
    · rw [authority]
      exact sound.quiet other absent
    · have own := sound.working other call found
      refine own.moves ?_ le_rfl (fun place at_ settled => ?_) fun place at_ now => ?_
      · rw [authority]
        exact own.applies
      · exact (own.editing place at_).2.2 (.inl (settled.resolve_right still))
      · exact absurd ((own.checking place at_).2.2 now).1 during
  cases during : sessions.handover with
  | idle =>
    let next : Sessions :=
      { sessions with
        subscriptions := Function.update sessions.subscriptions (sessions.current + 1) []
        current := sessions.current + 1
        handover := .registered }
    have before (place : Nat) (known : place ≤ sessions.current) :
        next.subscriptions place = sessions.subscriptions place :=
      Function.update_of_ne (by omega) ..
    have authority : next.authority = sessions.authority := by
      rw [authority_idle during]
      exact before sessions.current le_rfl
    refine ⟨fun place => ?_, by simp, admits during, fun other absent => ?_, fun other call found => ?_⟩
    · dsimp only
      by_cases new : place = sessions.current + 1
      · rw [new, Function.update_self]
        exact ordered_nil
      · rw [Function.update_of_ne new]
        exact sound.ordered place
    · exact (congrArg (qosOf · other) authority).trans (sound.quiet other absent)
    · have own := sound.working other call found
      show next.OnCourse _ _ _
      refine own.moves ?_ (Nat.le_succ _) (fun place at_ _ => ?_) fun place at_ now => ?_
      · rw [authority]
        exact own.applies
      · obtain ⟨known, -, applies⟩ := own.editing place at_
        rw [before place known]
        exact applies (.inr during)
      · have known := (own.checking place at_).1
        exact absurd (now ▸ known) (Nat.not_succ_le_self _)
  | registered =>
    exact goesOn (by simp [during]) (by simp) (by simp [Sessions.authority, during]) (by simp)
  | claimed =>
    exact goesOn (by simp [during]) (by simp) (by simp [Sessions.authority, during]) (by simp)
  | joined =>
    refine goesOn (by simp [during]) (by simp) (by simp [Sessions.authority, during]) fun subscriptions same => ?_
    rw [← Handover.copied.inj same]
    exact sound.ordered _
  | copied subscriptions =>
    have inForce : sessions.authority = subscriptions := by rw [Sessions.authority, during]
    let next : Sessions :=
      { sessions with
        subscriptions := Function.update sessions.subscriptions sessions.current subscriptions
        handover := .idle }
    have now : next.subscriptions next.current = subscriptions := Function.update_self ..
    have authority : next.authority = sessions.authority := by rw [authority_idle rfl, now, inForce]
    refine ⟨fun place => ?_, by simp, sound.few, fun other absent => ?_, fun other call found => ?_⟩
    · dsimp only
      by_cases new : place = sessions.current
      · rw [new, Function.update_self]
        exact sound.copied subscriptions during
      · rw [Function.update_of_ne new]
        exact sound.ordered place
    · exact (congrArg (qosOf · other) authority).trans (sound.quiet other absent)
    · have own := sound.working other call found
      show next.OnCourse _ _ _
      refine own.moves ?_ le_rfl (fun place at_ _ => ?_) fun place at_ same => ?_
      · rw [authority]
        exact own.applies
      · obtain ⟨known, -, applies⟩ := own.editing place at_
        obtain less | rfl := Nat.lt_or_eq_of_le known
        · rw [show next.subscriptions place = sessions.subscriptions place from Function.update_of_ne (by omega) ..]
          exact applies (.inl less)
        · rw [show next.subscriptions sessions.current = subscriptions from now, ← inForce]
          exact own.applies
      · exact absurd (((own.checking place at_).2.2 same).1.symm.trans during) (by simp)

theorem step_sound (sound : Sound targets sessions) {event : SessionEvent}
    (admits : sessions.Admits event) (clear : sessions.Clear event) :
    ∃ next, sessions.step event = some next ∧ Sound (event.follow targets) next := by
  cases event with
  | call topicFilter edit =>
    refine ⟨_, rfl, sound.setCall ⟨?_, fun _ => Nat.zero_le _, by simp, by simp⟩⟩
    dsimp only
    rw [sound.quiet topicFilter admits]
  | advance topicFilter =>
    refine ⟨_, rfl, ?_⟩
    cases held : sessions.calls[topicFilter]? with
    | none => exact sound
    | some call => exact advance_sound sound held clear
  | restart => exact ⟨_, rfl, restart_sound sound admits⟩

def opened (subscriptions : List IngressSubscription) : Sessions := ⟨fun _ => subscriptions, 0, .idle, ∅⟩

/-- If no edit is made to a set that is registered and not yet claimed, then once all calls and restarts
    have finished the registered handle holds what the calls, one after the other on each filter, make of
    the first set. -/
theorem edits_survive_restarts (initial : List IngressSubscription) (ordered : Ordered initial)
    (events : List SessionEvent)
    (clear : Along Sessions.step (fun sessions event => sessions.Admits event ∧ sessions.Clear event) (opened initial)
      events) :
    ∃ reached, run Sessions.step (opened initial) events = some reached ∧
      (reached.handover = .idle → reached.calls.isEmpty = true →
        (∀ topicFilter, qosOf (reached.subscriptions reached.current) topicFilter =
          events.foldl SessionEvent.follow (qosOf initial) topicFilter) ∧
        Ordered (reached.subscriptions reached.current)) := by
  have begins : Sound (qosOf initial) (opened initial) := by
    refine ⟨fun _ => ordered, by simp [opened], by simp [opened, maxRetargets], fun _ _ => rfl, ?_⟩
    simp [opened]
  have progress : ∀ targets sessions event, Sound targets sessions → sessions.Admits event ∧ sessions.Clear event →
      ∃ next, sessions.step event = some next ∧ Sound (event.follow targets) next :=
    fun _ _ _ sound both => step_sound sound both.1 both.2
  obtain ⟨reached, ran, sound⟩ := run_tracks progress begins clear
  refine ⟨reached, ran, fun idle finished => ⟨fun topicFilter => ?_, sound.ordered _⟩⟩
  rw [← authority_idle idle]
  refine sound.quiet topicFilter ?_
  exact TreeMap.getElem?_of_isEmpty finished

/-! ### A door is added and a lamp given up -/

private def lampOnly : List IngressSubscription := [⟨"lamp", 1, 1⟩]

private theorem lampOnly_ordered : Ordered lampOnly := ⟨by decide, by decide⟩

private def addDoor : SessionEvent := .call "door" (.subscribe 0)

private def giveUpLamp : SessionEvent := .call "lamp" .unsubscribe

private def aroundHandover : List SessionEvent :=
  [addDoor, .advance "door", .restart, .advance "door", giveUpLamp, .advance "lamp", .restart, .advance "door",
    .advance "lamp", .restart, .restart, .restart, .advance "lamp", .advance "door", .advance "door", .advance "door",
    .advance "lamp"]

/-- One edit is made to the predecessor and made again, one waits for the copy. -/
theorem edits_around_handover : Ordered lampOnly ∧
    ∃ reached, run Sessions.step (opened lampOnly) aroundHandover = some reached ∧
      (∀ topicFilter, qosOf (reached.subscriptions reached.current) topicFilter =
        aroundHandover.foldl SessionEvent.follow (qosOf lampOnly) topicFilter) ∧
      Ordered (reached.subscriptions reached.current) := by
  obtain ⟨reached, ran, finished⟩ : ∃ reached, run Sessions.step (opened lampOnly) aroundHandover = some reached ∧
      decide (reached.handover = .idle ∧ reached.calls.isEmpty = true) = true :=
    Option.map_eq_some_iff.mp (by decide +kernel)
  obtain ⟨final, same, holds⟩ := edits_survive_restarts lampOnly lampOnly_ordered aroundHandover (by decide +kernel)
  obtain rfl := Option.some.inj (ran.symm.trans same)
  obtain ⟨idle, empty⟩ := of_decide_eq_true finished
  exact ⟨lampOnly_ordered, reached, ran, holds idle empty⟩

private def beforeClaim : List SessionEvent :=
  [.restart, addDoor, .advance "door", .advance "door", .advance "door", giveUpLamp, .advance "lamp", .advance "lamp",
    .advance "lamp", .restart, .restart, .restart, .restart]

/-- Edits made between the registration of the successor and the claim of its set are lost: the door is
    not there and the lamp has come back. -/
theorem unclaimed_set_loses_edits : Ordered lampOnly ∧
    Along Sessions.step Sessions.Admits (opened lampOnly) beforeClaim ∧
    beforeClaim.foldl SessionEvent.follow (qosOf lampOnly) "door" = some 0 ∧
    beforeClaim.foldl SessionEvent.follow (qosOf lampOnly) "lamp" = none ∧
    ∃ reached, run Sessions.step (opened lampOnly) beforeClaim = some reached ∧ reached.handover = .idle ∧
      reached.calls.isEmpty = true ∧ reached.subscriptions reached.current = lampOnly := by
  refine ⟨lampOnly_ordered, by decide +kernel, by decide +kernel, by decide +kernel, ?_⟩
  obtain ⟨reached, ran, facts⟩ : ∃ reached, run Sessions.step (opened lampOnly) beforeClaim = some reached ∧
      decide (reached.handover = .idle ∧ reached.calls.isEmpty = true ∧
        reached.subscriptions reached.current = lampOnly) = true :=
    Option.map_eq_some_iff.mp (by decide +kernel)
  exact ⟨reached, ran, of_decide_eq_true facts⟩

end Sessions

end Brenn.Mqtt
