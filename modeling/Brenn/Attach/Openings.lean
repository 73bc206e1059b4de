import Brenn.Lib.Run
import Brenn.Attach.Subscriptions

/-!
Which cursors open a live subscription.

Beside the plane a run keeps, for each channel, the claim on the last `Subscribe` sent and
the cursors recorded since the last release to zero. The cursor of an entry goes with its last
holder, but a claim already on the wire does not.
-/

namespace Brenn.Attach
open Brenn.Lib Std

universe u v w

inductive PlaneEvent (C : Type u) (M : Type v) (κ : Type w) where
  | acquire (channel : C) (depths : SubscriptionDepths) (resumePolicy : ResumePolicy)
  | release (channel : C)
  | goLive
  | resubscribeSurvivors
  | onAttached
  | onDetached
  | onSubscribeResult (channel : C) (outcome : SubscribeOutcome) (replayCount : Nat) (gap : Option GapInfo)
  | onDeliver (channel : C) (rows : List (DeliverRow M κ))

/-- A subscription that went live, and the cursors recorded since the last release to zero. -/
structure Opening (C : Type u) (κ : Type w) where
  channel : C
  resume : Option κ
  recorded : List κ
  deriving Repr, DecidableEq

/-- The cursor it was opened with, if any, was recorded for the holders it serves. -/
def Opening.Current {C : Type u} {κ : Type w} (opening : Opening C κ) : Prop :=
  ∀ cursor, opening.resume = some cursor → cursor ∈ opening.recorded

structure Plane (C : Type u) (κ : Type w) [LinearOrder C] where
  subs : Subscriptions C κ
  asked : C → Option κ
  recorded : C → List κ
  openings : List (Opening C κ)

variable {C : Type u} {M : Type v} {κ : Type w} [LinearOrder C]

/-- The claim on the last `Subscribe` of each channel once the frames are sent. -/
def askedBy (asked : C → Option κ) : List (SubscriptionFrame C κ) → C → Option κ
  | [] => asked
  | .subscribe channel _ resume :: frames => askedBy (Function.update asked channel resume) frames
  | .unsubscribe _ :: frames => askedBy asked frames

namespace Plane

def new : Plane C κ := { subs := .new, asked := fun _ => none, recorded := fun _ => [], openings := [] }

def taken (plane : Plane C κ) (channel : C) (rows : List (DeliverRow M κ)) : List κ :=
  match plane.subs.channels[channel]? with
  | some entry => if entry.resumePolicy = .resume then (rows.getLast?.map DeliverRow.cursor).toList else []
  | none => []

variable [Confinable C] [ToString C]

def step (plane : Plane C κ) : PlaneEvent C M κ → Option (Plane C κ)
  | .acquire channel depths resumePolicy =>
    (plane.subs.acquire channel depths resumePolicy).map fun (frames, subs) =>
      { plane with subs, asked := askedBy plane.asked frames }
  | .release channel =>
    (plane.subs.release channel).map fun (frames, subs) =>
      { plane with
        subs, asked := askedBy plane.asked frames
        recorded :=
          if plane.subs.refcount channel = 1 then Function.update plane.recorded channel [] else plane.recorded }
  | .goLive => some { plane with subs := plane.subs.goLive }
  | .resubscribeSurvivors =>
    let (frames, subs) := plane.subs.resubscribeSurvivors
    some { plane with subs, asked := askedBy plane.asked frames }
  | .onAttached =>
    let (frames, subs) := plane.subs.onAttached
    some { plane with subs, asked := askedBy plane.asked frames }
  | .onDetached => some { plane with subs := plane.subs.onDetached }
  | .onSubscribeResult channel outcome replayCount gap =>
    match plane.subs.onSubscribeResult channel outcome replayCount gap with
    -- a refused intake leaves the plane as it stood
    | .error _ => some plane
    | .ok (.unavailable, subs) => some { plane with subs }
    | .ok (.opened frames live _ _, subs) =>
      let opening : Opening C κ := ⟨channel, plane.asked channel, plane.recorded channel⟩
      some
        { plane with
          subs, asked := askedBy plane.asked frames
          openings := if live then plane.openings ++ [opening] else plane.openings }
  | .onDeliver channel rows =>
    match plane.subs.onDeliver channel rows with
    | .error _ => some plane
    | .ok (.discard _ _, subs) => some { plane with subs }
    | .ok (.accept _, subs) =>
      some
        { plane with
          subs
          recorded := Function.update plane.recorded channel (plane.recorded channel ++ plane.taken channel rows) }

/-- Nobody takes up a released channel with the statement of its unanswered `Subscribe`, if that has a cursor. -/
def Unclaimed (plane : Plane C κ) : PlaneEvent C M κ → Prop
  | .acquire channel depths resumePolicy =>
    match plane.subs.channels[channel]? with
    | some entry =>
      entry.refcount = 0 → entry.wire = .pending → entry.stated = some (depths, resumePolicy) →
        (plane.asked channel).isNone
    | none => True
  | _ => True

instance (plane : Plane C κ) (event : PlaneEvent C M κ) : Decidable (plane.Unclaimed event) :=
  match event with
  | .acquire channel depths resumePolicy =>
    match found : plane.subs.channels[channel]? with
    | some entry =>
      decidable_of_iff (entry.refcount = 0 → entry.wire = .pending → entry.stated = some (depths, resumePolicy) →
        (plane.asked channel).isNone) (by simp [Unclaimed, found])
    | none => .isTrue (by simp [Unclaimed, found])
  | .release _ | .goLive | .resubscribeSurvivors | .onAttached | .onDetached | .onSubscribeResult _ _ _ _
  | .onDeliver _ _ => .isTrue trivial

end Plane

/-! ### One entry -/

/-- What the entry may present, and what its unanswered `Subscribe` presents, was recorded since the last release to
    zero. -/
structure ChannelSubscription.Current (asked : Option κ) (recorded : List κ) (entry : ChannelSubscription κ) : Prop where
  token : ∀ cursor, entry.token = some cursor → cursor ∈ recorded
  claim : entry.wire = .pending → 0 < entry.refcount → entry.stated = some (entry.depths, entry.resumePolicy) →
    ∀ cursor, asked = some cursor → cursor ∈ recorded

namespace ChannelSubscription.Current

variable {asked : Option κ} {recorded : List κ} {entry : ChannelSubscription κ}

/-- A `Subscribe` presents the entry's own cursor or none. -/
theorem prepareSubscribe (current : entry.Current asked recorded) :
    entry.prepareSubscribe.2.Current entry.prepareSubscribe.1 recorded where
  token := current.token
  claim := by
    intro _ _ _ cursor presented
    unfold ChannelSubscription.prepareSubscribe at presented
    cases policy : entry.resumePolicy with
    | resume =>
      simp only [policy] at presented
      exact current.token cursor presented
    | cursorless => simp [policy] at presented

/-- An entry with nothing outstanding answers for its cursor only. -/
theorem settled (token : ∀ cursor, entry.token = some cursor → cursor ∈ recorded) (quiet : entry.wire ≠ .pending) :
    entry.Current asked recorded :=
  ⟨token, fun pending => absurd pending quiet⟩

end ChannelSubscription.Current

namespace Plane

/-- Every entry is current, and every subscription that went live was. -/
structure Sound (plane : Plane C κ) : Prop where
  entries : ∀ (channel : C) (entry : ChannelSubscription κ), plane.subs.channels[channel]? = some entry →
    entry.Current (plane.asked channel) (plane.recorded channel)
  openings : ∀ opening ∈ plane.openings, opening.Current

theorem new_sound : (new : Plane C κ).Sound where
  entries := by simp [new, Subscriptions.new]
  openings := by simp [new]

variable {plane next : Plane C κ}

theorem Sound.put (sound : plane.Sound) (channel : C)
    (others : ∀ other ≠ channel, next.subs.channels[other]? = plane.subs.channels[other]? ∧
      next.asked other = plane.asked other ∧ next.recorded other = plane.recorded other)
    (here : ∀ entry, next.subs.channels[channel]? = some entry →
      entry.Current (next.asked channel) (next.recorded channel))
    (openings : ∀ opening ∈ next.openings, opening.Current) : next.Sound := by
  refine ⟨fun other entry found => ?_, openings⟩
  by_cases same : other = channel
  · subst same
    exact here entry found
  · obtain ⟨subs, asked, recorded⟩ := others other same
    rw [asked, recorded]
    exact sound.entries other entry (subs ▸ found)

/-- A step that replaces one entry, and sends for its channel at most one `Subscribe`. -/
theorem Sound.replace (sound : plane.Sound) (channel : C) (entry : ChannelSubscription κ) (live : Bool) {asked : Option κ}
    {recorded : List κ} {openings : List (Opening C κ)} (current : entry.Current asked recorded)
    (opened : ∀ opening ∈ openings, opening.Current) :
    Sound ⟨⟨plane.subs.channels.insert channel entry, live⟩, Function.update plane.asked channel asked,
      Function.update plane.recorded channel recorded, openings⟩ := by
  refine sound.put channel (fun other apart => ?_) (fun found held => ?_) opened
  · simp [lookup_insert, Ne.symm apart, Function.update_of_ne apart]
  · rw [lookup_insert, if_pos rfl] at held
    simpa [← Option.some.inj held] using current

/-! ### The embedder's calls -/

theorem acquire_cases [Confinable C] {subs after : Subscriptions C κ} {channel : C} {depths : SubscriptionDepths}
    {policy : ResumePolicy} {frames : List (SubscriptionFrame C κ)}
    (acquired : subs.acquire channel depths policy = some (frames, after)) :
    ∃ entry : ChannelSubscription κ, entry = (subs.channels[channel]?.getD (.fresh depths policy)).restate depths policy ∧
      entry.depths = depths ∧ entry.resumePolicy = policy ∧
      (frames = [.subscribe channel depths entry.prepareSubscribe.1] ∧
          after = { subs with channels := subs.channels.insert channel entry.hold.prepareSubscribe.2 } ∨
        frames = [] ∧ after = { subs with channels := subs.channels.insert channel entry.hold }) := by
  unfold Subscriptions.acquire at acquired
  dsimp only at acquired
  split at acquired
  · simp at acquired
  · split at acquired
    · simp at acquired
    · generalize given : (subs.channels[channel]?.getD (.fresh depths policy)).restate depths policy = entry at acquired
      refine ⟨entry, rfl, ?_⟩
      split at acquired
      · simp at acquired
      next agreed =>
        obtain ⟨sized, resumes⟩ : entry.depths = depths ∧ entry.resumePolicy = policy := by
          simpa [not_or] using agreed
        refine ⟨sized, resumes, ?_⟩
        split at acquired
        · rw [Option.some.injEq, Prod.mk.injEq] at acquired
          refine .inl ⟨?_, acquired.2.symm⟩
          rw [← acquired.1, ← sized]
          rfl
        · rw [Option.some.injEq, Prod.mk.injEq] at acquired
          exact .inr ⟨acquired.1.symm, acquired.2.symm⟩

variable [Confinable C] [ToString C]

theorem Sound.acquire (sound : plane.Sound) {channel : C} {depths : SubscriptionDepths} {policy : ResumePolicy}
    (unclaimed : plane.Unclaimed (.acquire channel depths policy : PlaneEvent C M κ))
    (stepped : plane.step (.acquire channel depths policy : PlaneEvent C M κ) = some next) : next.Sound := by
  simp only [step, Option.map_eq_some_iff, Prod.exists] at stepped
  obtain ⟨frames, after, acquired, rfl⟩ := stepped
  obtain ⟨entry, made, sized, resumes, left⟩ := acquire_cases acquired
  have current : entry.hold.Current (plane.asked channel) (plane.recorded channel) := by
    cases known : plane.subs.channels[channel]? with
    | none =>
      rw [made, known]
      refine .settled (fun cursor held => ?_) ?_ <;>
        simp_all [ChannelSubscription.hold, ChannelSubscription.restate, ChannelSubscription.fresh]
    | some old =>
      have before := sound.entries channel old known
      rw [known, Option.getD_some] at made
      by_cases unheld : old.refcount = 0
      · rw [ChannelSubscription.restate, if_pos unheld] at made
        subst made
        refine ⟨before.token, fun pending _ stated cursor asked => ?_⟩
        -- the one who takes it up again would be served by the claim on the wire
        simp only [Unclaimed, known] at unclaimed
        have none := unclaimed unheld pending stated
        simp [asked] at none
      · rw [ChannelSubscription.restate, if_neg unheld] at made
        subst made
        exact ⟨before.token, fun pending _ stated => before.claim pending (Nat.pos_of_ne_zero unheld) stated⟩
  rcases left with ⟨rfl, rfl⟩ | ⟨rfl, rfl⟩
  · have presented : entry.hold.prepareSubscribe.1 = entry.prepareSubscribe.1 := rfl
    simpa [askedBy, presented] using
      sound.replace channel entry.hold.prepareSubscribe.2 plane.subs.live current.prepareSubscribe sound.openings
  · simpa [askedBy] using sound.replace channel entry.hold plane.subs.live current sound.openings

omit [Confinable C] [ToString C] in
theorem Sound.forgetIfSpent (sound : plane.Sound) (channel : C) :
    Sound { plane with subs := plane.subs.forgetIfSpent channel } := by
  refine ⟨fun other entry found => sound.entries other entry ?_, sound.openings⟩
  dsimp only at found
  unfold Subscriptions.forgetIfSpent at found
  split at found
  · split at found
    · exact lookup_of_erase found
    · exact found
  · exact found

theorem Sound.release (sound : plane.Sound) {channel : C}
    (stepped : plane.step (.release channel : PlaneEvent C M κ) = some next) : next.Sound := by
  simp only [step, Option.map_eq_some_iff, Prod.exists] at stepped
  obtain ⟨frames, after, released, rfl⟩ := stepped
  unfold Subscriptions.release at released
  cases known : plane.subs.channels[channel]? with
  | none => simp [known] at released
  | some entry =>
    have before := sound.entries channel entry known
    have counted : plane.subs.refcount channel = entry.refcount := by simp [Subscriptions.refcount, known]
    simp only [known] at released
    split at released
    · simp at released
    next held =>
      rw [counted]
      by_cases last : entry.refcount = 1
      · -- nobody is left for an outstanding claim to go live for
        have current (wire : WireState) : ChannelSubscription.Current (plane.asked channel) []
            { entry with refcount := entry.refcount - 1, token := none, wire } :=
          ⟨by simp, fun _ held => absurd held (by dsimp only; omega)⟩
        have left (wire : WireState) := (sound.replace channel _ plane.subs.live (current wire)
          sound.openings).forgetIfSpent channel
        rw [if_neg (by omega)] at released
        rw [if_pos last]
        split at released
        all_goals
          rw [Option.some.injEq, Prod.mk.injEq] at released
          obtain ⟨rfl, rfl⟩ := released
        · simpa [askedBy] using left .unsubscribed
        · simpa [askedBy] using left entry.wire
      · rw [if_pos (by omega), Option.some.injEq, Prod.mk.injEq] at released
        obtain ⟨rfl, rfl⟩ := released
        rw [if_neg last]
        have current : ChannelSubscription.Current (plane.asked channel) (plane.recorded channel)
            { entry with refcount := entry.refcount - 1 } :=
          ⟨before.token, fun pending _ stated => before.claim pending (Nat.pos_of_ne_zero held) stated⟩
        simpa [askedBy] using sound.replace channel _ plane.subs.live current sound.openings

/-! ### The attachment -/

omit [Confinable C] [ToString C] in
theorem askedBy_cases (asked : C → Option κ) (frames : List (SubscriptionFrame C κ)) (channel : C) :
    (∃ depths resume, .subscribe channel depths resume ∈ frames ∧ askedBy asked frames channel = resume) ∨
      (∀ depths resume, .subscribe channel depths resume ∉ frames) ∧ askedBy asked frames channel = asked channel := by
  induction frames generalizing asked with
  | nil => exact .inr ⟨by simp, rfl⟩
  | cons frame frames ih =>
    cases frame with
    | unsubscribe other => simpa [askedBy] using ih asked
    | subscribe other depths resume =>
      rcases ih (Function.update asked other resume) with ⟨depths', resume', listed, last⟩ | ⟨none, last⟩
      · exact .inl ⟨depths', resume', List.mem_cons_of_mem _ listed, last⟩
      · by_cases same : channel = other
        · subst same
          exact .inl ⟨depths, resume, List.mem_cons_self, by simpa [askedBy] using last⟩
        · refine .inr ⟨fun depths' resume' => ?_, by simpa [askedBy, Function.update_of_ne same] using last⟩
          simp [same, none]

omit [Confinable C] [ToString C] in
theorem Sound.resubscribeSurvivors (sound : plane.Sound) :
    Sound { plane with
      subs := plane.subs.resubscribeSurvivors.2
      asked := askedBy plane.asked plane.subs.resubscribeSurvivors.1 } := by
  refine ⟨fun channel after found => ?_, sound.openings⟩
  dsimp only at found ⊢
  have frames : ∀ depths resume, .subscribe channel depths resume ∈ plane.subs.resubscribeSurvivors.1 ↔
      ∃ entry, plane.subs.channels[channel]? = some entry ∧ Subscriptions.isSurvivor entry = true ∧
        entry.depths = depths ∧ entry.prepareSubscribe.1 = resume := by
    intro depths resume
    simp only [Subscriptions.resubscribeSurvivors, List.mem_map, List.mem_filter, Prod.exists,
      TreeMap.mem_toList_iff_getElem?_eq_some]
    constructor
    · rintro ⟨other, entry, ⟨held, survives⟩, made⟩
      rw [ChannelSubscription.subscribeFrame, SubscriptionFrame.subscribe.injEq] at made
      exact ⟨entry, made.1 ▸ held, survives, made.2.1, made.2.2⟩
    · rintro ⟨entry, held, survives, rfl, rfl⟩
      exact ⟨channel, entry, ⟨held, survives⟩, rfl⟩
  rw [Subscriptions.resubscribeSurvivors, TreeMap.getElem?_map, Option.map_eq_some_iff] at found
  obtain ⟨entry, held, rfl⟩ := found
  have current := sound.entries channel entry held
  rcases askedBy_cases plane.asked plane.subs.resubscribeSurvivors.1 channel with
    ⟨depths, resume, listed, last⟩ | ⟨none, last⟩
  · obtain ⟨other, same, survives, -, rfl⟩ := (frames depths resume).mp listed
    obtain rfl := Option.some.inj (held.symm.trans same)
    rw [last, if_pos survives]
    exact current.prepareSubscribe
  · have stays : ¬ Subscriptions.isSurvivor entry = true := fun survives =>
      none _ _ ((frames _ _).mpr ⟨entry, held, survives, rfl, rfl⟩)
    rw [last, if_neg stays]
    exact current

omit [Confinable C] [ToString C] in
theorem Sound.onDetached (sound : plane.Sound) : Sound { plane with subs := plane.subs.onDetached } := by
  refine ⟨fun channel after found => ?_, sound.openings⟩
  dsimp only [Subscriptions.onDetached] at found ⊢
  rw [TreeMap.getElem?_map, TreeMap.getElem?_filter', Option.map_eq_some_iff] at found
  obtain ⟨entry, held, rfl⟩ := found
  exact .settled (sound.entries channel entry (Option.filter_eq_some_iff.mp held).1).token (by simp)

/-! ### The peer's answers -/

theorem Sound.onSubscribeResult (sound : plane.Sound) {channel : C} {outcome : SubscribeOutcome} {replayCount : Nat}
    {gap : Option GapInfo}
    (stepped : plane.step (.onSubscribeResult channel outcome replayCount gap : PlaneEvent C M κ) = some next) :
    next.Sound := by
  simp only [step, Subscriptions.onSubscribeResult] at stepped
  cases known : plane.subs.channels[channel]? with
  | none =>
    simp only [known, Option.some.injEq] at stepped
    exact stepped ▸ sound
  | some entry =>
    have before := sound.entries channel entry known
    simp only [known] at stepped
    by_cases pending : entry.wire = .pending
    · rw [if_neg (by simpa using pending)] at stepped
      cases outcome with
      | unavailable =>
        simp only [Option.some.injEq] at stepped
        subst stepped
        have current : ChannelSubscription.Current (plane.asked channel) (plane.recorded channel)
            { entry with wire := .unsubscribed, refcount := 0, spanHw := none, stated := none } :=
          .settled before.token (by simp)
        simpa using sound.replace channel _ plane.subs.live current sound.openings
      | ok =>
        dsimp only at stepped
        by_cases unheld : entry.refcount = 0
        · rw [if_pos unheld, Option.some.injEq] at stepped
          subst stepped
          have current : ChannelSubscription.Current (plane.asked channel) (plane.recorded channel)
              { entry with wire := .unsubscribed, hasBeenActive := true, stragglerReported := false } :=
            .settled before.token (by simp)
          simpa [askedBy] using sound.replace channel _ plane.subs.live current sound.openings
        · rw [if_neg unheld] at stepped
          by_cases restated : entry.stated = some (entry.depths, entry.resumePolicy)
          · rw [if_neg (by simpa using restated), Option.some.injEq] at stepped
            subst stepped
            have current : ChannelSubscription.Current (plane.asked channel) (plane.recorded channel)
                { entry with wire := .active, hasBeenActive := true, stragglerReported := false } :=
              .settled before.token (by simp)
            have opened : ∀ opening ∈ plane.openings ++ [⟨channel, plane.asked channel, plane.recorded channel⟩],
                opening.Current := by
              intro opening listed
              rcases List.mem_append.mp listed with earlier | now
              · exact sound.openings opening earlier
              · rw [List.mem_singleton.mp now]
                exact before.claim pending (Nat.pos_of_ne_zero unheld) restated
            simpa [askedBy] using sound.replace channel _ plane.subs.live current opened
          · rw [if_pos restated, Option.some.injEq] at stepped
            subst stepped
            let answered : ChannelSubscription κ := { entry with hasBeenActive := true, stragglerReported := false }
            have current : answered.Current (plane.asked channel) (plane.recorded channel) := ⟨before.token, before.claim⟩
            have sent := sound.replace channel _ plane.subs.live current.prepareSubscribe sound.openings
            simpa [askedBy, ChannelSubscription.subscribeFrame, answered] using sent
    · rw [if_pos pending] at stepped
      exact Option.some.inj stepped ▸ sound

omit [Confinable C] in
/-- A discarded pass leaves the straggler's mark, an accepted one its last cursor on a channel that resumes. -/
theorem deliver_cases {subs after : Subscriptions C κ} {channel : C} {rows : List (DeliverRow M κ)}
    {disposition : DeliverDisposition} (delivered : subs.onDeliver channel rows = .ok (disposition, after)) :
    ∃ entry, subs.channels[channel]? = some entry ∧
      ((∃ first dropped, disposition = .discard first dropped ∧
          after = { subs with channels := subs.channels.insert channel { entry with stragglerReported := true } }) ∨
        ∃ dropped spanHw, disposition = .accept dropped ∧ entry.wire = .active ∧
          after = { subs with
            channels := subs.channels.insert channel { entry with
              spanHw
              token := match entry.resumePolicy with
                | .resume => rows.getLast?.map DeliverRow.cursor
                | .cursorless => entry.token } }) := by
  unfold Subscriptions.onDeliver at delivered
  cases rows with
  | nil => simp at delivered
  | cons head rest =>
    dsimp only at delivered
    split at delivered
    · simp at delivered
    · split at delivered
      · simp at delivered
      next entry known =>
        refine ⟨entry, known, ?_⟩
        split at delivered
        · simp at delivered
        · split at delivered
          · rw [Except.ok.injEq, Prod.mk.injEq] at delivered
            exact .inl ⟨_, _, delivered.1.symm, delivered.2.symm⟩
          next active =>
            split at delivered
            · simp at delivered
            next hw advanced =>
              rw [Except.ok.injEq, Prod.mk.injEq] at delivered
              refine .inr ⟨_, hw, delivered.1.symm, by simpa using active, ?_⟩
              rw [← delivered.2]
              cases entry.resumePolicy <;> simp [List.getLast?_cons]

theorem Sound.onDeliver (sound : plane.Sound) {channel : C} {rows : List (DeliverRow M κ)}
    (stepped : plane.step (.onDeliver channel rows) = some next) : next.Sound := by
  simp only [step] at stepped
  cases delivered : plane.subs.onDeliver channel rows with
  | error _ =>
    simp only [delivered, Option.some.injEq] at stepped
    exact stepped ▸ sound
  | ok answer =>
    obtain ⟨disposition, after⟩ := answer
    obtain ⟨entry, known, outcome⟩ := deliver_cases delivered
    have before := sound.entries channel entry known
    rcases outcome with ⟨first, dropped, rfl, rfl⟩ | ⟨dropped, hw, rfl, active, rfl⟩
    · simp only [delivered, Option.some.injEq] at stepped
      subst stepped
      have current : ChannelSubscription.Current (plane.asked channel) (plane.recorded channel)
          { entry with stragglerReported := true } := ⟨before.token, before.claim⟩
      simpa using sound.replace channel _ plane.subs.live current sound.openings
    · simp only [delivered, Option.some.injEq] at stepped
      subst stepped
      have current : ChannelSubscription.Current (plane.asked channel) (plane.recorded channel ++ plane.taken channel rows)
          { entry with
            spanHw := hw
            token := match entry.resumePolicy with
              | .resume => rows.getLast?.map DeliverRow.cursor
              | .cursorless => entry.token } := by
        refine .settled (fun cursor held => ?_) (by simp [active])
        cases policy : entry.resumePolicy with
        | resume =>
          simp only [policy] at held
          simp [taken, known, policy, held]
        | cursorless =>
          simp only [policy] at held
          exact List.mem_append_left _ (before.token cursor held)
      simpa using sound.replace channel _ plane.subs.live current sound.openings

theorem Sound.step (sound : plane.Sound) {event : PlaneEvent C M κ} (unclaimed : plane.Unclaimed event)
    (stepped : plane.step event = some next) : next.Sound := by
  cases event with
  | acquire channel depths policy => exact sound.acquire unclaimed stepped
  | release channel => exact sound.release stepped
  | goLive =>
    rw [← Option.some.inj stepped]
    exact ⟨sound.entries, sound.openings⟩
  | resubscribeSurvivors => exact Option.some.inj stepped ▸ sound.resubscribeSurvivors
  | onAttached =>
    have live : Sound { plane with subs := plane.subs.goLive } := ⟨sound.entries, sound.openings⟩
    exact Option.some.inj stepped ▸ live.resubscribeSurvivors
  | onDetached => exact Option.some.inj stepped ▸ sound.onDetached
  | onSubscribeResult channel outcome replayCount gap => exact sound.onSubscribeResult stepped
  | onDeliver channel rows => exact sound.onDeliver stepped

/-! ### Whole runs -/

/-- A subscription never goes live on a cursor from before the channel was last released to
    zero, if nobody takes a released channel up again under the statement of an unanswered
    `Subscribe` that carries a cursor. -/
theorem openings_current {events : List (PlaneEvent C M κ)} {reached : Plane C κ}
    (unclaimed : Along Plane.step Unclaimed (new : Plane C κ) events)
    (ran : run Plane.step (new : Plane C κ) events = some reached) :
    ∀ opening ∈ reached.openings, opening.Current := by
  have sound : reached.Sound :=
    run_preserves (fun _ _ _ sound held stepped => sound.step held stepped) new_sound unclaimed ran
  exact sound.openings

/-- A channel taken live, one pass taken in, and the connection lost and regained. -/
private def regained : List (PlaneEvent Nat Nat Nat) :=
  [.onAttached, .acquire 0 ⟨1, 1⟩ .resume, .onSubscribeResult 0 .ok 0 none, .onDeliver 0 [⟨7, 1, 5, 0⟩], .onDetached,
    .onAttached]

/-- The holder who was there before the cut resumes from its own cursor; it leaves, and the next one
    starts without. -/
theorem regained_current :
    ∃ reached, run step (new : Plane Nat Nat) (regained ++ [.onSubscribeResult 0 .ok 0 none, .release 0,
        .acquire 0 ⟨1, 1⟩ .resume, .onSubscribeResult 0 .ok 0 none]) = some reached ∧
      reached.openings = [⟨0, none, []⟩, ⟨0, some 5, [5]⟩, ⟨0, none, []⟩] ∧
      ∀ opening ∈ reached.openings, opening.Current := by
  obtain ⟨reached, ran, openings⟩ : ∃ reached,
      run step (new : Plane Nat Nat) (regained ++ [.onSubscribeResult 0 .ok 0 none, .release 0,
        .acquire 0 ⟨1, 1⟩ .resume, .onSubscribeResult 0 .ok 0 none]) = some reached ∧
      reached.openings = [⟨0, none, []⟩, ⟨0, some 5, [5]⟩, ⟨0, none, []⟩] := Option.map_eq_some_iff.mp (by decide +kernel)
  exact ⟨reached, ran, openings, openings_current (by decide +kernel) ran⟩

/-- The last holder goes and another comes, under the same statement, before the resumed
    `Subscribe` is answered: the newcomer goes live on the cursor of those who left. -/
theorem newcomer_served_by_stale_cursor :
    ((run step (new : Plane Nat Nat)
        (regained ++ [.release 0, .acquire 0 ⟨1, 1⟩ .resume, .onSubscribeResult 0 .ok 0 none])).map Plane.openings) =
      some [⟨0, none, []⟩, ⟨0, some 5, []⟩] ∧ ¬ (⟨0, some 5, []⟩ : Opening Nat Nat).Current :=
  ⟨by decide +kernel, fun current => List.not_mem_nil (current 5 rfl)⟩

end Plane

end Brenn.Attach
