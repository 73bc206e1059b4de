import Brenn.Bus.Overflow
import Brenn.Lib.Run
import Brenn.Store.Mirror.Retention

/-!
Every loss is answered while conversations hold positions only under registrations.

The ladder panics only where a position stands under no registration the pass goes by: inside a
subscribe, inside an unsubscribe, for as long as a dynamic subscription is dormant, and
where a publish read the channel's entry before the subscribe.
-/

namespace Brenn.Bus
open Brenn.Lib Brenn.Queue Brenn.Store Std
open Brenn.Surface (NoiseLevel)

universe u v w m e p

variable {U : Type u} {T : Type v} {S : Type w} [LinearOrder S] [DecidableEq T]

/-! ### What a store reports -/

/-- Every position of a ring is held under an application. -/
def Retention.Slugged : Retention U T S → Prop
  | .ring store => ∀ (subscriber : S) cursor, store.core.cursors[subscriber]? = some cursor →
      (store.appSlugs[subscriber]?).isSome
  | .durable _ => True

def Names (positions : List (S × T)) (event : OverflowEvent S T) : Prop :=
  ∃ slug, event.appSlug = some slug ∧ (event.subscriber, slug) ∈ positions

omit [DecidableEq T] in
theorem overflowEvents_named {appSlugs : TreeMap S T} {overflow : List (CursorOverflow S)}
    (slugged : ∀ event ∈ overflow, (appSlugs[event.subscriber]?).isSome) :
    ∃ named, RingStore.overflowEvents appSlugs overflow = some named ∧
      ∀ event ∈ named, ∃ charged ∈ overflow, event.subscriber = charged.subscriber ∧
        ∃ slug, event.appSlug = some slug ∧ appSlugs[event.subscriber]? = some slug := by
  induction overflow with
  | nil => exact ⟨[], rfl, by simp⟩
  | cons charged overflow ih =>
    obtain ⟨named, rest, each⟩ := ih fun event listed => slugged event (List.mem_cons_of_mem _ listed)
    obtain ⟨slug, held⟩ := Option.isSome_iff_exists.mp (slugged charged List.mem_cons_self)
    refine ⟨_, by rw [RingStore.overflowEvents, held, rest], List.forall_mem_cons.mpr ⟨?_, fun event listed => ?_⟩⟩
    · exact ⟨charged, List.mem_cons_self, rfl, slug, rfl, held⟩
    · obtain ⟨origin, among, same⟩ := each event listed
      exact ⟨origin, List.mem_cons_of_mem _ among, same⟩

omit [DecidableEq T] in
/-- A ring names each position it charges with the application it is held under. -/
theorem ring_names {store : RingStore U T S} (slugged : (Retention.ring store).Slugged)
    {overflow : List (CursorOverflow S)} (held : Charges store.core.cursors overflow) :
    ∃ named, RingStore.overflowEvents store.appSlugs overflow = some named ∧
      ∀ event ∈ named, Names (Retention.ring store).positions event := by
  have slugs : ∀ event ∈ overflow, (store.appSlugs[event.subscriber]?).isSome := by
    intro event listed
    obtain ⟨cursor, there⟩ := Option.isSome_iff_exists.mp (held event listed)
    exact slugged event.subscriber cursor there
  obtain ⟨named, answered, each⟩ := overflowEvents_named slugs
  refine ⟨named, answered, fun event listed => ?_⟩
  obtain ⟨charged, among, same, slug, stated, there⟩ := each event listed
  obtain ⟨cursor, present⟩ := Option.isSome_iff_exists.mp (held charged among)
  refine ⟨slug, stated, List.mem_filterMap.mpr ⟨(event.subscriber, cursor), ?_, by simp [there]⟩⟩
  exact TreeMap.mem_toList_iff_getElem?_eq_some.mpr (same ▸ present)

omit [DecidableEq T] in
/-- Every pass goes through, and every loss it reports is of a position held before it. -/
theorem Retention.report_names {retention : Retention U T S} (slugged : retention.Slugged) (pass : Pass U T) :
    ∃ overflow after, retention.report pass = some (overflow, after) ∧ after.Slugged ∧
      ∀ event ∈ overflow, Names retention.positions event := by
  cases retention with
  | ring store =>
    cases pass with
    | publish rowId messageId message =>
      obtain ⟨named, answered, each⟩ := ring_names slugged (charges_append store.core (envelopeOf messageId message))
      refine ⟨named, .ring { store with core := (store.core.append (envelopeOf messageId message)).2
                                        publishes := store.publishes + 1 }, ?_, ?_, each⟩
      · simp only [Retention.report, RingStore.append, answered, Option.map_some]
      · intro subscriber cursor held
        exact slugged subscriber cursor (by simpa using held)
    | release now =>
      obtain ⟨named, answered, each⟩ := ring_names slugged (charges_releaseDue store.core (releaseTimeOf now))
      refine ⟨named, .ring { store with
        core := (store.core.releaseDue (releaseTimeOf now)).2
        publishes := store.publishes + (store.core.releaseDue (releaseTimeOf now)).1.released.length }, ?_, ?_, each⟩
      · simp only [Retention.report, RingStore.releaseDue, answered, Option.map_some]
      · intro subscriber cursor held
        refine slugged subscriber cursor ?_
        simpa [RingCore.releaseDue, RingCore.enterDue_cursors] using held
    | evict keep => exact ⟨[], .ring store, rfl, slugged, by simp⟩
  | durable channel =>
    cases pass with
    | publish rowId messageId message => exact ⟨[], _, rfl, trivial, by simp⟩
    | release now => exact ⟨[], _, rfl, trivial, by simp⟩
    | evict keep =>
      refine ⟨_, _, rfl, trivial, fun event listed => ?_⟩
      unfold DbChannel.busGcEvictChannel at listed
      dsimp only at listed
      split at listed
      · cases listed
      · obtain ⟨⟨subscriber, cursor⟩, held, named⟩ := List.mem_filterMap.mp listed
        dsimp only at named
        split at named
        · cases named
          exact ⟨cursor.appSlug, rfl, List.mem_map.mpr ⟨(subscriber, cursor), held, rfl⟩⟩
        · cases named

/-! ### Answering the losses -/

section Answered

variable (identities : Identities S T) (subscribers : List (SubscriberEntry T))

/-- The level a loss is charged at: its registration's, unless an attached client answers it itself. -/
def levelOf (event : OverflowEvent S T) : OverflowNoise :=
  overflowNoiseFor subscribers (identities.kind event.subscriber) event.appSlug

def OverflowNoise.metered : OverflowNoise → Bool
  | .noise .metered | .noise .alarm => true
  | _ => false

def meteredSum (events : List (OverflowEvent S T)) (subscriber : S) : Nat :=
  (events.map fun event =>
    if event.subscriber = subscriber ∧ (levelOf identities subscribers event).metered then event.dropped else 0).sum

def lossesAt (wanted : OverflowNoise) (events : List (OverflowEvent S T)) : List (S × Nat) :=
  (events.filter fun event => decide (levelOf identities subscribers event = wanted)).map fun event =>
    (event.subscriber, event.dropped)

/-- Counted losses go to the subscriber's tally, and those under no registration are logged and
    charged to nobody. -/
structure Answered (events : List (OverflowEvent S T)) (before after : Ladder S) : Prop where
  tally : ∀ subscriber, after.tally subscriber = before.tally subscriber + meteredSum identities subscribers events subscriber
  alarms : after.alarms = before.alarms ++
    (lossesAt identities subscribers (.noise .alarm) events).filter fun loss => decide (loss.2 ≠ 0)
  logged : after.logged = before.logged ++ lossesAt identities subscribers .unregistered events

variable {identities : Identities S T} {subscribers : List (SubscriberEntry T)}

omit [LinearOrder S] in
/-- Only an attached client's registration carries `fatal`, and its losses are never enacted here. -/
theorem levelOf_ne_fatal (event : OverflowEvent S T) : levelOf identities subscribers event ≠ .noise .fatal := by
  unfold levelOf overflowNoiseFor
  split
  · simp
  next registration _ =>
    split
    · simp
    next detached => simpa using registration.backendEnactable detached

theorem Ladder.tally_meter (ladder : Ladder S) (charged subscriber : S) (count : Nat) :
    (ladder.meter charged count).tally subscriber =
      ladder.tally subscriber + if charged = subscriber then count else 0 := by
  simp only [Ladder.tally, Ladder.meter, lookup_insert]
  split
  next same => simp [same]
  next => simp

theorem Ladder.enact_one (ladder : Ladder S) (subscriber : S) (noise : NoiseLevel) (enactable : noise ≠ .fatal)
    (count : Nat) : ∃ after, ladder.enactOverflowNoise subscriber noise count = some after ∧
      (∀ other, after.tally other = ladder.tally other +
        if subscriber = other ∧ (OverflowNoise.noise noise).metered then count else 0) ∧
      after.alarms = ladder.alarms ++ (if noise = .alarm ∧ count ≠ 0 then [(subscriber, count)] else []) ∧
      after.logged = ladder.logged := by
  unfold Ladder.enactOverflowNoise
  by_cases none : count = 0
  · exact ⟨ladder, by simp [none]⟩
  · cases noise with
    | silent => exact ⟨ladder, by simp [none, OverflowNoise.metered]⟩
    | metered =>
      refine ⟨ladder.meter subscriber count, by rw [if_neg none], fun other => ?_, by simp [Ladder.meter], rfl⟩
      rw [Ladder.tally_meter]
      simp [OverflowNoise.metered]
    | alarm =>
      refine ⟨{ ladder.meter subscriber count with alarms := ladder.alarms ++ [(subscriber, count)] },
        by rw [if_neg none], fun other => ?_, by simp [none], rfl⟩
      show (ladder.meter subscriber count).tally other = _
      rw [Ladder.tally_meter]
      simp [OverflowNoise.metered]
    | fatal => exact absurd rfl enactable

theorem Answered.cons {event : OverflowEvent S T} {events : List (OverflowEvent S T)} {before between after : Ladder S}
    (first : Answered identities subscribers [event] before between)
    (rest : Answered identities subscribers events between after) :
    Answered identities subscribers (event :: events) before after where
  tally subscriber := by
    rw [rest.tally, first.tally]
    simp only [meteredSum, List.map_cons, List.map_nil, List.sum_cons, List.sum_nil]
    omega
  alarms := by
    rw [rest.alarms, first.alarms, List.append_assoc, ← List.filter_append]
    simp only [lossesAt, ← List.map_append, ← List.filter_append, List.singleton_append]
  logged := by
    rw [rest.logged, first.logged, List.append_assoc]
    simp only [lossesAt, ← List.map_append, ← List.filter_append, List.singleton_append]

/-- Losses that all resolve, those of conversations to a registration, are all answered. -/
theorem Ladder.enact_answered (events : List (OverflowEvent S T)) (ladder : Ladder S)
    (resolved : ∀ event ∈ events, (identities.kind event.subscriber).conversationId.isSome →
      levelOf identities subscribers event ≠ .unregistered) :
    ∃ after, ladder.enactOverflowEvents identities subscribers events = some after ∧
      Answered identities subscribers events ladder after := by
  induction events generalizing ladder with
  | nil => exact ⟨ladder, rfl, by simp [meteredSum], by simp [lossesAt], by simp [lossesAt]⟩
  | cons event events ih =>
    obtain ⟨here, later⟩ := List.forall_mem_cons.mp resolved
    -- Each level answers one event; the rest is the induction.
    have one : ∃ between, ladder.enactOverflowEvents identities subscribers [event] = some between ∧
        Answered identities subscribers [event] ladder between ∧
        ladder.enactOverflowEvents identities subscribers (event :: events) =
          between.enactOverflowEvents identities subscribers events := by
      simp only [Ladder.enactOverflowEvents]
      cases level : overflowNoiseFor subscribers (identities.kind event.subscriber) event.appSlug with
      | noise noise =>
        obtain ⟨between, enacted, tally, alarms, logged⟩ := ladder.enact_one event.subscriber noise
          (fun fatal => levelOf_ne_fatal event (by rw [levelOf, level, fatal])) event.dropped
        refine ⟨between, by simp [enacted], ⟨fun other => ?_, ?_, ?_⟩, by simp [enacted]⟩
        · simp [tally, meteredSum, levelOf, level]
        · by_cases loud : noise = .alarm <;> by_cases lost : event.dropped = 0 <;>
            simp [alarms, lossesAt, levelOf, level, loud, lost]
        · simp [logged, lossesAt, levelOf, level]
      | attachExempt =>
        exact ⟨ladder, rfl, ⟨by simp [meteredSum, levelOf, level, OverflowNoise.metered], by simp [lossesAt, levelOf, level],
          by simp [lossesAt, levelOf, level]⟩, rfl⟩
      | unregistered =>
        have named : (identities.kind event.subscriber).conversationId = none := by
          cases conversation : (identities.kind event.subscriber).conversationId with
          | none => rfl
          | some id => exact absurd level (here (by simp [conversation]))
        refine ⟨{ ladder with logged := ladder.logged ++ [(event.subscriber, event.dropped)] }, by simp [named],
          ⟨fun other => ?_, ?_, ?_⟩, by simp [named]⟩
        · simp [meteredSum, levelOf, level, OverflowNoise.metered, Ladder.tally]
        · simp [lossesAt, levelOf, level]
        · simp [lossesAt, levelOf, level]
    obtain ⟨between, _, first, continues⟩ := one
    obtain ⟨after, enacted, rest⟩ := ih between later
    exact ⟨after, continues.trans enacted, first.cons rest⟩

omit [LinearOrder S] in
/-- The losses of positions that all stand under registrations, where they are conversations', resolve. -/
theorem levelOf_of_registered {positions : List (S × T)} {events : List (OverflowEvent S T)}
    (named : ∀ event ∈ events, Names positions event)
    (registered : ∀ position ∈ positions, (identities.kind position.1).conversationId.isSome →
      (registeredSubscriber subscribers (identities.kind position.1) (some position.2)).isSome) :
    ∀ event ∈ events, (identities.kind event.subscriber).conversationId.isSome →
      levelOf identities subscribers event ≠ .unregistered := by
  intro event listed conversation unregistered
  obtain ⟨slug, stated, held⟩ := named event listed
  have found := registered _ held conversation
  unfold levelOf overflowNoiseFor at unregistered
  rw [stated] at unregistered
  split at unregistered
  next missing => simp [missing] at found
  next => split at unregistered <;> cases unregistered

end Answered

/-! ### Runs -/

theorem attach_elsewhere {M : Type m} {Ep : Type e} {P : Type p} (core : RingCore M Ep S P) {subscriber other : S}
    (apart : subscriber ≠ other) (pushDepth : Nat) :
    (core.attach subscriber pushDepth).2.cursors[other]? = core.cursors[other]? := by
  unfold RingCore.attach
  split
  · simp only [lookup_erase, if_neg apart]
  · split <;> simp only [lookup_insert, if_neg apart]

omit [DecidableEq T] in
theorem Retention.Slugged.attach {retention : Retention U T S} (slugged : retention.Slugged) (subscriber : S)
    (appSlug : T) (pushDepth : Depth) :
    ∃ after, retention.attach subscriber appSlug pushDepth = some after ∧ after.Slugged := by
  cases retention with
  | ring store =>
    refine ⟨_, rfl, fun other cursor held => ?_⟩
    simp only [RingStore.attach] at held ⊢
    by_cases same : subscriber = other
    · subst same
      simp [held]
    · have before := slugged other cursor (by rwa [attach_elsewhere _ same] at held)
      split
      · rwa [lookup_insert, if_neg same]
      · rwa [lookup_erase, if_neg same]
  | durable channel =>
    have attached : ∃ answer, channel.attach subscriber appSlug pushDepth = some answer := by
      unfold DbChannel.attach DbChannel.maintainCursor
      split
      · exact ⟨_, rfl⟩
      · dsimp only
        split <;> exact ⟨_, rfl⟩
    obtain ⟨answer, stored⟩ := attached
    exact ⟨.durable answer.2, by rw [Retention.attach, stored, Option.map_some], trivial⟩

omit [DecidableEq T] in
theorem Retention.Slugged.detach {retention : Retention U T S} (slugged : retention.Slugged) (subscriber : S) :
    (retention.detach subscriber).Slugged := by
  cases retention with
  | ring store =>
    intro other cursor held
    simp only [RingStore.detach, RingCore.detach] at held ⊢
    rw [lookup_erase] at held ⊢
    split at held
    · cases held
    next apart =>
      rw [if_neg apart]
      exact slugged other cursor held
  | durable channel => trivial

variable {targets : Targets S T} {world : World U T S}

/-- A ring knows the application of each position, and the losses still to be answered are of positions held at
    their report. -/
structure World.Reported (world : World U T S) : Prop where
  slugged : world.retention.Slugged
  named : ∀ (call : Nat) passing, world.passes[call]? = some passing → ∀ event ∈ passing.overflow,
    Names passing.held event

/-- The losses of a pass that finds the conversations registered are answered in full. -/
theorem World.enact_registered {call : Nat} {passing : Passing T S} (reported : world.Reported)
    (under : world.passes[call]? = some passing) (registered : world.Registered targets (.enact call)) :
    ∃ ladder, world.step targets (.enact call) = some { world with ladder, passes := world.passes.erase call } ∧
      Answered targets.toIdentities (world.answering passing) passing.overflow world.ladder ladder := by
  have resolved := levelOf_of_registered (reported.named call passing under) (registered passing under)
  obtain ⟨ladder, enacted, answered⟩ := world.ladder.enact_answered passing.overflow resolved
  exact ⟨ladder, by simp [World.step, World.enact, under, enacted], answered⟩

omit [DecidableEq T] in
theorem World.Reported.report (reported : world.Reported) (call : Nat) (pass : Pass U T) :
    ∃ next, world.report call pass = some next ∧ next.Reported := by
  unfold World.report
  split
  · exact ⟨world, rfl, reported⟩
  · obtain ⟨overflow, retention, answer, still, named⟩ := Retention.report_names reported.slugged pass
    rw [answer]
    exact ⟨_, rfl, still, forall_lookup_insert named fun other passing _ under => reported.named other passing under⟩

theorem World.Reported.step (reported : world.Reported) {event : Event U T S}
    (registered : world.Registered targets event) : ∃ next, world.step targets event = some next ∧ next.Reported := by
  cases event with
  | addSubscriber entry => exact ⟨_, rfl, reported.slugged, reported.named⟩
  | removeSubscriber kind => exact ⟨_, rfl, reported.slugged, reported.named⟩
  | attachSubscriber subscriber appSlug pushDepth =>
    obtain ⟨after, attached, still⟩ := reported.slugged.attach subscriber appSlug pushDepth
    exact ⟨{ world with retention := after }, by rw [World.step, attached, Option.map_some], still, reported.named⟩
  | detachSubscriber subscriber => exact ⟨_, rfl, reported.slugged.detach subscriber, reported.named⟩
  | boot subscribers dormant epoch =>
    refine ⟨_, rfl, ?_, fun call passing under => by simp at under⟩
    cases world.retention with
    | ring store =>
      intro subscriber cursor held
      simp [RingStore.fresh, RingCore.new] at held
    | durable channel => trivial
  | resolve call => exact ⟨_, rfl, reported.slugged, reported.named⟩
  | pass call pass => exact reported.report call pass
  | enact call =>
    cases under : world.passes[call]? with
    | none => exact ⟨world, by simp [World.step, World.enact, under], reported⟩
    | some passing =>
      obtain ⟨ladder, stepped, _⟩ := World.enact_registered reported under registered
      exact ⟨_, stepped, reported.slugged, fun other passing there => reported.named other passing (lookup_of_erase there)⟩

private def meteredApp : SubscriberEntry Unit := ⟨.app (), .bounded 1, .metered, by decide⟩

private def published (id : Nat) : List (Event Nat Unit Nat) := [.pass 0 (.publish id id ⟨(), (), .normal, none⟩), .enact 0]

private def subscribed : List (Event Nat Unit Nat) := [.attachSubscriber 12 () (.bounded 1), .addSubscriber meteredApp]

private def openedDurable : World Nat Unit Nat := .opened [] (.durable 0 .unbounded)

private def openedRing : World Nat Unit Nat := .opened [] (.ring 0 () 1 0)

/-- A run that goes through and whose next step panics. -/
private def Panics (opened : World Nat Unit Nat) (events : List (Event Nat Unit Nat)) (last : Event Nat Unit Nat) : Prop :=
  (run (World.step soleApp) opened events).isSome = true ∧ (run (World.step soleApp) opened (events ++ [last])).isNone = true

private instance (opened : World Nat Unit Nat) (events : List (Event Nat Unit Nat)) (last : Event Nat Unit Nat) :
    Decidable (Panics opened events last) := inferInstanceAs (Decidable (_ ∧ _))

end Brenn.Bus
