import Brenn.Attach.Views

/-!
The pages of a surface come to show what its components hold parked.

Where a page would end with another view than the parked set, a task under way will still
read the set and hand it off. The gate keeps hand-offs in the order of their reads, and a seed is
sent ahead of every push. The sweep passes a component over only where no session is registered,
and whoever registers next seeds after the release.
-/

namespace Brenn.Attach.Views
open Brenn.Lib Brenn.Queue Brenn.Store Brenn.Bus Std

universe u v w

variable {U : Type u} {T : Type v} {S : Type w} [LinearOrder T] [LinearOrder S]

/-! ### What is owed and what is on its way -/

variable {surface : Surface T} {world next : World U T S} {target : DeferredTarget T}

theorem lastView_append (target : DeferredTarget T) (first second : List (DeferredViewPush U T)) :
    lastView target (first ++ second) = (lastView target second).or (lastView target first) := by
  simp only [lastView, List.filter_append, List.getLast?_append]
  cases (second.filter fun view => decide (view.Names target)).getLast? <;> rfl

theorem lastView_named {view : DeferredViewPush U T} (named : view.Names target) :
    lastView target [view] = some view.entries := by
  simp [lastView, named]

theorem lastView_unnamed {view : DeferredViewPush U T} (other : ¬ view.Names target) : lastView target [view] = none := by
  simp [lastView, other]

def Activity.remaining (surface : Surface T) : Activity U T → List (DeferredTarget T)
  | .opening => surface.deferredViewTargets
  | .seeding targets => targets
  | .reading | .controlling .. | .publishing .. | .emitting .. => []

/-- A batch under way will read this set again. -/
def Activity.Owes (target : DeferredTarget T) : Activity U T → Prop
  | .controlling attribution _ _ _ channels | .publishing attribution _ channels | .emitting attribution channels _ =>
    attribution = some target.component ∧ target.channel ∈ channels
  | .opening | .seeding _ | .reading => False

/-- Every schedule still to be applied is on a channel to be restated. -/
def Activity.Listed : Activity U T → Prop
  | .publishing _ sections touched => ∀ together ∈ sections, ∀ schedule ∈ together, schedule.entry.channel ∈ touched
  | _ => True

def Sweep.Owes (target : DeferredTarget T) : Sweep T → Prop
  | .restating _ channel components _ _ => channel = target.channel ∧ target.component ∈ components
  | .idle | .checking .. | .releasing .. => False

/-- What a page will show last: the last view queued or in hand, else the seed to come, else what it was sent. -/
def Session.heading (surface : Surface T) (gate : Option (Emission U T)) (target : DeferredTarget T)
    (current : List (DeferredViewEntry U T)) (session : Session U T) : List (DeferredViewEntry U T) :=
  (lastView target (session.queue.filterMap SessionPush.view ++ gate.toList.map Emission.view)).getD
    (if target ∈ session.activity.remaining surface then current else (lastView target session.sent).getD [])

/-- Two sessions that differ at most in what their tasks do next. -/
structure Session.Alike (surface : Surface T) (before session : Session U T) : Prop where
  views : session.queue.filterMap SessionPush.view = before.queue.filterMap SessionPush.view
  sent : session.sent = before.sent
  remaining : session.activity.remaining surface = before.activity.remaining surface
  listed : before.activity.Listed → session.activity.Listed

omit [LinearOrder T] in
theorem Session.Alike.refl (session : Session U T) : session.Alike surface session := ⟨rfl, rfl, rfl, id⟩

theorem Session.Alike.heading {before session : Session U T} (alike : before.Alike surface session)
    (gate : Option (Emission U T)) (target : DeferredTarget T) (current : List (DeferredViewEntry U T)) :
    session.heading surface gate target current = before.heading surface gate target current := by
  unfold Session.heading
  rw [alike.views, alike.sent, alike.remaining]

namespace World

/-- A task under way will read this set again. -/
def Owed (world : World U T S) (target : DeferredTarget T) : Prop :=
  (∃ (id : Nat) (session : Session U T), world.sessions[id]? = some session ∧ session.activity.Owes target) ∨ world.sweep.Owes target

/-- A session that holds the gate is registered and emitting. -/
def Emitters (world : World U T S) : Prop :=
  ∀ (emission : Emission U T) (id : Nat), world.gate = some emission → emission.holder = some id →
    ∃ (session : Session U T) (attribution : Option T) (channels : List T) (violated : Bool),
      world.sessions[id]? = some session ∧ session.activity = .emitting attribution channels violated

def Settled (surface : Surface T) (world : World U T S) (session : Session U T) : Prop :=
  ∀ target ∈ surface.deferredViewTargets, world.Owed target ∨
    session.heading surface world.gate target (world.parked surface target) = world.parked surface target

/-- A session seeds each mirror once, and has sent nothing for one it has yet to seed. -/
structure Seeds (surface : Surface T) (session : Session U T) : Prop where
  distinct : (session.activity.remaining surface).Nodup
  unsent : ∀ target ∈ session.activity.remaining surface, lastView target session.sent = none
  listed : session.activity.Listed

/-- Wherever a page would end with something else than the parked set, an emission is owed. -/
structure Sound (surface : Surface T) (world : World U T S) : Prop where
  numbered : ∀ (channel : T) (store : Retention U T S), world.stores[channel]? = some store → store.Numbered world.nextRow
  emitters : world.Emitters
  fresh : ∀ emission : Emission U T, world.gate = some emission → ∀ target, emission.view.Names target →
    world.Owed target ∨ emission.view.entries = world.parked surface target
  seeds : ∀ (id : Nat) (session : Session U T), world.sessions[id]? = some session → Seeds surface session
  settled : ∀ (id : Nat) (session : Session U T), world.sessions[id]? = some session → world.Settled surface session

theorem parked_congr (same : next.stores = world.stores) (target : DeferredTarget T) :
    next.parked surface target = world.parked surface target := by
  unfold parked deferredViewForSender
  rw [same]

/-- A step that changes a parked set only where it then owes an emission. -/
theorem Sound.turn (sound : world.Sound surface)
    (numbered : ∀ (channel : T) (store : Retention U T S), next.stores[channel]? = some store → store.Numbered next.nextRow)
    (emitters : next.Emitters) (gate : next.gate = world.gate)
    (owed : ∀ target, world.Owed target → next.Owed target)
    (parked : ∀ target, next.parked surface target = world.parked surface target ∨ next.Owed target)
    (sessions : ∀ (id : Nat) (session : Session U T), next.sessions[id]? = some session →
      ∃ before : Session U T, world.sessions[id]? = some before ∧ before.Alike surface session) : next.Sound surface where
  numbered := numbered
  emitters := emitters
  fresh emission held target named := by
    rcases parked target with same | changed
    · rw [same]
      exact (sound.fresh emission (gate ▸ held) target named).imp_left (owed target)
    · exact .inl changed
  seeds id session found := by
    obtain ⟨before, was, alike⟩ := sessions id session found
    obtain ⟨distinct, unsent, listed⟩ := sound.seeds id before was
    exact ⟨alike.remaining ▸ distinct, alike.remaining ▸ alike.sent ▸ unsent, alike.listed listed⟩
  settled id session found target listed := by
    obtain ⟨before, was, alike⟩ := sessions id session found
    rcases parked target with same | changed
    · rw [same, gate, alike.heading]
      exact (sound.settled id before was target listed).imp_left (owed target)
    · exact .inl changed

/-! ### One session's task -/

variable {id : Nat} {session : Session U T}

def Apart (world : World U T S) (id : Nat) : Prop := ∀ emission : Emission U T, world.gate = some emission → emission.holder ≠ some id

theorem apart_of_held (free : world.held (some id) = none) : world.Apart id := by
  intro emission gate holder
  simp [held, gate, holder] at free

theorem Sound.apart (sound : world.Sound surface) (found : world.sessions[id]? = some session)
    (busy : ∀ attribution channels violated, session.activity ≠ .emitting attribution channels violated) :
    world.Apart id := by
  intro emission gate holder
  obtain ⟨emitter, attribution, channels, violated, here, emits⟩ := sound.emitters emission id gate holder
  obtain rfl : session = emitter := Option.some.inj (found.symm.trans here)
  exact busy attribution channels violated emits

/-- What is owed stays so when one session is written, as long as it owes no less. -/
theorem Owed.insert (owed : world.Owed target) (found : world.sessions[id]? = some session) {written : Session U T}
    (owes : session.activity.Owes target → written.activity.Owes target)
    (sessions : next.sessions = world.sessions.insert id written) (sweep : next.sweep = world.sweep) :
    next.Owed target := by
  rcases owed with ⟨other, held, there, due⟩ | due
  · refine .inl ?_
    by_cases same : id = other
    · subst same
      obtain rfl : session = held := Option.some.inj (found.symm.trans there)
      exact ⟨id, written, by simp [sessions], owes due⟩
    · exact ⟨other, held, by rw [sessions, lookup_insert, if_neg same, there], due⟩
  · exact .inr (sweep ▸ due)

theorem Emitters.insert (emitters : world.Emitters) (apart : world.Apart id) {written : Session U T}
    (gate : next.gate = world.gate) (sessions : next.sessions = world.sessions.insert id written) : next.Emitters := by
  intro emission other held holder
  have different : id ≠ other := fun same => apart emission (gate ▸ held) (same ▸ holder)
  rw [sessions, lookup_insert, if_neg different]
  exact emitters emission other (gate ▸ held) holder

/-- A session's task goes on to its next activity, and may change stores it then owes views of. -/
theorem Sound.acts (sound : world.Sound surface) (found : world.sessions[id]? = some session) (apart : world.Apart id)
    {activity : Activity U T} {stores : TreeMap T (Retention U T S)} {nextRow : Nat}
    (numbered : ∀ (channel : T) (store : Retention U T S), stores[channel]? = some store → store.Numbered nextRow)
    (remaining : activity.remaining surface = session.activity.remaining surface)
    (listed : session.activity.Listed → activity.Listed)
    (owes : ∀ target, session.activity.Owes target → activity.Owes target)
    (parked : ∀ target, { world with stores }.parked surface target = world.parked surface target ∨ activity.Owes target) :
    ({ world with stores, nextRow }.setSession id session activity).Sound surface := by
  have here : ({ world with stores, nextRow }.setSession id session activity).sessions[id]? =
      some { session with activity } := by simp [setSession]
  refine sound.turn numbered (sound.emitters.insert apart rfl rfl) rfl
    (fun target owed => owed.insert found (owes target) rfl rfl) (fun target => ?_) fun other held there => ?_
  · exact (parked target).imp_right fun due => .inl ⟨id, _, here, due⟩
  · by_cases same : id = other
    · subst same
      obtain rfl := Option.some.inj (here.symm.trans there)
      exact ⟨session, found, rfl, rfl, remaining, listed⟩
    · rw [setSession, lookup_insert, if_neg same] at there
      exact ⟨held, there, .refl held⟩

/-- One session sends or is pushed something, and heads where it did. -/
theorem Sound.shows (sound : world.Sound surface) (found : world.sessions[id]? = some session) {written : Session U T}
    (emits : world.Apart id ∨ written.activity = session.activity)
    (owes : ∀ target, session.activity.Owes target → written.activity.Owes target) (seeds : Seeds surface written)
    (heading : ∀ target ∈ surface.deferredViewTargets,
      written.heading surface world.gate target (world.parked surface target) =
        session.heading surface world.gate target (world.parked surface target)) :
    { world with sessions := world.sessions.insert id written }.Sound surface := by
  have owed target (due : world.Owed target) :
      ({ world with sessions := world.sessions.insert id written } : World U T S).Owed target :=
    due.insert found (owes target) rfl rfl
  refine ⟨sound.numbered, ?_, fun emission gate target named => (sound.fresh emission gate target named).imp_left
    (owed target), ?_, ?_⟩
  · rcases emits with apart | same
    · exact sound.emitters.insert apart rfl rfl
    · intro emission other gate holder
      obtain ⟨emitter, attribution, channels, violated, there, active⟩ := sound.emitters emission other gate holder
      rw [lookup_insert]
      split
      next here =>
        subst here
        obtain rfl : session = emitter := Option.some.inj (found.symm.trans there)
        exact ⟨written, attribution, channels, violated, rfl, same.trans active⟩
      · exact ⟨emitter, attribution, channels, violated, there, active⟩
  · exact forall_lookup_insert seeds fun other held _ there => sound.seeds other held there
  · refine forall_lookup_insert (fun target listed => ?_) fun other held _ there target listed =>
      (sound.settled other held there target listed).imp_left (owed target)
    exact (sound.settled id session found target listed).imp (owed target) (heading target listed).trans

/-! ### Registering, seeding and forwarding -/

theorem Sound.tryRegister (sound : world.Sound surface) (unused : world.sessions[id]? = none) (account : T) :
    (world.tryRegister surface id account).Sound surface := by
  unfold World.tryRegister
  split
  · exact sound
  split
  · exact sound
  generalize written : (⟨account, .opening, [], []⟩ : Session U T) = opened
  have others (other : Nat) (held : Session U T) (there : world.sessions[other]? = some held) :
      (world.sessions.insert id opened)[other]? = some held := by
    have different : id ≠ other := fun same => by simp [same ▸ unused] at there
    rw [lookup_insert, if_neg different, there]
  have owed target (due : world.Owed target) :
      ({ world with sessions := world.sessions.insert id opened } : World U T S).Owed target :=
    due.imp_left fun ⟨other, held, there, owes⟩ => ⟨other, held, others other held there, owes⟩
  refine ⟨sound.numbered, ?_, fun emission gate target named =>
    (sound.fresh emission gate target named).imp_left (owed target), ?_, ?_⟩
  · intro emission other gate holder
    obtain ⟨emitter, attribution, channels, violated, there, active⟩ := sound.emitters emission other gate holder
    exact ⟨emitter, attribution, channels, violated, others other emitter there, active⟩
  · subst written
    exact forall_lookup_insert ⟨surface.distinct, fun _ _ => rfl, trivial⟩
      fun other held _ there => sound.seeds other held there
  · refine forall_lookup_insert (fun target listed => ?_) fun other held _ there target listed =>
      (sound.settled other held there target listed).imp_left (owed target)
    -- a view in hand for this mirror is current or about to be restated
    subst written
    show _ ∨ Session.heading surface world.gate target (world.parked surface target) _ = world.parked surface target
    unfold Session.heading
    cases gate : world.gate with
    | none => exact .inr (if_pos listed)
    | some emission =>
      by_cases named : emission.view.Names target
      · refine (sound.fresh emission gate target named).imp (owed target) fun current => ?_
        simp [lastView_named named, current]
      · refine .inr ?_
        simp [lastView_unnamed named, Activity.remaining, listed]

theorem Sound.seed (sound : world.Sound surface) (found : world.sessions[id]? = some session)
    {first : DeferredTarget T} {targets : List (DeferredTarget T)} (seeding : session.activity = .seeding (first :: targets))
    {entries : List (DeferredViewEntry U T)}
    (read : world.deferredViewForSender surface first.channel (some first.component) = some entries) :
    (world.setSession id
      { session with sent := session.sent ++ if entries.isEmpty then [] else [⟨first.channel, some first.component, entries⟩] }
      (.seeding targets)).Sound surface := by
  obtain ⟨distinct, unsent, -⟩ := sound.seeds id session found
  simp only [seeding, Activity.remaining] at distinct unsent
  obtain ⟨apart, rest⟩ := List.nodup_cons.mp distinct
  have current : world.parked surface first = entries := by rw [parked, read, Option.getD_some]
  -- the seed says nothing of another mirror, and all there is to say of its own
  have other target (different : target ≠ first) : lastView target (session.sent ++
      if entries.isEmpty then [] else [⟨first.channel, some first.component, entries⟩]) = lastView target session.sent := by
    have unnamed : ¬ (⟨first.channel, some first.component, entries⟩ : DeferredViewPush U T).Names target :=
      fun named => different (by cases target; cases first; cases named.1; cases named.2; rfl)
    split
    · rw [List.append_nil]
    · rw [lastView_append, lastView_unnamed unnamed, Option.none_or]
  have own : (lastView first (session.sent ++
      if entries.isEmpty then [] else [⟨first.channel, some first.component, entries⟩])).getD [] = entries := by
    split
    next empty => rw [List.append_nil, unsent first List.mem_cons_self, List.isEmpty_iff.mp empty, Option.getD_none]
    · rw [lastView_append, lastView_named ⟨rfl, rfl⟩, Option.some_or, Option.getD_some]
  refine sound.shows found (.inl (sound.apart found (by simp [seeding]))) (by simp [seeding, Activity.Owes])
    ⟨rest, fun target listed => ?_, trivial⟩ fun target _ => ?_
  · rw [other target fun same => apart (same ▸ listed)]
    exact unsent target (List.mem_cons_of_mem first listed)
  · unfold Session.heading
    simp only [seeding, Activity.remaining, List.mem_cons]
    congr 1
    by_cases same : target = first
    · simp only [same, apart, if_false, true_or, if_true, own, current]
    · simp only [same, false_or, other target same]

theorem Sound.forward (sound : world.Sound surface) (found : world.sessions[id]? = some session)
    (reading : session.activity = .reading) (count : Nat) :
    { world with sessions := world.sessions.insert id (session.forward count) }.Sound surface := by
  refine sound.shows found (.inr rfl) (fun _ owes => owes) ?_ fun target _ => ?_
  · refine ⟨?_, ?_, ?_⟩ <;> simp [Session.forward, reading, Activity.remaining, Activity.Listed]
  · have queued : session.queue.filterMap SessionPush.view =
        (session.queue.take count).filterMap SessionPush.view ++ (session.queue.drop count).filterMap SessionPush.view := by
      rw [← List.filterMap_append, List.take_append_drop]
    simp only [Session.heading, Session.forward, reading, Activity.remaining, List.not_mem_nil, if_false, queued,
      lastView_append]
    cases lastView target (world.gate.toList.map Emission.view) <;>
      cases lastView target ((session.queue.drop count).filterMap SessionPush.view) <;>
      cases lastView target ((session.queue.take count).filterMap SessionPush.view) <;> rfl

theorem Sound.live (sound : world.Sound surface) (id : Nat) :
    { world with sessions := world.sessions.modify id fun session => session.tryPush .live }.Sound surface := by
  have alike (session : Session U T) : session.Alike surface (session.tryPush .live) ∧
      (session.tryPush .live).activity = session.activity := by
    unfold Session.tryPush
    split
    · exact ⟨⟨by simp [SessionPush.view], rfl, rfl, fun listed => listed⟩, rfl⟩
    · exact ⟨.refl session, rfl⟩
  have kept (other : Nat) (held : Session U T) (there : world.sessions[other]? = some held) :
      ∃ after, (world.sessions.modify id fun session => session.tryPush .live)[other]? = some after ∧
        after.activity = held.activity := by
    rw [lookup_modify, there]
    split
    · exact ⟨_, rfl, (alike held).2⟩
    · exact ⟨_, rfl, rfl⟩
  refine sound.turn sound.numbered ?_ rfl (fun target due => ?_) (fun target => .inl rfl) fun other held there => ?_
  · intro emission other gate holder
    obtain ⟨emitter, attribution, channels, violated, there, active⟩ := sound.emitters emission other gate holder
    obtain ⟨after, present, same⟩ := kept other emitter there
    exact ⟨after, attribution, channels, violated, present, same.trans active⟩
  · refine due.imp_left fun ⟨other, held, there, owes⟩ => ?_
    obtain ⟨after, present, same⟩ := kept other held there
    exact ⟨other, after, present, same ▸ owes⟩
  · rw [lookup_modify] at there
    split at there
    · obtain ⟨before, was, rfl⟩ := Option.map_eq_some_iff.mp there
      exact ⟨before, was, (alike before).1⟩
    · exact ⟨held, there, .refl held⟩

theorem Sound.leaves (sound : world.Sound surface) (found : world.sessions[id]? = some session) (apart : world.Apart id)
    (clear : ∀ target, ¬ session.activity.Owes target) :
    { world with sessions := world.sessions.erase id }.Sound surface := by
  have kept (other : Nat) (held : Session U T) (there : world.sessions[other]? = some held) (different : id ≠ other) :
      (world.sessions.erase id)[other]? = some held := by rw [lookup_erase, if_neg different, there]
  refine sound.turn sound.numbered ?_ rfl (fun target due => ?_) (fun target => .inl rfl)
    fun other held there => ⟨held, lookup_of_erase there, .refl held⟩
  · intro emission other gate holder
    obtain ⟨emitter, attribution, channels, violated, there, active⟩ := sound.emitters emission other gate holder
    have different : id ≠ other := fun same => apart emission gate (same ▸ holder)
    exact ⟨emitter, attribution, channels, violated, kept other emitter there different, active⟩
  · refine due.imp_left fun ⟨other, held, there, owes⟩ => ⟨other, held, kept other held there ?_, owes⟩
    rintro rfl
    obtain rfl : session = held := Option.some.inj (found.symm.trans there)
    exact clear target owes

/-! ### Reading and handing off -/

/-- An emitter takes the gate and reads one set. -/
theorem Sound.reads (sound : world.Sound surface) (free : world.gate = none) {emission : Emission U T}
    (stores : next.stores = world.stores) (nextRow : next.nextRow = world.nextRow) (gate : next.gate = some emission)
    (emitters : next.Emitters)
    (entries : ∀ target, emission.view.Names target → emission.view.entries = world.parked surface target)
    (owed : ∀ target, ¬ emission.view.Names target → world.Owed target → next.Owed target)
    (sessions : ∀ (id : Nat) (session : Session U T), next.sessions[id]? = some session →
      ∃ before : Session U T, world.sessions[id]? = some before ∧ before.Alike surface session) : next.Sound surface where
  numbered := by rw [stores, nextRow]; exact sound.numbered
  emitters := emitters
  fresh held taken target named := by
    obtain rfl := Option.some.inj (gate.symm.trans taken)
    exact .inr ((entries target named).trans (parked_congr stores target).symm)
  seeds id session found := by
    obtain ⟨before, was, alike⟩ := sessions id session found
    obtain ⟨distinct, unsent, listed⟩ := sound.seeds id before was
    exact ⟨alike.remaining ▸ distinct, alike.remaining ▸ alike.sent ▸ unsent, alike.listed listed⟩
  settled id session found target listed := by
    obtain ⟨before, was, alike⟩ := sessions id session found
    rw [parked_congr stores target, gate]
    by_cases named : emission.view.Names target
    · refine .inr ?_
      simp [Session.heading, lastView_append, lastView_named named, entries target named]
    · refine (sound.settled id before was target listed).imp (owed target named) fun agrees => ?_
      rw [alike.heading]
      rw [free] at agrees
      simpa [Session.heading, lastView_append, lastView_unnamed named] using agrees

/-- The view in hand goes behind what every session has queued. -/
theorem Sound.hands (sound : world.Sound surface) {emission : Emission U T} (gate : world.gate = some emission)
    (room : ∀ held ∈ world.sessions.toList, held.2.queue.length < pushQueueFrames) :
    (world.pushDeferredView emission.view).Sound surface := by
  have there (id : Nat) : (world.pushDeferredView emission.view).sessions[id]? =
      world.sessions[id]?.map fun session => session.tryPush (.deferredView emission.view) := by
    simp [pushDeferredView]
  have pushed (id : Nat) (session : Session U T) (found : world.sessions[id]? = some session) :
      session.tryPush (.deferredView emission.view) =
        { session with queue := session.queue ++ [.deferredView emission.view] } :=
    if_pos (room (id, session) (TreeMap.mem_toList_iff_getElem?_eq_some.mpr found))
  have owed target (due : world.Owed target) : (world.pushDeferredView emission.view).Owed target := by
    refine due.imp_left fun ⟨id, session, found, owes⟩ => ⟨id, _, (there id).trans (congrArg _ found), ?_⟩
    simpa only [pushed id session found] using owes
  refine ⟨sound.numbered, nofun, nofun, fun id session found => ?_, fun id session found target listed => ?_⟩
  all_goals
    rw [there] at found
    obtain ⟨before, was, rfl⟩ := Option.map_eq_some_iff.mp found
    rw [pushed id before was]
  · exact ⟨(sound.seeds id before was).distinct, (sound.seeds id before was).unsent, (sound.seeds id before was).listed⟩
  · refine (sound.settled id before was target listed).imp (owed target) fun agrees => ?_
    have same : (world.pushDeferredView emission.view).parked surface target = world.parked surface target := rfl
    have free : (world.pushDeferredView emission.view).gate = none := rfl
    rw [gate] at agrees
    rw [same, free]
    simpa [Session.heading, SessionPush.view] using agrees

theorem Sound.hands_held (sound : world.Sound surface) {holder : Option Nat} {view : DeferredViewPush U T}
    (mine : world.held holder = some view)
    (room : ∀ held ∈ world.sessions.toList, held.2.queue.length < pushQueueFrames) :
    (world.pushDeferredView view).Sound surface := by
  obtain ⟨emission, taken, rfl⟩ := Option.map_eq_some_iff.mp mine
  exact sound.hands (Option.filter_eq_some_iff.mp taken).1 room

/-! ### The store sections -/

theorem parked_insert {channel : T} {store written : Retention U T S} (held : world.stores[channel]? = some store)
    {target : DeferredTarget T} (same : channel = target.channel →
      written.deferredForSender (surface.principal (some target.component)) =
        store.deferredForSender (surface.principal (some target.component))) :
    ({ world with stores := world.stores.insert channel written } : World U T S).parked surface target =
      world.parked surface target := by
  unfold parked deferredViewForSender
  rw [lookup_insert]
  split
  next here =>
    subst here
    rw [held, Option.map_some, Option.map_some, same rfl]
  · rfl

/-- A call under one sender changes the parked set of the component that is that sender. -/
theorem parked_of_leaves {channel : T} {store written : Retention U T S} (held : world.stores[channel]? = some store)
    {attribution : Option T} {nextRow : Nat} (leaves : store.Leaves nextRow (surface.principal attribution) written)
    (target : DeferredTarget T) :
    ({ world with stores := world.stores.insert channel written } : World U T S).parked surface target =
        world.parked surface target ∨ attribution = some target.component ∧ channel = target.channel := by
  by_cases own : attribution = some target.component ∧ channel = target.channel
  · exact .inr own
  · refine .inl (parked_insert held fun here => leaves.others _ fun same => own ⟨?_, here⟩)
    rw [← surface.component_principal attribution, ← same, surface.component_principal]

theorem numbered_insert (numbered : ∀ (channel : T) (store : Retention U T S), world.stores[channel]? = some store →
      store.Numbered world.nextRow) (channel : T) {written : Retention U T S} {nextRow : Nat}
    (grown : world.nextRow ≤ nextRow) (kept : written.Numbered nextRow) :
    ∀ (other : T) (store : Retention U T S), (world.stores.insert channel written)[other]? = some store →
      store.Numbered nextRow :=
  forall_lookup_insert kept fun other store _ there => (numbered other store there).mono grown

/-- Parking touches the stores alone, and its sender's sets on the channels it parks on. -/
theorem parkSection_spec {attribution : Option T} (schedules : List (Schedule U T))
    (numbered : ∀ (channel : T) (store : Retention U T S), world.stores[channel]? = some store →
      store.Numbered world.nextRow)
    (parkedAll : parkSection (surface.principal attribution) schedules world = some next) :
    next = { world with stores := next.stores, nextRow := next.nextRow } ∧
      (∀ (channel : T) (store : Retention U T S), next.stores[channel]? = some store → store.Numbered next.nextRow) ∧
      ∀ target, next.parked surface target = world.parked surface target ∨
        attribution = some target.component ∧ ∃ schedule ∈ schedules, schedule.entry.channel = target.channel := by
  induction schedules generalizing world with
  | nil =>
    obtain rfl := Option.some.inj parkedAll
    exact ⟨rfl, numbered, fun _ => .inl rfl⟩
  | cons schedule rest ih =>
    obtain ⟨between, one, others⟩ := Option.bind_eq_some_iff.mp parkedAll
    obtain ⟨store, held, rfl⟩ := Option.map_eq_some_iff.mp one
    have leaves := Retention.park_leaves (numbered _ store held) schedule.entry.messageId
      ⟨surface.principal attribution, schedule.entry.body, schedule.entry.urgency, none⟩ schedule.releaseAt
    obtain ⟨frame, kept, changed⟩ := ih (numbered_insert numbered _ (Nat.le_succ _) leaves.numbered) others
    refine ⟨frame, kept, fun target => ?_⟩
    rcases changed target with same | ⟨own, later, listed, here⟩
    · rcases parked_of_leaves held leaves target with old | ⟨own, here⟩
      · exact .inl (same.trans old)
      · exact .inr ⟨own, schedule, List.mem_cons_self, here⟩
    · exact .inr ⟨own, later, List.mem_cons_of_mem schedule listed, here⟩

theorem mem_of_mem_sections {scheduled together : List (Schedule U T)} (listed : together ∈ world.sections scheduled)
    {schedule : Schedule U T} (member : schedule ∈ together) : schedule ∈ scheduled := by
  rcases List.mem_cons.mp listed with rfl | alone
  · exact List.mem_of_mem_filter member
  · obtain ⟨only, held, rfl⟩ := List.mem_map.mp alone
    rw [List.mem_singleton.mp member]
    exact List.mem_of_mem_filter held

theorem mem_sortedOnce {name : T} {names : List T} : name ∈ sortedOnce names ↔ name ∈ names := by simp [sortedOnce]

section Steps

variable [DecidableEq U]

theorem applyDeferredOp_leaves {store : Retention U T S} {nextRow : Nat} (numbered : store.Numbered nextRow) (sender : T)
    (flushNow : Nat) (op : ResolvedDeferredOp U T) :
    store.Leaves nextRow sender (applyDeferredOp sender flushNow op store).2 := by
  unfold applyDeferredOp
  split
  · exact Retention.cancelDeferred_leaves numbered sender op.messageId flushNow
  · exact Retention.editDeferred_leaves numbered sender op.messageId _ _ flushNow

theorem applyDeferredOp_refused {store : Retention U T S} {sender : T} {flushNow : Nat} {op : ResolvedDeferredOp U T}
    (refused : (applyDeferredOp sender flushNow op store).1 = .wrongSender) :
    (applyDeferredOp sender flushNow op store).2 = store := by
  revert refused
  unfold applyDeferredOp
  -- each of the four calls answers so only where it returned before writing
  rcases op.edit with _ | ⟨body, releaseAt⟩ <;> cases store <;>
    simp only [Retention.cancelDeferred, Retention.editDeferred, RingStore.cancelDeferred, RingStore.editDeferred,
      DbChannel.cancelDeferred, DbChannel.editDeferred, Prod.map_fst, Prod.map_snd] <;>
    split
  all_goals first
    | exact fun _ => rfl
    | split <;> simp

/-- A control op: its channel is collected, or the batch is refused and changed nothing here. -/
theorem Sound.controls (sound : world.Sound surface) (found : world.sessions[id]? = some session) (apart : world.Apart id)
    {attribution : Option T} {flushNow : Nat} {op : ResolvedDeferredOp U T} {ops : List (ResolvedDeferredOp U T)}
    {entries : List (BatchEntry U T)} {opChannels : List T}
    (active : session.activity = .controlling attribution flushNow (op :: ops) entries opChannels)
    (stepped : world.proceed surface id session = some next) : next.Sound surface := by
  simp only [World.proceed, active] at stepped
  obtain ⟨store, held, rfl⟩ := Option.map_eq_some_iff.mp stepped
  have leaves := applyDeferredOp_leaves (sound.numbered _ store held) (surface.principal attribution) flushNow op
  have numbered := numbered_insert sound.numbered op.channel le_rfl leaves.numbered
  split
  next refused =>
    refine sound.acts found apart numbered (by rw [active]; rfl) (fun _ => trivial) (fun target owes => ?_) fun target => .inl ?_
    · simpa only [active, Activity.Owes, mem_sortedOnce] using owes
    · refine parked_insert held fun _ => ?_
      rw [applyDeferredOp_refused refused]
  · refine sound.acts found apart numbered (by rw [active]; rfl) (fun _ => trivial) (fun target owes => ?_) fun target => ?_
    · rw [active] at owes
      exact ⟨owes.1, List.mem_append_left _ owes.2⟩
    · exact (parked_of_leaves held leaves target).imp_right fun ⟨own, here⟩ => ⟨own, by simp [here]⟩

theorem Sound.emits (sound : world.Sound surface) (found : world.sessions[id]? = some session)
    {attribution : Option T} {channel : T} {channels : List T} {violated : Bool}
    (active : session.activity = .emitting attribution (channel :: channels) violated)
    (stepped : world.proceed surface id session = some next) : next.Sound surface := by
  simp only [World.proceed, active] at stepped
  split at stepped
  · cases stepped
  next free =>
    obtain ⟨entries, read, rfl⟩ := Option.map_eq_some_iff.mp stepped
    refine sound.reads (by simpa using free) rfl rfl rfl ?_ (fun target named => ?_) (fun target other due => ?_)
      fun other held there => ?_
    · rintro emission other taken holder
      cases taken
      cases holder
      exact ⟨{ session with activity := .emitting attribution channels violated }, attribution, channels, violated,
        by simp [setSession], rfl⟩
    · obtain ⟨rfl, rfl⟩ := named
      rw [parked, read, Option.getD_some]
    · refine due.insert found (fun owes => ?_) rfl rfl
      rw [active] at owes
      refine ⟨owes.1, (List.mem_cons.mp owes.2).resolve_left fun here => other ⟨here.symm, owes.1⟩⟩
    · rw [setSession, lookup_insert] at there
      split at there
      next here =>
        obtain rfl := Option.some.inj there
        exact ⟨session, here ▸ found, rfl, rfl, by rw [active]; rfl, fun _ => trivial⟩
      · exact ⟨held, there, .refl held⟩

theorem Sound.proceed (sound : world.Sound surface) (found : world.sessions[id]? = some session) (apart : world.Apart id)
    (stepped : world.proceed surface id session = some next) : next.Sound surface := by
  cases active : session.activity with
  | opening | seeding _ | reading => simp [World.proceed, active] at stepped
  | controlling attribution flushNow ops entries opChannels =>
    cases ops with
    | cons op ops => exact sound.controls found apart active stepped
    | nil =>
      simp only [World.proceed, active, Option.some.injEq] at stepped
      subst stepped
      refine sound.acts found apart sound.numbered (by rw [active]; rfl) (fun _ => ?_) (fun target owes => ?_)
        fun target => .inl rfl
      · rintro together listed schedule member
        exact List.mem_append_left _ (List.mem_map_of_mem (mem_of_mem_sections listed member))
      · rw [active] at owes
        exact ⟨owes.1, List.mem_append_right _ owes.2⟩
  | publishing attribution sections touched =>
    cases sections with
    | cons together sections =>
      simp only [World.proceed, active] at stepped
      obtain ⟨changed, parkedAll, rfl⟩ := Option.map_eq_some_iff.mp stepped
      obtain ⟨frame, numbered, parked⟩ := parkSection_spec together sound.numbered parkedAll
      have listed : session.activity.Listed := (sound.seeds id session found).listed
      rw [active] at listed
      rw [frame]
      refine sound.acts found apart numbered (by rw [active]; rfl)
        (fun _ other member => listed other (List.mem_cons_of_mem together member)) (fun target owes => ?_) fun target => ?_
      · rwa [active] at owes
      · refine (parked target).imp_right fun ⟨own, schedule, member, here⟩ => ⟨own, ?_⟩
        exact here ▸ listed together List.mem_cons_self schedule member
    | nil =>
      simp only [World.proceed, active, Option.some.injEq] at stepped
      subst stepped
      refine sound.acts found apart sound.numbered (by rw [active]; rfl) (fun _ => trivial) (fun target owes => ?_)
        fun target => .inl rfl
      simpa only [active, Activity.Owes, mem_sortedOnce] using owes
  | emitting attribution channels violated =>
    cases channels with
    | cons channel channels => exact sound.emits found active stepped
    | nil =>
      have clear target : ¬ session.activity.Owes target := by simp [active, Activity.Owes]
      cases violated with
      | false =>
        simp only [World.proceed, active, Option.some.injEq] at stepped
        subst stepped
        exact sound.acts found apart sound.numbered (by rw [active]; rfl) (fun _ => trivial)
          (fun target owes => absurd owes (clear target)) fun target => .inl rfl
      | true =>
        simp only [World.proceed, active, Option.some.injEq] at stepped
        subst stepped
        exact sound.leaves found apart clear

/-! ### The sweep -/

omit [DecidableEq U] in
/-- A move of the sweep that owes no less and changes no set it does not owe. -/
theorem Sound.sweeps (sound : world.Sound surface) {stores : TreeMap T (Retention U T S)} {sweep : Sweep T}
    (numbered : ∀ (channel : T) (store : Retention U T S), stores[channel]? = some store → store.Numbered world.nextRow)
    (owes : ∀ target, world.sweep.Owes target → sweep.Owes target)
    (parked : ∀ target, { world with stores }.parked surface target = world.parked surface target ∨ sweep.Owes target) :
    { world with stores, sweep }.Sound surface :=
  sound.turn numbered sound.emitters rfl (fun target due => due.imp_right (owes target))
    (fun target => (parked target).imp_right .inr) fun _ held there => ⟨held, there, .refl held⟩

omit [DecidableEq U] in
theorem Sound.releases (sound : world.Sound surface) {now : Nat} {channel : T} {channels : List T}
    (releasing : world.sweep = .releasing now channel channels) (stepped : world.sweepOn surface = some next) :
    next.Sound surface := by
  simp only [World.sweepOn, releasing] at stepped
  obtain ⟨⟨senders, store⟩, released, rfl⟩ := Option.map_eq_some_iff.mp stepped
  obtain ⟨before, held, swept⟩ := Option.bind_eq_some_iff.mp released
  obtain ⟨kept, others⟩ := Retention.releaseDue_leaves (sound.numbered _ before held) swept
  refine sound.sweeps (numbered_insert sound.numbered channel le_rfl kept) (by simp [releasing, Sweep.Owes]) fun target => ?_
  by_cases reported : surface.principal (some target.component) ∈ senders
  · by_cases here : channel = target.channel
    · refine .inr ⟨here, mem_sortedOnce.mpr (List.mem_filterMap.mpr ⟨_, reported, ?_⟩)⟩
      exact surface.component_principal (some target.component)
    · exact .inl (parked_insert held fun same => absurd same here)
  · exact .inl (parked_insert held fun _ => others _ reported)

omit [DecidableEq U] in
/-- Where no session is registered none holds the gate, and nobody is there to be shown anything. -/
theorem Sound.skips (sound : world.Sound surface) (empty : world.sessions.isEmpty = true) (free : world.held none = none)
    (sweep : Sweep T) : { world with sweep }.Sound surface := by
  have nobody (id : Nat) : world.sessions[id]? = none := TreeMap.getElem?_of_isEmpty empty
  have gate : world.gate = none := by
    cases gate : world.gate with
    | none => rfl
    | some emission =>
      cases holder : emission.holder with
      | none => simp [held, gate, holder] at free
      | some id =>
        obtain ⟨session, _, _, _, there, _⟩ := sound.emitters emission id gate holder
        simp [nobody] at there
  refine ⟨sound.numbered, fun emission id taken => ?_, fun emission taken => ?_, fun id session found => ?_,
    fun id session found => ?_⟩
  · exact absurd (gate.symm.trans taken) nofun
  · exact absurd (gate.symm.trans taken) nofun
  all_goals exact absurd ((nobody id).symm.trans found) nofun

omit [DecidableEq U] in
theorem Sound.sweepOn (sound : world.Sound surface) (free : world.held none = none)
    (stepped : world.sweepOn surface = some next) : next.Sound surface := by
  cases active : world.sweep with
  | idle => simp [World.sweepOn, active] at stepped
  | checking now channels =>
    have clear {sweep : Sweep T} target : world.sweep.Owes target → sweep.Owes target := by simp [active, Sweep.Owes]
    cases channels with
    | nil =>
      simp only [World.sweepOn, active, Option.some.injEq] at stepped
      subst stepped
      exact sound.sweeps sound.numbered clear fun _ => .inl rfl
    | cons channel channels =>
      simp only [World.sweepOn, active] at stepped
      obtain ⟨store, -, rfl⟩ := Option.map_eq_some_iff.mp stepped
      split <;> exact sound.sweeps sound.numbered clear fun _ => .inl rfl
  | releasing now channel channels => exact sound.releases active stepped
  | restating now channel components attached channels =>
    cases components with
    | nil =>
      simp only [World.sweepOn, active, Option.some.injEq] at stepped
      subst stepped
      exact sound.sweeps sound.numbered (by simp [active, Sweep.Owes]) fun _ => .inl rfl
    | cons component components =>
      cases attached with
      | false =>
        simp only [World.sweepOn, active, Option.some.injEq] at stepped
        subst stepped
        split
        next empty => exact sound.skips empty free _
        · exact sound.sweeps sound.numbered (fun target owes => by rwa [active] at owes) fun _ => .inl rfl
      | true =>
        simp only [World.sweepOn, active] at stepped
        split at stepped
        · cases stepped
        next clear =>
          obtain ⟨entries, read, rfl⟩ := Option.map_eq_some_iff.mp stepped
          refine sound.reads (by simpa using clear) rfl rfl rfl ?_ (fun target named => ?_) (fun target other due => ?_)
            fun _ held there => ⟨held, there, .refl held⟩
          · rintro emission id taken holder
            cases taken
            cases holder
          · obtain ⟨rfl, own⟩ := named
            rw [parked, ← own, read, Option.getD_some]
          · refine due.imp_right fun owes => ?_
            rw [active] at owes
            refine ⟨owes.1, (List.mem_cons.mp owes.2).resolve_left fun same => other ⟨owes.1, ?_⟩⟩
            rw [same]

/-! ### Runs -/

theorem Sound.step (sound : world.Sound surface) {event : Event U T} (roomy : world.Roomy event)
    (stepped : world.step surface event = some next) : next.Sound surface := by
  cases event with
  | register id account =>
    simp only [World.step] at stepped
    split at stepped
    · cases stepped
    next unused =>
      obtain rfl := Option.some.inj stepped
      exact sound.tryRegister (TreeMap.getElem?_eq_none unused) account
  | welcome id =>
    obtain ⟨session, found, went⟩ := Option.bind_eq_some_iff.mp stepped
    split at went
    next opening =>
      obtain rfl := Option.some.inj went
      exact sound.acts found (sound.apart found (by simp [opening])) sound.numbered (by rw [opening]; rfl)
        (fun _ => trivial) (by simp [opening, Activity.Owes]) fun _ => .inl rfl
    · cases went
  | seed id =>
    obtain ⟨session, found, went⟩ := Option.bind_eq_some_iff.mp stepped
    split at went
    next seeded =>
      obtain rfl := Option.some.inj went
      exact sound.acts found (sound.apart found (by simp [seeded])) sound.numbered (by rw [seeded]; rfl)
        (fun _ => trivial) (by simp [seeded, Activity.Owes]) fun _ => .inl rfl
    next target targets seeding =>
      obtain ⟨entries, read, rfl⟩ := Option.map_eq_some_iff.mp went
      exact sound.seed found seeding read
    · cases went
  | forward id count =>
    obtain ⟨session, found, went⟩ := Option.bind_eq_some_iff.mp stepped
    split at went
    next reading =>
      obtain rfl := Option.some.inj went
      exact sound.forward found reading count
    · cases went
  | flush id attribution flushNow ops entries =>
    obtain ⟨session, found, went⟩ := Option.bind_eq_some_iff.mp stepped
    split at went
    next reading =>
      obtain rfl := Option.some.inj went
      exact sound.acts found (sound.apart found (by simp [reading])) sound.numbered (by rw [reading]; rfl)
        (fun _ => trivial) (by simp [reading, Activity.Owes]) fun _ => .inl rfl
    · cases went
  | proceed id =>
    obtain ⟨session, found, went⟩ := Option.bind_eq_some_iff.mp stepped
    split at went
    next view mine =>
      obtain rfl := Option.some.inj went
      exact sound.hands_held mine (roomy (by simp [HandsOff, mine]))
    next free => exact sound.proceed found (apart_of_held free) went
  | detach id =>
    obtain ⟨session, found, went⟩ := Option.bind_eq_some_iff.mp stepped
    cases active : session.activity with
    | opening | seeding _ | reading =>
      simp only [active, Option.some.injEq] at went
      subst went
      exact sound.leaves found (sound.apart found (by simp [active])) (by simp [active, Activity.Owes])
    | controlling | publishing | emitting => simp [active] at went
  | live id =>
    obtain rfl := Option.some.inj stepped
    exact sound.live id
  | sweep now =>
    simp only [World.step] at stepped
    split at stepped
    next idle =>
      obtain rfl := Option.some.inj stepped
      exact sound.sweeps sound.numbered (by simp [idle, Sweep.Owes]) fun _ => .inl rfl
    · cases stepped
  | sweepOn =>
    simp only [World.step] at stepped
    split at stepped
    next view mine =>
      obtain rfl := Option.some.inj stepped
      exact sound.hands_held mine (roomy (by simp [HandsOff, mine]))
    next free => exact sound.sweepOn free stepped

/-- Pages register, are seeded, flush batches and detach in any order with the release sweep, and no
    view meets a full queue. Once nothing is in flight, the last view each page was sent of each of its
    targets is what that component holds parked there. -/
theorem mirrors_converge (surface : Surface T) {stores : TreeMap T (Retention U T S)} {nextRow : Nat}
    (numbered : ∀ (channel : T) (store : Retention U T S), stores[channel]? = some store → store.Numbered nextRow)
    {events : List (Event U T)} {reached : World U T S} (roomy : Along (World.step surface) Roomy { stores, nextRow } events)
    (ran : run (World.step surface) { stores, nextRow } events = some reached) (quiet : reached.Quiet)
    {id : Nat} {session : Session U T} (attached : reached.sessions[id]? = some session) :
    ∀ target ∈ surface.deferredViewTargets,
      (lastView target session.sent).getD [] = reached.parked surface target := by
  have boot : ({ stores, nextRow } : World U T S).Sound surface :=
    ⟨numbered, nofun, nofun, fun id session found => by simp at found, fun id session found => by simp at found⟩
  have kept (before : World U T S) event after (sound : before.Sound surface) (roomy : before.Roomy event)
      (stepped : before.step surface event = some after) : after.Sound surface := sound.step roomy stepped
  have sound : reached.Sound surface := run_preserves kept boot roomy ran
  intro target listed
  have settled (other : Nat) (held : Session U T) (there : reached.sessions[other]? = some held) :=
    quiet.sessions (other, held) (TreeMap.mem_toList_iff_getElem?_eq_some.mpr there)
  rcases sound.settled id session attached target listed with (⟨other, held, there, owes⟩ | owes) | agrees
  · rw [(settled other held there).1] at owes
    exact owes.elim
  · rw [quiet.sweep] at owes
    exact owes.elim
  · obtain ⟨reading, drained⟩ := settled id session attached
    rw [Session.heading, quiet.gate, drained, reading] at agrees
    exact agrees

end Steps

/-- A surface whose one component publishes to one channel. -/
def kitchen : Surface String := .ofSlug "kitchen" (by decide) [⟨"brenn:lights", "panel"⟩] (by decide) 2 4

def kitchenStores : TreeMap String (Retention Nat String Nat) :=
  (∅ : TreeMap String (Retention Nat String Nat)).insert "brenn:lights" (.durable (.new 0 (.bounded 4)))

/-- A page schedules a message; a second page registers between the read and the hand-off of its view. -/
def kitchenEvents : List (Event Nat String) :=
  [.register 1 "ann", .welcome 1, .seed 1, .seed 1,
    .flush 1 (some "panel") 5 [] [⟨"brenn:lights", "off", .normal, some 100, 77⟩], .proceed 1, .proceed 1, .proceed 1,
    .proceed 1, .register 2 "ann", .proceed 1, .proceed 1, .forward 1 1, .welcome 2, .seed 2, .seed 2, .forward 2 1]

theorem kitchen_pages_agree : ∃ reached : World Nat String Nat, ∃ first second : Session Nat String,
    run (World.step kitchen) { stores := kitchenStores, nextRow := 1 } kitchenEvents = some reached ∧
      reached.sessions[1]? = some first ∧ reached.sessions[2]? = some second ∧
      reached.parked kitchen ⟨"brenn:lights", "panel"⟩ = [⟨77, "off", 100000⟩] ∧
      (lastView ⟨"brenn:lights", "panel"⟩ first.sent).getD [] = reached.parked kitchen ⟨"brenn:lights", "panel"⟩ ∧
      (lastView ⟨"brenn:lights", "panel"⟩ second.sent).getD [] = reached.parked kitchen ⟨"brenn:lights", "panel"⟩ := by
  obtain ⟨reached, ran, facts⟩ : ∃ reached : World Nat String Nat,
      run (World.step kitchen) { stores := kitchenStores, nextRow := 1 } kitchenEvents = some reached ∧
        decide (reached.Quiet ∧ reached.sessions[1]?.isSome ∧ reached.sessions[2]?.isSome ∧
          reached.parked kitchen ⟨"brenn:lights", "panel"⟩ = [⟨77, "off", 100000⟩]) = true :=
    Option.map_eq_some_iff.mp (by decide +kernel)
  obtain ⟨quiet, one, two, holds⟩ := of_decide_eq_true facts
  obtain ⟨first, attached⟩ := Option.isSome_iff_exists.mp one
  obtain ⟨second, joined⟩ := Option.isSome_iff_exists.mp two
  have numbered : ∀ (channel : String) (store : Retention Nat String Nat), kitchenStores[channel]? = some store →
      store.Numbered 1 :=
    forall_lookup_insert ⟨List.nodup_nil, nofun⟩ fun _ _ _ there => by simp at there
  have roomy : Along (World.step kitchen) Roomy { stores := kitchenStores, nextRow := 1 } kitchenEvents := by decide +kernel
  exact ⟨reached, first, second, ran, attached, joined, holds,
    mirrors_converge kitchen numbered roomy ran quiet attached _ List.mem_cons_self,
    mirrors_converge kitchen numbered roomy ran quiet joined _ List.mem_cons_self⟩

end World

end Brenn.Attach.Views
