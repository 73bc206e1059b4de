import Brenn.Attach.Passes

/-!
A conforming client and its server never trip each other, and what a channel's
holders are told has no silent hole.

Every turn moves one channel from one standing to another, or all of them at an
attach or a detach.
-/

namespace Brenn.Attach
open Brenn.Lib Brenn.Queue Brenn.Store Std

universe u v w x

variable {C : Type u} {M : Type v} {Ep : Type w} {σ : Type x} [LinearOrder C]

namespace Dialogue

def thread (world : Dialogue C M Ep σ) (channel : C) : Thread C M Ep :=
  { entry := world.client.channels[channel]?
    span := world.session.bind fun session => session.span channel
    up := world.up.filter fun frame => frame.channel = channel
    down := world.down.filter fun frame => frame.channel = channel
    noted := world.noted channel }

variable (profile : Profile C)

structure Agrees (world : Dialogue C M Ep σ) : Prop where
  threads : ∀ channel, Standing profile channel (world.thread channel)
  synced : ∀ session ∈ world.session, session.Synced
  offline : world.client.live = false →
    world.session = none ∧ world.up = [] ∧ world.down = [] ∧ world.resubscribed = false
  online : world.client.live = true → world.session.isSome
  resubscribed : world.resubscribed = true → ∀ (channel : C) entry, world.client.channels[channel]? = some entry →
    0 < entry.refcount → entry.wire ≠ .unsubscribed

theorem agrees_new : (new : Dialogue C M Ep σ).Agrees profile where
  threads channel := by
    have nothing : (new : Dialogue C M Ep σ).thread channel = ⟨none, none, [], [], []⟩ := by
      simp [thread, new, Subscriptions.new]
    rw [nothing]
    exact .absent
  synced := by simp [new]
  offline _ := ⟨rfl, rfl, rfl, rfl⟩
  online live := by simp [new, Subscriptions.new] at live
  resubscribed := by simp [new]

variable {profile} {world : Dialogue C M Ep σ}

/-! ### One channel's frames -/

theorem filter_own {α : Type x} {frames : List α} {channelOf : α → C} {channel : C}
    (own : ∀ frame ∈ frames, channelOf frame = channel) :
    frames.filter (fun frame => decide (channelOf frame = channel)) = frames :=
  List.filter_eq_self.mpr fun frame member => decide_eq_true (own frame member)

theorem filter_other {α : Type x} {frames : List α} {channelOf : α → C} {channel other : C}
    (own : ∀ frame ∈ frames, channelOf frame = channel) (apart : channel ≠ other) :
    frames.filter (fun frame => decide (channelOf frame = other)) = [] := by
  refine List.filter_eq_nil_iff.mpr fun frame member => ?_
  simpa [own frame member] using apart

theorem filter_tail {α : Type x} {frame : α} {frames : List α} {channelOf : α → C} {other : C}
    (apart : channelOf frame ≠ other) :
    (frame :: frames).filter (fun frame => decide (channelOf frame = other)) =
      frames.filter fun frame => decide (channelOf frame = other) :=
  List.filter_cons_of_neg (by simpa using apart)

theorem filter_head {α : Type x} {frame : α} {frames : List α} {channelOf : α → C} {channel : C}
    (own : channelOf frame = channel) :
    (frame :: frames).filter (fun frame => decide (channelOf frame = channel)) =
      frame :: frames.filter fun frame => decide (channelOf frame = channel) :=
  List.filter_cons_of_pos (by simpa using own)

/-- The client's entry of one channel changes, with frames of that channel sent or taken in. -/
theorem Agrees.putEntry (agrees : world.Agrees profile) (channel : C)
    (channels : TreeMap C (ChannelSubscription (Cursor C Ep))) (frames : List (SubscriptionFrame C (Cursor C Ep)))
    (down : List (ServerFrame C M Ep)) (noted : C → List Note)
    (others : ∀ other, channel ≠ other → channels[other]? = world.client.channels[other]? ∧
      noted other = world.noted other ∧
      (down.filter fun frame => frame.channel = other) = world.down.filter fun frame => frame.channel = other)
    (own : ∀ frame ∈ frames, frame.channel = channel)
    (standing : Standing profile channel ⟨channels[channel]?, (world.thread channel).span,
      (world.thread channel).up ++ frames, down.filter fun frame => frame.channel = channel, noted channel⟩)
    (detached : world.client.live = false → frames = [] ∧ down = [])
    (asked : world.client.live = true → ∀ entry, channels[channel]? = some entry → 0 < entry.refcount →
      entry.wire ≠ .unsubscribed ∨ world.resubscribed = false) :
    Agrees profile
      { world with client := { world.client with channels }, up := world.up ++ frames, down, noted } where
  threads other := by
    by_cases same : channel = other
    · subst same
      simpa [thread, filter_own own] using standing
    · have before := agrees.threads other
      obtain ⟨entry, notes, frames⟩ := others other same
      simpa [thread, filter_other own same, entry, notes, frames] using before
  synced := agrees.synced
  offline cut := by
    obtain ⟨session, up, -, resubscribed⟩ := agrees.offline cut
    exact ⟨session, by simp [up, (detached cut).1], (detached cut).2, resubscribed⟩
  online := agrees.online
  resubscribed again other entry found held := by
    by_cases same : channel = other
    · subst same
      cases live : world.client.live with
      | false => exact absurd (again.symm.trans (agrees.offline live).2.2.2) (by simp)
      | true => exact (asked live entry found held).resolve_right fun none => absurd (again.symm.trans none) (by simp)
    · refine agrees.resubscribed again other entry ?_ held
      rw [← (others other same).1]
      exact found

theorem Agrees.asked (agrees : world.Agrees profile) {channel : C} {entry : ChannelSubscription (Cursor C Ep)}
    (known : world.client.channels[channel]? = some entry) (held : 0 < entry.refcount) :
    entry.wire ≠ .unsubscribed ∨ world.resubscribed = false := by
  by_cases again : world.resubscribed = true
  · exact .inl (agrees.resubscribed again channel entry known held)
  · exact .inr (by simpa using again)

theorem Agrees.putSession (agrees : world.Agrees profile) (channel : C) {session session' : Session C Ep}
    (up : List (SubscriptionFrame C (Cursor C Ep))) (frames : List (ServerFrame C M Ep))
    (was : world.session = some session) (opened : Opened session channel session')
    (others : ∀ other, channel ≠ other →
      (up.filter fun frame => frame.channel = other) = world.up.filter fun frame => frame.channel = other)
    (own : ∀ frame ∈ frames, frame.channel = channel)
    (standing : Standing profile channel ⟨world.client.channels[channel]?, session'.span channel,
      up.filter fun frame => frame.channel = channel, (world.thread channel).down ++ frames, world.noted channel⟩) :
    Agrees profile { world with session := some session', up, down := world.down ++ frames } where
  threads other := by
    by_cases same : channel = other
    · subst same
      simpa [thread, filter_own own] using standing
    · have before := agrees.threads other
      simpa [thread, filter_other own same, was, opened.others other same, others other same] using before
  synced session same := by
    cases same
    exact opened.synced
  offline cut := by
    have gone := (agrees.offline cut).1
    rw [was] at gone
    cases gone
  online _ := rfl
  resubscribed := agrees.resubscribed

/-! ### The embedder's calls -/

/-- An entry as an acquisition leaves it before anything is sent, and where its channel then stands. -/
theorem Agrees.held (agrees : world.Agrees profile) {channel : C} {depths : SubscriptionDepths} {policy : ResumePolicy}
    (admissible : Admissible profile channel depths)
    (consistent : ∀ entry ∈ world.client.channels[channel]?, 0 < entry.refcount →
      entry.depths = depths ∧ entry.resumePolicy = policy) :
    let entry := (world.client.channels[channel]?.getD (.fresh depths policy)).restate depths policy
    entry.depths = depths ∧ entry.resumePolicy = policy ∧ Standing profile channel
      ⟨some entry.hold, (world.thread channel).span, (world.thread channel).up, (world.thread channel).down,
        world.noted channel⟩ := by
  have standing := agrees.threads channel
  cases known : world.client.channels[channel]? with
  | none =>
    have first : Kept profile channel
        ((.fresh depths policy : ChannelSubscription (Cursor C Ep)).restate depths policy).hold [] :=
      Kept.hold (Kept.fresh admissible) admissible
    simp only [thread, known] at standing
    exact ⟨rfl, rfl, standing.appear first rfl⟩
  | some entry =>
    rw [known] at consistent
    simp only [thread, known] at standing
    have kept : Kept profile channel (entry.restate depths policy).hold (world.noted channel) :=
      standing.kept.hold admissible
    have stated : (entry.restate depths policy).depths = depths ∧
        (entry.restate depths policy).resumePolicy = policy := by
      by_cases free : entry.refcount = 0
      · simp [ChannelSubscription.restate, free]
      · simpa [ChannelSubscription.restate, free] using consistent entry rfl (Nat.pos_of_ne_zero free)
    refine ⟨stated.1, stated.2, standing.reentry kept ?_ ?_ ?_ ?_ fun live => ?_⟩
    iterate 4 simp only [ChannelSubscription.hold, ChannelSubscription.restate]; split <;> rfl
    have held := (standing.held_of_active live).1
    obtain ⟨sameDepths, samePolicy⟩ := consistent entry rfl held
    exact ⟨by simp [ChannelSubscription.hold], stated.1.trans sameDepths.symm, stated.2.trans samePolicy.symm⟩

theorem forgetIfSpent_spec (subs : Subscriptions C (Cursor C Ep)) (channel : C) :
    ∃ channels, subs.forgetIfSpent channel = { subs with channels } ∧
      (∀ other, channel ≠ other → channels[other]? = subs.channels[other]?) ∧
      channels[channel]? = subs.channels[channel]?.filter fun entry => !entry.isSpent := by
  unfold Subscriptions.forgetIfSpent
  cases found : subs.channels[channel]? with
  | none => exact ⟨subs.channels, rfl, fun _ _ => rfl, by simpa using found⟩
  | some entry =>
    by_cases spent : entry.isSpent
    · refine ⟨subs.channels.erase channel, by simp [spent], fun other apart => ?_, ?_⟩
      · rw [lookup_erase, if_neg apart]
      · simp [Option.filter, spent]
    · exact ⟨subs.channels, by simp [spent], fun _ _ => rfl, by simpa [Option.filter, spent] using found⟩

/-- The last holder goes, and with it what was noted for it. -/
theorem Agrees.vacate (agrees : world.Agrees profile) {channel : C} {entry : ChannelSubscription (Cursor C Ep)}
    {frames : List (SubscriptionFrame C (Cursor C Ep))} (own : ∀ frame ∈ frames, frame.channel = channel)
    (quiet : world.client.live = false → frames = []) (unheld : entry.refcount = 0)
    (standing : Standing profile channel ⟨some entry, (world.thread channel).span, (world.thread channel).up ++ frames,
      (world.thread channel).down, []⟩) :
    let client := Subscriptions.forgetIfSpent
      { world.client with channels := world.client.channels.insert channel entry } channel
    Agrees profile { world.sent (frames, client) with
      noted := if client.refcount channel = 0 then Function.update world.noted channel [] else world.noted } := by
  obtain ⟨channels, forgot, others, here⟩ :=
    forgetIfSpent_spec { world.client with channels := world.client.channels.insert channel entry } channel
  rw [lookup_insert, if_pos rfl] at here
  have empty : ∀ left, channels[channel]? = some left → left.refcount = 0 := by
    intro left found
    rw [here] at found
    rw [← Option.some.inj (Option.filter_eq_some_iff.mp found).1, unheld]
  have gone : ({ world.client with channels } : Subscriptions C (Cursor C Ep)).refcount channel = 0 := by
    cases left : channels[channel]? with
    | none => simp [Subscriptions.refcount, left]
    | some entry => simpa [Subscriptions.refcount, left] using empty entry left
  simp only [forgot, if_pos gone]
  refine agrees.putEntry channel _ _ _ _ (fun other apart => ⟨?_, Function.update_of_ne apart.symm _ _, rfl⟩) own ?_ ?_ ?_
  · rw [others other apart, lookup_insert, if_neg apart]
  · rw [here, Function.update_self]
    by_cases spent : entry.isSpent
    · simpa [Option.filter, spent, thread, sent] using standing.forget spent
    · simpa [Option.filter, spent, thread, sent] using standing
  · exact fun cut => ⟨quiet cut, (agrees.offline cut).2.2.1⟩
  · intro _ left found held
    exact absurd (empty left found) held.ne'

theorem resubscribed_frames (subs : Subscriptions C (Cursor C Ep)) (channel : C) :
    (subs.resubscribeSurvivors.1.filter fun frame => frame.channel = channel) =
      ((subs.channels[channel]?.filter Subscriptions.isSurvivor).map fun entry =>
        (entry.subscribeFrame channel).1).toList := by
  have walked := filter_toList_at subs.channels channel
  have swapped : (subs.resubscribeSurvivors.1.filter fun frame => frame.channel = channel) =
      ((subs.channels.toList.filter fun item => item.1 = channel).filter fun item =>
        Subscriptions.isSurvivor item.2).map fun item => (item.2.subscribeFrame item.1).1 := by
    rw [Subscriptions.resubscribeSurvivors, List.filter_map, List.filter_filter, List.filter_filter]
    congr 2
    funext item
    exact Bool.and_comm _ _
  rw [swapped, walked]
  cases found : subs.channels[channel]? with
  | none => rfl
  | some entry => by_cases survives : Subscriptions.isSurvivor entry <;> simp [Option.filter, survives]

theorem Agrees.attached (agrees : world.Agrees profile) (busy : world.up ≠ [] ∨ world.down ≠ []) :
    world.client.live = true := by
  cases live : world.client.live with
  | true => rfl
  | false =>
    obtain ⟨-, up, down, -⟩ := agrees.offline live
    exact absurd busy (by simp [up, down])

/-! ### The server's turns -/

theorem written_nil {session : Session C Ep} (was : world.session = some session) :
    world.written ([], session) = world := by
  simp [written, ← was]

/-- A turn of the session that feeds one channel, or nothing. -/
theorem Agrees.feed (agrees : world.Agrees profile) {session : Session C Ep} {channel : C}
    {result : List (ServerFrame C M Ep) × Session C Ep} (was : world.session = some session)
    (feeds : Feeds session channel result) : (world.written result).Agrees profile := by
  rcases feeds with rfl | ⟨rows, span, span', frames, wrote, open', reached, sent⟩
  · rwa [written_nil was]
  · refine agrees.putSession channel world.up _ was ⟨wrote.synced, wrote.others⟩ (fun _ _ => rfl) ?_ ?_
    · simp [frames, ServerFrame.channel]
    · have standing := agrees.threads channel
      simp only [thread, was, Option.bind_some, open'] at standing
      rw [frames, reached]
      exact standing.send sent

section Store

variable [RetentionStore σ M Ep]

theorem Agrees.serveUnsubscribe (agrees : world.Agrees profile) {session : Session C Ep} {channel : C}
    {rest : List (SubscriptionFrame C (Cursor C Ep))} (was : world.session = some session)
    (head : world.up = .unsubscribe channel :: rest) :
    ∃ next, world.serve profile = some next ∧ next.Agrees profile := by
  have standing := agrees.threads channel
  have own : (.unsubscribe channel : SubscriptionFrame C (Cursor C Ep)).channel = channel := rfl
  simp only [thread, was, Option.bind_some, head, filter_head own] at standing
  obtain ⟨open', closes⟩ := standing.serveUnsubscribe
  obtain ⟨session', closed, opened, none⟩ := Session.handleUnsubscribe_spec (agrees.synced session was) open'
  have served : world.serve profile = some { world with session := some session', up := rest } := by
    simp only [serve, was, head, closed]
  have next := agrees.putSession channel rest [] was opened (fun other apart => ?_) (by simp) ?_
  · exact ⟨_, served, by simpa using next⟩
  · rw [head, filter_tail (own.trans_ne apart)]
  · simpa [none, thread] using closes

theorem Agrees.serveSubscribe (agrees : world.Agrees profile) {session : Session C Ep} {channel : C}
    {depths : SubscriptionDepths} {resume : Option (Cursor C Ep)} {rest : List (SubscriptionFrame C (Cursor C Ep))}
    (was : world.session = some session) (head : world.up = .subscribe channel depths resume :: rest)
    (room : session.active.size < profile.maxActiveSubscriptions) :
    ∃ next, world.serve profile = some next ∧ next.Agrees profile := by
  have standing := agrees.threads channel
  have own : (.subscribe channel depths resume : SubscriptionFrame C (Cursor C Ep)).channel = channel := rfl
  simp only [thread, was, Option.bind_some, head, filter_head own] at standing
  obtain ⟨closed, last, admissible, ownCursor, refused⟩ := standing.serveSubscribe
  have others : ∀ other, channel ≠ other →
      (rest.filter fun frame => frame.channel = other) = world.up.filter fun frame => frame.channel = other := by
    intro other apart
    rw [head, filter_tail (own.trans_ne apart)]
  have synced := agrees.synced session was
  rcases @Session.handleSubscribe_spec _ _ _ _ _ _ _ profile world.directory channel synced closed room depths resume
      ownCursor admissible with answered | ⟨count, gap, frames, session', span, answered, opened, open', opens⟩
  · have served : world.serve profile = some ({ world with up := rest }.written
        ([.subscribeResult channel .unavailable 0 none], session)) := by
      simp only [serve, was, head, answered]
    refine ⟨_, served, ?_⟩
    refine agrees.putSession channel rest _ was ⟨synced, fun _ _ => rfl⟩ others (by simp [ServerFrame.channel]) ?_
    rw [closed, last]
    exact refused 0 none
  · have served : world.serve profile = some ({ world with up := rest }.written
        (.subscribeResult channel .ok count gap :: frames, session')) := by
      simp only [serve, was, head, answered]
    refine ⟨_, served, agrees.putSession channel rest _ was opened others (fun frame member => ?_) ?_⟩
    · rcases List.mem_cons.mp member with rfl | later
      · rfl
      · exact (opens.passes frame later).channel_eq
    · rw [open', last]
      exact standing.serveOpened opens

/-- The batch is fed one copy after another, each from where the last left the session. -/
theorem Agrees.sendLive (batch : List (C × Retained M)) :
    ∀ {world : Dialogue C M Ep σ} {session : Session C Ep}, world.Agrees profile → world.session = some session →
      (∀ item ∈ batch, world.stores[item.1]?.isSome) →
      ∃ result, session.sendLive profile world.directory batch = some result ∧
        (world.written result).Agrees profile := by
  induction batch with
  | nil =>
    intro world session agrees was _
    exact ⟨([], session), rfl, by rwa [written_nil was]⟩
  | cons item batch ih =>
    intro world session agrees was there
    obtain ⟨⟨frames, session'⟩, copied, feeds⟩ := @Session.sendLiveCopy_spec _ _ _ _ _ _ _ profile world.directory item.1
      (agrees.synced session was) (there item List.mem_cons_self) item.2
    obtain ⟨⟨more, session''⟩, rest, good⟩ := ih (agrees.feed was feeds) rfl
      fun other member => there other (List.mem_cons_of_mem _ member)
    refine ⟨(frames ++ more, session''), ?_, ?_⟩
    · have onward : Session.sendLive profile world.directory batch session' = some (more, session'') := rest
      simp only [Session.sendLive, copied, onward, Option.map_some]
    · simpa [written] using good

end Store

/-! ### What the client takes in -/

/-- The client takes the oldest frame in, and its channel's entry is written. -/
theorem Agrees.take (agrees : world.Agrees profile) {channel : C} {frame : ServerFrame C M Ep}
    {rest : List (ServerFrame C M Ep)} (head : world.down = frame :: rest) (concerns : frame.channel = channel)
    (entry : ChannelSubscription (Cursor C Ep)) (frames : List (SubscriptionFrame C (Cursor C Ep)))
    (noted : C → List Note) (others : ∀ other, channel ≠ other → noted other = world.noted other)
    (own : ∀ reply ∈ frames, reply.channel = channel)
    (standing : Standing profile channel ⟨some entry, (world.thread channel).span, (world.thread channel).up ++ frames,
      rest.filter fun other => other.channel = channel, noted channel⟩)
    (asked : 0 < entry.refcount → entry.wire ≠ .unsubscribed ∨ world.resubscribed = false) :
    Agrees profile { world with
      client := { world.client with channels := world.client.channels.insert channel entry }
      up := world.up ++ frames, down := rest, noted } := by
  have live := agrees.attached (.inr (by simp [head]))
  refine agrees.putEntry channel _ _ _ _ (fun other apart => ⟨?_, others other apart, ?_⟩) own ?_ ?_ ?_
  · rw [lookup_insert, if_neg apart]
  · rw [head, filter_tail (concerns.trans_ne apart)]
  · rwa [lookup_insert, if_pos rfl]
  · simp [live]
  · intro _ written found held
    rw [lookup_insert, if_pos rfl] at found
    cases found
    exact asked held

section Intake

variable [ToString C]

/-- A well-formed pass is refused for nothing but where the channel stands. -/
theorem onDeliver_pass {subs : Subscriptions C (Cursor C Ep)} {channel : C} {entry : ChannelSubscription (Cursor C Ep)}
    {head : DeliverRow (Retained M) (Cursor C Ep)} {rest : List (DeliverRow (Retained M) (Cursor C Ep))}
    (pass : IsPass channel (.deliver channel (head :: rest) : ServerFrame C M Ep))
    (known : subs.channels[channel]? = some entry) (was : entry.hasBeenActive = true) :
    (entry.wire ≠ .active → subs.onDeliver channel (head :: rest) =
      .ok (.discard (!entry.stragglerReported) head.dropped,
        { subs with channels := subs.channels.insert channel { entry with stragglerReported := true } })) ∧
    ∀ hw, entry.wire = .active → spanAdvance entry.spanHw (head :: rest) = .ok hw →
      subs.onDeliver channel (head :: rest) = .ok (.accept head.dropped,
        { subs with
          channels := subs.channels.insert channel (entry.advanced hw (rest.getLast?.getD head).cursor) }) := by
  obtain ⟨_, same, -, losses, -⟩ := pass
  cases same
  have lossless : (rest.find? fun row => row.dropped ≠ 0) = none := by
    rw [List.find?_eq_none]
    intro row member
    simpa using losses row member
  have opened : ¬ entry.hasBeenActive = false := by simp [was]
  refine ⟨fun elsewhere => ?_, fun hw live advanced => ?_⟩
  · simp only [Subscriptions.onDeliver, lossless, known, if_neg opened, if_pos elsewhere]
  · have here : ¬ entry.wire ≠ .active := not_not.mpr live
    simp only [Subscriptions.onDeliver, lossless, known, if_neg opened, if_neg here, advanced]
    rfl

theorem receive_deliver {channel : C} {rows : List (DeliverRow (Retained M) (Cursor C Ep))}
    {rest : List (ServerFrame C M Ep)} {disposition : DeliverDisposition} {client : Subscriptions C (Cursor C Ep)}
    (head : world.down = .deliver channel rows :: rest)
    (taken : world.client.onDeliver channel rows = .ok (disposition, client)) :
    world.receive = some { world with
      client, down := rest
      noted := match disposition with
        | .accept _ => world.note channel (notesOf rows)
        | .discard _ _ => world.noted } := by
  cases disposition <;> simp only [receive, head, taken]

theorem Agrees.takePass (agrees : world.Agrees profile) {channel : C}
    {rows : List (DeliverRow (Retained M) (Cursor C Ep))} {rest : List (ServerFrame C M Ep)}
    (head : world.down = .deliver channel rows :: rest) :
    ∃ next, world.receive = some next ∧ next.Agrees profile := by
  have standing := agrees.threads channel
  have own : (.deliver channel rows : ServerFrame C M Ep).channel = channel := rfl
  simp only [thread, head, filter_head own] at standing
  obtain ⟨entry, known⟩ := standing.known
  rw [known] at standing
  have pass := standing.isPass List.mem_cons_self
  obtain ⟨first, later, rfl⟩ := List.exists_cons_of_ne_nil pass.rows_ne_nil
  by_cases here : entry.wire = .active
  · obtain ⟨was, hw, advanced, next⟩ := standing.receivePass here
    refine ⟨_, receive_deliver head ((onDeliver_pass pass known was).2 hw here advanced), ?_⟩
    have agreed := agrees.take head own (entry.advanced hw (later.getLast?.getD first).cursor) []
      (world.note channel (notesOf (first :: later))) (fun other apart => Function.update_of_ne apart.symm _ _) (by simp)
      (by simpa [note, thread] using next) fun _ => .inl (by simp [ChannelSubscription.advanced, here])
    simpa using agreed
  · obtain ⟨was, next⟩ := standing.receiveStraggler here
    refine ⟨_, receive_deliver head ((onDeliver_pass pass known was).1 here), ?_⟩
    have agreed := agrees.take head own { entry with stragglerReported := true } [] world.noted (fun _ _ => rfl) (by simp)
      (by simpa [thread] using next) (agrees.asked known : 0 < entry.refcount → _)
    simpa using agreed

/-- The client opens a channel, for its holders if it has any, and notes the gap it was told. -/
theorem Agrees.takeOpened (agrees : world.Agrees profile) {channel : C} {count : Nat} {gap : Option GapInfo} {live : Bool}
    {rest : List (ServerFrame C M Ep)} (head : world.down = .subscribeResult channel .ok count gap :: rest)
    (entry : ChannelSubscription (Cursor C Ep)) (frames : List (SubscriptionFrame C (Cursor C Ep)))
    (taken : world.client.onSubscribeResult channel .ok count gap = .ok (.opened frames live count gap,
      { world.client with channels := world.client.channels.insert channel entry }))
    (own : ∀ reply ∈ frames, reply.channel = channel)
    (standing : Standing profile channel ⟨some entry, (world.thread channel).span, (world.thread channel).up ++ frames,
      rest.filter fun other => other.channel = channel,
      if 0 < entry.refcount then world.noted channel ++ gapNote gap else world.noted channel⟩)
    (asked : 0 < entry.refcount → entry.wire ≠ .unsubscribed) :
    ∃ next, world.receive = some next ∧ next.Agrees profile := by
  have held : ({ world.client with channels := world.client.channels.insert channel entry } :
      Subscriptions C (Cursor C Ep)).refcount channel = entry.refcount := by
    simp [Subscriptions.refcount]
  have received : world.receive = some { world with
      client := { world.client with channels := world.client.channels.insert channel entry }
      up := world.up ++ frames, down := rest
      noted := if 0 < entry.refcount then world.note channel (gapNote gap) else world.noted } := by
    simp only [receive, head, taken, held]
  refine ⟨_, received, ?_⟩
  have concerns : (.subscribeResult channel .ok count gap : ServerFrame C M Ep).channel = channel := rfl
  refine agrees.take head concerns entry frames _ (fun other apart => ?_) own ?_ fun held => .inl (asked held)
  · split
    · exact Function.update_of_ne apart.symm _ _
    · rfl
  · split at standing
    next held => simpa [held, note] using standing
    next free => simpa [free] using standing

theorem Agrees.takeUnavailable (agrees : world.Agrees profile) {channel : C} {count : Nat} {gap : Option GapInfo}
    {rest : List (ServerFrame C M Ep)} (head : world.down = .subscribeResult channel .unavailable count gap :: rest) :
    ∃ next, world.receive = some next ∧ next.Agrees profile := by
  have standing := agrees.threads channel
  have own : (.subscribeResult channel .unavailable count gap : ServerFrame C M Ep).channel = channel := rfl
  simp only [thread, head, filter_head own] at standing
  obtain ⟨entry, known⟩ := standing.known
  rw [known] at standing
  obtain ⟨pending, next⟩ := standing.receiveUnavailable
  let refused := { entry with wire := .unsubscribed, refcount := 0, spanHw := none, stated := none }
  have taken : world.client.onSubscribeResult channel .unavailable count gap = .ok (.unavailable,
      { world.client with channels := world.client.channels.insert channel refused }) := by
    simp [Subscriptions.onSubscribeResult, known, pending, refused]
  have received : world.receive = some { world with
      client := { world.client with channels := world.client.channels.insert channel refused }, down := rest
      noted := Function.update world.noted channel [] } := by
    simp only [receive, head, taken]
  have agreed := agrees.take head own refused [] (Function.update world.noted channel [])
    (fun other apart => Function.update_of_ne apart.symm _ _) (by simp) (by simpa [thread] using next)
    fun held => absurd held (Nat.lt_irrefl 0)
  exact ⟨_, received, by simpa using agreed⟩

theorem Agrees.takeOk (agrees : world.Agrees profile) {channel : C} {count : Nat} {gap : Option GapInfo}
    {rest : List (ServerFrame C M Ep)} (head : world.down = .subscribeResult channel .ok count gap :: rest) :
    ∃ next, world.receive = some next ∧ next.Agrees profile := by
  have standing := agrees.threads channel
  have own : (.subscribeResult channel .ok count gap : ServerFrame C M Ep).channel = channel := rfl
  simp only [thread, head, filter_head own] at standing
  obtain ⟨entry, known⟩ := standing.known
  rw [known] at standing
  obtain ⟨pending, closes, reopens, opens⟩ := standing.receiveOk
  by_cases unheld : entry.refcount = 0
  · let closed := { entry.acknowledged with wire := .unsubscribed }
    have taken : world.client.onSubscribeResult channel .ok count gap =
        .ok (.opened [.unsubscribe channel] false count gap,
          { world.client with channels := world.client.channels.insert channel closed }) := by
      simp [Subscriptions.onSubscribeResult, known, pending, unheld, closed, ChannelSubscription.acknowledged]
    have free : ¬ 0 < closed.refcount := by simp [closed, ChannelSubscription.acknowledged, unheld]
    refine agrees.takeOpened head closed _ taken (by simp [SubscriptionFrame.channel]) ?_ fun held => absurd held free
    rw [if_neg free]
    exact closes unheld
  · have held : 0 < entry.acknowledged.refcount := Nat.pos_of_ne_zero unheld
    by_cases current : entry.stated = some (entry.depths, entry.resumePolicy)
    · let opened := { entry.acknowledged with wire := .active }
      have taken : world.client.onSubscribeResult channel .ok count gap = .ok (.opened [] true count gap,
          { world.client with channels := world.client.channels.insert channel opened }) := by
        simp [Subscriptions.onSubscribeResult, known, pending, unheld, opened, ChannelSubscription.acknowledged, current]
      refine agrees.takeOpened head opened _ taken (by simp) ?_ fun _ => by simp [opened]
      rw [if_pos held, List.append_nil]
      exact opens unheld current
    · have taken : world.client.onSubscribeResult channel .ok count gap =
          .ok (.opened [.unsubscribe channel, (entry.acknowledged.subscribeFrame channel).1] false count gap,
            { world.client with
              channels := world.client.channels.insert channel (entry.acknowledged.subscribeFrame channel).2 }) := by
        simp [Subscriptions.onSubscribeResult, known, pending, unheld, ChannelSubscription.acknowledged, current]
      refine agrees.takeOpened head _ _ taken ?_ ?_ fun _ => ?_
      · simp [ChannelSubscription.subscribeFrame, SubscriptionFrame.channel]
      · rw [if_pos (show 0 < (entry.acknowledged.subscribeFrame channel).2.refcount from held)]
        exact reopens unheld current
      · simp [ChannelSubscription.subscribeFrame, ChannelSubscription.prepareSubscribe]

theorem Agrees.receive (agrees : world.Agrees profile) (waiting : world.down ≠ []) :
    ∃ next, world.receive = some next ∧ next.Agrees profile := by
  obtain ⟨frame, rest, head⟩ := List.exists_cons_of_ne_nil waiting
  cases frame with
  | deliver channel rows => exact agrees.takePass head
  | subscribeResult channel outcome count gap =>
    cases outcome with
    | ok => exact agrees.takeOk head
    | unavailable => exact agrees.takeUnavailable head

end Intake

section Turns

variable [Confinable C] [ToString C] [RetentionStore σ M Ep]

theorem Agrees.acquire (agrees : world.Agrees profile) {channel : C} {depths : SubscriptionDepths}
    {policy : ResumePolicy} (callable : world.Callable profile (.acquire channel depths policy)) :
    ∃ next, world.step profile (.acquire channel depths policy) = some next ∧ next.Agrees profile := by
  obtain ⟨transportable, window, admissible, consistent⟩ := callable
  obtain ⟨sameDepths, samePolicy, standing⟩ := agrees.held admissible consistent
  generalize restated : (world.client.channels[channel]?.getD (.fresh depths policy)).restate depths policy = entry at *
  have others : ∀ entry other, channel ≠ other →
      (world.client.channels.insert channel entry)[other]? = world.client.channels[other]? := by
    intro entry other apart
    rw [lookup_insert, if_neg apart]
  by_cases asks : entry.wire = .unsubscribed ∧ world.client.live = true
  · have acquired : world.client.acquire channel depths policy =
        some ([(entry.hold.subscribeFrame channel).1],
          { world.client with channels := world.client.channels.insert channel (entry.hold.subscribeFrame channel).2 }) := by
      simp [Subscriptions.acquire, transportable, window, restated, sameDepths, samePolicy, asks]
    refine ⟨_, by rw [step, acquired, Option.map_some], ?_⟩
    refine agrees.putEntry channel _ _ _ _ (fun other apart => ⟨others _ other apart, rfl, rfl⟩) (by simp [ChannelSubscription.subscribeFrame, SubscriptionFrame.channel]) ?_ ?_ ?_
    · rw [lookup_insert, if_pos rfl]
      exact standing.subscribe asks.1
    · simp [asks.2]
    · intro _ entry found _
      rw [lookup_insert, if_pos rfl] at found
      cases found
      exact .inl (by simp [ChannelSubscription.subscribeFrame, ChannelSubscription.prepareSubscribe])
  · have acquired : world.client.acquire channel depths policy =
        some ([], { world.client with channels := world.client.channels.insert channel entry.hold }) := by
      simp [Subscriptions.acquire, transportable, window, restated, sameDepths, samePolicy, asks]
    refine ⟨_, by rw [step, acquired, Option.map_some], ?_⟩
    refine agrees.putEntry channel _ _ _ _ (fun other apart => ⟨others _ other apart, rfl, rfl⟩) (by simp) ?_ ?_ ?_
    · rw [lookup_insert, if_pos rfl, List.append_nil]
      exact standing
    · exact fun cut => ⟨rfl, (agrees.offline cut).2.2.1⟩
    · intro live held found _
      rw [lookup_insert, if_pos rfl] at found
      cases found
      exact .inl fun free => asks ⟨free, live⟩

theorem Agrees.release (agrees : world.Agrees profile) {channel : C}
    (callable : world.Callable profile (.release channel)) :
    ∃ next, world.step profile (.release channel) = some next ∧ next.Agrees profile := by
  obtain ⟨entry, known⟩ : ∃ entry, world.client.channels[channel]? = some entry := by
    cases known : world.client.channels[channel]? with
    | none => simp [Callable, Subscriptions.refcount, known] at callable
    | some entry => exact ⟨entry, rfl⟩
  have held : 0 < entry.refcount := by simpa [Callable, Subscriptions.refcount, known] using callable
  have standing := agrees.threads channel
  simp only [thread, known] at standing
  by_cases more : 1 < entry.refcount
  · let less := { entry with refcount := entry.refcount - 1 }
    let client := { world.client with channels := world.client.channels.insert channel less }
    have released : world.client.release channel = some ([], client) := by
      simp [Subscriptions.release, known, held.ne', more, client, less]
    have stays : client.refcount channel ≠ 0 := by
      simp [Subscriptions.refcount, client, less]
      omega
    refine ⟨_, by rw [step, released, Option.map_some, if_neg stays], ?_⟩
    refine agrees.putEntry channel _ _ _ _ (fun other apart => ⟨?_, rfl, rfl⟩) (by simp) ?_ ?_ ?_
    · rw [lookup_insert, if_neg apart]
    · rw [lookup_insert, if_pos rfl, List.append_nil]
      have kept := standing.kept
      refine standing.reentry ⟨kept.admissible, kept.token, fun none => ?_, kept.latest, kept.covered⟩ rfl rfl rfl rfl
        fun _ => ⟨?_, rfl, rfl⟩
      · exact absurd none (Nat.sub_ne_zero_of_lt more)
      · exact Nat.sub_pos_of_lt more
    · exact fun cut => ⟨rfl, (agrees.offline cut).2.2.1⟩
    · intro live other found _
      rw [lookup_insert, if_pos rfl] at found
      cases found
      rcases agrees.asked known held with asked | none
      · exact .inl asked
      · exact .inr none
  · have last : entry.refcount = 1 := by omega
    by_cases open' : entry.wire = .active
    · let closed := { entry.vacated with wire := .unsubscribed }
      have released : world.client.release channel = some ([.unsubscribe channel], Subscriptions.forgetIfSpent
          { world.client with channels := world.client.channels.insert channel closed } channel) := by
        simp [Subscriptions.release, known, last, open', ChannelSubscription.vacated, closed]
      refine ⟨_, by rw [step, released, Option.map_some], ?_⟩
      refine agrees.vacate (by simp [SubscriptionFrame.channel]) (fun cut => ?_) rfl (standing.close open')
      have none := (standing.held_of_active open').2
      simp [(agrees.offline cut).1] at none
    · have released : world.client.release channel = some ([], Subscriptions.forgetIfSpent
          { world.client with channels := world.client.channels.insert channel entry.vacated } channel) := by
        simp [Subscriptions.release, known, last, open', ChannelSubscription.vacated]
      refine ⟨_, by rw [step, released, Option.map_some], ?_⟩
      refine agrees.vacate (by simp) (fun _ => rfl) rfl ?_
      rw [List.append_nil]
      exact standing.leave open'

theorem Agrees.goLive (agrees : world.Agrees profile) {incarnation : Int}
    (callable : world.Callable profile (.goLive incarnation)) :
    ∃ next, world.step profile (.goLive incarnation) = some next ∧ next.Agrees profile := by
  obtain ⟨session, up, down, -⟩ := agrees.offline callable
  have nothing : ∀ channel, (Session.new incarnation : Session C Ep).span channel = none := by
    simp [Session.span, Session.new]
  refine ⟨_, rfl, fun channel => ?_, ?_, ?_, fun _ => rfl, by simp⟩
  · have before := agrees.threads channel
    simpa [thread, Subscriptions.goLive, session, nothing] using before
  · rintro session ⟨⟩
    intro channel isActive
    simp [Session.new] at isActive
  · simp [Subscriptions.goLive]

theorem Agrees.resubscribeSurvivors (agrees : world.Agrees profile)
    (callable : world.Callable profile .resubscribeSurvivors) :
    ∃ next, world.step profile .resubscribeSurvivors = some next ∧ next.Agrees profile := by
  have live : world.client.live = true := callable
  refine ⟨_, rfl, fun channel => ?_, agrees.synced, fun cut => ?_, fun _ => agrees.online live, fun _ channel entry found held => ?_⟩
  · have before := agrees.threads channel
    simp only [thread, sent, List.filter_append, resubscribed_frames]
    simp only [thread] at before
    rw [Subscriptions.resubscribeSurvivors, TreeMap.getElem?_map]
    cases found : world.client.channels[channel]? with
    | none => simpa [found] using before
    | some entry =>
      rw [found] at before
      by_cases survives : Subscriptions.isSurvivor entry
      · have free : entry.wire = .unsubscribed := by
          simp only [Subscriptions.isSurvivor, Bool.and_eq_true, decide_eq_true_eq] at survives
          exact survives.2
        simpa [Option.filter, survives] using before.subscribe free
      · simpa [Option.filter, survives] using before
  · exact absurd (live.symm.trans cut) (by simp)
  · simp only [sent, Subscriptions.resubscribeSurvivors, TreeMap.getElem?_map, Option.map_eq_some_iff] at found
    obtain ⟨old, -, rfl⟩ := found
    by_cases survives : Subscriptions.isSurvivor old
    · simp [survives, ChannelSubscription.subscribeFrame, ChannelSubscription.prepareSubscribe]
    · simp only [survives, Bool.false_eq_true, if_false] at held ⊢
      simpa [Subscriptions.isSurvivor, held] using survives

theorem Agrees.onAttached (agrees : world.Agrees profile) {incarnation : Int}
    (callable : world.Callable profile (.onAttached incarnation)) :
    ∃ next, world.step profile (.onAttached incarnation) = some next ∧ next.Agrees profile := by
  obtain ⟨up, went, live⟩ := @Agrees.goLive _ _ _ _ _ _ _ _ _ _ agrees incarnation callable
  cases went
  obtain ⟨next, asked, resumed⟩ := live.resubscribeSurvivors rfl
  cases asked
  exact ⟨_, rfl, resumed⟩

theorem Agrees.onDetached (agrees : world.Agrees profile) :
    ∃ next, world.step profile .onDetached = some next ∧ next.Agrees profile := by
  refine ⟨_, rfl, fun channel => ?_, by simp, fun _ => ⟨rfl, rfl, rfl, rfl⟩, by simp [Subscriptions.onDetached], by simp⟩
  have before := agrees.threads channel
  simp only [thread] at before
  simp only [thread, Subscriptions.onDetached, TreeMap.getElem?_map, TreeMap.getElem?_filter', List.filter_nil,
    Option.bind_none]
  cases found : world.client.channels[channel]? with
  | none =>
    rw [found] at before
    simpa [before.unknown.2] using Standing.absent
  | some entry =>
    rw [found] at before
    by_cases held : 0 < entry.refcount
    · simpa [Option.filter, held] using before.cut
    · have none := before.kept.unheld (by omega)
      simpa [Option.filter, held, none] using Standing.absent

theorem Agrees.serve (agrees : world.Agrees profile) (callable : world.Callable profile .serve) :
    ∃ next, world.step profile .serve = some next ∧ next.Agrees profile := by
  obtain ⟨asked, room⟩ := callable
  obtain ⟨session, was⟩ := Option.isSome_iff_exists.mp (agrees.online (agrees.attached (.inl asked)))
  obtain ⟨frame, rest, head⟩ := List.exists_cons_of_ne_nil asked
  cases frame with
  | subscribe channel depths resume =>
    exact agrees.serveSubscribe was head (room session was _ (by rw [head]; rfl) rfl)
  | unsubscribe channel => exact agrees.serveUnsubscribe was head

theorem Agrees.drain (agrees : world.Agrees profile) {channel : C}
    (callable : world.Callable profile (.drain channel)) :
    ∃ next, world.step profile (.drain channel) = some next ∧ next.Agrees profile := by
  obtain ⟨⟨session, was, isActive⟩, there⟩ := callable
  have synced := agrees.synced session was
  obtain ⟨span, open'⟩ := Option.isSome_iff_exists.mp (synced channel isActive)
  obtain ⟨store, found⟩ := Option.isSome_iff_exists.mp there
  obtain ⟨result, drained, feeds⟩ :=
    @Session.drainChannel_spec _ _ _ _ _ _ _ profile world.directory _ _ synced open' _ found
  have was' : world.session = some session := was
  exact ⟨_, by rw [step, was']; simp only [drained, Option.map_some], agrees.feed was feeds⟩

theorem Agrees.live (agrees : world.Agrees profile) {batch : List (C × Retained M)}
    (callable : world.Callable profile (.live batch)) :
    ∃ next, world.step profile (.live batch) = some next ∧ next.Agrees profile := by
  obtain ⟨attached, there⟩ := callable
  obtain ⟨session, was⟩ := Option.isSome_iff_exists.mp attached
  obtain ⟨result, sent, good⟩ := Agrees.sendLive batch agrees was there
  exact ⟨_, by rw [step, was]; simp only [sent, Option.map_some], good⟩

theorem Agrees.store (agrees : world.Agrees profile) {channel : C} {change : Option σ} :
    ∃ next, world.step profile (.store channel change) = some next ∧ next.Agrees profile :=
  ⟨_, rfl, agrees.threads, agrees.synced, agrees.offline, agrees.online, agrees.resubscribed⟩

/-- Every turn a conforming embedder and server take goes through, and leaves the two sides in agreement. -/
theorem Agrees.step (agrees : world.Agrees profile) (turn : Turn C M σ) (callable : world.Callable profile turn) :
    ∃ next, world.step profile turn = some next ∧ next.Agrees profile := by
  cases turn with
  | acquire => exact agrees.acquire callable
  | release => exact agrees.release callable
  | goLive => exact agrees.goLive callable
  | resubscribeSurvivors => exact agrees.resubscribeSurvivors callable
  | onAttached => exact agrees.onAttached callable
  | onDetached => exact agrees.onDetached
  | serve => exact agrees.serve callable
  | receive => exact agrees.receive callable
  | live => exact agrees.live callable
  | drain => exact agrees.drain callable
  | store => exact agrees.store

end Turns

end Dialogue

end Brenn.Attach
