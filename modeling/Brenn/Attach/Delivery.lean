import Brenn.Attach.Conformance
import Brenn.Store.Reads
import Brenn.Store.RingStore

/-!
What a conforming client is delivered, over the stores the server keeps.

The memory ring and a sound durable channel both claim continuity only where they have it.
-/

namespace Brenn.Attach
open Brenn.Lib Brenn.Queue Brenn.Store Std

universe u v w x

/-! ### The stores -/

section Stores

variable {M : Type u} {Ep : Type v} {cursor : Option (Resume Ep)}

theorem since_numbered (ring : RetainedRing M Ep) {seq : Nat} (trailing : seq < ring.newestSeq) {oldest : Retained M}
    (front : ring.entries.head? = some oldest) (reaches : oldest.seq ≤ seq + 1) :
    Numbered Retained.seq (seq + 1) (ring.since seq) := by
  have number := ring.dense.key_head front
  have counted := ring.counted
  have newest := ring.newestSeq_succ
  have offset : ring.offsetAfter seq = seq + 1 - oldest.seq := by
    simp only [RetainedRing.offsetAfter, front]
    omega
  have cut := ring.dense.drop (show seq + 1 - oldest.seq ≤ ring.entries.length by omega)
  rw [RetainedRing.since, offset]
  rwa [← number, Nat.add_sub_cancel' reaches] at cut

theorem replay_honest [DecidableEq Ep] (ring : RetainedRing M Ep) (epoch : Ep) :
    Honest cursor ⟨epoch, (ring.replay cursor).messages, (ring.replay cursor).decision⟩ := by
  have whole : ∃ first, Numbered Retained.seq first ring.entries := ⟨_, ring.dense⟩
  cases cursor with
  | none => exact ⟨whole, by simp [RetainedRing.replay], by simp [RetainedRing.replay], by simp⟩
  | some resume =>
    unfold RetainedRing.replay
    dsimp only
    split
    · exact ⟨whole, by simp, by simp, by simp⟩
    split
    · exact ⟨whole, by simp, by simp, by simp⟩
    split
    · exact ⟨⟨0, numbered_nil⟩, by simp, by simp, by simp⟩
    split
    next notAhead notLevel _ oldest front =>
      split
      next reaches =>
        have suffix := since_numbered ring (by omega) front reaches
        refine ⟨⟨_, suffix⟩, by simp, by simp, ?_⟩
        rintro _ ⟨⟩ -
        exact suffix
      next => exact ⟨whole, by simp, by simp, by simp⟩
    next => exact ⟨whole, by simp, by simp, by simp⟩

theorem Honest.clamp {replay : StoreReplay M Ep} (honest : Honest cursor replay) (limit : Depth) :
    Honest cursor (clampReplay replay limit) := by
  cases limit with
  | unbounded => exact honest
  | bounded n =>
    unfold clampReplay
    dsimp only
    split
    · exact honest
    · obtain ⟨first, dense⟩ := honest.dense
      refine ⟨⟨_, dense.drop (Nat.sub_le _ n)⟩, ?_, fun level => ?_, fun _ _ exactly => ?_⟩
      · rw [← honest.fresh]
        split <;> simp_all
      · split at level
        · cases level
        · simp [honest.upToDate level]
      · split at exactly
        · cases exactly
        · contradiction

end Stores

section Channels

variable {U : Type u} {T : Type v} {S : Type w} [LinearOrder S] [DecidableEq U]

instance : RetentionStore (RingStore U T S) (MessageEnvelope U T) U where
  replayFrom store cursor limit := store.replayFrom cursor limit
  honest store _ limit := (replay_honest store.core.ring store.epoch).clamp limit

theorem newestOf_numbered {M : Type u} {first : Nat} {view : List (Retained M)}
    (dense : Numbered Retained.seq first view) (limit : Depth) :
    ∃ first, Numbered Retained.seq first (newestOf limit view) := by
  cases limit with
  | unbounded => exact ⟨_, dense⟩
  | bounded n => exact ⟨_, dense.newest n⟩

omit [DecidableEq U] in
/-- The rows after a position, where all of them are there and the cap admits them. -/
theorem after_numbered {channel : DbChannel U T S} (sound : channel.Sound) {seq : Nat} {cap : Depth}
    (trailing : seq < channel.lastRetainedSeq)
    (present : channel.channelRetainedCountAfterSeq seq = channel.lastRetainedSeq - seq)
    (fits : ∀ n, cap = .bounded n → channel.lastRetainedSeq - seq ≤ n) :
    Numbered Retained.seq (seq + 1) (channel.loadChannelMessagesAfterSeq seq cap) := by
  have counted := sound.counted
  rw [sound.count_after] at present
  have uncut : newestOf cap (newest (channel.lastRetainedSeq - seq) channel.retainedView) =
      newest (channel.lastRetainedSeq - seq) channel.retainedView := by
    cases cap with
    | unbounded => rfl
    | bounded n =>
      have fits := fits n rfl
      exact newest_of_length_le (by rw [length_newest]; omega)
  have dense := sound.dense.newest (channel.lastRetainedSeq - seq)
  rw [length_newest, present] at dense
  rw [sound.after_eq, uncut]
  rwa [show channel.lastRetainedSeq + 1 - channel.retainedView.length + channel.retainedView.length -
    (channel.lastRetainedSeq - seq) = seq + 1 by omega] at dense

theorem DbChannel.replayFrom_honest {channel : DbChannel U T S} (sound : channel.Sound) (cursor : Option (Resume U))
    (limit : Depth) : Honest cursor (channel.replayFrom cursor limit) := by
  have window : ∀ cap, ∃ first, Numbered Retained.seq first (channel.loadChannelRetainedWindowSeq cap) := by
    intro cap
    rw [sound.window_eq]
    exact newestOf_numbered sound.dense cap
  cases cursor with
  | none => exact ⟨window _, by simp [DbChannel.replayFrom], by simp [DbChannel.replayFrom], by simp⟩
  | some resume =>
    unfold DbChannel.replayFrom
    dsimp only
    split
    · exact ⟨window _, by simp, by simp, by simp⟩
    split
    · exact ⟨⟨0, numbered_nil⟩, by simp, by simp, by simp⟩
    split
    · exact ⟨window _, by simp, by simp, by simp⟩
    next notLevel notAhead =>
      have exactly : ∀ cap, channel.channelRetainedCountAfterSeq resume.seq = channel.lastRetainedSeq - resume.seq →
          (∀ n, cap = .bounded n → channel.lastRetainedSeq - resume.seq ≤ n) → Honest (some resume)
            ⟨channel.resumeEpoch, channel.loadChannelMessagesAfterSeq resume.seq cap, .exact⟩ := by
        intro cap present fits
        have suffix := after_numbered sound (by omega) present fits
        refine ⟨⟨_, suffix⟩, by simp, by simp, ?_⟩
        rintro _ ⟨⟩ -
        exact suffix
      cases channel.deferredCap.narrowedBy limit with
      | unbounded =>
        dsimp only
        split
        next held => exact exactly _ held.1 (by simp)
        next => exact ⟨window _, by simp, by simp, by simp⟩
      | bounded cap =>
        dsimp only
        split
        next held => exact exactly _ held.1 (by simpa using held.2)
        next => exact ⟨window _, by simp, by simp, by simp⟩

instance : RetentionStore { channel : DbChannel U T S // channel.Sound } (MessageEnvelope U T) U where
  replayFrom channel cursor limit := channel.1.replayFrom cursor limit
  honest channel := DbChannel.replayFrom_honest channel.2

end Channels

/-! ### The dialogue -/

section Dialogue

variable {C : Type u} {M : Type v} {Ep : Type w} {σ : Type x} [LinearOrder C] [Confinable C] [ToString C]
  [RetentionStore σ M Ep] (profile : Profile C)

/-- A conforming run goes through, and the two sides agree wherever it stops. -/
theorem Dialogue.run_agrees (turns : List (Turn C M σ))
    (conforming : Along (fun world turn => Dialogue.step world profile turn) (Dialogue.Callable · profile) .new turns) :
    ∃ world : Dialogue C M Ep σ, run (fun world turn => Dialogue.step world profile turn) .new turns = some world ∧
      world.Agrees profile := by
  have progress : ∀ (world : Dialogue C M Ep σ) (turn : Turn C M σ), world.Agrees profile →
      world.Callable profile turn → ∃ next, world.step profile turn = some next ∧ next.Agrees profile :=
    fun world turn agrees callable => agrees.step turn callable
  exact run_reaches progress (Dialogue.agrees_new profile) conforming

def Dialogue.serverActive (world : Dialogue C M Ep σ) (channel : C) : Bool :=
  world.session.any fun session => session.active[channel]?.isSome

omit [Confinable C] [ToString C] [RetentionStore σ M Ep] in
theorem Dialogue.Agrees.drained {profile : Profile C} {world : Dialogue C M Ep σ} (agrees : world.Agrees profile)
    (up : world.up = []) (down : world.down = []) (channel : C) :
    (world.serverActive channel = world.client.isActive channel) ∧
      (world.resubscribed = true → (world.client.isActive channel = true ↔ 0 < world.client.refcount channel)) := by
  have standing := agrees.threads channel
  simp only [Dialogue.thread, up, down, List.filter_nil] at standing
  have both := standing.drained
  have open' : (world.session.bind fun session => session.span channel).isSome = world.serverActive channel := by
    cases was : world.session with
    | none => simp [Dialogue.serverActive, was]
    | some session => simp [Dialogue.serverActive, was, Session.span_isSome (agrees.synced session was)]
  rw [open'] at both
  cases known : world.client.channels[channel]? with
  | none =>
    have closed : world.serverActive channel = false := by simpa [known] using both
    simp [Subscriptions.isActive, Subscriptions.refcount, known, closed]
  | some entry =>
    rw [known] at standing
    have agree : world.serverActive channel = true ↔ entry.wire = .active := by simpa [known] using both
    refine ⟨?_, fun again => ?_⟩
    · rw [Bool.eq_iff_iff, agree]
      simp [Subscriptions.isActive, known]
    · simp only [Subscriptions.isActive, known, Subscriptions.refcount, decide_eq_true_eq, Option.map_some,
        Option.getD_some]
      constructor
      · exact fun live => (standing.held_of_active live).1
      · exact fun held => standing.settled.resolve_right (agrees.resubscribed again channel entry known held)

instance (world : Dialogue C M Ep σ) : (turn : Turn C M σ) → Decidable (world.Callable profile turn)
  | .acquire _ _ _ => inferInstanceAs (Decidable (_ ∧ _ ∧ (∃ bound ∈ _, _) ∧ _))
  | .release _ => inferInstanceAs (Decidable (_ < _))
  | .goLive _ | .onAttached _ | .resubscribeSurvivors => inferInstanceAs (Decidable (_ = _))
  | .serve => inferInstanceAs (Decidable (_ ∧ _))
  | .receive => inferInstanceAs (Decidable (¬ _))
  | .live _ => inferInstanceAs (Decidable (_ ∧ _))
  | .drain _ => inferInstanceAs (Decidable (_ ∧ _))
  | .onDetached | .store _ _ => inferInstanceAs (Decidable True)

/-- A channel that retains two messages, after `count` of them were appended. -/
def ringOf (count : Nat) : RingStore Nat Nat Nat :=
  let empty : RingStore Nat Nat Nat := .fresh 0 0 2 0
  { empty with core := (List.range count).foldl (fun core id => (core.append ⟨id, 0, 0, .normal, none⟩).2) empty.core }

def openRoute : Profile Nat := ⟨fun _ => some ⟨2, 2⟩, 4, fun _ => true⟩

/-- One message arrives live; the link is cut over the next; one is evicted before the client is back, and a fifth
    is drained. -/
def interrupted : List (Turn Nat (MessageEnvelope Nat Nat) (RingStore Nat Nat Nat)) :=
  [.store 0 (some (ringOf 0)), .acquire 0 ⟨2, 2⟩ .resume, .onAttached 0, .serve, .receive, .store 0 (some (ringOf 1)),
    .live [(0, ⟨1, 0, 0, 0, .normal, none⟩)], .receive, .store 0 (some (ringOf 2)), .drain 0, .onDetached,
    .store 0 (some (ringOf 4)), .goLive 0, .resubscribeSurvivors, .serve, .receive, .receive, .store 0 (some (ringOf 5)),
    .drain 0, .receive]

/-- No interleaving of a conforming client with the server ends in a violation, a refused frame or a
    panic. Once the links are drained the two sides hold the same channels open, and after the
    survivors were resubscribed those are the channels somebody still holds. -/
theorem Dialogue.conforming_run_never_violates (turns : List (Turn C M σ))
    (conforming : Along (fun world turn => Dialogue.step world profile turn) (Dialogue.Callable · profile) .new turns) :
    ∃ world : Dialogue C M Ep σ, run (fun world turn => Dialogue.step world profile turn) .new turns = some world ∧
      (world.up = [] → world.down = [] → ∀ channel,
        world.serverActive channel = world.client.isActive channel ∧
        (world.resubscribed = true →
          (world.client.isActive channel = true ↔ 0 < world.client.refcount channel))) := by
  obtain ⟨world, ran, agrees⟩ := Dialogue.run_agrees profile turns conforming
  exact ⟨world, ran, agrees.drained⟩

theorem interrupted_run_never_violates :
    Along (fun world turn => Dialogue.step world openRoute turn) (Dialogue.Callable · openRoute)
      (.new : Dialogue Nat (MessageEnvelope Nat Nat) Nat (RingStore Nat Nat Nat)) interrupted ∧
    ∃ world : Dialogue Nat (MessageEnvelope Nat Nat) Nat (RingStore Nat Nat Nat),
      run (fun world turn => Dialogue.step world openRoute turn) .new interrupted = some world ∧
      (world.up = [] → world.down = [] → ∀ channel,
        world.serverActive channel = world.client.isActive channel ∧
        (world.resubscribed = true →
          (world.client.isActive channel = true ↔ 0 < world.client.refcount channel))) :=
  ⟨by decide +kernel, Dialogue.conforming_run_never_violates openRoute interrupted (by decide +kernel)⟩

/-- What the holders of a resuming, push-enabled subscription are told has no silent hole and no
    duplicate, over every loss of frames, delay and eviction: between gap notices each row is above
    the one before, and is the next or reports the loss of every position in between. -/
theorem Dialogue.resumed_delivery_is_covered (turns : List (Turn C M σ))
    (conforming : Along (fun world turn => Dialogue.step world profile turn) (Dialogue.Callable · profile) .new turns) :
    ∃ world : Dialogue C M Ep σ, run (fun world turn => Dialogue.step world profile turn) .new turns = some world ∧
      ∀ (channel : C) entry, world.client.channels[channel]? = some entry →
        Promised profile channel (entry.depths, entry.resumePolicy) → (world.noted channel).IsChain Note.Covers := by
  obtain ⟨world, ran, agrees⟩ := Dialogue.run_agrees profile turns conforming
  refine ⟨world, ran, fun channel entry known promised => ?_⟩
  have standing := agrees.threads channel
  simp only [Dialogue.thread, known] at standing
  exact standing.kept.covered promised

theorem interrupted_delivery_is_covered :
    Along (fun world turn => Dialogue.step world openRoute turn) (Dialogue.Callable · openRoute)
      (.new : Dialogue Nat (MessageEnvelope Nat Nat) Nat (RingStore Nat Nat Nat)) interrupted ∧
    ∃ world : Dialogue Nat (MessageEnvelope Nat Nat) Nat (RingStore Nat Nat Nat),
      run (fun world turn => Dialogue.step world openRoute turn) .new interrupted = some world ∧
      world.noted 0 = [.row 1 0, .gap, .row 3 0, .row 4 0, .row 5 0] ∧ (world.noted 0).IsChain Note.Covers := by
  have conforming : Along (fun world turn => Dialogue.step world openRoute turn) (Dialogue.Callable · openRoute)
      (.new : Dialogue Nat (MessageEnvelope Nat Nat) Nat (RingStore Nat Nat Nat)) interrupted := by decide +kernel
  obtain ⟨world, ran, facts⟩ : ∃ world : Dialogue Nat (MessageEnvelope Nat Nat) Nat (RingStore Nat Nat Nat),
      run (fun world turn => Dialogue.step world openRoute turn) .new interrupted = some world ∧
      (world.noted 0, world.client.channels[0]?.map fun entry => (entry.depths, entry.resumePolicy)) =
        ([.row 1 0, .gap, .row 3 0, .row 4 0, .row 5 0], some (⟨2, 2⟩, .resume)) :=
    Option.map_eq_some_iff.mp (by decide +kernel)
  obtain ⟨noted, held⟩ := Prod.mk.inj facts
  obtain ⟨entry, known, states⟩ := Option.map_eq_some_iff.mp held
  obtain ⟨reached, same, covered⟩ := Dialogue.resumed_delivery_is_covered openRoute interrupted conforming
  obtain rfl := Option.some.inj (ran.symm.trans same)
  exact ⟨conforming, world, ran, noted, covered 0 entry known (states ▸ ⟨rfl, _, rfl, by decide⟩)⟩

end Dialogue

end Brenn.Attach
