import Brenn.Attach.Delivery
import Brenn.Store.Placed

/-!
The losses a span reports.

A span opened without a cursor is anchored below everything and lifted by the rows it
replays. A drain reports what lies between the position and the first row it serves, which is
right once the position has reached what was assigned before the subscribe.
-/

namespace Brenn.Attach
open Brenn.Lib Brenn.Queue Brenn.Store Std

universe u v w x y

/-! ### Stores that number their rows -/

/-- A retention store, the seqs it assigns and what becomes of it while a span is open. -/
class SequencedStore (σ : Type x) (M : outParam (Type v)) (Ep : outParam (Type w)) (Δ : outParam (Type y))
    extends RetentionStore σ M Ep where
  change : σ → Δ → Option σ
  highWater : σ → Nat
  /-- Whether a fresh reader is shown anything. -/
  visible : σ → Bool
  within : ∀ store cursor limit, ∀ row ∈ (replayFrom store cursor limit).messages, row.seq ≤ highWater store
  newest : ∀ store limit row, (replayFrom store none limit).messages.getLast? = some row → row.seq = highWater store
  shown : ∀ store n, visible store = true → 1 ≤ n → (replayFrom store none (.bounded n)).messages ≠ []
  grows : ∀ store delta after, change store delta = some after → highWater store ≤ highWater after

/-- Appends, releases of what is due, and eviction passes. -/
inductive StoreChange (U : Type u) (T : Type v) where
  | append (rowId : Nat) (uuid : U) (message : NewMessage T)
  | releaseDue (now : Nat)
  | evict (keep : Nat)
  deriving Repr, DecidableEq

section Stores

variable {U : Type u} {T : Type v} {S : Type w} [LinearOrder S]

/-- A ring's part in a change. It evicts as it commits, so a pass finds nothing to do. -/
def RingStore.change (store : RingStore U T S) : StoreChange U T → Option (RingStore U T S)
  | .append _ uuid message => (store.append uuid message).map Prod.snd
  | .releaseDue now => (store.releaseDue now).map Prod.snd
  | .evict _ => some store

/-- A durable channel's part; the database draws a row id above every other. -/
def DbChannel.change (channel : { channel : DbChannel U T S // channel.Sound }) :
    StoreChange U T → Option { channel : DbChannel U T S // channel.Sound }
  | .append rowId uuid message =>
    if above : ∀ row ∈ channel.1.rows, row.id < rowId then
      some ⟨(channel.1.append rowId uuid message).2, (channel.2.append above uuid message).1⟩
    else none
  | .releaseDue now => some ⟨(channel.1.releaseDueForChannel now).2, (channel.2.later_release now).sound⟩
  | .evict keep => some ⟨(channel.1.busGcEvictChannel keep).2, (channel.2.evict keep).1⟩

theorem clampReplay_suffix {M : Type u} {Ep : Type v} (replay : StoreReplay M Ep) (limit : Depth) :
    (clampReplay replay limit).messages <:+ replay.messages := by
  cases limit with
  | unbounded => exact List.suffix_refl _
  | bounded n =>
    unfold clampReplay
    dsimp only
    split
    · exact List.suffix_refl _
    · exact List.drop_suffix _ _

theorem replay_suffix {M : Type u} {Ep : Type v} [DecidableEq Ep] (ring : RetainedRing M Ep) (cursor : Option (Resume Ep)) :
    (ring.replay cursor).messages <:+ ring.entries := by
  cases cursor with
  | none => exact List.suffix_refl _
  | some resume =>
    unfold RetainedRing.replay
    dsimp only
    repeat' split
    all_goals first | exact List.suffix_refl _ | exact List.nil_suffix | exact List.drop_suffix _ _

theorem suffix_last {M : Type u} {first highWater : Nat} {view read : List (Retained M)}
    (dense : Numbered Retained.seq first view) (counted : first + view.length = highWater + 1) (suffix : read <:+ view)
    {row : Retained M} (last : read.getLast? = some row) : row.seq = highWater := by
  obtain ⟨earlier, rfl⟩ := suffix
  have whole : (earlier ++ read).getLast? = some row := by rw [List.getLast?_append, last, Option.some_or]
  have number := dense.key_last whole
  omega

theorem newestOf_suffix {M : Type u} (limit : Depth) (view : List M) : newestOf limit view <:+ view := by
  cases limit with
  | unbounded => exact List.suffix_refl _
  | bounded n => exact List.drop_suffix _ _

theorem newestOf_ne_nil {M : Type u} {limit : Depth} {view : List M} (some' : view ≠ []) (admits : limit ≠ .bounded 0) :
    newestOf limit view ≠ [] := by
  cases limit with
  | unbounded => exact some'
  | bounded n =>
    have positive : n ≠ 0 := fun zero => admits (zero ▸ rfl)
    intro none
    have length := congrArg List.length none
    rw [newestOf, length_newest, List.length_nil] at length
    have := List.length_pos_iff.mpr some'
    omega

variable [DecidableEq U]

theorem RingStore.replayFrom_suffix (store : RingStore U T S) (cursor : Option (Resume U)) (limit : Depth) :
    (store.replayFrom cursor limit).messages <:+ store.core.ring.entries :=
  (clampReplay_suffix _ limit).trans (replay_suffix store.core.ring cursor)

omit [DecidableEq U] in
theorem RingStore.change_grows {store after : RingStore U T S} {delta : StoreChange U T}
    (changed : RingStore.change store delta = some after) :
    store.core.ring.newestSeq ≤ after.core.ring.newestSeq := by
  have grows : store.core.ring.nextSeq ≤ after.core.ring.nextSeq := by
    cases delta with
    | append rowId uuid message =>
      simp only [RingStore.change, RingStore.append, Option.map_eq_some_iff] at changed
      obtain ⟨report, appended, rfl⟩ := changed
      split at appended
      · simp at appended
      · rw [← Option.some.inj appended]
        simp
    | releaseDue now =>
      simp only [RingStore.change, RingStore.releaseDue, Option.map_eq_some_iff] at changed
      obtain ⟨report, released, rfl⟩ := changed
      split at released
      · simp at released
      · rw [← Option.some.inj released]
        simp
    | evict keep =>
      rw [← Option.some.inj changed]
  unfold RetainedRing.newestSeq
  omega

theorem RingStore.replayFrom_within (store : RingStore U T S) (cursor : Option (Resume U)) (limit : Depth) :
    ∀ row ∈ (store.replayFrom cursor limit).messages, row.seq ≤ store.core.ring.newestSeq := by
  intro row listed
  have bounds := store.core.ring.seq_bounds ((RingStore.replayFrom_suffix store cursor limit).subset listed)
  have next := store.core.ring.newestSeq_succ
  omega

theorem RingStore.replayFrom_newest (store : RingStore U T S) (limit : Depth) (row : Retained (MessageEnvelope U T))
    (last : (store.replayFrom none limit).messages.getLast? = some row) : row.seq = store.core.ring.newestSeq := by
  have counted := store.core.ring.counted
  have next := store.core.ring.newestSeq_succ
  exact suffix_last store.core.ring.dense (by omega) (RingStore.replayFrom_suffix store none limit) last

theorem RingStore.replayFrom_shown (store : RingStore U T S) (n : Nat)
    (some' : (!store.core.ring.entries.isEmpty) = true) (positive : 1 ≤ n) :
    (store.replayFrom none (.bounded n)).messages ≠ [] := by
  have entries : store.core.ring.entries ≠ [] := by simpa using some'
  have length := List.length_pos_iff.mpr entries
  change (clampReplay _ (.bounded n)).messages ≠ []
  unfold clampReplay
  dsimp only
  split
  · exact entries
  · refine List.length_pos_iff.mp ?_
    simp only [RetainedRing.replay, List.length_drop]
    omega

instance : SequencedStore (RingStore U T S) (MessageEnvelope U T) U (StoreChange U T) where
  change := RingStore.change
  highWater store := store.core.ring.newestSeq
  visible store := !store.core.ring.entries.isEmpty
  within := RingStore.replayFrom_within
  newest := RingStore.replayFrom_newest
  shown := RingStore.replayFrom_shown
  grows _ _ _ := RingStore.change_grows

theorem DbChannel.replayFrom_suffix {channel : DbChannel U T S} (sound : channel.Sound) (cursor : Option (Resume U))
    (limit : Depth) : (channel.replayFrom cursor limit).messages <:+ channel.retainedView := by
  have window : ∀ cap, channel.loadChannelRetainedWindowSeq cap <:+ channel.retainedView := by
    intro cap
    rw [sound.window_eq]
    exact newestOf_suffix cap _
  have after : ∀ seq cap, channel.loadChannelMessagesAfterSeq seq cap <:+ channel.retainedView := by
    intro seq cap
    rw [sound.after_eq]
    exact (newestOf_suffix cap _).trans (List.drop_suffix _ _)
  cases cursor with
  | none => exact window _
  | some resume =>
    unfold DbChannel.replayFrom
    dsimp only
    repeat' split
    all_goals first | exact window _ | exact List.nil_suffix | exact after _ _

omit [DecidableEq U] in
theorem DbChannel.change_grows {channel after : { channel : DbChannel U T S // channel.Sound }} {delta : StoreChange U T}
    (changed : DbChannel.change channel delta = some after) : channel.1.lastRetainedSeq ≤ after.1.lastRetainedSeq := by
  cases delta with
  | append rowId uuid message =>
    simp only [DbChannel.change] at changed
    split at changed
    next above =>
      rw [← Option.some.inj changed]
      exact (channel.2.later_append above uuid message).head
    next => cases changed
  | releaseDue now =>
    rw [← Option.some.inj changed]
    exact (channel.2.later_release now).head
  | evict keep =>
    rw [← Option.some.inj changed]
    exact (channel.2.later_evict keep).head

section Durable

variable (channel : { channel : DbChannel U T S // channel.Sound })

theorem DbChannel.replayFrom_within (cursor : Option (Resume U)) (limit : Depth) :
    ∀ row ∈ (channel.1.replayFrom cursor limit).messages, row.seq ≤ channel.1.lastRetainedSeq := by
  intro row listed
  have bounds := channel.2.dense.key_bounds ((DbChannel.replayFrom_suffix channel.2 cursor limit).subset listed)
  have counted := channel.2.counted
  omega

theorem DbChannel.replayFrom_newest (limit : Depth) (row : Retained (MessageEnvelope U T))
    (last : (channel.1.replayFrom none limit).messages.getLast? = some row) : row.seq = channel.1.lastRetainedSeq := by
  have counted := channel.2.counted
  exact suffix_last channel.2.dense (by omega) (DbChannel.replayFrom_suffix channel.2 none limit) last

theorem DbChannel.replayFrom_shown (n : Nat)
    (some' : (!channel.1.retainedView.isEmpty && decide (channel.1.deferredCap ≠ .bounded 0)) = true) (positive : 1 ≤ n) :
    (channel.1.replayFrom none (.bounded n)).messages ≠ [] := by
  rw [Bool.and_eq_true, decide_eq_true_eq] at some'
  have view : channel.1.retainedView ≠ [] := by simpa using some'.1
  change channel.1.loadChannelRetainedWindowSeq (channel.1.deferredCap.narrowedBy (.bounded n)) ≠ []
  rw [channel.2.window_eq]
  refine newestOf_ne_nil view ?_
  cases cap : channel.1.deferredCap with
  | unbounded =>
    simp only [Depth.narrowedBy, ne_eq, Depth.bounded.injEq]
    omega
  | bounded m =>
    have admits : m ≠ 0 := fun zero => some'.2 (cap.trans (zero ▸ rfl))
    simp only [Depth.narrowedBy, ne_eq, Depth.bounded.injEq]
    omega

end Durable

instance : SequencedStore { channel : DbChannel U T S // channel.Sound } (MessageEnvelope U T) U (StoreChange U T) where
  change := DbChannel.change
  highWater channel := channel.1.lastRetainedSeq
  visible channel := !channel.1.retainedView.isEmpty && decide (channel.1.deferredCap ≠ .bounded 0)
  within := DbChannel.replayFrom_within
  newest := DbChannel.replayFrom_newest
  shown := DbChannel.replayFrom_shown
  grows _ _ _ := DbChannel.change_grows

end Stores

/-! ### One span -/

/-- One channel's span: the store behind it, the last seq assigned at the subscribe, and every row sent since. -/
structure SpanWorld (C : Type u) (M : Type v) (Ep : Type w) (σ : Type x) [LinearOrder C] where
  session : Session C Ep
  store : σ
  start : Nat
  sent : List (DeliverRow (Retained M) (Cursor C Ep))

inductive SpanEvent (M : Type v) (Δ : Type y) where
  | change (delta : Δ)
  | live (copy : Retained M)
  | drain

variable {C : Type u} {M : Type v} {Ep : Type w} {σ : Type x} {Δ : Type y} [LinearOrder C] [SequencedStore σ M Ep Δ]

namespace SpanWorld

variable (world : SpanWorld C M Ep σ) (profile : Profile C) (channel : C)

def write (result : List (ServerFrame C M Ep) × Session C Ep) : SpanWorld C M Ep σ :=
  { world with session := result.2, sent := world.sent ++ rowsOf result.1 }

def subscribed (session : Session C Ep) (depths : SubscriptionDepths) (store : σ) : Option (SpanWorld C M Ep σ) :=
  match session.handleSubscribe profile (fun _ => some store) channel depths none with
  | some (.ok (frames, session)) => some ⟨session, store, SequencedStore.highWater store, rowsOf frames⟩
  | _ => none

def step : SpanEvent M Δ → Option (SpanWorld C M Ep σ)
  | .change delta => (SequencedStore.change world.store delta).map fun store => { world with store }
  | .live copy =>
    -- a live copy is of a row the store has committed
    if copy.seq ≤ SequencedStore.highWater world.store then
      (world.session.sendLiveCopy profile (fun _ => some world.store) channel copy).map world.write
    else none
  | .drain => (world.session.drainChannel profile (fun _ => some world.store) channel).map world.write

def reported : Nat := (world.sent.map DeliverRow.dropped).sum

def delivered : List Nat := world.sent.map fun row => row.envelope.seq

/-- The seqs assigned since the subscribe that were not delivered on the span. -/
def missed : Finset Nat :=
  (Finset.Ioc world.start (SequencedStore.highWater world.store)).filter fun seq => seq ∉ world.delivered

end SpanWorld

/-! ### Passes -/

omit [SequencedStore σ M Ep Δ] in
/-- What a pass leaves of a span: the position at its last row, the losses as the pass has them. -/
theorem Session.sendPass_charges {session : Session C Ep} {channel : C} {span : Span Ep} {pass : List (PassRow M)}
    {first : Nat} (open' : session.span channel = some span)
    (dense : Numbered (fun row => row.retained.seq) first pass) (above : span.pos.seq ≤ first) (nonempty : pass ≠ []) :
    ∃ rows session' span', session.sendPass channel pass = some ([.deliver channel rows], session') ∧
      session'.span channel = some span' ∧ span'.facts = span.facts ∧ span'.pos.seq + 1 = first + pass.length ∧
      rows.map DeliverRow.dropped = pass.map PassRow.dropped ∧
      rows.map (fun row => row.envelope.seq) = List.range' first pass.length := by
  obtain ⟨active, spanSeq, position⟩ := span_eq_some.mp open'
  obtain ⟨rows, cursors, minted, notes, -, -, -, spans, positions, -⟩ := mintRows_spec spanSeq position dense above
  obtain ⟨row, rest, rfl⟩ := List.exists_cons_of_ne_nil nonempty
  have dropped : rows.map DeliverRow.dropped = (row :: rest).map PassRow.dropped := by
    have read := congrArg (List.map fun note => match note with | .row _ lost => lost | .gap => 0) notes
    simpa [notesOf, passNotes, Function.comp_def] using read
  have seqs : rows.map (fun row => row.envelope.seq) = (row :: rest).map fun row => row.retained.seq := by
    have read := congrArg (List.map fun note => match note with | .row seq _ => seq | .gap => 0) notes
    simpa [notesOf, passNotes, Function.comp_def] using read
  obtain ⟨last, back⟩ : ∃ last, (row :: rest).getLast? = some last := ⟨_, List.getLast?_cons⟩
  let span' : Span Ep := ⟨span.facts, span.seq + (row :: rest).length, ⟨span.pos.epoch, last.retained.seq⟩⟩
  refine ⟨rows, { session with cursors }, span', by simp [sendPass, minted],
    span_eq_some.mpr ⟨active, by rw [spans, if_pos rfl], ?_⟩, rfl, dense.key_last back, dropped, seqs.trans dense⟩
  rw [positions, if_pos rfl, back]
  rfl

omit [LinearOrder C] [SequencedStore σ M Ep Δ] in
theorem drainWindow_loss {facts : SubscriptionFacts} {cursor : Resume Ep} {replay : StoreReplay M Ep}
    (honest : Honest (some cursor) replay) {head : Retained M} {rest : List (Retained M)} {lost : Nat}
    (served : Session.drainWindow facts cursor replay = (head :: rest, lost)) :
    ∃ first, Numbered Retained.seq first (head :: rest) ∧ cursor.seq + lost < first := by
  obtain ⟨first, dense, above, -⟩ := drainWindow_spec honest served
  refine ⟨first, dense, ?_⟩
  have here := (numbered_cons.mp dense).1
  unfold Session.drainWindow at served
  split at served
  next =>
    obtain ⟨same, loss⟩ := Prod.mk.inj served
    rw [← loss]
    split
    · rw [same, List.head?_cons, Option.map_some, Option.getD_some]
      omega
    · omega
  next =>
    obtain ⟨-, rfl⟩ := Prod.mk.inj served
    omega

omit [LinearOrder C] [SequencedStore σ M Ep Δ] in
theorem drainWindow_subset (facts : SubscriptionFacts) (cursor : Resume Ep) (replay : StoreReplay M Ep) :
    (Session.drainWindow facts cursor replay).1 ⊆ replay.messages := by
  unfold Session.drainWindow
  split
  · exact List.filter_subset_self _
  · exact List.Subset.refl _

omit [SequencedStore σ M Ep Δ] in
theorem Session.span_active {session : Session C Ep} {channel : C} {span : Span Ep} (open' : session.span channel = some span) :
    session.active[channel]? = some span.facts ∧ session.cursors.pos[channel]? = some span.pos :=
  ⟨(span_eq_some.mp open').1, (span_eq_some.mp open').2.2⟩

/-- Nothing, or a pass from above the position to a row assigned, whose losses are within what it skips. -/
def Fed (session : Session C Ep) (channel : C) (span : Span Ep) (highWater : Nat)
    (result : List (ServerFrame C M Ep) × Session C Ep) : Prop :=
  result = ([], session) ∨ ∃ rows span', result.1 = [.deliver channel rows] ∧ result.2.span channel = some span' ∧
    ∃ first, rows.map (fun row => row.envelope.seq) = List.range' first rows.length ∧
      span.pos.seq + (rows.map DeliverRow.dropped).sum < first ∧ span'.pos.seq + 1 = first + rows.length ∧
      span'.pos.seq ≤ highWater

theorem Session.drainChannel_fed {session : Session C Ep} (profile : Profile C) {channel : C} {span : Span Ep} (store : σ)
    (open' : session.span channel = some span) :
    ∃ result, session.drainChannel profile (fun _ => some store) channel = some result ∧
      Fed session channel span (SequencedStore.highWater store) result := by
  obtain ⟨active, position⟩ := span_active open'
  rcases served : drainWindow span.facts span.pos (RetentionStore.replayFrom store (some span.pos) span.facts.replayClamp)
    with ⟨window, lost⟩
  by_cases quiet : window.isEmpty || !profile.allowsChannelAccess channel
  · exact ⟨([], session), by simp only [drainChannel, active, position, served, quiet, if_true], .inl rfl⟩
  · cases window with
    | nil => exact absurd rfl quiet
    | cons head rest =>
      obtain ⟨first, dense, above⟩ :=
        drainWindow_loss (RetentionStore.honest store (some span.pos) span.facts.replayClamp) served
      have passDense := @lossOnFirst_dense _ lost _ _ dense
      obtain ⟨rows, session', span', sent, open'', -, reached, dropped, seqs⟩ :=
        sendPass_charges open' passDense (by omega) (List.cons_ne_nil _ _)
      have length : rows.length = (lossOnFirst lost (head :: rest)).length := by
        simpa using congrArg List.length dropped
      have loss : (rows.map DeliverRow.dropped).sum = lost := by
        rw [dropped]
        simp [lossOnFirst, Function.comp_def]
      refine ⟨([.deliver channel rows], session'), ?_, .inr ⟨rows, span', rfl, open'', first, length ▸ seqs, by omega,
        by omega, ?_⟩⟩
      · simp only [drainChannel, active, position, served]
        rw [if_neg quiet, sent]
      · obtain ⟨last, back⟩ : ∃ last, (head :: rest).getLast? = some last := ⟨_, List.getLast?_cons⟩
        have number := dense.key_last back
        have inside : last ∈ (RetentionStore.replayFrom store (some span.pos) span.facts.replayClamp).messages :=
          drainWindow_subset _ _ _ (by rw [served]; exact List.mem_of_getLast? back)
        have bounded := SequencedStore.within store (some span.pos) span.facts.replayClamp last inside
        have same : (lossOnFirst lost (head :: rest)).length = (head :: rest).length := by simp [lossOnFirst]
        omega

theorem Session.sendLiveCopy_fed {session : Session C Ep} (profile : Profile C) {channel : C} {span : Span Ep} (store : σ)
    (open' : session.span channel = some span) {copy : Retained M} (assigned : copy.seq ≤ SequencedStore.highWater store) :
    ∃ result, session.sendLiveCopy profile (fun _ => some store) channel copy = some result ∧
      Fed session channel span (SequencedStore.highWater store) result := by
  obtain ⟨active, position⟩ := span_active open'
  unfold sendLiveCopy
  rw [if_neg (by simp [active])]
  by_cases denied : !profile.allowsChannelAccess channel
  · exact ⟨([], session), if_pos denied, .inl rfl⟩
  · rw [if_neg denied]
    simp only [position]
    by_cases duplicate : copy.seq ≤ span.pos.seq
    · exact ⟨([], session), if_pos duplicate, .inl rfl⟩
    · rw [if_neg duplicate]
      by_cases next : copy.seq = span.pos.seq + 1
      · rw [if_pos next]
        have dense : Numbered (fun row : PassRow M => row.retained.seq) copy.seq [⟨copy, 0⟩] :=
          numbered_cons.mpr ⟨rfl, numbered_nil⟩
        obtain ⟨rows, session', span', sent, open'', -, reached, dropped, seqs⟩ :=
          sendPass_charges open' dense (by omega) (List.cons_ne_nil _ _)
        have length : rows.length = 1 := by simpa using congrArg List.length dropped
        simp only [List.length_singleton] at seqs reached
        refine ⟨_, sent, .inr ⟨rows, span', rfl, open'', copy.seq, by rw [seqs, length], ?_, by omega, by omega⟩⟩
        rw [dropped]
        simp only [List.map_cons, List.map_nil, List.sum_singleton]
        omega
      · rw [if_neg next]
        exact drainChannel_fed profile store open'

/-! ### The balance of a span -/

/-- The span is open and its position has come at least as far as its losses and its rows. -/
structure SpanWorld.Balanced (world : SpanWorld C M Ep σ) (channel : C) : Prop where
  balance : ∃ span, world.session.span channel = some span ∧ world.start ≤ span.pos.seq ∧
    span.pos.seq ≤ SequencedStore.highWater world.store ∧
    world.reported + world.delivered.countP (fun seq => decide (world.start < seq)) ≤ span.pos.seq - world.start

namespace SpanWorld

variable {world next : SpanWorld C M Ep σ} {profile : Profile C} {channel : C}

theorem Balanced.fed (balanced : world.Balanced channel) {span : Span Ep}
    (open' : world.session.span channel = some span) {result : List (ServerFrame C M Ep) × Session C Ep}
    (fed : Fed world.session channel span (SequencedStore.highWater world.store) result) :
    (world.write result).Balanced channel := by
  obtain ⟨span', same, low, high, balance⟩ := balanced.balance
  obtain rfl := Option.some.inj (open'.symm.trans same)
  rcases fed with rfl | ⟨rows, span', frames, open'', first, seqs, above, reached, bounded⟩
  · exact ⟨span, open', low, high, by simpa [write, reported, delivered, rowsOf] using balance⟩
  · refine ⟨span', open'', by simp only [write]; omega, bounded, ?_⟩
    have sent : rowsOf result.1 = rows := by simp [frames, rowsOf]
    have counted : (rows.map fun row => row.envelope.seq).countP (fun seq => decide (world.start < seq)) ≤ rows.length := by
      simpa using List.countP_le_length (l := rows.map fun row => row.envelope.seq)
        (p := fun seq => decide (world.start < seq))
    simp only [write, reported, delivered, sent, List.map_append, List.sum_append, List.countP_append] at balance counted ⊢
    omega

theorem Balanced.step (balanced : world.Balanced channel) {event : SpanEvent M Δ}
    (stepped : world.step profile channel event = some next) : next.Balanced channel := by
  obtain ⟨span, open', low, high, balance⟩ := balanced.balance
  cases event with
  | change delta =>
    simp only [SpanWorld.step, Option.map_eq_some_iff] at stepped
    obtain ⟨store, changed, rfl⟩ := stepped
    exact ⟨span, open', low, high.trans (SequencedStore.grows world.store delta store changed), balance⟩
  | live copy =>
    simp only [SpanWorld.step] at stepped
    split at stepped
    next assigned =>
      obtain ⟨result, sent, fed⟩ := Session.sendLiveCopy_fed profile world.store open' assigned
      rw [sent, Option.map_some] at stepped
      exact Option.some.inj stepped ▸ balanced.fed open' fed
    next => cases stepped
  | drain =>
    obtain ⟨result, sent, fed⟩ := Session.drainChannel_fed profile world.store open'
    simp only [SpanWorld.step, sent, Option.map_some] at stepped
    exact Option.some.inj stepped ▸ balanced.fed open' fed

theorem Balanced.reported_le (balanced : world.Balanced channel) : world.reported ≤ world.missed.card := by
  obtain ⟨span, -, low, high, balance⟩ := balanced.balance
  let assigned := Finset.Ioc world.start (SequencedStore.highWater world.store)
  have split := Finset.card_filter_add_card_filter_not (s := assigned) (p := (· ∈ world.delivered))
  have taken : (assigned.filter (· ∈ world.delivered)).card ≤
      world.delivered.countP (fun seq => decide (world.start < seq)) := by
    rw [List.countP_eq_length_filter]
    refine Nat.le_trans (Finset.card_le_card fun seq chosen => ?_) (List.toFinset_card_le _)
    obtain ⟨inside, held⟩ := Finset.mem_filter.mp chosen
    simpa using ⟨held, (Finset.mem_Ioc.mp inside).1⟩
  have size : assigned.card = SequencedStore.highWater world.store - world.start := Nat.card_Ioc _ _
  have rest : world.missed = assigned.filter (· ∉ world.delivered) := rfl
  rw [rest]
  omega

/-! ### Whole runs -/

theorem step_denied (denied : profile.allowsChannelAccess channel = false) (silent : world.sent = [])
    {event : SpanEvent M Δ} (stepped : world.step profile channel event = some next) : next.sent = [] := by
  have quiet {result : List (ServerFrame C M Ep) × Session C Ep}
      (drained : world.session.drainChannel profile (fun _ => some world.store) channel = some result) : result.1 = [] := by
    unfold Session.drainChannel at drained
    split at drained
    · dsimp only at drained
      rw [denied, Bool.not_false, Bool.or_true, if_pos rfl] at drained
      rw [← Option.some.inj drained]
    · cases drained
  cases event with
  | change delta =>
    simp only [step, Option.map_eq_some_iff] at stepped
    obtain ⟨store, -, rfl⟩ := stepped
    exact silent
  | live copy =>
    simp only [step, Session.sendLiveCopy, denied, Bool.not_false, if_true, ite_self, Option.map_some] at stepped
    split at stepped
    · rw [← Option.some.inj stepped]
      simp [write, silent, rowsOf]
    · cases stepped
  | drain =>
    simp only [step, Option.map_eq_some_iff] at stepped
    obtain ⟨result, drained, rfl⟩ := stepped
    simp [write, silent, quiet drained, rowsOf]

omit [SequencedStore σ M Ep Δ] in
theorem admitSubscribe_fresh {session : Session C Ep} {depths : SubscriptionDepths} {facts : SubscriptionFacts}
    {echoed : Option (CursorState C Ep)}
    (admitted : session.admitSubscribe profile channel depths none = .ok (facts, echoed)) :
    echoed = none ∧ 1 ≤ max facts.pushDepth facts.retainDepth := by
  unfold Session.admitSubscribe at admitted
  dsimp only at admitted
  split at admitted
  · cases admitted
  · split at admitted
    · cases admitted
    · split at admitted
      · cases admitted
      · split at admitted
        · cases admitted
        next window =>
          obtain ⟨rfl, rfl⟩ := Prod.mk.inj (Except.ok.inj admitted)
          refine ⟨rfl, ?_⟩
          dsimp only
          omega

theorem subscribed_cases {session : Session C Ep} {depths : SubscriptionDepths} {store : σ}
    (opened : subscribed profile channel session depths store = some world) :
    ∃ facts frames, 1 ≤ max facts.pushDepth facts.retainDepth ∧
      (session.startSpan channel facts (RetentionStore.replayFrom store none facts.replayClamp).epoch 0).sendPass channel
        (replayPass (if profile.allowsChannelAccess channel then
          (RetentionStore.replayFrom store none facts.replayClamp).messages else [])) = some (frames, world.session) ∧
      world.store = store ∧ world.start = SequencedStore.highWater store ∧ world.sent = rowsOf frames := by
  unfold subscribed Session.handleSubscribe at opened
  cases admitted : session.admitSubscribe profile channel depths none with
  | error violation => simp [admitted] at opened
  | ok answer =>
    obtain ⟨facts, echoed⟩ := answer
    obtain ⟨rfl, window⟩ := admitSubscribe_fresh admitted
    have fresh := (RetentionStore.honest store none facts.replayClamp).fresh.mpr rfl
    have asked : session.storeCursor (none : Option (CursorState C Ep)) = none := rfl
    simp only [admitted, Session.openSpan, asked, fresh, resumeAnswer] at opened
    refine ⟨facts, ?_⟩
    rw [replayPass]
    cases sent : (session.startSpan channel facts (RetentionStore.replayFrom store none facts.replayClamp).epoch 0).sendPass
        channel ((if profile.allowsChannelAccess channel then
          (RetentionStore.replayFrom store none facts.replayClamp).messages else []).map fun retained => ⟨retained, 0⟩) with
    | none => simp [sent] at opened
    | some result =>
      simp only [sent, Option.map_some, Option.some.injEq] at opened
      subst opened
      exact ⟨result.1, window, rfl, rfl, rfl, by simp [rowsOf]⟩

/-- A fresh subscribe lifts the position to all that was assigned, where the channel shows any of it. -/
theorem subscribed_balanced {session : Session C Ep} {depths : SubscriptionDepths} {store : σ}
    (allowed : profile.allowsChannelAccess channel = true)
    (shown : SequencedStore.highWater store = 0 ∨ SequencedStore.visible store = true)
    (opened : subscribed profile channel session depths store = some world) : world.Balanced channel := by
  obtain ⟨facts, frames, window, sent, same, start, rows⟩ := subscribed_cases opened
  subst same
  rw [if_pos allowed] at sent
  generalize replayed : RetentionStore.replayFrom world.store none facts.replayClamp = replay at sent
  have open' : (session.startSpan channel facts replay.epoch 0).span channel = some ⟨facts, 0, ⟨replay.epoch, 0⟩⟩ :=
    Session.span_eq_some.mpr (by simp [Session.startSpan, WireCursors.startSpan])
  by_cases empty : replay.messages = []
  · -- nothing to show, so nothing was assigned
    have zero : SequencedStore.highWater world.store = 0 :=
      shown.resolve_right fun visible =>
        SequencedStore.shown world.store _ visible window (by rw [← empty, ← replayed]; rfl)
    rw [empty] at sent
    obtain ⟨rfl, unsent⟩ := Prod.mk.inj (Option.some.inj sent)
    refine ⟨_, unsent ▸ open', by simp [start, zero], by simp, ?_⟩
    simp [reported, delivered, rows, rowsOf]
  · obtain ⟨first, dense⟩ := (RetentionStore.honest world.store none facts.replayClamp).dense
    obtain ⟨last, back⟩ : ∃ last, replay.messages.getLast? = some last :=
      ⟨_, List.getLast?_eq_some_getLast empty⟩
    have newest := SequencedStore.newest world.store facts.replayClamp last (by rw [replayed]; exact back)
    rw [replayed] at dense
    have number := dense.key_last back
    obtain ⟨sentRows, session', span', wrote, open'', -, reached, dropped, seqs⟩ :=
      Session.sendPass_charges open' (replayPass_dense dense) (Nat.zero_le _) (by simpa [replayPass] using empty)
    obtain ⟨rfl, rfl⟩ := Prod.mk.inj (Option.some.inj (wrote.symm.trans sent))
    have length : (replayPass replay.messages).length = replay.messages.length := by simp [replayPass]
    refine ⟨span', open'', by omega, by omega, ?_⟩
    have lossless : world.reported = 0 := by
      simp [reported, rows, rowsOf, dropped, replayPass, Function.comp_def]
    have old : world.delivered.countP (fun seq => decide (world.start < seq)) = 0 := by
      rw [List.countP_eq_zero]
      intro seq held
      have inside : seq ∈ List.range' first (replayPass replay.messages).length := by
        simpa [← seqs, delivered, rows, rowsOf] using held
      have bounds := List.mem_range'_1.mp inside
      simp only [decide_eq_true_eq]
      omega
    omega

theorem subscribed_denied {session : Session C Ep} {depths : SubscriptionDepths} {store : σ}
    (denied : profile.allowsChannelAccess channel = false)
    (opened : subscribed profile channel session depths store = some world) : world.sent = [] := by
  obtain ⟨facts, frames, window, sent, same, start, rows⟩ := subscribed_cases opened
  rw [if_neg (by simp [denied])] at sent
  obtain ⟨rfl, -⟩ := Prod.mk.inj (Option.some.inj sent)
  exact rows

/-- The losses told on a span opened without a cursor are never more than the seqs assigned since
    that were not delivered on it, if the channel had assigned none before or shows some of them. -/
theorem reported_le_missed {session : Session C Ep} {depths : SubscriptionDepths} {store : σ} {events : List (SpanEvent M Δ)}
    {reached : SpanWorld C M Ep σ} (shown : SequencedStore.highWater store = 0 ∨ SequencedStore.visible store = true)
    (opened : subscribed profile channel session depths store = some world)
    (ran : run (fun world event => world.step profile channel event) world events = some reached) :
    reached.reported ≤ reached.missed.card := by
  have along : Along (fun (world : SpanWorld C M Ep σ) event => world.step profile channel event) (fun _ _ => True) world events :=
    along_of_forall (fun _ _ => trivial) world events
  cases access : profile.allowsChannelAccess channel with
  | true =>
    have kept : ∀ (world : SpanWorld C M Ep σ) (event : SpanEvent M Δ) next, world.Balanced channel → True →
        world.step profile channel event = some next → next.Balanced channel :=
      fun _ _ _ balanced _ stepped => balanced.step stepped
    exact (run_preserves kept (subscribed_balanced access shown opened) along ran).reported_le
  | false =>
    have kept : ∀ (world : SpanWorld C M Ep σ) (event : SpanEvent M Δ) next, world.sent = [] → True →
        world.step profile channel event = some next → next.sent = [] :=
      fun _ _ _ silent _ stepped => step_denied access silent stepped
    have silent := run_preserves kept (subscribed_denied access opened) along ran
    simp [reported, silent]

private def arrives (rowId : Nat) : StoreChange Nat Nat := .append rowId rowId ⟨0, 0, .normal, none⟩

private def spanOn {σ : Type} [SequencedStore σ (MessageEnvelope Nat Nat) Nat (StoreChange Nat Nat)] (store : σ)
    (events : List (SpanEvent (MessageEnvelope Nat Nat) (StoreChange Nat Nat))) :
    Option (SpanWorld Nat (MessageEnvelope Nat Nat) Nat σ) :=
  (subscribed openRoute 0 (.new 0) ⟨2, 2⟩ store).bind fun world =>
    run (fun world event => world.step openRoute 0 event) world events

/-- Three arrivals push the first past the subscription: one loss is told, and one seq was missed. -/
theorem overflow_told :
    ∃ reached, spanOn (ringOf 2) [.change (arrives 7), .change (arrives 8), .change (arrives 9), .drain] = some reached ∧
      reached.reported = 1 ∧ reached.reported ≤ reached.missed.card := by
  obtain ⟨reached, ran, told⟩ : ∃ reached,
      spanOn (ringOf 2) [.change (arrives 7), .change (arrives 8), .change (arrives 9), .drain] = some reached ∧
      reached.reported = 1 := Option.map_eq_some_iff.mp (by decide +kernel)
  obtain ⟨world, opened, rest⟩ := Option.bind_eq_some_iff.mp ran
  exact ⟨reached, ran, told, reported_le_missed (.inr (by decide +kernel)) opened rest⟩

/-- A durable channel that assigned two seqs and was emptied by a pass tells a new span of both,
    with the first row after. -/
theorem history_told_as_loss :
    ((run DbChannel.change ⟨(.new 0 (.bounded 2) : DbChannel Nat Nat Nat), DbChannel.sound_new 0 (.bounded 2)⟩
        [arrives 1, arrives 2, .evict 0]).bind fun store =>
      (spanOn store [.change (arrives 3), .drain]).map fun reached =>
        (reached.start, reached.delivered, reached.reported, reached.missed.card)) = some (2, [3], 2, 0) := by
  decide +kernel

end SpanWorld

end Brenn.Attach
