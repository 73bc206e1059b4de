import Brenn.Lib.Run
import Brenn.Lib.Tiling
import Brenn.Queue.Core

/-!
The books of a non-durable channel.

An observer keeps one ledger per held position: where it began, every serve with
the position it was made from, and every charge reported against the subscriber.
Over any run the serves tile the positions passed.
-/

namespace Brenn.Queue
open Brenn.Lib Std

universe u v w x

variable {M : Type u} {Ep : Type v} {S : Type w} {P : Type x} [LinearOrder S]

/-- Cut a window and advance over what it served, as a push consumer does. -/
def RingCore.serve (core : RingCore M Ep S P) (subscriber : S) (pushLimit retainLimit : Nat) :
    Option (Option (Window M × Option Advance) × RingCore M Ep S P) :=
  match core.window subscriber pushLimit retainLimit with
  | (none, core) => some (none, core)
  | (some window, core) =>
    match window.advanceSpan with
    | none => some (some (window, none), core)
    | some (through, seenFloor) =>
      match core.advance subscriber through seenFloor with
      | none => none
      | some (advance, core) => some (some (window, advance), core)

/-- One serve: the position before it, the seqs the window carried and what the advance answered. -/
structure Served where
  nextOwed : Nat
  carried : List Nat
  advance : Option Advance
  deriving Repr, DecidableEq

namespace Served

def unseen (served : Served) : List Nat := served.carried.filter fun seq => decide (served.nextOwed ≤ seq)

def dropped (served : Served) : Nat := (served.advance.map Advance.dropped).getD 0

def noiseCharge (served : Served) : Nat := (served.advance.map Advance.noiseCharge).getD 0

def passed (served : Served) : List Nat := List.range' served.nextOwed served.dropped

end Served

structure Ledger where
  start : Nat
  serves : List Served
  /-- Total of the evictions reported against the subscriber. -/
  overflow : Nat
  /-- Messages that entered a ring of depth zero while the position was held. -/
  spent : Nat
  deriving Repr, DecidableEq

namespace Ledger

def opened (start : Nat) : Ledger := ⟨start, [], 0, 0⟩

def charge (book : Ledger) (overflow spent : Nat) : Ledger :=
  { book with overflow := book.overflow + overflow, spent := book.spent + spent }

def record (book : Ledger) (served : Served) : Ledger := { book with serves := book.serves ++ [served] }

def dropped (book : Ledger) : Nat := (book.serves.map Served.dropped).sum

def noise (book : Ledger) : Nat := (book.serves.map Served.noiseCharge).sum

end Ledger

/-- The calls a channel takes. `serve` is a window and the advance over it. -/
inductive CoreOp (M : Type u) (S : Type w) (P : Type x) where
  | append (message : M)
  | releaseDue (now : Nat)
  | setDepth (depth : Nat)
  | park (sender : P) (message : M) (releaseAt : Nat)
  | edit (id : Nat) (message : Option M) (releaseAt : Option Nat)
  | cancel (id : Nat)
  | attach (subscriber : S) (pushDepth : Nat)
  | detach (subscriber : S)
  | serve (subscriber : S) (pushLimit retainLimit : Nat)
  deriving Repr, DecidableEq

structure World (M : Type u) (Ep : Type v) (S : Type w) (P : Type x) [LinearOrder S] where
  core : RingCore M Ep S P
  books : TreeMap S Ledger

namespace World

def new (epoch : Ep) (depth : Nat) : World M Ep S P := ⟨.new epoch depth, ∅⟩

/-- Enter the charges of one call that brought `entered` messages into retention. -/
def charge (world : World M Ep S P) (core : RingCore M Ep S P) (overflow : List (CursorOverflow S))
    (entered : Nat) : World M Ep S P :=
  { core := core
    books := world.books.map fun subscriber book =>
      book.charge (charged subscriber overflow) (if world.core.ring.depth = 0 then entered else 0) }

def step (world : World M Ep S P) : CoreOp M S P → Option (World M Ep S P)
  | .append message =>
    let (report, core) := world.core.append message
    some (world.charge core report.overflow 1)
  | .releaseDue now =>
    let (report, core) := world.core.releaseDue now
    some (world.charge core report.overflow report.released.length)
  | .setDepth depth =>
    let (overflow, core) := world.core.setDepth depth
    some (world.charge core overflow 0)
  | .park sender message releaseAt =>
    match world.core.park sender message releaseAt with
    | .error _ => some world
    | .ok (_, core) => some { world with core := core }
  | .edit id message releaseAt => some { world with core := (world.core.editDeferred id message releaseAt).2 }
  | .cancel id => some { world with core := (world.core.cancelDeferred id).2 }
  | .attach subscriber pushDepth =>
    let (attached, core) := world.core.attach subscriber pushDepth
    let books := match attached, core.cursors[subscriber]? with
      | .created, some cursor => world.books.insert subscriber (.opened cursor.nextOwed)
      | _, _ => world.books
    some ⟨core, books⟩
  | .detach subscriber => some { world with core := (world.core.detach subscriber).2 }
  | .serve subscriber pushLimit retainLimit =>
    match world.core.serve subscriber pushLimit retainLimit with
    | none => none
    | some (answer, core) =>
      let books := match world.core.cursors[subscriber]?, answer with
        | some cursor, some (window, advance) =>
          -- a sampled read takes no position forward and is not a serve
          if window.pushEnabled then
            world.books.modify subscriber fun book =>
              book.record ⟨cursor.nextOwed, window.entries.map Retained.seq, advance⟩
          else world.books
        | _, _ => world.books
      some ⟨core, books⟩

end World

section StepEquations

variable (world : World M Ep S P)

theorem World.step_append (message : M) : world.step (.append message) =
    some (world.charge (world.core.append message).2 (world.core.append message).1.overflow 1) := rfl

theorem World.step_releaseDue (now : Nat) : world.step (.releaseDue now) =
    some (world.charge (world.core.releaseDue now).2 (world.core.releaseDue now).1.overflow
      (world.core.releaseDue now).1.released.length) := rfl

theorem World.step_setDepth (depth : Nat) : world.step (.setDepth depth) =
    some (world.charge (world.core.setDepth depth).2 (world.core.setDepth depth).1 0) := rfl

end StepEquations

/-! ### One position's account -/

structure Account (ring : RetainedRing M Ep) (cursor : SubscriberCursor) (book : Ledger) : Prop where
  enabled : 0 < cursor.pushDepth
  within : cursor.nextOwed ≤ ring.nextSeq
  tiles : Tiles Served.passed Served.unseen book.start cursor.nextOwed book.serves
  balance : book.overflow + book.noise + book.spent = book.dropped + (frontier ring - cursor.nextOwed)

namespace Account

variable {ring : RetainedRing M Ep} {cursor : SubscriberCursor} {book : Ledger}

omit [LinearOrder S] in
theorem evictedSince (account : Account ring cursor book) (after : RetainedRing M Ep) (oldFrontier : Nat) :
    cursor.evictedSince after oldFrontier = frontier after - max cursor.nextOwed oldFrontier := by
  simp [SubscriberCursor.evictedSince, SubscriberCursor.isPushEnabled, account.enabled]

theorem primed (ring : RetainedRing M Ep) {pushDepth : Nat} (enabled : 0 < pushDepth) :
    Account ring (.primed ring pushDepth) (.opened (SubscriberCursor.primed ring pushDepth).nextOwed) := by
  have owed := primed_nextOwed ring pushDepth
  have edge := frontier_eq ring
  refine ⟨enabled, by omega, tiles_nil _, ?_⟩
  simp only [Ledger.opened, Ledger.noise, Ledger.dropped, List.map_nil, List.sum_nil]
  omega

theorem retuned (account : Account ring cursor book) {pushDepth : Nat} (enabled : 0 < pushDepth) :
    Account ring (cursor.setPushDepth pushDepth) book :=
  ⟨enabled, account.within, account.tiles, account.balance⟩

theorem setDepth (account : Account ring cursor book) (depth : Nat) :
    Account (ring.setDepth depth) cursor
      (book.charge (cursor.evictedSince (ring.setDepth depth) (frontier ring)) 0) := by
  refine ⟨account.enabled, account.within, account.tiles, ?_⟩
  have moves := frontier_moves cursor.nextOwed (frontier_setDepth ring depth)
  have balance := account.balance
  rw [account.evictedSince]
  simp only [Ledger.charge, Ledger.noise, Ledger.dropped] at balance ⊢
  omega

theorem append (account : Account ring cursor book) (message : M) :
    Account (ring.append message).2 cursor
      (if ring.depth = 0 then book.charge 0 1
        else book.charge (cursor.evictedSince (ring.append message).2 (frontier ring)) 0) := by
  have moved := frontier_append ring message
  have within := account.within
  have balance := account.balance
  have grown : cursor.nextOwed ≤ (ring.append message).2.nextSeq := by rw [ring.append_nextSeq]; omega
  split
  next zero =>
    have empty : ring.entries.length = 0 := Nat.le_zero.mp (zero ▸ ring.bounded)
    have edge := frontier_eq ring
    simp only [zero, if_true] at moved
    refine ⟨account.enabled, grown, account.tiles, ?_⟩
    simp only [Ledger.charge, Ledger.noise, Ledger.dropped] at balance ⊢
    omega
  next retains =>
    simp only [retains, if_false] at moved
    have moves := frontier_moves cursor.nextOwed (show frontier ring ≤ frontier (ring.append message).2 by omega)
    refine ⟨account.enabled, grown, account.tiles, ?_⟩
    rw [account.evictedSince]
    simp only [Ledger.charge, Ledger.noise, Ledger.dropped] at balance ⊢
    omega

end Account

omit [LinearOrder S] in
/-- The seqs of a window the subscriber had not passed are those above its floor and its position. -/
theorem unseen_tail (ring : RetainedRing M Ep) (nextOwed n : Nat) (advance : Option Advance) :
    (Served.mk nextOwed ((ring.tail n).map Retained.seq) advance).unseen =
      List.range' (max (ring.nextSeq - (ring.tail n).length) nextOwed)
        (ring.nextSeq - max (ring.nextSeq - (ring.tail n).length) nextOwed) := by
  have counted := ring.counted
  have length := length_tail ring n
  have cut := (tail_numbered ring n).map_filter_ge nextOwed
  rw [show ring.nextSeq - (ring.tail n).length + (ring.tail n).length = ring.nextSeq by omega] at cut
  rw [Served.unseen, List.filter_map]
  exact cut

def SubscriberCursor.afterServe (cursor : SubscriberCursor) (ring : RetainedRing M Ep) (pushLimit : Nat) :
    SubscriberCursor :=
  ⟨if ring.entries ≠ [] ∧ cursor.nextOwed ≤ ring.newestSeq then ring.nextSeq else cursor.nextOwed, pushLimit⟩

def SubscriberCursor.serveAdvance (cursor : SubscriberCursor) (ring : RetainedRing M Ep)
    (pushLimit retainLimit : Nat) : Option Advance :=
  if ring.entries = [] then none
  else
    let seenFloor := ring.nextSeq - min (max pushLimit retainLimit) ring.entries.length
    some ⟨seenFloor - cursor.nextOwed, seenFloor - max cursor.nextOwed (frontier ring)⟩

/-- What a serve passed and carried unseen continues the tiling, and its drops split into reported evictions and its
    own noise charge. -/
theorem Account.serve {ring : RetainedRing M Ep} {cursor : SubscriberCursor} {book : Ledger}
    (account : Account ring cursor book) {pushLimit : Nat} (enabled : 0 < pushLimit) (retainLimit : Nat) :
    Account ring (cursor.afterServe ring pushLimit)
      (book.record ⟨cursor.nextOwed, (ring.tail (max pushLimit retainLimit)).map Retained.seq,
        cursor.serveAdvance ring pushLimit retainLimit⟩) := by
  have counted := ring.counted
  have within := account.within
  have newest := ring.newestSeq_succ
  have edge := frontier_eq ring
  have length := length_tail ring (max pushLimit retainLimit)
  have balance := account.balance
  by_cases empty : ring.entries = []
  · have nothing : ring.tail (max pushLimit retainLimit) = [] := by simp [RetainedRing.tail, empty]
    refine ⟨enabled, ?_, ?_, ?_⟩
    · simpa [SubscriberCursor.afterServe, empty] using within
    · refine account.tiles.snoc (by simp [SubscriberCursor.afterServe, empty]) ?_
      simp [SubscriberCursor.afterServe, SubscriberCursor.serveAdvance, Served.passed, Served.unseen,
        Served.dropped, empty, nothing]
    · simpa [SubscriberCursor.afterServe, SubscriberCursor.serveAdvance, Ledger.record, Ledger.noise,
        Ledger.dropped, Served.dropped, Served.noiseCharge, empty] using balance
  · have some_entry := List.length_pos_iff.mpr empty
    have position : (cursor.afterServe ring pushLimit).nextOwed = ring.nextSeq := by
      simp only [SubscriberCursor.afterServe, ne_eq, empty, not_false_eq_true, true_and]
      split <;> omega
    refine ⟨enabled, position.le, ?_, ?_⟩
    · refine account.tiles.snoc (position ▸ within) ?_
      rw [position, unseen_tail]
      simp only [Served.passed, Served.dropped, SubscriberCursor.serveAdvance, empty, if_false, Option.map_some,
        Option.getD_some, length]
      -- the floor is at or above the position and something was passed, or it is below and nothing was
      generalize floored : ring.nextSeq - min (max pushLimit retainLimit) ring.entries.length = seenFloor
      rcases Nat.le_total cursor.nextOwed seenFloor with skips | reaches
      · have joined := List.range'_append_1 (s := cursor.nextOwed) (m := seenFloor - cursor.nextOwed)
          (n := ring.nextSeq - seenFloor)
        rw [Nat.max_eq_left skips]
        rw [show cursor.nextOwed + (seenFloor - cursor.nextOwed) = seenFloor by omega] at joined
        rw [joined]
        congr 1
        omega
      · rw [Nat.max_eq_right reaches, Nat.sub_eq_zero_of_le reaches]
        rfl
    · have split := frontier_moves cursor.nextOwed
        (show frontier ring ≤ ring.nextSeq - min (max pushLimit retainLimit) ring.entries.length by omega)
      simp only [Ledger.record, Ledger.noise, Ledger.dropped, List.map_append, List.map_cons, List.map_nil,
        List.sum_append, List.sum_cons, List.sum_nil, Served.dropped, Served.noiseCharge,
        SubscriberCursor.serveAdvance, empty, if_false, Option.map_some, Option.getD_some, position] at balance ⊢
      omega

/-! ### The channel's calls -/

/-- The advance over a window that served something passes both assertions. -/
theorem advance_window (cursor : SubscriberCursor) (ring : RetainedRing M Ep) {pushLimit : Nat}
    (enabled : 0 < pushLimit) (retainLimit : Nat) (nonempty : ring.entries ≠ []) :
    let seenFloor := ring.nextSeq - min (max pushLimit retainLimit) ring.entries.length
    (cursor.setPushDepth pushLimit).advance ring ring.newestSeq seenFloor =
      some (⟨seenFloor - cursor.nextOwed, seenFloor - max cursor.nextOwed (frontier ring)⟩,
        cursor.afterServe ring pushLimit) := by
  intro seenFloor
  have newest := ring.newestSeq_succ
  have floor : seenFloor ≤ ring.nextSeq := by omega
  by_cases behind : cursor.nextOwed ≤ ring.newestSeq <;>
    simp [SubscriberCursor.advance, SubscriberCursor.setPushDepth, SubscriberCursor.isPushEnabled,
      SubscriberCursor.afterServe, enabled, floor, behind, nonempty, newest]

namespace RingCore

variable {core : RingCore M Ep S P} {subscriber : S} {cursor : SubscriberCursor}

/-- A serve of a held position: never a panic, and it moves that position only. -/
theorem serve_held (held : core.cursors[subscriber]? = some cursor) {pushLimit : Nat} (enabled : 0 < pushLimit)
    (retainLimit : Nat) :
    ∃ window after, core.serve subscriber pushLimit retainLimit =
        some (some (window, cursor.serveAdvance core.ring pushLimit retainLimit), after) ∧
      window.entries = core.ring.tail (max pushLimit retainLimit) ∧ window.pushEnabled = true ∧
      after.ring = core.ring ∧
      ∀ other, after.cursors[other]? =
        if subscriber = other then some (cursor.afterServe core.ring pushLimit) else core.cursors[other]? := by
  have counted := core.ring.counted
  have newest := core.ring.newestSeq_succ
  have span := window_advanceSpan (cursor.setPushDepth pushLimit) core.ring pushLimit retainLimit
  by_cases empty : core.ring.entries = []
  · simp only [enabled.ne', empty, or_true, if_true] at span
    refine ⟨(cursor.setPushDepth pushLimit).window core.ring pushLimit retainLimit,
      { core with cursors := core.cursors.insert subscriber (cursor.setPushDepth pushLimit) }, ?_, rfl, ?_, rfl, ?_⟩
    · simp [serve, window, held, enabled, span, SubscriberCursor.serveAdvance, empty]
    · simp [SubscriberCursor.window, enabled]
    · intro other
      simp [lookup_insert, SubscriberCursor.afterServe, SubscriberCursor.setPushDepth, empty]
  · simp only [enabled.ne', empty, or_self, if_false] at span
    have entries := List.length_pos_iff.mpr empty
    refine ⟨(cursor.setPushDepth pushLimit).window core.ring pushLimit retainLimit,
      { core with
        cursors := (core.cursors.insert subscriber (cursor.setPushDepth pushLimit)).insert subscriber
          (cursor.afterServe core.ring pushLimit) }, ?_, rfl, ?_, rfl, ?_⟩
    · have moved := advance_window cursor core.ring enabled retainLimit empty
      simp [serve, window, held, enabled, span, advance, moved, SubscriberCursor.serveAdvance, empty]
    · simp [SubscriberCursor.window, enabled]
    · intro other
      simp only [lookup_insert]
      split <;> rfl

/-- A push-enabled serve of a subscriber without a position answers nothing. -/
theorem serve_absent (absent : core.cursors[subscriber]? = none) {pushLimit : Nat} (enabled : 0 < pushLimit)
    (retainLimit : Nat) : core.serve subscriber pushLimit retainLimit = some (none, core) := by
  simp [serve, window, absent, enabled]

theorem serve_sampled (core : RingCore M Ep S P) (subscriber : S) (retainLimit : Nat) :
    ∃ window after, core.serve subscriber 0 retainLimit = some (some (window, none), after) ∧
      window.pushEnabled = false ∧ after.ring = core.ring ∧
      ∀ other : S, after.cursors[other]? = core.cursors[other]? := by
  cases held : core.cursors[subscriber]? with
  | none =>
    refine ⟨⟨core.ring.tail retainLimit, (core.ring.tail retainLimit).length, false⟩, core, ?_, rfl, rfl, fun _ => rfl⟩
    simp [serve, window, held, Window.advanceSpan]
  | some cursor =>
    refine ⟨cursor.window core.ring 0 retainLimit,
      { core with cursors := core.cursors.insert subscriber cursor }, ?_, rfl, rfl, fun other => ?_⟩
    · simp [serve, window, held, window_advanceSpan]
    · rw [lookup_insert]
      split
      next same => rw [← same, held]
      next => rfl

theorem append_charge (held : core.cursors[subscriber]? = some cursor) (message : M) :
    charged subscriber (core.append message).1.overflow =
      if core.ring.depth = 0 then 0
      else cursor.evictedSince (core.ring.append message).2 (frontier core.ring) := by
  split
  next zero => rw [core.append_overflow_zero message zero, charged_nil]
  next retains => simp [core.append_overflow message retains, charged_overflowSince, held]

end RingCore

theorem Account.append_charged {core : RingCore M Ep S P} {subscriber : S} {cursor : SubscriberCursor}
    {book : Ledger} (held : core.cursors[subscriber]? = some cursor) (account : Account core.ring cursor book)
    (message : M) :
    Account (core.append message).2.ring cursor
      (book.charge (charged subscriber (core.append message).1.overflow) (if core.ring.depth = 0 then 1 else 0)) := by
  have entered := account.append message
  rw [RingCore.append_charge held, RingCore.append_ring]
  split at entered
  next zero => simpa [zero] using entered
  next retains => simpa [retains] using entered

/-- A release pass enters one append at a time, so its report is in order when theirs are. -/
theorem Account.enterDue_charged {core : RingCore M Ep S P} {subscriber : S} {cursor : SubscriberCursor}
    {book : Ledger} (held : core.cursors[subscriber]? = some cursor) (due : List (Deferred M P))
    (report : ReleaseReport M S)
    (account : Account core.ring cursor (book.charge (charged subscriber report.overflow)
      (if core.ring.depth = 0 then report.released.length else 0))) :
    Account (core.enterDue due report).2.ring cursor
      (book.charge (charged subscriber (core.enterDue due report).1.overflow)
        (if core.ring.depth = 0 then (core.enterDue due report).1.released.length else 0)) := by
  induction due generalizing core report with
  | nil => exact account
  | cons entry due ih =>
    have held' : (core.append entry.message).2.cursors[subscriber]? = some cursor := by simpa using held
    have depth : (core.append entry.message).2.ring.depth = core.ring.depth := by simp
    have entered := account.append_charged held entry.message
    have next := ih held' ⟨report.released ++ [⟨(core.append entry.message).1.seq, entry.message⟩],
      mergeOverflow report.overflow (core.append entry.message).1.overflow⟩
    rw [depth] at next
    refine next ?_
    convert entered using 1
    rw [charged_mergeOverflow, List.length_append, List.length_singleton]
    simp only [Ledger.charge, Ledger.mk.injEq, true_and]
    refine ⟨by omega, ?_⟩
    split <;> omega

/-! ### The whole channel -/

def World.InOrder (world : World M Ep S P) : Prop :=
  ∀ (subscriber : S) (cursor : SubscriberCursor), world.core.cursors[subscriber]? = some cursor →
    ∃ book, world.books[subscriber]? = some book ∧ Account world.core.ring cursor book

namespace World

variable {world : World M Ep S P}

theorem inOrder_new (epoch : Ep) (depth : Nat) : (new epoch depth : World M Ep S P).InOrder := by
  intro subscriber cursor held
  simp [new, RingCore.new] at held

/-- A call that charges every position by its own figure keeps the books. -/
theorem InOrder.charge (inOrder : world.InOrder) {core : RingCore M Ep S P}
    {overflow : List (CursorOverflow S)} {entered : Nat} (same : core.cursors = world.core.cursors)
    (accounts : ∀ (subscriber : S) (cursor : SubscriberCursor) (book : Ledger),
      world.core.cursors[subscriber]? = some cursor → Account world.core.ring cursor book →
      Account core.ring cursor
        (book.charge (charged subscriber overflow) (if world.core.ring.depth = 0 then entered else 0))) :
    (world.charge core overflow entered).InOrder := by
  intro subscriber cursor held
  have before : world.core.cursors[subscriber]? = some cursor := by rw [← same]; exact held
  obtain ⟨book, kept, account⟩ := inOrder subscriber cursor before
  exact ⟨_, by simp only [World.charge, TreeMap.getElem?_map, kept, Option.map_some],
    accounts subscriber cursor book before account⟩

/-- A call that touches neither the ring nor the positions keeps the books. -/
theorem InOrder.of_same (inOrder : world.InOrder) {core : RingCore M Ep S P} (ring : core.ring = world.core.ring)
    (cursors : ∀ (subscriber : S) cursor, core.cursors[subscriber]? = some cursor →
      world.core.cursors[subscriber]? = some cursor) :
    InOrder { world with core := core } := by
  intro subscriber cursor held
  obtain ⟨book, kept, account⟩ := inOrder subscriber cursor (cursors subscriber cursor held)
  exact ⟨book, kept, ring ▸ account⟩

theorem InOrder.erase (inOrder : world.InOrder) (subscriber : S) :
    InOrder { world with core := { world.core with cursors := world.core.cursors.erase subscriber } } := by
  refine inOrder.of_same rfl fun other cursor held => ?_
  simp only [lookup_erase] at held
  split at held
  · simp at held
  · exact held

/-- A subscriber's position and ledger replaced by a pair that is in order. -/
theorem InOrder.insert (inOrder : world.InOrder) {subscriber : S} {cursor : SubscriberCursor} {book : Ledger}
    (account : Account world.core.ring cursor book) {books : TreeMap S Ledger}
    (kept : ∀ other, books[other]? = if subscriber = other then some book else world.books[other]?) :
    InOrder { core := { world.core with cursors := world.core.cursors.insert subscriber cursor }, books } := by
  intro other position held
  simp only [lookup_insert] at held
  split at held
  next same =>
    obtain rfl := Option.some.inj held
    exact ⟨book, by rw [kept, if_pos same], account⟩
  next different =>
    obtain ⟨otherBook, otherKept, otherAccount⟩ := inOrder other position held
    exact ⟨otherBook, by rw [kept, if_neg different, otherKept], otherAccount⟩

theorem InOrder.attach (inOrder : world.InOrder) (subscriber : S) (pushDepth : Nat) :
    ∃ after, world.step (.attach subscriber pushDepth) = some after ∧ after.InOrder := by
  rcases Nat.eq_zero_or_pos pushDepth with rfl | enabled
  · -- a demotion to a sampled subscriber gives the position up
    exact ⟨_, by simp [World.step, RingCore.attach], inOrder.erase subscriber⟩
  cases found : world.core.cursors[subscriber]? with
  | some cursor =>
    obtain ⟨book, kept, account⟩ := inOrder subscriber cursor found
    have retuned := inOrder.insert (account.retuned enabled) fun other : S =>
      show world.books[other]? = if subscriber = other then some book else world.books[other]? by
        split
        next same => exact same ▸ kept
        next => rfl
    exact ⟨_, by simp only [World.step, RingCore.attach, enabled.ne', if_false, found], retuned⟩
  | none =>
    have created := inOrder.insert (.primed world.core.ring enabled) fun other =>
      lookup_insert world.books subscriber other (.opened (SubscriberCursor.primed world.core.ring pushDepth).nextOwed)
    exact ⟨_, by simp only [World.step, RingCore.attach, enabled.ne', if_false, found, lookup_insert, if_true],
      created⟩

theorem InOrder.serve (inOrder : world.InOrder) (subscriber : S) (pushLimit retainLimit : Nat) :
    ∃ after, world.step (.serve subscriber pushLimit retainLimit) = some after ∧ after.InOrder := by
  rcases Nat.eq_zero_or_pos pushLimit with rfl | enabled
  · obtain ⟨window, after, served, sampled, ring, cursors⟩ :=
      RingCore.serve_sampled world.core subscriber retainLimit
    refine ⟨⟨after, world.books⟩, ?_, inOrder.of_same ring fun other cursor held => cursors other ▸ held⟩
    simp only [World.step, served]
    cases world.core.cursors[subscriber]? <;> simp [sampled]
  cases found : world.core.cursors[subscriber]? with
  | none =>
    refine ⟨world, ?_, inOrder⟩
    simp [World.step, RingCore.serve_absent found enabled, found]
  | some cursor =>
    obtain ⟨window, after, served, entries, pushes, ring, cursors⟩ :=
      RingCore.serve_held found enabled retainLimit
    obtain ⟨book, kept, account⟩ := inOrder subscriber cursor found
    refine ⟨⟨after, world.books.modify subscriber fun book => book.record
      ⟨cursor.nextOwed, window.entries.map Retained.seq,
        cursor.serveAdvance world.core.ring pushLimit retainLimit⟩⟩, ?_, ?_⟩
    · simp [World.step, served, found, pushes]
    · intro other position held
      simp only [cursors, lookup_modify, ring] at held ⊢
      split at held
      next same =>
        obtain rfl := Option.some.inj held
        subst same
        refine ⟨_, by rw [if_pos rfl, kept, Option.map_some], ?_⟩
        rw [entries]
        exact account.serve enabled retainLimit
      next different =>
        obtain ⟨otherBook, otherKept, otherAccount⟩ := inOrder other position held
        exact ⟨otherBook, by rw [if_neg different, otherKept], otherAccount⟩

theorem InOrder.step (inOrder : world.InOrder) (op : CoreOp M S P) :
    ∃ after, world.step op = some after ∧ after.InOrder := by
  cases op with
  | append message =>
    refine ⟨_, world.step_append message,
      inOrder.charge (by simp) fun subscriber cursor book held account => ?_⟩
    exact account.append_charged held message
  | releaseDue now =>
    refine ⟨_, world.step_releaseDue now,
      inOrder.charge (by simp) fun subscriber cursor book held account => ?_⟩
    let waiting : RingCore M Ep S P := { world.core with deferred := (world.core.deferred.releaseDue now).2 }
    have held' : waiting.cursors[subscriber]? = some cursor := held
    exact Account.enterDue_charged held' (world.core.deferred.releaseDue now).1 ⟨[], []⟩
      (by simpa [Ledger.charge, waiting] using account)
  | setDepth depth =>
    refine ⟨_, world.step_setDepth depth,
      inOrder.charge rfl fun subscriber cursor book held account => ?_⟩
    have charged := account.setDepth depth
    simpa [RingCore.setDepth, RingCore.charged_overflowSince, held] using charged
  | park sender message releaseAt =>
    simp only [World.step, RingCore.park]
    cases world.core.deferred.park sender message releaseAt with
    | error refused => exact ⟨world, rfl, inOrder⟩
    | ok parked => exact ⟨_, rfl, inOrder.of_same rfl fun _ _ held => held⟩
  | edit id message releaseAt =>
    refine ⟨_, rfl, ?_⟩
    unfold RingCore.editDeferred
    cases world.core.deferred.edit id message releaseAt <;> exact inOrder.of_same rfl fun _ _ held => held
  | cancel id =>
    refine ⟨_, rfl, ?_⟩
    unfold RingCore.cancelDeferred
    cases world.core.deferred.cancel id <;> exact inOrder.of_same rfl fun _ _ held => held
  | attach subscriber pushDepth => exact inOrder.attach subscriber pushDepth
  | detach subscriber => exact ⟨_, rfl, inOrder.erase subscriber⟩
  | serve subscriber pushLimit retainLimit => exact inOrder.serve subscriber pushLimit retainLimit

theorem run_inOrder (epoch : Ep) (depth : Nat) (ops : List (CoreOp M S P)) :
    ∃ world, run step (new epoch depth) ops = some world ∧ world.InOrder :=
  run_reaches (fun _ op inOrder _ => inOrder.step op) (inOrder_new epoch depth)
    (along_of_forall (fun _ _ => trivial) (new epoch depth) ops)

end World

/-- Exactly-once accounting. No run panics, and at its end, for every held position, each seq from
    where the position began up to the position was carried unseen by exactly one serve or
    counted in exactly one advance's drops, the seqs served unseen increase, and the two
    totals add up to the distance moved. -/
theorem served_or_dropped_exactly_once (epoch : Ep) (depth : Nat) (ops : List (CoreOp M S P)) :
    ∃ world, run World.step (World.new epoch depth) ops = some world ∧
      ∀ (subscriber : S) (cursor : SubscriberCursor), world.core.cursors[subscriber]? = some cursor →
        ∃ book, world.books[subscriber]? = some book ∧ book.start ≤ cursor.nextOwed ∧
          (∀ seq, book.start ≤ seq → seq < cursor.nextOwed →
            (book.serves.countP fun served => decide (seq ∈ served.unseen)) +
              (book.serves.countP fun served => decide (seq ∈ served.passed)) = 1) ∧
          (book.serves.flatMap Served.unseen).Pairwise (· < ·) ∧
          (book.serves.flatMap Served.unseen).length + book.dropped = cursor.nextOwed - book.start := by
  obtain ⟨world, ran, inOrder⟩ := World.run_inOrder epoch depth ops
  refine ⟨world, ran, fun subscriber cursor held => ?_⟩
  obtain ⟨book, kept, account⟩ := inOrder subscriber cursor held
  have total := account.tiles.total
  simp only [Served.passed, List.length_range'] at total
  exact ⟨book, kept, account.tiles.ordered, fun seq low high => account.tiles.once low high,
    account.tiles.increasing, total⟩

/-! ### Noise -/

def CoreOp.entering (core : RingCore M Ep S P) : CoreOp M S P → Nat
  | .append _ => 1
  | .releaseDue now => (core.deferred.releaseDue now).1.length
  | _ => 0

/-- While `subscriber` holds a position, a message enters only a ring that retains something. -/
def Retaining (subscriber : S) (world : World M Ep S P) (op : CoreOp M S P) : Prop :=
  world.core.cursors[subscriber]?.isSome → 0 < op.entering world.core → world.core.ring.depth ≠ 0

instance (subscriber : S) (world : World M Ep S P) (op : CoreOp M S P) : Decidable (Retaining subscriber world op) :=
  inferInstanceAs (Decidable (_ → _))

namespace World

variable {world after : World M Ep S P} {subscriber : S}

theorem charged_book {core : RingCore M Ep S P} {overflow : List (CursorOverflow S)} {entered : Nat}
    (charged : world.charge core overflow entered = after) (same : core.cursors = world.core.cursors)
    {cursor : SubscriberCursor} (held : after.core.cursors[subscriber]? = some cursor) {book : Ledger}
    (kept : after.books[subscriber]? = some book) :
    world.core.cursors[subscriber]?.isSome ∧ ∃ before, world.books[subscriber]? = some before ∧
      ((∃ overflow, book = before.charge overflow (if world.core.ring.depth = 0 then entered else 0)) ∨
        book.spent = before.spent) := by
  subst charged
  simp only [charge, TreeMap.getElem?_map, Option.map_eq_some_iff] at kept
  obtain ⟨before, found, rfl⟩ := kept
  have still : world.core.cursors[subscriber]? = some cursor := by rw [← same]; exact held
  exact ⟨by simp [still], before, found, .inl ⟨_, rfl⟩⟩

theorem step_book {op : CoreOp M S P} (stepped : world.step op = some after) {cursor : SubscriberCursor}
    (held : after.core.cursors[subscriber]? = some cursor) {book : Ledger}
    (kept : after.books[subscriber]? = some book) :
    (∃ start, book = .opened start) ∨
    world.core.cursors[subscriber]?.isSome ∧ ∃ before, world.books[subscriber]? = some before ∧
      ((∃ overflow, book = before.charge overflow (if world.core.ring.depth = 0 then op.entering world.core else 0)) ∨
        book.spent = before.spent) := by
  cases op with
  | append message =>
    rw [step_append, Option.some.injEq] at stepped
    exact .inr (charged_book stepped (by simp) held kept)
  | releaseDue now =>
    rw [step_releaseDue, Option.some.injEq, RingCore.releaseDue_released] at stepped
    exact .inr (charged_book stepped (by simp) held kept)
  | setDepth depth =>
    rw [step_setDepth, Option.some.injEq] at stepped
    exact .inr (charged_book stepped (by simp) held kept)
  | park sender message releaseAt =>
    simp only [step, RingCore.park] at stepped
    cases parked : world.core.deferred.park sender message releaseAt with
    | error refused =>
      simp only [parked] at stepped
      obtain rfl := Option.some.inj stepped
      exact .inr ⟨by simp [held], book, kept, .inr rfl⟩
    | ok parking =>
      simp only [parked] at stepped
      obtain rfl := Option.some.inj stepped
      exact .inr ⟨by simpa using congrArg Option.isSome held, book, kept, .inr rfl⟩
  | edit id message releaseAt =>
    obtain rfl := Option.some.inj stepped
    refine .inr ⟨?_, book, kept, .inr rfl⟩
    unfold RingCore.editDeferred at held
    cases edited : world.core.deferred.edit id message releaseAt <;> simp only [edited] at held <;> simp [held]
  | cancel id =>
    obtain rfl := Option.some.inj stepped
    refine .inr ⟨?_, book, kept, .inr rfl⟩
    unfold RingCore.cancelDeferred at held
    cases cancelled : world.core.deferred.cancel id <;> simp only [cancelled] at held <;> simp [held]
  | attach other pushDepth =>
    rcases Nat.eq_zero_or_pos pushDepth with rfl | enabled
    · simp only [step, RingCore.attach, if_true, Option.some.injEq] at stepped
      subst stepped
      simp only [lookup_erase] at held
      split at held
      · simp at held
      · exact .inr ⟨by simp [held], book, kept, .inr rfl⟩
    cases found : world.core.cursors[other]? with
    | some old =>
      simp only [step, RingCore.attach, enabled.ne', if_false, found, Option.some.injEq] at stepped
      subst stepped
      simp only [lookup_insert] at held
      refine .inr ⟨?_, book, kept, .inr rfl⟩
      split at held
      next same => rw [← same, found]; rfl
      next => simp [held]
    | none =>
      simp only [step, RingCore.attach, enabled.ne', if_false, found, lookup_insert, if_true,
        Option.some.injEq] at stepped
      subst stepped
      simp only [lookup_insert] at held kept
      split at kept
      · exact .inl ⟨_, (Option.some.inj kept).symm⟩
      next different =>
        rw [if_neg different] at held
        exact .inr ⟨by simp [held], book, kept, .inr rfl⟩
  | detach other =>
    obtain rfl := Option.some.inj stepped
    simp only [RingCore.detach, lookup_erase] at held
    split at held
    · simp at held
    · exact .inr ⟨by simp [held], book, kept, .inr rfl⟩
  | serve other pushLimit retainLimit =>
    rcases Nat.eq_zero_or_pos pushLimit with rfl | enabled
    · obtain ⟨window, core, served, sampled, -, cursors⟩ := RingCore.serve_sampled world.core other retainLimit
      have same : after = ⟨core, world.books⟩ := by
        simp only [step, served] at stepped
        cases found : world.core.cursors[other]? <;> simp [sampled, found] at stepped <;> exact stepped.symm
      subst same
      exact .inr ⟨by simp [← cursors, held], book, kept, .inr rfl⟩
    cases found : world.core.cursors[other]? with
    | none =>
      simp only [step, RingCore.serve_absent found enabled, found, Option.some.injEq] at stepped
      subst stepped
      exact .inr ⟨by simp [held], book, kept, .inr rfl⟩
    | some old =>
      obtain ⟨window, core, served, -, pushes, -, cursors⟩ := RingCore.serve_held found enabled retainLimit
      simp only [step, served, found, pushes, if_true, Option.some.injEq] at stepped
      subst stepped
      simp only [cursors, lookup_modify] at held kept
      split at kept
      next same =>
        obtain ⟨before, old, rfl⟩ := Option.map_eq_some_iff.mp kept
        exact .inr ⟨by rw [← same, found]; rfl, before, old, .inr rfl⟩
      next different =>
        rw [if_neg different] at held
        exact .inr ⟨by simp [held], book, kept, .inr rfl⟩

/-- No message entered a ring of depth zero while the subscriber's present position was held. -/
def Unspent (subscriber : S) (world : World M Ep S P) : Prop :=
  ∀ cursor book, world.core.cursors[subscriber]? = some cursor → world.books[subscriber]? = some book →
    book.spent = 0

/-- As long as messages enter only a ring that retains something, nothing is spent unreported. -/
theorem Unspent.step (unspent : Unspent subscriber world) {op : CoreOp M S P} (stepped : world.step op = some after)
    (retaining : Retaining subscriber world op) : Unspent subscriber after := by
  intro cursor book held kept
  rcases step_book stepped held kept with ⟨start, rfl⟩ | ⟨present, before, found, change⟩
  · rfl
  obtain ⟨position, holding⟩ := Option.isSome_iff_exists.mp present
  have zero := unspent position before holding found
  rcases change with ⟨overflow, rfl⟩ | same
  · have none : (if world.core.ring.depth = 0 then op.entering world.core else 0) = 0 := by
      split
      next empty => exact Nat.eq_zero_of_not_pos fun enters => retaining present enters empty
      next => rfl
    simp [Ledger.charge, zero, none]
  · rw [same, zero]

end World

/-- The noise stream partitions a subscriber's losses in every run in which messages enter only a
    ring that retains something: what evictions reported and what advances charged add up to
    the drops of its advances and the seqs it is still owed below the frontier. There an append
    reports what the moved frontier retired, whether or not it takes the short way out. -/
theorem noise_partitions_losses (epoch : Ep) (depth : Nat) (ops : List (CoreOp M S P)) (subscriber : S)
    (along : Along World.step (Retaining subscriber) (World.new epoch depth) ops) :
    ∃ world, run World.step (World.new epoch depth) ops = some world ∧
      ∀ cursor, world.core.cursors[subscriber]? = some cursor →
        (∃ book, world.books[subscriber]? = some book ∧
          book.overflow + book.noise = book.dropped + (frontier world.core.ring - cursor.nextOwed)) ∧
        ∀ message, Retaining subscriber world (.append message) →
          (world.core.append message).1.overflow =
            (world.core.append message).2.overflowSince (frontier world.core.ring) := by
  let first : World M Ep S P := World.new epoch depth
  have start : first.InOrder ∧ World.Unspent subscriber first :=
    ⟨World.inOrder_new epoch depth, fun cursor book held => by simp [first, World.new, RingCore.new] at held⟩
  have progress (world : World M Ep S P) (op : CoreOp M S P) (held : world.InOrder ∧ World.Unspent subscriber world)
      (retaining : Retaining subscriber world op) :
      ∃ after, world.step op = some after ∧ after.InOrder ∧ World.Unspent subscriber after := by
    obtain ⟨after, stepped, inOrder⟩ := held.1.step op
    exact ⟨after, stepped, inOrder, held.2.step stepped retaining⟩
  obtain ⟨world, ran, inOrder, unspent⟩ := run_reaches progress start along
  refine ⟨world, ran, fun cursor held => ⟨?_, fun message retaining => ?_⟩⟩
  · obtain ⟨book, kept, account⟩ := inOrder subscriber cursor held
    have balance := account.balance
    rw [unspent cursor book held kept] at balance
    exact ⟨book, kept, balance⟩
  · exact world.core.append_overflow message (retaining (by simp [held]) Nat.one_pos)

/-- A subscriber that lags a ring of depth two by three messages and is then served. -/
theorem noise_partitions_lagging_losses :
    let ops : List (CoreOp Nat Nat Nat) :=
      [.attach 0 1, .append 10, .append 11, .append 12, .setDepth 1, .serve 0 1 0, .append 13]
    Along World.step (Retaining 0) (World.new 0 2 : World Nat Nat Nat Nat) ops ∧
    ∃ world, run World.step (World.new 0 2) ops = some world ∧
      ∀ cursor, world.core.cursors[0]? = some cursor →
        (∃ book, world.books[0]? = some book ∧
          book.overflow + book.noise = book.dropped + (frontier world.core.ring - cursor.nextOwed)) ∧
        ∀ message, Retaining 0 world (.append message) →
          (world.core.append message).1.overflow =
            (world.core.append message).2.overflowSince (frontier world.core.ring) := by
  have along : Along World.step (Retaining 0) (World.new 0 2 : World Nat Nat Nat Nat)
      [.attach 0 1, .append 10, .append 11, .append 12, .setDepth 1, .serve 0 1 0, .append 13] := by decide
  exact ⟨along, noise_partitions_losses 0 2 _ 0 along⟩

/-- At depth zero an append moves the frontier past a held position and reports nothing: the
    subscriber is owed one seq below the frontier that no figure accounts for. -/
theorem noise_misses_depth_zero :
    ∃ world : World Nat Nat Nat Nat, ∃ cursor book,
      run World.step (World.new 0 0) [.attach 0 1, .append 7] = some world ∧
      world.core.cursors[0]? = some cursor ∧ world.books[0]? = some book ∧
      book.overflow + book.noise = 0 ∧ book.dropped + (frontier world.core.ring - cursor.nextOwed) = 1 ∧
      (world.core.append 8).1.overflow = [] ∧
      (world.core.append 8).2.overflowSince (frontier world.core.ring) = [⟨0, 1⟩] :=
  ⟨_, _, _, rfl, rfl, rfl, by decide, by decide, by decide, by decide⟩

end Brenn.Queue
