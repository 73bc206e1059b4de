import Brenn.Store.Mirror.Retention

/-!
The positions a ring store keeps beside a durable channel's cursor rows.

The ring splits a cursor row in two. Both maps are read by subscriber only, so the relation is
stated by lookup.
-/

namespace Brenn.Store
open Brenn.Lib Brenn.Queue Std

universe u v w

variable {U : Type u} {T : Type v} {S : Type w} [LinearOrder S]

def positionOf (row : SubscriberCursorRow T) : SubscriberCursor := ⟨row.nextOwedSeq, depthBound row.pushDepth⟩

theorem isPushEnabled_eq (depth : Depth) : depth.isPushEnabled = decide (0 < depthBound depth) := by
  cases depth with
  | unbounded => rfl
  | bounded n => cases n <;> simp [Depth.isPushEnabled, depthBound]

/-- The ring's maps hold what the cursor rows hold, and no row is sampled. -/
structure Holds (rows : TreeMap S (SubscriberCursorRow T)) (cursors : TreeMap S SubscriberCursor)
    (appSlugs : TreeMap S T) : Prop where
  cursors : ∀ subscriber : S, cursors[subscriber]? = rows[subscriber]?.map positionOf
  appSlugs : ∀ subscriber : S, appSlugs[subscriber]? = rows[subscriber]?.map SubscriberCursorRow.appSlug
  pushed : ∀ (subscriber : S) row, rows[subscriber]? = some row → row.pushDepth.isPushEnabled = true

namespace Holds

variable {rows rows' : TreeMap S (SubscriberCursorRow T)} {cursors cursors' : TreeMap S SubscriberCursor}
  {appSlugs appSlugs' : TreeMap S T} {subscriber : S}

theorem start : Holds (∅ : TreeMap S (SubscriberCursorRow T)) ∅ ∅ where
  cursors subscriber := by simp
  appSlugs subscriber := by simp
  pushed subscriber row held := by simp at held

theorem write (holds : Holds rows cursors appSlugs) (subscriber : S) (entry : Option (SubscriberCursorRow T))
    (written : ∀ other : S, rows'[other]? = if subscriber = other then entry else rows[other]?)
    (moved : ∀ other : S, cursors'[other]? = if subscriber = other then entry.map positionOf else cursors[other]?)
    (named : ∀ other : S, appSlugs'[other]? =
      if subscriber = other then entry.map SubscriberCursorRow.appSlug else appSlugs[other]?)
    (enabled : ∀ row, entry = some row → row.pushDepth.isPushEnabled = true) : Holds rows' cursors' appSlugs' where
  cursors other := by
    rw [moved, written]
    split
    · rfl
    · exact holds.cursors other
  appSlugs other := by
    rw [named, written]
    split
    · rfl
    · exact holds.appSlugs other
  pushed other row held := by
    rw [written] at held
    split at held
    · exact enabled row held
    · exact holds.pushed other row held

theorem put (holds : Holds rows cursors appSlugs) {row : SubscriberCursorRow T}
    (enabled : row.pushDepth.isPushEnabled = true) :
    Holds (rows.insert subscriber row) (cursors.insert subscriber (positionOf row))
      (appSlugs.insert subscriber row.appSlug) := by
  refine holds.write subscriber (some row) ?_ ?_ ?_ ?_
  · exact fun other => lookup_insert rows subscriber other row
  · exact fun other => lookup_insert cursors subscriber other (positionOf row)
  · exact fun other => lookup_insert appSlugs subscriber other row.appSlug
  · rintro other ⟨⟩
    exact enabled

theorem erase (holds : Holds rows cursors appSlugs) (subscriber : S) :
    Holds (rows.erase subscriber) (cursors.erase subscriber) (appSlugs.erase subscriber) := by
  refine holds.write subscriber none ?_ ?_ ?_ ?_
  · exact lookup_erase rows subscriber
  · exact lookup_erase cursors subscriber
  · exact lookup_erase appSlugs subscriber
  · rintro row ⟨⟩

/-- A held position is moved or retuned under the application it is held under. -/
theorem move (holds : Holds rows cursors appSlugs) {old : SubscriberCursorRow T} (row : SubscriberCursorRow T)
    (held : rows[subscriber]? = some old) (same : row.appSlug = old.appSlug)
    (enabled : row.pushDepth.isPushEnabled = true)
    (written : ∀ other : S, rows'[other]? = if subscriber = other then some row else rows[other]?)
    (moved : ∀ other : S, cursors'[other]? = if subscriber = other then some (positionOf row) else cursors[other]?) :
    Holds rows' cursors' appSlugs := by
  refine holds.write subscriber (some row) written moved (fun other => ?_) ?_
  · split
    next here =>
      subst here
      rw [holds.appSlugs, held, Option.map_some, Option.map_some, same]
    next => rfl
  · rintro other ⟨⟩
    exact enabled

end Holds

/-! ### Calls that move positions -/

section Calls

variable {depth : Nat} {channel : DbChannel U T S} {store : RingStore U T S} {subscriber : S}

/-- What a call on positions leaves of the two stores: their retention and what they park. -/
structure Repositioned (channel after : DbChannel U T S) (store store' : RingStore U T S) : Prop where
  durable : after = { channel with cursors := after.cursors }
  epoch : store'.epoch = store.epoch
  ring : store'.core.ring = store.core.ring
  deferred : store'.core.deferred = store.core.deferred
  holds : Holds after.cursors store'.core.cursors store'.appSlugs

theorem attach_mirror (holds : Holds channel.cursors store.core.cursors store.appSlugs)
    (retains : Retains depth channel store.core.ring) (appSlug : T) {n : Nat} (within : n ≤ depth) :
    ∃ after, channel.attach subscriber appSlug (.bounded n) =
        some ((store.attach subscriber appSlug (.bounded n)).1, after) ∧
      Repositioned channel after store (store.attach subscriber appSlug (.bounded n)).2 := by
  have ringHeld := holds.cursors subscriber
  by_cases zero : n = 0
  · subst zero
    refine ⟨_, rfl, rfl, rfl, rfl, rfl, ?_⟩
    have gone : (store.core.cursors.erase subscriber)[subscriber]? = none := by rw [lookup_erase, if_pos rfl]
    simpa [RingStore.attach, RingCore.attach, depthBound, gone] using holds.erase subscriber
  · have enabled : (Depth.bounded n).isPushEnabled = true := by
      rw [isPushEnabled_eq]
      exact decide_eq_true (Nat.pos_of_ne_zero zero)
    cases held : channel.cursors[subscriber]? with
    | none =>
      rw [held] at ringHeld
      have primed : SubscriberCursor.primed store.core.ring n =
          positionOf ⟨appSlug, .bounded n, channel.primedPosition (.bounded n)⟩ := by
        rw [positionOf, ← retains.primed within]
        rfl
      have durable : channel.attach subscriber appSlug (.bounded n) = some (.created, { channel with
          cursors := channel.cursors.insert subscriber ⟨appSlug, .bounded n, channel.primedPosition (.bounded n)⟩ }) := by
        simp [DbChannel.attach, DbChannel.maintainCursor, enabled, held]
      have ring : store.attach subscriber appSlug (.bounded n) = (.created, { store with
          core := { store.core with
            cursors := store.core.cursors.insert subscriber (.primed store.core.ring n) }
          appSlugs := store.appSlugs.insert subscriber appSlug }) := by
        simp [RingStore.attach, RingCore.attach, depthBound, zero, ringHeld]
      rw [durable, ring, primed]
      exact ⟨_, rfl, rfl, rfl, rfl, rfl, holds.put enabled⟩
    | some row =>
      rw [held] at ringHeld
      have durable : channel.attach subscriber appSlug (.bounded n) = some (.existing, { channel with
          cursors := channel.cursors.insert subscriber { row with appSlug, pushDepth := .bounded n } }) := by
        simp [DbChannel.attach, DbChannel.maintainCursor, enabled, held]
      have ring : store.attach subscriber appSlug (.bounded n) = (.existing, { store with
          core := { store.core with
            cursors := store.core.cursors.insert subscriber ((positionOf row).setPushDepth n) }
          appSlugs := store.appSlugs.insert subscriber appSlug }) := by
        simp [RingStore.attach, RingCore.attach, depthBound, zero, ringHeld]
      rw [durable, ring]
      exact ⟨_, rfl, rfl, rfl, rfl, rfl,
        @Holds.put _ _ _ _ _ _ subscriber holds { row with appSlug, pushDepth := .bounded n } enabled⟩

/-- Attaching on an inherited floor; both sides panic on the same calls. -/
theorem attachFrom_mirror (holds : Holds channel.cursors store.core.cursors store.appSlugs)
    (retains : Retains depth channel store.core.ring) (appSlug : T) {n : Nat} (within : n ≤ depth) (floor : Nat) :
    (channel.attachFrom subscriber appSlug (.bounded n) floor = none ∧
      store.attachFrom subscriber appSlug (.bounded n) floor = none) ∨
    ∃ attached after store', channel.attachFrom subscriber appSlug (.bounded n) floor = some (attached, after) ∧
      store.attachFrom subscriber appSlug (.bounded n) floor = some (attached, store') ∧
      Repositioned channel after store store' := by
  have ringHeld := holds.cursors subscriber
  have newest := retains.newestSeq
  by_cases zero : n = 0
  · subst zero
    exact .inl ⟨rfl, rfl⟩
  have enabled : (Depth.bounded n).isPushEnabled = true := by
    rw [isPushEnabled_eq]
    exact decide_eq_true (Nat.pos_of_ne_zero zero)
  by_cases high : floor ≤ channel.lastRetainedSeq + 1
  · right
    cases held : channel.cursors[subscriber]? with
    | none =>
      rw [held] at ringHeld
      have primed : SubscriberCursor.primedAtLeast store.core.ring n floor =
          positionOf ⟨appSlug, .bounded n, max (channel.primedPosition (.bounded n)) floor⟩ := by
        rw [positionOf, ← retains.primed within]
        rfl
      have durable : channel.attachFrom subscriber appSlug (.bounded n) floor = some (.created, { channel with
          cursors := channel.cursors.insert subscriber
            ⟨appSlug, .bounded n, max (channel.primedPosition (.bounded n)) floor⟩ }) := by
        simp [DbChannel.attachFrom, DbChannel.maintainCursor, enabled, held, high]
      have ring : store.attachFrom subscriber appSlug (.bounded n) floor = some (.created, { store with
          core := { store.core with
            cursors := store.core.cursors.insert subscriber (.primedAtLeast store.core.ring n floor) }
          appSlugs := store.appSlugs.insert subscriber appSlug }) := by
        simp [RingStore.attachFrom, RingCore.attachFrom, depthBound, zero, ringHeld, newest, high]
      rw [durable, ring, primed]
      exact ⟨_, _, _, rfl, rfl, rfl, rfl, rfl, rfl, holds.put enabled⟩
    | some row =>
      rw [held] at ringHeld
      have durable : channel.attachFrom subscriber appSlug (.bounded n) floor = some (.existing, { channel with
          cursors := channel.cursors.insert subscriber { row with appSlug, pushDepth := .bounded n } }) := by
        simp [DbChannel.attachFrom, DbChannel.maintainCursor, enabled, held, high]
      have ring : store.attachFrom subscriber appSlug (.bounded n) floor = some (.existing, { store with
          core := { store.core with
            cursors := store.core.cursors.insert subscriber ((positionOf row).setPushDepth n) }
          appSlugs := store.appSlugs.insert subscriber appSlug }) := by
        simp [RingStore.attachFrom, RingCore.attachFrom, depthBound, zero, ringHeld, newest, high]
      rw [durable, ring]
      exact ⟨_, _, _, rfl, rfl, rfl, rfl, rfl, rfl,
        @Holds.put _ _ _ _ _ _ subscriber holds { row with appSlug, pushDepth := .bounded n } enabled⟩
  · left
    constructor
    · simp [DbChannel.attachFrom, DbChannel.maintainCursor, enabled, high]
    · simp [RingStore.attachFrom, RingCore.attachFrom, depthBound, zero, newest, high]

theorem detach_mirror (holds : Holds channel.cursors store.core.cursors store.appSlugs) (subscriber : S) :
    (channel.detach subscriber).1 = (store.detach subscriber).1 ∧
      Repositioned channel (channel.detach subscriber).2 store (store.detach subscriber).2 := by
  refine ⟨?_, rfl, rfl, rfl, rfl, holds.erase subscriber⟩
  simp only [DbChannel.detach, RingStore.detach, RingCore.detach, holds.cursors subscriber, Option.map_map]
  rfl

theorem hasDeliverable_mirror (holds : Holds channel.cursors store.core.cursors store.appSlugs)
    (retains : Retains depth channel store.core.ring) (subscriber : S) :
    channel.cursorHasDeliverable subscriber = store.hasDeliverable subscriber := by
  have ringHeld := holds.cursors subscriber
  cases held : channel.cursors[subscriber]? with
  | none =>
    rw [held] at ringHeld
    simp [DbChannel.cursorHasDeliverable, RingStore.hasDeliverable, RingCore.hasDeliverable, held, ringHeld]
  | some row =>
    rw [held] at ringHeld
    have enabled : (positionOf row).isPushEnabled = true := by
      have pushed := holds.pushed subscriber row held
      rwa [isPushEnabled_eq] at pushed
    have owes := retains.owes row.nextOwedSeq
    simp only [DbChannel.cursorHasDeliverable, RingStore.hasDeliverable, RingCore.hasDeliverable, held, ringHeld,
      Option.map_some, SubscriberCursor.hasDeliverable, enabled, Bool.true_and]
    exact owes

theorem window_entries (retains : Retains depth channel store.core.ring) {push retain : Nat} (pushWithin : push ≤ depth)
    (retainWithin : retain ≤ depth) :
    channel.loadChannelRetainedWindowSeq (DbChannel.windowSpan (.bounded push) (.bounded retain)) =
      store.core.ring.tail (max push retain) := by
  rw [DbChannel.windowSpan, retains.sound.window_eq, retains.tail (Nat.max_le.mpr ⟨pushWithin, retainWithin⟩)]
  rfl

theorem window_mirror (holds : Holds channel.cursors store.core.cursors store.appSlugs)
    (retains : Retains depth channel store.core.ring) (subscriber : S) {push retain : Nat} (pushWithin : push ≤ depth)
    (retainWithin : retain ≤ depth) :
    (channel.window subscriber (.bounded push) (.bounded retain)).1 =
        (store.window subscriber (.bounded push) (.bounded retain)).1 ∧
      Repositioned channel (channel.window subscriber (.bounded push) (.bounded retain)).2 store
        (store.window subscriber (.bounded push) (.bounded retain)).2 := by
  have ringHeld := holds.cursors subscriber
  have entries := window_entries retains pushWithin retainWithin
  have enabled : (Depth.bounded push).isPushEnabled = decide (0 < push) := isPushEnabled_eq _
  cases held : channel.cursors[subscriber]? with
  | none =>
    rw [held] at ringHeld
    have durable : channel.window subscriber (.bounded push) (.bounded retain) =
        (if 0 < push then none else some ⟨store.core.ring.tail retain, (store.core.ring.tail retain).length, false⟩,
          channel) := by
      rcases Nat.eq_zero_or_pos push with rfl | positive
      · rw [Nat.zero_max] at entries
        simp [DbChannel.window, held, entries, enabled, DbChannel.composeWindow, newBoundary_eq, depthBound]
      · simp [DbChannel.window, held, enabled, positive]
    have ring : store.window subscriber (.bounded push) (.bounded retain) =
        (if 0 < push then none else some ⟨store.core.ring.tail retain, (store.core.ring.tail retain).length, false⟩,
          store) := by
      rcases Nat.eq_zero_or_pos push with rfl | positive
      · simp [RingStore.window, RingCore.window, ringHeld, depthBound]
      · simp [RingStore.window, RingCore.window, ringHeld, depthBound, positive]
    rw [durable, ring]
    exact ⟨rfl, rfl, rfl, rfl, rfl, holds⟩
  | some row =>
    rw [held] at ringHeld
    -- the row a window leaves, whether or not it had to write it
    let retuned : SubscriberCursorRow T := if 0 < push then { row with pushDepth := .bounded push } else row
    have durable : channel.window subscriber (.bounded push) (.bounded retain) =
        (some (DbChannel.composeWindow (store.core.ring.tail (max push retain)) row.nextOwedSeq (.bounded push)),
          { channel with
            cursors := if 0 < push ∧ row.pushDepth ≠ .bounded push then channel.cursors.insert subscriber
                { row with pushDepth := .bounded push }
              else channel.cursors }) := by
      simp [DbChannel.window, held, entries, enabled]
    have ring : store.window subscriber (.bounded push) (.bounded retain) =
        (some ((positionOf row).window store.core.ring push retain), { store with
          core := { store.core with cursors := store.core.cursors.insert subscriber (positionOf retuned) } }) := by
      rcases Nat.eq_zero_or_pos push with rfl | positive
      · simp [RingStore.window, RingCore.window, ringHeld, depthBound, retuned]
      · simp [RingStore.window, RingCore.window, ringHeld, depthBound, retuned, positive, SubscriberCursor.setPushDepth,
          SubscriberCursor.window, positionOf]
    have pushed := holds.pushed subscriber row held
    rw [durable, ring]
    refine ⟨?_, rfl, rfl, rfl, rfl, ?_⟩
    · simp [DbChannel.composeWindow, SubscriberCursor.window, positionOf, enabled, depthBound]
    · by_cases positive : 0 < push
      · have written : retuned = { row with pushDepth := .bounded push } := if_pos positive
        refine holds.move retuned held (by rw [written]) ?_ (fun other => ?_)
          (lookup_insert store.core.cursors subscriber · _)
        · rw [written, enabled]
          exact decide_eq_true positive
        · by_cases same : row.pushDepth = .bounded push
          · rw [if_neg fun both => both.2 same, written, ← same]
            exact lookup_held held other
          · rw [if_pos ⟨positive, same⟩, written]
            exact lookup_insert channel.cursors subscriber other _
      · have written : retuned = row := if_neg positive
        rw [if_neg fun both => positive both.1, written]
        exact holds.move row held rfl pushed (lookup_held held) (lookup_insert store.core.cursors subscriber · _)

theorem advance_mirror (holds : Holds channel.cursors store.core.cursors store.appSlugs) (subscriber : S)
    {through seenFloor : Nat} (made : seenFloor ≤ through + 1 ∨ channel.cursors[subscriber]?.isSome = true) :
    (channel.advance subscriber through seenFloor = none ∧ store.advance subscriber through seenFloor = none) ∨
    ∃ durable ring after store', channel.advance subscriber through seenFloor = some (durable, after) ∧
      store.advance subscriber through seenFloor = some (ring, store') ∧
      durable.map Advance.dropped = ring.map Advance.dropped ∧ Repositioned channel after store store' := by
  have ringHeld := holds.cursors subscriber
  cases held : channel.cursors[subscriber]? with
  | none =>
    rw [held] at ringHeld
    have level : seenFloor ≤ through + 1 := by simpa [held] using made
    refine .inr ⟨none, none, channel, store, ?_, ?_, rfl, rfl, rfl, rfl, rfl, holds⟩
    · simp [DbChannel.advance, level, held]
    · simp [RingStore.advance, RingCore.advance, ringHeld]
  | some row =>
    rw [held] at ringHeld
    have pushed := holds.pushed subscriber row held
    have enabled : (positionOf row).isPushEnabled = true := by rwa [isPushEnabled_eq] at pushed
    by_cases level : seenFloor ≤ through + 1
    swap
    · left
      constructor
      · simp [DbChannel.advance, level]
      · simp [RingStore.advance, RingCore.advance, ringHeld, SubscriberCursor.advance, level]
    right
    have durable := show channel.advance subscriber through seenFloor = some _ by
      rw [DbChannel.advance, if_neg (not_not.mpr level), held]
    have ring := show store.advance subscriber through seenFloor = some _ by
      simp only [RingStore.advance, RingCore.advance, ringHeld, Option.map_some, SubscriberCursor.advance, enabled]
      rw [if_neg (by simp), if_neg (not_not.mpr level)]
      rfl
    refine ⟨_, _, _, _, durable, ring, rfl, rfl, rfl, rfl, rfl, ?_⟩
    have same : (positionOf row).nextOwed = row.nextOwedSeq := rfl
    dsimp only
    rw [same]
    by_cases ahead : through ≥ row.nextOwedSeq
    · rw [if_pos ahead, if_pos ahead]
      exact holds.move { row with nextOwedSeq := through + 1 } held rfl pushed
        (lookup_insert channel.cursors subscriber · _) (lookup_insert store.core.cursors subscriber · _)
    · rw [if_neg ahead, if_neg ahead]
      exact holds.move row held rfl pushed (lookup_held held) (lookup_insert store.core.cursors subscriber · _)

end Calls

end Brenn.Store
