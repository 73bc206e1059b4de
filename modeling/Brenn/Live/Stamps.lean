import Brenn.Live.Wasm

/-!
Call order in the stamps of one flush.

A remote's batch is stamped in one pass before it is split. An activation's flush stamps in the
loop that splits it: the durable publishes past one another, the others with the bare clock. There
the stamps follow call order while the clock moves on between a publish for a ring and the others.
-/

namespace Brenn.Live
open Brenn.Lib Brenn.Queue Brenn.Store Brenn.Bus

universe u v w

variable {U : Type u} {T : Type v} {S : Type w} [LinearOrder U] [LinearOrder T] [LinearOrder S]

def InCallOrder (stored : List Stamped) : Prop :=
  ∀ earlier ∈ stored, ∀ later ∈ stored, earlier.index < later.index → earlier.publishTsNs < later.publishTsNs

instance (stored : List Stamped) : Decidable (InCallOrder stored) :=
  inferInstanceAs (Decidable (∀ earlier ∈ stored, ∀ later ∈ stored,
    earlier.index < later.index → earlier.publishTsNs < later.publishTsNs))

theorem InCallOrder.mono {stored fewer : List Stamped} (order : InCallOrder stored) (kept : fewer ⊆ stored) :
    InCallOrder fewer :=
  fun earlier first later second => order earlier (kept first) later (kept second)

/-- A message placed and stamped past all the others keeps the order. -/
theorem InCallOrder.cons {stored : List Stamped} (order : InCallOrder stored) {newest : Stamped}
    (placed : ∀ held ∈ stored, held.index < newest.index) (stamped : ∀ held ∈ stored, held.publishTsNs < newest.publishTsNs) :
    InCallOrder (newest :: stored) := by
  intro earlier first later second before
  rcases List.mem_cons.mp second with rfl | secondHeld
  · rcases List.mem_cons.mp first with rfl | firstHeld
    · omega
    · exact stamped earlier firstHeld
  · rcases List.mem_cons.mp first with rfl | firstHeld
    · have := placed later secondHeld
      omega
    · exact order earlier firstHeld later secondHeld before

/-! ### The stamping pass of a batch -/

theorem lt_nextStamp {prevTs : Option Int} {now stamp : Int} (stamped : nextStamp prevTs now = some stamp) :
    ∀ prev ∈ prevTs, prev < stamp := by
  rintro prev ⟨⟩
  unfold nextStamp at stamped
  dsimp only at stamped
  split at stamped
  · cases stamped
    omega
  · cases stamped

/-- The stamps `handle_publish_batch` gives its entries, from the readings it takes. -/
def stampBatch : Option Int → List Int → Option (List Int)
  | _, [] => some []
  | prevTs, now :: readings =>
    (nextStamp prevTs now).bind fun stamp => (stampBatch (some stamp) readings).map fun stamps => stamp :: stamps

theorem stampBatch_increasing {prevTs : Option Int} {readings stamps : List Int}
    (stamped : stampBatch prevTs readings = some stamps) :
    stamps.length = readings.length ∧ (∀ prev ∈ prevTs, ∀ stamp ∈ stamps, prev < stamp) ∧ stamps.Pairwise (· < ·) := by
  induction readings generalizing prevTs stamps with
  | nil =>
    cases stamped
    simp
  | cons now readings ih =>
    obtain ⟨stamp, next, rest⟩ := Option.bind_eq_some_iff.mp stamped
    obtain ⟨later, others, rfl⟩ := Option.map_eq_some_iff.mp rest
    have past := lt_nextStamp next
    obtain ⟨sameLength, above, increasing⟩ := ih others
    have first : ∀ other ∈ later, stamp < other := above stamp rfl
    refine ⟨by simp [sameLength], fun prev held other listed => ?_, List.pairwise_cons.mpr ⟨first, increasing⟩⟩
    rcases List.mem_cons.mp listed with rfl | listedLater
    · exact past prev held
    · exact lt_trans (past prev held) (first other listedLater)

/-- The seconds and nanoseconds a prepaid entry carries a stamp in. -/
def nsToUtc (ns : Int) : Int × Int := (ns / 1000000000, ns % 1000000000)

def utcToNs (instant : Int × Int) : Int := instant.1 * 1000000000 + instant.2

theorem utcToNs_nsToUtc (ns : Int) : utcToNs (nsToUtc ns) = ns := by
  unfold utcToNs nsToUtc
  dsimp only
  omega

/-- What a batch stored: rows keep the entry's stamp and rings get it by way of a `DateTime`. -/
def Tally.stored (tally : Tally) (stamps : List Int) : List Stamped :=
  (tally.durable.map fun index => ⟨index, stamps.getD index 0⟩) ++
    tally.rings.map fun index => ⟨index, utcToNs (nsToUtc (stamps.getD index 0))⟩

theorem Tally.stored_inCallOrder {tally : Tally} {stamps : List Int} (increasing : stamps.Pairwise (· < ·))
    (within : ∀ index, index ∈ tally.durable ∨ index ∈ tally.rings → index < stamps.length) :
    InCallOrder (tally.stored stamps) := by
  have stampOf : ∀ held ∈ tally.stored stamps, ∃ bound : held.index < stamps.length, held.publishTsNs = stamps[held.index] := by
    intro held listed
    unfold Tally.stored at listed
    simp only [List.mem_append, List.mem_map] at listed
    rcases listed with ⟨index, durable, rfl⟩ | ⟨index, ring, rfl⟩
    · exact ⟨within index (.inl durable), List.getD_eq_getElem _ _ _⟩
    · refine ⟨within index (.inr ring), ?_⟩
      dsimp only
      rw [utcToNs_nsToUtc]
      exact List.getD_eq_getElem _ _ _
  intro earlier first later second before
  obtain ⟨_, firstStamp⟩ := stampOf earlier first
  obtain ⟨_, secondStamp⟩ := stampOf later second
  rw [firstStamp, secondStamp]
  exact List.pairwise_iff_getElem.mp increasing _ _ _ _ before

/-! ### Places in a batch -/

namespace Flush

variable {addressing : Addressing U T} {attacher : Attacher T} {identities : Identities S T} {count : Nat}

/-- Every place the call names is one of the batch's. -/
structure Within (count : Nat) (flush : Flush addressing S) : Prop where
  stored : ∀ index, index ∈ flush.tally.durable ∨ index ∈ flush.tally.rings → index < count
  phase : match flush.phase with
    | .called publishes => publishes.length = count
    | .committing durable ring => ∀ item : Item addressing, item ∈ durable ∨ item ∈ ring → item.index < count
    | .ringing todo _ => ∀ item ∈ todo, item.index < count
    | .returned _ => True

theorem admitEntries_within {channels : Channels addressing S} {entries : List (BatchPublish U T × Nat)}
    (places : ∀ entry ∈ entries, entry.2 < count) (item : Item addressing)
    (admitted : item ∈ (attacher.admitEntries channels entries).durable ∨
      item ∈ (attacher.admitEntries channels entries).ring) : item.index < count := by
  induction entries with
  | nil => simp [Attacher.admitEntries] at admitted
  | cons entry rest ih =>
    obtain ⟨publish, index⟩ := entry
    have head : index < count := places _ List.mem_cons_self
    have tail := ih fun other listed => places other (List.mem_cons_of_mem _ listed)
    unfold Attacher.admitEntries at admitted
    dsimp only at admitted
    split at admitted
    · exact tail admitted
    · split at admitted
      · exact tail admitted
      · split at admitted
        · rcases admitted with durable | ring
          · rcases List.mem_cons.mp durable with rfl | old
            · exact head
            · exact tail (.inl old)
          · exact tail (.inr ring)
        · rcases admitted with durable | ring
          · exact tail (.inl durable)
          · rcases List.mem_cons.mp ring with rfl | old
            · exact head
            · exact tail (.inr old)

theorem commitEntry_stored {item : Item addressing} {channels after : Channels addressing S} {tally tally' : Tally}
    (committed : attacher.commitEntry item channels tally = some (after, tally')) :
    tally'.rings = tally.rings ∧ ∀ index ∈ tally'.durable, index ∈ tally.durable ∨ index = item.index := by
  unfold Attacher.commitEntry at committed
  split at committed
  · cases committed
  · split at committed
    · cases committed
    · split at committed
      · cases committed
        exact ⟨rfl, fun index held => .inl held⟩
      · split at committed
        · cases committed
        · split at committed
          · cases committed
          · split at committed
            · cases committed
              exact ⟨rfl, fun index held => .inl held⟩
            · cases committed
              exact ⟨rfl, fun index held => by simpa using held⟩

theorem commit_within {items : List (Item addressing)} {channels after : Channels addressing S} {tally tally' : Tally}
    (places : ∀ item ∈ items, item.index < count)
    (stored : ∀ index, index ∈ tally.durable ∨ index ∈ tally.rings → index < count)
    (committed : attacher.commit items channels tally = some (after, tally')) :
    ∀ index, index ∈ tally'.durable ∨ index ∈ tally'.rings → index < count := by
  induction items generalizing channels tally with
  | nil =>
    cases committed
    exact stored
  | cons item rest ih =>
    obtain ⟨⟨between, tally''⟩, head, tail⟩ := Option.bind_eq_some_iff.mp committed
    obtain ⟨rings, durable⟩ := commitEntry_stored head
    refine ih (fun other listed => places other (List.mem_cons_of_mem _ listed)) (fun index held => ?_) tail
    rcases held with row | ring
    · rcases durable index row with old | rfl
      · exact stored index (.inl old)
      · exact places item List.mem_cons_self
    · exact stored index (.inr (rings ▸ ring))

theorem ringEntry_stored {handle : Nat} {item : Item addressing} {channels after : Channels addressing S}
    {ladder ladder' : Ladder S} {tally tally' : Tally}
    (entered : attacher.ringEntry identities handle item channels ladder tally = some (after, ladder', tally')) :
    tally'.durable = tally.durable ∧ ∀ index ∈ tally'.rings, index ∈ tally.rings ∨ index = item.index := by
  unfold Attacher.ringEntry at entered
  split at entered
  · cases entered
  · split at entered
    · cases entered
    · split at entered
      · split at entered
        · cases entered
          exact ⟨rfl, fun index held => .inl held⟩
        · cases entered
          exact ⟨rfl, fun index held => by simpa using held⟩
      · split at entered
        · cases entered
        · obtain ⟨_, _, same⟩ := Option.map_eq_some_iff.mp entered
          cases same
          exact ⟨rfl, fun index held => by simpa using held⟩

theorem Within.proceed {flush next : Flush addressing S} (within : flush.Within count)
    (proceeded : flush.proceed attacher identities = some next) : next.Within count := by
  obtain ⟨stored, places⟩ := within
  unfold Flush.proceed at proceeded
  cases phaseIs : flush.phase with
  | called publishes =>
    rw [phaseIs] at places proceeded
    cases publishes with
    | nil =>
      cases proceeded
      exact ⟨stored, trivial⟩
    | cons publish rest =>
      cases proceeded
      refine ⟨stored, fun item admitted => admitEntries_within (fun entry listed => ?_) item admitted⟩
      have := List.snd_lt_of_mem_zipIdx listed
      simp only at places
      omega
  | committing durable ring =>
    rw [phaseIs] at places proceeded
    obtain ⟨⟨channels, tally⟩, committed, rfl⟩ := Option.map_eq_some_iff.mp proceeded
    exact ⟨commit_within (fun item listed => places item (.inl listed)) stored committed,
      fun item listed => places item (.inr listed)⟩
  | ringing todo destinations =>
    rw [phaseIs] at places proceeded
    cases todo with
    | nil =>
      cases proceeded
      exact ⟨stored, trivial⟩
    | cons item todo =>
      obtain ⟨handle, _, entered⟩ := Option.bind_eq_some_iff.mp proceeded
      obtain ⟨⟨channels, ladder, tally⟩, ring, rfl⟩ := Option.map_eq_some_iff.mp entered
      obtain ⟨durable, rings⟩ := ringEntry_stored ring
      refine ⟨fun index held => ?_, fun other listed => places other (List.mem_cons_of_mem _ listed)⟩
      rcases held with row | ringed
      · exact stored index (.inl (durable ▸ row))
      · rcases rings index ringed with old | rfl
        · exact stored index (.inr old)
        · exact places item List.mem_cons_self
  | returned dropped =>
    rw [phaseIs] at proceeded
    cases proceeded
    exact ⟨stored, by rw [phaseIs]; trivial⟩

theorem Within.step {flush next : Flush addressing S} (within : flush.Within count) {event : FlushEvent addressing}
    (stepped : flush.step attacher identities event = some next) : next.Within count := by
  cases event with
  | proceed => exact within.proceed stepped
  | change made =>
    unfold Flush.step at stepped
    dsimp only at stepped
    split at stepped
    · cases stepped
      exact within
    · cases stepped
      exact ⟨within.stored, within.phase⟩

end Flush

/-! ### The loop of an activation's flush -/

namespace WasmCommit

variable {addressing : Addressing U T} {flushNow : Nat} {commit next : WasmCommit addressing S}
  {publish : WasmPublish U T} {index : Nat}

def stamps (commit : WasmCommit addressing S) : List Stamped :=
  commit.stored ++ commit.pending.map fun item => ⟨item.index, item.publish.reading⟩

/-- A publish gives at most one stamp: the clock's reading for a ring, the next stamp for a durable channel. -/
theorem entry_eq_some (entered : commit.entry flushNow publish index = some next) :
    ∃ channel, commit.channels.resolve publish.channelAddress = some channel ∧
      next.channels.directory = commit.channels.directory ∧
      ((channel.capabilities.durable = false ∧ next.prevTs = commit.prevTs ∧
          next.stamps ⊆ ⟨index, publish.reading⟩ :: commit.stamps) ∨
        (channel.capabilities.durable = true ∧ next.pending = commit.pending ∧
          ∃ stamp, nextStamp commit.prevTs publish.reading = some stamp ∧ next.prevTs = some stamp ∧
            next.stamps ⊆ ⟨index, stamp⟩ :: commit.stamps)) := by
  unfold entry at entered
  split at entered
  · cases entered
  next channel found =>
    refine ⟨channel, found, ?_⟩
    split at entered
    · cases entered
    · split at entered
      next ring =>
        cases entered
        refine ⟨rfl, .inl ⟨by simpa using ring, rfl, fun held listed => ?_⟩⟩
        simp only [stamps, List.map_append, List.map_cons, List.map_nil, List.mem_append, List.mem_singleton] at listed
        simp only [stamps, List.mem_cons, List.mem_append]
        tauto
      next durable =>
        have isDurable : channel.capabilities.durable = true := by simpa using durable
        split at entered
        next stamp row stamped _ =>
          split at entered
          · cases entered
            exact ⟨rfl, .inr ⟨isDurable, rfl, stamp, stamped, rfl, List.subset_cons_self _ _⟩⟩
          · cases entered
            refine ⟨rfl, .inr ⟨isDurable, rfl, stamp, stamped, rfl, fun held listed => ?_⟩⟩
            simp only [stamps, List.mem_append, List.mem_singleton] at listed
            simp only [stamps, List.mem_cons, List.mem_append]
            tauto
        · cases entered

/-- Whether each publish for a ring reads the clock past the stamps before it, and each durable one
    after it is stamped past that; `prevTs` and `ringTs` are the last stamps of either kind. Nothing
    is asked of durable publishes among themselves. -/
def ringsInTurn (resolve : T → Option (Channel addressing)) : Option Int → Option Int → List (WasmPublish U T) → Bool
  | _, _, [] => true
  | prevTs, ringTs, publish :: rest =>
    match resolve publish.channelAddress with
    | none => true
    | some channel =>
      if channel.capabilities.durable then
        match nextStamp prevTs publish.reading with
        | none => true
        | some stamp => ringTs.all (fun ring => decide (ring < stamp)) && ringsInTurn resolve (some stamp) ringTs rest
      else
        prevTs.all (fun prev => decide (prev < publish.reading)) &&
          ringTs.all (fun ring => decide (ring < publish.reading)) &&
          ringsInTurn resolve prevTs (some publish.reading) rest

/-- The stamps given to the publishes before `index` are in order. -/
structure Ordered (commit : WasmCommit addressing S) (index : Nat) : Prop where
  order : InCallOrder commit.stamps
  placed : ∀ held ∈ commit.stamps, held.index < index

theorem Ordered.add (ordered : commit.Ordered index) {stamp : Int}
    (past : ∀ held ∈ commit.stamps, held.publishTsNs < stamp)
    (given : next.stamps ⊆ ⟨index, stamp⟩ :: commit.stamps) : next.Ordered (index + 1) := by
  refine ⟨(ordered.order.cons ordered.placed past).mono given, fun held listed => ?_⟩
  rcases List.mem_cons.mp (given listed) with rfl | old
  · exact Nat.lt_succ_self index
  · exact Nat.lt_succ_of_lt (ordered.placed held old)

/-- Where rings and durable publishes are stamped past one another, every stamp is past those before it. -/
theorem entries_ordered {publishes : List (WasmPublish U T)} {ringTs : Option Int} (ordered : commit.Ordered index)
    (bounded : ∀ held ∈ commit.stamps, (∃ prev ∈ commit.prevTs, held.publishTsNs ≤ prev) ∨
      ∃ ring ∈ ringTs, held.publishTsNs ≤ ring)
    (inTurn : ringsInTurn commit.channels.resolve commit.prevTs ringTs publishes = true)
    (entered : commit.entries flushNow (publishes.zipIdx index) = some next) : InCallOrder next.stamps := by
  induction publishes generalizing commit index ringTs with
  | nil =>
    cases entered
    exact ordered.order
  | cons publish rest ih =>
    obtain ⟨between, first, others⟩ := Option.bind_eq_some_iff.mp entered
    obtain ⟨channel, found, sameDirectory, given⟩ := entry_eq_some first
    have resolve : between.channels.resolve = commit.channels.resolve := by
      funext address
      simp only [Channels.resolve, sameDirectory]
    have above : ∀ stamp, (∀ prev ∈ commit.prevTs, prev < stamp) → (∀ ring ∈ ringTs, ring < stamp) →
        ∀ held ∈ commit.stamps, held.publishTsNs < stamp := by
      intro stamp pastPrev pastRing held listed
      rcases bounded held listed with ⟨prev, isPrev, atMost⟩ | ⟨ring, isRing, atMost⟩
      · exact atMost.trans_lt (pastPrev prev isPrev)
      · exact atMost.trans_lt (pastRing ring isRing)
    unfold ringsInTurn at inTurn
    simp only [found] at inTurn
    rcases given with ⟨ring, prevTs, given⟩ | ⟨durable, -, stamp, stamped, prevTs, given⟩
    · simp only [ring, Bool.false_eq_true, if_false, Bool.and_eq_true, Option.all_eq_true, decide_eq_true_eq] at inTurn
      obtain ⟨⟨pastPrev, pastRing⟩, inTurn⟩ := inTurn
      have above := above publish.reading pastPrev pastRing
      refine ih (ordered.add above given) (fun held listed => .inr ⟨publish.reading, rfl, ?_⟩)
        (by rw [resolve, prevTs]; exact inTurn) others
      rcases List.mem_cons.mp (given listed) with rfl | old
      · exact le_refl publish.reading
      · exact (above held old).le
    · simp only [durable, if_true, stamped, Bool.and_eq_true, Option.all_eq_true, decide_eq_true_eq] at inTurn
      obtain ⟨pastRing, inTurn⟩ := inTurn
      have above := above stamp (lt_nextStamp stamped) pastRing
      refine ih (ordered.add above given) (fun held listed => .inl ⟨stamp, prevTs, ?_⟩)
        (by rw [resolve, prevTs]; exact inTurn) others
      rcases List.mem_cons.mp (given listed) with rfl | old
      · exact le_refl stamp
      · exact (above held old).le

end WasmCommit

namespace WasmFlush

variable {addressing : Addressing U T} {flushNow : Nat} {identities : Identities S T}
  {flush next : WasmFlush addressing S}

def stamps (flush : WasmFlush addressing S) : List Stamped :=
  flush.stored ++ match flush.phase with
    | .ringing todo => todo.map fun item => ⟨item.index, item.publish.reading⟩
    | .called _ | .returned => []

def TimelyAt (channels : Channels addressing S) : WasmPhase addressing → Bool
  | .called publishes => WasmCommit.ringsInTurn channels.resolve none none publishes
  | .ringing _ | .returned => true

def Timely (flush : WasmFlush addressing S) : FlushEvent addressing → Prop
  | .proceed => TimelyAt flush.channels flush.phase = true
  | .change _ => True

instance (flush : WasmFlush addressing S) : (event : FlushEvent addressing) → Decidable (flush.Timely event)
  | .proceed => inferInstanceAs (Decidable (TimelyAt flush.channels flush.phase = true))
  | .change _ => inferInstanceAs (Decidable True)

/-- The order of the stamps, with nothing stored before the transaction. -/
structure Ordered (flush : WasmFlush addressing S) : Prop where
  order : InCallOrder flush.stamps
  opened : ∀ publishes, flush.phase = .called publishes → flush.stored = []

theorem ringEntry_stamps {item : Pending addressing} (entered : flush.ringEntry identities item = some next) :
    next.phase = flush.phase ∧ next.stored ⊆ ⟨item.index, item.publish.reading⟩ :: flush.stored := by
  have added : flush.stored ++ [⟨item.index, item.publish.reading⟩] ⊆
      ⟨item.index, item.publish.reading⟩ :: flush.stored := by
    intro held listed
    simpa [or_comm] using listed
  unfold ringEntry at entered
  split at entered
  · cases entered
  · split at entered
    · cases entered
    · split at entered
      · split at entered
        · cases entered
          exact ⟨rfl, List.subset_cons_self _ _⟩
        · cases entered
          exact ⟨rfl, added⟩
      · split at entered
        · cases entered
        · obtain ⟨_, _, rfl⟩ := Option.map_eq_some_iff.mp entered
          exact ⟨rfl, added⟩

theorem Ordered.proceed (ordered : flush.Ordered) (timely : flush.Timely .proceed)
    (proceeded : flush.proceed flushNow identities = some next) : next.Ordered := by
  obtain ⟨order, opened⟩ := ordered
  unfold WasmFlush.proceed at proceeded
  unfold Timely at timely
  unfold stamps at order
  cases phaseIs : flush.phase with
  | called publishes =>
    have empty : flush.stored = [] := opened publishes phaseIs
    rw [phaseIs] at proceeded timely order
    cases publishes with
    | nil =>
      cases proceeded
      exact ⟨order, nofun⟩
    | cons publish rest =>
      obtain ⟨commit, entered, rfl⟩ := Option.map_eq_some_iff.mp proceeded
      refine ⟨?_, nofun⟩
      have start : ({ channels := flush.channels } : WasmCommit addressing S).Ordered 0 :=
        ⟨by simp [InCallOrder, WasmCommit.stamps], by simp [WasmCommit.stamps]⟩
      have ordered : InCallOrder commit.stamps :=
        WasmCommit.entries_ordered start (by simp [WasmCommit.stamps]) timely entered
      simpa [stamps, empty, WasmCommit.stamps] using ordered
  | ringing todo =>
    rw [phaseIs] at proceeded order
    cases todo with
    | nil =>
      cases proceeded
      exact ⟨order, nofun⟩
    | cons item todo =>
      obtain ⟨phase, stored⟩ := ringEntry_stamps proceeded
      refine ⟨order.mono fun held listed => ?_, fun publishes called => ?_⟩
      · simp only [stamps, phase, List.mem_append] at listed
        simp only [List.map_cons, List.mem_append, List.mem_cons]
        rcases listed with now | waiting
        · rcases List.mem_cons.mp (stored now) with new | old
          · exact .inr (.inl new)
          · exact .inl old
        · exact .inr (.inr waiting)
      · rw [phase] at called
        cases called
  | returned =>
    rw [phaseIs] at proceeded order
    cases proceeded
    refine ⟨?_, opened⟩
    rw [stamps, phaseIs]
    exact order

theorem Ordered.step (ordered : flush.Ordered) {event : FlushEvent addressing} (timely : flush.Timely event)
    (stepped : flush.step flushNow identities event = some next) : next.Ordered := by
  cases event with
  | proceed => exact ordered.proceed timely stepped
  | change made =>
    cases stepped
    exact ⟨ordered.order, ordered.opened⟩

end WasmFlush

/-! ### Both hosts -/

/-- A flush as it is called; a batch's entries come with the readings they are stamped from. -/
inductive HostCall (U : Type u) (T : Type v) where
  | wasm (publishes : List (WasmPublish U T))
  | attacher (entries : List (BatchPublish U T × Int))

inductive HostFlush (addressing : Addressing U T) (S : Type w) [LinearOrder S] where
  | wasm (flush : WasmFlush addressing S)
  | attacher (stamps : List Int) (flush : Flush addressing S)

namespace HostFlush

variable {addressing : Addressing U T} (attacher : Attacher T) (identities : Identities S T) (flushNow : Nat)

/-- `none` is an overflow of the stamping pass. -/
def calledWith (channels : Channels addressing S) (ladder : Ladder S) : HostCall U T → Option (HostFlush addressing S)
  | .wasm publishes => some (.wasm (.calledWith channels ladder publishes))
  | .attacher entries =>
    (stampBatch none (entries.map Prod.snd)).map fun stamps =>
      .attacher stamps (.calledWith channels ladder (entries.map Prod.fst))

def step (host : HostFlush addressing S) (event : FlushEvent addressing) : Option (HostFlush addressing S) :=
  match host with
  | .wasm flush => (flush.step flushNow identities event).map .wasm
  | .attacher stamps flush => (flush.step attacher identities event).map (.attacher stamps)

def stored : HostFlush addressing S → List Stamped
  | .wasm flush => flush.stored
  | .attacher stamps flush => flush.tally.stored stamps

def Timely : HostFlush addressing S → FlushEvent addressing → Prop
  | .wasm flush, event => flush.Timely event
  | .attacher .., _ => True

instance : (host : HostFlush addressing S) → (event : FlushEvent addressing) → Decidable (host.Timely event)
  | .wasm flush, event => inferInstanceAs (Decidable (flush.Timely event))
  | .attacher .., _ => inferInstanceAs (Decidable True)

def Ordered : HostFlush addressing S → Prop
  | .wasm flush => flush.Ordered
  | .attacher stamps flush => stamps.Pairwise (· < ·) ∧ flush.Within stamps.length

theorem calledWith_ordered {channels : Channels addressing S} {ladder : Ladder S} {call : HostCall U T}
    {host : HostFlush addressing S} (called : calledWith channels ladder call = some host) : host.Ordered := by
  cases call with
  | wasm publishes =>
    cases called
    exact ⟨by simp [InCallOrder, WasmFlush.stamps, WasmFlush.calledWith], fun _ _ => rfl⟩
  | attacher entries =>
    obtain ⟨stamps, stamped, rfl⟩ := Option.map_eq_some_iff.mp called
    obtain ⟨sameLength, _, increasing⟩ := stampBatch_increasing stamped
    exact ⟨increasing, by simp [Flush.calledWith], by simp [Flush.calledWith, sameLength]⟩

variable {attacher identities flushNow}

theorem Ordered.step {host next : HostFlush addressing S} {event : FlushEvent addressing} (ordered : host.Ordered)
    (timely : host.Timely event) (stepped : host.step attacher identities flushNow event = some next) : next.Ordered := by
  cases host with
  | wasm flush =>
    obtain ⟨after, taken, rfl⟩ := Option.map_eq_some_iff.mp stepped
    exact WasmFlush.Ordered.step ordered timely taken
  | attacher stamps flush =>
    obtain ⟨after, taken, rfl⟩ := Option.map_eq_some_iff.mp stepped
    exact ⟨ordered.1, ordered.2.step taken⟩

theorem Ordered.stored {host : HostFlush addressing S} (ordered : host.Ordered) : InCallOrder host.stored := by
  cases host with
  | wasm flush => exact ordered.order.mono (List.subset_append_left _ _)
  | attacher stamps flush => exact Tally.stored_inCallOrder ordered.1 ordered.2.stored

/-- In every flush of either host, whatever changes to the channels fall between its sections, the
    stored messages' stamps increase in call order, as long as the clock of an activation's flush
    moves on between a publish for a ring and the others. -/
theorem stamps_follow_calls (attacher : Attacher T) (identities : Identities S T) (flushNow : Nat)
    (channels : Channels addressing S) (ladder : Ladder S) (call : HostCall U T) (events : List (FlushEvent addressing))
    {host reached : HostFlush addressing S} (called : calledWith channels ladder call = some host)
    (timely : Along (step attacher identities flushNow) Timely host events)
    (ran : run (step attacher identities flushNow) host events = some reached) : InCallOrder reached.stored := by
  have preserved : ∀ (held : HostFlush addressing S) event next, held.Ordered → held.Timely event →
      held.step attacher identities flushNow event = some next → next.Ordered :=
    fun held event next ordered allowed stepped => ordered.step allowed stepped
  exact (run_preserves preserved (calledWith_ordered called) timely ran).stored

private def ledger : Channel parity :=
  { uuid := 0, address := 0, transportType := .brenn, retainDepth := .bounded 4, subscribers := [], name := 0
    capabilities := ⟨true, true⟩, addressed := rfl, classed := rfl, derived := fun _ => rfl }

private def beacon : Channel parity :=
  { uuid := 1, address := 1, transportType := .ephemeral, retainDepth := .bounded 4, subscribers := [], name := 1
    capabilities := ⟨false, true⟩, addressed := rfl, classed := rfl, derived := by simp }

private def harbour : Channels parity Nat :=
  (run Channels.change (.empty 9) [.addChannel ledger 9, .register beacon, .addChannel beacon 9]).getD (.empty 9)

private def openScope : Attacher Nat := ⟨fun _ _ => true, fun _ => true⟩

private def call (address : Nat) (deliverAfter : Option Nat) (messageId : Nat) (reading : Int) : WasmPublish Nat Nat :=
  ⟨⟨address, ⟨0, 0, .normal, none⟩, deliverAfter, messageId, messageId⟩, none, reading⟩

/-- Two durable publishes at one reading, one for a ring past their stamps, and a schedule. -/
theorem mixed_flush_follows_calls :
    let calls := HostCall.wasm [call 0 none 100 5, call 0 none 103 5, call 1 none 101 7, call 0 (some 90) 102 8]
    let events := [.proceed, .proceed, .proceed]
    ∃ host reached : HostFlush parity Nat, calledWith harbour {} calls = some host ∧
      Along (step openScope numbered 40) Timely host events ∧
      run (step openScope numbered 40) host events = some reached ∧
      reached.stored = [⟨0, 5⟩, ⟨1, 6⟩, ⟨3, 8⟩, ⟨2, 7⟩] ∧ InCallOrder reached.stored := by
  intro calls events
  let host : HostFlush parity Nat := .wasm (.calledWith harbour {}
    [call 0 none 100 5, call 0 none 103 5, call 1 none 101 7, call 0 (some 90) 102 8])
  have called : calledWith harbour {} calls = some host := rfl
  have timely : Along (step openScope numbered 40) Timely host events := by decide +kernel
  obtain ⟨reached, ran, facts⟩ : ∃ reached : HostFlush parity Nat,
      run (step openScope numbered 40) host events = some reached ∧
        decide (reached.stored = [⟨0, 5⟩, ⟨1, 6⟩, ⟨3, 8⟩, ⟨2, 7⟩]) = true :=
    Option.map_eq_some_iff.mp (by decide +kernel)
  exact ⟨host, reached, called, timely, ran, of_decide_eq_true facts,
    stamps_follow_calls openScope numbered 40 harbour {} calls events called timely ran⟩

/-- A durable publish and two ring publishes; the clock stands still and then steps back. The rings
    take the readings as they are. -/
theorem ring_stamps_fall_back :
    ∃ reached : HostFlush parity Nat,
      run (step openScope numbered 40)
        (.wasm (.calledWith harbour {} [call 0 none 100 10, call 1 none 101 10, call 1 none 102 9]))
        [.proceed, .proceed, .proceed, .proceed] = some reached ∧
      reached.stored = [⟨0, 10⟩, ⟨1, 10⟩, ⟨2, 9⟩] ∧ ¬ InCallOrder reached.stored := by
  obtain ⟨reached, ran, facts⟩ : ∃ reached : HostFlush parity Nat,
      run (step openScope numbered 40)
        (.wasm (.calledWith harbour {} [call 0 none 100 10, call 1 none 101 10, call 1 none 102 9]))
        [.proceed, .proceed, .proceed, .proceed] = some reached ∧
      decide (reached.stored = [⟨0, 10⟩, ⟨1, 10⟩, ⟨2, 9⟩] ∧ ¬ InCallOrder reached.stored) = true :=
    Option.map_eq_some_iff.mp (by decide +kernel)
  exact ⟨reached, ran, of_decide_eq_true facts⟩

end HostFlush

end Brenn.Live
