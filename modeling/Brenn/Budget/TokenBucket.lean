import Brenn.Lib.Credit
import Brenn.Lib.History
import Brenn.Lib.Run

/-!
The token bucket and the rate it enforces.

A draw first credits the whole intervals that have passed since the last refill. Beside the bucket
a run records every draw with the balance it found, to be compared with a reference that is
credited at every single interval.
-/

namespace Brenn.Budget
open Brenn.Lib

def u32Max : Nat := 2 ^ 32 - 1
def u64Max : Nat := 2 ^ 64 - 1

/-- Durations and instants count nanoseconds: a duration has a `u64` of seconds, an instant an `i64`. -/
def durationMax : Nat := 2 ^ 64 * 10 ^ 9 - 1
def instantMax : Nat := 2 ^ 63 * 10 ^ 9 - 1

inductive TokenBucketOutcome where
  | granted
  | grantedAfterSuppression (suppressed : Nat)
  | denied (first : Bool)
  deriving Repr, DecidableEq

def TokenBucketOutcome.isGrant : TokenBucketOutcome → Bool
  | .denied _ => false
  | _ => true

/-- A bucket's configured shape. A zero interval panics when a bucket is made of it. -/
structure TokenBucketConfig where
  capacity : Nat
  refillInterval : Nat
  refillAmount : Nat
  capacity_le : capacity ≤ u32Max
  refillAmount_le : refillAmount ≤ u32Max
  refillInterval_le : refillInterval ≤ durationMax
  nonzero : 0 < refillInterval

structure TokenBucket where
  config : TokenBucketConfig
  tokens : Nat
  lastRefill : Nat
  suppressed : Nat
  inSuppression : Bool

namespace TokenBucket

def new (config : TokenBucketConfig) (now : Nat) : TokenBucket :=
  { config, tokens := config.capacity, lastRefill := now, suppressed := 0, inSuppression := false }

variable (bucket : TokenBucket)

/-- Credit the whole intervals elapsed, as far as a `u32` counts them. -/
def refill (now : Nat) : Option TokenBucket :=
  let elapsed := now - bucket.lastRefill
  let intervals := elapsed / bucket.config.refillInterval
  if intervals > 0 then
    let intervals := min intervals u32Max
    let refill := min (bucket.config.refillAmount * intervals) u32Max
    let lastRefill := bucket.lastRefill + min (bucket.config.refillInterval * intervals) durationMax
    if lastRefill > instantMax then none
    else some { bucket with
      tokens := min (min (bucket.tokens + refill) u32Max) bucket.config.capacity, lastRefill }
  else some bucket

def consume (n : Nat) : TokenBucketOutcome × TokenBucket :=
  if bucket.tokens ≥ n then
    let bucket := { bucket with tokens := bucket.tokens - n }
    if bucket.suppressed > 0 then
      (.grantedAfterSuppression bucket.suppressed, { bucket with suppressed := 0, inSuppression := false })
    else (.granted, bucket)
  else
    (.denied !bucket.inSuppression,
      { bucket with suppressed := min (bucket.suppressed + 1) u64Max, inSuppression := true })

/-- Draw `n` tokens at once; a draw of nothing is a panic. -/
def tryConsumeN (now n : Nat) : Option (TokenBucketOutcome × TokenBucket) :=
  if n = 0 then none else (bucket.refill now).map fun bucket => bucket.consume n

end TokenBucket

/-! ### Runs -/

structure Draw where
  instant : Nat
  n : Nat
  deriving Repr, DecidableEq

/-- A draw made: what it asked for, the balance it found and what it was told. -/
structure DrawRecord where
  instant : Nat
  n : Nat
  held : Nat
  outcome : TokenBucketOutcome
  deriving Repr, DecidableEq

def DrawRecord.taken (record : DrawRecord) : Nat := if record.outcome.isGrant then record.n else 0

def spent (log : List DrawRecord) : Nat := (log.map DrawRecord.taken).sum

def denials (log : List DrawRecord) : Nat := (log.reverse.takeWhile fun record => !record.outcome.isGrant).length

/-- A bucket in use, with everything drawn on it so far, oldest first. -/
structure Metering where
  bucket : TokenBucket
  start : Nat
  now : Nat
  log : List DrawRecord

namespace Metering

def opened (config : TokenBucketConfig) (start : Nat) : Metering := { bucket := .new config start, start, now := start, log := [] }

variable (world : Metering)

def step (draw : Draw) : Option Metering := do
  let found ← world.bucket.refill draw.instant
  let (outcome, bucket) ← world.bucket.tryConsumeN draw.instant draw.n
  some { world with bucket, now := draw.instant, log := world.log ++ [⟨draw.instant, draw.n, found.tokens, outcome⟩] }

def Callable (draw : Draw) : Prop := world.now ≤ draw.instant ∧ draw.instant ≤ instantMax ∧ 0 < draw.n

/-- The intervals since the last refill and the refusals since the last grant can still be counted. -/
def Countable (draw : Draw) : Prop :=
  draw.instant - world.bucket.lastRefill < 2 ^ 32 * world.bucket.config.refillInterval ∧ world.bucket.suppressed < u64Max

instance (draw : Draw) : Decidable (world.Callable draw) := inferInstanceAs (Decidable (_ ∧ _))
instance (draw : Draw) : Decidable (world.Countable draw) := inferInstanceAs (Decidable (_ ∧ _))

end Metering

/-! ### The reference -/

/-- A balance credited at every whole interval from an anchor. A draw it would not have covered leaves
    it in debt. -/
structure Reference where
  anchor : Nat
  balance : Int
  credits : Nat
  deriving Repr, DecidableEq

namespace Reference

variable (config : TokenBucketConfig)

def full (anchor : Nat) : Reference := { anchor, balance := config.capacity, credits := 0 }

def creditTo (reference : Reference) (now : Nat) : Reference :=
  let due := ticks config.refillInterval reference.anchor now
  { reference with
    balance := (credit config.capacity config.refillAmount)^[due - reference.credits] reference.balance
    credits := due }

def take (reference : Reference) (record : DrawRecord) : Reference :=
  let reference := reference.creditTo config record.instant
  { reference with balance := reference.balance - record.taken }

def since (anchor : Nat) (log : List DrawRecord) : Reference := log.foldl (take config) (full config anchor)

def holds (anchor : Nat) (log : List DrawRecord) (now : Nat) : Int := ((since config anchor log).creditTo config now).balance

end Reference

/-- What an outcome says of the refusals since the last grant. -/
def TokenBucketOutcome.Reports (denied : Nat) : TokenBucketOutcome → Prop
  | .granted => denied = 0
  | .grantedAfterSuppression suppressed => 0 < denied ∧ suppressed = denied
  | .denied first => first = true ↔ denied = 0

/-- What holds of a draw after the draws before it. -/
structure Lawful (config : TokenBucketConfig) (start : Nat) (before : List DrawRecord) (record : DrawRecord) : Prop where
  /-- Over every stretch of draws up to this one. -/
  rate : ∀ earlier first rest, before ++ [record] = earlier ++ first :: rest →
    spent (first :: rest) ≤
      config.capacity + config.refillAmount * ((record.instant - first.instant) / config.refillInterval + 1)
  exact : record.outcome.isGrant = true ↔ record.n ≤ Reference.holds config start before record.instant
  sinceFull : ∀ earlier full rest, before = earlier ++ full :: rest → full.held = config.capacity →
    (∀ later ∈ rest, later.held ≠ config.capacity) →
    record.n ≤ Reference.holds config full.instant (full :: rest) record.instant → record.outcome.isGrant = true
  reports : record.outcome.Reports (denials before)

/-! ### One refill, one draw -/

namespace TokenBucket

variable {bucket : TokenBucket}

/-- A refill that can count its intervals credits them all and nothing but them. -/
theorem refill_spec {now : Nat} (held : bucket.tokens ≤ bucket.config.capacity) (started : bucket.lastRefill ≤ now)
    (early : now ≤ instantMax) (countable : now - bucket.lastRefill < 2 ^ 32 * bucket.config.refillInterval) :
    bucket.refill now = some { bucket with
      tokens := min bucket.config.capacity
        (bucket.tokens + bucket.config.refillAmount * ticks bucket.config.refillInterval bucket.lastRefill now)
      lastRefill := bucket.lastRefill +
        bucket.config.refillInterval * ticks bucket.config.refillInterval bucket.lastRefill now } := by
  unfold refill ticks
  dsimp only
  have few : (now - bucket.lastRefill) / bucket.config.refillInterval ≤ u32Max := by
    have below := Nat.div_lt_of_lt_mul (Nat.mul_comm _ _ ▸ countable)
    unfold u32Max
    omega
  have within := Nat.mul_div_le (now - bucket.lastRefill) bucket.config.refillInterval
  generalize (now - bucket.lastRefill) / bucket.config.refillInterval = intervals at few within ⊢
  have fits := bucket.config.capacity_le
  have long : instantMax ≤ durationMax := by decide
  rw [Nat.min_eq_left few, Nat.min_eq_left (by omega : bucket.config.refillInterval * intervals ≤ durationMax)]
  by_cases some : intervals > 0
  · rw [if_pos some, if_neg (by omega)]
    have capped : min (min (bucket.tokens + min (bucket.config.refillAmount * intervals) u32Max) u32Max) bucket.config.capacity =
        min bucket.config.capacity (bucket.tokens + bucket.config.refillAmount * intervals) := by
      omega
    rw [capped]
  · obtain rfl : intervals = 0 := by omega
    rw [if_neg some, Nat.mul_zero, Nat.mul_zero, Nat.add_zero, Nat.add_zero, Nat.min_eq_right held]

/-- A draw takes what it asks for where the balance covers it, and otherwise nothing. -/
theorem consume_spec (bucket : TokenBucket) (n : Nat) (countable : bucket.suppressed < u64Max) :
    (bucket.tokens ≥ n → (bucket.consume n).1.isGrant = true ∧ (bucket.consume n).2 =
      { bucket with
        tokens := bucket.tokens - n, suppressed := 0
        inSuppression := if bucket.suppressed > 0 then false else bucket.inSuppression }) ∧
    (bucket.tokens < n → bucket.consume n =
      (.denied !bucket.inSuppression, { bucket with suppressed := bucket.suppressed + 1, inSuppression := true })) := by
  refine ⟨fun covers => ?_, fun short => ?_⟩
  · unfold consume
    rw [if_pos covers]
    dsimp only
    split
    · exact ⟨rfl, rfl⟩
    next none =>
      have zero : bucket.suppressed = 0 := by omega
      refine ⟨rfl, ?_⟩
      rw [← zero]
  · unfold consume
    rw [if_neg (by omega), Nat.min_eq_left (by omega)]

theorem consume_reports {n denied : Nat} (counting : bucket.suppressed = denied)
    (counted : bucket.inSuppression = decide (0 < denied)) : (bucket.consume n).1.Reports denied := by
  unfold consume
  split
  · dsimp only
    split
    next some => exact ⟨by omega, counting⟩
    next none =>
      show denied = 0
      omega
  · show (!bucket.inSuppression) = true ↔ denied = 0
    rw [counted]
    simp

end TokenBucket

/-! ### The reference, bounded -/

theorem denials_snoc (log : List DrawRecord) (record : DrawRecord) :
    denials (log ++ [record]) = if record.outcome.isGrant then 0 else denials log + 1 := by
  unfold denials
  rw [List.reverse_append, List.reverse_singleton, List.singleton_append, List.takeWhile_cons]
  cases record.outcome.isGrant <;> rfl

theorem spent_snoc (log : List DrawRecord) (record : DrawRecord) : spent (log ++ [record]) = spent log + record.taken := by
  simp [spent]

namespace Reference

variable {config : TokenBucketConfig} {anchor now : Nat} {log : List DrawRecord}

theorem since_snoc (log : List DrawRecord) (record : DrawRecord) :
    since config anchor (log ++ [record]) = (since config anchor log).take config record := by
  simp [since]

/-- What a reference holds is what it was credited less what was drawn, under its cap. -/
theorem since_spec (ordered : log.Pairwise fun earlier later => earlier.instant ≤ later.instant)
    (past : ∀ record ∈ log, record.instant ≤ now) :
    (since config anchor log).anchor = anchor ∧ (since config anchor log).balance ≤ config.capacity ∧
      (since config anchor log).credits ≤ ticks config.refillInterval anchor now ∧
      (since config anchor log).balance + spent log ≤
        config.capacity + config.refillAmount * (since config anchor log).credits := by
  induction log using List.reverseRecOn generalizing now with
  | nil => exact ⟨rfl, le_refl _, Nat.zero_le _, by simp [since, full, spent]⟩
  | append_singleton log record ih =>
    obtain ⟨before, -, last⟩ := List.pairwise_append.mp ordered
    obtain ⟨same, capped, credits, bound⟩ := ih before fun earlier listed => last earlier listed record List.mem_cons_self
    have newest := past record (List.mem_append_right _ List.mem_cons_self)
    rw [since_snoc, spent_snoc]
    simp only [take, creditTo, same]
    rw [credit_iterate capped (by omega)]
    have more : (config.refillAmount : Int) * ↑(ticks config.refillInterval anchor record.instant) =
        config.refillAmount * (since config anchor log).credits +
          ↑(ticks config.refillInterval anchor record.instant - (since config anchor log).credits) * config.refillAmount := by
      rw [Nat.cast_sub credits]
      ring
    refine ⟨trivial, by omega, ticks_mono newest, ?_⟩
    push_cast
    omega

theorem holds_le (ordered : log.Pairwise fun earlier later => earlier.instant ≤ later.instant)
    (past : ∀ record ∈ log, record.instant ≤ now) :
    holds config anchor log now ≤ config.capacity ∧
      holds config anchor log now + spent log ≤ config.capacity + config.refillAmount * ticks config.refillInterval anchor now := by
  obtain ⟨same, capped, credits, bound⟩ : (since config anchor log).anchor = anchor ∧ _ := since_spec ordered past
  simp only [holds, creditTo, same]
  rw [credit_iterate capped (by omega)]
  have more : (config.refillAmount : Int) * ↑(ticks config.refillInterval anchor now) =
      config.refillAmount * (since config anchor log).credits +
        ↑(ticks config.refillInterval anchor now - (since config anchor log).credits) * config.refillAmount := by
    rw [Nat.cast_sub credits]
    ring
  omega

end Reference

/-! ### Runs that can count -/

namespace Metering

def tick (world : Metering) (instant : Nat) : Nat := ticks world.bucket.config.refillInterval world.start instant

structure Sound (world : Metering) : Prop where
  started : world.start ≤ world.now
  bounded : world.bucket.tokens ≤ world.bucket.config.capacity
  steady : world.bucket.lastRefill = world.start +
    world.bucket.config.refillInterval * world.tick world.now
  ordered : world.log.Pairwise fun earlier later => earlier.instant ≤ later.instant
  past : ∀ record ∈ world.log, world.start ≤ record.instant ∧ record.instant ≤ world.now
  tracked : Reference.since world.bucket.config world.start world.log =
    ⟨world.start, world.bucket.tokens, world.tick world.now⟩
  windows : ∀ earlier first rest, world.log = earlier ++ first :: rest →
    spent (first :: rest) + world.bucket.tokens ≤ world.bucket.config.capacity + world.bucket.config.refillAmount *
      (world.tick world.now - world.tick first.instant)
  fromFull : ∀ earlier full rest, world.log = earlier ++ full :: rest → full.held = world.bucket.config.capacity →
    (∀ later ∈ rest, later.held ≠ world.bucket.config.capacity) →
    spent (full :: rest) + world.bucket.tokens = world.bucket.config.capacity + world.bucket.config.refillAmount *
      (world.tick world.now - world.tick full.instant)
  counting : world.bucket.suppressed = denials world.log
  counted : world.bucket.inSuppression = decide (0 < denials world.log)
  lawful : Throughout (Lawful world.bucket.config world.start) world.log

theorem sound_opened (config : TokenBucketConfig) (start : Nat) : (opened config start).Sound where
  started := Nat.le_refl _
  bounded := Nat.le_refl _
  steady := by simp [tick, opened, TokenBucket.new, ticks_self]
  ordered := .nil
  past := nofun
  tracked := by simp [tick, opened, TokenBucket.new, Reference.since, Reference.full, ticks_self]
  windows _ _ _ split := absurd split (by simp [opened])
  fromFull _ _ _ split := absurd split (by simp [opened])
  counting := rfl
  counted := rfl
  lawful := throughout_nil

variable {world : Metering} {draw : Draw}

def found (world : Metering) (draw : Draw) : Nat :=
  min world.bucket.config.capacity (world.bucket.tokens + world.bucket.config.refillAmount *
    (world.tick draw.instant - world.tick world.now))

def topped (world : Metering) (draw : Draw) : TokenBucket :=
  { world.bucket with
    tokens := world.found draw
    lastRefill := world.start +
      world.bucket.config.refillInterval * world.tick draw.instant }

theorem Sound.refill (sound : world.Sound) (callable : world.Callable draw) (countable : world.Countable draw) :
    world.bucket.refill draw.instant = some (world.topped draw) := by
  obtain ⟨ordered, early, -⟩ := callable
  have whole := Nat.mul_div_le (world.now - world.start) world.bucket.config.refillInterval
  have steady := sound.steady
  have started := sound.started
  have gap : ticks world.bucket.config.refillInterval world.bucket.lastRefill draw.instant =
      world.tick draw.instant - world.tick world.now := by
    have shifted : draw.instant - world.bucket.lastRefill = draw.instant - world.start -
        world.bucket.config.refillInterval * world.tick world.now := by
      omega
    unfold tick ticks at shifted ⊢
    rw [shifted, Nat.sub_mul_div_of_le]
    omega
  have through : world.bucket.lastRefill ≤ draw.instant := by
    unfold tick ticks at steady
    omega
  rw [TokenBucket.refill_spec sound.bounded through early countable.1, gap]
  have mono : world.tick world.now ≤ world.tick draw.instant := ticks_mono ordered
  have moved : world.bucket.lastRefill + world.bucket.config.refillInterval *
      (world.tick draw.instant - world.tick world.now) =
      world.start + world.bucket.config.refillInterval * world.tick draw.instant := by
    rw [steady, Nat.add_assoc, ← Nat.mul_add, Nat.add_sub_cancel' mono]
  rw [moved]
  rfl

def recorded (world : Metering) (draw : Draw) : DrawRecord :=
  ⟨draw.instant, draw.n, world.found draw, ((world.topped draw).consume draw.n).1⟩

def drawn (world : Metering) (draw : Draw) : Metering :=
  { world with
    bucket := ((world.topped draw).consume draw.n).2, now := draw.instant, log := world.log ++ [world.recorded draw] }

theorem Sound.step_eq (sound : world.Sound) (callable : world.Callable draw) (countable : world.Countable draw) :
    world.step draw = some (world.drawn draw) := by
  have drawn : draw.n ≠ 0 := Nat.pos_iff_ne_zero.mp callable.2.2
  unfold step TokenBucket.tryConsumeN
  rw [sound.refill callable countable, if_neg drawn]
  rfl

theorem recorded_spec (countable : world.Countable draw) :
    ((world.recorded draw).outcome.isGrant = true ↔ draw.n ≤ world.found draw) ∧
      (world.drawn draw).bucket.tokens + (world.recorded draw).taken = world.found draw ∧
      (world.drawn draw).bucket.config = world.bucket.config ∧
      (world.drawn draw).bucket.lastRefill = (world.topped draw).lastRefill := by
  obtain ⟨covers, short⟩ := (world.topped draw).consume_spec draw.n countable.2
  unfold drawn
  by_cases enough : draw.n ≤ world.found draw
  · obtain ⟨granted, after⟩ := covers enough
    have grant : (world.recorded draw).outcome.isGrant = true := granted
    rw [after]
    refine ⟨⟨fun _ => enough, fun _ => grant⟩, ?_, rfl, rfl⟩
    rw [DrawRecord.taken, if_pos grant]
    exact Nat.sub_add_cancel enough
  · have after := short (Nat.lt_of_not_le enough)
    have refused : (world.recorded draw).outcome.isGrant = false := by
      unfold recorded
      rw [after]
      rfl
    rw [DrawRecord.taken, refused, after]
    exact ⟨⟨fun grant => absurd grant (by simp), fun covered => absurd covered enough⟩, rfl, rfl, rfl⟩

/-- A draw that counts refusals right still does afterwards. -/
theorem Sound.counted_drawn (sound : world.Sound) (countable : world.Countable draw) :
    (world.drawn draw).bucket.suppressed = denials (world.drawn draw).log ∧
      (world.drawn draw).bucket.inSuppression = decide (0 < denials (world.drawn draw).log) := by
  obtain ⟨covers, short⟩ := (world.topped draw).consume_spec draw.n countable.2
  have counting := sound.counting
  have counted := sound.counted
  show ((world.topped draw).consume draw.n).2.suppressed = denials (world.log ++ [world.recorded draw]) ∧
    ((world.topped draw).consume draw.n).2.inSuppression = decide (0 < denials (world.log ++ [world.recorded draw]))
  rw [denials_snoc]
  by_cases enough : draw.n ≤ world.found draw
  · obtain ⟨granted, after⟩ := covers enough
    rw [after, if_pos (show (world.recorded draw).outcome.isGrant = true from granted)]
    refine ⟨rfl, ?_⟩
    show (if world.bucket.suppressed > 0 then false else world.bucket.inSuppression) = false
    rw [counted, ← counting]
    simp
  · have after := short (Nat.lt_of_not_le enough)
    have refused : (world.recorded draw).outcome.isGrant = false := by
      unfold recorded
      rw [after]
      rfl
    rw [after, refused, ← counting]
    exact ⟨rfl, by simp⟩

/-! ### What the records then show -/

section Judged

variable (sound : world.Sound)
include sound

theorem Sound.holds_found : Reference.holds world.bucket.config world.start world.log draw.instant = world.found draw := by
  unfold Reference.holds
  rw [sound.tracked, Reference.creditTo]
  dsimp only
  rw [credit_iterate (by exact_mod_cast sound.bounded) (Int.natCast_nonneg _), found, Int.mul_comm]
  push_cast
  rfl

variable (callable : world.Callable draw)
include callable

/-- What is credited from an earlier draw on is credited up to now and from now on. -/
theorem Sound.credited_apart {record : DrawRecord} (listed : record ∈ world.log) (amount : Nat) :
    amount * (world.tick draw.instant - world.tick record.instant) =
      amount * (world.tick world.now - world.tick record.instant) + amount * (world.tick draw.instant - world.tick world.now) := by
  have one : world.tick record.instant ≤ world.tick world.now := ticks_mono (sound.past record listed).2
  have two : world.tick world.now ≤ world.tick draw.instant := ticks_mono callable.1
  rw [← Nat.mul_add]
  congr 1
  omega

theorem Sound.window_found {earlier rest : List DrawRecord} {first : DrawRecord}
    (split : world.log = earlier ++ first :: rest) :
    spent (first :: rest) + world.found draw ≤ world.bucket.config.capacity +
      world.bucket.config.refillAmount * (world.tick draw.instant - world.tick first.instant) := by
  have window := sound.windows earlier first rest split
  have listed : first ∈ world.log := split ▸ List.mem_append_right _ List.mem_cons_self
  rw [sound.credited_apart callable listed]
  unfold found
  omega

/-- From a full bucket on, nothing credited is lost until it is full again. -/
theorem Sound.full_found {earlier rest : List DrawRecord} {full : DrawRecord}
    (split : world.log = earlier ++ full :: rest) (filled : full.held = world.bucket.config.capacity)
    (below : ∀ later ∈ rest, later.held ≠ world.bucket.config.capacity)
    (room : world.found draw ≠ world.bucket.config.capacity) :
    spent (full :: rest) + world.found draw = world.bucket.config.capacity +
      world.bucket.config.refillAmount * (world.tick draw.instant - world.tick full.instant) := by
  have window := sound.fromFull earlier full rest split filled below
  have listed : full ∈ world.log := split ▸ List.mem_append_right _ List.mem_cons_self
  rw [sound.credited_apart callable listed]
  unfold found at room ⊢
  omega

variable (countable : world.Countable draw)
include countable

theorem Sound.judged : Lawful world.bucket.config world.start world.log (world.recorded draw) := by
  obtain ⟨grants, balance, -⟩ := recorded_spec countable
  have most : world.found draw ≤ world.bucket.config.capacity := min_le_left _ _
  refine ⟨fun earlier first rest split => ?_, ?_, fun earlier full rest split filled below covered => ?_, ?_⟩
  · rcases snoc_eq_append_cons split with ⟨-, rfl, rfl⟩ | ⟨within, rfl, before⟩
    · rw [← List.nil_append [_], spent_snoc]
      show 0 + _ ≤ _
      omega
    · have window := sound.window_found callable before
      have listed := sound.past first (before ▸ List.mem_append_right _ List.mem_cons_self)
      have between := (ticks_between world.bucket.config.nonzero listed.1 (listed.2.trans callable.1)).2
      have steps : world.bucket.config.refillAmount * (world.tick draw.instant - world.tick first.instant) ≤
          world.bucket.config.refillAmount *
            ((draw.instant - first.instant) / world.bucket.config.refillInterval + 1) := by
        exact Nat.mul_le_mul_left _ (Nat.sub_le_iff_le_add'.mpr between)
      rw [← List.cons_append, spent_snoc]
      show _ ≤ _ + _ * ((draw.instant - first.instant) / _ + 1)
      omega
  · rw [grants]
    show _ ↔ (draw.n : Int) ≤ Reference.holds _ _ _ draw.instant
    rw [sound.holds_found, Nat.cast_le]
  · rw [grants]
    have ordered := sound.ordered
    rw [split] at ordered
    have later : ∀ record ∈ full :: rest, record.instant ≤ draw.instant := fun record listed =>
      (sound.past record (split ▸ List.mem_append_right _ listed)).2.trans callable.1
    obtain ⟨capped, bound⟩ : Reference.holds world.bucket.config full.instant (full :: rest) draw.instant ≤ _ ∧ _ :=
      Reference.holds_le (List.pairwise_append.mp ordered).2.1 later
    have asked : (draw.n : Int) ≤ Reference.holds world.bucket.config full.instant (full :: rest) draw.instant := covered
    by_cases again : world.found draw = world.bucket.config.capacity
    · omega
    · -- below its cap the bucket has kept every credit since it was full
      have exactly := sound.full_found callable split filled below again
      have listed := sound.past full (split ▸ List.mem_append_right _ List.mem_cons_self)
      have between := (ticks_between world.bucket.config.nonzero listed.1 (listed.2.trans callable.1)).1
      have steps : world.bucket.config.refillAmount * ticks world.bucket.config.refillInterval full.instant draw.instant ≤
          world.bucket.config.refillAmount * (world.tick draw.instant - world.tick full.instant) := by
        refine Nat.mul_le_mul_left _ ?_
        unfold tick
        omega
      zify at exactly steps
      omega
  · exact TokenBucket.consume_reports sound.counting sound.counted

theorem Sound.drawn : (world.drawn draw).Sound := by
  obtain ⟨-, balance, config, moved⟩ := recorded_spec countable
  obtain ⟨counting, counted⟩ := sound.counted_drawn countable
  have same (instant : Nat) : (world.drawn draw).tick instant = world.tick instant := by
    rw [tick, tick, config]
    rfl
  have most : world.found draw ≤ world.bucket.config.capacity := min_le_left _ _
  have log : (world.drawn draw).log = world.log ++ [world.recorded draw] := rfl
  refine ⟨sound.started.trans callable.1, ?_, ?_, ?_, ?_, ?_, ?_, ?_, counting, counted, ?_⟩
  · rw [config]
    omega
  · rw [moved, config, same]
    rfl
  · rw [log]
    refine List.pairwise_append.mpr ⟨sound.ordered, List.pairwise_singleton _ _, fun earlier listed last newest => ?_⟩
    rw [List.mem_singleton.mp newest]
    exact (sound.past earlier listed).2.trans callable.1
  · intro record listed
    rcases List.mem_append.mp listed with before | newest
    · exact ⟨(sound.past record before).1, (sound.past record before).2.trans callable.1⟩
    · rw [List.mem_singleton.mp newest]
      exact ⟨sound.started.trans callable.1, Nat.le_refl _⟩
  · have holds : Reference.holds world.bucket.config world.start world.log draw.instant = world.found draw :=
      sound.holds_found
    have left : (world.found draw : Int) - (world.recorded draw).taken = (world.drawn draw).bucket.tokens := by omega
    rw [config, same, log, Reference.since_snoc, ← left, ← holds]
    show (Reference.since _ world.start _).take _ _ = _
    unfold Reference.take Reference.holds
    rw [sound.tracked]
    rfl
  · intro earlier first rest split
    rw [config, same, same]
    rcases snoc_eq_append_cons split with ⟨-, rfl, rfl⟩ | ⟨within, rfl, before⟩
    · rw [← List.nil_append [_], spent_snoc]
      show 0 + _ + _ ≤ _
      omega
    · rw [← List.cons_append, spent_snoc]
      have window := sound.window_found callable before
      show _ ≤ _ + _ * (world.tick draw.instant - _)
      omega
  · intro earlier full rest split
    rw [config, same, same]
    intro filled below
    rcases snoc_eq_append_cons split with ⟨-, rfl, rfl⟩ | ⟨within, rfl, before⟩
    · rw [← List.nil_append [_], spent_snoc]
      show 0 + _ + _ = _ + _ * (world.tick draw.instant - world.tick draw.instant)
      rw [Nat.sub_self, Nat.mul_zero]
      have held : world.found draw = world.bucket.config.capacity := filled
      omega
    · rw [← List.cons_append, spent_snoc]
      have room : world.found draw ≠ world.bucket.config.capacity :=
        below (world.recorded draw) (List.mem_append_right _ List.mem_cons_self)
      have exactly := sound.full_found callable before filled
        (fun later listed => below later (List.mem_append_left _ listed)) room
      show _ = _ + _ * (world.tick draw.instant - _)
      omega
  · rw [config]
    exact sound.lawful.snoc (sound.judged callable countable)

end Judged

/-- Whatever is drawn and when, as long as the bucket can count: no draw panics, the balance keeps within the
    capacity, the refill instant is a whole number of intervals after creation with less than one more
    gone by, and every draw is lawful. -/
theorem draws_metered (config : TokenBucketConfig) (start : Nat) (draws : List Draw)
    (along : Along step (fun world draw => world.Callable draw ∧ world.Countable draw) (opened config start) draws) :
    ∃ world, run step (opened config start) draws = some world ∧ world.bucket.tokens ≤ config.capacity ∧
      world.bucket.lastRefill = start + config.refillInterval * ticks config.refillInterval start world.now ∧
      Throughout (Lawful config start) world.log := by
  have progress : ∀ (world : Metering) draw,
      world.Sound ∧ world.bucket.config = config ∧ world.start = start → world.Callable draw ∧ world.Countable draw →
      ∃ next, world.step draw = some next ∧ next.Sound ∧ next.bucket.config = config ∧ next.start = start := by
    rintro world draw ⟨sound, rfl, rfl⟩ ⟨callable, countable⟩
    refine ⟨world.drawn draw, sound.step_eq callable countable, sound.drawn callable countable, ?_, rfl⟩
    exact (recorded_spec countable).2.2.1
  obtain ⟨world, ran, sound, rfl, rfl⟩ := run_reaches progress ⟨sound_opened config start, rfl, rfl⟩ along
  exact ⟨world, ran, sound.bounded, sound.steady, sound.lawful⟩

def tenBurst : TokenBucketConfig :=
  { capacity := 10, refillInterval := 10 ^ 6, refillAmount := 1
    capacity_le := by decide, refillAmount_le := by decide, refillInterval_le := by decide, nonzero := by decide }

/-- The burst, a refusal, and the token the next millisecond brings. -/
theorem burst_metered :
    Along step (fun world draw => world.Callable draw ∧ world.Countable draw) (opened tenBurst 0)
        [⟨0, 10⟩, ⟨0, 1⟩, ⟨1500000, 1⟩] ∧
      ∃ world, run step (opened tenBurst 0) [⟨0, 10⟩, ⟨0, 1⟩, ⟨1500000, 1⟩] = some world ∧
        world.bucket.tokens ≤ tenBurst.capacity ∧
        world.bucket.lastRefill = 0 + tenBurst.refillInterval * ticks tenBurst.refillInterval 0 world.now ∧
        Throughout (Lawful tenBurst 0) world.log := by
  have along : Along step (fun world draw => world.Callable draw ∧ world.Countable draw) (opened tenBurst 0)
      [⟨0, 10⟩, ⟨0, 1⟩, ⟨1500000, 1⟩] := by decide +kernel
  exact ⟨along, draws_metered tenBurst 0 _ along⟩

/-- The refill instant lags behind an idle of over `2 ^ 32` intervals, so the next draw is credited it again:
    two bursts are granted at one instant. -/
theorem idle_credited_twice :
    Along step Callable (opened tenBurst 0) [⟨2 ^ 33 * 10 ^ 6, 10⟩, ⟨2 ^ 33 * 10 ^ 6, 10⟩] ∧
      ∃ world, run step (opened tenBurst 0) [⟨2 ^ 33 * 10 ^ 6, 10⟩, ⟨2 ^ 33 * 10 ^ 6, 10⟩] = some world ∧
        ¬ Throughout (Lawful tenBurst 0) world.log := by
  refine ⟨by decide +kernel, ?_⟩
  obtain ⟨world, ran, logged⟩ : ∃ world, run step (opened tenBurst 0) [⟨2 ^ 33 * 10 ^ 6, 10⟩, ⟨2 ^ 33 * 10 ^ 6, 10⟩] =
      some world ∧ decide (world.log = [⟨2 ^ 33 * 10 ^ 6, 10, 10, .granted⟩, ⟨2 ^ 33 * 10 ^ 6, 10, 10, .granted⟩]) = true :=
    Option.map_eq_some_iff.mp (by decide +kernel)
  refine ⟨world, ran, fun each => ?_⟩
  rw [of_decide_eq_true logged] at each
  have rate := (each [_] _ [] rfl).rate [] _ _ rfl
  revert rate
  decide

end Metering

end Brenn.Budget
