import Brenn.Lib.Calendar
import Brenn.Lib.Decimal
import Brenn.Store.Rows

/-!
Release times as the database stores them: RFC 3339 text at whole seconds.

Between the years 0 and 9999 texts compare as the instants they stand for and read
back. From the year 10000 on a text begins with a plus sign, which sorts before every
digit, and is not read back: the sweep finds it due at once, and panics on reading it.
-/

namespace Brenn.Store
open Brenn.Lib Brenn.Queue

universe u v w

/-! ### Instants -/

/-- The last millisecond that has a date: `+262142-12-31T23:59:59.999`. -/
def maxEpochMs : Nat := 8210266876799999

/-- The instant of a time a client states in epoch milliseconds. -/
def utcFromEpochMs (ms : Nat) : Option Nat := if ms ≤ maxEpochMs then some ms else none

def secondOf (instant : Nat) : Nat := instant / 1000

/-- Days from 0000-03-01 to 1970-01-01. -/
def epochDay : Int := 719468

/-! ### Rendering and reading -/

/-- A year of four digits is written bare, any other with its sign. -/
def yearText (year : Int) : List Char :=
  if 0 ≤ year ∧ year ≤ 9999 then fixed 4 year.toNat
  else
    let digits := if year.natAbs < 10000 then fixed 4 year.natAbs else Nat.toDigits 10 year.natAbs
    (if year < 0 then '-' else '+') :: digits

def dateOf (second : Int) : Civil := civilOfDays (second / 86400 + epochDay)

def timeOf (second : Int) : Nat := (second % 86400).toNat

def restText (second : Int) : List Char :=
  '-' :: (fixed 2 (dateOf second).month ++ '-' :: (fixed 2 (dateOf second).day ++ 'T' ::
    (fixed 2 (timeOf second / 3600) ++ ':' :: (fixed 2 (timeOf second / 60 % 60) ++ ':' ::
      (fixed 2 (timeOf second % 60) ++ ['+', '0', '0', ':', '0', '0'])))))

def formatTsForDb (second : Int) : List Char := yearText (dateOf second).year ++ restText second

def offsetMinutes : List Char → Option Int
  | [] => none
  | sign :: text =>
    if sign = 'Z' ∨ sign = 'z' then if text = [] then some 0 else none
    else if sign = '+' ∨ sign = '-' then do
      let (hours, text) ← number 2 0 text
      let text ← literal ':' text
      let (minutes, text) ← number 2 0 text
      if text = [] ∧ minutes < 60 then some ((if sign = '-' then -1 else 1) * (60 * hours + minutes)) else none
    else none

/-- The second a text stands for. The year is four digits; fractions, which no stored text has, are
    left out. -/
def parseRfc3339 (text : List Char) : Option Int := do
  let (year, text) ← number 4 0 text
  let text ← literal '-' text
  let (month, text) ← number 2 0 text
  let text ← literal '-' text
  let (day, text) ← number 2 0 text
  let text ← literal 'T' text
  let (hour, text) ← number 2 0 text
  let text ← literal ':' text
  let (minute, text) ← number 2 0 text
  let text ← literal ':' text
  let (second, text) ← number 2 0 text
  let offset ← offsetMinutes text
  let date : Civil := ⟨year, month, day⟩
  if OnCalendar date ∧ hour < 24 ∧ minute < 60 ∧ second < 60 then
    some ((daysOfCivil date - epochDay) * 86400 + (3600 * hour + 60 * minute + second) - 60 * offset)
  else none

/-! ### The years of four digits -/

/-- The first second of the year 0. -/
def firstYear : Int := -62167219200

/-- The first second of the year 10000. -/
def lastYear : Int := 253402300800

theorem year_nonneg {second : Int} (late : firstYear ≤ second) : 0 ≤ (dateOf second).year := by
  have first : civilOfDays (firstYear / 86400 + epochDay) = ⟨0, 1, 1⟩ := by decide
  by_contra negative
  have before : (dateOf second).Before (civilOfDays (firstYear / 86400 + epochDay)) := by
    rw [first]
    exact .inl (by simpa using negative)
  have days := civilOfDays_before.mp before
  unfold firstYear at late days
  omega

theorem year_lt {second : Int} (early : second < lastYear) : (dateOf second).year ≤ 9999 := by
  have last : civilOfDays (lastYear / 86400 + epochDay) = ⟨10000, 1, 1⟩ := by decide
  have days : second / 86400 + epochDay < lastYear / 86400 + epochDay := by
    unfold lastYear at early ⊢
    omega
  have before := civilOfDays_before.mpr days
  rw [last] at before
  obtain ⟨month, _, day, _⟩ := civilOfDays_range (second / 86400 + epochDay)
  unfold dateOf
  rcases before with year | ⟨_, earlier | ⟨_, earlier⟩⟩
  · dsimp only at year
    omega
  · dsimp only at earlier
    omega
  · dsimp only at earlier
    omega

theorem year_ge {second : Int} (late : lastYear ≤ second) : 10000 ≤ (dateOf second).year := by
  have last : civilOfDays (lastYear / 86400 + epochDay) = ⟨10000, 1, 1⟩ := by decide
  by_contra small
  have before : (dateOf second).Before (civilOfDays (lastYear / 86400 + epochDay)) := by
    rw [last]
    exact .inl (by simpa using small)
  have days := civilOfDays_before.mp before
  unfold lastYear at late days
  omega

/-- An instant within the years of four digits. -/
def Readable (second : Int) : Prop := firstYear ≤ second ∧ second < lastYear

instance (second : Int) : Decidable (Readable second) := inferInstanceAs (Decidable (_ ∧ _))

theorem yearText_readable {second : Int} (readable : Readable second) :
    yearText (dateOf second).year = fixed 4 (dateOf second).year.toNat :=
  if_pos ⟨year_nonneg readable.1, year_lt readable.2⟩

theorem timeOf_lt (second : Int) : timeOf second < 86400 := by
  unfold timeOf
  omega

theorem parse_format {second : Int} (readable : Readable second) : parseRfc3339 (formatTsForDb second) = some second := by
  obtain ⟨_, month, _, day⟩ := civilOfDays_range (second / 86400 + epochDay)
  have low := year_nonneg readable.1
  have high := year_lt readable.2
  have time := timeOf_lt second
  have date : (⟨((dateOf second).year.toNat : Int), (dateOf second).month, (dateOf second).day⟩ : Civil) = dateOf second := by
    rw [Int.toNat_of_nonneg low]
  have offset : offsetMinutes ['+', '0', '0', ':', '0', '0'] = some 0 := by decide
  unfold parseRfc3339 formatTsForDb restText
  rw [yearText_readable readable, number_fixed 4 0 _ (by omega)]
  simp only [Option.bind_eq_bind, Option.bind_some, literal_cons, Nat.zero_mul, Nat.zero_add]
  rw [number_fixed 2 0 _ (by unfold dateOf; omega)]
  simp only [Option.bind_some, literal_cons, Nat.zero_mul, Nat.zero_add]
  rw [number_fixed 2 0 _ (by unfold dateOf; omega)]
  simp only [Option.bind_some, literal_cons, Nat.zero_mul, Nat.zero_add]
  rw [number_fixed 2 0 _ (by omega)]
  simp only [Option.bind_some, literal_cons, Nat.zero_mul, Nat.zero_add]
  rw [number_fixed 2 0 _ (by omega)]
  simp only [Option.bind_some, literal_cons, Nat.zero_mul, Nat.zero_add]
  rw [number_fixed 2 0 _ (by omega)]
  simp only [Option.bind_some, Nat.zero_mul, Nat.zero_add, offset, date]
  rw [if_pos ⟨onCalendar_civilOfDays _, by omega, by omega, by omega⟩, dateOf, daysOfCivil_civilOfDays]
  unfold timeOf at time ⊢
  congr 1
  omega

/-! ### Comparing texts -/

/-- Texts of four-digit years compare as the instants they stand for. -/
theorem format_lt_format {second later : Int} (readable : Readable second) (readable' : Readable later) :
    formatTsForDb second < formatTsForDb later ↔ second < later := by
  obtain ⟨_, month, _, day⟩ := civilOfDays_range (second / 86400 + epochDay)
  obtain ⟨_, month', _, day'⟩ := civilOfDays_range (later / 86400 + epochDay)
  have year := year_nonneg readable.1
  have year' := year_nonneg readable'.1
  have high := year_lt readable.2
  have high' := year_lt readable'.2
  have time := timeOf_lt second
  have time' := timeOf_lt later
  have days : (dateOf second).Before (dateOf later) ↔ second / 86400 + epochDay < later / 86400 + epochDay :=
    civilOfDays_before
  have days' : (dateOf later).Before (dateOf second) ↔ later / 86400 + epochDay < second / 86400 + epochDay :=
    civilOfDays_before
  unfold formatTsForDb restText
  rw [yearText_readable readable, yearText_readable readable', field_lt_field (by omega) (by omega),
    field_lt_field (by unfold dateOf; omega) (by unfold dateOf; omega),
    field_lt_field (by unfold dateOf; omega) (by unfold dateOf; omega), field_lt_field (by omega) (by omega),
    field_lt_field (by omega) (by omega), field_lt_field (by omega) (by omega)]
  -- The dates decide unless the days are the same, and then the times do.
  have clock : second < later ↔ second / 86400 + epochDay < later / 86400 + epochDay ∨
      (second / 86400 + epochDay = later / 86400 + epochDay ∧ timeOf second < timeOf later) := by
    unfold timeOf
    omega
  rw [clock]
  unfold Civil.Before at days days'
  simp only [lt_irrefl, and_false, or_false]
  omega

theorem format_le_format {second later : Int} (readable : Readable second) (readable' : Readable later) :
    formatTsForDb second ≤ formatTsForDb later ↔ second ≤ later := by
  rw [← not_lt, format_lt_format readable' readable, not_lt]

theorem digit_range : ∀ n < 10, '0' ≤ digit n := by decide

/-- A text outside the years of four digits begins with a sign. -/
theorem format_of_signed {second : Int} (signed : ¬ Readable second) :
    ∃ sign rest, (sign = '-' ∨ sign = '+') ∧ formatTsForDb second = sign :: rest := by
  have outside : ¬ (0 ≤ (dateOf second).year ∧ (dateOf second).year ≤ 9999) := by
    rintro ⟨low, high⟩
    refine signed ⟨?_, ?_⟩
    · by_contra early
      have first : civilOfDays (firstYear / 86400 + epochDay) = ⟨0, 1, 1⟩ := by decide
      have days : second / 86400 + epochDay < firstYear / 86400 + epochDay := by
        unfold firstYear at early ⊢
        omega
      have before := civilOfDays_before.mpr days
      rw [first] at before
      obtain ⟨month, _, day, _⟩ := civilOfDays_range (second / 86400 + epochDay)
      unfold dateOf at low
      unfold Civil.Before at before
      dsimp only at before
      omega
    · by_contra late
      have := year_ge (not_lt.mp late)
      omega
  unfold formatTsForDb yearText
  rw [if_neg outside, List.cons_append]
  refine ⟨_, _, ?_, rfl⟩
  split
  · exact .inl rfl
  · exact .inr rfl

/-- It sorts before every text inside. -/
theorem format_lt_of_signed {second later : Int} (signed : ¬ Readable second) (readable : Readable later) :
    formatTsForDb second < formatTsForDb later := by
  have first : formatTsForDb later = digit ((dateOf later).year.toNat / 10 / 10 / 10 % 10) ::
      (formatTsForDb later).tail := by
    unfold formatTsForDb
    rw [yearText_readable readable]
    rfl
  obtain ⟨sign, rest, minus | plus, spelled⟩ := format_of_signed signed
  all_goals
    rw [spelled, first, List.cons_lt_cons_iff]
    refine .inl (lt_of_lt_of_le ?_ (digit_range _ (Nat.mod_lt _ (by decide))))
    subst sign
    decide

/-- It does not read back. -/
theorem parse_of_signed {second : Int} (signed : ¬ Readable second) : parseRfc3339 (formatTsForDb second) = none := by
  obtain ⟨sign, rest, minus | plus, spelled⟩ := format_of_signed signed
  all_goals
    subst sign
    rw [spelled]
    rfl

/-! ### The sweep -/

variable {U : Type u} {T : Type v} {S : Type w} [LinearOrder S]

/-- The order the sweep's query lists rows in: by text, equal texts by id. -/
def textBefore (left right : Deferred (MessageRow U T) T) : Prop :=
  formatTsForDb left.releaseAt < formatTsForDb right.releaseAt ∨
    (formatTsForDb left.releaseAt = formatTsForDb right.releaseAt ∧ left.id < right.id)

instance : DecidableRel (textBefore (U := U) (T := T)) := fun _ _ => inferInstanceAs (Decidable (_ ∨ _))

namespace DbChannel

variable (channel : DbChannel U T S)

/-- The rows whose text is at or before the text of `now`, as the query compares them. -/
def dueTexts (now : Int) : List (Deferred (MessageRow U T) T) :=
  orderBy textBefore ((channel.rows.filterMap MessageRow.parked).filter fun row =>
    decide (formatTsForDb row.releaseAt ≤ formatTsForDb now))

/-- Whether both times of a row read back, as `row_to_message_envelope` expects. -/
def readsBack (row : Deferred (MessageRow U T) T) : Bool :=
  (row.releaseAt :: row.message.deliveryDeadline.toList).all fun second =>
    (parseRfc3339 (formatTsForDb second)).isSome

/-- Neither time of a row lies past the year 9999. -/
def Dated (row : Deferred (MessageRow U T) T) : Prop :=
  (row.releaseAt : Int) < lastYear ∧ ∀ deadline ∈ row.message.deliveryDeadline, (deadline : Int) < lastYear

/-- The sweep over the stored texts. Every due row is read before any is released; `none` where one
    does not read back, on which the sweep panics and its transaction is rolled back. -/
def releaseDueTexts (now : Int) : Option (List (Retained (MessageEnvelope U T)) × DbChannel U T S) :=
  let due := channel.dueTexts now
  if due.all readsBack then some (releaseRows due channel) else none

variable {channel}

/-- No row of a readable time is due before it, whatever the clock says. -/
theorem dueTexts_due {now : Int} {row : Deferred (MessageRow U T) T} (due : row ∈ channel.dueTexts now)
    (readable : (row.releaseAt : Int) < lastYear) : (row.releaseAt : Int) ≤ now := by
  have stated : Readable (row.releaseAt : Int) := ⟨by unfold firstYear; omega, readable⟩
  obtain ⟨_, compared⟩ := List.mem_filter.mp (mem_orderBy.mp due)
  have compared := of_decide_eq_true compared
  by_cases clock : Readable now
  · exact (format_le_format stated clock).mp compared
  · exact absurd (format_lt_of_signed clock stated) (not_lt.mpr compared)

theorem waiting_dueTexts (ids : (channel.rows.map MessageRow.id).Nodup) (now : Int) :
    channel.Waiting (channel.dueTexts now) := by
  have waiting := waiting_deferredRows ids fun row => decide (formatTsForDb row.releaseAt ≤ formatTsForDb now)
  have same : (channel.dueTexts now).Perm
      (channel.deferredRows fun row => decide (formatTsForDb row.releaseAt ≤ formatTsForDb now)) :=
    (orderBy_perm _).trans (orderBy_perm _).symm
  exact ⟨fun entry listed => waiting.held entry (same.mem_iff.mp listed),
    (same.map Deferred.id).nodup_iff.mpr waiting.distinct⟩

theorem readsBack_of_dated {row : Deferred (MessageRow U T) T} (dated : Dated row) : readsBack row = true := by
  have reads : ∀ second : Nat, (second : Int) < lastYear → (parseRfc3339 (formatTsForDb second)).isSome = true := by
    intro second early
    rw [parse_format ⟨by unfold firstYear; omega, early⟩]
    rfl
  refine List.all_eq_true.mpr (List.forall_mem_cons.mpr ⟨reads _ dated.1, fun deadline stated => ?_⟩)
  exact reads _ (dated.2 deadline (Option.mem_toList.mp stated))

/-- A sweep over rows of readable times goes through. -/
theorem releaseDueTexts_eq_some (now : Int) (dated : ∀ row ∈ channel.parkedView, Dated row) :
    channel.releaseDueTexts now = some (releaseRows (channel.dueTexts now) channel) := by
  refine if_pos (List.all_eq_true.mpr fun row due => readsBack_of_dated (dated row ?_))
  exact mem_orderBy.mpr (List.mem_filter.mp (mem_orderBy.mp due)).1

/-- A parked row of an unreadable time is due at every readable instant, and stops the sweep. -/
theorem releaseDueTexts_eq_none {now : Int} {row : Deferred (MessageRow U T) T} (parked : row ∈ channel.parkedView)
    (far : lastYear ≤ (row.releaseAt : Int)) (readable : Readable now) : channel.releaseDueTexts now = none := by
  have signed : ¬ Readable (row.releaseAt : Int) := fun inside => absurd inside.2 (not_lt.mpr far)
  have due : row ∈ channel.dueTexts now := by
    refine mem_orderBy.mpr (List.mem_filter.mpr ⟨mem_orderBy.mp parked, ?_⟩)
    exact decide_eq_true (format_lt_of_signed signed readable).le
  refine if_neg fun all => ?_
  obtain ⟨read, -⟩ := List.forall_mem_cons.mp (List.all_eq_true.mp (List.all_eq_true.mp all row due))
  rw [parse_of_signed signed] at read
  cases read

/-- A parked row outlasts every sweep that comes before its readable time. -/
theorem Sound.stays_parked (sound : channel.Sound) {now : Int} {row : Deferred (MessageRow U T) T}
    (parked : row ∈ channel.parkedView) (readable : (row.releaseAt : Int) < lastYear) (early : now < row.releaseAt)
    {released : List (Retained (MessageEnvelope U T))} {next : DbChannel U T S}
    (swept : channel.releaseDueTexts now = some (released, next)) : row ∈ next.parkedView := by
  unfold releaseDueTexts at swept
  obtain ⟨-, swept⟩ := Option.ite_none_right_eq_some.mp swept
  obtain rfl : (DbChannel.releaseRows (channel.dueTexts now) channel).2 = next := congrArg Prod.snd (Option.some.inj swept)
  rw [sound.releaseRows_parkedView (waiting_dueTexts sound.ids now)]
  refine List.mem_filter.mpr ⟨parked, ?_⟩
  -- A due row of the same id would be this row.
  simp only [Bool.not_eq_true', List.contains_eq_mem, decide_eq_false_iff_not, List.mem_map]
  rintro ⟨other, due, same⟩
  have inside := (List.mem_filter.mp (mem_orderBy.mp due)).1
  obtain rfl : other = row := List.inj_on_of_nodup_map (parked_ids sound.ids) inside (mem_orderBy.mp parked) same
  exact absurd (dueTexts_due due readable) (not_le.mpr early)

end DbChannel

/-- A stored release time reads back exactly if it lies before the year 10000. Such texts compare as
    their seconds, no sweep releases such a message before its second, and a sweep over such rows
    alone goes through. Any other text sorts before all of them, and a sweep of a channel that
    holds it panics at every instant that is readable itself. -/
theorem schedule_released_on_time (release instant : Nat) (accepted : utcFromEpochMs release = some instant) :
    (parseRfc3339 (formatTsForDb (secondOf instant)) = some (secondOf release : Int) ↔
      (secondOf release : Int) < lastYear) ∧
    ((secondOf release : Int) < lastYear →
      (∀ other, (secondOf other : Int) < lastYear →
        (formatTsForDb (secondOf instant) < formatTsForDb (secondOf other) ↔ secondOf release < secondOf other) ∧
        (formatTsForDb (secondOf instant) = formatTsForDb (secondOf other) ↔ secondOf release = secondOf other)) ∧
      ∀ (channel : DbChannel U T S) (now : Int), channel.Sound → ∀ row ∈ channel.parkedView,
        row.releaseAt = secondOf instant →
          (row ∈ channel.dueTexts now → (secondOf release : Int) ≤ now) ∧
          (∀ released next, channel.releaseDueTexts now = some (released, next) → now < (secondOf release : Int) →
            row ∈ next.parkedView) ∧
          ((∀ other ∈ channel.parkedView, DbChannel.Dated other) →
            channel.releaseDueTexts now = some (DbChannel.releaseRows (channel.dueTexts now) channel))) ∧
    (lastYear ≤ (secondOf release : Int) →
      (∀ other, (secondOf other : Int) < lastYear →
        formatTsForDb (secondOf instant) < formatTsForDb (secondOf other)) ∧
      ∀ (channel : DbChannel U T S) (now : Int), Readable now → ∀ row ∈ channel.parkedView,
        row.releaseAt = secondOf instant → channel.releaseDueTexts now = none) := by
  obtain rfl : release = instant := Option.some.inj (Option.ite_none_right_eq_some.mp accepted).2
  have readable : ∀ second : Nat, (second : Int) < lastYear → Readable (second : Int) :=
    fun second early => ⟨by unfold firstYear; omega, early⟩
  refine ⟨⟨fun read => ?_, fun early => parse_format (readable _ early)⟩, fun early => ⟨fun other otherEarly => ?_, ?_⟩,
    fun far => ⟨fun other otherEarly => ?_, ?_⟩⟩
  · by_contra far
    rw [parse_of_signed fun inside => far inside.2] at read
    cases read
  · have own := readable _ early
    have others := readable _ otherEarly
    refine ⟨(format_lt_format own others).trans (by omega), ?_⟩
    rw [le_antisymm_iff, format_le_format own others, format_le_format others own]
    omega
  · intro channel now sound row parked stored
    rw [← stored] at early ⊢
    exact ⟨fun due => DbChannel.dueTexts_due due early,
      fun released next swept before => sound.stays_parked parked early before swept,
      DbChannel.releaseDueTexts_eq_some now⟩
  · exact format_lt_of_signed (fun inside => absurd inside.2 (not_lt.mpr far)) (readable _ otherEarly)
  · intro channel now clock row parked stored
    exact DbChannel.releaseDueTexts_eq_none parked (by rwa [stored]) clock

private def holding (releaseAt : Nat) : DbChannel Nat Nat Nat :=
  ((DbChannel.new 9 .unbounded).insertMessage 1 100 ⟨7, 0, .normal, none⟩ (some releaseAt)).2

/-- The last second of 9999, swept in 2026: it reads back and stays parked. -/
theorem last_schedule_on_time :
    parseRfc3339 (formatTsForDb (secondOf 253402300799999)) = some 253402300799 ∧
      ∃ row released next, row ∈ (holding 253402300799).parkedView ∧
        (holding 253402300799).releaseDueTexts 1795000000 = some (released, next) ∧ row ∈ next.parkedView := by
  have onTime := schedule_released_on_time (U := Nat) (T := Nat) (S := Nat) 253402300799999 253402300799999 (by decide)
  have sound : (holding 253402300799).Sound :=
    ((DbChannel.sound_new 9 .unbounded).insertParked (by simp [DbChannel.new]) _ _ _).1
  refine ⟨onTime.1.mpr (by decide), _, _, _, List.mem_singleton.mpr rfl, rfl, ?_⟩
  have kept := (onTime.2.1 (by decide)).2 (holding 253402300799) 1795000000 sound _ (List.mem_singleton.mpr rfl) rfl
  exact kept.2.1 _ _ rfl (by decide)

/-- The first second of the year 10000 is accepted, its text does not read back and sorts before the
    text of 1970. A sweep of 2026 panics on it, so that a message due on the same channel stays. -/
theorem far_schedule_stops_sweep :
    utcFromEpochMs 253402300800000 = some 253402300800000 ∧
      parseRfc3339 (formatTsForDb (secondOf 253402300800000)) = none ∧
      formatTsForDb (secondOf 253402300800000) < formatTsForDb (secondOf 0) ∧
      let channel := holding (secondOf 253402300800000)
      channel.releaseDueTexts 1795000000 = none ∧
        (channel.insertMessage 2 101 ⟨7, 0, .normal, none⟩ (some 100)).2.releaseDueTexts 1795000000 = none :=
  ⟨by decide, by decide +kernel, by decide +kernel, Option.isNone_iff_eq_none.mp (by decide +kernel),
    Option.isNone_iff_eq_none.mp (by decide +kernel)⟩

end Brenn.Store
