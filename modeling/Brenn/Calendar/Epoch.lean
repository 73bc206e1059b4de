import Brenn.Lib.Calendar
import Brenn.Lib.Decimal

/-!
Days since 1970 and civil dates, in closed form.

The conversions count years from March in eras of 400 years, in signed 64-bit arithmetic. Every
operation is checked here, so that a conversion that answers has not overflowed on the way. Both
directions are compared with the calendar of `Lib.Calendar`.
-/

namespace Brenn.Calendar
open Brenn.Lib

def u32Max : Nat := 2 ^ 32 - 1

/-- The value of a signed 64-bit operation, unless it overflows. -/
def i64 (value : Int) : Option Int := if -2 ^ 63 ≤ value ∧ value < 2 ^ 63 then some value else none

/-- An unsigned 64-bit value taken for a signed one. -/
def asI64 (value : Nat) : Int := (value : Int).bmod (2 ^ 64)

/-- A signed value taken for an unsigned 32-bit one. -/
def asU32 (value : Int) : Nat := (value % 2 ^ 32).toNat

def isLeapYear (year : Nat) : Bool := (year % 4 == 0 && !(year % 100 == 0)) || year % 400 == 0

def daysInMonth (year : Nat) : Nat → Option Nat
  | 1 | 3 | 5 | 7 | 8 | 10 | 12 => some 31
  | 4 | 6 | 9 | 11 => some 30
  | 2 => some (if isLeapYear year then 29 else 28)
  | _ => none

structure Ymd where
  year : Nat
  month : Nat
  day : Nat
  deriving Repr, DecidableEq

def daysFromEpoch (date : Ymd) : Option Int := do
  let y ← i64 (if date.month ≤ 2 then date.year - 1 else date.year)
  let m : Int := date.month
  let d : Int := date.day
  let era := y / 400
  let yoe := y % 400
  let doy ← i64 (m + if m > 2 then -3 else 9)
  let doy ← i64 (153 * doy)
  let doy ← i64 (doy + 2)
  let doy ← i64 (doy.tdiv 5 + d)
  let doy ← i64 (doy - 1)
  let doe ← i64 (yoe * 365)
  let doe ← i64 (doe + yoe.tdiv 4)
  let doe ← i64 (doe - yoe.tdiv 100)
  let doe ← i64 (doe + doy)
  let days ← i64 (era * 146097)
  let days ← i64 (days + doe)
  i64 (days - 719468)

def yearOfEra (dayOfEra : Int) : Option Int := do
  let days ← i64 (dayOfEra - dayOfEra.tdiv 1460)
  let days ← i64 (days + dayOfEra.tdiv 36524)
  let days ← i64 (days - dayOfEra.tdiv 146096)
  some (days.tdiv 365)

def dayOfYear (dayOfEra yearOfEra : Int) : Option Int := do
  let before ← i64 (365 * yearOfEra)
  let before ← i64 (before + yearOfEra.tdiv 4)
  let before ← i64 (before - yearOfEra.tdiv 100)
  i64 (dayOfEra - before)

def monthFromMarch (dayOfYear : Int) : Option (Int × Int) := do
  let scaled ← i64 (5 * dayOfYear)
  let scaled ← i64 (scaled + 2)
  let month := scaled.tdiv 153
  let start ← i64 (153 * month)
  let start ← i64 (start + 2)
  let day ← i64 (dayOfYear - start.tdiv 5)
  let day ← i64 (day + 1)
  some (month, day)

/-- The date of a day; a day before 1970 or past the last 32-bit year panics. -/
def daysToYmd (days : Int) : Option Ymd := do
  let last ← daysFromEpoch ⟨u32Max, 12, 31⟩
  if days < 0 ∨ days > last then none
  else
    let z ← i64 (days + 719468)
    let era := z.tdiv 146097
    let dayOfEra := z.tmod 146097
    let yearOfEra ← yearOfEra dayOfEra
    let dayOfYear ← dayOfYear dayOfEra yearOfEra
    let (monthFromMarch, day) ← monthFromMarch dayOfYear
    let month ← i64 (if monthFromMarch < 10 then monthFromMarch + 3 else monthFromMarch - 9)
    let eras ← i64 (era * 400)
    let year ← i64 (yearOfEra + eras)
    let year ← i64 (year + if month ≤ 2 then 1 else 0)
    if 0 ≤ year ∧ year ≤ u32Max then some ⟨year.toNat, asU32 month, asU32 day⟩ else none

structure SplitMs where
  date : Ymd
  hour : Nat
  min : Nat
  sec : Nat
  millis : Nat
  deriving Repr, DecidableEq

def splitMs (ms : Nat) : Option SplitMs := do
  let secs := ms / 1000
  let secOfDay := secs % 86400
  let date ← daysToYmd (asI64 (secs / 86400))
  some ⟨date, secOfDay / 3600, secOfDay % 3600 / 60, secOfDay % 60, ms % 1000⟩

def SplitMs.toSeconds (split : SplitMs) (rest : List Char) : List Char :=
  padded 4 split.date.year ++ '-' :: (padded 2 split.date.month ++ '-' :: (padded 2 split.date.day ++ 'T' ::
    (padded 2 split.hour ++ ':' :: (padded 2 split.min ++ ':' :: (padded 2 split.sec ++ rest)))))

def msToSentAt (ms : Nat) : Option (List Char) := do
  let split ← splitMs ms
  some (split.toSeconds ('.' :: (padded 3 split.millis ++ ['Z'])))

def msToRfc3339Seconds (ms : Nat) : Option (List Char) := do
  let split ← splitMs ms
  some (split.toSeconds ['Z'])

/-! ### Against the calendar -/

theorem i64_eq {value : Int} (low : -2 ^ 63 ≤ value) (high : value < 2 ^ 63) : i64 value = some value := if_pos ⟨low, high⟩

def Ymd.civil (date : Ymd) : Civil := ⟨date.year, date.month, date.day⟩

def Ymd.Fits (date : Ymd) : Prop := date.year ≤ u32Max ∧ date.month ≤ u32Max ∧ date.day ≤ u32Max

theorem daysFromEpoch_eq {date : Ymd} (fits : date.Fits) : daysFromEpoch date = some (daysOfCivil date.civil - 719468) := by
  obtain ⟨year, month, day⟩ := fits
  unfold u32Max at *
  unfold daysFromEpoch
  dsimp only
  have place : -1 ≤ (if date.month ≤ 2 then (date.year : Int) - 1 else date.year) ∧
      (if date.month ≤ 2 then (date.year : Int) - 1 else date.year) < 2 ^ 32 := by
    split <;> omega
  have shifted : ((date.month : Int) + if (date.month : Int) > 2 then -3 else 9) =
      if date.month ≤ 2 then (date.month : Int) + 9 else date.month - 3 := by
    split <;> split <;> omega
  have small : 0 ≤ (if date.month ≤ 2 then (date.month : Int) + 9 else date.month - 3) ∧
      (if date.month ≤ 2 then (date.month : Int) + 9 else date.month - 3) < 2 ^ 33 := by
    split <;> omega
  unfold daysOfCivil Ymd.civil daysBefore
  dsimp only
  rw [shifted]
  generalize (if date.month ≤ 2 then (date.year : Int) - 1 else date.year) = y at *
  generalize (if date.month ≤ 2 then (date.month : Int) + 9 else date.month - 3) = m at *
  simp (disch := omega) only [Option.bind_eq_bind, i64_eq, Option.bind_some, Int.tdiv_eq_ediv_of_nonneg]
  congr 1
  omega

/-- The year of the era, without dividing by years of two lengths. -/
theorem years_of_era {century four one day : Int} (centuries : 0 ≤ century ∧ century ≤ 3)
    (fours : 0 ≤ four ∧ four ≤ 24) (ones : 0 ≤ one ∧ one ≤ 3) (days : 0 ≤ day ∧ day ≤ 365)
    (leap : day = 365 → one = 3 ∧ (four < 24 ∨ century = 3)) {dayOfEra : Int}
    (placed : dayOfEra = 36524 * century + 1461 * four + 365 * one + day) :
    (dayOfEra - dayOfEra / 1460 + dayOfEra / 36524 - dayOfEra / 146096) / 365 = 100 * century + 4 * four + one := by
  have last : dayOfEra / 146096 = if dayOfEra = 146096 then 1 else 0 := by omega
  have hundreds : dayOfEra / 36524 = if dayOfEra = 146096 then 4 else century := by omega
  have quarters : dayOfEra / 1460 = 25 * century + four +
      if 1461 * four + 365 * one + day + 24 * century ≥ 1460 * (four + 1) then 1 else 0 := by
    omega
  omega

theorem yearOfEra_eq {dayOfEra : Int} (low : 0 ≤ dayOfEra) (high : dayOfEra < 146097) :
    yearOfEra dayOfEra =
      some ((dayOfEra - dayOfEra / 1460 + dayOfEra / 36524 - dayOfEra / 146096) / 365) := by
  unfold yearOfEra
  have fours : 0 ≤ dayOfEra / 1460 ∧ 1460 * (dayOfEra / 1460) ≤ dayOfEra := by omega
  have hundreds : 0 ≤ dayOfEra / 36524 ∧ dayOfEra / 36524 ≤ 4 := by omega
  have eras : 0 ≤ dayOfEra / 146096 ∧ 146096 * (dayOfEra / 146096) ≤ dayOfEra := by omega
  rw [Int.tdiv_eq_ediv_of_nonneg low, Int.tdiv_eq_ediv_of_nonneg low, Int.tdiv_eq_ediv_of_nonneg low]
  generalize dayOfEra / 1460 = four at *
  generalize dayOfEra / 36524 = hundred at *
  generalize dayOfEra / 146096 = era at *
  simp (disch := omega) only [Option.bind_eq_bind, Option.bind_some, i64_eq, Int.tdiv_eq_ediv_of_nonneg]

theorem dayOfYear_eq {century four one day : Int} (centuries : 0 ≤ century ∧ century ≤ 3)
    (fours : 0 ≤ four ∧ four ≤ 24) (ones : 0 ≤ one ∧ one ≤ 3) (days : 0 ≤ day ∧ day ≤ 365) :
    dayOfYear (36524 * century + 1461 * four + 365 * one + day) (100 * century + 4 * four + one) = some day := by
  unfold dayOfYear
  have quarters : (100 * century + 4 * four + one) / 4 = 25 * century + four := by omega
  have hundreds : (100 * century + 4 * four + one) / 100 = century := by omega
  simp (disch := omega) only [Option.bind_eq_bind, Option.bind_some, i64_eq, Int.tdiv_eq_ediv_of_nonneg]
  rw [quarters, hundreds]
  congr 1
  omega

theorem monthFromMarch_eq {day : Int} (low : 0 ≤ day) (high : day ≤ 365) :
    monthFromMarch day = some (monthOf day, day - (153 * monthOf day + 2) / 5 + 1) := by
  unfold monthFromMarch monthOf
  simp (disch := omega) only [Option.bind_eq_bind, Option.bind_some, i64_eq, Int.tdiv_eq_ediv_of_nonneg]

/-- The last day of the last 32-bit year. -/
def lastDay : Int := 1568703873081

theorem daysFromEpoch_last : daysFromEpoch ⟨u32Max, 12, 31⟩ = some lastDay := by decide +kernel

theorem year_range {days : Int} (low : 0 ≤ days) (high : days ≤ lastDay) :
    1970 ≤ (civilOfDays (days + 719468)).year ∧ (civilOfDays (days + 719468)).year ≤ u32Max := by
  have first : civilOfDays (0 + 719468) = ⟨1970, 1, 1⟩ := by decide
  have last : civilOfDays (lastDay + 719468) = ⟨u32Max, 12, 31⟩ := by decide
  constructor
  · by_contra early
    have before : (civilOfDays (days + 719468)).Before (civilOfDays (0 + 719468)) := by
      rw [first]
      exact .inl (not_le.mp early)
    have := civilOfDays_before.mp before
    omega
  · by_contra late
    have before : (civilOfDays (lastDay + 719468)).Before (civilOfDays (days + 719468)) := by
      rw [last]
      exact .inl (not_le.mp late)
    have := civilOfDays_before.mp before
    omega

/-- Within its range a day has the date the calendar gives it. -/
theorem daysToYmd_eq {days : Int} (low : 0 ≤ days) (high : days ≤ lastDay) :
    ∃ date, daysToYmd days = some date ∧ date.civil = civilOfDays (days + 719468) := by
  have years := year_range low high
  obtain ⟨era, century, four, one, centuries, fours, ones, year, whole, first, last, leap⟩ := marchDate_digits (days + 719468)
  obtain ⟨months, months', early, late⟩ := monthOf_range first last
  have eras : (days + 719468) / 146097 = era := by omega
  have inEra : (days + 719468) % 146097 = 36524 * century + 1461 * four + 365 * one + (marchDate (days + 719468)).day := by
    omega
  have inYear : yearOfEra ((days + 719468) % 146097) = some (100 * century + 4 * four + one) := by
    rw [yearOfEra_eq (by omega) (by omega), years_of_era centuries fours ones ⟨first, last⟩ leap inEra]
  have dated : civilOfDays (days + 719468) = civilOf ⟨400 * era + 100 * century + 4 * four + one, (marchDate (days + 719468)).day⟩ := by
    rw [civilOfDays, ← year]
  unfold daysToYmd
  rw [daysFromEpoch_last]
  simp only [Option.bind_eq_bind, Option.bind_some]
  unfold lastDay at *
  rw [if_neg (by omega), i64_eq (by omega) (by omega)]
  simp only [Option.bind_some]
  rw [Int.tdiv_eq_ediv_of_nonneg (by omega), Int.tmod_eq_emod_of_nonneg (by omega), inYear, Option.bind_some, inEra, eras,
    dayOfYear_eq centuries fours ones ⟨first, last⟩, Option.bind_some, monthFromMarch_eq first last]
  simp only [Option.bind_some]
  rw [dated] at years ⊢
  unfold civilOf u32Max at years
  unfold civilOf u32Max
  dsimp only at years ⊢
  generalize (marchDate (days + 719468)).day - (153 * monthOf (marchDate (days + 719468)).day + 2) / 5 + 1 = day at *
  generalize monthOf (marchDate (days + 719468)).day = month at *
  have whole : ∀ civilMonth : Int, 0 ≤ civilMonth → civilMonth ≤ 31 → asU32 civilMonth = civilMonth.toNat := by
    intro civilMonth low high
    unfold asU32
    omega
  by_cases sameYear : month < 10
  · rw [if_pos sameYear, i64_eq (by omega) (by omega)]
    rw [if_pos sameYear] at years ⊢
    dsimp only at years
    simp only [Option.bind_some]
    rw [if_neg (by omega), i64_eq (by omega) (by omega), Option.bind_some, i64_eq (by omega) (by omega), Option.bind_some,
      i64_eq (by omega) (by omega), Option.bind_some, if_pos (by omega), whole _ (by omega) (by omega), whole _ (by omega) late]
    refine ⟨_, rfl, ?_⟩
    rw [Ymd.civil]
    congr 1
    dsimp only
    omega
  · rw [if_neg sameYear, i64_eq (by omega) (by omega)]
    rw [if_neg sameYear] at years ⊢
    dsimp only at years
    simp only [Option.bind_some]
    rw [if_pos (by omega), i64_eq (by omega) (by omega), Option.bind_some, i64_eq (by omega) (by omega), Option.bind_some,
      i64_eq (by omega) (by omega), Option.bind_some, if_pos (by omega), whole _ (by omega) (by omega), whole _ (by omega) late]
    refine ⟨_, rfl, ?_⟩
    rw [Ymd.civil]
    congr 1
    dsimp only
    omega

/-! ### Dates -/

namespace Ymd

def Valid (date : Ymd) : Prop :=
  date.year ≤ u32Max ∧ ∃ length, daysInMonth date.year date.month = some length ∧ 1 ≤ date.day ∧ date.day ≤ length

def successor (date : Ymd) : Ymd :=
  if date.day < (daysInMonth date.year date.month).getD 0 then { date with day := date.day + 1 }
  else if date.month < 12 then ⟨date.year, date.month + 1, 1⟩ else ⟨date.year + 1, 1, 1⟩

theorem isLeapYear_eq (year : Nat) : isLeapYear year = leap year := by
  unfold isLeapYear leap
  rw [Bool.eq_iff_iff]
  simp
  omega

theorem monthLength_eq (year month : Nat) : monthLength year month = (daysInMonth year month).getD 0 := by
  fun_cases daysInMonth year month <;> simp [monthLength, isLeapYear_eq, *]

variable {date : Ymd}

theorem valid_iff : date.Valid ↔ date.year ≤ u32Max ∧ date.civil.Valid := by
  unfold Valid Civil.Valid civil
  dsimp only
  rw [monthLength_eq]
  cases daysInMonth date.year date.month with
  | none => exact ⟨fun valid => absurd valid.2 (by simp), fun valid => absurd valid.2 (by simp; omega)⟩
  | some length => simp

theorem civil_successor : date.successor.civil = date.civil.next := by
  unfold successor Civil.next civil
  dsimp only
  rw [monthLength_eq]
  split
  · rfl
  · split <;> rfl

theorem Valid.range (valid : date.Valid) :
    date.year ≤ u32Max ∧ (1 ≤ date.month ∧ date.month ≤ 12) ∧ 1 ≤ date.day ∧ date.day ≤ 31 := by
  obtain ⟨year, civil⟩ := valid_iff.mp valid
  have most : monthLength date.civil.year date.civil.month ≤ 31 := by
    unfold monthLength
    split <;> first | decide | (split <;> decide)
  exact ⟨year, civil.month, civil.1, civil.2.trans most⟩

theorem Valid.fits (valid : date.Valid) : date.Fits := by
  obtain ⟨year, ⟨-, month⟩, -, day⟩ := valid.range
  exact ⟨year, month.trans (by decide), day.trans (by decide)⟩

theorem civil_inj {other : Ymd} (same : date.civil = other.civil) : date = other := by
  obtain ⟨year, month, day⟩ := date
  obtain ⟨year', month', day'⟩ := other
  obtain ⟨years, months, days⟩ := Civil.mk.inj same
  have sameYear : year = year' := Int.ofNat_inj.mp years
  exact sameYear ▸ congrArg₂ (Ymd.mk year) months days

end Ymd

/-- Every day within range has a date, of which it is the day. -/
theorem daysToYmd_valid {days : Int} (low : 0 ≤ days) (high : days ≤ lastDay) :
    ∃ date, daysToYmd days = some date ∧ date.Valid ∧ daysFromEpoch date = some days := by
  obtain ⟨date, converted, same⟩ := daysToYmd_eq low high
  have valid : date.Valid := by
    rw [Ymd.valid_iff, same]
    refine ⟨?_, civilOfDays_valid _⟩
    have year := (year_range low high).2
    rw [← same] at year
    exact Int.ofNat_le.mp year
  refine ⟨date, converted, valid, ?_⟩
  rw [daysFromEpoch_eq valid.fits, same, daysOfCivil_civilOfDays, Int.add_sub_cancel]

theorem Ymd.Valid.daysToYmd {date : Ymd} (valid : date.Valid) (recent : 1970 ≤ date.year) :
    ∃ days, daysFromEpoch date = some days ∧ daysToYmd days = some date := by
  obtain ⟨year, month, day⟩ := valid.range
  have onCalendar : civilOfDays (daysOfCivil date.civil) = date.civil := (valid_iff.mp valid).2.onCalendar
  have first : civilOfDays 719468 = ⟨1970, 1, 1⟩ := by decide
  have last : civilOfDays (lastDay + 719468) = ⟨u32Max, 12, 31⟩ := by decide
  have low : 719468 ≤ daysOfCivil date.civil := by
    by_contra early
    have before := civilOfDays_before.mpr (not_le.mp early)
    rw [onCalendar, first] at before
    unfold Civil.Before civil at before
    dsimp only at before
    omega
  have high : daysOfCivil date.civil ≤ lastDay + 719468 := by
    by_contra late
    have before := civilOfDays_before.mpr (not_le.mp late)
    rw [onCalendar, last] at before
    unfold Civil.Before civil at before
    dsimp only at before
    omega
  refine ⟨_, daysFromEpoch_eq valid.fits, ?_⟩
  obtain ⟨other, converted, same⟩ := daysToYmd_eq (Int.sub_nonneg_of_le low) (Int.sub_right_le_of_le_add high)
  rw [Int.sub_add_cancel, onCalendar] at same
  rw [converted, civil_inj same]

theorem Ymd.Valid.successor {date : Ymd} (valid : date.Valid) (fits : date.successor.year ≤ u32Max) :
    ∃ days, daysFromEpoch date = some days ∧ daysFromEpoch date.successor = some (days + 1) := by
  obtain ⟨next, later⟩ := daysOfCivil_next (valid_iff.mp valid).2
  rw [← civil_successor] at next later
  have following : date.successor.Valid := valid_iff.mpr ⟨fits, next⟩
  refine ⟨_, daysFromEpoch_eq valid.fits, ?_⟩
  rw [daysFromEpoch_eq following.fits, later]
  congr 1
  omega

/-! ### Texts -/

/-- Every 64-bit count of milliseconds is split into its date and its time of day. -/
theorem splitMs_eq {ms : Nat} (fits : ms < 2 ^ 64) : ∃ date : Ymd, date.Valid ∧
    date.civil = civilOfDays ((ms / 1000 / 86400 : Nat) + 719468) ∧
    splitMs ms = some ⟨date, ms / 1000 % 86400 / 3600, ms / 1000 % 86400 % 3600 / 60, ms / 1000 % 86400 % 60, ms % 1000⟩ := by
  have days : asI64 (ms / 1000 / 86400) = (ms / 1000 / 86400 : Nat) := by
    unfold asI64
    rw [Int.bmod_eq_of_le] <;> omega
  have high : ((ms / 1000 / 86400 : Nat) : Int) ≤ lastDay := by
    unfold lastDay
    omega
  obtain ⟨date, converted, valid, -⟩ := daysToYmd_valid (Int.natCast_nonneg _) high
  obtain ⟨other, again, same⟩ := daysToYmd_eq (Int.natCast_nonneg _) high
  obtain rfl : other = date := Option.some.inj (again.symm.trans converted)
  refine ⟨other, valid, same, ?_⟩
  unfold splitMs
  dsimp only
  rw [days, converted]
  rfl

/-- The text of a date with a year of four digits and a time of day. -/
def sentAtText (date : Ymd) (ms : Nat) : List Char :=
  fixed 4 date.year ++ '-' :: (fixed 2 date.month ++ '-' :: (fixed 2 date.day ++ 'T' ::
    (fixed 2 (ms / 1000 % 86400 / 3600) ++ ':' :: (fixed 2 (ms / 1000 % 86400 % 3600 / 60) ++ ':' ::
      (fixed 2 (ms / 1000 % 86400 % 60) ++ '.' :: (fixed 3 (ms % 1000) ++ ['Z']))))))

theorem length_sentAtText (date : Ymd) (ms : Nat) : (sentAtText date ms).length = 24 := by
  simp [sentAtText]

theorem sentAtText_ascii (date : Ymd) (ms : Nat) : ∀ c ∈ sentAtText date ms, c.toNat < 128 := by
  unfold sentAtText
  simp only [List.forall_mem_append, List.forall_mem_cons]
  refine ⟨fixed_ascii, by decide, fixed_ascii, by decide, fixed_ascii, by decide, fixed_ascii, by decide, fixed_ascii,
    by decide, fixed_ascii, by decide, fixed_ascii, by decide, nofun⟩

theorem msToSentAt_eq {ms : Nat} {split : SplitMs} (fits : ms < 2 ^ 64) (split_eq : splitMs ms = some split)
    (fourDigits : split.date.year < 10000) : msToSentAt ms = some (sentAtText split.date ms) := by
  obtain ⟨date, valid, -, again⟩ := splitMs_eq fits
  obtain rfl := Option.some.inj (split_eq.symm.trans again)
  obtain ⟨-, month, day⟩ := valid.range
  dsimp only at fourDigits
  unfold msToSentAt SplitMs.toSeconds sentAtText
  rw [split_eq]
  simp (disch := omega) only [Option.bind_eq_bind, Option.bind_some, padded_eq_fixed]

/-- Texts of years of four digits sort as their instants. -/
theorem sentAtText_lt {ms later : Nat} {date date' : Ymd} (valid : date.Valid) (valid' : date'.Valid)
    (fourDigits : date.year < 10000) (fourDigits' : date'.year < 10000)
    (dated : date.civil = civilOfDays ((ms / 1000 / 86400 : Nat) + 719468))
    (dated' : date'.civil = civilOfDays ((later / 1000 / 86400 : Nat) + 719468)) :
    sentAtText date ms < sentAtText date' later ↔ ms < later := by
  obtain ⟨-, month, day⟩ := valid.range
  obtain ⟨-, month', day'⟩ := valid'.range
  have before : date.civil.Before date'.civil ↔ ms / 1000 / 86400 < later / 1000 / 86400 := by
    rw [dated, dated', civilOfDays_before]
    omega
  have after : date'.civil.Before date.civil ↔ later / 1000 / 86400 < ms / 1000 / 86400 := by
    rw [dated, dated', civilOfDays_before]
    omega
  unfold sentAtText
  rw [field_lt_field (by omega) (by omega), field_lt_field (by omega) (by omega), field_lt_field (by omega) (by omega),
    field_lt_field (by omega) (by omega), field_lt_field (by omega) (by omega), field_lt_field (by omega) (by omega),
    field_lt_field (by omega) (by omega)]
  simp only [lt_irrefl, and_false, or_false]
  -- The dates decide unless the days are the same, and then the time of day does.
  have timed : (ms / 1000 % 86400 / 3600 < later / 1000 % 86400 / 3600 ∨
      ms / 1000 % 86400 / 3600 = later / 1000 % 86400 / 3600 ∧
        (ms / 1000 % 86400 % 3600 / 60 < later / 1000 % 86400 % 3600 / 60 ∨
          ms / 1000 % 86400 % 3600 / 60 = later / 1000 % 86400 % 3600 / 60 ∧
            (ms / 1000 % 86400 % 60 < later / 1000 % 86400 % 60 ∨
              ms / 1000 % 86400 % 60 = later / 1000 % 86400 % 60 ∧ ms % 1000 < later % 1000))) ↔
      ms % 86400000 < later % 86400000 := by
    omega
  have whole : ms / 1000 / 86400 = ms / 86400000 ∧ later / 1000 / 86400 = later / 86400000 := by omega
  rw [timed]
  rw [whole.1, whole.2] at before after
  unfold Civil.Before Ymd.civil at before after
  dsimp only at before after
  clear dated dated' timed whole
  omega

/-- Days and dates correspond over the whole range, a date's successor is a day later, no conversion of a
    64-bit time panics or overflows, and the texts of four-digit years have one width and sort bytewise
    in the order of time. -/
theorem conversions_exact :
    (∃ last, daysFromEpoch ⟨u32Max, 12, 31⟩ = some last ∧ ∀ days, 0 ≤ days → days ≤ last →
      ∃ date, daysToYmd days = some date ∧ date.Valid ∧ daysFromEpoch date = some days) ∧
    (∀ date : Ymd, date.Valid → 1970 ≤ date.year → ∃ days, daysFromEpoch date = some days ∧ daysToYmd days = some date) ∧
    (∀ date : Ymd, date.Valid → date.successor.year ≤ u32Max →
      ∃ days, daysFromEpoch date = some days ∧ daysFromEpoch date.successor = some (days + 1)) ∧
    (∀ date : Ymd, date.Fits → (daysFromEpoch date).isSome) ∧
    (∀ ms < 2 ^ 64, (splitMs ms).isSome ∧ (msToSentAt ms).isSome ∧ (msToRfc3339Seconds ms).isSome) ∧
    ∀ ms < 2 ^ 64, ∀ split, splitMs ms = some split → split.date.year < 10000 →
      ∃ text, msToSentAt ms = some text ∧ text.length = 24 ∧
        ∀ later < 2 ^ 64, ∀ split', splitMs later = some split' → split'.date.year < 10000 →
          ∃ text', msToSentAt later = some text' ∧ (utf8 text < utf8 text' ↔ ms < later) := by
  refine ⟨⟨lastDay, daysFromEpoch_last, fun days => daysToYmd_valid⟩, fun date => Ymd.Valid.daysToYmd,
    fun date => Ymd.Valid.successor, fun date fits => ?_, fun ms fits => ?_, fun ms fits split split_eq fourDigits => ?_⟩
  · rw [daysFromEpoch_eq fits]
    rfl
  · obtain ⟨date, -, -, split⟩ := splitMs_eq fits
    unfold msToSentAt msToRfc3339Seconds
    rw [split]
    exact ⟨rfl, rfl, rfl⟩
  · refine ⟨_, msToSentAt_eq fits split_eq fourDigits, length_sentAtText _ _, ?_⟩
    intro later fits' split' split_eq' fourDigits'
    refine ⟨_, msToSentAt_eq fits' split_eq' fourDigits', ?_⟩
    obtain ⟨date, valid, dated, again⟩ := splitMs_eq fits
    obtain ⟨date', valid', dated', again'⟩ := splitMs_eq fits'
    obtain rfl := Option.some.inj (split_eq.symm.trans again)
    obtain rfl := Option.some.inj (split_eq'.symm.trans again')
    rw [utf8_lt_utf8 (sentAtText_ascii _ _) (sentAtText_ascii _ _)]
    exact sentAtText_lt valid valid' fourDigits fourDigits' dated dated'

end Brenn.Calendar
