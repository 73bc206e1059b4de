import Mathlib

/-!
The proleptic Gregorian calendar over integer day numbers.

Years run from March, so that a leap day is the last day of its year and the days of a
year number are a mixed radix of 400, 100, 4 and 1 years. Days and their civil dates correspond,
and earlier days have smaller dates.
-/

namespace Brenn.Lib

/-! ### Years from March -/

/-- A day by the year from March it lies in and its place there. -/
structure MarchDate where
  year : Int
  day : Int
  deriving Repr, DecidableEq

/-- Days from 0000-03-01 to the first of March of a year. -/
def daysBefore (year : Int) : Int := 365 * year + year / 4 - year / 100 + year / 400

/-- The date of a day counted from 0000-03-01. -/
def marchDate (days : Int) : MarchDate :=
  let era := days / 146097
  let inEra := days % 146097
  let century := min (inEra / 36524) 3
  let inCentury := inEra - 36524 * century
  let four := inCentury / 1461
  let inFour := inCentury % 1461
  let one := min (inFour / 365) 3
  ⟨400 * era + 100 * century + 4 * four + one, inFour - 365 * one⟩

/-- The digits of a day in the radix of 400, 100, 4 and 1 years. -/
theorem marchDate_digits (days : Int) : ∃ era century four one : Int,
    (0 ≤ century ∧ century ≤ 3) ∧ (0 ≤ four ∧ four ≤ 24) ∧ (0 ≤ one ∧ one ≤ 3) ∧
    (marchDate days).year = 400 * era + 100 * century + 4 * four + one ∧
    days = 146097 * era + 36524 * century + 1461 * four + 365 * one + (marchDate days).day ∧
    0 ≤ (marchDate days).day ∧ (marchDate days).day ≤ 365 ∧
    ((marchDate days).day = 365 → one = 3 ∧ (four < 24 ∨ century = 3)) := by
  refine ⟨days / 146097, min (days % 146097 / 36524) 3, (days % 146097 - 36524 * min (days % 146097 / 36524) 3) / 1461,
    min ((days % 146097 - 36524 * min (days % 146097 / 36524) 3) % 1461 / 365) 3, ?_⟩
  simp only [marchDate]
  generalize inEra : days % 146097 = rest
  have range : 0 ≤ rest ∧ rest < 146097 := by omega
  have whole : days = 146097 * (days / 146097) + rest := by omega
  generalize days / 146097 = era at whole ⊢
  generalize century : min (rest / 36524) 3 = c
  have centuries : 0 ≤ c ∧ c ≤ 3 ∧ 36524 * c ≤ rest ∧ (c < 3 → rest < 36524 * (c + 1)) := by omega
  generalize inCentury : rest - 36524 * c = r
  have left : 0 ≤ r ∧ r ≤ 36524 ∧ (c < 3 → r < 36524) := by omega
  generalize fours : r / 1461 = f
  generalize inFour : r % 1461 = q
  have parts : r = 1461 * f + q ∧ 0 ≤ q ∧ q < 1461 := by omega
  generalize ones : min (q / 365) 3 = o
  have years : 0 ≤ o ∧ o ≤ 3 ∧ 365 * o ≤ q ∧ (o < 3 → q < 365 * (o + 1)) := by omega
  refine ⟨by omega, by omega, by omega, trivial, by omega, by omega, by omega, fun last => ?_⟩
  omega

/-- The days before a year are its digits at their weights. -/
theorem daysBefore_digits {era century four one : Int} (centuries : 0 ≤ century ∧ century ≤ 3)
    (fours : 0 ≤ four ∧ four ≤ 24) (ones : 0 ≤ one ∧ one ≤ 3) :
    daysBefore (400 * era + 100 * century + 4 * four + one) =
      146097 * era + 36524 * century + 1461 * four + 365 * one := by
  have quarters : (400 * era + 100 * century + 4 * four + one) / 4 = 100 * era + 25 * century + four := by omega
  have hundreds : (400 * era + 100 * century + 4 * four + one) / 100 = 4 * era + century := by omega
  have eras : (400 * era + 100 * century + 4 * four + one) / 400 = era := by omega
  rw [daysBefore, quarters, hundreds, eras]
  ring

theorem days_marchDate (days : Int) : daysBefore (marchDate days).year + (marchDate days).day = days := by
  obtain ⟨era, century, four, one, centuries, fours, ones, year, whole, _⟩ := marchDate_digits days
  rw [year, daysBefore_digits centuries fours ones]
  exact whole.symm

theorem marchDate_range (days : Int) : 0 ≤ (marchDate days).day ∧ (marchDate days).day ≤ 365 := by
  obtain ⟨_, _, _, _, _, _, _, _, _, low, high, _⟩ := marchDate_digits days
  exact ⟨low, high⟩

/-- The days before the next year: its digits are one more, with the carries. -/
theorem daysBefore_next {era century four one : Int} (centuries : 0 ≤ century ∧ century ≤ 3)
    (fours : 0 ≤ four ∧ four ≤ 24) (ones : 0 ≤ one ∧ one ≤ 3) :
    daysBefore (400 * era + 100 * century + 4 * four + one) + 365 +
        (if one = 3 ∧ (four < 24 ∨ century = 3) then 1 else 0) =
      daysBefore (400 * era + 100 * century + 4 * four + one + 1) := by
  rw [daysBefore_digits centuries fours ones]
  by_cases lastOne : one = 3
  · subst lastOne
    by_cases lastFour : four = 24
    · subst lastFour
      by_cases lastCentury : century = 3
      · subst lastCentury
        rw [if_pos (by omega), show 400 * era + 100 * 3 + 4 * 24 + 3 + 1 = 400 * (era + 1) + 100 * 0 + 4 * 0 + 0 by ring,
          daysBefore_digits (by omega) (by omega) (by omega)]
        ring
      · rw [if_neg (by omega),
          show 400 * era + 100 * century + 4 * 24 + 3 + 1 = 400 * era + 100 * (century + 1) + 4 * 0 + 0 by ring,
          daysBefore_digits (by omega) (by omega) (by omega)]
        ring
    · rw [if_pos (by omega),
        show 400 * era + 100 * century + 4 * four + 3 + 1 = 400 * era + 100 * century + 4 * (four + 1) + 0 by ring,
        daysBefore_digits centuries (by omega) (by omega)]
      ring
  · rw [if_neg (by omega),
      show 400 * era + 100 * century + 4 * four + one + 1 = 400 * era + 100 * century + 4 * four + (one + 1) by ring,
      daysBefore_digits centuries fours (by omega)]
    ring

theorem days_lt_next (days : Int) : days < daysBefore ((marchDate days).year + 1) := by
  obtain ⟨era, century, four, one, centuries, fours, ones, year, _, low, high, leap⟩ := marchDate_digits days
  have here := days_marchDate days
  rw [year] at here ⊢
  rw [← daysBefore_next centuries fours ones]
  split
  · omega
  next common =>
    have short : (marchDate days).day ≠ 365 := fun last => common (leap last)
    omega

theorem daysBefore_mono {earlier later : Int} (before : earlier ≤ later) : daysBefore earlier ≤ daysBefore later := by
  unfold daysBefore
  omega

theorem marchDate_lt {days later : Int} : days < later ↔ (marchDate days).year < (marchDate later).year ∨
    ((marchDate days).year = (marchDate later).year ∧ (marchDate days).day < (marchDate later).day) := by
  have here := days_marchDate days
  have there := days_marchDate later
  have next := days_lt_next days
  have next' := days_lt_next later
  have low := (marchDate_range days).1
  have low' := (marchDate_range later).1
  rcases lt_trichotomy (marchDate days).year (marchDate later).year with before | same | after
  · have years := daysBefore_mono (show (marchDate days).year + 1 ≤ (marchDate later).year by omega)
    exact ⟨fun _ => .inl before, fun _ => by omega⟩
  · rw [same] at here
    exact ⟨fun _ => .inr ⟨same, by omega⟩, fun _ => by omega⟩
  · have years := daysBefore_mono (show (marchDate later).year + 1 ≤ (marchDate days).year by omega)
    exact ⟨fun _ => by omega, fun _ => by omega⟩

/-! ### Civil dates -/

structure Civil where
  year : Int
  month : Nat
  day : Nat
  deriving Repr, DecidableEq

/-- Months from March, whose lengths repeat every five. -/
def monthOf (day : Int) : Int := (5 * day + 2) / 153

def civilOf (date : MarchDate) : Civil :=
  let month := monthOf date.day
  let day := date.day - (153 * month + 2) / 5 + 1
  if month < 10 then ⟨date.year, (month + 3).toNat, day.toNat⟩ else ⟨date.year + 1, (month - 9).toNat, day.toNat⟩

/-- The date of a day counted from 0000-03-01. -/
def civilOfDays (days : Int) : Civil := civilOf (marchDate days)

def daysOfCivil (civil : Civil) : Int :=
  let year := if civil.month ≤ 2 then civil.year - 1 else civil.year
  let month : Int := if civil.month ≤ 2 then civil.month + 9 else civil.month - 3
  daysBefore year + ((153 * month + 2) / 5 + civil.day - 1)

def OnCalendar (civil : Civil) : Prop := civilOfDays (daysOfCivil civil) = civil

instance (civil : Civil) : Decidable (OnCalendar civil) := inferInstanceAs (Decidable (_ = _))

theorem monthOf_range {day : Int} (low : 0 ≤ day) (high : day ≤ 365) :
    0 ≤ monthOf day ∧ monthOf day ≤ 11 ∧ 1 ≤ day - (153 * monthOf day + 2) / 5 + 1 ∧
      day - (153 * monthOf day + 2) / 5 + 1 ≤ 31 := by
  unfold monthOf
  omega

theorem civilOfDays_range (days : Int) : 1 ≤ (civilOfDays days).month ∧ (civilOfDays days).month ≤ 12 ∧
    1 ≤ (civilOfDays days).day ∧ (civilOfDays days).day ≤ 31 := by
  obtain ⟨low, high⟩ := marchDate_range days
  have months := monthOf_range low high
  unfold civilOfDays civilOf
  dsimp only
  split <;> dsimp only <;> omega

theorem daysOfCivil_civilOfDays (days : Int) : daysOfCivil (civilOfDays days) = days := by
  obtain ⟨low, high⟩ := marchDate_range days
  obtain ⟨first, last, early, late⟩ := monthOf_range low high
  have whole := days_marchDate days
  unfold civilOfDays civilOf daysOfCivil
  generalize (marchDate days).year = year at *
  generalize (marchDate days).day = day at *
  generalize monthOf day = month at *
  dsimp only
  split
  · dsimp only
    rw [if_neg (by omega), if_neg (by omega)]
    omega
  · dsimp only
    rw [if_pos (by omega), if_pos (by omega), Int.add_sub_cancel]
    omega

theorem onCalendar_civilOfDays (days : Int) : OnCalendar (civilOfDays days) := by
  unfold OnCalendar
  rw [daysOfCivil_civilOfDays]

/-- Earlier in the calendar: by year, then month, then day. -/
def Civil.Before (earlier later : Civil) : Prop :=
  earlier.year < later.year ∨ (earlier.year = later.year ∧
    (earlier.month < later.month ∨ (earlier.month = later.month ∧ earlier.day < later.day)))

theorem civilOfDays_before {days later : Int} : (civilOfDays days).Before (civilOfDays later) ↔ days < later := by
  rw [marchDate_lt]
  obtain ⟨low, high⟩ := marchDate_range days
  obtain ⟨low', high'⟩ := marchDate_range later
  have months := monthOf_range low high
  have months' := monthOf_range low' high'
  have ordered : (marchDate days).day < (marchDate later).day ↔
      monthOf (marchDate days).day < monthOf (marchDate later).day ∨
      (monthOf (marchDate days).day = monthOf (marchDate later).day ∧
        (marchDate days).day - (153 * monthOf (marchDate days).day + 2) / 5 + 1 <
          (marchDate later).day - (153 * monthOf (marchDate later).day + 2) / 5 + 1) := by
    unfold monthOf
    omega
  rw [ordered]
  unfold civilOfDays civilOf Civil.Before
  dsimp only
  generalize (marchDate days).year = year at *
  generalize (marchDate later).year = year' at *
  generalize (marchDate days).day - (153 * monthOf (marchDate days).day + 2) / 5 + 1 = inMonth at *
  generalize (marchDate later).day - (153 * monthOf (marchDate later).day + 2) / 5 + 1 = inMonth' at *
  generalize monthOf (marchDate days).day = month at *
  generalize monthOf (marchDate later).day = month' at *
  obtain ⟨m, rfl⟩ := Int.eq_ofNat_of_zero_le months.1
  obtain ⟨m', rfl⟩ := Int.eq_ofNat_of_zero_le months'.1
  obtain ⟨d, rfl⟩ := Int.eq_ofNat_of_zero_le (show 0 ≤ inMonth by omega)
  obtain ⟨d', rfl⟩ := Int.eq_ofNat_of_zero_le (show 0 ≤ inMonth' by omega)
  clear ordered
  split <;> split <;> dsimp only <;> omega

/-! ### Lengths of years and months -/

def leap (year : Int) : Bool := (year % 4 == 0 && year % 100 != 0) || year % 400 == 0

/-- A year from March has the leap day of the civil year it ends in. -/
theorem daysBefore_succ (year : Int) :
    daysBefore (year + 1) = daysBefore year + 365 + if leap (year + 1) then 1 else 0 := by
  have quarters : (year + 1) / 4 = year / 4 + if (year + 1) % 4 = 0 then 1 else 0 := by omega
  have hundreds : (year + 1) / 100 = year / 100 + if (year + 1) % 100 = 0 then 1 else 0 := by omega
  have eras : (year + 1) / 400 = year / 400 + if (year + 1) % 400 = 0 then 1 else 0 := by omega
  have coarser : ((year + 1) % 400 = 0 → (year + 1) % 100 = 0) ∧ ((year + 1) % 100 = 0 → (year + 1) % 4 = 0) := by omega
  unfold daysBefore leap
  rw [quarters, hundreds, eras]
  generalize (year + 1) % 4 = four at *
  generalize (year + 1) % 100 = hundred at *
  generalize (year + 1) % 400 = era at *
  by_cases inEra : era = 0
  · have hundredth := coarser.1 inEra
    have fourth := coarser.2 hundredth
    simp [inEra, hundredth, fourth]
    ring
  · by_cases inHundred : hundred = 0
    · simp [inEra, inHundred, coarser.2 inHundred]
      ring
    · by_cases inFour : four = 0
      · simp [inEra, inHundred, inFour]
        ring
      · simp [inEra, inHundred, inFour]
        ring

/-- The days between two firsts of March have the year between them. -/
theorem marchDate_of_between {year day : Int} (low : 0 ≤ day) (high : daysBefore year + day < daysBefore (year + 1)) :
    marchDate (daysBefore year + day) = ⟨year, day⟩ := by
  have here := days_marchDate (daysBefore year + day)
  have next := days_lt_next (daysBefore year + day)
  have first := (marchDate_range (daysBefore year + day)).1
  have same : (marchDate (daysBefore year + day)).year = year := by
    rcases lt_trichotomy (marchDate (daysBefore year + day)).year year with before | same | after
    · have years := daysBefore_mono (show (marchDate (daysBefore year + day)).year + 1 ≤ year by omega)
      omega
    · exact same
    · have years := daysBefore_mono (show year + 1 ≤ (marchDate (daysBefore year + day)).year by omega)
      omega
  rw [same] at here
  have sameDay : (marchDate (daysBefore year + day)).day = day := by omega
  generalize marchDate (daysBefore year + day) = date at same sameDay
  obtain ⟨_, _⟩ := date
  exact congrArg₂ MarchDate.mk same sameDay

/-- The days of a month, none for a month there is not. -/
def monthLength (year : Int) : Nat → Nat
  | 1 | 3 | 5 | 7 | 8 | 10 | 12 => 31
  | 4 | 6 | 9 | 11 => 30
  | 2 => if leap year then 29 else 28
  | _ => 0

def Civil.Valid (civil : Civil) : Prop := 1 ≤ civil.day ∧ civil.day ≤ monthLength civil.year civil.month

theorem Civil.Valid.month {civil : Civil} (valid : civil.Valid) : 1 ≤ civil.month ∧ civil.month ≤ 12 := by
  obtain ⟨first, last⟩ := valid
  unfold monthLength at last
  split at last <;> omega

/-- The civil date of a day of a month from March. -/
def Civil.ofMarch (year : Int) (month day : Nat) : Civil :=
  if month < 10 then ⟨year, month + 3, day⟩ else ⟨year + 1, month - 9, day⟩

/-- The day of the year from March a month begins on. -/
def monthStart (month : Int) : Int := (153 * month + 2) / 5

/-- The day of the year from March after a month: the next one's start, or the year's end. -/
def monthEnd (year : Int) (month : Nat) : Int :=
  if month = 11 then daysBefore (year + 1) - daysBefore year else monthStart (month + 1)

theorem Civil.exists_ofMarch {civil : Civil} (months : 1 ≤ civil.month ∧ civil.month ≤ 12) :
    ∃ year month, month < 12 ∧ civil = ofMarch year month civil.day := by
  obtain ⟨year, month, day⟩ := civil
  dsimp only at months
  unfold ofMarch
  by_cases early : month ≤ 2
  · refine ⟨year - 1, month + 9, by omega, ?_⟩
    rw [if_neg (by omega), Int.sub_add_cancel, Nat.add_sub_cancel]
  · refine ⟨year, month - 3, by omega, ?_⟩
    rw [if_pos (by omega), Nat.sub_add_cancel (by omega)]

theorem daysOfCivil_ofMarch (year : Int) {month : Nat} (within : month < 12) (day : Nat) :
    daysOfCivil (.ofMarch year month day) = daysBefore year + (monthStart month + day - 1) := by
  unfold daysOfCivil Civil.ofMarch monthStart
  by_cases late : month < 10
  · rw [if_pos late]
    dsimp only
    rw [if_neg (by omega), if_neg (by omega)]
    push_cast
    rw [Int.add_sub_cancel]
  · rw [if_neg late]
    dsimp only
    rw [if_pos (by omega), if_pos (by omega), Int.add_sub_cancel]
    have named : ((month - 9 : Nat) : Int) + 9 = month := by omega
    rw [named]

theorem monthOf_eq_iff {day month : Int} : monthOf day = month ↔ monthStart month ≤ day ∧ day < monthStart (month + 1) := by
  unfold monthOf monthStart
  omega

theorem civilOf_eq_ofMarch {year day : Int} {month : Nat} (placed : monthOf day = month) :
    civilOf ⟨year, day⟩ = .ofMarch year month (day - monthStart month + 1).toNat := by
  unfold civilOf Civil.ofMarch monthStart
  dsimp only
  rw [placed]
  by_cases late : month < 10
  · rw [if_pos late, if_pos (by omega)]
    congr 1
  · rw [if_neg late, if_neg (by omega)]
    congr 1
    omega

/-- The months are as long as their starts lie apart. -/
theorem monthLength_ofMarch (year : Int) {month : Nat} (within : month < 12) (day : Nat) :
    (monthLength (Civil.ofMarch year month day).year (Civil.ofMarch year month day).month : Int) =
      monthEnd year month - monthStart month := by
  by_cases february : month = 11
  · subst february
    rw [monthEnd, if_pos rfl, daysBefore_succ]
    show ((if leap (year + 1) then 29 else 28 : Nat) : Int) = _ - 337
    split <;> push_cast <;> ring
  · rw [monthEnd, if_neg february]
    interval_cases month <;> first | rfl | contradiction

theorem valid_ofMarch {year : Int} {month day : Nat} (within : month < 12) :
    (Civil.ofMarch year month day).Valid ↔ 1 ≤ day ∧ monthStart month + day ≤ monthEnd year month := by
  have length := monthLength_ofMarch year within day
  have sameDay : (Civil.ofMarch year month day).day = day := by
    unfold Civil.ofMarch
    split <;> rfl
  unfold Civil.Valid
  rw [sameDay]
  omega

/-- A month begins within its year and ends in it. -/
theorem monthEnd_le (year : Int) {month : Nat} (within : month < 12) :
    0 ≤ monthStart month ∧ monthEnd year month ≤ monthStart (month + 1) ∧
      monthEnd year month ≤ daysBefore (year + 1) - daysBefore year := by
  have long := daysBefore_succ year
  unfold monthEnd
  by_cases february : month = 11
  · subst february
    rw [if_pos rfl, long]
    refine ⟨by decide, ?_, le_refl _⟩
    show _ ≤ (367 : Int)
    split <;> omega
  · rw [if_neg february, long]
    refine ⟨by unfold monthStart; omega, le_refl _, ?_⟩
    have short : monthStart (month + 1) ≤ 365 := by
      unfold monthStart
      omega
    split <;> omega

theorem civilOfDays_valid (days : Int) : (civilOfDays days).Valid := by
  obtain ⟨low, high⟩ := marchDate_range days
  obtain ⟨first, last, -, -⟩ := monthOf_range low high
  obtain ⟨month, placed⟩ := Int.eq_ofNat_of_zero_le first
  obtain ⟨starts, ends⟩ := monthOf_eq_iff.mp placed
  have here := days_marchDate days
  have next := days_lt_next days
  rw [civilOfDays, civilOf_eq_ofMarch placed, valid_ofMarch (by omega)]
  refine ⟨by omega, ?_⟩
  rw [Int.toNat_of_nonneg (by omega)]
  unfold monthEnd
  split <;> omega

theorem Civil.Valid.onCalendar {civil : Civil} (valid : civil.Valid) : OnCalendar civil := by
  obtain ⟨year, month, within, same⟩ := exists_ofMarch valid.month
  rw [same] at valid ⊢
  obtain ⟨first, last⟩ := (valid_ofMarch within).mp valid
  obtain ⟨starts, ends, inYear⟩ := monthEnd_le year within
  have placed : monthOf (monthStart month + civil.day - 1) = month := monthOf_eq_iff.mpr ⟨by omega, by omega⟩
  rw [OnCalendar, daysOfCivil_ofMarch year within, civilOfDays, marchDate_of_between (by omega) (by omega),
    civilOf_eq_ofMarch placed]
  congr 1
  omega

def Civil.next (civil : Civil) : Civil :=
  if civil.day < monthLength civil.year civil.month then { civil with day := civil.day + 1 }
  else if civil.month < 12 then ⟨civil.year, civil.month + 1, 1⟩ else ⟨civil.year + 1, 1, 1⟩

theorem Civil.next_ofMarch {year : Int} {month : Nat} (within : month < 12) (day : Nat) :
    (ofMarch year month day).next =
      if monthStart month + day < monthEnd year month then ofMarch year month (day + 1)
      else if month < 11 then ofMarch year (month + 1) 1 else ofMarch (year + 1) 0 1 := by
  have length := monthLength_ofMarch year within day
  have dated : ofMarch year month day = ⟨(ofMarch year month day).year, (ofMarch year month day).month, day⟩ := by
    unfold ofMarch
    split <;> rfl
  rw [dated, next]
  dsimp only
  by_cases inside : monthStart month + day < monthEnd year month
  · rw [if_pos inside, if_pos (by omega)]
    unfold ofMarch
    split <;> rfl
  · rw [if_neg inside, if_neg (by omega)]
    interval_cases month <;> rfl

/-- A date's successor is a date, a day later. -/
theorem daysOfCivil_next {civil : Civil} (valid : civil.Valid) :
    civil.next.Valid ∧ daysOfCivil civil.next = daysOfCivil civil + 1 := by
  obtain ⟨year, month, within, same⟩ := Civil.exists_ofMarch valid.month
  generalize civil.day = day at same
  subst same
  obtain ⟨first, last⟩ := (valid_ofMarch within).mp valid
  rw [Civil.next_ofMarch within]
  by_cases inside : monthStart month + day < monthEnd year month
  · rw [if_pos inside, daysOfCivil_ofMarch year within, daysOfCivil_ofMarch year within, valid_ofMarch within]
    omega
  · rw [if_neg inside]
    have ends : monthStart month + day = monthEnd year month := by omega
    unfold monthEnd at ends
    by_cases later : month < 11
    · rw [if_neg (by omega)] at ends
      rw [if_pos later, daysOfCivil_ofMarch year within, daysOfCivil_ofMarch year (by omega), valid_ofMarch (by omega)]
      have starts : monthStart ((month + 1 : Nat) : Int) = monthStart (month + 1) := by push_cast; rfl
      have opens : monthStart (month + 1) + 1 ≤ monthEnd year (month + 1) := by
        unfold monthEnd
        have long := daysBefore_succ year
        unfold monthStart
        split <;> omega
      omega
    · rw [if_pos (by omega)] at ends
      rw [if_neg later, daysOfCivil_ofMarch year within, daysOfCivil_ofMarch (year + 1) (by omega), valid_ofMarch (by omega)]
      have opens : monthStart ((0 : Nat) : Int) = 0 ∧ monthEnd (year + 1) 0 = 31 := ⟨rfl, rfl⟩
      omega

end Brenn.Lib
