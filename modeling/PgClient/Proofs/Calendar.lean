/-
  PgClient.Proofs.Calendar

  Dates, times of day and moments against their distance from 2000-01-01. The
  months follow each other without gaps, so the number of a day grows with the
  date and each number belongs to one day; times of day and moments are read
  from whole microseconds in the same way.
-/
import Mathlib.Tactic.IntervalCases
import Mathlib.Tactic.Linarith
import PgClient.Calendar

namespace PgClient

theorem isLeapYear_iff {year : Int} :
    isLeapYear year = true ↔ year % 4 = 0 ∧ (year % 100 ≠ 0 ∨ year % 400 = 0) := by
  simp [isLeapYear]

namespace Date

/-! ## Days of any year -/

/-- A day of some year. -/
structure IsDay (year : Int) (month day : Nat) : Prop where
  month_pos : 1 ≤ month
  month_le : month ≤ 12
  day_pos : 1 ≤ day
  day_le : day ≤ daysInMonth year month

/-- The days before the March of a year, from the first one of the year 0. -/
def yearStart (year : Int) : Int := 365 * year + year / 4 - year / 100 + year / 400

/-- Days since 2000-01-01. -/
def count (year : Int) (month day : Nat) : Int :=
  yearStart (if month ≤ 2 then year - 1 else year) + daysBefore month + day - 1 - epoch

variable {year year' : Int} {month month' day day' : Nat}

theorem isDate_iff :
    isDate year month day = true ↔
      (-262143 ≤ year ∧ year ≤ 262142) ∧ IsDay year month day := by
  simp only [isDate, Bool.and_eq_true, decide_eq_true_eq]
  exact ⟨fun ⟨⟨⟨⟨⟨a, b⟩, c⟩, d⟩, e⟩, f⟩ => ⟨⟨a, b⟩, ⟨c, d, e, f⟩⟩,
    fun ⟨⟨a, b⟩, ⟨c, d, e, f⟩⟩ => ⟨⟨⟨⟨⟨a, b⟩, c⟩, d⟩, e⟩, f⟩⟩

theorem isDay (d : Date) : IsDay d.year d.month d.day := (isDate_iff.1 d.valid).2

theorem dayNumber_eq_count (d : Date) : d.dayNumber = count d.year d.month d.day := rfl

/-- From one March to the next there are the days of the other months and of a February. -/
theorem yearStart_succ (year : Int) :
    yearStart year = yearStart (year - 1) + 337 + daysInMonth year 2 := by
  have hleap := @isLeapYear_iff year
  unfold yearStart daysInMonth
  cases h : isLeapYear year
  · have : ¬(year % 4 = 0 ∧ (year % 100 ≠ 0 ∨ year % 400 = 0)) := by simpa [h] using hleap
    simp
    omega
  · have := hleap.1 h
    simp
    omega

/-! ## Months -/

/-- Months are counted from January of the year 0. -/
def monthIndex (year : Int) (month : Nat) : Int := 12 * year + month - 1

/-- The number of the first day of a month. -/
def monthStart (i : Int) : Int := count (i / 12) ((i % 12).toNat + 1) 1

theorem IsDay.monthIndex_div (h : IsDay year month day) : monthIndex year month / 12 = year := by
  have := h.month_pos
  have := h.month_le
  unfold monthIndex
  omega

theorem IsDay.monthIndex_mod (h : IsDay year month day) :
    (monthIndex year month % 12).toNat + 1 = month := by
  have := h.month_pos
  have := h.month_le
  unfold monthIndex
  omega

theorem count_eq_monthStart (h : IsDay year month day) :
    count year month day = monthStart (monthIndex year month) + day - 1 := by
  rw [monthStart, h.monthIndex_div, h.monthIndex_mod, count, count]
  omega

theorem count_next_month (h : 1 ≤ month) (h' : month < 12) :
    count year (month + 1) 1 = count year month 1 + daysInMonth year month := by
  have hfebruary := yearStart_succ year
  unfold count daysBefore epoch
  interval_cases month
  case «2» => simp at hfebruary ⊢; omega
  all_goals simp [daysInMonth]; omega

theorem count_next_year : count (year + 1) 1 1 = count year 12 1 + daysInMonth year 12 := by
  unfold count daysInMonth daysBefore epoch
  simp
  omega

/-- Each month starts where the one before it ends. -/
theorem monthStart_succ (i : Int) :
    monthStart (i + 1) = monthStart i + daysInMonth (i / 12) ((i % 12).toNat + 1) := by
  unfold monthStart
  by_cases hlast : i % 12 = 11
  · have hyear : (i + 1) / 12 = i / 12 + 1 := by omega
    have hmonth : ((i + 1) % 12).toNat + 1 = 1 := by omega
    rw [hyear, hmonth, hlast]
    exact count_next_year
  · have hyear : (i + 1) / 12 = i / 12 := by omega
    have hmonth : ((i + 1) % 12).toNat + 1 = (i % 12).toNat + 1 + 1 := by omega
    rw [hyear, hmonth]
    exact count_next_month (by omega) (by omega)

/-- A later month starts later. -/
theorem monthStart_le {i j : Int} (h : i ≤ j) : monthStart i ≤ monthStart j := by
  obtain ⟨k, rfl⟩ := Int.le.dest h
  clear h
  induction k with
  | zero => simp
  | succ k ih =>
    rw [Nat.cast_succ, ← Int.add_assoc, monthStart_succ]
    omega

/-! ## Order -/

/-- One day comes before another in the calendar. -/
def Before (year : Int) (month day : Nat) (year' : Int) (month' day' : Nat) : Prop :=
  year < year' ∨ year = year' ∧ (month < month' ∨ month = month' ∧ day < day')

theorem before_or_eq_or_before (year year' : Int) (month day month' day' : Nat) :
    Before year month day year' month' day' ∨
      (year = year' ∧ month = month' ∧ day = day') ∨
      Before year' month' day' year month day := by
  unfold Before
  omega

/-- A day is numbered before the next month starts, so before every day of a later month. -/
theorem count_lt_of_monthIndex (h : IsDay year month day) (h' : IsDay year' month' day')
    (hmonth : monthIndex year month < monthIndex year' month') :
    count year month day < count year' month' day' := by
  have hle := h.day_le
  have hpos := h'.day_pos
  calc count year month day
    _ = monthStart (monthIndex year month) + day - 1 := count_eq_monthStart h
    _ < monthStart (monthIndex year month + 1) := by
        rw [monthStart_succ, h.monthIndex_div, h.monthIndex_mod]
        omega
    _ ≤ monthStart (monthIndex year' month') := monthStart_le hmonth
    _ ≤ count year' month' day' := by
        rw [count_eq_monthStart h']
        omega

theorem count_lt (h : IsDay year month day) (h' : IsDay year' month' day')
    (hbefore : Before year month day year' month' day') :
    count year month day < count year' month' day' := by
  rcases hbefore with hyear | ⟨rfl, hmonth | ⟨rfl, hday⟩⟩
  · have := h.month_le
    have := h'.month_pos
    exact count_lt_of_monthIndex h h' (by unfold monthIndex; omega)
  · exact count_lt_of_monthIndex h h' (by unfold monthIndex; omega)
  · unfold count
    omega

theorem count_lt_iff (h : IsDay year month day) (h' : IsDay year' month' day') :
    count year month day < count year' month' day' ↔
      Before year month day year' month' day' := by
  refine ⟨fun hlt => ?_, count_lt h h'⟩
  rcases before_or_eq_or_before year year' month day month' day' with hb | ⟨rfl, rfl, rfl⟩ | hb
  · exact hb
  · exact absurd hlt (lt_irrefl _)
  · exact absurd hlt (lt_asymm (count_lt h' h hb))

/-- No number belongs to two days. -/
theorem count_inj (h : IsDay year month day) (h' : IsDay year' month' day')
    (hcount : count year month day = count year' month' day') :
    year = year' ∧ month = month' ∧ day = day' := by
  rcases before_or_eq_or_before year year' month day month' day' with hb | heq | hb
  · exact absurd hcount (count_lt h h' hb).ne
  · exact heq
  · exact absurd hcount (count_lt h' h hb).ne'

/-! ## From a number to its day -/

/-- A number falls into one of equal blocks, the last of which may be one longer. -/
theorem exists_block {n block last : Int} (hblock : 0 < block) (h : 0 ≤ n)
    (h' : n ≤ block * (last + 1)) (hlast : 0 ≤ last) :
    ∃ i r : Int, n = block * i + r ∧ (0 ≤ i ∧ i ≤ last) ∧ (0 ≤ r ∧ r ≤ block) ∧
      (r = block → i = last) := by
  rcases h'.eq_or_lt with heq | hlt
  · exact ⟨last, block, by rw [heq, mul_add, mul_one], ⟨hlast, le_rfl⟩, ⟨hblock.le, le_rfl⟩,
      fun _ => rfl⟩
  · have hr := Int.emod_lt_of_pos n hblock
    have hi : n / block < last + 1 := Int.ediv_lt_of_lt_mul hblock (by rwa [mul_comm] at hlt)
    exact ⟨n / block, n % block, (Int.mul_ediv_add_emod n block).symm,
      ⟨Int.ediv_nonneg h hblock.le, by omega⟩, ⟨Int.emod_nonneg n hblock.ne', hr.le⟩,
      fun heq => absurd heq hr.ne⟩

/-- A place in an era of 400 years: a century, four years in that, a year in those and a day of
the year. Only a fourth year has a 366th day, and the hundredth only in the last century. -/
structure IsPlace (c q s d : Int) : Prop where
  century : 0 ≤ c ∧ c ≤ 3
  four : 0 ≤ q ∧ q ≤ 24
  year : 0 ≤ s ∧ s ≤ 3
  day : 0 ≤ d ∧ d ≤ 365
  leap : d = 365 → s = 3 ∧ (q = 24 → c = 3)

/-- Every day of an era has its place. -/
theorem exists_isPlace {n : Int} (h : 0 ≤ n) (h' : n < 146097) :
    ∃ c q s d : Int, n = 36524 * c + (1461 * q + (365 * s + d)) ∧ IsPlace c q s d := by
  obtain ⟨c, r, hc, hc', hr, hcentury⟩ :=
    @exists_block n 36524 3 (by decide) h (by omega) (by decide)
  obtain ⟨q, t, hq, hq', ht, hfour⟩ :=
    @exists_block r 1461 24 (by decide) hr.1 (by omega) (by decide)
  -- The last four years of a century are not a whole block, even with its longest end.
  have ht' : t ≤ 1460 := by
    by_contra hlong
    have hq := hfour (by omega)
    omega
  obtain ⟨s, d, hs, hs', hd, hyear⟩ :=
    @exists_block t 365 3 (by decide) ht.1 (by omega) (by decide)
  refine ⟨c, q, s, d, by rw [hc, hq, hs], hc', hq', hs', hd, fun hend =>
    ⟨hyear hend, fun hlast => hcentury ?_⟩⟩
  rw [hq, hs, hlast, hyear hend, hend]
  rfl

namespace IsPlace

variable {c q s d era : Int}

/-- The year of the era; the corrections make up for the leap days. -/
theorem yearOfEra_eq (h : IsPlace c q s d) :
    let n := 36524 * c + (1461 * q + (365 * s + d))
    (n - n / 1460 + n / 36524 - n / 146096) / 365 = 100 * c + 4 * q + s := by
  obtain ⟨hc, hq, hs, hd, hlast⟩ := h
  intro n
  by_cases hend : n = 146096
  · have hyear : 100 * c + 4 * q + s = 399 := by omega
    rw [hyear, hend]
    rfl
  -- Outside the last day of the era, no century has more than 36524 days.
  have hcentury : 1461 * q + (365 * s + d) < 36524 := by omega
  have h₁ : n / 36524 = c := by omega
  have h₂ : n / 146096 = 0 := by omega
  have h₃ : n / 1460 = 25 * c + q + (24 * c + q + (365 * s + d)) / 1460 := by omega
  have h₄ : n - n / 1460 + n / 36524 - n / 146096 =
      365 * (100 * c + 4 * q + s) + (d - (24 * c + q + (365 * s + d)) / 1460) := by
    rw [h₁, h₂, h₃]
    omega
  rw [h₄]
  omega

/-- What the years before leave of the days is the day of the year. -/
theorem dayOfYear_eq (h : IsPlace c q s d) :
    36524 * c + (1461 * q + (365 * s + d)) - (365 * (100 * c + 4 * q + s) +
      (100 * c + 4 * q + s) / 4 - (100 * c + 4 * q + s) / 100) = d := by
  obtain ⟨-, hq, hs, -, -⟩ := h
  have h₁ : (100 * c + 4 * q + s) / 4 = 25 * c + q := by omega
  have h₂ : (100 * c + 4 * q + s) / 100 = c := by omega
  rw [h₁, h₂]
  omega

theorem yearStart_eq (h : IsPlace c q s d) :
    yearStart (100 * c + 4 * q + s + era * 400) =
      146097 * era + (36524 * c + (1461 * q + 365 * s)) := by
  obtain ⟨hc, hq, hs, -, -⟩ := h
  have h₁ : (100 * c + 4 * q + s + era * 400) / 4 = 25 * c + q + 100 * era := by omega
  have h₂ : (100 * c + 4 * q + s + era * 400) / 100 = c + 4 * era := by omega
  have h₃ : (100 * c + 4 * q + s + era * 400) / 400 = era := by omega
  rw [yearStart, h₁, h₂, h₃]
  omega

/-- A 366th day is the end of February of a leap year. -/
theorem isLeapYear (h : IsPlace c q s d) (hend : d = 365) :
    isLeapYear (100 * c + 4 * q + s + era * 400 + 1) = true := by
  obtain ⟨rfl, hcentury⟩ := h.leap hend
  have hq := h.four
  refine isLeapYear_iff.2 ⟨by omega, ?_⟩
  by_cases hlast : q = 24
  · rw [hcentury hlast, hlast]
    omega
  · omega

end IsPlace

/-- The day that has a given place in the year that begins in March: its month is counted from
March, and only a leap year has a 366th day. -/
theorem isDay_of_place {year place : Int} (hplace : 0 ≤ place ∧ place ≤ 365)
    (hlast : place = 365 → isLeapYear (year + 1) = true) :
    let march := (5 * place + 2) / 153
    let day := place - (153 * march + 2) / 5 + 1
    let month := if march < 10 then march + 3 else march - 9
    let year' := year + if month ≤ 2 then 1 else 0
    IsDay year' month.toNat day.toNat ∧
      count year' month.toNat day.toNat = yearStart year + place - epoch := by
  have hmarch : 0 ≤ (5 * place + 2) / 153 := by omega
  have hmarch' : (5 * place + 2) / 153 ≤ 11 := by omega
  have hstart : 153 * ((5 * place + 2) / 153) ≤ 5 * place + 2 := by omega
  have hend : 5 * place + 2 < 153 * ((5 * place + 2) / 153) + 153 := by omega
  generalize (5 * place + 2) / 153 = march at hmarch hmarch' hstart hend ⊢
  -- In each month the bounds of its days are numbers.
  interval_cases march
  all_goals
    intro march day month year'
    have hday : 0 < day := by omega
    refine ⟨⟨by decide, by decide, Int.lt_toNat.2 hday, ?_⟩, ?_⟩
    · simp [year', month, day, march, daysInMonth]
      grind
    · simp [year', month, day, march, count, daysBefore]
      omega

/-- A number is read as the day that it counts. -/
theorem civil_spec (n : Int) :
    IsDay (civil n).1 (civil n).2.1 (civil n).2.2 ∧
      count (civil n).1 (civil n).2.1 (civil n).2.2 = n := by
  have hera := Int.mul_ediv_add_emod (n + epoch) 146097
  obtain ⟨c, q, s, d, hday, hplace⟩ :=
    @exists_isPlace ((n + epoch) % 146097) (Int.emod_nonneg _ (by decide))
      (Int.emod_lt_of_pos _ (by decide))
  rw [hday] at hera
  simp only [civil, hday, hplace.yearOfEra_eq, hplace.dayOfYear_eq]
  generalize (n + epoch) / 146097 = era at hera ⊢
  have hleap : d = 365 → PgClient.isLeapYear (100 * c + 4 * q + s + era * 400 + 1) = true :=
    hplace.isLeapYear
  have hspec := isDay_of_place hplace.day hleap
  refine ⟨hspec.1, hspec.2.trans ?_⟩
  rw [hplace.yearStart_eq]
  linarith

/-! ## Dates -/

/-- The order of the calendar. -/
def Earlier (d e : Date) : Prop := Before d.year d.month d.day e.year e.month e.day

/-- One date is the day after another. -/
def Next (d e : Date) : Prop :=
  (e.year = d.year ∧ e.month = d.month ∧ e.day = d.day + 1) ∨
  (d.day = daysInMonth d.year d.month ∧ e.day = 1 ∧
    ((e.year = d.year ∧ e.month = d.month + 1) ∨
      (d.month = 12 ∧ e.year = d.year + 1 ∧ e.month = 1)))

/-- The day from which days are counted. -/
def origin : Date := ⟨2000, 1, 1, by decide⟩

/-- The first of all dates. -/
def first : Date := ⟨-262143, 1, 1, by decide⟩

/-- The last of all dates. -/
def last : Date := ⟨262142, 12, 31, by decide⟩

variable {d e : Date} {n : Int}

theorem dayNumber_origin : origin.dayNumber = 0 := by decide

/-- Day numbers count days. -/
theorem Next.dayNumber_eq (h : Next d e) : e.dayNumber = d.dayNumber + 1 := by
  rw [dayNumber_eq_count, dayNumber_eq_count]
  obtain ⟨hpos, -, -, -⟩ := d.isDay
  have hmonth' := e.isDay.month_le
  rcases h with ⟨hyear, hmonth, hday⟩ | ⟨hend, hday, ⟨hyear, hmonth⟩ | ⟨hend', hyear, hmonth⟩⟩
  · rw [hyear, hmonth, hday, count, count]
    omega
  · have hnext := @count_next_month d.year d.month hpos (by omega)
    rw [hyear, hmonth, hday, hnext, hend, count, count]
    omega
  · rw [hyear, hmonth, hday, count_next_year, hend, hend', count, count]
    omega

theorem dayNumber_lt_iff : d.dayNumber < e.dayNumber ↔ Earlier d e :=
  count_lt_iff d.isDay e.isDay

theorem dayNumber_inj : d.dayNumber = e.dayNumber ↔ d = e := by
  refine ⟨fun h => ?_, fun h => h ▸ rfl⟩
  obtain ⟨hyear, hmonth, hday⟩ := count_inj d.isDay e.isDay h
  cases d
  cases e
  cases hyear
  cases hmonth
  cases hday
  rfl

/-- A number is read as the date that it counts, and as none if there is no such date. -/
theorem ofDayNumber?_eq_some_iff : ofDayNumber? n = some d ↔ d.dayNumber = n := by
  obtain ⟨hday, hcount⟩ := civil_spec n
  constructor
  · intro h
    simp only [ofDayNumber?, of?, Option.dite_none_right_eq_some, Option.some.injEq] at h
    obtain ⟨-, rfl⟩ := h
    exact hcount
  · intro h
    obtain ⟨hyear, hmonth, hday⟩ := count_inj hday d.isDay (hcount.trans h.symm)
    simp [ofDayNumber?, of?, hyear, hmonth, hday, d.valid]

theorem count_lt_first_iff (h : IsDay year month day) :
    count year month day < first.dayNumber ↔ year < -262143 := by
  have := h.month_pos
  have := h.day_pos
  refine (count_lt_iff h first.isDay).trans ?_
  simp only [Before, first]
  omega

theorem last_lt_count_iff (h : IsDay year month day) :
    last.dayNumber < count year month day ↔ 262142 < year := by
  have hmonth := h.month_le
  have hday : month = 12 → day ≤ 31 := fun hm => h.day_le.trans (by simp [hm, daysInMonth])
  refine (count_lt_iff last.isDay h).trans ?_
  simp only [Before, last]
  omega

/-- The dates have all the numbers from that of the first to that of the last. -/
theorem exists_dayNumber_iff :
    (∃ d : Date, d.dayNumber = n) ↔ first.dayNumber ≤ n ∧ n ≤ last.dayNumber := by
  constructor
  · rintro ⟨d, rfl⟩
    obtain ⟨⟨hlow, hhigh⟩, hday⟩ := isDate_iff.1 d.valid
    exact ⟨not_lt.1 fun hlt => not_lt.2 hlow ((count_lt_first_iff hday).1 hlt),
      not_lt.1 fun hlt => not_lt.2 hhigh ((last_lt_count_iff hday).1 hlt)⟩
  · rintro ⟨hlow, hhigh⟩
    obtain ⟨hday, hcount⟩ := civil_spec n
    rw [← hcount] at hlow hhigh
    have hyear : -262143 ≤ (civil n).1 :=
      not_lt.1 fun hlt => not_lt.2 hlow ((count_lt_first_iff hday).2 hlt)
    have hyear' : (civil n).1 ≤ 262142 :=
      not_lt.1 fun hlt => not_lt.2 hhigh ((last_lt_count_iff hday).2 hlt)
    exact ⟨⟨_, _, _, isDate_iff.2 ⟨⟨hyear, hyear'⟩, hday⟩⟩, hcount⟩

theorem dayNumber_first : first.dayNumber = -96476249 := by decide

theorem dayNumber_last : last.dayNumber = 95015279 := by decide

/-- The number of a date fits a signed 32-bit word. -/
theorem dayNumber_bounds (d : Date) : -2147483648 ≤ d.dayNumber ∧ d.dayNumber ≤ 2147483647 := by
  have h := exists_dayNumber_iff.1 ⟨d, rfl⟩
  rw [dayNumber_first, dayNumber_last] at h
  omega

end Date

/-! ## Times of day -/

namespace TimeOfDay

/-- The time is one of whole microseconds, and not in a leap second. -/
def Whole (t : TimeOfDay) : Prop := t.nanos < 1000000000 ∧ t.nanos % 1000 = 0

/-- The order of the clock. -/
def Earlier (t u : TimeOfDay) : Prop :=
  t.seconds < u.seconds ∨ t.seconds = u.seconds ∧ t.nanos < u.nanos

variable {t u : TimeOfDay} {n : Int}

theorem micros_bounds (h : t.Whole) : 0 ≤ t.micros ∧ t.micros < 86400000000 := by
  obtain ⟨hlt, -⟩ := h
  have := t.seconds_lt
  unfold micros
  omega

theorem micros_lt_iff (ht : t.Whole) (hu : u.Whole) : t.micros < u.micros ↔ Earlier t u := by
  obtain ⟨ht, ht'⟩ := ht
  obtain ⟨hu, hu'⟩ := hu
  unfold micros Earlier
  omega

theorem ofMicros?_eq_some_iff : ofMicros? n = some t ↔ t.Whole ∧ t.micros = n := by
  have hseconds := t.seconds_lt
  by_cases hneg : n < 0
  · have : t.Whole ∧ t.micros = n → False := fun ⟨hwhole, hn⟩ => by
      have := micros_bounds hwhole
      omega
    simpa [ofMicros?, hneg] using this
  · simp only [ofMicros?, hneg, of?, if_false, Option.dite_none_right_eq_some, Option.some.injEq,
      Whole, micros]
    constructor
    · rintro ⟨h, rfl⟩
      dsimp only
      omega
    · rintro ⟨⟨hlt, hwhole⟩, hn⟩
      have hs : (n / 1000000).toNat = t.seconds := by omega
      have hr : (n % 1000000).toNat * 1000 = t.nanos := by omega
      exact ⟨by omega, by cases t; simp_all⟩

/-- There is a time for every microsecond of a day, and for no other. -/
theorem exists_ofMicros?_iff :
    (∃ t, ofMicros? n = some t) ↔ 0 ≤ n ∧ n < 86400000000 := by
  constructor
  · rintro ⟨t, h⟩
    obtain ⟨hwhole, rfl⟩ := ofMicros?_eq_some_iff.1 h
    exact micros_bounds hwhole
  · rintro ⟨hlow, hhigh⟩
    have hneg : ¬ n < 0 := not_lt.2 hlow
    have hvalid : (n / 1000000).toNat < 86400 ∧ (n % 1000000).toNat * 1000 < 2000000000 := by
      omega
    exact ⟨_, by simp only [ofMicros?, hneg, of?, if_false, hvalid]; rfl⟩

end TimeOfDay

/-! ## Moments -/

namespace Moment

/-- The order of dates, then of times of day. -/
def Earlier (m k : Moment) : Prop :=
  m.date.Earlier k.date ∨ m.date = k.date ∧ m.time.Earlier k.time

variable {m k : Moment} {n : Int}

/-- Without a rest below a microsecond nothing is dropped. -/
theorem micros_eq (h : m.time.Whole) :
    m.micros = m.date.dayNumber * 86400000000 + m.time.micros := by
  obtain ⟨-, hwhole⟩ := h
  unfold micros TimeOfDay.micros
  have hrest : ((m.date.dayNumber * 86400 + m.time.seconds) * 1000000000) + m.time.nanos =
      1000 * (m.date.dayNumber * 86400000000 +
        (m.time.seconds * 1000000 + (m.time.nanos / 1000 : Nat))) := by
    omega
  rw [hrest, Int.mul_tdiv_cancel_left _ (by decide)]

theorem micros_lt_iff (hm : m.time.Whole) (hk : k.time.Whole) :
    m.micros < k.micros ↔ Earlier m k := by
  rw [micros_eq hm, micros_eq hk, Earlier, ← Date.dayNumber_lt_iff, ← Date.dayNumber_inj,
    ← TimeOfDay.micros_lt_iff hm hk]
  have := TimeOfDay.micros_bounds hm
  have := TimeOfDay.micros_bounds hk
  omega

theorem ofMicros?_eq_some_iff : ofMicros? n = some m ↔ m.time.Whole ∧ m.micros = n := by
  have hbind : ofMicros? n = some m ↔
      Date.ofDayNumber? (n / 86400000000) = some m.date ∧
        TimeOfDay.ofMicros? (n % 86400000000) = some m.time := by
    cases m
    simp [ofMicros?, Option.bind_eq_some_iff]
  rw [hbind, Date.ofDayNumber?_eq_some_iff, TimeOfDay.ofMicros?_eq_some_iff]
  constructor
  · rintro ⟨hdate, hwhole, htime⟩
    refine ⟨hwhole, ?_⟩
    rw [micros_eq hwhole]
    omega
  · rintro ⟨hwhole, hn⟩
    have := TimeOfDay.micros_bounds hwhole
    rw [micros_eq hwhole] at hn
    exact ⟨by omega, hwhole, by omega⟩

/-- The distance of a moment, with or without a rest, fits a signed 64-bit word. -/
theorem micros_bounds (m : Moment) :
    -9223372036854775808 ≤ m.micros ∧ m.micros ≤ 9223372036854775807 := by
  have hdate := Date.exists_dayNumber_iff.1 ⟨m.date, rfl⟩
  rw [Date.dayNumber_first, Date.dayNumber_last] at hdate
  have hseconds := m.time.seconds_lt
  have hnanos := m.time.nanos_lt
  -- Dropping the rest moves the quotient by one at most.
  have hsign : Int.sign 1000 = 1 := rfl
  rw [micros, Int.tdiv_eq_ediv, hsign]
  split <;> omega

end Moment

end PgClient
