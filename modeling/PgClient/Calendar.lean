/-
  PgClient.Calendar

  Dates of the proleptic Gregorian calendar, times of day with leap seconds, and
  moments made of both. All distances are from 2000-01-01 at midnight.

  `Date.dayNumber` counts years that begin in March, so that a leap day is the
  last day of its year; `Date.ofDayNumber?` undoes it.
-/
import PgClient.Text.Integer

namespace PgClient

/-! ## Dates -/

def isLeapYear (year : Int) : Bool :=
  year % 4 = 0 && (year % 100 ≠ 0 || year % 400 = 0)

def daysInMonth (year : Int) (month : Nat) : Nat :=
  if month = 2 then if isLeapYear year then 29 else 28
  else if month = 4 || month = 6 || month = 9 || month = 11 then 30
  else 31

/-- Whether there is such a day, within the years that a date can have. -/
def isDate (year : Int) (month day : Nat) : Bool :=
  -262143 ≤ year && year ≤ 262142 && 1 ≤ month && month ≤ 12 && 1 ≤ day &&
    day ≤ daysInMonth year month

structure Date where
  year : Int
  month : Nat
  day : Nat
  valid : isDate year month day = true
  deriving DecidableEq

namespace Date

def of? (year : Int) (month day : Nat) : Option Date :=
  if h : isDate year month day = true then some ⟨year, month, day, h⟩ else none

/-- Days from the first of March of year 0 to 2000-01-01. -/
def epoch : Int := 730425

/-- The days before a month, counted from March. -/
def daysBefore (month : Nat) : Int := (153 * ((month + 9) % 12 : Nat) + 2) / 5

/-- Days since 2000-01-01. -/
def dayNumber (d : Date) : Int :=
  let year := if d.month ≤ 2 then d.year - 1 else d.year
  365 * year + year / 4 - year / 100 + year / 400 + daysBefore d.month + d.day - 1 - epoch

/-- The year, month and day that lie `n` days after 2000-01-01. -/
def civil (n : Int) : Int × Nat × Nat :=
  let z := n + epoch
  -- 400 years have 146097 days.
  let era := z / 146097
  let dayOfEra := z % 146097
  -- The leap days before the year are taken out: one in 4 years, none in 100, one in 400.
  let yearOfEra := (dayOfEra - dayOfEra / 1460 + dayOfEra / 36524 - dayOfEra / 146096) / 365
  let dayOfYear := dayOfEra - (365 * yearOfEra + yearOfEra / 4 - yearOfEra / 100)
  -- From March on, five months have 153 days.
  let march := (5 * dayOfYear + 2) / 153
  let day := dayOfYear - (153 * march + 2) / 5 + 1
  let month := if march < 10 then march + 3 else march - 9
  let year := yearOfEra + era * 400 + if month ≤ 2 then 1 else 0
  (year, month.toNat, day.toNat)

/-- The date that lies `n` days after 2000-01-01, if a date can have its year. -/
def ofDayNumber? (n : Int) : Option Date :=
  let (year, month, day) := civil n
  of? year month day

/-- The year in four digits, with a sign if it has more or is negative, then month and day. -/
def text (d : Date) : List Char :=
  let year := Integer.padded 4 d.year.natAbs
  let year := if d.year < 0 then '-' :: year else if 9999 < d.year then '+' :: year else year
  ['-'].intercalate [year, Integer.padded 2 d.month, Integer.padded 2 d.day]

end Date

/-! ## Times of day -/

/-- Seconds since midnight and nanoseconds of the second; in a leap second these go on past
one thousand million. -/
structure TimeOfDay where
  seconds : Nat
  nanos : Nat
  seconds_lt : seconds < 86400
  nanos_lt : nanos < 2000000000
  deriving DecidableEq

namespace TimeOfDay

def of? (seconds nanos : Nat) : Option TimeOfDay :=
  if h : seconds < 86400 ∧ nanos < 2000000000 then some ⟨seconds, nanos, h.1, h.2⟩ else none

/-- Whole microseconds since midnight. -/
def micros (t : TimeOfDay) : Int := t.seconds * 1000000 + (t.nanos / 1000 : Nat)

/-- The time that lies some microseconds after midnight, if that is before the next. -/
def ofMicros? (micros : Int) : Option TimeOfDay :=
  if micros < 0 then none
  else of? (micros / 1000000).toNat ((micros % 1000000).toNat * 1000)

/-- Hours, minutes and seconds, with as many groups of three decimals as are not zero. A leap
second is the sixtieth of its minute. -/
def text (t : TimeOfDay) : List Char :=
  let leap := t.nanos / 1000000000
  let nanos := t.nanos % 1000000000
  let clock := [':'].intercalate
    ([t.seconds / 3600, t.seconds / 60 % 60, t.seconds % 60 + leap].map (Integer.padded 2))
  let decimals :=
    if nanos = 0 then []
    else if nanos % 1000000 = 0 then '.' :: Integer.padded 3 (nanos / 1000000)
    else if nanos % 1000 = 0 then '.' :: Integer.padded 6 (nanos / 1000)
    else '.' :: Integer.padded 9 nanos
  clock ++ decimals

end TimeOfDay

/-! ## Moments -/

/-- A date and a time of day. -/
structure Moment where
  date : Date
  time : TimeOfDay
  deriving DecidableEq

namespace Moment

/-- Whole microseconds from 2000-01-01 at midnight, a rest dropped toward it. -/
def micros (m : Moment) : Int :=
  (((m.date.dayNumber * 86400 + m.time.seconds) * 1000000000) + m.time.nanos).tdiv 1000

/-- The moment that lies some microseconds after 2000-01-01 at midnight, if a date can have
its year. -/
def ofMicros? (micros : Int) : Option Moment := do
  let date ← Date.ofDayNumber? (micros / 86400000000)
  let time ← TimeOfDay.ofMicros? (micros % 86400000000)
  return ⟨date, time⟩

def text (m : Moment) : List Char := m.date.text ++ ' ' :: m.time.text

end Moment

end PgClient
