namespace StatusLine

/-- Seconds since the beginning of 1970 in universal time, what is left in nanoseconds, and how many
seconds the zone is ahead. -/
structure Moment where
  seconds : Int
  nanos : Nat
  offset : Int
deriving DecidableEq, Repr

structure Date where
  year : Int
  month : Nat
  day : Nat
deriving DecidableEq, Repr

def isLeap (year : Int) : Bool := year % 4 = 0 && (year % 100 ≠ 0 || year % 400 = 0)

def monthLength (year : Int) : Nat → Nat
  | 2 => if isLeap year then 29 else 28
  | 4 | 6 | 9 | 11 => 30
  | _ => 31

namespace Date

/-- The date that many days after the first of January 1970. Years are counted from March, so that
the leap day ends them, in cycles of 400 years of 146097 days. -/
def ofDays (days : Int) : Date :=
  let shifted := days + 719468
  let cycle := shifted / 146097
  let dayOfCycle := shifted % 146097
  let yearOfCycle :=
    (dayOfCycle - dayOfCycle / 1460 + dayOfCycle / 36524 - dayOfCycle / 146096) / 365
  let dayOfYear := dayOfCycle - (365 * yearOfCycle + yearOfCycle / 4 - yearOfCycle / 100)
  let month := (5 * dayOfYear + 2) / 153
  let day := dayOfYear - (153 * month + 2) / 5 + 1
  let inNextYear := 10 ≤ month
  ⟨yearOfCycle + cycle * 400 + if inNextYear then 1 else 0,
    (if inNextYear then month - 9 else month + 3).toNat, day.toNat⟩

/-- The day of the year, from one. -/
def ordinal (d : Date) : Nat :=
  (List.range (d.month - 1)).foldl (fun n m => n + monthLength d.year (m + 1)) d.day

def quarter (d : Date) : Nat := (d.month - 1) / 3 + 1

end Date

namespace Moment

def wall (m : Moment) : Int := m.seconds + m.offset

def days (m : Moment) : Int := m.wall / 86400

def date (m : Moment) : Date := .ofDays m.days

def secondOfDay (m : Moment) : Nat := (m.wall % 86400).toNat

def hour (m : Moment) : Nat := m.secondOfDay / 3600

def minute (m : Moment) : Nat := m.secondOfDay / 60 % 60

def second (m : Moment) : Nat := m.secondOfDay % 60

def hour12 (m : Moment) : Nat := if m.hour % 12 = 0 then 12 else m.hour % 12

/-- Days since Sunday. -/
def weekday (m : Moment) : Nat := ((m.days + 4) % 7).toNat

/-- The day of the week from Monday, which is one. -/
def isoWeekday (m : Moment) : Nat := if m.weekday = 0 then 7 else m.weekday

/-- The week of the year when weeks begin on Sunday; the days before the first are in week zero. -/
def weekFromSunday (m : Moment) : Nat := (m.date.ordinal + 6 - m.weekday) / 7

def weekFromMonday (m : Moment) : Nat := (m.date.ordinal + 7 - m.isoWeekday) / 7

/-- A year has 53 weeks when it begins on a Thursday, or on a Wednesday and is a leap year. -/
def weeksIn (firstWeekday : Nat) (year : Int) : Nat :=
  if firstWeekday = 4 ∨ firstWeekday = 3 ∧ isLeap year then 53 else 52

/-- The weekday, from Monday, that the first of January had. -/
def firstWeekday (m : Moment) : Nat := (m.isoWeekday + 371 - m.date.ordinal) % 7 + 1

def firstWeekdayBefore (m : Moment) : Nat :=
  (m.firstWeekday + 6 + 7 - (if isLeap (m.date.year - 1) then 2 else 1)) % 7 + 1

/-- The year and week by weeks from Monday that belong to the year of their Thursday. -/
def isoWeek (m : Moment) : Int × Nat :=
  let year := m.date.year
  let week := (m.date.ordinal + 10 - m.isoWeekday) / 7
  if week = 0 then (year - 1, weeksIn m.firstWeekdayBefore (year - 1))
  else if weeksIn m.firstWeekday year < week then (year + 1, 1)
  else (year, week)

end Moment

end StatusLine
