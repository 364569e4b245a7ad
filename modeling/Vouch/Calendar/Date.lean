namespace Vouch

/-- A day of the Gregorian calendar, which is carried back to the year 1. -/
structure Date where
  year : Nat
  month : Nat
  day : Nat
  deriving DecidableEq

namespace Date

def isLeap (year : Nat) : Bool :=
  year % 4 == 0 && (year % 100 != 0 || year % 400 == 0)

def monthLengths (leap : Bool) : List Nat :=
  [31, if leap then 29 else 28, 31, 30, 31, 30, 31, 31, 30, 31, 30, 31]

def monthLength (year month : Nat) : Nat :=
  (monthLengths (isLeap year)).getD (month - 1) 0

/-- The days of all years before a year, counted from 1 January of the year 1. -/
def daysBeforeYear (year : Nat) : Nat :=
  365 * (year - 1) + (year - 1) / 4 - (year - 1) / 100 + (year - 1) / 400

def daysBeforeMonth (year month : Nat) : Nat :=
  ((monthLengths (isLeap year)).take (month - 1)).foldr (· + ·) 0

/-- The days from the years 1 to 9999 that exist. -/
def Valid (d : Date) : Prop :=
  1 ≤ d.year ∧ d.year ≤ 9999 ∧ 1 ≤ d.month ∧ d.month ≤ 12 ∧ 1 ≤ d.day ∧
    d.day ≤ monthLength d.year d.month

instance (d : Date) : Decidable d.Valid :=
  inferInstanceAs (Decidable (_ ∧ _))

/-- How many days lie between a day and 1 January of the year 1. -/
def number (d : Date) : Nat :=
  daysBeforeYear d.year + daysBeforeMonth d.year d.month + (d.day - 1)

/-- The year of a day. Four hundred years have 146097 days. Counting with their mean length finds
the right year or the one before it. -/
def yearOfNumber (n : Nat) : Nat :=
  let guess := n * 400 / 146097 + 1
  if daysBeforeYear (guess + 1) ≤ n then guess + 1 else guess

/-- The month in which a day of the year falls. -/
def monthOfYearDay (year n : Nat) : Nat :=
  1 + (List.range 11).countP fun m => daysBeforeMonth year (m + 2) ≤ n

/-- The day that lies so many days after 1 January of the year 1. -/
def ofNumber (n : Nat) : Date :=
  let year := yearOfNumber n
  let yearDay := n - daysBeforeYear year
  let month := monthOfYearDay year yearDay
  ⟨year, month, yearDay - daysBeforeMonth year month + 1⟩

/-- The number of days from the year 1 to the year 9999. -/
def calendarDays : Nat := 3652059

/-- The day of the week, Monday being zero: the calendar begins on a Monday. -/
def weekday (n : Nat) : Nat := n % 7

/-- The Monday of the first week of a year, as an offset in days from the start of the calendar.
The first week is the one with the first Thursday. -/
def firstMonday (year : Nat) : Int :=
  let start := daysBeforeYear year
  let monday : Int := (start : Int) - weekday start
  if 3 < weekday start then monday + 7 else monday

/-- A year has 53 weeks if it begins on a Thursday, or is a leap year and begins on a
Wednesday. -/
def weeksIn (year : Nat) : Nat :=
  let start := weekday (daysBeforeYear year)
  if start = 3 ∨ start = 2 ∧ isLeap year then 53 else 52

/-- The day given by year, week and day of the week, as a day number. -/
def ofWeek? (year week day : Nat) : Option Nat :=
  let n := firstMonday year + 7 * ((week : Int) - 1) + ((day : Int) - 1)
  if 1 ≤ year ∧ year ≤ 9999 ∧ 1 ≤ week ∧ week ≤ weeksIn year ∧ 1 ≤ day ∧ day ≤ 7 ∧
      0 ≤ n ∧ n < calendarDays then
    some n.toNat
  else none

end Date

end Vouch
