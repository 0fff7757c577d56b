/-!
# Days of the calendar

The Gregorian calendar, extended over the years 1 to 9999. Day 0 is the first of January of the
year 1, a Monday.
-/

namespace Cadence.Calendar

def isLeap (year : Nat) : Bool := year % 4 = 0 && (year % 100 ≠ 0 || year % 400 = 0)

def monthDays (year month : Nat) : Nat :=
  match month with
  | 2 => if isLeap year then 29 else 28
  | 4 | 6 | 9 | 11 => 30
  | _ => 31

def daysBeforeYear (year : Nat) : Nat :=
  let past := year - 1
  past * 365 + past / 4 - past / 100 + past / 400

def daysBeforeMonth (year : Nat) : Nat → Nat
  | 0 => 0
  | 1 => 0
  | month + 1 => daysBeforeMonth year month + monthDays year month

structure Date where
  year : Nat
  month : Nat
  day : Nat
deriving DecidableEq, Repr, Inhabited

def Date.isValid (d : Date) : Bool :=
  1 ≤ d.year && d.year ≤ 9999 && 1 ≤ d.month && d.month ≤ 12 && 1 ≤ d.day &&
    d.day ≤ monthDays d.year d.month

def Date.toDays (d : Date) : Nat :=
  daysBeforeYear d.year + daysBeforeMonth d.year d.month + (d.day - 1)

/-- The year of a day: an estimate from the mean length of a year is off by one at most. -/
def yearOfDay (n : Nat) : Nat :=
  let guess := n * 400 / 146097 + 1
  if n < daysBeforeYear guess then guess - 1
  else if daysBeforeYear (guess + 1) ≤ n then guess + 1
  else guess

/-- The month and the day of the month of the `n`-th day that follows the first of a month. -/
def monthOfDay (year : Nat) : Nat → Nat → Nat → Nat × Nat
  | 0, month, n => (month, n + 1)
  | left + 1, month, n =>
    if n < monthDays year month then (month, n + 1)
    else monthOfDay year left (month + 1) (n - monthDays year month)

def Date.ofDays (n : Nat) : Date :=
  let year := yearOfDay n
  let (month, day) := monthOfDay year 11 1 (n - daysBeforeYear year)
  ⟨year, month, day⟩

/-- The number of days from the first of January of the year 1 to the last of December 9999. -/
def totalDays : Nat := 3652059

/-- The first day of the first week of a year, which is the week of the first Thursday; the last
days of a year may belong to the first week of the next, the first ones to the last week before. -/
def firstWeekStart (year : Nat) : Int :=
  let first := daysBeforeYear year
  let weekday := first % 7
  if weekday > 3 then (first : Int) - weekday + 7 else (first : Int) - weekday

/-- Whether a year has 53 weeks: it starts on a Thursday, or on a Wednesday with a day more. -/
def hasLongWeekYear (year : Nat) : Bool :=
  let weekday := daysBeforeYear year % 7
  weekday = 3 || (weekday = 2 && isLeap year)

/-- The day of a week and weekday, both counted from one. -/
def dayOfWeekDate? (year week weekday : Nat) : Option Nat :=
  if 1 ≤ year ∧ year ≤ 9999 ∧ 1 ≤ week ∧ (week ≤ 52 ∨ (week = 53 ∧ hasLongWeekYear year)) ∧
      1 ≤ weekday ∧ weekday ≤ 7 then
    let n := firstWeekStart year + ((week - 1) * 7 + (weekday - 1) : Nat)
    if 0 ≤ n ∧ n < totalDays then some n.toNat else none
  else none

end Cadence.Calendar
