import Almanac.Text.Basic

/-!
# Calendar dates

Dates of the Gregorian calendar, carried back to the year 1 and ending with the year 9999, and the
dates of weeks: a week begins on a Monday and belongs to the year that holds its Thursday.
-/

namespace Almanac.Time

def isLeapYear (year : Nat) : Bool :=
  year % 4 = 0 && (year % 100 ≠ 0 || year % 400 = 0)

def daysInMonth (year month : Nat) : Nat :=
  match month with
  | 2 => if isLeapYear year then 29 else 28
  | 4 | 6 | 9 | 11 => 30
  | _ => 31

def daysInYear (year : Nat) : Nat :=
  if isLeapYear year then 366 else 365

def isDate (year month day : Nat) : Bool :=
  1 ≤ year && year ≤ 9999 && 1 ≤ month && month ≤ 12 && 1 ≤ day && day ≤ daysInMonth year month

/-- A calendar date. -/
structure Date where
  year : Nat
  month : Nat
  day : Nat
  exists_in_calendar : isDate year month day = true
deriving DecidableEq

/-- Why a year, a month and a day make no date. -/
inductive DateProblem where
  | year (year : Nat)
  | month
  | day
deriving DecidableEq, Repr

/-- The date with the given parts; of several wrong parts the first is blamed. -/
def Date.of (year month day : Nat) : Except DateProblem Date :=
  if h : isDate year month day = true then .ok ⟨year, month, day, h⟩
  else if year < 1 ∨ 9999 < year then .error (.year year)
  else if month < 1 ∨ 12 < month then .error .month
  else .error .day

/-- The number of days before the first of January of a year. -/
def daysBeforeYear (year : Nat) : Nat :=
  let y := year - 1
  y * 365 + y / 4 - y / 100 + y / 400

/-- The weekday of the first of January, Monday being zero. -/
def firstWeekday (year : Nat) : Nat :=
  daysBeforeYear year % 7

/-- The number of weeks that belong to a year. -/
def weeksInYear (year : Nat) : Nat :=
  if firstWeekday year = 3 ∨ (firstWeekday year = 2 ∧ isLeapYear year) then 53 else 52

/-- The month and day of a day of the year, days and months both counted from one. -/
def monthAndDay (year : Nat) : (month : Nat) → (fuel : Nat) → (day : Nat) → Nat × Nat
  | month, 0, day => (month, day)
  | month, fuel + 1, day =>
      if day ≤ daysInMonth year month then (month, day)
      else monthAndDay year (month + 1) fuel (day - daysInMonth year month)

/-- The year, month and day of a weekday, Monday being one, in a week of a year; nothing if the
year has no such week or the week no such day. The day can fall into a neighbouring year. -/
def weekDate? (year week weekday : Nat) : Option (Nat × Nat × Nat) :=
  if year < 1 ∨ 9999 < year ∨ week < 1 ∨ weeksInYear year < week ∨ weekday < 1 ∨ 7 < weekday then
    none
  else
    -- the Monday of the first week lies this many days after the last day of the year before
    let first := firstWeekday year
    let monday : Int := if 3 < first then 8 - (first : Int) else 1 - (first : Int)
    let day : Int := monday + (week - 1 : Nat) * 7 + (weekday - 1 : Nat)
    if day < 1 then
      let (m, d) := monthAndDay (year - 1) 1 11 (day + daysInYear (year - 1)).toNat
      some (year - 1, m, d)
    else if daysInYear year < day then some (year + 1, 1, (day - daysInYear year).toNat)
    else
      let (m, d) := monthAndDay year 1 11 day.toNat
      some (year, m, d)

end Almanac.Time
