import Almanac.Time.Timestamp

/-!
# Moments by their distance

A clock counts the microseconds since the start of the year 1970 in universal time. Here such a
count becomes a timestamp.
-/

namespace Almanac.Time

/-- The year of a day that is counted from the first of January of the given year on, and the day
within it; both counts begin with one. -/
def yearAndDay : (year : Nat) → (fuel : Nat) → (day : Nat) → Nat × Nat
  | year, 0, day => (year, day)
  | year, fuel + 1, day =>
      if day ≤ daysInYear year then (year, day)
      else yearAndDay (year + 1) fuel (day - daysInYear year)

/-- The year from which a clock counts. -/
def firstYear : Nat := 1970

/-- The date so many days after the first of January of the first year; nothing beyond the end of
the calendar. -/
def Date.ofDays? (days : Nat) : Option Date :=
  let (year, day) := yearAndDay firstYear (10000 - firstYear) (days + 1)
  let (month, day) := monthAndDay year 1 11 day
  (Date.of year month day).toOption

def TimeOfDay.ofMicroseconds? (n : Nat) : Option TimeOfDay :=
  let second := n / 1000000
  if h : isTime (second / 3600) (second / 60 % 60) (second % 60) (n % 1000000) = true then
    some ⟨second / 3600, second / 60 % 60, second % 60, n % 1000000, h⟩
  else none

def Timestamp.ofMicroseconds? (n : Nat) : Option Timestamp := do
  let date ← Date.ofDays? (n / microsecondsInDay)
  let time ← TimeOfDay.ofMicroseconds? (n % microsecondsInDay)
  return ⟨date, time, some Offset.utc⟩

end Almanac.Time
