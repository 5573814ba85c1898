import Almanac.Text.Integer
import Almanac.Text.Search

/-!
# Date expressions

The arguments of a registration call tell when the holiday falls. Two forms are recognised
anywhere in them, the first before the second: a date of a month, `date(year, JUN, 24)`, and a
distance from Easter Sunday, `easter(year)` alone or with a shift such as `+ timedelta(days=1)`.
Everything else is kept as it stands.
-/

namespace Almanac.Holiday

open Almanac.Text

/-- When a holiday falls, as far as a registration call tells. -/
inductive DateExpression where
  /-- A day of a month; the month is named as the source names it. -/
  | fixed (month : Text) (day : Int)
  /-- So many days after Easter Sunday. -/
  | easterBased (offset : Int)
  /-- A weekday of a month, in the words of the source. -/
  | weekdayBased (rule : Text)
  /-- Anything else, in the words of the source. -/
  | calculated (expression : Text)
deriving DecidableEq, Repr

namespace DateExpression

/-- The rest of the text behind `year`, `self.year` or `self._year` and the white space before
it. -/
def afterYear? (t : Text) : Option Text :=
  let t := stripStart t
  match after? "self." t with
  | none => after? "year" t
  | some rest => after? "year" ((after? "_" rest).getD rest)

/-- The name or number of a month at the start of the text: ASCII letters or decimal digits. -/
def month? (t : Text) : Option (Text × Text) :=
  match some? Char.isAlpha t with
  | some found => some found
  | none => some? isDecimal t

/-- A date of a month at the start of the text, as the month and the digits of the day. -/
def fixedDate? (t : Text) : Option (Text × Text) := do
  let rest ← after? "date" t
  let rest ← afterBlank? "(" rest
  let rest ← afterYear? rest
  let rest ← afterBlank? "," rest
  let (month, rest) ← month? (stripStart rest)
  let rest ← afterBlank? "," rest
  let (day, rest) ← oneOrTwoDigits? (stripStart rest)
  let _ ← afterBlank? ")" rest
  return (month, day)

/-- A shift by a number of days: whether it goes back, and the digits of the number. -/
structure Shift where
  backward : Bool
  digits : Text
deriving Repr

def sign? : Text → Option (Bool × Text)
  | '+' :: rest => some (false, rest)
  | '-' :: rest => some (true, rest)
  | _ => none

def spanNames : List Text :=
  ["rd", "td", "timedelta", "relativedelta"]

/-- A shift at the start of the text. A minus sign before the span and one within it cancel each
other. -/
def shift? (t : Text) : Option Shift := do
  let (outer, rest) ← sign? (stripStart t)
  let rest ← spanNames.findSome? fun name => (afterBlank? name rest).bind (afterBlank? "(")
  let rest ← afterBlank? "days" rest
  let rest ← afterBlank? "=" rest
  let rest := stripStart rest
  let (inner, rest) := (sign? rest).getD (false, rest)
  let (digits, rest) ← some? isDecimal (stripStart rest)
  let _ ← afterBlank? ")" rest
  return ⟨outer != inner, digits⟩

/-- Easter Sunday of the year at the start of the text, with the shift behind it if there is
one. -/
def easter? (t : Text) : Option (Option Shift) := do
  let rest ← after? "easter" t
  let rest ← afterBlank? "(" rest
  let rest ← afterYear? rest
  let rest ← afterBlank? ")" rest
  return shift? rest

/-- The expression that the text of the arguments holds. Reading fails only for a shift with too
many digits. -/
def classify (arguments : Text) : Except NumberFault DateExpression := do
  match findWord? fixedDate? arguments with
  | some (month, day) => return fixed month (← readNat day)
  | none =>
      match findWord? easter? arguments with
      | none => return calculated (strip arguments)
      | some none => return easterBased 0
      | some (some shift) =>
          let n ← readNat shift.digits
          return easterBased (if shift.backward then -(n : Int) else n)

end DateExpression
end Almanac.Holiday
