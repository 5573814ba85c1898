import Almanac.Holiday.Month
import Almanac.Text.Letter

/-!
# Weekday rules

A rule such as `MAY, MON, -1` names a month, a weekday and an occurrence within the month, counted
from its end if it is negative. The three are told apart by their form, so their order is free,
and keywords before them do not matter.
-/

namespace Almanac.Holiday

open Almanac.Text

/-- An occurrence of a weekday in a month. Monday is the weekday zero. -/
structure WeekdayRule where
  month : Int
  weekday : Int
  occurrence : Int
deriving DecidableEq, Repr

namespace WeekdayRule

def weekdays : List (Text × Nat) :=
  [("MON", 0), ("TUE", 1), ("WED", 2), ("THU", 3), ("FRI", 4), ("SAT", 5), ("SUN", 6)]

/-- The weekday that a part in capitals names: letters only, of which the first three count. -/
def weekday? (part : Text) : Option Nat :=
  if part.all isLetter then weekdays.lookup (part.take 3) else none

/-- Does a part have the form of an integer: a sign or none, white space, and decimal digits? -/
def isInteger (part : Text) : Bool :=
  let unsigned := match part with
    | '+' :: rest => stripStart rest
    | '-' :: rest => stripStart rest
    | _ => stripStart part
  !unsigned.isEmpty && unsigned.all isDecimal

/-- The integer that a part has the form of. The spaces within it are left out; other white space
behind its sign keeps it from being read. -/
def integer (part : Text) : Except NumberFault Int :=
  readInt (substitute ' ' [] part)

/-- A part of a rule, stripped and without the keyword before it. -/
def part (piece : Text) : Text :=
  match (strip piece).dropWhile (· ≠ '=') with
  | [] => strip piece
  | _ :: value => strip value

/-- What the parts of a rule have named so far. -/
structure Found where
  month : Option Nat
  weekday : Option Nat
  occurrence : Option Int
deriving DecidableEq, Repr

/-- What has been named after one more part. Of parts of one sort only the first counts. -/
def Found.step (found : Found) (piece : Text) : Except NumberFault Found :=
  let written := part piece
  let capitals := upper written
  match if found.month.isNone then Month.abbreviated? capitals else none with
  | some month => .ok { found with month := some month }
  | none =>
      match if found.weekday.isNone then weekday? capitals else none with
      | some weekday => .ok { found with weekday := some weekday }
      | none =>
          if found.occurrence.isNone && isInteger written then
            match integer written with
            | .error e => .error e
            | .ok n => .ok { found with occurrence := some n }
          else .ok found

/-- The rule that has been named, if all three of its parts have been and the occurrence is not
zero. -/
def Found.rule? (found : Found) : Option WeekdayRule :=
  match found.month, found.weekday, found.occurrence with
  | some month, some weekday, some occurrence =>
      if occurrence = 0 then none else some ⟨month, weekday, occurrence⟩
  | _, _, _ => none

def ofText (t : Text) : Except NumberFault (Option WeekdayRule) :=
  match (pieces ',' t).foldlM Found.step ⟨none, none, none⟩ with
  | .error e => .error e
  | .ok found => .ok found.rule?

end WeekdayRule
end Almanac.Holiday
