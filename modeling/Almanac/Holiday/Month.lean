import Almanac.Text.Case
import Almanac.Text.Blank
import Almanac.Text.Integer

/-!
# Months

A month is named by its English name, by the first three letters of it, or by its number, in any
case and with white space around it. Any other name stands for January.
-/

namespace Almanac.Holiday.Month

open Almanac.Text

def abbreviations : List (Text × Nat) :=
  [("JAN", 1), ("FEB", 2), ("MAR", 3), ("APR", 4), ("MAY", 5), ("JUN", 6),
   ("JUL", 7), ("AUG", 8), ("SEP", 9), ("OCT", 10), ("NOV", 11), ("DEC", 12)]

def fullNames : List (Text × Nat) :=
  [("JANUARY", 1), ("FEBRUARY", 2), ("MARCH", 3), ("APRIL", 4), ("MAY", 5), ("JUNE", 6),
   ("JULY", 7), ("AUGUST", 8), ("SEPTEMBER", 9), ("OCTOBER", 10), ("NOVEMBER", 11),
   ("DECEMBER", 12)]

def abbreviated? (name : Text) : Option Nat :=
  abbreviations.lookup name

/-- The number of the month with the given abbreviation or full name in capitals. -/
def named? (name : Text) : Option Nat :=
  (abbreviated? name).or (fullNames.lookup name)

def isNumeric (t : Text) : Bool :=
  !t.isEmpty && t.all isDigit

/-- The number of the month that a token stands for. A token of digits in the wide sense is read
as a number, which fails for digits that are no decimal ones. -/
def ofToken (token : Text) : Except NumberFault Nat :=
  let t := strip token
  match named? (upper t) with
  | some month => .ok month
  | none =>
      if isNumeric t then
        match readNat t with
        | .error e => .error e
        | .ok n => .ok (if 1 ≤ n ∧ n ≤ 12 then n else 1)
      else .ok 1

end Almanac.Holiday.Month
