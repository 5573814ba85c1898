import Almanac.Country.Metadata

/-!
# Relevance of source files

Before a file is read it must look like one that defines holidays: a class is declared in it, and
one of five registration methods is mentioned anywhere. This says nothing about what reading the
file will find.
-/

namespace Almanac.Country

open Almanac.Text

/-- Why a file is not worth reading. -/
inductive Irrelevance where
  | noClass
  | noRegistration
deriving DecidableEq, Repr

def Irrelevance.reason : Irrelevance → Text
  | noClass => "no class definition found"
  | noRegistration => "no holiday definitions found"

/-- The declaration of a class, white space before it included, up to its parenthesis or colon. -/
def declaration? (t : Text) : Option Unit := do
  let rest ← afterClass? (stripStart t)
  let (_, rest) ← name? rest
  match stripStart rest with
  | c :: _ => if c = '(' ∨ c = ':' then some () else none
  | [] => none

def registrationMarkers : List Text :=
  ["_add_holiday", "_add_easter_based_holiday", "_add_weekday_holiday", "_add_new_years_day",
   "_add_christmas_day"]

def irrelevance? (t : Text) : Option Irrelevance :=
  if (findLine? declaration? t).isNone then some .noClass
  else if registrationMarkers.any fun marker => contains marker t then none
  else some .noRegistration

end Almanac.Country
