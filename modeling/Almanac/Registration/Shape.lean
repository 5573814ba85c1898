import Almanac.Holiday.DateExpression

/-!
# Shapes of registration calls

A source file registers a holiday by a call on `self`. There are five shapes of call. Three have a
method name of their own, one names the date in the method name, and one has a method for each of
twenty well-known feasts. The site of a call is found by its method name and the parenthesis that
opens its arguments; white space may stand between them.
-/

namespace Almanac.Registration

open Almanac.Text Almanac.Holiday

/-- The shapes of registration calls. -/
inductive Shape where
  | generic
  | easterBased
  | weekdayBased
  | dateSuffixed
  | namedHelper
deriving DecidableEq, Repr

namespace Shape

def name : Shape → Text
  | generic => "generic"
  | easterBased => "easter_based"
  | weekdayBased => "weekday_based"
  | dateSuffixed => "date_suffixed"
  | namedHelper => "named_helper"

def all : List Shape :=
  [generic, easterBased, weekdayBased, dateSuffixed, namedHelper]

end Shape

def feasts : List (Text × DateExpression) :=
  [("_add_new_years_day", .fixed "JAN" 1),
   ("_add_epiphany_day", .fixed "JAN" 6),
   ("_add_labor_day", .fixed "MAY" 1),
   ("_add_assumption_of_mary_day", .fixed "AUG" 15),
   ("_add_all_saints_day", .fixed "NOV" 1),
   ("_add_immaculate_conception_day", .fixed "DEC" 8),
   ("_add_christmas_eve", .fixed "DEC" 24),
   ("_add_christmas_day", .fixed "DEC" 25),
   ("_add_christmas_day_two", .fixed "DEC" 26),
   ("_add_new_years_eve", .fixed "DEC" 31),
   ("_add_ash_wednesday", .easterBased (-46)),
   ("_add_holy_thursday", .easterBased (-3)),
   ("_add_good_friday", .easterBased (-2)),
   ("_add_holy_saturday", .easterBased (-1)),
   ("_add_easter_sunday", .easterBased 0),
   ("_add_easter_monday", .easterBased 1),
   ("_add_ascension_thursday", .easterBased 39),
   ("_add_whit_sunday", .easterBased 49),
   ("_add_whit_monday", .easterBased 50),
   ("_add_corpus_christi_day", .easterBased 60)]

/-- The method of a call, with what its name alone tells about the date. -/
inductive Method where
  /-- A method whose name tells no date. -/
  | plain (name : Text)
  /-- A method whose name ends in a month and the digits of a day. -/
  | dated (name month day : Text)
  /-- The method of a feast, and its date. -/
  | feast (name : Text) (date : DateExpression)
deriving DecidableEq, Repr

def Method.name : Method → Text
  | plain name => name
  | dated name _ _ => name
  | feast name _ => name

/-- The place of a call on a line: its method, and the rest of the line behind the parenthesis that
opens the arguments. -/
structure Site where
  method : Method
  arguments : Text
deriving DecidableEq, Repr

namespace Shape

def isLowerLetter (c : Char) : Bool :=
  'a' ≤ c && c ≤ 'z'

/-- The method of the given name and the text behind it, if the text begins so and arguments
follow. -/
def named? (name : Text) (method : Method) (t : Text) : Option Site := do
  -- the parenthesis keeps a method from matching a longer name
  let rest ← after? name t
  let arguments ← afterBlank? "(" rest
  return ⟨method, arguments⟩

def dated? (t : Text) : Option Site := do
  let rest ← after? "_add_holiday_" t
  match rest with
  | a :: b :: c :: '_' :: rest =>
      if isLowerLetter a && isLowerLetter b && isLowerLetter c then
        let (day, rest) ← oneOrTwoDigits? rest
        let arguments ← afterBlank? "(" rest
        return ⟨.dated ("_add_holiday_" ++ [a, b, c, '_'] ++ day) [a, b, c] day, arguments⟩
      else none
  | _ => none

/-- The method of a call of the shape at the start of the text. -/
def method? : Shape → Text → Option Site
  | generic, t => named? "_add_holiday" (.plain "_add_holiday") t
  | easterBased, t => named? "_add_easter_based_holiday" (.plain "_add_easter_based_holiday") t
  | weekdayBased, t => named? "_add_weekday_holiday" (.plain "_add_weekday_holiday") t
  | dateSuffixed, t => dated? t
  | namedHelper, t =>
      feasts.findSome? fun (name, date) => named? name (.feast name date) t

def siteHere? (shape : Shape) (t : Text) : Option Site :=
  (after? "self." t).bind shape.method?

def site? (shape : Shape) (line : Text) : Option Site :=
  findWord? shape.siteHere? line

end Shape

/-- The first shape of the table that the line has a call of, and that call's site. -/
def firstSite? (shapes : List Shape) (line : Text) : Option (Shape × Site) :=
  shapes.findSome? fun shape => (shape.site? line).map fun site => (shape, site)

def hasSite (shapes : List Shape) (line : Text) : Bool :=
  shapes.any fun shape => (shape.site? line).isSome

end Almanac.Registration
