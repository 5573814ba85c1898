import Almanac.Holiday.DateExpression
import Almanac.Holiday.WeekdayRule

/-!
# Definitions of holidays

A definition says how one holiday is computed, in terms that do not depend on the source: a day of
a month, a distance from Easter Sunday, a weekday of a month, or an expression that is left as it
is. The text of a weekday rule is kept even if the rule could not be read.
-/

namespace Almanac.Holiday

open Almanac.Text

/-- How a holiday is computed. -/
inductive Calculation where
  | fixed (month : Nat) (day : Int)
  | easterBased (offset : Int)
  | weekdayBased (rule : Option WeekdayRule) (expression : Option Text)
  | complex (expression : Option Text)
deriving DecidableEq, Repr

/-- The definition of a holiday. -/
structure Definition where
  name : Text
  category : Text
  calculation : Calculation
deriving DecidableEq, Repr

/-- The text, or nothing if it is empty. -/
def unlessEmpty (t : Text) : Option Text :=
  if t.isEmpty then none else some t

def Calculation.ofDate : DateExpression → Except NumberFault Calculation
  | .fixed month day => (Month.ofToken month).map fun m => fixed m day
  | .easterBased offset => .ok (easterBased offset)
  | .weekdayBased rule =>
      (WeekdayRule.ofText rule).map fun parsed => weekdayBased parsed (unlessEmpty rule)
  | .calculated expression => .ok (complex (unlessEmpty expression))

/-- A holiday as a source announces it: its name and when it falls. -/
structure Announcement where
  name : Text
  date : DateExpression
deriving DecidableEq, Repr

def Definition.ofAnnouncement (category : Text) (a : Announcement) :
    Except NumberFault Definition :=
  (Calculation.ofDate a.date).map fun calculation => ⟨a.name, category, calculation⟩

end Almanac.Holiday
