import Almanac.Holiday.Definition
import Almanac.Proofs.Holiday.RuleParts

/-!
# Dates with readable numbers

A date expression is turned into a calculation unless a number in it cannot be read: the number of
a month with too many digits, or the first part of a weekday rule that has the form of an integer,
if it has too many digits or white space other than spaces behind its sign.
-/

namespace Almanac.Holiday

open Almanac.Text

/-! ## Weekday rules -/

namespace WeekdayRule

/-- The part of a rule that is converted to a number. -/
def occurrencePart? (rule : Text) : Option Text :=
  ((pieces ',' rule).map part).find? isInteger

theorem findSome?_integerOf? (written : List Text) :
    written.findSome? integerOf? = (written.find? isInteger).map integer := by
  induction written with
  | nil => rfl
  | cons part rest ih =>
      rw [List.findSome?_cons, List.find?_cons, integerOf?]
      cases isInteger part with
      | true => rfl
      | false => exact ih

theorem ofText_ok_iff (rule : Text) : (∃ parsed, ofText rule = .ok parsed) ↔
    ∀ written, occurrencePart? rule = some written → IsReadableInteger written := by
  rw [ofText_eq, map_ok_iff, counted, findSome?_integerOf?, occurrencePart?, parts]
  cases hfound : ((pieces ',' rule).map part).find? isInteger with
  | none => simp
  | some written =>
      have hread := integer_ok_iff (List.find?_some hfound)
      rw [Option.map_some]
      simp only [Option.some.injEq, forall_eq']
      rw [← hread]
      cases integer written <;> simp

end WeekdayRule

/-! ## Dates -/

namespace DateExpression

/-- No number in the date has too many digits, and none has white space other than spaces behind
its sign. -/
def IsReadable : DateExpression → Prop
  | .fixed month _ => (∀ c ∈ month, isDecimal c = true) → month.length ≤ maxDigits
  | .weekdayBased rule => ∀ written, WeekdayRule.occurrencePart? rule = some written →
      WeekdayRule.IsReadableInteger written
  | _ => True

/-- The month of the date, if it has one, is a name or a number. -/
def HasMonthToken : DateExpression → Prop
  | .fixed month _ => Month.IsToken month
  | _ => True

/-- The numbers of the date, as far as they have been read, have no more digits than are read. -/
def HasShortNumbers : DateExpression → Prop
  | .fixed _ day => IsShort day
  | .easterBased offset => IsShort offset
  | _ => True

/-- The date is one that a registration call can tell. -/
structure IsTold (date : DateExpression) : Prop where
  month : date.HasMonthToken
  numbers : date.HasShortNumbers

/-- A date is turned into a definition just if its numbers are readable. -/
theorem ofAnnouncement_ok_iff (category : Text) {a : Announcement} (hmonth : a.date.HasMonthToken) :
    (∃ definition, Definition.ofAnnouncement category a = .ok definition) ↔ a.date.IsReadable := by
  refine (map_ok_iff _ _).trans ?_
  cases hdate : a.date with
  | fixed month day =>
      rw [hdate] at hmonth
      exact (map_ok_iff _ _).trans (Month.ofToken_ok_iff hmonth)
  | easterBased offset => exact iff_of_true ⟨_, rfl⟩ trivial
  | weekdayBased rule =>
      exact (map_ok_iff _ _).trans (WeekdayRule.ofText_ok_iff rule)
  | calculated expression => exact iff_of_true ⟨_, rfl⟩ trivial

end DateExpression
end Almanac.Holiday
