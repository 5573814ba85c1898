import Almanac.Proofs.Holiday.ReadableDates
import Almanac.Proofs.Outcome

/-!
# Numbers in definitions

A date that a call tells is turned into a definition whose month is one of the twelve and whose
other numbers are short. The numbers of a weekday rule are short in whatever words the rule is
told.
-/

namespace Almanac.Holiday

open Almanac.Text

/-! ## Months -/

namespace Month

theorem bounds_of_lookup {table : List (Text × Nat)} {name : Text} {month : Nat}
    (htable : ∀ entry ∈ table, 1 ≤ entry.2 ∧ entry.2 ≤ 12)
    (h : table.lookup name = some month) : 1 ≤ month ∧ month ≤ 12 := by
  obtain ⟨before, after, rfl, -⟩ := List.lookup_eq_some_iff.mp h
  exact htable (name, month) (by simp)

theorem bounds_of_abbreviated? {name : Text} {month : Nat} (h : abbreviated? name = some month) :
    1 ≤ month ∧ month ≤ 12 :=
  bounds_of_lookup (by decide) h

theorem bounds_of_named? {name : Text} {month : Nat} (h : named? name = some month) :
    1 ≤ month ∧ month ≤ 12 := by
  rcases Option.or_eq_some_iff.mp h with habbreviated | ⟨-, hfull⟩
  · exact bounds_of_abbreviated? habbreviated
  · exact bounds_of_lookup (by decide) hfull

/-- A token stands for a month from January to December. -/
theorem bounds_of_ofToken {token : Text} {month : Nat} (h : ofToken token = .ok month) :
    1 ≤ month ∧ month ≤ 12 := by
  unfold ofToken at h
  dsimp only at h
  split at h
  next found hnamed =>
    obtain rfl := Except.ok.inj h
    exact bounds_of_named? hnamed
  next =>
    split at h
    next =>
      split at h
      next => cases h
      next n _ =>
        obtain rfl := Except.ok.inj h
        split <;> omega
    next =>
      obtain rfl := Except.ok.inj h
      decide

end Month

/-! ## Weekday rules -/

namespace WeekdayRule

structure HasShortNumbers (rule : WeekdayRule) : Prop where
  month : IsShort rule.month
  weekday : IsShort rule.weekday
  occurrence : IsShort rule.occurrence

theorem IsMonthPart.bounds {written : Text} {month : Nat} (h : IsMonthPart written month) :
    1 ≤ month ∧ month ≤ 12 :=
  Month.bounds_of_abbreviated? ((monthOf?_eq_some_iff written month).mpr h)

theorem IsWeekdayPart.lt {written : Text} {weekday : Nat} (h : IsWeekdayPart written weekday) :
    weekday < 7 := by
  have htable : ∀ entry ∈ weekdays, entry.2 < 7 := by decide
  exact htable _ h.abbreviation

theorem isShort_of_integerOf? {written : Text} {n : Int}
    (h : integerOf? written = some (.ok n)) : IsShort n := by
  unfold integerOf? at h
  split at h
  next => exact isShort_of_readInt (Option.some.inj h)
  next => cases h

/-- The occurrence is read of one of the parts. -/
theorem isShort_of_counted {parts : List Text} {n : Int}
    (h : counted none parts = .ok (some n)) : IsShort n := by
  rw [counted] at h
  split at h
  next => cases h
  next found hfound =>
    obtain rfl := Option.some.inj (Except.ok.inj h)
    obtain ⟨written, -, hwritten⟩ := List.exists_of_findSome?_eq_some hfound
    exact isShort_of_integerOf? hwritten
  next => cases h

theorem hasShortNumbers_of_ofText {t : Text} {rule : WeekdayRule}
    (h : ofText t = .ok (some rule)) : rule.HasShortNumbers := by
  obtain ⟨⟨month, hmonth, hmonthly⟩, ⟨weekday, hweekday, hweekly⟩, -, -⟩ :=
    (eq_some_iff_isTold h).mp rfl
  obtain ⟨written, -, hwritten⟩ := hmonth.exists_mem
  have hbounds := hwritten.bounds
  obtain ⟨written', -, hwritten'⟩ := hweekday.exists_mem
  have hbound := hwritten'.lt
  rw [ofText_eq] at h
  obtain ⟨occurrence, hcounted, hrule⟩ := exists_of_map_eq_ok h
  obtain ⟨-, -, hoccurrence, -⟩ := rule?_eq_some_iff.mp hrule
  obtain rfl : occurrence = some rule.occurrence := hoccurrence
  refine ⟨?_, ?_, isShort_of_counted hcounted⟩
  · rw [hmonthly]
    exact isShort_of_lt (by omega)
  · rw [hweekly]
    exact isShort_of_lt (by omega)

end WeekdayRule

/-! ## Definitions -/

/-- The month is one of the twelve, and the other numbers are short. -/
def Calculation.IsRegular : Calculation → Prop
  | .fixed month day => (1 ≤ month ∧ month ≤ 12) ∧ IsShort day
  | .easterBased offset => IsShort offset
  | .weekdayBased rule _ => ∀ found, rule = some found → found.HasShortNumbers
  | .complex _ => True

theorem Calculation.isRegular_of_ofDate {date : DateExpression} {calculation : Calculation}
    (hdate : date.HasShortNumbers) (h : Calculation.ofDate date = .ok calculation) :
    calculation.IsRegular := by
  cases date with
  | fixed month day =>
      obtain ⟨number, htoken, rfl⟩ := exists_of_map_eq_ok h
      exact ⟨Month.bounds_of_ofToken htoken, hdate⟩
  | easterBased offset =>
      obtain rfl := Except.ok.inj h
      exact hdate
  | weekdayBased rule =>
      obtain ⟨parsed, hrule, rfl⟩ := exists_of_map_eq_ok h
      rintro found rfl
      exact WeekdayRule.hasShortNumbers_of_ofText hrule
  | calculated expression =>
      obtain rfl := Except.ok.inj h
      trivial

theorem Definition.isRegular_of_ofAnnouncement {category : Text} {a : Announcement}
    {definition : Definition} (hdate : a.date.HasShortNumbers)
    (h : Definition.ofAnnouncement category a = .ok definition) :
    definition.calculation.IsRegular := by
  obtain ⟨calculation, hcalculation, rfl⟩ := exists_of_map_eq_ok h
  exact Calculation.isRegular_of_ofDate hdate hcalculation

end Almanac.Holiday
