import Almanac.Country.Profile
import Almanac.Proofs.Holiday.AnnouncedCatalogs
import Almanac.Proofs.Registration.CallNumbers
import Almanac.Proofs.Strategy.ClassCalls

/-!
# Faults that end the reading of a file

A source file that looks like one with holidays gives a profile unless a number in it cannot be
read. Two sorts of numbers count: the distances from Easter Sunday that calls tell, which are read
with the calls, and the numbers in the dates of the calls that are converted. No other fault gets
out, since the policy of numbered keys refuses nothing and a source without classes is left to
the line-pattern strategy.
-/

namespace Almanac.Country

open Almanac.Text Almanac.Data Almanac.Holiday Almanac.Source Almanac.Registration Almanac.Strategy

/-! ## Catalogs of calls -/

/-- Calls with readable months make a catalog, or a number in one of their dates is to blame. -/
theorem catalogOf_suffix_spec {calls : List Call}
    (hmonths : ∀ call ∈ calls, call.date.HasMonthToken) :
    (∃ catalog, Strategy.catalogOf .suffix calls = .ok catalog ∧
      (∀ call ∈ calls, call.date.IsReadable) ∧
      (catalog = [] ↔ ∀ call ∈ calls, (Key.ofName call.name).isEmpty = true)) ∨
    ∃ fault, Strategy.catalogOf .suffix calls = .error (.number fault) ∧
      ∃ call ∈ calls, ¬ call.date.IsReadable := by
  unfold Strategy.catalogOf
  have hannounced : ∀ a ∈ calls.map announcement, a.date.HasMonthToken := by
    simpa [announcement] using hmonths
  rcases Catalog.ofAnnouncements_suffix_spec hannounced with
    ⟨catalog, hcatalog, hreadable, hempty⟩ | ⟨fault, hfault, hblame⟩
  · exact .inl ⟨catalog, by rw [hcatalog]; rfl, by simpa [announcement] using hreadable,
      by simpa [announcement] using hempty⟩
  · exact .inr ⟨fault, by rw [hfault]; rfl, by simpa [announcement] using hblame⟩

/-- The calls from the first class of the outline on. -/
def callsFrom (first : Source.Class) (calls : List Call) : List Call :=
  calls.filter fun call => first.line ≤ call.line

namespace Reading

/-- The calls that are turned into definitions. Without a comparison these are the calls from the
first class on, unless there is no class or none of these calls has a name with a key. -/
def converted (t : Text) (compared : Option (List TokenRule)) (calls : List Call) : List Call :=
  match compared, (Outline.ofText TokenRule.all t).classes with
  | none, first :: _ =>
      if (callsFrom first calls).all fun call => (Key.ofName call.name).isEmpty then calls
      else callsFrom first calls
  | _, _ => calls

theorem converted_of_noClass {t : Text} (hclasses : (Outline.ofText TokenRule.all t).classes = [])
    (calls : List Call) : converted t none calls = calls := by
  unfold converted
  rw [hclasses]

theorem converted_of_class {t : Text} {first : Source.Class} {others : List Source.Class}
    (hclasses : (Outline.ofText TokenRule.all t).classes = first :: others) (calls : List Call) :
    converted t none calls =
      if (callsFrom first calls).all fun call => (Key.ofName call.name).isEmpty then calls
      else callsFrom first calls := by
  unfold converted
  rw [hclasses]

/-- The numbers of a file are readable: those that are read with its calls, and those in the dates
of the calls that are turned into definitions. -/
def HasReadableNumbers (t : Text) (compared : Option (List TokenRule)) : Prop :=
  Calls.HasReadableDistances .standard (lines t) ∧
    ∀ calls, Calls.ofText .standard t = .ok calls →
      ∀ call ∈ converted t compared calls.found, call.date.IsReadable

/-- A value, or the fault of a number. -/
def ValueOrNumber {α : Type} (outcome : Except Strategy.Fault α) (readable : Prop) : Prop :=
  ((∃ value, outcome = .ok value) ∧ readable) ∨
    (∃ fault, outcome = .error (.number fault)) ∧ ¬ readable

theorem ValueOrNumber.map {α β : Type} {outcome : Except Strategy.Fault α} {readable : Prop}
    (h : ValueOrNumber outcome readable) (f : α → β) : ValueOrNumber (outcome.map f) readable := by
  rcases h with ⟨⟨value, rfl⟩, hreadable⟩ | ⟨⟨fault, rfl⟩, hreadable⟩
  · exact .inl ⟨⟨f value, rfl⟩, hreadable⟩
  · exact .inr ⟨⟨fault, rfl⟩, hreadable⟩

/-! ## Strategies -/

theorem valueOrNumber_catalogOf_suffix {calls : List Call}
    (hmonths : ∀ call ∈ calls, call.date.HasMonthToken) :
    ValueOrNumber (Strategy.catalogOf .suffix calls) (∀ call ∈ calls, call.date.IsReadable) := by
  rcases catalogOf_suffix_spec hmonths with
    ⟨catalog, hcatalog, hreadable, -⟩ | ⟨fault, hfault, call, hmem, hblame⟩
  · exact .inl ⟨⟨catalog, hcatalog⟩, hreadable⟩
  · exact .inr ⟨⟨fault, hfault⟩, fun h => hblame (h call hmem)⟩

theorem linePattern_outcome_of_calls (policy : CollisionPolicy) {t : Text} {calls : Calls}
    (hcalls : Calls.ofText .standard t = .ok calls) :
    (linePattern policy t).outcome = Strategy.catalogOf policy calls.found := by
  rw [linePattern, hcalls]

/-- The structural strategy finds no class, or it converts the calls from the first one on. -/
theorem structural_outcome_cases (rules : List TokenRule) (policy : CollisionPolicy) {t : Text}
    {calls : Calls} (hcalls : Calls.ofText .standard t = .ok calls) :
    ((Outline.ofText rules t).classes = [] ∧
      (structural rules policy t).outcome = .error .noClass) ∨
    ∃ first others, (Outline.ofText rules t).classes = first :: others ∧
      (structural rules policy t).outcome =
        Strategy.catalogOf policy (callsFrom first calls.found) := by
  cases hclasses : (Outline.ofText rules t).classes with
  | nil => exact .inl ⟨rfl, structural_outcome_of_noClass policy hclasses⟩
  | cons first others =>
      refine .inr ⟨first, others, rfl, ?_⟩
      rw [structural_outcome_of_class policy hclasses, hcalls]
      rfl

/-- Calls that cannot be read end the reading, by either strategy. -/
theorem catalogOf_of_unreadCalls {t : Text} {fault : NumberFault}
    (hcalls : Calls.ofText .standard t = .error fault) (compared : Option (List TokenRule)) :
    catalogOf t compared = .error (.number fault) := by
  -- both strategies read all calls before they convert any
  have hline : (linePattern .suffix t).outcome = .error (.number fault) := by
    rw [linePattern, hcalls]
  have hstructural : ∀ rules, (structural rules .suffix t).outcome = .error .noClass ∨
      (structural rules .suffix t).outcome = .error (.number fault) := by
    intro rules
    cases hclasses : (Outline.ofText rules t).classes with
    | nil => exact .inl (structural_outcome_of_noClass _ hclasses)
    | cons first others =>
        exact .inr (by rw [structural_outcome_of_class _ hclasses, hcalls])
  cases compared with
  | none =>
      unfold catalogOf extract
      rcases hstructural TokenRule.all with h | h
      · rw [h, hline]
        rfl
      · rw [h]
        rfl
  | some rules =>
      unfold catalogOf Comparison.ofText Comparison.ofOutcomes
      dsimp only
      rcases hstructural rules with h | h
      · rw [h, hline]
        rfl
      · rw [h]
        rfl

section

variable {t : Text} {calls : Calls} (hcalls : Calls.ofText .standard t = .ok calls)

include hcalls

theorem hasMonthToken_of_mem_found : ∀ call ∈ calls.found, call.date.HasMonthToken :=
  fun call hmem => (Calls.isTold_of_mem_found hcalls call hmem).month

theorem valueOrNumber_linePattern :
    ValueOrNumber (linePattern .suffix t).outcome (∀ call ∈ calls.found, call.date.IsReadable) := by
  rw [linePattern_outcome_of_calls _ hcalls]
  exact valueOrNumber_catalogOf_suffix (hasMonthToken_of_mem_found hcalls)

/-- The calls behind a class make a catalog, or one of the calls of the file is to blame. -/
theorem catalogOf_callsFrom_spec (first : Source.Class) :
    (∃ catalog, Strategy.catalogOf .suffix (callsFrom first calls.found) = .ok catalog ∧
      (∀ call ∈ callsFrom first calls.found, call.date.IsReadable) ∧
      (catalog = [] ↔
        ∀ call ∈ callsFrom first calls.found, (Key.ofName call.name).isEmpty = true)) ∨
    ∃ fault, Strategy.catalogOf .suffix (callsFrom first calls.found) = .error (.number fault) ∧
      ∃ call ∈ callsFrom first calls.found, call ∈ calls.found ∧ ¬ call.date.IsReadable := by
  have hinside : ∀ call ∈ callsFrom first calls.found, call ∈ calls.found :=
    fun call hmem => List.mem_of_mem_filter hmem
  rcases catalogOf_suffix_spec fun call hmem =>
      hasMonthToken_of_mem_found hcalls call (hinside call hmem) with
    hcatalog | ⟨fault, hfault, call, hmem, hblame⟩
  · exact .inl hcatalog
  · exact .inr ⟨fault, hfault, call, hmem, hinside call hmem, hblame⟩

/-- Without a comparison the reading ends with a catalog just if the converted calls have readable
dates. -/
theorem valueOrNumber_extract :
    ValueOrNumber (extract t) (∀ call ∈ converted t none calls.found, call.date.IsReadable) := by
  have hline := valueOrNumber_linePattern hcalls
  unfold extract
  rcases structural_outcome_cases TokenRule.all .suffix hcalls with
    ⟨hclasses, houtcome⟩ | ⟨first, others, hclasses, houtcome⟩
  · rw [houtcome, converted_of_noClass hclasses]
    exact hline.map _
  · rw [houtcome, converted_of_class hclasses]
    rcases catalogOf_callsFrom_spec hcalls first with
      ⟨catalog, hcatalog, hreadable, hempty⟩ | ⟨fault, hfault, call, hmem, hfound, hblame⟩
    · rw [hcatalog]
      cases catalog with
      -- an empty catalog gives way to that of all calls
      | nil =>
          rw [if_pos (List.all_eq_true.mpr (hempty.mp rfl))]
          exact hline.map _
      | cons entry rest =>
          rw [if_neg fun hall => List.cons_ne_nil entry rest
            (hempty.mpr (List.all_eq_true.mp hall))]
          exact .inl ⟨⟨_, rfl⟩, hreadable⟩
    -- the call to blame is among the converted ones, whichever these are
    · rw [hfault]
      refine .inr ⟨⟨fault, rfl⟩, fun hreadable => hblame (hreadable call ?_)⟩
      split
      next => exact hfound
      next => exact hmem

/-- A comparison converts all calls, so it comes to a catalog just if they all have readable
dates. -/
theorem valueOrNumber_comparison (rules : List TokenRule) :
    ValueOrNumber (Comparison.ofText rules .suffix t)
      (∀ call ∈ calls.found, call.date.IsReadable) := by
  have hline := valueOrNumber_linePattern hcalls
  unfold Comparison.ofText Comparison.ofOutcomes
  rcases structural_outcome_cases rules .suffix hcalls with
    ⟨-, houtcome⟩ | ⟨first, others, -, houtcome⟩
  · rw [houtcome]
    exact hline.map _
  · rw [houtcome]
    rcases catalogOf_callsFrom_spec hcalls first with
      ⟨catalog, hcatalog, -, -⟩ | ⟨fault, hfault, call, -, hfound, hblame⟩
    · rw [hcatalog]
      exact hline.map _
    -- the structural strategy converts none but calls of the file
    · rw [hfault]
      exact .inr ⟨⟨fault, rfl⟩, fun hreadable => hblame (hreadable call hfound)⟩

end

/-! ## Files -/

/-- A file comes to a catalog just if its numbers are readable, and otherwise a number is to
blame. -/
theorem valueOrNumber_catalogOf (t : Text) (compared : Option (List TokenRule)) :
    ValueOrNumber (catalogOf t compared) (HasReadableNumbers t compared) := by
  have hdistances := Calls.ofLines_ok_iff .standard 1 (lines t)
  cases hcalls : Calls.ofText .standard t with
  | error fault =>
      refine .inr ⟨⟨fault, catalogOf_of_unreadCalls hcalls compared⟩, fun hreadable => ?_⟩
      obtain ⟨calls, hread⟩ := hdistances.mpr hreadable.1
      cases hcalls.symm.trans hread
  | ok calls =>
      have hreadable : HasReadableNumbers t compared ↔
          ∀ call ∈ converted t compared calls.found, call.date.IsReadable := by
        constructor
        · exact fun h => h.2 calls hcalls
        · intro h
          refine ⟨hdistances.mp ⟨calls, hcalls⟩, fun other hother => ?_⟩
          obtain rfl := Except.ok.inj (hcalls.symm.trans hother)
          exact h
      rw [hreadable]
      cases compared with
      | none => exact (valueOrNumber_extract hcalls).map _
      | some rules => exact (valueOrNumber_comparison hcalls rules).map _

/-- The reading of a file ends with a profile, or with the refusal of a file without holidays, just
if the file is refused or its numbers are readable. Whatever else ends it is the fault of a
number. -/
theorem ofText_contained_iff (t requested : Text) (compared : Option (List TokenRule)) :
    (((∃ reading, ofText t requested compared = .ok reading) ∨
        ∃ why, ofText t requested compared = .error (.irrelevant why)) ↔
      irrelevance? t ≠ none ∨ HasReadableNumbers t compared) ∧
    ∀ fault, ofText t requested compared = .error (.strategy fault) →
      ∃ number, fault = .number number := by
  unfold ofText
  cases hirrelevant : irrelevance? t with
  | some why => simp
  | none =>
      rcases valueOrNumber_catalogOf t compared with
        ⟨⟨found, hfound⟩, hreadable⟩ | ⟨⟨number, hnumber⟩, hreadable⟩
      · rw [hfound]
        simp [hreadable]
      · rw [hnumber]
        simp [hreadable]

/-- A file whose one call has a tab between the sign and the digit of its weekday rule. -/
def tabBehindSign : Text :=
  "class A:\n    country = \"AA\"\n    self._add_weekday_holiday(\"X\", MAY, MON, -\t1)\n"

theorem ofText_tabBehindSign :
    ofText tabBehindSign "" none = .error (.strategy (.number (.notDecimal "-\t1"))) ∧
    ofText tabBehindSign "" (some TokenRule.all) =
      .error (.strategy (.number (.notDecimal "-\t1"))) := by
  constructor <;> decide +kernel

end Reading
end Almanac.Country
