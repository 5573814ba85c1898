import Almanac.Proofs.Strategy.ComparedCatalogs

/-!
# Reading with and without a comparison

Whether the strategies are compared makes no difference to what is read: where both ways of reading
a file come to a profile, it is the same one. Either way the line-pattern strategy steps in where
the structural one comes to nothing, so the holidays of a file are missing from its profile only if
the line-pattern strategy finds none.
-/

namespace Almanac.Country.Reading

open Almanac.Text Almanac.Data Almanac.Holiday Almanac.Source Almanac.Registration Almanac.Strategy

/-- The structural strategy comes to a catalog, or to a source that it cannot make sense of. -/
def Came (outcome : Except Strategy.Fault Catalog) : Prop :=
  (∃ first, outcome = .ok first) ∨ ∃ line reason, outcome = .error (.unreadable line reason)

/-- If both strategies come to an end, one catalog is chosen with and without a comparison: that of
the structural strategy unless this one is missing or empty. -/
theorem exists_chosen {t : Text} {found : Catalog}
    (hline : (linePattern .suffix t).outcome = .ok found)
    (hcame : Came (structural TokenRule.all .suffix t).outcome) :
    ∃ chosen why comparison, extract t = .ok (chosen, why) ∧
      Comparison.ofText TokenRule.all .suffix t = .ok (chosen, comparison) ∧
      (chosen = found ∨
        (structural TokenRule.all .suffix t).outcome = .ok chosen ∧ chosen ≠ []) := by
  unfold extract Comparison.ofText
  rw [hline]
  rcases hcame with ⟨first, hfirst⟩ | ⟨line, reason, hunreadable⟩
  · rw [hfirst]
    cases first with
    | nil => exact ⟨found, _, _, rfl, rfl, .inl rfl⟩
    | cons entry rest => exact ⟨_, _, _, rfl, rfl, .inr ⟨rfl, List.cons_ne_nil entry rest⟩⟩
  · rw [hunreadable]
    exact ⟨found, _, _, rfl, rfl, .inl rfl⟩

/-- Where the line-pattern strategy finds nothing, the structural one finds nothing. -/
theorem eq_nil_of_linePattern_eq_nil {rules : List TokenRule} {t : Text} {first : Catalog}
    (hfirst : (structural rules .suffix t).outcome = .ok first)
    (hline : (linePattern .suffix t).outcome = .ok []) : first = [] := by
  obtain ⟨all, inside, hinside, hinsideCatalog, hallCatalog⟩ :=
    Comparison.exists_calls_of_outcomes hfirst hline
  have hsubset := values_subset_of_catalogOf hinsideCatalog hallCatalog hinside
  simpa [Entries.values] using hsubset

/-- A comparison that ends well has both strategies come to an end. -/
theorem came_of_comparison {t : Text} {result : Catalog × Comparison}
    (hcompared : Comparison.ofText TokenRule.all .suffix t = .ok result) :
    (∃ found, (linePattern .suffix t).outcome = .ok found) ∧
      Came (structural TokenRule.all .suffix t).outcome := by
  obtain ⟨found, hline, ⟨first, hfirst, -⟩ | ⟨line, reason, hunreadable, -⟩⟩ :=
    Comparison.ofOutcomes_ok hcompared
  · exact ⟨⟨found, hline⟩, .inl ⟨first, hfirst⟩⟩
  · exact ⟨⟨found, hline⟩, .inr ⟨line, reason, hunreadable⟩⟩

/-- A file that is read in both modes has one catalog. -/
theorem catalogOf_modes_agree {t : Text} {plain compared : Catalog} {why why' : Option Text}
    {none' some' : Option Comparison} (hplain : catalogOf t none = .ok (plain, why, none'))
    (hcompared : catalogOf t (some TokenRule.all) = .ok (compared, why', some')) :
    plain = compared := by
  unfold catalogOf at hplain hcompared
  dsimp only at hplain hcompared
  cases hcomparison : Comparison.ofText TokenRule.all .suffix t with
  | error fault => rw [hcomparison] at hcompared; cases hcompared
  | ok result =>
      obtain ⟨⟨found, hline⟩, hcame⟩ := came_of_comparison hcomparison
      obtain ⟨chosen, why, comparison, hextract, hchosen, -⟩ := exists_chosen hline hcame
      rw [hextract] at hplain
      rw [hchosen] at hcompared
      cases hplain
      cases hcompared
      rfl

/-- A reading ends with the profile around the catalog that its mode comes to. -/
theorem holidays_of_ofText {t requested : Text} {compared : Option (List TokenRule)}
    {reading : Reading} (hreading : ofText t requested compared = .ok reading) :
    ∃ error comparison, catalogOf t compared = .ok (reading.profile.holidays, error, comparison) ∧
      reading.profile = {
        code := codeOf t requested
        name := nameOf t (codeOf t requested)
        subdivisions := subdivisions t
        categories := supported "supported_categories" "public" t
        languages := supported "supported_languages" "en" t
        holidays := reading.profile.holidays } := by
  unfold ofText at hreading
  split at hreading
  next => cases hreading
  next =>
    split at hreading
    next => cases hreading
    next catalog error comparison hcatalog =>
      obtain rfl := Except.ok.inj hreading
      exact ⟨error, comparison, hcatalog, rfl⟩

/-- Both modes of reading come to one profile where both come to a profile; its holidays are those
that the one catalog holds, which is empty just if the line-pattern strategy finds no holiday. Where
both strategies come to an end, so do both modes. -/
theorem ofText_modes_agree (t : Text) :
    (∀ requested plain compared, ofText t requested none = .ok plain →
      ofText t requested (some TokenRule.all) = .ok compared →
      plain.profile = compared.profile) ∧
    ∀ found, (linePattern .suffix t).outcome = .ok found →
      Came (structural TokenRule.all .suffix t).outcome →
      ∃ chosen why comparison, extract t = .ok (chosen, why) ∧
        Comparison.ofText TokenRule.all .suffix t = .ok (chosen, comparison) ∧
        (chosen = [] ↔ found = []) := by
  constructor
  · intro requested plain compared hplain hcompared
    obtain ⟨error, comparison, hcatalog, hprofile⟩ := holidays_of_ofText hplain
    obtain ⟨error', comparison', hcatalog', hprofile'⟩ := holidays_of_ofText hcompared
    suffices hholidays : plain.profile.holidays = compared.profile.holidays by
      rw [hprofile, hprofile', hholidays]
    exact catalogOf_modes_agree hcatalog hcatalog'
  · intro found hline hcame
    obtain ⟨chosen, why, comparison, hextract, hcompared, hchosen⟩ := exists_chosen hline hcame
    refine ⟨chosen, why, comparison, hextract, hcompared, ?_⟩
    rcases hchosen with rfl | ⟨hstructural, hsome⟩
    · exact Iff.rfl
    · refine iff_of_false hsome ?_
      rintro rfl
      exact hsome (eq_nil_of_linePattern_eq_nil hstructural hline)

/-- A file whose only holiday is registered before its only class, so that the structural strategy
comes to an empty catalog. -/
def holidayBeforeClass : Text :=
  "self._add_holiday(\"X\", date(year, JAN, 1))\nclass A:\n    country = \"AA\"\n"

/-- The profile of that file. -/
def holidayProfile : Profile :=
  ⟨"AA", "A", [], ["public"], ["en"], [("x", ⟨"X", "public", .fixed 1 1⟩)]⟩

theorem ofText_modes_agree_holidayBeforeClass :
    ∃ plain compared, ofText holidayBeforeClass "" none = .ok plain ∧
      ofText holidayBeforeClass "" (some TokenRule.all) = .ok compared ∧
      plain.profile = compared.profile ∧
      ∃ found chosen why, (linePattern .suffix holidayBeforeClass).outcome = .ok found ∧
        (structural TokenRule.all .suffix holidayBeforeClass).outcome = .ok [] ∧
        extract holidayBeforeClass = .ok (chosen, why) ∧ (chosen = [] ↔ found = []) := by
  obtain ⟨hprofiles, hchosen⟩ := ofText_modes_agree holidayBeforeClass
  have hplain : ofText holidayBeforeClass "" none =
      .ok ⟨holidayProfile, some "no definitions found", none⟩ := by decide +kernel
  have hcompared : ofText holidayBeforeClass "" (some TokenRule.all) =
      .ok ⟨holidayProfile, none, some ⟨0, 1, .linePattern, ["x"], none⟩⟩ := by decide +kernel
  have hline : (linePattern .suffix holidayBeforeClass).outcome = .ok holidayProfile.holidays := by
    decide +kernel
  have hstructural : (structural TokenRule.all .suffix holidayBeforeClass).outcome = .ok [] := by
    decide +kernel
  obtain ⟨chosen, why, -, hextract, -, hempty⟩ :=
    hchosen holidayProfile.holidays hline (.inl ⟨[], hstructural⟩)
  exact ⟨_, _, hplain, hcompared, hprofiles "" _ _ hplain hcompared, _, chosen, why, hline,
    hstructural, hextract, hempty⟩

end Almanac.Country.Reading
