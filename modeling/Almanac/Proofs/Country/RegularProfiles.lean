import Almanac.Proofs.Country.ReadingModes
import Almanac.Proofs.Holiday.DefinitionNumbers

/-!
# What every profile that is read has

Whatever a source file holds, the profile that is read in it has each subdivision and each holiday
once, and only definitions with regular numbers. A file that is read with a comparison of the
strategies is read without one as well, and gives the same profile.
-/

namespace Almanac.Country

open Almanac.Text Almanac.Data Almanac.Holiday Almanac.Source Almanac.Registration Almanac.Strategy

/-! ## Subdivisions -/

/-- The codes that are paired with a name are kept once, and so are those of the tuple. -/
theorem nodup_keys_subdivisions (t : Text) : (subdivisions t).keys.Nodup := by
  have hpaired : (Entries.ofList (findAll codeAndName? t)).keys.Nodup :=
    Entries.nodup_keys_foldl (fun _ entry h => Entries.nodup_keys_put h entry.1 entry.2) _
      List.nodup_nil
  unfold subdivisions
  dsimp only
  split
  next => exact hpaired
  next =>
    refine Entries.nodup_keys_foldl (fun known code h => ?_) _ hpaired
    split
    next => exact h
    next => exact Entries.nodup_keys_put h code _

/-! ## Holidays -/

/-- Without a comparison one of the strategies comes to the catalog that is read. -/
theorem outcome_of_extract {t : Text} {catalog : Catalog} {why : Option Text}
    (h : extract t = .ok (catalog, why)) : (linePattern .suffix t).outcome = .ok catalog ∨
      (structural TokenRule.all .suffix t).outcome = .ok catalog := by
  unfold extract at h
  split at h
  next =>
    obtain ⟨found, hfound, heq⟩ := exists_of_map_eq_ok h
    obtain ⟨rfl, -⟩ := Prod.mk.inj heq
    exact .inl hfound
  next => cases h
  next =>
    obtain ⟨found, hfound, heq⟩ := exists_of_map_eq_ok h
    obtain ⟨rfl, -⟩ := Prod.mk.inj heq
    exact .inl hfound
  next found hfound =>
    obtain ⟨rfl, -⟩ := Prod.mk.inj (Except.ok.inj h)
    exact .inr hfound

/-- The catalog that is read without a comparison is that of some calls of the file. -/
theorem calls_of_catalogOf {t : Text} {catalog : Catalog} {error : Option Text}
    {comparison : Option Comparison}
    (h : Reading.catalogOf t none = .ok (catalog, error, comparison)) :
    ∃ calls inside, Calls.ofText .standard t = .ok calls ∧ inside ⊆ calls.found ∧
      Strategy.catalogOf .suffix inside = .ok catalog := by
  cases hcalls : Calls.ofText .standard t with
  | error fault => cases (Reading.catalogOf_of_unreadCalls hcalls none).symm.trans h
  | ok calls =>
      obtain ⟨⟨found, why⟩, hextract, heq⟩ := exists_of_map_eq_ok h
      obtain ⟨rfl, -⟩ := Prod.mk.inj heq
      rcases outcome_of_extract hextract with hline | hstructural
      · rw [Reading.linePattern_outcome_of_calls .suffix hcalls] at hline
        exact ⟨calls, calls.found, rfl, List.Subset.refl _, hline⟩
      · rcases Reading.structural_outcome_cases TokenRule.all .suffix hcalls with
          ⟨-, hnone⟩ | ⟨first, others, -, houtcome⟩
        · cases hnone.symm.trans hstructural
        · exact ⟨calls, callsFrom first calls.found, rfl, List.filter_subset_self _,
            houtcome.symm.trans hstructural⟩

/-- Each subdivision and each holiday is there once, and the definitions have regular numbers. -/
structure Profile.IsRegular (profile : Profile) : Prop where
  subdivisions : profile.subdivisions.keys.Nodup
  holidays : profile.holidays.keys.Nodup
  definitions : ∀ holiday ∈ profile.holidays, holiday.2.calculation.IsRegular

namespace Reading

theorem isRegular_of_plain {t requested : Text} {reading : Reading}
    (h : ofText t requested none = .ok reading) : reading.profile.IsRegular := by
  obtain ⟨error, comparison, hcatalog, hprofile⟩ := holidays_of_ofText h
  obtain ⟨calls, inside, hcalls, hinside, hmade⟩ := calls_of_catalogOf hcatalog
  obtain ⟨hplaced, -, hvalues⟩ := catalogOf_suffix_values hmade
  refine ⟨?_, hplaced.keys_nodup, ?_⟩
  · rw [hprofile]
    exact nodup_keys_subdivisions t
  · intro holiday hmem
    obtain ⟨-, call, hcall, hdefinition⟩ := (hvalues holiday.2).mp (List.mem_map_of_mem hmem)
    have htold := Calls.isTold_of_mem_found hcalls call (hinside hcall)
    exact Definition.isRegular_of_ofAnnouncement htold.numbers hdefinition

/-- A file that is read with a comparison is read without one, and gives the same profile. -/
theorem exists_plain {t requested : Text} {compared : Reading}
    (h : ofText t requested (some TokenRule.all) = .ok compared) :
    ∃ plain, ofText t requested none = .ok plain ∧ plain.profile = compared.profile := by
  obtain ⟨error, comparison, hcatalog, hprofile⟩ := holidays_of_ofText h
  obtain ⟨⟨chosen, told⟩, hcomparison, heq⟩ := exists_of_map_eq_ok hcatalog
  obtain ⟨rfl, -⟩ := Prod.mk.inj heq
  obtain ⟨⟨found, hline⟩, hcame⟩ := came_of_comparison hcomparison
  obtain ⟨other, why, _, hextract, hchosen, -⟩ := exists_chosen hline hcame
  obtain ⟨rfl, -⟩ := Prod.mk.inj (Except.ok.inj (hchosen.symm.trans hcomparison))
  have hrelevant : irrelevance? t = none := by
    unfold ofText at h
    split at h
    next => cases h
    next hnone => exact hnone
  have hplain : catalogOf t none = .ok (compared.profile.holidays, why, none) := by
    unfold catalogOf
    rw [hextract]
    rfl
  refine ⟨⟨compared.profile, why, none⟩, ?_, rfl⟩
  unfold ofText
  rw [hrelevant, hplain]
  dsimp only
  rw [← hprofile]

end Reading
end Almanac.Country
