import Almanac.Proofs.Country.Containment
import Almanac.Proofs.Holiday.SameDefinitions

/-!
# What a comparison of the strategies overlooks

A comparison reports the keys that only one of the catalogs has. The structural strategy converts
some of the calls that the line-pattern strategy converts, so if no key is reported, both catalogs
hold the same definitions. These can still be under different keys: a call before the first class
takes the plain key of its name in one catalog and a numbered one, or none, in the other. That is
all that goes unreported, and it takes two definitions that share the key of a name.
-/

namespace Almanac.Strategy

open Almanac.Text Almanac.Data Almanac.Holiday Almanac.Source Almanac.Registration

/-! ## Catalogs of calls -/

/-- The catalog of calls holds what the calls define, each definition in a slot of its own. -/
theorem catalogOf_suffix_values {calls : List Call} {catalog : Catalog}
    (hcatalog : catalogOf .suffix calls = .ok catalog) :
    catalog.WellPlaced ∧ catalog.values.Nodup ∧
      ∀ definition, definition ∈ catalog.values ↔ Catalog.hasKey definition = true ∧
        ∃ call ∈ calls, Definition.ofAnnouncement Catalog.defaultCategory (announcement call) =
          .ok definition := by
  unfold catalogOf at hcatalog
  cases hannounced : Catalog.ofAnnouncements .suffix (calls.map announcement) with
  | error fault => rw [hannounced] at hcatalog; cases hcatalog
  | ok made =>
      rw [hannounced] at hcatalog
      obtain rfl : made = catalog := Except.ok.inj hcatalog
      obtain ⟨definitions, hdefinitions, rfl⟩ :=
        Catalog.eq_ofDefinitions_of_ofAnnouncements hannounced
      refine ⟨Catalog.ofDefinitions_wellPlaced definitions,
        Catalog.nodup_values_ofDefinitions definitions, fun definition => ?_⟩
      rw [Catalog.mem_values_ofDefinitions, Catalog.mem_of_mapM_ok hdefinitions, and_comm]
      simp

/-- Fewer calls define nothing that more calls do not. -/
theorem values_subset_of_catalogOf {fewer more : List Call} {first second : Catalog}
    (hfirst : catalogOf .suffix fewer = .ok first) (hsecond : catalogOf .suffix more = .ok second)
    (hsubset : fewer ⊆ more) : first.values ⊆ second.values := by
  intro definition hmem
  obtain ⟨hkey, call, hcall, hdefinition⟩ := ((catalogOf_suffix_values hfirst).2.2 _).mp hmem
  exact ((catalogOf_suffix_values hsecond).2.2 _).mpr ⟨hkey, call, hsubset hcall, hdefinition⟩

namespace Comparison

/-! ## Reported keys -/

theorem sort_eq_nil_iff (texts : List Text) : Text.sort texts = [] ↔ texts = [] := by
  unfold Text.sort
  rw [← List.length_eq_zero_iff, List.length_mergeSort, List.length_eq_zero_iff]

/-- No key is reported just if both catalogs have the same keys. -/
theorem differingKeys_eq_nil_iff (first second : Catalog) :
    differingKeys first second = [] ↔ ∀ key, key ∈ first.keys ↔ key ∈ second.keys := by
  unfold differingKeys
  rw [sort_eq_nil_iff, List.append_eq_nil_iff, List.filter_eq_nil_iff, List.filter_eq_nil_iff]
  simp only [Bool.not_eq_true', Bool.not_eq_false, Entries.has_eq_true_iff]
  exact ⟨fun h key => ⟨h.1 key, h.2 key⟩, fun h => ⟨fun key => (h key).mp, fun key => (h key).mpr⟩⟩

/-! ## Outcomes -/

/-- A comparison ends well if the line-pattern strategy comes to a catalog, and the structural one
to a catalog or to a source that it cannot make sense of. -/
theorem ofOutcomes_ok {structural linePattern : Except Fault Catalog}
    {result : Catalog × Comparison} (hcompared : ofOutcomes structural linePattern = .ok result) :
    ∃ second, linePattern = .ok second ∧
      ((∃ first, structural = .ok first ∧ result = choose none first second) ∨
        ∃ line reason, structural = .error (.unreadable line reason) ∧
          result = choose (some (Fault.unreadable line reason).message) [] second) := by
  cases linePattern with
  | error fault =>
      unfold ofOutcomes at hcompared
      split at hcompared <;> cases hcompared
  | ok second =>
      refine ⟨second, rfl, ?_⟩
      cases structural with
      | ok first => exact .inl ⟨first, rfl, (Except.ok.inj hcompared).symm⟩
      | error fault =>
          cases fault with
          | unreadable line reason =>
              exact .inr ⟨line, reason, rfl, (Except.ok.inj hcompared).symm⟩
          | number fault => cases hcompared
          | collision key => cases hcompared

/-- The calls behind the catalogs of both strategies: those of the structural one are some of those
of the line-pattern one. -/
theorem exists_calls_of_outcomes {rules : List TokenRule} {t : Text} {first second : Catalog}
    (hfirst : (structural rules .suffix t).outcome = .ok first)
    (hsecond : (linePattern .suffix t).outcome = .ok second) :
    ∃ all inside : List Call, inside ⊆ all ∧ catalogOf .suffix inside = .ok first ∧
      catalogOf .suffix all = .ok second := by
  cases hcalls : Calls.ofText .standard t with
  | error fault =>
      rw [linePattern, hcalls] at hsecond
      cases hsecond
  | ok calls =>
      rw [Country.Reading.linePattern_outcome_of_calls .suffix hcalls] at hsecond
      rcases Country.Reading.structural_outcome_cases rules .suffix hcalls with
        ⟨-, houtcome⟩ | ⟨_, _, -, houtcome⟩
      · cases houtcome.symm.trans hfirst
      · exact ⟨calls.found, _, List.filter_subset_self _, houtcome.symm.trans hfirst, hsecond⟩

/-- A comparison in which the structural strategy came to a catalog reports no key just if both
catalogs have the same keys. Then both hold the same definitions, and each key the same definition
unless two different definitions share the key of a name. -/
theorem differing_eq_nil_spec {rules : List TokenRule} {t : Text} {chosen : Catalog}
    {comparison : Comparison} (hcompared : ofText rules .suffix t = .ok (chosen, comparison))
    (hcame : comparison.structuralError = none) :
    ∃ first second : Catalog, (structural rules .suffix t).outcome = .ok first ∧
      (linePattern .suffix t).outcome = .ok second ∧
      (comparison.differing = [] ↔ ∀ key, key ∈ first.keys ↔ key ∈ second.keys) ∧
      (comparison.differing = [] → first.values.Perm second.values ∧
        (second.HasDistinctNames → ∀ key, first.get? key = second.get? key)) := by
  obtain ⟨second, hsecond, ⟨first, hfirst, hchoose⟩ | ⟨line, reason, -, hchoose⟩⟩ :=
    ofOutcomes_ok hcompared
  case inr =>
    obtain ⟨-, rfl⟩ := Prod.mk.inj hchoose
    cases hcame
  obtain ⟨-, rfl⟩ := Prod.mk.inj hchoose
  obtain ⟨all, inside, hinside, hinsideCatalog, hallCatalog⟩ :=
    exists_calls_of_outcomes hfirst hsecond
  obtain ⟨hplaced, hnodup, -⟩ := catalogOf_suffix_values hinsideCatalog
  obtain ⟨hplaced', -, -⟩ := catalogOf_suffix_values hallCatalog
  refine ⟨first, second, hfirst, hsecond, differingKeys_eq_nil_iff first second, fun hnil => ?_⟩
  have hperm := Catalog.values_perm hplaced.keys_nodup hplaced'.keys_nodup hnodup
    (values_subset_of_catalogOf hinsideCatalog hallCatalog hinside)
    ((differingKeys_eq_nil_iff first second).mp hnil)
  exact ⟨hperm, fun hdistinct => hplaced.get?_eq hplaced' hperm hdistinct⟩

/-- A file with a call before its first class, which the first call in the class differs from and
the second one repeats. -/
def callBeforeClass : Text :=
  "self._add_holiday(\"A\", date(year, JAN, 1))\nclass C:\n    self._add_holiday(\"A\", " ++
    "date(year, JAN, 2))\n    self._add_holiday(\"A\", date(year, JAN, 1))\n"

/-- The days of January on which the two holidays fall. -/
def onDays (first second : Int) : Catalog :=
  [("a", ⟨"A", "public", .fixed 1 first⟩), ("a_2", ⟨"A", "public", .fixed 1 second⟩)]

theorem structural_callBeforeClass :
    (structural TokenRule.all .suffix callBeforeClass).outcome = .ok (onDays 2 1) := by
  decide +kernel

theorem linePattern_callBeforeClass :
    (linePattern .suffix callBeforeClass).outcome = .ok (onDays 1 2) := by
  decide +kernel

theorem ofOutcomes_onDays :
    ofOutcomes (.ok (onDays 2 1)) (.ok (onDays 1 2)) =
      .ok (onDays 2 1, ⟨2, 2, .structural, [], none⟩) := by
  decide +kernel

/-- No key of this file is reported, though each of the two keys has another holiday in either
catalog. -/
theorem ofText_callBeforeClass :
    ∃ first second, (structural TokenRule.all .suffix callBeforeClass).outcome = .ok first ∧
      (linePattern .suffix callBeforeClass).outcome = .ok second ∧
      first.get? "a".toList ≠ second.get? "a".toList ∧
      ∃ comparison, ofText TokenRule.all .suffix callBeforeClass = .ok (first, comparison) ∧
        comparison.structuralError = none ∧ comparison.differing = [] := by
  refine ⟨_, _, structural_callBeforeClass, linePattern_callBeforeClass, by decide,
    ⟨2, 2, .structural, [], none⟩, ?_, rfl, rfl⟩
  rw [ofText, structural_callBeforeClass, linePattern_callBeforeClass]
  exact ofOutcomes_onDays

theorem differing_eq_nil_callBeforeClass :
    ∃ chosen comparison,
      ofText TokenRule.all .suffix callBeforeClass = .ok (chosen, comparison) ∧
      comparison.structuralError = none ∧ comparison.differing = [] ∧
      (onDays 2 1).values.Perm (onDays 1 2).values := by
  have hcompared : ofText TokenRule.all .suffix callBeforeClass =
      .ok (onDays 2 1, ⟨2, 2, .structural, [], none⟩) := by
    rw [ofText, structural_callBeforeClass, linePattern_callBeforeClass]
    exact ofOutcomes_onDays
  obtain ⟨first, second, hfirst, hsecond, -, hsame⟩ := differing_eq_nil_spec hcompared rfl
  obtain rfl := Except.ok.inj (structural_callBeforeClass.symm.trans hfirst)
  obtain rfl := Except.ok.inj (linePattern_callBeforeClass.symm.trans hsecond)
  exact ⟨_, _, hcompared, rfl, rfl, (hsame rfl).1⟩

end Comparison
end Almanac.Strategy
