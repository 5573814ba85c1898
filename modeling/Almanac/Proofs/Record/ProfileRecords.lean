import Almanac.Proofs.Country.RegularProfiles
import Almanac.Proofs.Record.RecordRoundTrip

/-!
# Records of profiles

The record of a profile that was read is well formed, so it is read where it was written. A record
that holds the same holidays in another order, under the same name and with the same subdivisions,
does not differ from it.
-/

namespace Almanac.Record

open Almanac.Text Almanac.Data Almanac.Holiday Almanac.Time

/-! ## Entries of definitions -/

theorem isInteger_of_isShort {n : Int} (h : IsShort n) : (Json.int n).IsInteger :=
  .inl ⟨n, rfl, h.length_ofNat⟩

theorem isText_ofText? (t : Option Text) :
    Entry.ofText? t = .null ∨ (Entry.ofText? t).IsText := by
  cases t with
  | none => exact .inl rfl
  | some t => exact .inr ⟨t, rfl⟩

theorem isMonth?_of_bounds {month : Nat} (h : 1 ≤ month ∧ month ≤ 12) :
    Entry.isMonth? (.int month) = some true := by
  simp [Entry.isMonth?, Json.count?]
  omega

/-- The entry of a definition with regular numbers is well formed. -/
theorem Entry.wellFormed_ofDefinition {d : Definition} (h : d.calculation.IsRegular) :
    (Entry.ofDefinition d).WellFormed := by
  obtain ⟨name, category, calculation⟩ := d
  have htext : ∀ t : Text, (Json.str t).IsText := fun t => ⟨t, rfl⟩
  have henglish := Json.areTexts_english name
  cases calculation with
  | fixed month day =>
      obtain ⟨hmonth, hday⟩ := h
      have hshort : IsShort month := isShort_of_lt (by omega)
      exact ⟨htext name, htext category, henglish, .inr (isInteger_of_isShort hshort),
        .inr (isInteger_of_isShort hday), .inl rfl, nofun, .inl rfl,
        fun _ => ⟨nofun, isMonth?_of_bounds hmonth⟩, nofun⟩
  | easterBased offset =>
      exact ⟨htext name, htext category, henglish, .inl rfl, .inl rfl,
        .inr (isInteger_of_isShort h), nofun, .inl rfl, nofun, fun _ => nofun⟩
  | weekdayBased rule expression =>
      refine ⟨htext name, htext category, henglish, .inl rfl, .inl rfl, .inl rfl, ?_,
        isText_ofText? expression, nofun, nofun⟩
      intro written hwritten
      obtain ⟨found, hfound, rfl⟩ := Option.map_eq_some_iff.mp hwritten
      have hshort := h found hfound
      exact ⟨isInteger_of_isShort hshort.month, isInteger_of_isShort hshort.weekday,
        isInteger_of_isShort hshort.occurrence⟩
  | complex expression =>
      exact ⟨htext name, htext category, henglish, .inl rfl, .inl rfl, .inl rfl, nofun,
        isText_ofText? expression, nofun, nofun⟩

/-- The record of a regular profile is well formed. -/
theorem wellFormed_ofProfile {profile : Country.Profile} (h : profile.IsRegular)
    (now : Timestamp) : (ofProfile now profile).WellFormed where
  countryCode := ⟨profile.code, rfl⟩
  name := ⟨profile.name, rfl⟩
  subdivisions := Json.areTexts_map h.subdivisions
  categories := Json.isText_of_mem_map
  languages := Json.isText_of_mem_map
  keys := Json.areNamed_map h.holidays Entry.ofDefinition
  holidays := List.forall_mem_map.mpr fun told htold =>
    Entry.wellFormed_ofDefinition (h.definitions told htold)

end Almanac.Record
