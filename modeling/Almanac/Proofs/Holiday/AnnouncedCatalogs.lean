import Almanac.Proofs.Holiday.ReadableDates
import Almanac.Proofs.Holiday.Suffix

/-!
# Catalogs of readable announcements

Under numbered keys announcements make a catalog unless a number in one of their dates cannot be
read, and the catalog is empty just if none of their names has a key.
-/

namespace Almanac.Holiday.Catalog

open Almanac.Text Almanac.Data

theorem name_of_ofAnnouncement {category : Text} {a : Announcement} {definition : Definition}
    (h : Definition.ofAnnouncement category a = .ok definition) : definition.name = a.name := by
  unfold Definition.ofAnnouncement at h
  cases hdate : Calculation.ofDate a.date with
  | error fault => rw [hdate] at h; cases h
  | ok calculation =>
      rw [hdate] at h
      obtain rfl := Except.ok.inj h
      rfl

theorem put_ne_nil (catalog : Catalog) (key : Text) (definition : Definition) :
    catalog.put key definition ≠ [] := by
  cases catalog with
  | nil => exact List.cons_ne_nil _ _
  | cons entry rest =>
      rw [Entries.put]
      split <;> exact List.cons_ne_nil _ _

theorem place_eq_nil_iff (catalog : Catalog) (definition : Definition) :
    catalog.place definition = [] ↔
      catalog = [] ∧ (Key.ofName definition.name).isEmpty = true := by
  unfold place hasKey
  cases hempty : (Key.ofName definition.name).isEmpty with
  | true => simp
  | false => simp [put_ne_nil]

/-- One announcement is placed, or its date has a number that cannot be read. -/
theorem announce_suffix (category : Text) (draft : Draft) (a : Announcement) :
    (∃ definition collisions, Definition.ofAnnouncement category a = .ok definition ∧
      draft.announce .suffix category a = .ok ⟨draft.catalog.place definition, collisions⟩) ∨
    ∃ fault, Definition.ofAnnouncement category a = .error fault ∧
      draft.announce .suffix category a = .error (.number fault, draft.collisions) := by
  unfold Draft.announce
  cases hdefinition : Definition.ofAnnouncement category a with
  | error fault => exact .inr ⟨fault, rfl, rfl⟩
  | ok definition =>
      exact .inl ⟨definition, _, rfl, add_suffix draft definition⟩

/-- A run over announcements ends with a catalog just if they all have definitions, and otherwise
with the fault of a number. -/
theorem foldlM_announce_suffix_spec (category : Text) (announced : List Announcement)
    (draft : Draft) :
    (∃ made, announced.foldlM (Draft.announce .suffix category) draft = .ok made ∧
      (∀ a ∈ announced, ∃ definition, Definition.ofAnnouncement category a = .ok definition) ∧
      (made.catalog = [] ↔
        draft.catalog = [] ∧ ∀ a ∈ announced, (Key.ofName a.name).isEmpty = true)) ∨
    ∃ fault keys, announced.foldlM (Draft.announce .suffix category) draft =
        .error (.number fault, keys) ∧
      ∃ a ∈ announced, ∀ definition, Definition.ofAnnouncement category a ≠ .ok definition := by
  induction announced generalizing draft with
  | nil => exact .inl ⟨draft, rfl, by simp, by simp⟩
  | cons a rest ih =>
      rw [List.foldlM_cons]
      rcases announce_suffix category draft a with
        ⟨definition, collisions, hdefinition, hstep⟩ | ⟨fault, hfault, hstep⟩
      · rw [hstep]
        rcases ih ⟨draft.catalog.place definition, collisions⟩ with
          ⟨made, hmade, hall, hempty⟩ | ⟨fault, keys, herror, other, hother, hnone⟩
        · refine .inl ⟨made, hmade, ?_, ?_⟩
          · exact List.forall_mem_cons.mpr ⟨⟨definition, hdefinition⟩, hall⟩
          · rw [hempty, place_eq_nil_iff, name_of_ofAnnouncement hdefinition,
              List.forall_mem_cons, and_assoc]
        · exact .inr ⟨fault, keys, herror, other, List.mem_cons_of_mem _ hother, hnone⟩
      · rw [hstep]
        exact .inr ⟨fault, draft.collisions, rfl, a, List.mem_cons_self,
          fun definition h => by rw [hfault] at h; cases h⟩

/-- Under numbered keys announcements make a catalog just if the numbers in their dates are
readable; that catalog is empty just if no name has a key. Otherwise a number is to blame. -/
theorem ofAnnouncements_suffix_spec {announced : List Announcement}
    (hmonths : ∀ a ∈ announced, a.date.HasMonthToken) :
    (∃ catalog, ofAnnouncements .suffix announced = .ok catalog ∧
      (∀ a ∈ announced, a.date.IsReadable) ∧
      (catalog = [] ↔ ∀ a ∈ announced, (Key.ofName a.name).isEmpty = true)) ∨
    ∃ fault, ofAnnouncements .suffix announced = .error (.number fault) ∧
      ∃ a ∈ announced, ¬ a.date.IsReadable := by
  unfold ofAnnouncements draft
  rcases foldlM_announce_suffix_spec defaultCategory announced ⟨[], []⟩ with
    ⟨made, hmade, hall, hempty⟩ | ⟨fault, keys, herror, a, ha, hnone⟩
  · refine .inl ⟨made.catalog, by rw [hmade], fun a ha => ?_, by simpa using hempty⟩
    exact (DateExpression.ofAnnouncement_ok_iff _ (hmonths a ha)).mp (hall a ha)
  · refine .inr ⟨fault, by rw [herror], a, ha, fun hreadable => ?_⟩
    obtain ⟨definition, hdefinition⟩ :=
      (DateExpression.ofAnnouncement_ok_iff defaultCategory (hmonths a ha)).mpr hreadable
    exact hnone definition hdefinition

end Almanac.Holiday.Catalog
