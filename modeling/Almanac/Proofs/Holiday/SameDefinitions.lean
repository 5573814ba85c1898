import Almanac.Proofs.Holiday.AnnouncedCatalogs
import Mathlib.Data.List.Nodup
import Mathlib.Data.List.Perm.Subperm

/-!
# Catalogs of the same definitions

Under numbered keys a catalog holds each of its definitions once. So two catalogs with the same
keys, of which one has no definition that the other lacks, hold the same definitions. They need not
hold them under the same keys: which definition of a name gets the plain key, and which one a
number, is settled by their order. Only where no two definitions share the key of a name is the
order of no account.
-/

namespace Almanac.Holiday.Catalog

open Almanac.Text Almanac.Data

/-! ## Values of a run -/

/-- A run over values that can all be turned succeeds. -/
theorem exists_mapM_ok {α β ε : Type} {f : α → Except ε β} {values : List α}
    (hall : ∀ a ∈ values, ∃ b, f a = .ok b) : ∃ turned, values.mapM f = .ok turned := by
  induction values with
  | nil => exact ⟨[], rfl⟩
  | cons a rest ih =>
      obtain ⟨⟨b, hb⟩, hrest⟩ := List.forall_mem_cons.mp hall
      obtain ⟨more, hmore⟩ := ih hrest
      refine ⟨b :: more, ?_⟩
      rw [List.mapM_cons, hb, hmore]
      rfl

theorem map_of_mapM_ok {α β ε : Type} {f : α → Except ε β} {values : List α} {turned : List β}
    (hturned : values.mapM f = .ok turned) : values.map f = turned.map .ok := by
  induction values generalizing turned with
  | nil =>
      obtain rfl : [] = turned := Except.ok.inj hturned
      rfl
  | cons a rest ih =>
      obtain ⟨first, more, hfirst, hrest, rfl⟩ := exists_of_mapM_cons_ok hturned
      rw [List.map_cons, List.map_cons, hfirst, ih hrest]

theorem exists_mapM_ok_of_map_subset {α β ε : Type} {f : α → Except ε β} {values : List α}
    {turned : List β} (hsubset : values.map f ⊆ turned.map .ok) :
    ∃ others, values.mapM f = .ok others := by
  apply exists_mapM_ok
  intro a ha
  obtain ⟨b, -, hb⟩ := List.mem_map.mp (hsubset (List.mem_map_of_mem ha))
  exact ⟨b, hb.symm⟩

/-- A run turns the values one by one. -/
theorem mapM_ok_iff_map {α β ε : Type} {f : α → Except ε β} {values : List α} {turned : List β} :
    values.mapM f = .ok turned ↔ values.map f = turned.map .ok := by
  refine ⟨map_of_mapM_ok, fun h => ?_⟩
  obtain ⟨others, hothers⟩ := exists_mapM_ok_of_map_subset fun _ hmem => h ▸ hmem
  rw [map_of_mapM_ok hothers] at h
  rw [hothers, List.map_injective_iff.mpr (fun _ _ => Except.ok.inj) h]

theorem mem_of_mapM_ok {α β ε : Type} {f : α → Except ε β} {values : List α} {turned : List β}
    (hturned : values.mapM f = .ok turned) (b : β) :
    b ∈ turned ↔ ∃ a ∈ values, f a = .ok b := by
  have hmem : .ok b ∈ values.map f ↔ .ok b ∈ turned.map (.ok : β → Except ε β) := by
    rw [map_of_mapM_ok hturned]
  simpa [eq_comm] using hmem.symm

/-- Values in another order are turned into the same ones, in another order. -/
theorem exists_mapM_ok_of_perm {α β ε : Type} {f : α → Except ε β} {values reordered : List α}
    {turned : List β} (hturned : values.mapM f = .ok turned) (hperm : reordered.Perm values) :
    ∃ others, reordered.mapM f = .ok others ∧ others.Perm turned := by
  have hmap : (reordered.map f).Perm (turned.map .ok) := map_of_mapM_ok hturned ▸ hperm.map f
  obtain ⟨others, hothers⟩ := exists_mapM_ok_of_map_subset hmap.subset
  refine ⟨others, hothers, ?_⟩
  rw [map_of_mapM_ok hothers] at hmap
  exact (List.map_perm_map_iff fun _ _ => Except.ok.inj).mp hmap

/-! ## Definitions of a catalog -/

/-- The catalog of announcements is that of the definitions that they are turned into. -/
theorem eq_ofDefinitions_of_ofAnnouncements {announced : List Announcement} {catalog : Catalog}
    (hcatalog : ofAnnouncements .suffix announced = .ok catalog) :
    ∃ definitions,
      announced.mapM (Definition.ofAnnouncement defaultCategory) = .ok definitions ∧
      catalog = ofDefinitions definitions := by
  unfold ofAnnouncements at hcatalog
  rcases foldlM_announce_suffix_spec defaultCategory announced ⟨[], []⟩ with
    ⟨made, -, hall, -⟩ | ⟨fault, keys, herror, -⟩
  · obtain ⟨definitions, hdefinitions⟩ := exists_mapM_ok hall
    obtain ⟨collisions, hdraft⟩ := draft_suffix hdefinitions
    rw [hdraft] at hcatalog
    exact ⟨definitions, hdefinitions, (Except.ok.inj hcatalog).symm⟩
  · rw [draft, herror] at hcatalog
    cases hcatalog

@[simp] theorem mem_values_ofDefinitions (definitions : List Definition) (definition : Definition) :
    definition ∈ (ofDefinitions definitions).values ↔
      definition ∈ definitions ∧ hasKey definition = true := by
  rw [ofDefinitions_values, List.mem_eraseDups, List.mem_filter]

theorem nodup_values_ofDefinitions (definitions : List Definition) :
    (ofDefinitions definitions).values.Nodup := by
  induction definitions using List.reverseRecOn with
  | nil => exact List.nodup_nil
  | append_singleton definitions definition ih =>
      rw [ofDefinitions_concat]
      by_cases hmem : definition ∈ (ofDefinitions definitions).values
      · rwa [(ofDefinitions_wellPlaced definitions).place_of_mem hmem]
      · cases hkey : hasKey definition with
        | false => rwa [place_of_noKey hkey]
        | true =>
            rw [place_of_notMem hkey hmem]
            simpa [Entries.values, List.nodup_append] using
              ⟨ih, fun d key hd heq => hmem (heq ▸ List.mem_map_of_mem hd)⟩

/-- Of two catalogs with the same keys neither has a definition that the other lacks, if one of
them has none. -/
theorem values_perm {first second : Catalog} (hfirst : first.keys.Nodup)
    (hsecond : second.keys.Nodup) (hvalues : first.values.Nodup)
    (hsubset : first.values ⊆ second.values) (hkeys : ∀ key, key ∈ first.keys ↔ key ∈ second.keys) :
    first.values.Perm second.values := by
  have hlength : first.length = second.length := by
    have hperm := (List.perm_ext_iff_of_nodup hfirst hsecond).mpr hkeys
    simpa [Entries.keys] using hperm.length_eq
  apply (List.subperm_of_subset hvalues hsubset).perm_of_length_le
  simp [Entries.values, hlength]

/-! ## Definitions under the keys of their names -/

/-- No two different definitions of the catalog have names with one key. -/
def HasDistinctNames (catalog : Catalog) : Prop :=
  ∀ one ∈ catalog.values, ∀ other ∈ catalog.values,
    Key.ofName one.name = Key.ofName other.name → one = other

theorem length_lt_numbered (key : Text) (n : Nat) : key.length < (Key.numbered key n).length := by
  simp [Key.numbered]

/-- Where no two definitions share the key of a name, each is under the key of its own name. -/
theorem WellPlaced.key_eq {catalog : Catalog} (hplaced : catalog.WellPlaced)
    (hdistinct : catalog.HasDistinctNames) {key : Text} {definition : Definition}
    (hmem : (key, definition) ∈ catalog) : key = Key.ofName definition.name := by
  induction hlength : (Key.ofName definition.name).length using Nat.strongRecOn
    generalizing key definition with
  | ind length ih =>
      obtain ⟨n, hn, hkey, htaken⟩ := hplaced.ownSlot key definition hmem
      by_cases hone : n = 1
      · rw [hkey, hone, Key.nth_one]
      · exfalso
        obtain ⟨other, hother, hne⟩ := htaken 1 (by omega) (by omega)
        rw [Key.nth_one] at hother
        have hotherMem := Entries.mem_of_get?_eq_some hother
        -- what is in the place of the definition has the same key, or is itself out of its place,
        -- away from a shorter key
        have hsame : Key.ofName definition.name = Key.ofName other.name := by
          obtain ⟨m, hm, hotherKey, -⟩ := hplaced.ownSlot _ other hotherMem
          by_cases hfirst : m = 1
          · rw [hotherKey, hfirst, Key.nth_one]
          · refine ih _ ?_ hotherMem rfl
            rw [← hlength, hotherKey, Key.nth_of_two_le _ (by omega)]
            exact length_lt_numbered _ _
        exact hne (hdistinct other (List.mem_map_of_mem hotherMem) definition
          (List.mem_map_of_mem hmem) hsame.symm)

/-- Two catalogs of the same definitions are one mapping, where no two of these share the key of a
name. -/
theorem WellPlaced.get?_eq {first second : Catalog} (hfirst : first.WellPlaced)
    (hsecond : second.WellPlaced) (hperm : first.values.Perm second.values)
    (hdistinct : second.HasDistinctNames) (key : Text) : first.get? key = second.get? key := by
  have hdistinct' : first.HasDistinctNames := fun one hone other hother =>
    hdistinct one (hperm.subset hone) other (hperm.subset hother)
  have hget : ∀ {catalog : Catalog}, catalog.WellPlaced → catalog.HasDistinctNames →
      ∀ definition, catalog.get? key = some definition ↔
        definition ∈ catalog.values ∧ Key.ofName definition.name = key := by
    intro catalog hplaced hnames definition
    constructor
    · intro hsome
      have hmem := Entries.mem_of_get?_eq_some hsome
      exact ⟨List.mem_map_of_mem hmem, (hplaced.key_eq hnames hmem).symm⟩
    · rintro ⟨hmem, rfl⟩
      obtain ⟨⟨own, _⟩, hentry, rfl⟩ := List.mem_map.mp hmem
      exact hplaced.key_eq hnames hentry ▸ Entries.get?_eq_some_of_mem hplaced.keys_nodup hentry
  apply Option.ext
  intro definition
  rw [hget hfirst hdistinct', hget hsecond hdistinct, hperm.mem_iff]

end Almanac.Holiday.Catalog
