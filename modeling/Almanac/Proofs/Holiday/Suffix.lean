import Almanac.Proofs.Holiday.Slots
import Mathlib.Data.List.Infix

/-!
# Catalogs that keep every definition

Under the policy of numbered keys a catalog only grows: a definition that is new goes to the end,
under the first key of its name that is not taken, and one that is there already changes nothing.
So the catalog holds the different definitions in the order in which they came first, and no
later announcement moves, renames or drops an earlier one.
-/

namespace Almanac.Holiday.Catalog

open Almanac.Text Almanac.Data

/-- Has the definition a key to go under? -/
def hasKey (definition : Definition) : Bool :=
  !(Key.ofName definition.name).isEmpty

/-- The catalog with the definition in its slot; a definition without a key is left out. -/
def place (catalog : Catalog) (definition : Definition) : Catalog :=
  if hasKey definition then catalog.put (catalog.slot definition) definition else catalog

/-- Each key is there once, and each definition is in a slot of its own name. -/
structure WellPlaced (catalog : Catalog) : Prop where
  keys_nodup : catalog.keys.Nodup
  ownSlot : ∀ key definition, (key, definition) ∈ catalog → catalog.OwnSlot definition key

theorem wellPlaced_nil : WellPlaced [] :=
  ⟨List.nodup_nil, fun _ _ hmem => absurd hmem List.not_mem_nil⟩

theorem not_takenByOther_of_get? {catalog : Catalog} {definition : Definition} {key : Text}
    (h : catalog.get? key = some definition) : ¬ catalog.TakenByOther definition key := by
  rintro ⟨other, hother, hne⟩
  exact hne (Option.some.inj (hother.symm.trans h))

theorem not_takenByOther_slot (catalog : Catalog) (definition : Definition) :
    ¬ catalog.TakenByOther definition (catalog.slot definition) := by
  rw [← isFree_eq_false_iff, catalog.slot_isFree]
  exact Bool.noConfusion

/-- A definition that is there already is found again in its slot. -/
theorem WellPlaced.place_of_mem {catalog : Catalog} (hplaced : catalog.WellPlaced)
    {definition : Definition} (hmem : definition ∈ catalog.values) :
    catalog.place definition = catalog := by
  obtain ⟨⟨key, _⟩, hentry, rfl⟩ := List.mem_map.mp hmem
  have hget : catalog.get? key = some _ := Entries.get?_eq_some_of_mem hplaced.keys_nodup hentry
  -- its key and its slot are both the first key of the name that no other definition takes
  have hslot : catalog.slot _ = key :=
    (catalog.slot_ownSlot _).unique (hplaced.ownSlot _ _ hentry)
      (catalog.not_takenByOther_slot _) (not_takenByOther_of_get? hget)
  unfold place
  rw [hslot, Entries.put_of_get?_eq_some hget, ite_self]

theorem get?_slot_of_notMem {catalog : Catalog} {definition : Definition}
    (hnew : definition ∉ catalog.values) : catalog.get? (catalog.slot definition) = none := by
  rcases (isFree_iff ..).mp (catalog.slot_isFree definition) with hnone | hsome
  · exact hnone
  · exact absurd (List.mem_map_of_mem (Entries.mem_of_get?_eq_some hsome)) hnew

/-- A new definition goes to the end, under a new key. -/
theorem place_of_notMem {catalog : Catalog} {definition : Definition}
    (hkey : hasKey definition = true) (hnew : definition ∉ catalog.values) :
    catalog.place definition = catalog ++ [(catalog.slot definition, definition)] := by
  unfold place
  rw [if_pos hkey, Entries.put_of_get?_eq_none (get?_slot_of_notMem hnew)]

theorem place_of_noKey {catalog : Catalog} {definition : Definition}
    (hkey : hasKey definition = false) : catalog.place definition = catalog := by
  simp [place, hkey]

/-- Placing a definition leaves the catalog as it is or adds one entry at its end. -/
theorem WellPlaced.prefix_place {catalog : Catalog} (hplaced : catalog.WellPlaced)
    (definition : Definition) : catalog <+: catalog.place definition := by
  by_cases hmem : definition ∈ catalog.values
  · rw [hplaced.place_of_mem hmem]
  · cases hkey : hasKey definition with
    | false => rw [place_of_noKey hkey]
    | true =>
        rw [place_of_notMem hkey hmem]
        exact List.prefix_append _ _

theorem WellPlaced.append {catalog : Catalog} (hplaced : catalog.WellPlaced)
    {definition : Definition} (hnew : definition ∉ catalog.values) :
    WellPlaced (catalog ++ [(catalog.slot definition, definition)]) := by
  have hgrows : catalog <+: catalog ++ [(catalog.slot definition, definition)] :=
    List.prefix_append _ _
  constructor
  · have hfresh : catalog.slot definition ∉ catalog.keys :=
      (Entries.get?_eq_none_iff ..).mp (get?_slot_of_notMem hnew)
    simpa [Entries.keys, List.nodup_append] using
      ⟨hplaced.keys_nodup, fun key _ hmem heq =>
        hfresh (heq ▸ List.mem_map.mpr ⟨_, hmem, rfl⟩)⟩
  · intro key known hmem
    rcases List.mem_append.mp hmem with hold | hlast
    · exact (hplaced.ownSlot key known hold).mono hgrows
    · obtain ⟨rfl, rfl⟩ := Prod.mk.inj (List.mem_singleton.mp hlast)
      exact (catalog.slot_ownSlot known).mono hgrows

theorem WellPlaced.place {catalog : Catalog} (hplaced : catalog.WellPlaced)
    (definition : Definition) : WellPlaced (catalog.place definition) := by
  by_cases hmem : definition ∈ catalog.values
  · rwa [hplaced.place_of_mem hmem]
  · cases hkey : hasKey definition with
    | false => rwa [place_of_noKey hkey]
    | true =>
        rw [place_of_notMem hkey hmem]
        exact hplaced.append hmem

/-! ## A whole run -/

/-- The catalog of definitions that are placed one after the other. -/
def ofDefinitions (definitions : List Definition) : Catalog :=
  definitions.foldl place []

@[simp] theorem ofDefinitions_concat (definitions : List Definition) (definition : Definition) :
    ofDefinitions (definitions ++ [definition]) = (ofDefinitions definitions).place definition := by
  simp [ofDefinitions]

theorem ofDefinitions_wellPlaced (definitions : List Definition) :
    (ofDefinitions definitions).WellPlaced := by
  induction definitions using List.reverseRecOn with
  | nil => exact wellPlaced_nil
  | append_singleton definitions definition ih =>
      rw [ofDefinitions_concat]
      exact ih.place definition

/-- The catalog of the first definitions is a beginning of the catalog of all. -/
theorem ofDefinitions_prefix_append (earlier later : List Definition) :
    ofDefinitions earlier <+: ofDefinitions (earlier ++ later) := by
  induction later using List.reverseRecOn with
  | nil => rw [List.append_nil]
  | append_singleton later definition ih =>
      rw [← List.append_assoc, ofDefinitions_concat]
      exact ih.trans ((ofDefinitions_wellPlaced _).prefix_place definition)

/-- Without repetitions, an item at the end of a list stays just if it is new. -/
theorem eraseDups_concat {α : Type} [BEq α] [LawfulBEq α] (items : List α) (item : α) :
    (items ++ [item]).eraseDups =
      if item ∈ items then items.eraseDups else items.eraseDups ++ [item] := by
  rw [List.eraseDups_append]
  by_cases hmem : item ∈ items
  · simp [List.removeAll, hmem]
  · simp [List.removeAll, List.eraseDups_cons, hmem]

/-- The definitions of the catalog are those with a key, each where it came first. -/
theorem ofDefinitions_values (definitions : List Definition) :
    (ofDefinitions definitions).values = (definitions.filter hasKey).eraseDups := by
  -- the definitions are taken apart at the end, where the catalog grows
  induction definitions using List.reverseRecOn with
  | nil => rfl
  | append_singleton definitions definition ih =>
      rw [ofDefinitions_concat, List.filter_append]
      cases hkey : hasKey definition with
      | false => simp [place_of_noKey hkey, hkey, ih]
      | true =>
          rw [List.filter_singleton, hkey, cond_true, eraseDups_concat, ← ih]
          have hseen : definition ∈ (ofDefinitions definitions).values ↔
              definition ∈ definitions.filter hasKey := by
            rw [ih, List.mem_eraseDups]
          by_cases hmem : definition ∈ definitions.filter hasKey
          · rw [(ofDefinitions_wellPlaced definitions).place_of_mem (hseen.mpr hmem), if_pos hmem]
          · rw [place_of_notMem hkey (mt hseen.mp hmem), if_neg hmem]
            simp [Entries.values]

/-! ## Announcements -/

/-- If all values of a list can be turned, so can the first one and those behind it. -/
theorem exists_of_mapM_cons_ok {α β ε : Type} {f : α → Except ε β} {a : α} {rest : List α}
    {turned : List β} (h : (a :: rest).mapM f = .ok turned) :
    ∃ first more, f a = .ok first ∧ rest.mapM f = .ok more ∧ turned = first :: more := by
  rw [List.mapM_cons] at h
  cases hfirst : f a with
  | error e => simp [hfirst, bind, Except.bind] at h
  | ok first =>
      cases hrest : rest.mapM f with
      | error e => simp [hfirst, hrest, bind, Except.bind] at h
      | ok more =>
          refine ⟨first, more, rfl, rfl, ?_⟩
          simpa [hfirst, hrest, bind, Except.bind, pure, Except.pure] using h.symm

/-- Announcements that all have definitions are announced by adding these one after the other. -/
theorem foldlM_announce (policy : CollisionPolicy) {category : Text}
    {announced : List Announcement} {definitions : List Definition}
    (hdefinitions : announced.mapM (Definition.ofAnnouncement category) = .ok definitions)
    (draft : Draft) :
    announced.foldlM (Draft.announce policy category) draft =
      definitions.foldlM (Draft.add policy) draft := by
  induction announced generalizing definitions draft with
  | nil =>
      obtain rfl : [] = definitions := Except.ok.inj hdefinitions
      rfl
  | cons a rest ih =>
      obtain ⟨definition, more, hfirst, hrest, rfl⟩ := exists_of_mapM_cons_ok hdefinitions
      have hstep : Draft.announce policy category draft a = draft.add policy definition := by
        rw [Draft.announce, hfirst]
      rw [List.foldlM_cons, List.foldlM_cons, hstep]
      congr 1
      funext next
      exact ih hrest next

/-- A draft of announcements is made of their definitions. -/
theorem draft_eq_foldlM {category : Text} {announced : List Announcement}
    {definitions : List Definition}
    (hdefinitions : announced.mapM (Definition.ofAnnouncement category) = .ok definitions)
    (policy : CollisionPolicy) :
    draft policy category announced = definitions.foldlM (Draft.add policy) ⟨[], []⟩ :=
  foldlM_announce policy hdefinitions ⟨[], []⟩

theorem foldlM_add_concat {policy : CollisionPolicy} {definitions : List Definition}
    {draft made : Draft} (hmade : definitions.foldlM (Draft.add policy) draft = .ok made)
    (definition : Definition) :
    (definitions ++ [definition]).foldlM (Draft.add policy) draft = made.add policy definition := by
  rw [List.foldlM_append, hmade]
  exact bind_pure (made.add policy definition)

/-- The key of the definition's name, if another definition is under it. -/
def collided (catalog : Catalog) (definition : Definition) : List Text :=
  let key := Key.ofName definition.name
  if hasKey definition && !catalog.isFree definition key then [key] else []

/-- Adding to a draft under numbered keys never fails, and places the definition. -/
theorem add_suffix (draft : Draft) (definition : Definition) :
    draft.add .suffix definition =
      .ok ⟨draft.catalog.place definition,
        draft.collisions ++ collided draft.catalog definition⟩ := by
  cases hempty : (Key.ofName definition.name).isEmpty with
  | true => simp [Draft.add, place, collided, hasKey, hempty]
  | false =>
      cases hfree : draft.catalog.isFree definition (Key.ofName definition.name) with
      | true => simp [Draft.add, place, slot, collided, hasKey, hempty, hfree]
      | false => simp [Draft.add, place, slot, collided, hasKey, hempty, hfree]

theorem foldlM_add_suffix (definitions : List Definition) (draft : Draft) :
    ∃ collisions, definitions.foldlM (Draft.add .suffix) draft =
      .ok ⟨definitions.foldl place draft.catalog, collisions⟩ := by
  induction definitions generalizing draft with
  | nil => exact ⟨draft.collisions, rfl⟩
  | cons definition rest ih =>
      rw [List.foldlM_cons, add_suffix]
      exact ih _

/-- Announcements that all have definitions make the catalog of these definitions. -/
theorem draft_suffix {category : Text} {announced : List Announcement}
    {definitions : List Definition}
    (hdefinitions : announced.mapM (Definition.ofAnnouncement category) = .ok definitions) :
    ∃ collisions, draft .suffix category announced =
      .ok ⟨ofDefinitions definitions, collisions⟩ := by
  rw [draft_eq_foldlM hdefinitions]
  exact foldlM_add_suffix definitions ⟨[], []⟩

/-- The beginning of announcements that all have definitions has definitions too. -/
theorem mapM_ofAnnouncement_of_append {category : Text} {earlier later : List Announcement}
    {definitions : List Definition}
    (hdefinitions :
      (earlier ++ later).mapM (Definition.ofAnnouncement category) = .ok definitions) :
    ∃ first second, earlier.mapM (Definition.ofAnnouncement category) = .ok first ∧
      definitions = first ++ second := by
  rw [List.mapM_append] at hdefinitions
  cases hfirst : earlier.mapM (Definition.ofAnnouncement category) with
  | error e => simp [hfirst, bind, Except.bind] at hdefinitions
  | ok first =>
      cases hsecond : later.mapM (Definition.ofAnnouncement category) with
      | error e => simp [hfirst, hsecond, bind, Except.bind] at hdefinitions
      | ok second =>
          refine ⟨first, second, rfl, ?_⟩
          simpa [hfirst, hsecond, bind, Except.bind, pure, Except.pure] using hdefinitions.symm

/-- Under numbered keys nothing is lost, doubled or renamed. The catalog holds the different
definitions that have a key, in the order in which they came first; each is under a key of its own
name, with other definitions under all keys of that name before it; and the catalog of a
beginning of the announcements is a beginning of the catalog. The search for a numbered key ends
in every catalog. -/
theorem draft_suffix_keeps_definitions {category : Text} {announced : List Announcement}
    {definitions : List Definition}
    (hdefinitions : announced.mapM (Definition.ofAnnouncement category) = .ok definitions) :
    (∃ made, draft .suffix category announced = .ok made ∧
      made.catalog.keys.Nodup ∧
      made.catalog.values = (definitions.filter hasKey).eraseDups ∧
      (∀ key definition, (key, definition) ∈ made.catalog →
        made.catalog.OwnSlot definition key) ∧
      ∀ earlier later, announced = earlier ++ later →
        ∃ narrower, draft .suffix category earlier = .ok narrower ∧
          narrower.catalog <+: made.catalog) ∧
    ∀ (catalog : Catalog) (key : Text) (definition : Definition),
      ∃ n, 2 ≤ n ∧ catalog.freeKey key definition = Key.numbered key n ∧
        catalog.isFree definition (Key.numbered key n) = true ∧
        ∀ m, 2 ≤ m → m < n → catalog.TakenByOther definition (Key.numbered key m) := by
  refine ⟨?_, fun catalog key definition => catalog.freeKey_spec key definition⟩
  obtain ⟨collisions, hmade⟩ := draft_suffix hdefinitions
  have hplaced := ofDefinitions_wellPlaced definitions
  refine ⟨_, hmade, hplaced.keys_nodup, ofDefinitions_values definitions, hplaced.ownSlot, ?_⟩
  intro earlier later hsplit
  subst hsplit
  obtain ⟨first, second, hfirst, rfl⟩ := mapM_ofAnnouncement_of_append hdefinitions
  obtain ⟨fewer, hnarrower⟩ := draft_suffix hfirst
  exact ⟨_, hnarrower, ofDefinitions_prefix_append first second⟩

/-- Two holidays named "A", and between them one whose own key is the second key of that name. -/
def interleaved : List Announcement :=
  [⟨"A", .fixed "JAN" 1⟩, ⟨"A 2", .easterBased 0⟩, ⟨"A", .easterBased 1⟩, ⟨"A", .fixed "JAN" 1⟩]

/-- The definitions of these holidays; the last one is the first one again. -/
def interleavedDefinitions : List Definition :=
  [⟨"A", "public", .fixed 1 1⟩, ⟨"A 2", "public", .easterBased 0⟩,
   ⟨"A", "public", .easterBased 1⟩, ⟨"A", "public", .fixed 1 1⟩]

theorem draft_suffix_interleaved :
    interleaved.mapM (Definition.ofAnnouncement "public") = .ok interleavedDefinitions ∧
      ∃ made, draft .suffix "public" interleaved = .ok made ∧
        made.catalog.keys = ["a".toList, "a_2".toList, "a_3".toList] ∧
        made.catalog.values = (interleavedDefinitions.filter hasKey).eraseDups := by
  have hdefinitions :
      interleaved.mapM (Definition.ofAnnouncement "public") = .ok interleavedDefinitions := by
    decide +kernel
  obtain ⟨⟨made, hmade, -, hvalues, -⟩, -⟩ := draft_suffix_keeps_definitions hdefinitions
  refine ⟨hdefinitions, made, hmade, ?_, hvalues⟩
  have hkeys : (draft .suffix "public" interleaved).map (fun made => made.catalog.keys) =
      .ok ["a".toList, "a_2".toList, "a_3".toList] := by decide +kernel
  rw [hmade] at hkeys
  exact Except.ok.inj hkeys

end Almanac.Holiday.Catalog
