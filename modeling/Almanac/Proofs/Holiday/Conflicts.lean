import Almanac.Proofs.Holiday.SameDefinitions

/-!
# Definitions in conflict

Two definitions are in conflict if they differ and the keys of their names are the same. The
policies part company at conflicts and nowhere else. A refusal comes at the first definition that
differs from the first one with its key; replacement leaves the last definition of each key. Where
there is no conflict every policy enters every definition under the key of its name, and the order
of the announcements is no more than the order of the entries.
-/

namespace Almanac.Holiday.Catalog

open Almanac.Text Almanac.Data

/-- The definitions whose names have the key, in order. -/
def ofKey (definitions : List Definition) (key : Text) : List Definition :=
  definitions.filter fun definition => Key.ofName definition.name = key

/-- Two different definitions have names with one key, which is not empty. -/
def HasConflict (definitions : List Definition) : Prop :=
  ∃ one ∈ definitions, ∃ other ∈ definitions, hasKey one = true ∧
    Key.ofName one.name = Key.ofName other.name ∧ one ≠ other

/-- Does the definition differ from the first one with its key? -/
def departs (definitions : List Definition) (definition : Definition) : Bool :=
  hasKey definition &&
    (ofKey definitions (Key.ofName definition.name)).head? ≠ some definition

theorem hasKey_iff (definition : Definition) :
    hasKey definition = true ↔ Key.ofName definition.name ≠ [] := by
  simp [hasKey]

@[simp] theorem mem_ofKey {definitions : List Definition} {key : Text} {definition : Definition} :
    definition ∈ ofKey definitions key ↔
      definition ∈ definitions ∧ Key.ofName definition.name = key := by
  simp [ofKey]

@[simp] theorem ofKey_append (definitions more : List Definition) (key : Text) :
    ofKey (definitions ++ more) key = ofKey definitions key ++ ofKey more key :=
  List.filter_append ..

theorem HasConflict.mono {definitions wider : List Definition} (hsubset : definitions ⊆ wider)
    (hconflict : HasConflict definitions) : HasConflict wider := by
  obtain ⟨one, hone, other, hother, hdiffer⟩ := hconflict
  exact ⟨one, hsubset hone, other, hsubset hother, hdiffer⟩

/-- There is a conflict just if some definition differs from the first one with its key. -/
theorem hasConflict_iff_departs (definitions : List Definition) :
    HasConflict definitions ↔
      ∃ definition ∈ definitions, departs definitions definition = true := by
  constructor
  · rintro ⟨one, hone, other, hother, hkey, hsame, hne⟩
    have hkey' : hasKey other = true := by rwa [hasKey_iff, ← hsame, ← hasKey_iff]
    -- the first definition with that key cannot be both of them
    by_cases hfirst : (ofKey definitions (Key.ofName one.name)).head? = some one
    · refine ⟨other, hother, ?_⟩
      simp [departs, hkey', ← hsame, hfirst, hne]
    · exact ⟨one, hone, by simp [departs, hkey, hfirst]⟩
  · rintro ⟨definition, hmem, hdeparts⟩
    obtain ⟨hkey, hne⟩ : hasKey definition = true ∧
        (ofKey definitions (Key.ofName definition.name)).head? ≠ some definition := by
      simpa [departs] using hdeparts
    have hown : definition ∈ ofKey definitions (Key.ofName definition.name) :=
      mem_ofKey.mpr ⟨hmem, rfl⟩
    cases hfirst : ofKey definitions (Key.ofName definition.name) with
    | nil => simp [hfirst] at hown
    | cons first rest =>
        obtain ⟨hfirstMem, hfirstKey⟩ := mem_ofKey.mp (hfirst ▸ List.mem_cons_self)
        refine ⟨definition, hmem, first, hfirstMem, hkey, hfirstKey.symm, ?_⟩
        rintro rfl
        exact hne (by rw [hfirst]; rfl)

/-- Whether a definition departs is settled by those up to it. -/
theorem departs_append {definitions : List Definition} {definition : Definition}
    (hmem : definition ∈ definitions) (more : List Definition) :
    departs (definitions ++ more) definition = departs definitions definition := by
  have hown : definition ∈ ofKey definitions (Key.ofName definition.name) :=
    mem_ofKey.mpr ⟨hmem, rfl⟩
  unfold departs
  rw [ofKey_append, List.head?_append_of_ne_nil _ (List.ne_nil_of_mem hown)]

theorem find?_departs_append {definitions : List Definition} {definition : Definition}
    (h : definitions.find? (departs definitions) = some definition) (more : List Definition) :
    (definitions ++ more).find? (departs (definitions ++ more)) = some definition := by
  obtain ⟨hdeparts, before, after, rfl, hbefore⟩ := List.find?_eq_some_iff_append.mp h
  rw [List.append_assoc, List.find?_eq_some_iff_append]
  refine ⟨?_, before, after ++ more, rfl, ?_⟩
  · rwa [← List.append_assoc, departs_append (by simp)]
  · intro known hknown
    rw [← List.append_assoc, departs_append (by simp [hknown])]
    exact hbefore known hknown

/-! ## Entering definitions -/

/-- The catalog with the definition under the key of its name, whatever was there before. -/
def enter (catalog : Catalog) (definition : Definition) : Catalog :=
  if hasKey definition then catalog.put (Key.ofName definition.name) definition else catalog

/-- The catalog of definitions that are entered one after the other. -/
def lastOfEach (definitions : List Definition) : Catalog :=
  definitions.foldl enter []

theorem lastOfEach_concat (definitions : List Definition) (definition : Definition) :
    lastOfEach (definitions ++ [definition]) = (lastOfEach definitions).enter definition := by
  simp [lastOfEach]

/-- Of the definitions with one key the last one is entered for good. -/
theorem get?_lastOfEach (definitions : List Definition) {key : Text} (hkey : key ≠ []) :
    (lastOfEach definitions).get? key = (ofKey definitions key).getLast? := by
  induction definitions using List.reverseRecOn with
  | nil => rfl
  | append_singleton definitions definition ih =>
      rw [lastOfEach_concat, ofKey_append, enter]
      by_cases hown : Key.ofName definition.name = key
      · have hhas : hasKey definition = true := (hasKey_iff definition).mpr (hown ▸ hkey)
        simp [ofKey, hown, hhas]
      · by_cases hhas : hasKey definition = true <;> simpa [ofKey, hown, hhas] using ih

/-- The keys are in the order in which they came first. -/
theorem keys_lastOfEach (definitions : List Definition) :
    (lastOfEach definitions).keys =
      ((definitions.filter hasKey).map fun definition => Key.ofName definition.name).eraseDups := by
  induction definitions using List.reverseRecOn with
  | nil => rfl
  | append_singleton definitions definition ih =>
      rw [lastOfEach_concat, enter, List.filter_append, List.map_append]
      cases hkey : hasKey definition with
      | false => simp [hkey, ih]
      | true =>
          rw [List.filter_singleton, hkey, cond_true, List.map_singleton, eraseDups_concat, ← ih,
            if_pos rfl, Entries.keys_put]
          have hseen : Key.ofName definition.name ∈ (lastOfEach definitions).keys ↔
              Key.ofName definition.name ∈
                (definitions.filter hasKey).map fun known => Key.ofName known.name := by
            rw [ih, List.mem_eraseDups]
          by_cases hmem : Key.ofName definition.name ∈ (lastOfEach definitions).keys
          · rw [if_pos hmem, if_pos (hseen.mp hmem)]
          · rw [if_neg hmem, if_neg (mt hseen.mpr hmem)]

/-! ## Runs of the policies -/

theorem add_overwrite (draft : Draft) (definition : Definition) :
    ∃ collisions, draft.add .overwrite definition =
      .ok ⟨draft.catalog.enter definition, collisions⟩ := by
  cases hempty : (Key.ofName definition.name).isEmpty with
  | true => exact ⟨draft.collisions, by simp [Draft.add, enter, hasKey, hempty]⟩
  | false =>
      cases hfree : draft.catalog.isFree definition (Key.ofName definition.name) with
      | true => exact ⟨draft.collisions, by simp [Draft.add, enter, hasKey, hempty, hfree]⟩
      | false =>
          exact ⟨draft.collisions ++ [Key.ofName definition.name],
            by simp [Draft.add, enter, hasKey, hempty, hfree]⟩

theorem foldlM_add_overwrite (definitions : List Definition) (draft : Draft) :
    ∃ collisions, definitions.foldlM (Draft.add .overwrite) draft =
      .ok ⟨definitions.foldl enter draft.catalog, collisions⟩ := by
  induction definitions generalizing draft with
  | nil => exact ⟨draft.collisions, rfl⟩
  | cons definition rest ih =>
      obtain ⟨collisions, hadd⟩ := add_overwrite draft definition
      rw [List.foldlM_cons, hadd]
      exact ih ⟨draft.catalog.enter definition, collisions⟩

theorem getLast?_ofKey {definitions : List Definition} (hnone : ¬ HasConflict definitions)
    {key : Text} (hkey : key ≠ []) :
    (ofKey definitions key).getLast? = (ofKey definitions key).head? := by
  cases hlast : (ofKey definitions key).getLast? with
  | none => rw [List.getLast?_eq_none_iff.mp hlast, List.head?_nil]
  | some last =>
      obtain ⟨hlastMem, hlastKey⟩ := mem_ofKey.mp (List.mem_of_getLast? hlast)
      cases hfirst : (ofKey definitions key).head? with
      | none => simp [List.head?_eq_none_iff.mp hfirst] at hlast
      | some first =>
          obtain ⟨hfirstMem, hfirstKey⟩ := mem_ofKey.mp (List.mem_of_head? hfirst)
          rw [Option.some.injEq]
          by_contra hne
          apply hnone
          refine ⟨last, hlastMem, first, hfirstMem, ?_, hlastKey.trans hfirstKey.symm, hne⟩
          rw [hasKey_iff, hlastKey]
          exact hkey

/-- Behind definitions without conflict a key is free for the next definition unless this departs
from the first one with that key. -/
theorem isFree_lastOfEach {definitions : List Definition} (hnone : ¬ HasConflict definitions)
    {definition : Definition} (hkey : hasKey definition = true) :
    (lastOfEach definitions).isFree definition (Key.ofName definition.name) =
      !departs (definitions ++ [definition]) definition := by
  have hkey' := (hasKey_iff definition).mp hkey
  have hget := get?_lastOfEach definitions hkey'
  rw [getLast?_ofKey hnone hkey'] at hget
  unfold isFree departs
  rw [hget, ofKey_append, hkey, Bool.true_and]
  cases ofKey definitions (Key.ofName definition.name) with
  | nil => simp [ofKey]
  | cons first rest => simp

theorem hasConflict_concat (definitions : List Definition) (definition : Definition) :
    HasConflict (definitions ++ [definition]) ↔
      HasConflict definitions ∨ departs (definitions ++ [definition]) definition = true := by
  rw [hasConflict_iff_departs, hasConflict_iff_departs]
  constructor
  · rintro ⟨known, hmem, hdeparts⟩
    rcases List.mem_append.mp hmem with hold | hlast
    · exact .inl ⟨known, hold, by rwa [departs_append hold] at hdeparts⟩
    · exact .inr (List.mem_singleton.mp hlast ▸ hdeparts)
  · rintro (⟨known, hold, hdeparts⟩ | hdeparts)
    · exact ⟨known, List.mem_append_left _ hold, by rwa [departs_append hold]⟩
    · exact ⟨definition, List.mem_append_right _ List.mem_cons_self, hdeparts⟩

/-- Behind definitions without conflict every policy enters one that does not depart, and nothing
collides. -/
theorem add_of_not_departs (policy : CollisionPolicy) {definitions : List Definition}
    (hnone : ¬ HasConflict definitions) {definition : Definition}
    (hstays : departs (definitions ++ [definition]) definition = false) (collisions : List Text) :
    Draft.add policy ⟨lastOfEach definitions, collisions⟩ definition =
      .ok ⟨lastOfEach (definitions ++ [definition]), collisions⟩ := by
  rw [lastOfEach_concat]
  cases hempty : (Key.ofName definition.name).isEmpty with
  | true => simp [Draft.add, enter, hasKey, hempty]
  | false =>
      have hkey : hasKey definition = true := by simp [hasKey, hempty]
      have hfree := isFree_lastOfEach hnone hkey
      rw [hstays] at hfree
      simp [Draft.add, enter, hkey, hempty, hfree]

theorem add_reject_of_departs {definitions : List Definition}
    (hnone : ¬ HasConflict definitions) {definition : Definition}
    (hdeparts : departs (definitions ++ [definition]) definition = true)
    (collisions : List Text) :
    Draft.add .reject ⟨lastOfEach definitions, collisions⟩ definition =
      .error (.collision (Key.ofName definition.name),
        collisions ++ [Key.ofName definition.name]) := by
  have hkey : hasKey definition = true := (Bool.and_eq_true_iff.mp hdeparts).1
  have hempty : (Key.ofName definition.name).isEmpty = false := by simpa [hasKey] using hkey
  have hfree := isFree_lastOfEach hnone hkey
  rw [hdeparts] at hfree
  simp [Draft.add, hempty, hfree]

/-- Without conflict every policy enters all definitions, and nothing collides. -/
theorem foldlM_add_of_noConflict (policy : CollisionPolicy) {definitions : List Definition}
    (hnone : ¬ HasConflict definitions) :
    definitions.foldlM (Draft.add policy) ⟨[], []⟩ = .ok ⟨lastOfEach definitions, []⟩ := by
  induction definitions using List.reverseRecOn with
  | nil => rfl
  | append_singleton definitions definition ih =>
      rw [hasConflict_concat, not_or, Bool.not_eq_true] at hnone
      rw [foldlM_add_concat (ih hnone.1)]
      exact add_of_not_departs policy hnone.1 hnone.2 []

/-- A refusal comes at the first definition that departs from the first one with its key. -/
theorem foldlM_add_reject_of_conflict {definitions : List Definition}
    (hconflict : HasConflict definitions) :
    ∃ definition, definitions.find? (departs definitions) = some definition ∧
      definitions.foldlM (Draft.add .reject) ⟨[], []⟩ =
        .error (.collision (Key.ofName definition.name), [Key.ofName definition.name]) := by
  induction definitions using List.reverseRecOn with
  | nil => obtain ⟨one, hone, -⟩ := hconflict; cases hone
  | append_singleton definitions definition ih =>
      by_cases hbefore : HasConflict definitions
      · obtain ⟨first, hfirst, herror⟩ := ih hbefore
        refine ⟨first, find?_departs_append hfirst [definition], ?_⟩
        rw [List.foldlM_append, herror]
        rfl
      · have hdeparts := ((hasConflict_concat definitions definition).mp hconflict).resolve_left
          hbefore
        refine ⟨definition, ?_, ?_⟩
        · rw [List.find?_eq_some_iff_append]
          refine ⟨hdeparts, definitions, [], rfl, ?_⟩
          intro known hknown
          rw [departs_append hknown, Bool.not_eq_true', ← Bool.not_eq_true]
          intro hknownDeparts
          exact hbefore ((hasConflict_iff_departs definitions).mpr ⟨known, hknown, hknownDeparts⟩)
        · rw [foldlM_add_concat (foldlM_add_of_noConflict .reject hbefore)]
          exact add_reject_of_departs hbefore hdeparts []

/-! ## Orders of announcements -/

theorem nodup_keys_lastOfEach (definitions : List Definition) :
    (lastOfEach definitions).keys.Nodup := by
  refine Entries.nodup_keys_foldl (fun known definition h => ?_) definitions List.nodup_nil
  unfold enter
  split
  · exact Entries.nodup_keys_put h _ definition
  · exact h

/-- Without conflict the entries are the definitions that have a key, each under its own. -/
theorem mem_lastOfEach_iff {definitions : List Definition} (hnone : ¬ HasConflict definitions)
    (key : Text) (definition : Definition) :
    (key, definition) ∈ lastOfEach definitions ↔
      definition ∈ definitions ∧ Key.ofName definition.name = key ∧ key ≠ [] := by
  constructor
  · intro hmem
    have hkey : key ≠ [] := by
      have hkeys : key ∈ (lastOfEach definitions).keys := List.mem_map.mpr ⟨_, hmem, rfl⟩
      rw [keys_lastOfEach, List.mem_eraseDups, List.mem_map] at hkeys
      obtain ⟨known, hknown, rfl⟩ := hkeys
      exact (hasKey_iff known).mp (List.mem_filter.mp hknown).2
    have hget := Entries.get?_eq_some_of_mem (nodup_keys_lastOfEach definitions) hmem
    rw [get?_lastOfEach definitions hkey] at hget
    obtain ⟨hdefinition, hown⟩ := mem_ofKey.mp (List.mem_of_getLast? hget)
    exact ⟨hdefinition, hown, hkey⟩
  · rintro ⟨hmem, rfl, hkey⟩
    apply Entries.mem_of_get?_eq_some
    rw [get?_lastOfEach definitions hkey]
    cases hlast : (ofKey definitions (Key.ofName definition.name)).getLast? with
    | none =>
        have hown := mem_ofKey.mpr ⟨hmem, rfl⟩
        simp [List.getLast?_eq_none_iff.mp hlast] at hown
    | some last =>
        obtain ⟨hlastMem, hlastKey⟩ := mem_ofKey.mp (List.mem_of_getLast? hlast)
        by_contra hne
        apply hnone
        refine ⟨last, hlastMem, definition, hmem, ?_, hlastKey, fun heq => hne (heq ▸ rfl)⟩
        rw [hasKey_iff, hlastKey]
        exact hkey

/-- Without conflict the order of the definitions settles the order of the entries only. -/
theorem lastOfEach_perm {definitions reordered : List Definition}
    (hnone : ¬ HasConflict definitions) (hperm : reordered.Perm definitions) :
    (lastOfEach reordered).Perm (lastOfEach definitions) := by
  have hnone' : ¬ HasConflict reordered := fun h => hnone (h.mono hperm.subset)
  refine (List.perm_ext_iff_of_nodup ?_ ?_).mpr ?_
  · exact (nodup_keys_lastOfEach reordered).of_map
  · exact (nodup_keys_lastOfEach definitions).of_map
  · rintro ⟨key, definition⟩
    rw [mem_lastOfEach_iff hnone', mem_lastOfEach_iff hnone, hperm.mem_iff]

/-! ## What the policies make of announcements -/

section

variable {category : Text} {announced : List Announcement} {definitions : List Definition}

theorem draft_of_noConflict
    (hdefinitions : announced.mapM (Definition.ofAnnouncement category) = .ok definitions)
    (hnone : ¬ HasConflict definitions) (policy : CollisionPolicy) :
    draft policy category announced = .ok ⟨lastOfEach definitions, []⟩ := by
  rw [draft_eq_foldlM hdefinitions, foldlM_add_of_noConflict policy hnone]

/-- With a conflict the key of the first definition that departs is refused. -/
theorem draft_reject_of_conflict
    (hdefinitions : announced.mapM (Definition.ofAnnouncement category) = .ok definitions)
    (hconflict : HasConflict definitions) :
    ∃ definition, definitions.find? (departs definitions) = some definition ∧
      draft .reject category announced =
        .error (.collision (Key.ofName definition.name), [Key.ofName definition.name]) := by
  rw [draft_eq_foldlM hdefinitions]
  exact foldlM_add_reject_of_conflict hconflict

/-- Without conflict another order of the announcements makes the same entries. -/
theorem exists_draft_of_perm
    (hdefinitions : announced.mapM (Definition.ofAnnouncement category) = .ok definitions)
    (hnone : ¬ HasConflict definitions) {reordered : List Announcement}
    (hperm : reordered.Perm announced) :
    ∃ other, (∀ policy, draft policy category reordered = .ok ⟨other, []⟩) ∧
      other.Perm (lastOfEach definitions) ∧
      ∀ key, other.get? key = (lastOfEach definitions).get? key := by
  obtain ⟨others, hothers, hothersPerm⟩ := exists_mapM_ok_of_perm hdefinitions hperm
  have hnone' : ¬ HasConflict others := fun h => hnone (h.mono hothersPerm.subset)
  have hcatalogs := lastOfEach_perm hnone hothersPerm
  refine ⟨lastOfEach others, draft_of_noConflict hothers hnone', hcatalogs, ?_⟩
  intro key
  exact Entries.get?_eq_of_perm (nodup_keys_lastOfEach others) hcatalogs key

end

/-- The three policies on announcements that all have definitions. They are refused just if two
definitions are in conflict, with the key of the first definition that differs from the first one
with its key. Replacement keeps the keys in the order in which they came first, each with its last
definition. Without conflict every policy makes the same catalog and notes no collision, and
announcements in another order make a catalog that differs in the order of its entries only. -/
theorem draft_policies_part_at_conflicts {category : Text} {announced : List Announcement}
    {definitions : List Definition}
    (hdefinitions : announced.mapM (Definition.ofAnnouncement category) = .ok definitions) :
    ((∃ key collisions,
        draft .reject category announced = .error (.collision key, collisions)) ↔
      HasConflict definitions) ∧
    (∀ fault collisions, draft .reject category announced = .error (fault, collisions) →
      ∃ definition, definitions.find? (departs definitions) = some definition ∧
        fault = .collision (Key.ofName definition.name)) ∧
    (∃ made, draft .overwrite category announced = .ok made ∧
      made.catalog.keys = ((definitions.filter hasKey).map fun definition =>
        Key.ofName definition.name).eraseDups ∧
      ∀ key, key ≠ [] → made.catalog.get? key = (ofKey definitions key).getLast?) ∧
    (¬ HasConflict definitions → ∃ catalog,
      (∀ policy, draft policy category announced = .ok ⟨catalog, []⟩) ∧
      ∀ reordered, reordered.Perm announced → ∃ other,
        (∀ policy, draft policy category reordered = .ok ⟨other, []⟩) ∧
        other.Perm catalog ∧ ∀ key, other.get? key = catalog.get? key) := by
  refine ⟨⟨?_, ?_⟩, ?_, ?_, ?_⟩
  · rintro ⟨key, collisions, hrefused⟩
    by_contra hnone
    rw [draft_of_noConflict hdefinitions hnone] at hrefused
    cases hrefused
  · intro hconflict
    obtain ⟨definition, -, hrefused⟩ := draft_reject_of_conflict hdefinitions hconflict
    exact ⟨_, _, hrefused⟩
  · intro fault collisions hrefused
    by_cases hconflict : HasConflict definitions
    · obtain ⟨definition, hfirst, hcollision⟩ := draft_reject_of_conflict hdefinitions hconflict
      rw [hcollision] at hrefused
      obtain ⟨rfl, -⟩ := Prod.mk.inj (Except.error.inj hrefused)
      exact ⟨definition, hfirst, rfl⟩
    · rw [draft_of_noConflict hdefinitions hconflict] at hrefused
      cases hrefused
  · obtain ⟨collisions, hmade⟩ := foldlM_add_overwrite definitions ⟨[], []⟩
    refine ⟨_, (draft_eq_foldlM hdefinitions .overwrite).trans hmade,
      keys_lastOfEach definitions, ?_⟩
    intro key hkey
    exact get?_lastOfEach definitions hkey
  · intro hnone
    refine ⟨lastOfEach definitions, draft_of_noConflict hdefinitions hnone, ?_⟩
    intro reordered hperm
    exact exists_draft_of_perm hdefinitions hnone hperm

/-- A holiday that was moved by a day, with another one announced in between. -/
def moved : List Announcement :=
  [⟨"A", .fixed "JAN" 1⟩, ⟨"B", .easterBased 0⟩, ⟨"A", .fixed "JAN" 2⟩]

def movedDefinitions : List Definition :=
  [⟨"A", "public", .fixed 1 1⟩, ⟨"B", "public", .easterBased 0⟩, ⟨"A", "public", .fixed 1 2⟩]

theorem draft_policies_moved :
    moved.mapM (Definition.ofAnnouncement "public") = .ok movedDefinitions ∧
      (∃ collisions, draft .reject "public" moved = .error (.collision "a", collisions)) ∧
      ∃ made, draft .overwrite "public" moved = .ok made ∧
        made.catalog.keys = ["a".toList, "b".toList] ∧
        made.catalog.get? "a".toList = some ⟨"A", "public", .fixed 1 2⟩ := by
  have hdefinitions : moved.mapM (Definition.ofAnnouncement "public") = .ok movedDefinitions := by
    decide +kernel
  obtain ⟨hreject, hfirst, ⟨made, hmade, hkeys, hget⟩, -⟩ :=
    draft_policies_part_at_conflicts hdefinitions
  have hconflict : HasConflict movedDefinitions := by
    refine ⟨⟨"A", "public", .fixed 1 1⟩, ?_, ⟨"A", "public", .fixed 1 2⟩, ?_, ?_, rfl, ?_⟩ <;>
      decide +kernel
  obtain ⟨key, collisions, hrefused⟩ := hreject.mpr hconflict
  obtain ⟨definition, hdefinition, hkey⟩ := hfirst _ _ hrefused
  have hdeparting : movedDefinitions.find? (departs movedDefinitions) =
      some ⟨"A", "public", .fixed 1 2⟩ := by decide +kernel
  obtain rfl := Option.some.inj (hdeparting.symm.trans hdefinition)
  refine ⟨hdefinitions, ⟨collisions, ?_⟩, made, hmade, ?_, ?_⟩
  · have hname : Key.ofName "A" = "a".toList := by decide +kernel
    rw [hrefused, hkey, hname]
  · rw [hkeys]
    decide +kernel
  · rw [hget _ (by decide)]
    decide +kernel

end Almanac.Holiday.Catalog
