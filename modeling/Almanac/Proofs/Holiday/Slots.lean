import Almanac.Holiday.Catalog
import Mathlib.Data.List.Nodup
import Mathlib.Data.List.Perm.Subperm

/-!
# The keys of one name

Holidays of one name share a sequence of keys: the key of the name, and behind it the numbered
keys from two on. A definition goes to the first key of its sequence that is not taken by another
definition. Sequences of different names can share keys, since `a_2` is also the key of the name
"A 2"; nothing here supposes that they do not. The search for a numbered key ends in every
catalog.
-/

namespace Almanac.Holiday

open Almanac.Text Almanac.Data

namespace Key

/-- The key for the `n`-th holiday of a name, counted from one. -/
def nth (key : Text) (n : Nat) : Text :=
  if n ≤ 1 then key else numbered key n

@[simp] theorem nth_one (key : Text) : nth key 1 = key := rfl

theorem nth_of_two_le (key : Text) {n : Nat} (hn : 2 ≤ n) : nth key n = numbered key n :=
  if_neg (by omega)

/-- Different numbers have different written forms. -/
theorem ofNat_injective : Function.Injective Text.ofNat := by
  intro m n heq
  rw [← Nat.ofDigitChars_ten_toDigits (n := m), ← Nat.ofDigitChars_ten_toDigits (n := n)]
  exact congrArg (fun digits => Nat.ofDigitChars 10 digits 0) heq

theorem numbered_injective (key : Text) : Function.Injective (numbered key) := by
  intro m n heq
  exact ofNat_injective (List.cons.inj (List.append_cancel_left heq)).2

end Key

namespace Catalog

/-- Another definition is under the key. -/
def TakenByOther (catalog : Catalog) (definition : Definition) (key : Text) : Prop :=
  ∃ other, catalog.get? key = some other ∧ other ≠ definition

theorem isFree_eq_false_iff (catalog : Catalog) (definition : Definition) (key : Text) :
    catalog.isFree definition key = false ↔ catalog.TakenByOther definition key := by
  unfold isFree TakenByOther
  cases catalog.get? key <;> simp

theorem isFree_iff (catalog : Catalog) (definition : Definition) (key : Text) :
    catalog.isFree definition key = true ↔
      catalog.get? key = none ∨ catalog.get? key = some definition := by
  unfold isFree
  cases catalog.get? key <;> simp

/-- A key that is taken in a catalog is taken in whatever the catalog grows to. -/
theorem TakenByOther.mono {catalog wider : Catalog} {definition : Definition} {key : Text}
    (htaken : catalog.TakenByOther definition key) (hgrows : catalog <+: wider) :
    wider.TakenByOther definition key := by
  obtain ⟨other, hother, hne⟩ := htaken
  obtain ⟨more, rfl⟩ := hgrows
  exact ⟨other, Entries.get?_append_of_eq_some hother more, hne⟩

/-! ## The search for a numbered key -/

/-- A search of so many tries passes over taken keys only, and gives up on none that is free. -/
theorem freeKeyFrom_spec (catalog : Catalog) (key : Text) (definition : Definition)
    (tries number : Nat) :
    ∃ n, number ≤ n ∧ n ≤ number + tries ∧
      catalog.freeKeyFrom key definition tries number = Key.numbered key n ∧
      (∀ m, number ≤ m → m < n → catalog.TakenByOther definition (Key.numbered key m)) ∧
      (n < number + tries → catalog.isFree definition (Key.numbered key n) = true) := by
  induction tries generalizing number with
  | zero => exact ⟨number, by omega, by omega, rfl, fun m _ _ => by omega, fun h => by omega⟩
  | succ tries ih =>
      unfold freeKeyFrom
      split
      next hfree => exact ⟨number, by omega, by omega, rfl, fun m _ _ => by omega, fun _ => hfree⟩
      next hfree =>
        obtain ⟨n, hlow, hhigh, hkey, htaken, hfound⟩ := ih (number + 1)
        refine ⟨n, by omega, by omega, hkey, ?_, fun h => hfound (by omega)⟩
        intro m hm hmn
        -- the number that was passed over is taken, as are those that the further search passed
        by_cases heq : m = number
        · subst heq
          exact (isFree_eq_false_iff ..).mp (by simpa using hfree)
        · exact htaken m (by omega) hmn

/-- A catalog has too few entries to take as many numbered keys as it has entries, and one more. -/
theorem not_all_taken (catalog : Catalog) (key : Text) (definition : Definition) :
    ¬ ∀ m, 2 ≤ m → m ≤ 2 + catalog.length →
      catalog.TakenByOther definition (Key.numbered key m) := by
  intro htaken
  -- so many different keys would all have to be keys of the catalog
  let numbers := (List.range (catalog.length + 1)).map fun i => Key.numbered key (2 + i)
  have hnodup : numbers.Nodup :=
    List.nodup_range.map fun i j heq => Nat.add_left_cancel (Key.numbered_injective key heq)
  have hsubset : numbers ⊆ catalog.keys := by
    intro name hname
    obtain ⟨i, hi, rfl⟩ := List.mem_map.mp hname
    have hbound := List.mem_range.mp hi
    obtain ⟨other, hother, -⟩ := htaken (2 + i) (by omega) (by omega)
    exact List.mem_map_of_mem (Entries.mem_of_get?_eq_some hother)
  have hlength := (List.subperm_of_subset hnodup hsubset).length_le
  simp only [numbers, Entries.keys, List.length_map, List.length_range] at hlength
  omega

/-- The search for a numbered key ends at the first one that is free, in every catalog. -/
theorem freeKey_spec (catalog : Catalog) (key : Text) (definition : Definition) :
    ∃ n, 2 ≤ n ∧ catalog.freeKey key definition = Key.numbered key n ∧
      catalog.isFree definition (Key.numbered key n) = true ∧
      ∀ m, 2 ≤ m → m < n → catalog.TakenByOther definition (Key.numbered key m) := by
  obtain ⟨n, hlow, hhigh, hkey, htaken, hfound⟩ :=
    catalog.freeKeyFrom_spec key definition catalog.length 2
  refine ⟨n, hlow, hkey, ?_, htaken⟩
  -- otherwise the search gave up behind its last try, and all numbers up to that are taken
  by_contra hfree
  have hlast : catalog.TakenByOther definition (Key.numbered key n) :=
    (isFree_eq_false_iff ..).mp (by simpa using hfree)
  have hend : n = 2 + catalog.length := by
    by_contra hne
    exact hfree (hfound (by omega))
  apply catalog.not_all_taken key definition
  intro m hm hmn
  by_cases heq : m = n
  · exact heq ▸ hlast
  · exact htaken m hm (by omega)

/-! ## The slot of a definition -/

/-- The key is the one for the `n`-th holiday of the definition's name, and other definitions are
under all keys before it. -/
def OwnSlot (catalog : Catalog) (definition : Definition) (key : Text) : Prop :=
  ∃ n, 1 ≤ n ∧ key = Key.nth (Key.ofName definition.name) n ∧
    ∀ m, 1 ≤ m → m < n →
      catalog.TakenByOther definition (Key.nth (Key.ofName definition.name) m)

theorem OwnSlot.mono {catalog wider : Catalog} {definition : Definition} {key : Text}
    (hslot : catalog.OwnSlot definition key) (hgrows : catalog <+: wider) :
    wider.OwnSlot definition key := by
  obtain ⟨n, hn, hkey, htaken⟩ := hslot
  exact ⟨n, hn, hkey, fun m hm hmn => (htaken m hm hmn).mono hgrows⟩

/-- The keys of a name before the first one not taken by others settle which one that is. -/
theorem OwnSlot.unique {catalog : Catalog} {definition : Definition} {first second : Text}
    (hfirst : catalog.OwnSlot definition first) (hsecond : catalog.OwnSlot definition second)
    (hfree : ¬ catalog.TakenByOther definition first)
    (hfree' : ¬ catalog.TakenByOther definition second) : first = second := by
  obtain ⟨n, hn, rfl, htaken⟩ := hfirst
  obtain ⟨n', hn', rfl, htaken'⟩ := hsecond
  rcases Nat.lt_trichotomy n n' with hlt | heq | hgt
  · exact absurd (htaken' n hn hlt) hfree
  · rw [heq]
  · exact absurd (htaken n' hn' hgt) hfree'

/-- The key under which a definition goes. -/
def slot (catalog : Catalog) (definition : Definition) : Text :=
  let key := Key.ofName definition.name
  if catalog.isFree definition key then key else catalog.freeKey key definition

@[simp] theorem slot_isFree (catalog : Catalog) (definition : Definition) :
    catalog.isFree definition (catalog.slot definition) = true := by
  unfold slot
  dsimp only
  split
  next hfree => exact hfree
  next =>
    obtain ⟨n, -, hkey, hfree, -⟩ := catalog.freeKey_spec (Key.ofName definition.name) definition
    rw [hkey]
    exact hfree

theorem slot_ownSlot (catalog : Catalog) (definition : Definition) :
    catalog.OwnSlot definition (catalog.slot definition) := by
  unfold slot
  dsimp only
  split
  next => exact ⟨1, Nat.le_refl 1, rfl, fun m _ _ => by omega⟩
  next hfree =>
    obtain ⟨n, hn, hkey, -, htaken⟩ :=
      catalog.freeKey_spec (Key.ofName definition.name) definition
    refine ⟨n, by omega, by rw [hkey, Key.nth_of_two_le _ hn], ?_⟩
    intro m hm hmn
    -- the first key is the name's own one, which was tried before the numbered ones
    by_cases heq : m = 1
    · subst heq
      exact (isFree_eq_false_iff ..).mp (by simpa using hfree)
    · rw [Key.nth_of_two_le _ (by omega)]
      exact htaken m (by omega) hmn

end Catalog
end Almanac.Holiday
