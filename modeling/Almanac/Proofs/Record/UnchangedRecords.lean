import Almanac.Proofs.Record.RecordRoundTrip

/-!
# Records without differences

Values without floating-point numbers and repeated names are alike to themselves. So a record does
not differ from a well-formed one with the same name and subdivisions that has the same holidays,
in whatever order.
-/

namespace Almanac.Data

/-! ## Values alike to themselves -/

namespace Json

theorem alikeItems_self {items : List Json} (h : ∀ item ∈ items, item.alike item = true) :
    alikeItems items items = true := by
  induction items with
  | nil => simp [alikeItems]
  | cons item items ih =>
      obtain ⟨hitem, hitems⟩ := List.forall_mem_cons.mp h
      simp [alikeItems, hitem, ih hitems]

/-- Members are found in every object with them among its own. -/
theorem alikeMembers_of_subset {members all : List (WideText × Json)}
    (hnames : (Entries.keys all).Nodup) (hsubset : members ⊆ all)
    (h : ∀ member ∈ members, member.2.alike member.2 = true) :
    alikeMembers members all = true := by
  induction members with
  | nil => simp [alikeMembers]
  | cons member members ih =>
      obtain ⟨name, value⟩ := member
      obtain ⟨hmember, hmembers⟩ := List.forall_mem_cons.mp h
      obtain ⟨hmem, hrest⟩ := List.cons_subset.mp hsubset
      have hget := Entries.get?_eq_some_of_mem hnames hmem
      simp [alikeMembers, hget, hmember, ih hrest hmembers]

theorem Plain.alike_self {levels : Nat} {value : Json} (h : Plain levels value) :
    value.alike value = true := by
  induction h with
  | null => simp [alike]
  | bool b => simp [alike]
  | int n hdigits => simp [alike]
  | str t => simp [alike]
  | arr items hitems ih =>
      rw [alike]
      exact alikeItems_self ih
  | obj members hnames htexts hmembers ih =>
      rw [alike, alikeMembers_of_subset hnames (List.Subset.refl members) ih]
      simp

theorem IsText.alike_self {value : Json} (h : IsText value) : value.alike value = true := by
  have hplain : Plain 0 value := h.plain
  exact hplain.alike_self

theorem IsInteger.alike_self {value : Json} (h : IsInteger value) : value.alike value = true := by
  have hplain : Plain 0 value := h.plain
  exact hplain.alike_self

theorem AreTexts.alike_self {members : List (WideText × Json)} (h : AreTexts members) :
    (obj members).alike (obj members) = true := by
  have hplain : Plain 1 (obj members) := h.plain
  exact hplain.alike_self

theorem alike_self_of_null_or {value : Json} {p : Json → Prop}
    (hself : ∀ {v : Json}, p v → v.alike v = true) (h : value = .null ∨ p value) :
    value.alike value = true := by
  rcases h with rfl | h
  · simp [alike]
  · exact hself h

end Json

/-! ## Entries in another order -/

/-- No key is new to entries that have all of the keys. -/
theorem Entries.filter_not_has_eq_nil {α β γ : Type} [DecidableEq α] {first : Entries α β}
    {second : Entries α γ} (hkeys : first.keys ⊆ second.keys) :
    first.keys.filter (fun key => !second.has key) = [] := by
  apply List.filter_eq_nil_iff.mpr
  intro key hkey
  simpa using hkeys hkey

end Almanac.Data

namespace Almanac.Record

open Almanac.Data Almanac.Time

theorem RuleEntry.WellFormed.alike_self {rule : RuleEntry} (h : rule.WellFormed) :
    rule.alike rule = true := by
  rw [RuleEntry.alike, h.month.alike_self, h.weekday.alike_self,
    h.occurrence.alike_self]
  rfl

theorem Entry.WellFormed.alike_self {entry : Entry} (h : entry.WellFormed) :
    entry.alike entry = true := by
  have hmonth := Json.alike_self_of_null_or Json.IsInteger.alike_self h.month
  have hday := Json.alike_self_of_null_or Json.IsInteger.alike_self h.day
  have hoffset := Json.alike_self_of_null_or Json.IsInteger.alike_self h.easterOffset
  have hexpression := Json.alike_self_of_null_or Json.IsText.alike_self h.expression
  unfold Entry.alike
  simp only [h.name.alike_self, h.category.alike_self, h.languages.alike_self,
    hmonth, hday, hoffset, hexpression, decide_true, Bool.and_true, Bool.true_and]
  cases hrule : entry.weekdayRule with
  | none => rfl
  | some rule => exact (h.weekdayRule rule hrule).alike_self

/-- A record with the name, the subdivisions and the holidays of a well-formed one does not differ
from it. -/
theorem differences_eq_nil {before after : Record} (h : after.WellFormed)
    (hname : before.name = after.name) (hsubdivisions : before.subdivisions = after.subdivisions)
    (hholidays : before.holidays.Perm after.holidays) : before.differences after = [] := by
  have hkeys : ∀ key, key ∈ Entries.keys before.holidays ↔ key ∈ Entries.keys after.holidays :=
    fun key => (hholidays.map Prod.fst).mem_iff
  have hget : ∀ key, Entries.get? before.holidays key = Entries.get? after.holidays key :=
    Entries.get?_eq_of_perm ((hholidays.map Prod.fst).nodup_iff.mpr h.keys.names) hholidays
  have hremoved := Entries.filter_not_has_eq_nil fun key => (hkeys key).mp
  have hadded := Entries.filter_not_has_eq_nil fun key => (hkeys key).mpr
  have hchanged : (Entries.keys before.holidays).filter (differsAt before after) = [] := by
    apply List.filter_eq_nil_iff.mpr
    intro key _
    unfold differsAt
    rw [hget]
    cases hfound : Entries.get? after.holidays key with
    | none => exact Bool.noConfusion
    | some entry =>
        have hentry := h.holidays _ (Entries.mem_of_get?_eq_some hfound)
        simp [hentry.alike_self]
  have hsorted : WideText.sort [] = [] := List.mergeSort_nil
  unfold differences
  dsimp only
  rw [hremoved, hadded, hchanged, hname, hsubdivisions, if_pos h.name.alike_self,
    if_pos h.subdivisions.alike_self, hsorted]
  rfl

end Almanac.Record
