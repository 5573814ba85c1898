import Almanac.Proofs.Outcome
import Almanac.Proofs.Splits
import Almanac.Record.Basic
import Mathlib.Data.List.Basic

/-!
# Values that miss an object

A value that is read as a record may be of any shape, and so may everything in it. Faults tell what
is wrong with it, and one kind of them stands apart, since reading a file is not prepared for it:
that a value lacks what is asked of it. Members are asked of three values, the one that is to be a
record, its holidays, and each of these. So the fault is of that kind exactly if an object is
missing at one of these places and everything before it can be read.
-/

namespace Almanac

open Almanac.Data Almanac.Time

/-! ## What lacks what is asked of it -/

section Lacks

variable {ε ε' α β : Type} {isLack : ε → Prop}

/-- The outcome is a fault, and it tells that a value lacks what is asked of it. -/
def Lacks (isLack : ε → Prop) (found : Except ε α) : Prop :=
  ∃ fault, found = .error fault ∧ isLack fault

@[simp]
theorem not_lacks_ok (value : α) : ¬ Lacks isLack (.ok value : Except ε α) := by
  rintro ⟨fault, h, -⟩
  cases h

@[simp]
theorem not_lacks_pure (value : α) : ¬ Lacks isLack (pure value : Except ε α) :=
  not_lacks_ok value

@[simp]
theorem lacks_error (fault : ε) :
    Lacks isLack (.error fault : Except ε α) ↔ isLack fault := by
  simp [Lacks]

/-- Either the first part lacks something, or it comes to a value with which the second one
does. -/
theorem lacks_bind {found : Except ε α} {next : α → Except ε β} :
    Lacks isLack (found >>= next) ↔
      Lacks isLack found ∨ ∃ value, found = .ok value ∧ Lacks isLack (next value) := by
  cases found with
  | error fault => simp [bind, Except.bind]
  | ok value => simp [bind, Except.bind]

@[simp]
theorem lacks_map {found : Except ε α} (f : α → β) :
    Lacks isLack (found.map f) ↔ Lacks isLack found := by
  cases found with
  | error fault => simp [Except.map]
  | ok value => simp [Except.map]

@[simp]
theorem lacks_mapError {isLack : ε' → Prop} {found : Except ε α} (f : ε → ε') :
    Lacks isLack (found.mapError f) ↔ Lacks (fun fault => isLack (f fault)) found := by
  cases found with
  | error fault => simp [Except.mapError]
  | ok value => simp [Except.mapError]

end Lacks

/-! ## Kinds of faults -/

theorem keyError_ne : ("KeyError" : Text) ≠ "AttributeError" := by decide

theorem typeError_ne : ("TypeError" : Text) ≠ "AttributeError" := by decide

theorem valueError_ne : ("ValueError" : Text) ≠ "AttributeError" := by decide

/-! ## Shapes -/

namespace Data.Json

/-- The fault is that a value cannot do what is asked of it. -/
def ShapeFault.IsLack : ShapeFault → Prop
  | lacks _ _ => True
  | _ => False

theorem ShapeFault.kind_eq_iff (fault : ShapeFault) :
    fault.kind = "AttributeError" ↔ fault.IsLack := by
  cases fault with
  | lacks value ability => exact iff_of_true rfl trivial
  | pairLength index length => exact iff_of_false valueError_ne id
  | notIterable | notPair | noKey => exact iff_of_false typeError_ne id

theorem not_lacks_memberName (value : Json) : ¬ Lacks ShapeFault.IsLack value.memberName := by
  cases value <;> simp [memberName, ShapeFault.IsLack]

theorem not_lacks_pair (index : Nat) (item : Json) :
    ¬ Lacks ShapeFault.IsLack (pair index item) := by
  unfold pair
  split
  · simp [ShapeFault.IsLack]
  · rw [lacks_map]
    exact not_lacks_memberName _
  · simp [ShapeFault.IsLack]

theorem not_lacks_pairs (index : Nat) (known : List (WideText × Json)) (items : List Json) :
    ¬ Lacks ShapeFault.IsLack (pairs index known items) := by
  induction items generalizing index known with
  | nil => exact not_lacks_ok known
  | cons item rest ih =>
      have hitem := not_lacks_pair index item
      rw [pairs]
      cases hpair : pair index item with
      | error fault =>
          rw [hpair, lacks_error] at hitem
          rwa [lacks_error]
      | ok member => exact ih _ _

/-- Whatever stands where members are due is taken for members or is no sequence of pairs. -/
@[simp] theorem not_lacks_asMembers (value : Json) : ¬ Lacks ShapeFault.IsLack value.asMembers := by
  unfold asMembers
  split
  · exact not_lacks_ok _
  · split
    · exact not_lacks_pairs 0 [] _
    · simp [ShapeFault.IsLack]

theorem not_lacks_asItems (value : Json) : ¬ Lacks ShapeFault.IsLack value.asItems := by
  unfold asItems
  split
  · exact not_lacks_ok _
  · simp [ShapeFault.IsLack]

/-- The value has members that can be asked for. -/
def IsObject (value : Json) : Prop :=
  ∃ members, value = .obj members

end Data.Json

namespace Record

/-! ## Entries -/

def EntryFault.IsLack : EntryFault → Prop
  | shape fault => fault.IsLack
  | _ => False

theorem EntryFault.kind_eq_iff (fault : EntryFault) :
    fault.kind = "AttributeError" ↔ fault.IsLack := by
  cases fault with
  | shape fault => exact fault.kind_eq_iff
  | missing member => exact iff_of_false keyError_ne id
  | unknownKind | fixedIncomplete | monthOutOfRange | easterIncomplete =>
      exact iff_of_false valueError_ne id
  | ruleNoObject | ruleExcess | ruleMissing | monthNoNumber =>
      exact iff_of_false typeError_ne id

theorem not_lacks_ofMembers_rule (members : List (WideText × Json)) :
    ¬ Lacks EntryFault.IsLack (RuleEntry.ofMembers members) := by
  unfold RuleEntry.ofMembers
  split
  · simp [EntryFault.IsLack]
  · split
    · exact not_lacks_ok _
    · simp [EntryFault.IsLack]

@[simp]
theorem not_lacks_rule (value : Json) : ¬ Lacks EntryFault.IsLack (RuleEntry.ofJson? value) := by
  unfold RuleEntry.ofJson?
  split
  · split
    · rw [lacks_map]
      exact not_lacks_ofMembers_rule _
    · simp [EntryFault.IsLack]
  · exact not_lacks_ok _

namespace Entry

@[simp] theorem not_lacks_required (members : List (WideText × Json)) (name : WideText) :
    ¬ Lacks EntryFault.IsLack (required members name) := by
  unfold required
  split
  · exact not_lacks_ok _
  · simp [EntryFault.IsLack]

@[simp] theorem not_lacks_kindOf (value : Json) : ¬ Lacks EntryFault.IsLack (kindOf value) := by
  unfold kindOf
  split
  · split
    · exact not_lacks_ok _
    · simp [EntryFault.IsLack]
  · simp [EntryFault.IsLack]

@[simp] theorem not_lacks_checked (entry : Entry) : ¬ Lacks EntryFault.IsLack entry.checked := by
  unfold checked
  split
  · split
    · simp [EntryFault.IsLack]
    · split <;> simp [EntryFault.IsLack]
  · split <;> simp [EntryFault.IsLack]
  · exact not_lacks_ok _

theorem not_lacks_ofMembers (members : List (WideText × Json)) :
    ¬ Lacks EntryFault.IsLack (ofMembers members) := by
  have hlanguages : ∀ value : Json,
      ¬ Lacks EntryFault.IsLack (value.asMembers.mapError EntryFault.shape) := by
    intro value
    rw [lacks_mapError]
    exact value.not_lacks_asMembers
  simp [ofMembers, lacks_bind, hlanguages]

/-- A value is asked for members that are due of every entry just if it is to be one. -/
theorem lacks_ofJson_iff (value : Json) :
    Lacks EntryFault.IsLack (ofJson value) ↔ ¬ value.IsObject := by
  unfold ofJson
  split
  next members => exact iff_of_false (not_lacks_ofMembers members) fun h => h ⟨members, rfl⟩
  next hnone => exact iff_of_true ((lacks_error _).mpr trivial) (not_exists.mpr hnone)

end Entry

def Fault.IsLack : Fault → Prop
  | shape fault => fault.IsLack
  | entry fault => fault.IsLack
  | _ => False

theorem Fault.kind_eq_iff (fault : Fault) : fault.kind = "AttributeError" ↔ fault.IsLack := by
  cases fault with
  | shape fault => exact fault.kind_eq_iff
  | entry fault => exact fault.kind_eq_iff
  | timeNoText => exact iff_of_false typeError_ne id
  | time t problem => exact iff_of_false valueError_ne id

/-! ## Holidays -/

/-- Can the value be read as an entry? -/
def IsEntry (value : Json) : Prop :=
  ∃ entry, Entry.ofJson value = .ok entry

/-- One of the holidays is no object, and all before it are entries. -/
def BreaksOff (holidays : List (WideText × Json)) : Prop :=
  ∃ before key value behind, holidays = before ++ (key, value) :: behind ∧
    (∀ holiday ∈ before, IsEntry holiday.2) ∧ ¬ value.IsObject

theorem breaksOff_cons {key : WideText} {value : Json} {rest : List (WideText × Json)} :
    BreaksOff ((key, value) :: rest) ↔
      ¬ value.IsObject ∨ (IsEntry value ∧ BreaksOff rest) := by
  have hcut := exists_split_cons_iff (key, value) rest fun before item _ =>
    (∀ holiday ∈ before, IsEntry holiday.2) ∧ ¬ item.2.IsObject
  simp only [Prod.exists, List.forall_mem_cons] at hcut
  refine hcut.trans (or_congr ?_ ?_)
  · exact and_iff_right (List.forall_mem_nil _)
  · constructor
    · rintro ⟨before, key', value', behind, hsplit, ⟨hfirst, hbefore⟩, hvalue⟩
      exact ⟨hfirst, before, key', value', behind, hsplit, hbefore, hvalue⟩
    · rintro ⟨hfirst, before, key', value', behind, hsplit, hbefore, hvalue⟩
      exact ⟨before, key', value', behind, hsplit, ⟨hfirst, hbefore⟩, hvalue⟩

theorem lacks_entriesOf_iff (holidays : List (WideText × Json)) :
    Lacks Fault.IsLack (entriesOf holidays) ↔ BreaksOff holidays := by
  induction holidays with
  | nil =>
      refine iff_of_false (not_lacks_ok _) ?_
      rintro ⟨before, key, value, behind, hsplit, -⟩
      simp at hsplit
  | cons holiday rest ih =>
      obtain ⟨key, value⟩ := holiday
      have hvalue := Entry.lacks_ofJson_iff value
      rw [breaksOff_cons, ← hvalue, IsEntry, entriesOf]
      cases hentry : Entry.ofJson value with
      | error fault => simp [Fault.IsLack]
      | ok entry => simp [ih]

/-- The holidays are something else than an object, or they break off. What is not truthy stands
for none. -/
def HolidaysMissObject (value : Json) : Prop :=
  value.isTruthy = true ∧ ∀ holidays, value = .obj holidays → BreaksOff holidays

theorem lacks_holidaysOf_iff (value : Json) :
    Lacks Fault.IsLack (holidaysOf value) ↔ HolidaysMissObject value := by
  unfold holidaysOf HolidaysMissObject Json.orElse
  cases htruthy : value.isTruthy with
  | false => simp [entriesOf]
  | true =>
      cases value <;> simp [lacks_entriesOf_iff, Fault.IsLack, Json.ShapeFault.IsLack]

/-! ## Records -/

theorem not_lacks_timeOf (now : Timestamp) (value : Json) :
    ¬ Lacks Fault.IsLack (timeOf now value) := by
  unfold timeOf
  split
  · split
    · rw [lacks_mapError]
      rintro ⟨problem, -, hkind⟩
      simp [Fault.IsLack] at hkind
    · simp [Fault.IsLack]
  · exact not_lacks_ok _

/-- The member with the name, or null if there is none. -/
def memberOf (members : List (WideText × Json)) (name : WideText) : Json :=
  (Entries.get? members name).getD .null

/-- The subdivisions, categories and languages can be read. -/
structure HasLists (members : List (WideText × Json)) : Prop where
  subdivisions : ∃ found, ((memberOf members "subdivisions").orElse (.obj [])).asMembers = .ok found
  categories : ∃ found, ((memberOf members "categories").orElse (.arr [])).asItems = .ok found
  languages : ∃ found, ((memberOf members "languages").orElse (.arr [])).asItems = .ok found

/-- There is no object where a record has one: the value is none, or its holidays are none, or one
of these is, and everything before it can be read. -/
inductive MissesObject : Json → Prop where
  | whole {value : Json} (h : ¬ value.IsObject) : MissesObject value
  | holidays {members : List (WideText × Json)} (hlists : HasLists members)
      (h : HolidaysMissObject (memberOf members "holidays")) : MissesObject (.obj members)

theorem lacks_ofMembers_iff (now : Timestamp) (members : List (WideText × Json)) :
    Lacks Fault.IsLack (ofMembers now members) ↔
      HasLists members ∧ HolidaysMissObject (memberOf members "holidays") := by
  have hmembers : ∀ value : Json,
      ¬ Lacks Fault.IsLack (value.asMembers.mapError Fault.shape) := by
    intro value
    rw [lacks_mapError]
    exact value.not_lacks_asMembers
  have hitems : ∀ value : Json, ¬ Lacks Fault.IsLack (value.asItems.mapError Fault.shape) := by
    intro value
    rw [lacks_mapError]
    exact value.not_lacks_asItems
  unfold ofMembers
  simp only [lacks_bind, hmembers, hitems, not_lacks_timeOf, not_lacks_pure, lacks_holidaysOf_iff,
    mapError_eq_ok, false_or, or_false, and_false, exists_false]
  constructor
  · rintro ⟨subdivisions, hsubdivisions, categories, hcategories, languages, hlanguages, h⟩
    exact ⟨⟨⟨_, hsubdivisions⟩, ⟨_, hcategories⟩, ⟨_, hlanguages⟩⟩, h⟩
  · rintro ⟨⟨⟨_, hsubdivisions⟩, ⟨_, hcategories⟩, ⟨_, hlanguages⟩⟩, h⟩
    exact ⟨_, hsubdivisions, _, hcategories, _, hlanguages, h⟩

/-- A value lacks what is asked of a record just if an object is missing in it. -/
theorem lacks_ofJson_iff (now : Timestamp) (value : Json) :
    Lacks Fault.IsLack (ofJson now value) ↔ MissesObject value := by
  unfold ofJson
  split
  next members =>
    rw [lacks_ofMembers_iff]
    constructor
    · rintro ⟨hlists, hholidays⟩
      exact .holidays hlists hholidays
    · intro h
      cases h with
      | whole hnone => exact absurd ⟨members, rfl⟩ hnone
      | holidays hlists hholidays => exact ⟨hlists, hholidays⟩
  next hnone => exact iff_of_true ((lacks_error _).mpr trivial) (.whole (not_exists.mpr hnone))

end Record
end Almanac
