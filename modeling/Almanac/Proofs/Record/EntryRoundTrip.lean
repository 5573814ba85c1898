import Almanac.Proofs.Data.JsonRoundTrip
import Almanac.Record.Entry
import Mathlib.Data.List.Nodup

/-!
# Reading entries that were written

A well-formed entry has texts and integers where they belong, and what its way of calculation
needs. Its written form is a plain value, which is read as the entry: a member that is null is
not written, and an absent member is read as null.
-/

namespace Almanac.Data.Json

/-- The value is a text without halves of surrogate pairs. -/
def IsText (value : Json) : Prop :=
  ∃ t : Text, value = .str t

/-- The value is an integer short enough to be read, or a truth value, which counts as one. -/
def IsInteger (value : Json) : Prop :=
  (∃ n : Int, value = .int n ∧ (Text.ofNat n.natAbs).length ≤ 4300) ∨ ∃ b, value = .bool b

variable {levels : Nat}

theorem IsText.plain {value : Json} (h : IsText value) : Plain levels value := by
  obtain ⟨t, rfl⟩ := h
  exact .str t

theorem IsInteger.plain {value : Json} (h : IsInteger value) : Plain levels value := by
  rcases h with ⟨n, rfl, hdigits⟩ | ⟨b, rfl⟩
  · exact .int n hdigits
  · exact .bool b

/-- The names of the members are texts, and no two of them are the same. -/
structure AreNamed {α : Type} (members : Entries WideText α) : Prop where
  names : members.keys.Nodup
  texts : ∀ member ∈ members, ∃ name : Text, member.1 = name

/-- Different names, each with a text. -/
structure AreTexts (members : List (WideText × Json)) : Prop where
  named : AreNamed members
  texts : ∀ member ∈ members, IsText member.2

theorem AreTexts.plain {members : List (WideText × Json)} (h : AreTexts members) :
    Plain (levels + 1) (.obj members) :=
  .obj members h.named.names h.named.texts fun member hmember => (h.texts member hmember).plain

/-- Members that come from entries under texts are named if no key repeats. -/
theorem areNamed_map {α β : Type} {entries : Entries Text α} (hkeys : entries.keys.Nodup)
    (f : α → β) :
    AreNamed (entries.map fun entry => (entry.1.wide, f entry.2)) where
  names := by
    have hmap : Entries.keys (entries.map fun entry => (entry.1.wide, f entry.2)) =
        entries.keys.map Text.wide := by
      simp only [Entries.keys, List.map_map]
      rfl
    rw [hmap]
    exact hkeys.map fun _ _ => Text.wide_inj.mp
  texts := List.forall_mem_map.mpr fun entry _ => ⟨entry.1, rfl⟩

theorem areTexts_map {entries : Entries Text Text} (hkeys : entries.keys.Nodup) :
    AreTexts (entries.map fun entry => (entry.1.wide, str entry.2)) where
  named := areNamed_map hkeys fun t => str t
  texts := List.forall_mem_map.mpr fun entry _ => ⟨entry.2, rfl⟩

theorem areTexts_english (name : Text) : AreTexts [("en", .str name)] := by
  have hkeys : (Entries.keys [(("en" : Text), name)]).Nodup := List.nodup_singleton _
  exact areTexts_map hkeys

theorem isText_of_mem_map {texts : List Text} :
    ∀ value ∈ texts.map fun t => str t.wide, value.IsText :=
  List.forall_mem_map.mpr fun t _ => ⟨t, rfl⟩

end Almanac.Data.Json

namespace Almanac.Record

open Almanac.Data

/-! ## Rules -/

/-- The members of the rule are integers. -/
structure RuleEntry.WellFormed (rule : RuleEntry) : Prop where
  month : rule.month.IsInteger
  weekday : rule.weekday.IsInteger
  occurrence : rule.occurrence.IsInteger

theorem RuleEntry.WellFormed.plain {rule : RuleEntry} (h : rule.WellFormed) :
    Json.Plain 1 rule.toJson := by
  refine .obj _ (by simp [Entries.keys]) (fun member hmember => ?_) fun member hmember => ?_
  all_goals
    simp only [List.mem_cons, List.not_mem_nil, or_false] at hmember
  · rcases hmember with rfl | rfl | rfl <;> exact ⟨_, rfl⟩
  rcases hmember with rfl | rfl | rfl
  · exact h.month.plain
  · exact h.weekday.plain
  · exact h.occurrence.plain

theorem RuleEntry.ofJson?_toJson (rule : RuleEntry) :
    RuleEntry.ofJson? rule.toJson = .ok (some rule) := rfl

namespace Entry

/-! ## Entries -/

/-- The entry has texts and integers where they belong, and what its way of calculation needs. -/
structure WellFormed (entry : Entry) : Prop where
  name : entry.name.IsText
  category : entry.category.IsText
  languages : Json.AreTexts entry.languages
  month : entry.month = .null ∨ entry.month.IsInteger
  day : entry.day = .null ∨ entry.day.IsInteger
  easterOffset : entry.easterOffset = .null ∨ entry.easterOffset.IsInteger
  weekdayRule : ∀ rule, entry.weekdayRule = some rule → rule.WellFormed
  expression : entry.expression = .null ∨ entry.expression.IsText
  fixed : entry.kind = .fixed → entry.day ≠ .null ∧ isMonth? entry.month = some true
  easterBased : entry.kind = .easterBased → entry.easterOffset ≠ .null

theorem isNull_eq_false {value : Json} (h : value ≠ .null) : value.isNull = false := by
  cases value <;> first | exact absurd rfl h | rfl

/-- A well-formed entry has what its way of calculation needs. -/
theorem WellFormed.checked {entry : Entry} (h : entry.WellFormed) :
    entry.checked = .ok entry := by
  unfold Entry.checked
  split
  next hkind =>
    obtain ⟨hday, hmonth⟩ := h.fixed hkind
    have hnull : entry.month ≠ .null := by
      intro heq
      rw [heq] at hmonth
      cases hmonth
    simp [isNull_eq_false hday, isNull_eq_false hnull, hmonth]
  next hkind => simp [isNull_eq_false (h.easterBased hkind)]
  next => rfl

/-- The member for the rule, if there is one. -/
def ruleMember (rule : Option RuleEntry) : List (WideText × Json) :=
  match rule with
  | none => []
  | some rule => [("weekday_rule", rule.toJson)]

/-- The members of the written form of an entry. -/
def members (entry : Entry) : List (WideText × Json) :=
  let always : List (WideText × Json) :=
    [("name", entry.name), ("category", entry.category), ("languages", .obj entry.languages),
      ("calculation", .str entry.kind.name)]
  always ++ optional "month" entry.month ++ optional "day" entry.day
    ++ optional "easter_offset" entry.easterOffset ++ ruleMember entry.weekdayRule
    ++ optional "expression" entry.expression

@[simp] theorem toJson_eq (entry : Entry) : entry.toJson = .obj entry.members := rfl

/-- The names that the members of an entry can have, in order. -/
def memberNames : List WideText :=
  ["name", "category", "languages", "calculation", "month", "day", "easter_offset",
    "weekday_rule", "expression"]

theorem keys_optional_sublist (name : WideText) (value : Json) :
    (Entries.keys (optional name value)).Sublist [name] := by
  unfold optional
  split
  next => exact List.nil_sublist _
  next => exact List.Sublist.refl _

theorem keys_ruleMember_sublist (rule : Option RuleEntry) :
    (Entries.keys (ruleMember rule)).Sublist [("weekday_rule" : WideText)] := by
  cases rule with
  | none => exact List.nil_sublist _
  | some rule => exact List.Sublist.refl _

theorem keys_members_sublist (entry : Entry) :
    (Entries.keys entry.members).Sublist memberNames := by
  simp only [members, Entries.keys, List.map_append]
  exact ((((((List.Sublist.refl _).append (keys_optional_sublist _ _)).append
    (keys_optional_sublist _ _)).append (keys_optional_sublist _ _)).append
    (keys_ruleMember_sublist _)).append (keys_optional_sublist _ _))

theorem areNamed_members (entry : Entry) : Json.AreNamed entry.members where
  names := entry.keys_members_sublist.nodup (by decide)
  texts := by
    have htexts : ∀ name ∈ memberNames, (WideText.text? name).isSome = true := by decide
    intro member hmember
    have hname := entry.keys_members_sublist.subset (List.mem_map_of_mem (f := Prod.fst) hmember)
    obtain ⟨name, hfound⟩ := Option.isSome_iff_exists.mp (htexts _ hname)
    exact ⟨name, WideText.text?_eq_some_iff.mp hfound⟩

theorem eq_of_mem_optional {name : WideText} {value : Json} {member : WideText × Json}
    (hmem : member ∈ optional name value) : member = (name, value) ∧ value ≠ .null := by
  unfold optional at hmem
  split at hmem
  next => exact absurd hmem List.not_mem_nil
  next hnull =>
    refine ⟨List.mem_singleton.mp hmem, ?_⟩
    rintro rfl
    exact hnull rfl

theorem WellFormed.plain {entry : Entry} (h : entry.WellFormed) : Json.Plain 2 entry.toJson := by
  rw [toJson_eq]
  refine .obj _ entry.areNamed_members.names entry.areNamed_members.texts fun member hmember => ?_
  have hinteger : ∀ {name : WideText} {value : Json}, (value = .null ∨ value.IsInteger) →
      member ∈ optional name value → Json.Plain 1 member.2 := by
    intro name value hvalue hmem
    obtain ⟨rfl, hnull⟩ := eq_of_mem_optional hmem
    exact (hvalue.resolve_left hnull).plain
  simp only [members, List.mem_append, List.mem_cons, List.not_mem_nil, or_false] at hmember
  rcases hmember with ((((((rfl | rfl | rfl | rfl) | hmonth) | hday) | hoffset) | hrule) | hexpr)
  · exact h.name.plain
  · exact h.category.plain
  · exact h.languages.plain
  · exact .str entry.kind.name
  · exact hinteger h.month hmonth
  · exact hinteger h.day hday
  · exact hinteger h.easterOffset hoffset
  · cases hentry : entry.weekdayRule with
    | none => simp [ruleMember, hentry] at hrule
    | some rule =>
        rw [hentry, ruleMember, List.mem_singleton] at hrule
        subst hrule
        exact (h.weekdayRule rule hentry).plain
  · obtain ⟨rfl, hnull⟩ := eq_of_mem_optional hexpr
    exact (h.expression.resolve_left hnull).plain

/-! ## Reading -/

theorem get?_optional (name key : WideText) (value : Json) :
    Entries.get? (optional name value) key =
      if name = key ∧ value.isNull = false then some value else none := by
  unfold optional
  cases hnull : value.isNull with
  | true => simp [Entries.get?]
  | false => simp [Entries.get?]

/-- An absent member counts as null, and a member that is null is absent. -/
@[simp] theorem getD_optional (value : Json) :
    (if value.isNull = false then some value else none).getD .null = value := by
  cases value <;> rfl

theorem get?_ruleMember (rule : Option RuleEntry) (key : WideText) :
    Entries.get? (ruleMember rule) key =
      if ("weekday_rule" : WideText) = key then rule.map RuleEntry.toJson else none := by
  cases rule with
  | none => rw [Option.map_none, ite_self]; rfl
  | some rule => rfl

theorem ofName?_name (kind : CalculationKind) : CalculationKind.ofName? kind.name = some kind := by
  cases kind <;> decide

theorem get?_members (entry : Entry) :
    Entries.get? entry.members ("name" : WideText) = some entry.name ∧
    Entries.get? entry.members ("category" : WideText) = some entry.category ∧
    Entries.get? entry.members ("languages" : WideText) = some (.obj entry.languages) ∧
    Entries.get? entry.members ("calculation" : WideText) = some (.str entry.kind.name) ∧
    (Entries.get? entry.members ("month" : WideText)).getD .null = entry.month ∧
    (Entries.get? entry.members ("day" : WideText)).getD .null = entry.day ∧
    (Entries.get? entry.members ("easter_offset" : WideText)).getD .null = entry.easterOffset ∧
    Entries.get? entry.members ("weekday_rule" : WideText) =
      entry.weekdayRule.map RuleEntry.toJson ∧
    (Entries.get? entry.members ("expression" : WideText)).getD .null = entry.expression := by
  simp [members, get?_optional, get?_ruleMember]

/-- An entry that has what its way of calculation needs is read from its written form. -/
theorem ofJson_toJson_of_checked {entry : Entry} (h : entry.checked = .ok entry) :
    ofJson entry.toJson = .ok entry := by
  obtain ⟨hname, hcategory, hlanguages, hkind, hmonth, hday, hoffset, hrule, hexpression⟩ :=
    get?_members entry
  have hruleRead : RuleEntry.ofJson?
      ((Entries.get? entry.members ("weekday_rule" : WideText)).getD .null) =
        .ok entry.weekdayRule := by
    rw [hrule]
    cases entry.weekdayRule with
    | none => rfl
    | some rule => exact rule.ofJson?_toJson
  have hkindRead : kindOf (.str entry.kind.name) = .ok entry.kind := by
    rw [kindOf, ofName?_name]
  rw [toJson_eq, ofJson]
  unfold ofMembers required
  dsimp only
  rw [hname, hkind, hlanguages, hcategory, hmonth, hday, hoffset, hexpression, hruleRead]
  dsimp only [bind, Except.bind]
  rw [hkindRead]
  exact h

end Entry
end Almanac.Record
