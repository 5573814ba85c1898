import Almanac.Proofs.Record.EntryRoundTrip
import Almanac.Proofs.Text.CodePointOrder
import Almanac.Proofs.Time.TimestampRoundTrip
import Almanac.Record.Basic

/-!
# Reading records that were written

A well-formed record is read from its written form, with its holidays in the order of their keys.
An offset of less than a second in the time of the record is read as universal time.
-/

namespace Almanac.Record

open Almanac.Data Almanac.Time

/-- The record has texts where they belong, each holiday and subdivision once and under a text, and
well-formed entries. -/
structure WellFormed (record : Record) : Prop where
  countryCode : record.countryCode.IsText
  name : record.name.IsText
  subdivisions : Json.AreTexts record.subdivisions
  categories : ∀ category ∈ record.categories, category.IsText
  languages : ∀ language ∈ record.languages, language.IsText
  keys : Json.AreNamed record.holidays
  holidays : ∀ holiday ∈ record.holidays, holiday.2.WellFormed

/-- The record that is read where this one was written. -/
def afterReading (record : Record) : Record :=
  { record with
    holidays := record.sortedHolidays
    fetchedAt := record.fetchedAt.afterReading }

/-! ## Holidays in order -/

theorem sortedHolidays_perm (record : Record) : record.sortedHolidays.Perm record.holidays :=
  List.mergeSort_perm _ _

/-- The keys of the sorted holidays increase. -/
theorem sortedHolidays_pairwise {record : Record} (hkeys : (Entries.keys record.holidays).Nodup) :
    record.sortedHolidays.Pairwise fun a b => WideText.precedes a.1 b.1 = true :=
  WideText.pairwise_precedes_mergeSort hkeys

theorem areNamed_sortedHolidays {record : Record} (h : Json.AreNamed record.holidays) :
    Json.AreNamed record.sortedHolidays where
  names := ((record.sortedHolidays_perm.map Prod.fst).nodup_iff).mpr h.names
  texts := fun holiday hholiday =>
    h.texts holiday (record.sortedHolidays_perm.mem_iff.mp hholiday)

/-! ## The written form -/

/-- The written forms of the entries under their keys. -/
def writtenHolidays (holidays : Entries WideText Entry) : List (WideText × Json) :=
  holidays.map fun (key, entry) => (key, entry.toJson)

theorem keys_writtenHolidays (holidays : Entries WideText Entry) :
    Entries.keys (writtenHolidays holidays) = Entries.keys holidays := by
  simp only [writtenHolidays, Entries.keys, List.map_map]
  rfl

theorem plain_writtenHolidays {holidays : Entries WideText Entry}
    (hkeys : Json.AreNamed holidays)
    (hentries : ∀ holiday ∈ holidays, holiday.2.WellFormed) :
    Json.Plain 3 (.obj (writtenHolidays holidays)) := by
  refine .obj _ ?_ (List.forall_mem_map.mpr hkeys.texts) (List.forall_mem_map.mpr ?_)
  · rw [keys_writtenHolidays]
    exact hkeys.names
  · exact fun holiday hholiday => (hentries holiday hholiday).plain

/-- The members of the written form of a record. -/
def members (record : Record) : List (WideText × Json) :=
  [("country_code", record.countryCode), ("name", record.name),
    ("subdivisions", .obj record.subdivisions), ("categories", .arr record.categories),
    ("languages", .arr record.languages),
    ("holidays", .obj (writtenHolidays record.sortedHolidays)),
    ("fetched_at", .str record.fetchedAt.toText)]

@[simp] theorem toJson_eq (record : Record) : record.toJson = .obj record.members := rfl

/-- A record needs the levels that every text has. -/
theorem WellFormed.plain {record : Record} (h : record.WellFormed) :
    Json.Plain 4 record.toJson := by
  rw [toJson_eq]
  refine .obj _ (by simp [members, Entries.keys]) (fun member hmember => ?_)
    fun member hmember => ?_
  all_goals
    simp only [members, List.mem_cons, List.not_mem_nil, or_false] at hmember
  · rcases hmember with rfl | rfl | rfl | rfl | rfl | rfl | rfl <;> exact ⟨_, rfl⟩
  rcases hmember with rfl | rfl | rfl | rfl | rfl | rfl | rfl
  · exact h.countryCode.plain
  · exact h.name.plain
  · exact h.subdivisions.plain
  · exact .arr _ fun category hcategory => (h.categories category hcategory).plain
  · exact .arr _ fun language hlanguage => (h.languages language hlanguage).plain
  · exact plain_writtenHolidays (areNamed_sortedHolidays h.keys) fun holiday hholiday =>
      h.holidays holiday (record.sortedHolidays_perm.mem_iff.mp hholiday)
  · exact .str record.fetchedAt.toText

/-! ## Reading -/

@[simp] theorem orElse_obj (members : List (WideText × Json)) :
    (Json.obj members).orElse (.obj []) = .obj members := by
  cases members <;> rfl

theorem orElse_arr (items : List Json) : (Json.arr items).orElse (.arr []) = .arr items := by
  cases items <;> rfl

/-- Every holiday of the record has what its way of calculation needs. -/
def IsChecked (record : Record) : Prop :=
  ∀ holiday ∈ record.holidays, holiday.2.checked = .ok holiday.2

theorem WellFormed.isChecked {record : Record} (h : record.WellFormed) : record.IsChecked :=
  fun holiday hholiday => (h.holidays holiday hholiday).checked

theorem entriesOf_writtenHolidays {holidays : Entries WideText Entry}
    (hentries : ∀ holiday ∈ holidays, holiday.2.checked = .ok holiday.2) :
    entriesOf (writtenHolidays holidays) = .ok holidays := by
  induction holidays with
  | nil => rfl
  | cons holiday rest ih =>
      obtain ⟨key, entry⟩ := holiday
      have hentry := Entry.ofJson_toJson_of_checked (hentries _ List.mem_cons_self)
      have hrest := ih fun more hmore => hentries more (List.mem_cons_of_mem _ hmore)
      simp only [writtenHolidays, List.map_cons, entriesOf] at hentry hrest ⊢
      rw [hentry, hrest]
      rfl

theorem timeOf_toText (now t : Timestamp) : timeOf now (.str t.toText) = .ok t.afterReading := by
  have htruthy : (Json.str t.toText).isTruthy = true := by
    rw [Timestamp.toText_eq]
    cases hdate : Timestamp.dateText t.date <;> rfl
  unfold timeOf
  rw [if_pos htruthy]
  dsimp only
  rw [Timestamp.readWide_wide, Timestamp.read_toText]
  rfl

theorem holidaysOf_writtenHolidays {holidays : Entries WideText Entry}
    (hentries : ∀ holiday ∈ holidays, holiday.2.checked = .ok holiday.2) :
    holidaysOf (.obj (writtenHolidays holidays)) = .ok holidays := by
  unfold holidaysOf
  rw [orElse_obj]
  exact entriesOf_writtenHolidays hentries

theorem get?_members (record : Record) :
    Entries.get? record.members ("country_code" : WideText) = some record.countryCode ∧
    Entries.get? record.members ("name" : WideText) = some record.name ∧
    Entries.get? record.members ("subdivisions" : WideText) = some (.obj record.subdivisions) ∧
    Entries.get? record.members ("categories" : WideText) = some (.arr record.categories) ∧
    Entries.get? record.members ("languages" : WideText) = some (.arr record.languages) ∧
    Entries.get? record.members ("holidays" : WideText) =
      some (.obj (writtenHolidays record.sortedHolidays)) ∧
    Entries.get? record.members ("fetched_at" : WideText) =
      some (.str record.fetchedAt.toText) := by
  simp [members]

/-- A record of checked holidays is read from its written form, its holidays being sorted. -/
theorem ofJson_toJson_of_checked (now : Timestamp) {record : Record} (h : record.IsChecked) :
    ofJson now record.toJson = .ok record.afterReading := by
  obtain ⟨hcode, hname, hsubdivisions, hcategories, hlanguages, hholidays, htime⟩ :=
    record.get?_members
  have hentries := holidaysOf_writtenHolidays fun holiday hholiday =>
    h holiday (record.sortedHolidays_perm.mem_iff.mp hholiday)
  rw [toJson_eq, ofJson]
  unfold ofMembers
  dsimp only
  rw [hcode, hname, hsubdivisions, hcategories, hlanguages, hholidays, htime]
  simp only [Option.getD_some, orElse_obj, orElse_arr]
  dsimp only [bind, Except.bind, Json.asMembers, Json.asItems, Json.sequence?, Except.mapError]
  rw [hentries]
  dsimp only
  rw [timeOf_toText]
  rfl

end Almanac.Record
