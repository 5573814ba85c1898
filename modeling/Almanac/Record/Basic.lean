import Almanac.Country.Profile
import Almanac.Record.Entry
import Almanac.Time.Timestamp

/-!
# Records of countries

A record keeps the profile of a country together with the time at which it was made. Its written
form lists the holidays by their keys in order. Like the members of an entry, those of a record
are kept as they were read; absent ones have defaults.
-/

namespace Almanac

open Almanac.Data Almanac.Time

/-- The record of a country. -/
structure Record where
  countryCode : Json
  name : Json
  subdivisions : Entries WideText Json
  categories : List Json
  languages : List Json
  holidays : Entries WideText Record.Entry
  fetchedAt : Timestamp

namespace Record

/-- Why a value is no record. -/
inductive Fault where
  | shape (fault : Json.ShapeFault)
  | entry (fault : EntryFault)
  /-- The time is no text. -/
  | timeNoText
  | time (text : WideText) (problem : Timestamp.Problem)

namespace Fault

def kind : Fault → Text
  | shape fault => fault.kind
  | entry fault => fault.kind
  | timeNoText => "TypeError"
  | time _ _ => "ValueError"

def message : Fault → WideText
  | shape fault => fault.message
  | entry fault => fault.message
  | timeNoText => "fromisoformat: argument must be str"
  | time text problem => problem.message text

end Fault

def entriesOf : List (WideText × Json) → Except Fault (Entries WideText Entry)
  | [] => .ok []
  | (key, value) :: rest =>
      match Entry.ofJson value with
      | .error e => .error (.entry e)
      | .ok entry => (entriesOf rest).map fun entries => (key, entry) :: entries

def holidaysOf (value : Json) : Except Fault (Entries WideText Entry) :=
  match value.orElse (.obj []) with
  | .obj members => entriesOf members
  | other => .error (.shape (.lacks other "items"))

/-- The time that a value stands for; a value that is not truthy stands for now. -/
def timeOf (now : Timestamp) (value : Json) : Except Fault Timestamp :=
  if value.isTruthy then
    match value with
    | .str t => (Timestamp.readWide t).mapError (.time t)
    | _ => .error .timeNoText
  else .ok now

/-- The record with the given members; further members do not count. -/
def ofMembers (now : Timestamp) (members : List (WideText × Json)) : Except Fault Record := do
  let member (name : WideText) (default : Json) : Json := (Entries.get? members name).getD default
  let subdivisions ←
    ((member "subdivisions" .null).orElse (.obj [])).asMembers.mapError .shape
  let categories ← ((member "categories" .null).orElse (.arr [])).asItems.mapError .shape
  let languages ← ((member "languages" .null).orElse (.arr [])).asItems.mapError .shape
  let holidays ← holidaysOf (member "holidays" .null)
  let fetchedAt ← timeOf now (member "fetched_at" .null)
  return {
    countryCode := member "country_code" (.str "")
    name := member "name" (.str "")
    subdivisions := subdivisions
    categories := categories
    languages := languages
    holidays := holidays
    fetchedAt := fetchedAt }

def ofJson (now : Timestamp) (value : Json) : Except Fault Record :=
  match value with
  | .obj members => ofMembers now members
  | _ => .error (.shape (.lacks value "get"))

def sortedHolidays (record : Record) : Entries WideText Entry :=
  record.holidays.mergeSort fun a b => !WideText.precedes b.1 a.1

def toJson (record : Record) : Json :=
  .obj [("country_code", record.countryCode), ("name", record.name),
    ("subdivisions", .obj record.subdivisions), ("categories", .arr record.categories),
    ("languages", .arr record.languages),
    ("holidays", .obj (record.sortedHolidays.map fun (key, entry) => (key, entry.toJson))),
    ("fetched_at", .str record.fetchedAt.toText)]

def ofProfile (now : Timestamp) (profile : Country.Profile) : Record :=
  { countryCode := .str profile.code
    name := .str profile.name
    subdivisions := profile.subdivisions.map fun (code, name) => (code.wide, .str name)
    categories := profile.categories.map fun category => .str category.wide
    languages := profile.languages.map fun language => .str language.wide
    holidays := profile.holidays.map fun (key, d) => (key.wide, Entry.ofDefinition d)
    fetchedAt := now }

/-! ## Differences -/

/-- A difference between two records of one country. -/
inductive Difference where
  | name (before after : Json)
  | removed (key : WideText)
  | added (key : WideText)
  | changed (key : WideText)
  | subdivisions

def Difference.message : Difference → WideText
  | name before after => "name: '" ++ before.asText ++ "' -> '" ++ after.asText ++ "'"
  | removed key => "removed holiday: " ++ key
  | added key => "added holiday: " ++ key
  | changed key => "changed holiday: " ++ key
  | subdivisions => "subdivisions changed"

def differsAt (before after : Record) (key : WideText) : Bool :=
  match before.holidays.get? key, after.holidays.get? key with
  | some first, some second => !first.alike second
  | _, _ => false

/-- What changed from one record to another: the name, the holidays by their keys in order, and the
subdivisions. The times of the records, their codes, categories and languages do not matter. -/
def differences (before after : Record) : List Difference :=
  let removed := before.holidays.keys.filter fun key => !after.holidays.has key
  let added := after.holidays.keys.filter fun key => !before.holidays.has key
  let changed := before.holidays.keys.filter (differsAt before after)
  (if before.name.alike after.name then [] else [.name before.name after.name])
    ++ (WideText.sort removed).map .removed ++ (WideText.sort added).map .added
    ++ (WideText.sort changed).map .changed
    ++ (if (Json.obj before.subdivisions).alike (.obj after.subdivisions) then []
      else [.subdivisions])

end Record
end Almanac
