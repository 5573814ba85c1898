import Almanac.Data.Json.Shape
import Almanac.Holiday.Definition

/-!
# Entries of records

An entry is the definition of a holiday as a record keeps it. Its members are kept as they were
read, whatever their shape, so nothing is lost from a record that someone has edited. Only what
the way of calculation needs is checked: a fixed holiday has a month from one to twelve and a day,
and a holiday based on Easter has an offset. A member that is null counts as absent.
-/

namespace Almanac.Record

open Almanac.Data Almanac.Holiday

/-- The ways in which holidays are calculated. -/
inductive CalculationKind where
  | fixed
  | easterBased
  | weekdayBased
  | complex
deriving DecidableEq, Repr

namespace CalculationKind

def name : CalculationKind → Text
  | fixed => "fixed"
  | easterBased => "easter_based"
  | weekdayBased => "weekday_based"
  | complex => "complex"

def ofName? (name : WideText) : Option CalculationKind :=
  [fixed, easterBased, weekdayBased, complex].find? fun kind => kind.name.wide = name

end CalculationKind

/-- A weekday rule as a record keeps it. -/
structure RuleEntry where
  month : Json
  weekday : Json
  occurrence : Json
deriving Repr

/-- The definition of a holiday as a record keeps it. -/
structure Entry where
  name : Json
  kind : CalculationKind
  category : Json
  languages : Entries WideText Json
  month : Json
  day : Json
  easterOffset : Json
  weekdayRule : Option RuleEntry
  expression : Json
deriving Repr

/-- Why a value is no entry. -/
inductive EntryFault where
  | shape (fault : Json.ShapeFault)
  /-- A member that every entry needs is missing. -/
  | missing (member : WideText)
  | unknownKind (value : Json)
  | ruleNoObject (value : Json)
  /-- The rule has a member that no rule has. -/
  | ruleExcess (member : WideText)
  | ruleMissing (members : List WideText)
  /-- The month cannot be compared with a number. -/
  | monthNoNumber (value : Json)
  | fixedIncomplete (name : Json)
  | monthOutOfRange (name month : Json)
  | easterIncomplete (name : Json)
deriving Repr

namespace EntryFault

def kind : EntryFault → Text
  | shape fault => fault.kind
  | missing _ => "KeyError"
  | unknownKind _ | fixedIncomplete _ | monthOutOfRange _ _ | easterIncomplete _ => "ValueError"
  | ruleNoObject _ | ruleExcess _ | ruleMissing _ | monthNoNumber _ => "TypeError"

def listed : List WideText → Text
  | [] => []
  | [a] => a.quoted
  | [a, b] => a.quoted ++ " and " ++ b.quoted
  | many =>
      Text.join ", " (many.dropLast.map WideText.quoted) ++ ", and "
        ++ ((many.getLast?.map WideText.quoted).getD [])

def message : EntryFault → WideText
  | shape fault => fault.message
  | missing member => member.quoted
  | unknownKind value => value.shown ++ " is not a valid CalculationKind"
  | ruleNoObject value =>
      "core.models.WeekdayRule() argument after ** must be a mapping, not " ++ value.shapeName
  | ruleExcess member =>
      "WeekdayRule.__init__() got an unexpected keyword argument '" ++ member ++ "'"
  | ruleMissing members =>
      "WeekdayRule.__init__() missing " ++ Text.ofNat members.length
        ++ " required positional argument" ++ (if members.length = 1 then ": " else "s: ")
        ++ listed members
  | monthNoNumber value =>
      "'<=' not supported between instances of 'int' and '" ++ value.shapeName ++ "'"
  | fixedIncomplete name => "Fixed holiday '" ++ name.asText ++ "' needs month and day"
  | monthOutOfRange name month =>
      "Fixed holiday '" ++ name.asText ++ "' has invalid month " ++ month.asText
  | easterIncomplete name => "Easter-based holiday '" ++ name.asText ++ "' needs an offset"

end EntryFault

namespace RuleEntry

/-- The members of a rule in order. -/
def memberNames : List WideText :=
  ["month", "weekday", "occurrence"]

def ofMembers (members : List (WideText × Json)) : Except EntryFault RuleEntry :=
  match members.find? fun member => member.1 ∉ memberNames with
  | some (name, _) => .error (.ruleExcess name)
  | none =>
      match Entries.get? members ("month" : WideText), Entries.get? members ("weekday" : WideText),
          Entries.get? members ("occurrence" : WideText) with
      | some month, some weekday, some occurrence => .ok ⟨month, weekday, occurrence⟩
      | _, _, _ =>
          .error (.ruleMissing (memberNames.filter fun name => !Entries.has members name))

/-- The rule that a value stands for; a value that is not truthy stands for none. -/
def ofJson? (value : Json) : Except EntryFault (Option RuleEntry) :=
  if value.isTruthy then
    match value with
    | .obj members => (ofMembers members).map some
    | _ => .error (.ruleNoObject value)
  else .ok none

def toJson (rule : RuleEntry) : Json :=
  .obj [("month", rule.month), ("weekday", rule.weekday), ("occurrence", rule.occurrence)]

def alike (first second : RuleEntry) : Bool :=
  first.month.alike second.month && first.weekday.alike second.weekday
    && first.occurrence.alike second.occurrence

end RuleEntry

namespace Entry

/-- Is the value a number from one to twelve? Nothing if it is no number. -/
def isMonth? : Json → Option Bool
  | .real x =>
      some (x.compareInt? 1 ∈ [some .gt, some .eq] && x.compareInt? 12 ∈ [some .lt, some .eq])
  | value => value.count?.map fun n => 1 ≤ n && n ≤ 12

def checked (entry : Entry) : Except EntryFault Entry :=
  match entry.kind with
  | .fixed =>
      if entry.month.isNull || entry.day.isNull then .error (.fixedIncomplete entry.name)
      else match isMonth? entry.month with
        | none => .error (.monthNoNumber entry.month)
        | some true => .ok entry
        | some false => .error (.monthOutOfRange entry.name entry.month)
  | .easterBased =>
      if entry.easterOffset.isNull then .error (.easterIncomplete entry.name) else .ok entry
  | _ => .ok entry

def kindOf (value : Json) : Except EntryFault CalculationKind :=
  match value with
  | .str name =>
      match CalculationKind.ofName? name with
      | some kind => .ok kind
      | none => .error (.unknownKind value)
  | _ => .error (.unknownKind value)

/-- The member of a list of members, or a fault if it is missing. -/
def required (members : List (WideText × Json)) (name : WideText) : Except EntryFault Json :=
  match Entries.get? members name with
  | some value => .ok value
  | none => .error (.missing name)

/-- The entry with the given members; further members do not count. -/
def ofMembers (members : List (WideText × Json)) : Except EntryFault Entry := do
  let member (name : WideText) (default : Json) : Json := (Entries.get? members name).getD default
  let name ← required members "name"
  let kind ← kindOf (← required members "calculation")
  let languages ← (member "languages" (.obj [])).asMembers.mapError .shape
  let rule ← RuleEntry.ofJson? (member "weekday_rule" .null)
  checked {
    name := name
    kind := kind
    category := member "category" (.str "public")
    languages := languages
    month := member "month" .null
    day := member "day" .null
    easterOffset := member "easter_offset" .null
    weekdayRule := rule
    expression := member "expression" .null }

def ofJson (value : Json) : Except EntryFault Entry :=
  match value with
  | .obj members => ofMembers members
  | _ => .error (.shape (.lacks value "get"))

def optional (name : WideText) (value : Json) : List (WideText × Json) :=
  if value.isNull then [] else [(name, value)]

def toJson (entry : Entry) : Json :=
  let always : List (WideText × Json) :=
    [("name", entry.name), ("category", entry.category), ("languages", .obj entry.languages),
     ("calculation", .str entry.kind.name)]
  .obj (always
    ++ optional "month" entry.month ++ optional "day" entry.day
    ++ optional "easter_offset" entry.easterOffset
    ++ (match entry.weekdayRule with
      | none => []
      | some rule => [("weekday_rule", rule.toJson)])
    ++ optional "expression" entry.expression)

def alike (first second : Entry) : Bool :=
  let rules := match first.weekdayRule, second.weekdayRule with
    | none, none => true
    | some r, some s => r.alike s
    | _, _ => false
  first.name.alike second.name && first.kind = second.kind
    && first.category.alike second.category
    && (Json.obj first.languages).alike (.obj second.languages)
    && first.month.alike second.month && first.day.alike second.day
    && first.easterOffset.alike second.easterOffset && rules
    && first.expression.alike second.expression

def ofText? : Option Text → Json
  | none => .null
  | some t => .str t

def ofDefinition (d : Definition) : Entry :=
  let plain (kind : CalculationKind) : Entry :=
    { name := .str d.name, kind := kind, category := .str d.category
      languages := [("en", .str d.name)], month := .null, day := .null, easterOffset := .null
      weekdayRule := none, expression := .null }
  match d.calculation with
  | .fixed month day => { plain .fixed with month := .int month, day := .int day }
  | .easterBased offset => { plain .easterBased with easterOffset := .int offset }
  | .weekdayBased rule expression =>
      { plain .weekdayBased with
        weekdayRule := rule.map fun r => ⟨.int r.month, .int r.weekday, .int r.occurrence⟩
        expression := ofText? expression }
  | .complex expression => { plain .complex with expression := ofText? expression }

end Entry
end Almanac.Record
