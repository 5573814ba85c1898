import Almanac.Data.Json.Basic
import Almanac.Text.Quoted

/-!
# Written forms of JSON values

A value has two written forms. Files hold the indented form, two spaces for each level, with empty
lists and objects on one line; only quotes, backslashes and the controls below the space are
escaped in it, so halves of surrogate pairs stay what they are. Messages show a value in the other
form, with its own words for null and the truth values and with quoted texts.
-/

namespace Almanac.Data.Json

def escapeChar (c : Char) : Text :=
  if c = '"' then "\\\""
  else if c = '\\' then "\\\\"
  else if c = '\n' then "\\n"
  else if c = '\r' then "\\r"
  else if c = '\t' then "\\t"
  else if c = '\x08' then "\\b"
  else if c = '\x0c' then "\\f"
  else if c.toNat < 32 then "\\u" ++ Text.hexDigits 4 c.toNat
  else [c]

def escapePoint : CodePoint → WideText
  | .char c => escapeChar c
  | .half n => [.half n]

/-- The written form of a text: its characters, escaped where needed, between double quotes. -/
def writtenText (t : WideText) : WideText :=
  ['"'] ++ t.flatMap escapePoint ++ ['"']

/-- The written form of a floating-point number, which has words where there are no digits. -/
def writtenReal : Binary64 → Text
  | .undefined => "NaN"
  | .infinite negative => if negative then "-Infinity" else "Infinity"
  | x => x.toText

def newLine (level : Nat) : Text :=
  '\n' :: List.replicate (2 * level) ' '

mutual

def indented (level : Nat) : Json → WideText
  | arr (item :: rest) =>
      ['['] ++ newLine (level + 1) ++ indented (level + 1) item
        ++ indentedItems (level + 1) rest ++ newLine level ++ [']']
  | obj ((name, value) :: rest) =>
      ['\x7b'] ++ newLine (level + 1) ++ writtenText name ++ ": " ++ indented (level + 1) value
        ++ indentedMembers (level + 1) rest ++ newLine level ++ ['\x7d']
  | null => "null"
  | bool b => if b then "true" else "false"
  | int n => Text.ofInt n
  | real x => writtenReal x
  | str t => writtenText t
  | arr [] => "[]"
  | obj [] => "\x7b\x7d"

/-- The indented forms of further items of a list, a comma before each. -/
def indentedItems (level : Nat) : List Json → WideText
  | [] => []
  | item :: rest => [','] ++ newLine level ++ indented level item ++ indentedItems level rest

/-- The indented forms of further members of an object, a comma before each. -/
def indentedMembers (level : Nat) : List (WideText × Json) → WideText
  | [] => []
  | (name, value) :: rest =>
      [','] ++ newLine level ++ writtenText name ++ ": " ++ indented level value
        ++ indentedMembers level rest

end

/-- The form in which files hold a value: indented, with a line break at the end. -/
def document (value : Json) : WideText :=
  indented 0 value ++ ['\n']

mutual

def shown : Json → Text
  | null => "None"
  | bool b => if b then "True" else "False"
  | int n => Text.ofInt n
  | real x => x.toText
  | str t => t.quoted
  | arr items => ['['] ++ shownItems items ++ [']']
  | obj members => ['\x7b'] ++ shownMembers members ++ ['\x7d']

def shownItems : List Json → Text
  | [] => []
  | [item] => shown item
  | item :: rest => shown item ++ ", " ++ shownItems rest

def shownMembers : List (WideText × Json) → Text
  | [] => []
  | [(name, value)] => name.quoted ++ ": " ++ shown value
  | (name, value) :: rest =>
      name.quoted ++ ": " ++ shown value ++ ", " ++ shownMembers rest

end

/-- The form in which messages hold a value: a text stands for itself. -/
def asText : Json → WideText
  | str t => t
  | value => shown value

end Almanac.Data.Json
