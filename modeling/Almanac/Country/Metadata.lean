import Almanac.Data.Entries
import Almanac.Text.Case
import Almanac.Text.Numeral
import Almanac.Text.Search

/-!
# What a source file tells about its country

Besides holidays a source file names its country, by the name of a class and by the value of an
attribute, and lists the country's subdivisions, the categories of its holidays and the languages
of their names. All of it is read from the text by its form, without an outline of the file.
-/

namespace Almanac.Country

open Almanac.Text Almanac.Data

/-! ## The class of the country -/

/-- The words of a name in camel case with spaces between them. -/
def spacedName : Text → Text
  | a :: b :: rest =>
      if 'a' ≤ a ∧ a ≤ 'z' ∧ 'A' ≤ b ∧ b ≤ 'Z' then a :: ' ' :: spacedName (b :: rest)
      else a :: spacedName (b :: rest)
  | t => t

/-- A name at the start of the text that an ASCII letter or underscore opens and word characters
continue. -/
def name? : Text → Option (Text × Text)
  | [] => none
  | c :: rest =>
      if opensIdentifier c then some (c :: rest.takeWhile isWord, rest.dropWhile isWord) else none

/-- The text between a parenthesis at the start of the text and the next closing one. -/
def parenthesised? : Text → Option (Text × Text)
  | '(' :: rest =>
      match rest.dropWhile (· ≠ ')') with
      | [] => none
      | _ :: behind => some (rest.takeWhile (· ≠ ')'), behind)
  | _ => none

def afterClass? (t : Text) : Option Text := do
  let rest ← after? "class" t
  let (_, rest) ← some? isBlank rest
  return rest

/-- The header of a class at the start of the text: the name and what its parentheses hold. -/
def classHeader? (t : Text) : Option ((Text × Text) × Text) := do
  let rest ← afterClass? t
  let (name, rest) ← name? rest
  let rest := stripStart rest
  let (bases, rest) := (parenthesised? rest).getD ([], rest)
  let rest ← afterBlank? ":" rest
  return ((name, bases), rest)

/-- The name of the class that stands for the country: the first one with a holiday base among its
bases, or else the first one. -/
def className? (t : Text) : Option Text :=
  let headers := findAllLines classHeader? t
  match headers.find? fun header => contains "HolidayBase" header.2 with
  | some (name, _) => some name
  | none => headers.head?.map Prod.fst

/-! ## Attributes -/

def isQuote (c : Char) : Bool :=
  c = '"' || c = '\''

def isCapital (c : Char) : Bool :=
  'A' ≤ c && c ≤ 'Z'

/-- May the character stand in a code: a capital ASCII letter or an ASCII digit? -/
def isCodeChar (c : Char) : Bool :=
  isCapital c || isPlainDigit c

def afterQuote? : Text → Option Text
  | [] => none
  | c :: rest => if isQuote c then some rest else none

/-- A value of characters of a class between quotes at the start of the text, of a length within
the bounds. The two quotes may be of different sorts. -/
def quotedValue? (p : Char → Bool) (least most : Nat) (t : Text) : Option (Text × Text) := do
  let rest ← afterQuote? t
  let value := rest.takeWhile p
  let rest ← afterQuote? (rest.dropWhile p)
  if least ≤ value.length ∧ value.length ≤ most then some (value, rest) else none

def code? (t : Text) : Option (Text × Text) :=
  quotedValue? isCodeChar 1 3 t

def quoted? (t : Text) : Option (Text × Text) := do
  let rest ← afterQuote? t
  let value := rest.takeWhile fun c => !isQuote c
  let rest ← afterQuote? (rest.dropWhile fun c => !isQuote c)
  if value.isEmpty then none else some (value, rest)

/-- The rest of the text behind an attribute and its equals sign, if white space opens the text
before the attribute. -/
def afterAttribute? (label t : Text) : Option Text := do
  let (_, rest) ← some? isBlank t
  let rest ← after? label rest
  let rest ← afterBlank? "=" rest
  return stripStart rest

/-- The code that an attribute gives to the country: two or three capital letters. -/
def declaredCode? (t : Text) : Option Text :=
  findLine? (fun t => do
    let rest ← afterAttribute? "country" t
    let (code, _) ← quotedValue? isCapital 2 3 rest
    return code) t

def opensBracket (c : Char) : Bool :=
  c = '(' || c = '[' || c = '\x7b'

def closesBracket (c : Char) : Bool :=
  c = ')' || c = ']' || c = '\x7d'

/-- The text up to the bracket that closes the last open one of so many, or all of it. Brackets of
all sorts are counted together, in quotes or not. -/
def bracketed (depth : Nat) : Text → Text
  | [] => []
  | c :: rest =>
      if opensBracket c then c :: bracketed (depth + 1) rest
      else if closesBracket c then
        if depth ≤ 1 then [c] else c :: bracketed (depth - 1) rest
      else c :: bracketed depth rest

def openBracket? : Text → Option Text
  | [] => none
  | c :: rest => if opensBracket c then some (c :: rest) else none

/-- The bracketed value of an attribute, if the attribute is assigned one. -/
def attributeBlock? (label t : Text) : Option Text :=
  (findLine? (fun t => (afterAttribute? label t).bind openBracket?) t).map (bracketed 0)

/-! ## Subdivisions -/

/-- A code and a name, both quoted, with a colon between them. -/
def codeAndName? (t : Text) : Option ((Text × Text) × Text) := do
  let (code, rest) ← code? t
  let rest ← after? ":" rest
  let (name, rest) ← quoted? (stripStart rest)
  return ((code, name), rest)

/-- A name and a code, both quoted, with a colon between them. -/
def nameAndCode? (t : Text) : Option ((Text × Text) × Text) := do
  let (name, rest) ← quoted? t
  let rest ← after? ":" rest
  let (code, rest) ← code? (stripStart rest)
  return ((name, code), rest)

/-- The names of codes by their aliases; the first alias of a code counts. -/
def aliases (t : Text) : Entries Text Text :=
  match attributeBlock? "subdivisions_aliases" t with
  | none => []
  | some block =>
      (findAll nameAndCode? block).foldl
        (fun known (name, code) => if known.has code then known else known.put code name) []

/-- The codes of the country's subdivisions with their names. Codes that are paired with a name
anywhere come first; those of the tuple follow, named by an alias or else by themselves. -/
def subdivisions (t : Text) : Entries Text Text :=
  let paired := Entries.ofList (findAll codeAndName? t)
  let named := aliases t
  match attributeBlock? "subdivisions" t with
  | none => paired
  | some block =>
      (findAll quoted? block).foldl
        (fun known code =>
          if known.has code then known
          else known.put code ((named.get? code).getD code)) paired

/-! ## Supported values -/

def distinct (ts : List Text) : List Text :=
  ts.foldl (fun known t => if t ∈ known then known else known ++ [t]) []

/-- The text behind the first opening parenthesis, or all of it if there is none. -/
def behindParenthesis (t : Text) : Text :=
  match t.dropWhile (· ≠ '(') with
  | [] => t
  | _ :: rest => rest

/-- The values that an attribute lists, as quoted texts or else as names, which are turned into
lower case; the default alone if it lists none. -/
def supported (label defaultValue t : Text) : List Text :=
  match attributeBlock? label t with
  | none => [defaultValue]
  | some block =>
      let inner := behindParenthesis block
      let values := match findAll quoted? inner with
        | [] => (findAllWords name? inner).map lower
        | values => values
      match distinct values with
      | [] => [defaultValue]
      | values => values

end Almanac.Country
