import Almanac.Data.Json.Reader
import Almanac.Data.Json.Shape
import Almanac.Remote.Host
import Almanac.Country.Table
import Almanac.Storage.RecordFile

/-!
# What answers say

An answer of the remote host with a status of success has a JSON value as its body, before which
a byte order mark does not matter. What a value says depends on what was asked: the entries of a
directory, the content of a file, or the user whom a token belongs to. Values within are kept as
they are; a value of another shape than was asked for is a failure.
-/

namespace Almanac.Remote

open Almanac.Text Almanac.Data

namespace Answer

/-- The body without a byte order mark before it. -/
def withoutMark : Text → Text
  | c :: rest => if c = '\uFEFF' then rest else c :: rest
  | [] => []

/-- Why the body of an answer is no JSON value: a failure of fetching, or a mishap if the value is
nested too deep. -/
def bodyStop (target body : Text) (error : Json.ReadError) : Stop :=
  let cause := Storage.RecordFile.readingMishap body error
  match error.problem with
  | .tooDeep _ => .mishap cause
  | _ => .failure ⟨.fetch, "Malformed JSON from " ++ target, some cause⟩

/-- The JSON value of an answer to a request for the target. -/
def json (room : Nat) (target : Text) : Answer → Except Stop Json
  | cancelled => .error .cancelled
  | lost cause => .error (.failure ⟨.fetch, "Request to " ++ target ++ " failed", some cause⟩)
  | response status body =>
      if 200 ≤ status ∧ status < 300 then
        (Json.read room (withoutMark body)).mapError (bodyStop target (withoutMark body))
      else .error (.failure { kind := .refused status body })

end Answer

/-- An entry of a directory, as the host tells it. -/
structure ListedFile where
  name : Json
  kind : Json
  path : Json
deriving Repr

namespace ListedFile

/-- The entry that a value of the list stands for; only objects stand for one. -/
def ofJson? (value : Json) : Option ListedFile :=
  match value with
  | .obj members =>
      let member (name : WideText) : Json := (Entries.get? members name).getD (.str [])
      some ⟨member "name", member "type", member "path"⟩
  | _ => none

def listOfJson : Json → Except Stop (List ListedFile)
  | .arr items => .ok (items.filterMap ofJson?)
  | _ => .error (.failure {
      kind := .fetch
      wording := "Expected a directory listing from contents API" })

def sourceEnding : Text := ".py"

/-- The source files that belong to no country. -/
def ignoredNames : List WideText := ["__init__.py"]

/-- The code of the country whose source file the entry is, if it is one. -/
def code? (file : ListedFile) : Except Stop (Option Text) :=
  if !file.kind.alike (.str "file") then .ok none
  else match file.name with
    | .str name =>
        if sourceEnding.wide <:+ name ∧ name ∉ ignoredNames then
          .ok (name.text?.bind Country.codeOfSourceFile?)
        else .ok none
    | value => .error (.lacking value.shapeName "endswith")

/-- The codes of the countries that the entries of a directory have source files of, in order. -/
def codes (files : List ListedFile) : Except Stop (List Text) :=
  (files.mapM code?).map fun found => Text.sort (found.filterMap id)

end ListedFile

/-- The content of a file with the name of its encoding, as the host tells them. -/
structure FileContent where
  content : Json
  encoding : Json
deriving Repr

def FileContent.ofJson (path : Text) (value : Json) : Except Stop FileContent :=
  match value.member? "content" with
  | some content => .ok ⟨content, (value.member? "encoding").getD (.str [])⟩
  | none => .error (.failure {
      kind := .fetch
      wording := "Expected file content for '" ++ path ++ "'" })

def loginOfJson (value : Json) : Json :=
  (value.member? "login").getD (.str [])

end Almanac.Remote
