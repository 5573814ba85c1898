import Almanac.Data.Json.Reader
import Almanac.Record.Basic
import Almanac.Storage.TextFile
import Almanac.Text.Case

/-!
# Files of records

The record of a country is kept in a file of a directory, named for the code of the country in
capitals. The directory is made if it is missing. A file that cannot be read as a record is a
failure with that file, unless it holds a value of a shape that no record has, or one that is
nested deeper than there is room for.
-/

namespace Almanac.Storage.RecordFile

open Almanac.Text Almanac.Data Almanac.Time

def path (directory : Path) (code : Text) : Path :=
  directory.append (Path.ofText (upper code ++ ".json"))

/-- The mishap of a text that is no JSON, that holds a number with too many digits, or that is
nested too deep. -/
def readingMishap (t : Text) (error : Json.ReadError) : Mishap :=
  match error.problem with
  | .oversizedInteger _ => .badValue (error.message t)
  | .tooDeep _ => ⟨"RecursionError", error.message t⟩
  | _ => ⟨"JSONDecodeError", error.message t⟩

def codeOf (record : Record) : Except Stop WideText :=
  if record.countryCode.isTruthy then
    match record.countryCode with
    | .str code => .ok code
    | value => .error (.lacking value.shapeName "upper")
  else .error (.failure {
    kind := .filePath none
    wording := "Cannot name a record without a country code (" ++ record.name.asText ++ ")" })

/-- The path of the record for a code; the name of a file is a text. -/
def pathOf (directory : Path) (code : WideText) : Except Stop Path :=
  match code.text? with
  | some t => .ok (path directory t)
  | none =>
      let opening := (directory.append ⟨[], [[]]⟩).toText
      .error (.mishap (.unencodable (opening ++ code.upper ++ ".json")))

/-- The tree with a directory for records, or the failure to make it. -/
def withDirectory (tree : FileTree) (directory : Path) : FileTree × Except Stop Unit :=
  match tree.ensureDirectory directory with
  | (tree, none) => (tree, .ok ())
  | (tree, some (path, problem)) => (tree, .error (.failure ⟨.filePath (some directory.toText),
      "Cannot create output directory: " ++ directory.toText, some (problem.mishap path)⟩))

/-- The tree after the written form of a record has replaced what was at the path, or why it has
not. -/
def write (tree : FileTree) (path : Path) (record : Record) : Except Stop Unit × FileTree :=
  match TextFile.Writer.ofPath tree path with
  | .error stop => (.error stop, tree)
  | .ok writer => writer.replace tree record.toJson.document

/-- The path to which a record was saved, or why it was not, and the tree after that. -/
def save (tree : FileTree) (directory : Path) (record : Record) : Except Stop Path × FileTree :=
  match codeOf record with
  | .error stop => (.error stop, tree)
  | .ok code =>
      match withDirectory tree directory with
      | (tree, .error stop) => (.error stop, tree)
      | (tree, .ok ()) =>
          match pathOf directory code with
          | .error stop => (.error stop, tree)
          | .ok path =>
              let (outcome, tree) := write tree path record
              (outcome.map fun () => path, tree)

/-- The kinds of mishaps that tell that the text of a file is no record. -/
def recordKinds : List Text :=
  ["ValueError", "JSONDecodeError", "KeyError", "TypeError"]

/-- Why there is no record in the file at a path: a failure with the file, or a mishap that reading
a record is not prepared for. -/
def recordStop (path : Path) (cause : Mishap) : Stop :=
  if cause.kind ∈ recordKinds then
    .failure
      ⟨.fileReading (some path.toText), "Invalid country record: " ++ path.toText, some cause⟩
  else .mishap cause

def ofText (room : Nat) (now : Timestamp) (t : Text) : Except Mishap Record :=
  match Json.read room t with
  | .error error => .error (readingMishap t error)
  | .ok value => (Record.ofJson now value).mapError fun fault => ⟨fault.kind, fault.message⟩

def load (room : Nat) (now : Timestamp) (tree : FileTree) (path : Path) : Except Stop Record := do
  let t ← TextFile.read tree path
  (ofText room now t).mapError (recordStop path)

end Almanac.Storage.RecordFile
