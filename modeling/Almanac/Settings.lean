import Almanac.Storage.RecordFile

/-!
# Settings

The settings of a user are one JSON object in a file of the home directory. The only setting that
this library knows is the token for the remote host; all others are kept. The token may also come
from the environment or from a file, in that order before the settings.
-/

namespace Almanac

open Almanac.Text Almanac.Data Almanac.Storage

/-- What is looked up outside of the command line: the home directory, the token in the environment,
and the room that there is for reading and for writing. -/
structure Surroundings where
  home : Path
  token : WideText := []
  /-- How deep the settings may be nested where they are read. -/
  room : Nat := Json.usualRoom
  /-- How deep they may be nested where they are written. -/
  writingRoom : Nat := Json.usualRoom

namespace Settings

def directory (around : Surroundings) : Path :=
  around.home.append (Path.ofText ".holidaysync")

def file (around : Surroundings) : Path :=
  (directory around).append (Path.ofText "settings.json")

/-- The file in which a token is looked for unless another one is named. -/
def tokenFile : Path :=
  Path.ofText "config/github_token.txt"

def tokenName : Text := "github_token"

def read (around : Surroundings) (tree : FileTree) : Except Stop Json :=
  if tree.contains (file around) then
    match TextFile.read tree (file around) with
    | .error stop => .error stop
    | .ok t => (Json.read around.room t).mapError fun error =>
        .mishap (RecordFile.readingMishap t error)
  else .ok (.obj [])

/-- The token in the settings without the white space around it; empty if there is none. -/
def savedToken (around : Surroundings) (tree : FileTree) : Except Stop WideText := do
  match ← read around tree with
  | .obj members =>
      match (((Json.obj members).member? tokenName).getD .null).orElse (.str []) with
      | .str t => .ok t.strip
      | value => .error (.lacking value.shapeName "strip")
  | value => .error (.lacking value.shapeName "get")

/-- The token in a file without the white space around it; empty if there is no such file. -/
def tokenIn (tree : FileTree) (path : Path) : Except Stop Text :=
  if tree.isFile path then (TextFile.read tree path).map strip else .ok []

/-- The token for the remote host: that of the environment, that in the file, or that of the
settings; the first one that is not blank counts. -/
def token? (around : Surroundings) (tree : FileTree) (path : Path) :
    Except Stop (Option WideText) := do
  let first := around.token.strip
  if !first.isEmpty then return some first
  let second ← tokenIn tree path
  if !second.isEmpty then return some second.wide
  let third ← savedToken around tree
  return if third.isEmpty then none else some third

/-- The settings with the token set. A value of another shape than an object takes no setting. -/
def withToken (token : WideText) : Json → Except Stop Json
  | .obj members => .ok (.obj (Entries.put members tokenName (.str token)))
  | .arr _ => .error (.mishap ⟨"TypeError", "list indices must be integers or slices, not str"⟩)
  | value => .error (.mishap ⟨"TypeError",
      "'" ++ value.shapeName ++ "' object does not support item assignment"⟩)

/-- The tree with the directory of the settings. The home directory itself must be there. -/
def withDirectory (around : Surroundings) (tree : FileTree) : Except Stop FileTree :=
  match tree.ensureLast (directory around) with
  | (tree, none) => .ok tree
  | (_, some (path, problem)) => .error (.mishap (problem.mishap path))

/-- The document of the settings, unless they are nested too deep to be written. -/
def document (around : Surroundings) (settings : Json) : Except Stop WideText :=
  if settings.depth ≤ Json.levels around.writingRoom then .ok settings.document
  else .error (.mishap ⟨"RecursionError", "maximum recursion depth exceeded"⟩)

/-- The document of the settings from before with the token, and the writer of their file. -/
def draft (around : Surroundings) (tree : FileTree) (token : WideText) :
    Except Stop (WideText × TextFile.Writer) := do
  let settings ← withToken token (← read around tree)
  let writer ← TextFile.Writer.ofPath tree (file around)
  return (← document around settings, writer)

def save (around : Surroundings) (tree : FileTree) (token : WideText) :
    Except Stop Unit × FileTree :=
  match withDirectory around tree with
  | .error stop => (.error stop, tree)
  | .ok tree =>
      match draft around tree token with
      | .error stop => (.error stop, tree)
      | .ok (document, writer) => writer.replace tree document

end Settings
end Almanac
