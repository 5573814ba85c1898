import Almanac.CommandLine.Arguments
import Almanac.CommandLine.Program
import Almanac.Time.Clock
import Std.Time.DateTime.Timestamp

/-!
# The command

The command looks at the files that a run may reach, runs the program on them, prints its lines and
writes what it changed. A run looks at few files: those of the settings and of the token, and the
records of known countries in the directory that the options name. The command has no connection to
a network: the answers of the remote host come from the snapshot that the variable
`ALMANAC_SNAPSHOT` of the environment names. A snapshot is a JSON object with an object under each
path, which holds the status of the answer, that of success if it is left out, and the body as a
text.
-/

namespace Almanac.Command

open Almanac.Text Almanac.Data Almanac.Time Almanac.Storage Almanac.Remote Almanac.CommandLine

/-! ## Snapshots of the host -/

def answer (value : Json) : Answer :=
  let status : Int := match value.member? "status" with
    | some (.int n) => n
    | _ => 200
  let body : Text := match value.member? "body" with
    | some (.str t) => t.text?.getD []
    | _ => []
  .response status body

def answerAt? (member : WideText × Json) : Option (Text × Answer) :=
  member.1.text?.map fun path => (path, answer member.2)

/-- The host whose answers a value holds; of any other value than an object, one without
answers. -/
def hostOf : Json → Host
  | .obj members => { answers := members.filterMap answerAt? }
  | _ => {}

def hostOfText (t : Text) : Host :=
  match Json.read Json.usualRoom t with
  | .ok value => hostOf value
  | .error _ => {}

/-! ## What a run can reach -/

/-- The directory of records that the arguments name, whether they make sense or not. -/
def namedOutput (arguments : List Text) : Path :=
  let given := (Arguments.given? arguments).getD []
  Path.ofText (((Arguments.valuesOf given .output).getLast?).getD "data/countries")

def reach (around : Surroundings) (arguments : List Text) : List Path :=
  let output := namedOutput arguments
  [Settings.file around, Settings.tokenFile, output]
    ++ Country.knownCodes.map fun code => RecordFile.path output code

def asksForToken (arguments : List Text) : Bool :=
  .configure ∈ Arguments.switchesOf ((Arguments.given? arguments).getD [])

/-! ## Files and the environment -/

/-- The bytes of the file at a path, or nothing if there is a directory; an error if there is
nothing at all. -/
def look (path : String) : IO (Option (List UInt8)) := do
  try
    return some (← IO.FS.readBinFile path).toList
  catch problem =>
    match problem with
    | .noFileOrDirectory .. => throw problem
    | _ => return none

/-- The tree with what is at a path and on the way to it. -/
def load (tree : FileTree) (path : Path) : IO FileTree := do
  let mut known := tree
  for stage in path.stages do
    try
      match ← look (String.ofList stage.toText) with
      | some bytes => known := (known.put stage bytes).toOption.getD known
      | none => known := (known.ensureDirectory stage).1
    catch _ => break
  return known

def store (change : Place × Node) : IO Unit := do
  let path := String.ofList (change.1.toText)
  match change.2 with
  | .directory => IO.FS.createDirAll path
  | .file bytes => IO.FS.writeBinFile path ⟨bytes.toArray⟩

/-- The value of a variable of the environment, empty if it is not set. -/
def setting (name : String) : IO String := do
  return (← IO.getEnv name).getD ""

def host : IO Host := do
  let name ← setting "ALMANAC_SNAPSHOT"
  if name.isEmpty then return {}
  return hostOfText (Utf8.decodeLossy (← IO.FS.readBinFile name).toList)

def now : IO Timestamp := do
  let moment ← Std.Time.Timestamp.now
  let count := moment.toNanosecondsSinceUnixEpoch.val.toNat / 1000
  match Timestamp.ofMicroseconds? count with
  | some time => return time
  | none => throw (IO.userError "the clock is beyond the calendar")

/-- The token that the user types, or nothing at the end of the input. -/
def askToken : IO (Option Json) := do
  IO.eprint "Enter GitHub token: "
  let line ← (← IO.getStdin).getLine
  return if line.isEmpty then none else some (.str line)

/-! ## Runs -/

/-- A wide text as it can be printed: halves of surrogate pairs give way to the replacement
character. -/
def printable (t : WideText) : String :=
  String.ofList (t.map fun p => p.char?.getD Utf8.replacement)

/-- The exit code of an ending. An ending that nothing was said about is told here. -/
def finish : Ending → IO UInt32
  | .exit code => return code.toUInt32
  | .stop (.failure failure) => do
      IO.eprintln (printable failure.message)
      return 1
  | .stop (.mishap mishap) => do
      IO.eprintln (printable (mishap.kind ++ ": " ++ mishap.details))
      return 1

def run (arguments : List Text) : IO UInt32 := do
  let around : Surroundings := {
    home := Path.ofText (← setting "HOME")
    token := Text.wide (← setting "GITHUB_TOKEN").toList }
  let files ← (reach around arguments).foldlM load FileTree.empty
  let answer ← if asksForToken arguments then askToken else pure none
  let setup : Setup := { around := around, now := ← now, answer := answer }
  let (ending, trace) := CommandLine.run Arguments.parse setup arguments
    { files := files, host := ← host }
  for line in trace.console do
    IO.println (String.ofList line)
  (files.changes trace.world.files).forM store
  finish ending

end Almanac.Command

def main (arguments : List String) : IO UInt32 :=
  Almanac.Command.run (arguments.map String.toList)
