import Almanac.Batch.Validation
import Almanac.Console.Table
import Almanac.Data.Json.Printer

/-!
# Notices

What the program tells its user. A notice is a list of texts with markup that are printed one
after the other, each on lines of its own. Texts from elsewhere are put into the markup as they
are, so a bracket in them can be taken for a tag.
-/

namespace Almanac.Console

open Almanac.Text Almanac.Data Almanac.Storage Almanac.Batch

/-- Texts with markup to be printed one after the other. -/
abbrev Notice := List WideText

namespace Notice

/-- The lines that a notice puts on the console, and the stop if a text cannot be printed; the
lines before it are there all the same. -/
def lines : Notice → List Text × Option Stop
  | [] => ([], none)
  | t :: rest =>
      match printed t with
      | .error stop => ([], some stop)
      | .ok first =>
          let (more, stop) := lines rest
          (first ++ more, stop)

def unknownCountry (code : Text) : Notice :=
  ["[red]Error:[/red] Unknown country code: [green]'" ++ code ++ "'[/green]",
   "Run with [bold]--list[/bold] to see the available countries."]

/-- What helps against a status of the remote host, if anything does. -/
def refusedAdvice (status : Int) : Notice :=
  if status = 401 then
    ["\n[yellow]Quick Fix:[/yellow] The token was rejected. Run with --configure."]
  else if status = 403 ∨ status = 429 then
    ["\n[yellow]Quick Fix:[/yellow] You are probably rate limited. "
      ++ "Configure a token or raise --interval."]
  else []

def shownBody : Nat := 500

def refused (status : Int) (body : Text) : Notice :=
  let told : Notice := if body.isEmpty then [] else ["\nResponse body: " ++ body.take shownBody]
  (["❌ [bold red]GitHub API Error[/bold red]",
    "The API answered with status [yellow]" ++ ofInt status ++ "[/yellow]."] : Notice)
    ++ refusedAdvice status ++ told

def shownDiagnosis (diagnosis : Failure.Diagnosis) : Text :=
  (Json.obj [("type", .str diagnosis.kind.wide), ("details", .str diagnosis.details),
    ("os_name", .str diagnosis.system.wide)]).shown

def fetch (failure : Failure) : Notice :=
  ["❌ [bold red]Network Error[/bold red]",
   "The app could not reach GitHub: " ++ failure.message,
   "\n[yellow]Quick Fix:[/yellow] Check your connection or raise --timeout.",
   "\n--- PLEASE REPORT THIS ---",
   "Diagnostics: " ++ shownDiagnosis failure.diagnosis]

def file (failure : Failure) : Notice :=
  let path := failure.kind.path?.getD []
  let place : Notice :=
    if path.isEmpty then [] else ["File path: [yellow]" ++ path ++ "[/yellow]"]
  let details : Notice := match failure.cause with
    | some cause => ["\nTechnical details: " ++ cause.details]
    | none => []
  (["❌ [bold red]File I/O Error[/bold red]",
    "The app encountered an error while working with files: " ++ failure.message] : Notice)
    ++ place
    ++ (["\n[yellow]Quick Fix:[/yellow] Check file permissions and available disk space."] : Notice)
    ++ details

def cancelled : Notice :=
  ["\n[yellow]Sync cancelled.[/yellow]"]

def available (codes : List Text) : Notice :=
  ["\n[bold green]" ++ Text.ofNat codes.length ++ " countries available upstream:[/bold green]",
   join ", " codes]

def byKey {α : Type} (entries : Entries Text α) : Entries Text α :=
  entries.mergeSort fun a b => !WideText.precedes b.1 a.1

def failures (failed : Entries Text WideText) : Notice :=
  if failed.isEmpty then []
  else ("[bold red]" ++ Text.ofNat failed.length ++ " failed:[/bold red]")
    :: (byKey failed).map fun (code, message) => "  [red]" ++ code ++ "[/red]: " ++ message

/-- What came of the work on many countries, with the word for the work. -/
def report (verb : Text) (report : Report) : Notice :=
  let written : Notice := report.written.map fun path => "  [dim]" ++ path.toText ++ "[/dim]"
  ("\n[bold green]" ++ verb ++ " " ++ Text.ofNat report.succeeded.length
      ++ " countries.[/bold green]")
    :: (written ++ failures report.failed)

/-- The token is accepted; the name of its user is shown if there is one. -/
def tokenAccepted (login : Json) : Notice :=
  ["[green]Token valid[/green] (user: " ++ (login.orElse (.str "unknown")).asText ++ ")"]

def difference (code : Text) (differences : List Record.Difference) : Notice :=
  ("\n[bold yellow]" ++ code ++ "[/bold yellow]: " ++ Text.ofNat differences.length
      ++ " difference(s)")
    :: differences.map fun difference => "  - " ++ difference.message

def validation (directory : Path) (found : Validation) : Notice :=
  let missing : Notice := found.missing.map fun code =>
    "[yellow]" ++ code ++ "[/yellow]: no stored record at "
      ++ (RecordFile.path directory code).toText
  let differing : Notice := (byKey found.differences).flatMap fun (code, differences) =>
    difference code differences
  missing ++ differing
    ++ (["\n[green]" ++ Text.ofNat found.unchanged.length ++ " record(s) up to date.[/green]"] :
      Notice)
    ++ failures found.failed

def comparison (found : Strategy.Comparison) : Notice :=
  let error := found.structuralError.getD []
  let told : Notice :=
    if error.isEmpty then [] else ["[yellow]Structural error:[/yellow] " ++ error]
  let differing : Notice :=
    if found.differing.isEmpty then []
    else ["[yellow]Differing keys:[/yellow] " ++ join ", " found.differing]
  (["Chosen: [bold]" ++ found.chosen.text ++ "[/bold]"] : Notice) ++ told ++ differing

def askToken : Notice :=
  ["\n[bold green]Configure the GitHub token.[/bold green]\n"]

def noToken : Notice :=
  ["\n[bold][red]Error:[/bold] A token is required."]

def unsaved (mishap : Mishap) : Notice :=
  ["[red]Error:[/red] Could not save config.", "[yellow]" ++ mishap.details ++ "[/yellow]"]

def saved : Notice :=
  ["[green]Config saved.[/green]\n"]

end Notice

/-- The lines that tell of the comparison for a country, and the stop if they cannot be printed. -/
def comparisonLines (code name : Text) (found : Strategy.Comparison) : List Text × Option Stop :=
  match Table.lines (code ++ ": " ++ name) found.structuralCount found.linePatternCount with
  | .error stop => ([], some stop)
  | .ok table =>
      let (more, stop) := Notice.lines (Notice.comparison found)
      (table ++ more, stop)

end Almanac.Console
