import Almanac.Batch.Validation
import Almanac.CommandLine.Options
import Almanac.Console.Notice
import Almanac.Settings

/-!
# The program

A run of the program has its options from a parser and then does one thing: it saves a token, lists
countries, validates records, compares strategies, or works on countries and saves their records.
Failures with the remote host or with files, as far as they are not recorded for a country, end the
run with a notice. Everything that the run does shows in its trace: the world after it, the lines on
the console, and the prompts.
-/

namespace Almanac.CommandLine

open Almanac.Text Almanac.Data Almanac.Time Almanac.Storage Almanac.Remote Almanac.Batch
open Almanac.Console

/-- What a run finds. -/
structure Setup where
  around : Surroundings
  now : Timestamp
  /-- The token that the prompt gives; nothing if the prompt is cancelled. -/
  answer : Option Json := none

/-- What a run has done so far. -/
structure Trace where
  world : World
  console : List Text := []
  /-- The texts that the prompts offered. -/
  prompts : List WideText := []

/-- How a run ends. -/
inductive Ending where
  | exit (code : Nat)
  /-- The run is stopped by something that nothing is said about. -/
  | stop (stop : Stop)
deriving DecidableEq, Repr

/-- A part of a run, which may end it. -/
abbrev Run := ExceptT Ending (StateM Trace)

namespace Run

/-- Lines on the console, and the end of the run if there is a stop. -/
def print (shown : List Text × Option Stop) : Run Unit := do
  modify fun trace => { trace with console := trace.console ++ shown.1 }
  match shown.2 with
  | some stop => throw (.stop stop)
  | none => return ()

def tell (notice : Notice) : Run Unit :=
  Run.print (Notice.lines notice)

def fail {α : Type} (notice : Notice) : Run α := do
  tell notice
  throw (.exit 1)

def act {α : Type} (work : Work α) : Run α :=
  fun trace =>
    let (outcome, world) := work.run.run trace.world
    (outcome.mapError .stop, { trace with world := world })

def look {α : Type} (read : FileTree → Except Stop α) : Run α := do
  let trace ← get
  MonadExcept.ofExcept ((read trace.world.files).mapError .stop)

/-- A part of the run; if it is stopped by a failure that there is a notice for, the run ends with
the notice. -/
def guarded (part : Run Unit) : Run Unit :=
  tryCatch part fun ending =>
    match ending with
    | .stop (.failure failure) =>
        match failure.kind with
        | .refused status body => fail (Notice.refused status body)
        | .cancelled => fail Notice.cancelled
        | kind =>
            if kind.isFetch then fail (Notice.fetch failure)
            else if kind.isFile then fail (Notice.file failure)
            else throw ending
    | _ => throw ending

end Run

/-! ## Saving a token -/

/-- The token that a prompt gave without the white space around it; empty if it gave none. -/
def answeredToken (answer : Json) : Run WideText :=
  match answer.orElse (.str []) with
  | .str t => return t.strip
  | value => throw (.stop (.lacking value.shapeName "strip"))

def saveToken (setup : Setup) : Run Unit := do
  let current ← Run.look (Settings.savedToken setup.around)
  Run.tell Notice.askToken
  modify fun trace => { trace with prompts := trace.prompts ++ [current] }
  match setup.answer with
  | none => throw (.exit 1)
  | some answer =>
      let token ← answeredToken answer
      if token.isEmpty then Run.fail Notice.noToken
      let trace ← get
      let (outcome, files) := Settings.save setup.around trace.world.files token
      set { trace with world := { trace.world with files := files } }
      match outcome with
      | .ok () => Run.tell Notice.saved
      | .error (.failure failure) =>
          if failure.kind.isFile then Run.fail (Notice.file failure)
          else throw (.stop (.failure failure))
      | .error (.mishap mishap) =>
          if mishap.isSystem then Run.fail (Notice.unsaved mishap)
          else throw (.stop (.mishap mishap))

/-! ## Working on countries -/

/-- The codes of the countries in capitals, without white space around them. The first one that is
not known ends the run. -/
def knownCodes (countries : List Text) : Run (List Text) := do
  let codes := countries.map fun code => upper (strip code)
  match codes.find? fun code => (Country.sourceFile? code).isNone with
  | some code => Run.fail (Notice.unknownCountry code)
  | none => return codes

/-- The fetcher with the token of the options, or the one that is found elsewhere. -/
def fetcherFor (setup : Setup) (options : Options) : Run Fetcher := do
  let token ← if options.token.isEmpty then
      Run.look fun files => Settings.token? setup.around files Settings.tokenFile
    else pure (some options.token.wide)
  let fetcher : Fetcher := { token := token.getD [] }
  match fetcher.mishap? with
  | some mishap => throw (.stop (.mishap mishap))
  | none => return fetcher

/-- The codes, or those of all countries that have a source file if there are none. -/
def codesOrAll (fetcher : Fetcher) (codes : List Text) : Run (List Text) :=
  if codes.isEmpty then Run.act (exchange fetcher.codes) else return codes

def list (fetcher : Fetcher) : Run Unit := do
  Run.tell (Notice.available (← Run.act (exchange fetcher.codes)))

def validate (setup : Setup) (fetcher : Fetcher) (codes : List Text) (directory : Path) :
    Run Unit := do
  Run.tell (Notice.tokenAccepted (← Run.act (exchange fetcher.login)))
  let codes ← codesOrAll fetcher codes
  let found ← Run.act (Validation.ofCodes setup.around.room fetcher setup.now directory codes)
  Run.tell (Notice.validation directory found)
  if !found.failed.isEmpty then throw (.exit 1)

/-- The strategies are compared for one country, which is a completion for the report. -/
def compareOne (fetcher : Fetcher) (code : Text) : Run Completion := do
  let outcome ← Run.act (recorded do
    let t ← exchange (fetcher.source code)
    MonadExcept.ofExcept (reading t code true))
  match outcome with
  | .error message => return ⟨code, .error message⟩
  | .ok reading =>
      match reading.comparison with
      | some comparison => Run.print (comparisonLines code reading.profile.name comparison)
      | none => pure ()
      return ⟨code, .ok none⟩

def sync (setup : Setup) (fetcher : Fetcher) (codes : List Text) (destination : Destination) :
    Run (List Completion) :=
  let plan : Plan := { fetcher := fetcher, now := setup.now, destination := destination }
  Run.act (plan.completeAll codes)

/-- The strategies are compared, or the records of countries are saved unless the run is dry; then
the report is shown. -/
def work (setup : Setup) (options : Options) (fetcher : Fetcher) (codes : List Text) :
    Run Unit := do
  let codes ← codesOrAll fetcher codes
  let dry := options.has .dryRun
  let completions ← if options.has .compare then codes.mapM (compareOne fetcher)
    else sync setup fetcher codes (if dry then .nowhere else .directory options.output)
  let verb : Text := if options.has .compare then "Compared" else if dry then "Parsed" else "Synced"
  let report := Report.ofCompletions completions
  Run.tell (Notice.report verb report)
  if !report.failed.isEmpty then throw (.exit 1)

def perform (setup : Setup) (options : Options) : Run Unit := do
  if options.has .configure then saveToken setup
  else
    let codes ← knownCodes options.countries
    let fetcher ← fetcherFor setup options
    Run.guarded (
      if options.has .list then list fetcher
      else if options.has .validate then validate setup fetcher codes options.output
      else work setup options fetcher codes)

/-- A run of the program: the parser reads the arguments, and what it hands over is done. -/
def run (parse : Parser) (setup : Setup) (arguments : List Text) (world : World) : Ending × Trace :=
  match parse world.files arguments with
  | .ended code files => (.exit code, { world := { world with files := files } })
  | .options options =>
      match (perform setup options).run.run { world := world } with
      | (.ok (), trace) => (.exit 0, trace)
      | (.error ending, trace) => (ending, trace)

end Almanac.CommandLine
