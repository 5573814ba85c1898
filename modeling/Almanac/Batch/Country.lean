import Almanac.Country.Profile
import Almanac.Remote.Fetcher
import Almanac.Storage.RecordFile

/-!
# One country

The way of one country: its source file is fetched, read, and turned into a record, which is saved
if there is a directory for it. Work goes on in a world of files and the remote host; what it did
to them before it stopped stays done.
-/

namespace Almanac.Batch

open Almanac.Text Almanac.Data Almanac.Time Almanac.Storage Almanac.Remote

/-- What work acts on. -/
structure World where
  files : FileTree
  host : Host := {}

/-- Work that may stop without a result. -/
abbrev Work := ExceptT Stop (StateM World)

/-- Why a strategy came to no catalog, as the end of the work. -/
def strategyStop : Strategy.Fault → Stop
  | .unreadable line reason => .failure { kind := .outline line reason }
  | .number fault => .mishap (.badValue fault.message)
  | .collision key => .failure { kind := .collision key }

/-- Why a source file gave no profile, as the end of the work. -/
def readingStop : Country.ReadingFault → Stop
  | .irrelevant why => .failure (Failure.irrelevant why)
  | .strategy fault => strategyStop fault

/-- The profile in a source file, with a comparison of the strategies if one is asked for. -/
def reading (t code : Text) (compare : Bool) : Except Stop Country.Reading :=
  (Country.Reading.ofText t code (if compare then some Source.TokenRule.all else none)).mapError
    readingStop

def exchange {α : Type} (work : Exchange α) : Work α :=
  fun world =>
    let (outcome, host) := work.run.run world.host
    (outcome, { world with host := host })

def storing {α : Type} (work : FileTree → Except Stop α × FileTree) : Work α :=
  fun world =>
    let (outcome, files) := work world.files
    (outcome, { world with files := files })

/-- Where a record goes. -/
inductive Destination where
  | nowhere
  /-- The record is saved in the directory. -/
  | directory (path : Path)
  /-- The record is named as if it were saved in the directory, but goes elsewhere. -/
  | aside (path : Path)
deriving DecidableEq, Repr

/-- The path of the file of a record that went to its destination. -/
def deliver (record : Record) : Destination → Work (Option Path)
  | .nowhere => return none
  | .directory path => some <$> storing fun files => RecordFile.save files path record
  | .aside path => do
      let code ← MonadExcept.ofExcept (RecordFile.codeOf record)
      return some (← MonadExcept.ofExcept (RecordFile.pathOf path code))

/-- What came of the work on a country. -/
structure Synced where
  reading : Country.Reading
  record : Record
  path : Option Path

/-- The record of a profile that was made now. One without a code gets the code that was asked
for, in capitals. -/
def recordOf (now : Timestamp) (code : Text) (profile : Country.Profile) : Record :=
  let record := Record.ofProfile now profile
  if record.countryCode.isTruthy then record
  else { record with countryCode := .str (upper code) }

/-- How countries are worked on. -/
structure Plan where
  fetcher : Fetcher
  now : Timestamp
  compare : Bool := false
  destination : Destination := .nowhere

def Plan.sync (plan : Plan) (code : Text) : Work Synced := do
  let t ← exchange (plan.fetcher.source code)
  let reading ← MonadExcept.ofExcept (reading t code plan.compare)
  let record := recordOf plan.now code reading.profile
  let path ← deliver record plan.destination
  return ⟨reading, record, path⟩

/-- The outcome of work: its result, or the message of a failure that belongs to one file. Any
other stop ends the work. -/
def recorded {α : Type} (work : Work α) : Work (Except WideText α) :=
  tryCatch (Except.ok <$> work) fun stop =>
    match stop with
    | .failure failure =>
        if failure.kind.isFileLevel then return .error failure.message else throw stop
    | .mishap _ => throw stop

end Almanac.Batch
