import Almanac.Batch.Report

/-!
# Validation of stored records

The stored record of each country is compared with one made afresh from its source. A country
without a record is missing; a failure that belongs to one file is recorded, and the next country
is looked at.
-/

namespace Almanac.Batch

open Almanac.Data Almanac.Storage Almanac.Time Almanac.Remote

/-- What came of the validation of many countries. -/
structure Validation where
  unchanged : List Text := []
  differences : Entries Text (List Record.Difference) := []
  missing : List Text := []
  failed : Entries Text WideText := []

namespace Validation

/-- The differences between the stored record at a path, for which there is so much room, and one
made afresh. -/
def compare (room : Nat) (fetcher : Fetcher) (now : Timestamp) (path : Path) (code : Text) :
    Work (List Record.Difference) := do
  let stored ← storing fun files => (RecordFile.load room now files path, files)
  let t ← exchange (fetcher.source code)
  let reading ← MonadExcept.ofExcept (reading t code false)
  return stored.differences (Record.ofProfile now reading.profile)

def add (validation : Validation) (code : Text) :
    Except WideText (List Record.Difference) → Validation
  | .error message => { validation with failed := validation.failed.put code message }
  | .ok [] => { validation with unchanged := validation.unchanged ++ [code] }
  | .ok found => { validation with differences := validation.differences.put code found }

def extend (room : Nat) (fetcher : Fetcher) (now : Timestamp) (directory : Path)
    (validation : Validation) (code : Text) : Work Validation := do
  let path := RecordFile.path directory code
  if (← get).files.contains path then
    return validation.add code (← recorded (compare room fetcher now path code))
  else return { validation with missing := validation.missing ++ [code] }

def ofCodes (room : Nat) (fetcher : Fetcher) (now : Timestamp) (directory : Path)
    (codes : List Text) : Work Validation :=
  codes.foldlM (extend room fetcher now directory) {}

end Validation
end Almanac.Batch
