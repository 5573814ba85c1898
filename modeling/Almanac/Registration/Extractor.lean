import Almanac.Registration.Call

/-!
# Extractors

An extractor reads the calls of one file after another by the same table of shapes, and keeps the
errors of the file that it read last. The errors are forgotten when the next file begins. Those
that were noted before a number stopped the reading of a file are kept.
-/

namespace Almanac.Registration

open Almanac.Text

/-- An extractor: its table of shapes and way of reading, and the errors of its last file. -/
structure Extractor where
  options : Calls.Options
  errors : List CallError := []

namespace Extractor

def note (extractor : Extractor) (error : CallError) : Extractor :=
  { extractor with errors := extractor.errors ++ [error] }

/-- The calls of lines that are numbered from the given number on, unless a number stops their
reading, and the extractor behind them. -/
def readLines (extractor : Extractor) (number : Nat) :
    List Text → Except NumberFault (List Call) × Extractor
  | [] => (.ok [], extractor)
  | line :: rest =>
      match Calls.atLine extractor.options number line rest with
      | none => extractor.readLines (number + 1) rest
      | some (.error (.number fault)) => (.error fault, extractor)
      | some (.error (.call fault)) => (extractor.note ⟨number, fault⟩).readLines (number + 1) rest
      | some (.ok call) =>
          let (later, after) := extractor.readLines (number + 1) rest
          (later.map (call :: ·), after)

/-- The calls of a file, and the extractor behind it. -/
def extract (extractor : Extractor) (t : Text) : Except NumberFault (List Call) × Extractor :=
  { extractor with errors := [] }.readLines 1 (lines t)

end Extractor
end Almanac.Registration
