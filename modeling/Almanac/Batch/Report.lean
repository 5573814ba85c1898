import Almanac.Batch.Country

/-!
# Reports on many countries

Countries are worked on one after another, and a failure that belongs to one file is recorded
while the work goes on. The report is made from the completions in the order in which they came:
it lists every entry that succeeded, and for every code with a failed entry the message of the
last failure. The display hears of the start, of every completion, and of the end.
-/

namespace Almanac.Batch

open Almanac.Data Almanac.Storage

/-- How the work on one entry was completed: the path of the written record, if one was written,
or the message of the failure. -/
structure Completion where
  code : Text
  outcome : Except WideText (Option Path)

/-- What came of the work on many countries. -/
structure Report where
  succeeded : List Text := []
  failed : Entries Text WideText := []
  written : List Path := []
deriving DecidableEq, Repr

/-- What the display is told. -/
inductive Event where
  | start (total : Nat)
  | done (code : Text) (error : Option WideText)
  | complete (succeeded failed : Nat)
deriving DecidableEq, Repr

namespace Report

def total (report : Report) : Nat :=
  report.succeeded.length + report.failed.length

def add (report : Report) (completion : Completion) : Report :=
  match completion.outcome with
  | .error message => { report with failed := report.failed.put completion.code message }
  | .ok path => { report with
      succeeded := report.succeeded ++ [completion.code]
      written := report.written ++ path.toList }

def ofCompletions (completions : List Completion) : Report :=
  completions.foldl add {}

end Report

def Completion.event (completion : Completion) : Event :=
  match completion.outcome with
  | .error message => .done completion.code (some message)
  | .ok _ => .done completion.code none

/-- What the display is told in the course of work on entries with these completions. -/
def eventsOf (completions : List Completion) : List Event :=
  let report := Report.ofCompletions completions
  [.start completions.length] ++ completions.map Completion.event
    ++ [.complete report.succeeded.length report.failed.length]

def Plan.complete (plan : Plan) (code : Text) : Work Completion := do
  let outcome ← recorded (plan.sync code)
  return ⟨code, outcome.map Synced.path⟩

/-- The work on many entries, one after another, up to their completions. -/
def Plan.completeAll (plan : Plan) (codes : List Text) : Work (List Completion) :=
  codes.mapM plan.complete

end Almanac.Batch
