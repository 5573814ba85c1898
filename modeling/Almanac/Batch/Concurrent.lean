import Almanac.Batch.Report

/-!
# Many countries at once

The countries of a batch are worked on side by side, at most as many at a time as there are slots.
An entry waits until it gets a slot, and keeps the slot until its work is over; which entry gets a
free slot, and whose work is over next, is left open. The end of the work on an entry is one step:
the report and the display hear of it before anything else happens. A stop that does not belong to
one file abandons the batch, and the other entries are dropped, although some may still be
completed before they are.
-/

namespace Almanac.Batch

open Almanac.Text Almanac.Storage

/-- An entry of a batch: its code, and the work on it, which gives the path of the record. -/
structure Task where
  code : Text
  work : Work (Option Path)

/-- The work on an entry, up to its completion. -/
def Task.complete (task : Task) : Work Completion := do
  let outcome ← recorded task.work
  return ⟨task.code, outcome⟩

def Plan.task (plan : Plan) (code : Text) : Task :=
  ⟨code, Synced.path <$> plan.sync code⟩

/-- The number of slots; there is always one. -/
def slotsOf (concurrency : Int) : Nat :=
  (max 1 concurrency).toNat

/-- A batch that is being worked on, with the report so far, and what the display was told. -/
structure Underway where
  waiting : List Task
  inFlight : List Task := []
  world : World
  report : Report := {}
  events : List Event
  /-- Why the batch was abandoned, if it was. -/
  abandoned : Option Stop := none

namespace Underway

def start (tasks : List Task) (world : World) : Underway where
  waiting := tasks
  world := world
  events := [.start tasks.length]

def isDone (batch : Underway) : Prop :=
  batch.waiting = [] ∧ batch.inFlight = []

/-- How many steps are left at most: an entry gets a slot, and then its work ends. -/
def remaining (batch : Underway) : Nat :=
  2 * batch.waiting.length + batch.inFlight.length

/-- What the display was told when the batch is done, whether it was abandoned or not. -/
def told (batch : Underway) : List Event :=
  batch.events ++ [.complete batch.report.succeeded.length batch.report.failed.length]

/-- What the caller gets when the batch is done. -/
def result (batch : Underway) : Except Stop Report :=
  match batch.abandoned with
  | some stop => .error stop
  | none => .ok batch.report

/-- A step of a batch, with the entry that it completes and how, if it completes one. -/
inductive Step (slots : Nat) : Underway → Option (Task × Completion) → Underway → Prop where
  /-- A waiting entry gets a free slot. -/
  | enter {batch : Underway} {before rest : List Task} {task : Task}
      (hwaiting : batch.waiting = before ++ task :: rest) (hfree : batch.inFlight.length < slots) :
      Step slots batch none
        { batch with waiting := before ++ rest, inFlight := batch.inFlight ++ [task] }
  /-- The work on an entry is over, and its completion is recorded. -/
  | complete {batch : Underway} {before rest : List Task} {task : Task} {completion : Completion}
      {world : World} (hflight : batch.inFlight = before ++ task :: rest)
      (hwork : task.complete.run.run batch.world = (.ok completion, world)) :
      Step slots batch (some (task, completion))
        { batch with
          inFlight := before ++ rest
          world := world
          report := batch.report.add completion
          events := batch.events ++ [completion.event] }
  /-- The work on an entry is stopped by something that does not belong to one file. The first such
  stop is the one that gets out. -/
  | stop {batch : Underway} {before rest : List Task} {task : Task} {stop : Stop} {world : World}
      (hflight : batch.inFlight = before ++ task :: rest)
      (hwork : task.complete.run.run batch.world = (.error stop, world)) :
      Step slots batch none
        { batch with
          inFlight := before ++ rest
          world := world
          abandoned := some (batch.abandoned.getD stop) }
  | dropWaiting {batch : Underway} {before rest : List Task} {task : Task}
      (habandoned : batch.abandoned.isSome = true)
      (hwaiting : batch.waiting = before ++ task :: rest) :
      Step slots batch none { batch with waiting := before ++ rest }
  | dropInFlight {batch : Underway} {before rest : List Task} {task : Task}
      (habandoned : batch.abandoned.isSome = true)
      (hflight : batch.inFlight = before ++ task :: rest) :
      Step slots batch none { batch with inFlight := before ++ rest }

/-- Steps of a batch one after another, with the entries that they complete, in order. -/
inductive Run (slots : Nat) (first : Underway) : List (Task × Completion) → Underway → Prop where
  | start : Run slots first [] first
  | step {trace : List (Task × Completion)} {batch next : Underway}
      {label : Option (Task × Completion)} (hrun : Run slots first trace batch)
      (hstep : Step slots batch label next) : Run slots first (trace ++ label.toList) next

end Underway
end Almanac.Batch
