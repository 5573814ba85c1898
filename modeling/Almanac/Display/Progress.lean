import Almanac.Batch.Report
import Almanac.Display.Board

/-!
# The progress display

The display of work on many countries shows one task on a board. Entering the display brings a
fresh board; the task is started when the work starts, it advances with every country, and it ends
with the tally. Leaving the display changes no task. What goes wrong with drawing is not caught, and
what the display did before stays done.
-/

namespace Almanac.Display

open Almanac.Text Almanac.Batch

/-- The progress display. The number of the task and the count of failures outlive a board. -/
structure Progress (drawer : Drawer) where
  console : drawer.Console
  /-- The board, if the display was entered. -/
  board : Option drawer.Board := none
  /-- The number of the task, if one was started. -/
  task : Option Nat := none
  failed : Nat := 0

namespace Progress

variable {drawer : Drawer}

/-- Why the display does not take a step. -/
inductive Fault where
  | notEntered
  | notStarted (step : Text)
  /-- Something went wrong with the board. -/
  | board (mishap : Mishap)
deriving DecidableEq, Repr

def Fault.mishap : Fault → Mishap
  | notEntered => ⟨"RuntimeError",
      "RichSyncProgressDisplay must be used as a context manager. "
        ++ "Use: with RichSyncProgressDisplay() as display:"⟩
  | notStarted step => ⟨"RuntimeError", "on_start() must be called before " ++ step ++ "()"⟩
  | board mishap => mishap

/-- The task on the board of the display with a number. -/
def task? (progress : Progress drawer) (number : Nat) : Option Task :=
  progress.board.bind fun board => drawer.task? board number

/-- The display after something was done to its board, and the fault if it went wrong. -/
def drawn (progress : Progress drawer)
    (result : Except Mishap Unit × drawer.Board × drawer.Console) :
    Progress drawer × Option Fault :=
  let (outcome, board, console) := result
  ({ progress with board := some board, console := console },
    match outcome with
    | .ok () => none
    | .error mishap => some (.board mishap))

def enter (progress : Progress drawer) : Progress drawer × Option Fault :=
  progress.drawn (drawer.enter (drawer.create progress.console) progress.console)

def exit (progress : Progress drawer) : Progress drawer × Option Fault :=
  match progress.board with
  | none => (progress, none)
  | some board => progress.drawn (drawer.leave board progress.console)

def start (progress : Progress drawer) (total : Option Int) : Progress drawer × Option Fault :=
  match progress.board with
  | none => (progress, some .notEntered)
  | some board =>
      let (outcome, board, console) :=
        drawer.start board progress.console "Syncing countries" total
      -- the failures are forgotten before the task is there
      let shown := { progress with console := console, board := some board, failed := 0 }
      match outcome with
      | .ok number => ({ shown with task := some number }, none)
      | .error mishap => (shown, some (.board mishap))

/-- The board and the number of the task, which a step needs. -/
def require (progress : Progress drawer) (step : Text) : Except Fault (drawer.Board × Nat) :=
  match progress.board, progress.task with
  | none, _ => .error .notEntered
  | some _, none => .error (.notStarted step)
  | some board, some number => .ok (board, number)

def successChange (code : Text) : Change :=
  { state := some .inProgress, description := some ("Synced " ++ code), advance := some 1 }

/-- The change by a country that failed, with the count of failures up to it. -/
def failureChange (code : Text) (failed : Nat) : Change :=
  { state := some .warning
    description := some ("Failed " ++ code ++ " (" ++ Text.ofNat failed ++ " failed so far)")
    advance := some 1 }

def completionChange (succeeded failed : Int) : Change :=
  { state := some (.ofTally succeeded failed)
    description := some ("Synced " ++ ofInt succeeded ++ " countries, " ++ ofInt failed
      ++ " failed")
    completed := some (succeeded + failed) }

/-- The display after a country was done, and the fault if there is one. A failure is counted
even if the task is not on the board. -/
def done (progress : Progress drawer) (code : Text) (failed : Bool) :
    Progress drawer × Option Fault :=
  match progress.require "on_country_done" with
  | .error fault => (progress, some fault)
  | .ok (board, number) =>
      if failed then
        let counted := { progress with failed := progress.failed + 1 }
        counted.drawn (drawer.change board progress.console number
          (failureChange code counted.failed))
      else progress.drawn (drawer.change board progress.console number (successChange code))

/-- The display after the end of the work, and the fault if there is one. -/
def complete (progress : Progress drawer) (succeeded failed : Int) :
    Progress drawer × Option Fault :=
  match progress.require "on_complete" with
  | .error fault => (progress, some fault)
  | .ok (board, number) =>
      progress.drawn (drawer.change board progress.console number
        (completionChange succeeded failed))

/-- What can be done with a display. -/
inductive Step where
  /-- Another display takes its place, which was not entered. -/
  | new
  | enter
  | exit
  | start (total : Option Int)
  | done (code : Text) (failed : Bool)
  | complete (succeeded failed : Int)
deriving DecidableEq, Repr

/-- The display after a step, and the fault if there is one. -/
def step (progress : Progress drawer) : Step → Progress drawer × Option Fault
  | .new => ({ console := progress.console }, none)
  | .enter => progress.enter
  | .exit => progress.exit
  | .start total => progress.start total
  | .done code failed => progress.done code failed
  | .complete succeeded failed => progress.complete succeeded failed

/-- The display after steps, some of which may have had a fault. -/
def after (console : drawer.Console) (steps : List Step) : Progress drawer :=
  steps.foldl (fun progress step => (progress.step step).1) { console := console }

/-! ## Following a batch -/

/-- The display after it was told of an event, and the fault if there is one. -/
def tell (progress : Progress drawer) : Event → Progress drawer × Option Fault
  | .start total => progress.start (some total)
  | .done code error => progress.done code error.isSome
  | .complete succeeded failed => progress.complete succeeded failed

/-- The display after it was told of events, up to the first fault. -/
def follow (progress : Progress drawer) : List Event → Progress drawer × Option Fault
  | [] => (progress, none)
  | event :: events =>
      match progress.tell event with
      | (next, none) => next.follow events
      | (next, some fault) => (next, some fault)

end Progress
end Almanac.Display
