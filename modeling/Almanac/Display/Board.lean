import Almanac.Data.Entries
import Almanac.Failure

/-!
# Boards of tasks

A board shows tasks, each with a description, a count of what is completed, and the total if it is
known. A task is known by its number on the board. A description begins with the colour of the
state that the work is in.

Boards are made and drawn by a drawer, which is not part of this library. Drawing can go wrong: a
console may have another board on it, or a description may not be drawable. The laws of a drawer say
what becomes of the tasks in any case.
-/

namespace Almanac.Display

open Almanac.Text

/-- The states that work can be in. -/
inductive State where
  | inProgress
  /-- Everything succeeded. -/
  | complete
  /-- Some of it failed. -/
  | warning
  /-- Nothing succeeded. -/
  | error
deriving DecidableEq, Repr

namespace State

def colour : State → Text
  | inProgress => "magenta"
  | complete => "green"
  | warning => "yellow"
  | error => "red"

def name : State → Text
  | inProgress => "IN_PROGRESS"
  | complete => "COMPLETE"
  | warning => "WARNING"
  | error => "ERROR"

def ofName? (name : Text) : Option State :=
  [inProgress, complete, warning, error].find? fun state => state.name = name

/-- The state of finished work, by how much of it succeeded and failed. -/
def ofTally (succeeded failed : Int) : State :=
  if failed = 0 then complete else if succeeded = 0 then error else warning

end State

def styled (description : Text) (state : State) : Text :=
  "[" ++ state.colour ++ "]" ++ description

/-- A task on a board. -/
structure Task where
  description : Text
  total : Option Int
  completed : Int := 0
deriving DecidableEq, Repr

/-- What is to be set about a task. -/
structure Update where
  description : Option Text := none
  total : Option Int := none
  completed : Option Int := none
  advance : Option Int := none
deriving DecidableEq, Repr

/-- The task after an update. What is completed advances before it is set. -/
def Update.apply (update : Update) (task : Task) : Task where
  description := update.description.getD task.description
  total := update.total.or task.total
  completed := update.completed.getD (task.completed + update.advance.getD 0)

/-! ## Drawers -/

/-- What makes boards and draws them on a console. What is done to a board can go wrong, and the
board and the console may be others afterwards all the same. -/
structure Drawer where
  Console : Type
  Board : Type
  create : Console → Board
  task? : Board → Nat → Option Task
  enter : Board → Console → Except Mishap Unit × Board × Console
  leave : Board → Console → Except Mishap Unit × Board × Console
  /-- One task more, and its number. -/
  add : Board → Console → (description : Text) → (total : Option Int) →
    Except Mishap Nat × Board × Console
  update : Board → Console → (number : Nat) → Update → Except Mishap Unit × Board × Console

namespace Drawer

/-- What a drawer does to tasks. -/
structure IsLawful (drawer : Drawer) : Prop where
  create : ∀ console number, drawer.task? (drawer.create console) number = none
  enter : ∀ board console,
    drawer.task? (drawer.enter board console).2.1 = drawer.task? board
  leave : ∀ board console,
    drawer.task? (drawer.leave board console).2.1 = drawer.task? board
  /-- A new task has a number that no other task has. -/
  add_ok : ∀ {board console description total number board' console'},
    drawer.add board console description total = (.ok number, board', console') →
    drawer.task? board number = none ∧
      drawer.task? board' = fun other =>
        if other = number then some { description, total } else drawer.task? board other
  /-- If adding a task goes wrong, the tasks that were there are there still. -/
  add_error : ∀ {board console description total mishap board' console' number task},
    drawer.add board console description total = (.error mishap, board', console') →
    drawer.task? board number = some task → drawer.task? board' number = some task
  /-- A task that is there can be updated, which draws nothing. -/
  update_known : ∀ {board number task} console (update : Update),
    drawer.task? board number = some task →
    (drawer.update board console number update).1 = .ok () ∧
      drawer.task? (drawer.update board console number update).2.1 = fun other =>
        if other = number then some (update.apply task) else drawer.task? board other
  update_unknown : ∀ {board number} console (update : Update),
    drawer.task? board number = none → drawer.update board console number update =
      (.error ⟨"KeyError", Text.ofNat number⟩, board, console)

/-- A drawer of boards that are lists of tasks. It does not draw them, so nothing but a missing task
can go wrong. -/
def plain : Drawer where
  Console := Unit
  Board := List Task
  create _ := []
  task? board number := board[number]?
  enter board console := (.ok (), board, console)
  leave board console := (.ok (), board, console)
  add board console description total :=
    (.ok board.length, board ++ [{ description, total }], console)
  update board console number update :=
    match board[number]? with
    | none => (.error ⟨"KeyError", Text.ofNat number⟩, board, console)
    | some task => (.ok (), board.set number (update.apply task), console)

end Drawer

/-! ## Tasks in a state -/

/-- What is to change about a task. -/
structure Change where
  state : Option State := none
  description : Option Text := none
  total : Option Int := none
  completed : Option Int := none
  advance : Option Int := none
deriving DecidableEq, Repr

namespace Change

/-- Does the change give a description to show, which is not empty? -/
def describes (change : Change) : Bool :=
  change.description.any fun description => !description.isEmpty

/-- What is set by a change. A state and a description that is not empty go together. -/
def update (change : Change) : Except Mishap Update :=
  if change.state.isSome ≠ change.describes then
    .error (.badValue "progress_state and description must be provided together.")
  else .ok {
    description := match change.description, change.state with
      | some description, some state => some (styled description state)
      | _, _ => none
    total := change.total
    completed := change.completed
    advance := change.advance }

end Change

namespace Drawer

variable (drawer : Drawer) (board : drawer.Board) (console : drawer.Console)

/-- One task more, which is in progress, and its number. -/
def start (description : Text) (total : Option Int) :
    Except Mishap Nat × drawer.Board × drawer.Console :=
  drawer.add board console (styled description .inProgress) total

def change (number : Nat) (change : Change) :
    Except Mishap Unit × drawer.Board × drawer.Console :=
  match change.update with
  | .error mishap => (.error mishap, board, console)
  | .ok update => drawer.update board console number update

end Drawer
end Almanac.Display
