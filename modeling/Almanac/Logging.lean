/-!
# Log levels

What the program logs depends on how much it is asked to tell. Chatty sources beneath it are kept
to warnings in any case.
-/

namespace Almanac.Logging

/-- The levels from which on messages are logged. -/
inductive Level where
  | debug
  | warning
deriving DecidableEq, Repr

def Level.number : Level → Nat
  | debug => 10
  | warning => 30

/-- The chatty sources beneath the program. -/
inductive QuietSource where
  | requests
  | connections
deriving DecidableEq, Repr

def quietSources : List QuietSource := [.requests, .connections]

/-- The levels of a run. -/
structure Levels where
  root : Level
  handlers : List Level
  quiet : List Level
deriving DecidableEq, Repr

/-- The levels of a run that is asked to tell more or not. -/
def levels (verbose : Bool) : Levels :=
  let level := if verbose then Level.debug else Level.warning
  { root := level, handlers := [level], quiet := quietSources.map fun _ => .warning }

end Almanac.Logging
