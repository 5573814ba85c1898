import Almanac.Data.Binary64
import Almanac.Storage.FileTree

/-!
# Options of the command line

The options say what a run is asked to do. They come from a parser, which reads the arguments before
anything else happens: it hands over options, or it ends the run itself, say with a help text or
because the arguments make no sense. What a parser does that ends a run is its own affair, and it
may leave other files behind than it found.
-/

namespace Almanac.CommandLine

open Almanac.Text Almanac.Data Almanac.Storage

/-- The options that are given or not. -/
inductive Switch where
  | list
  | validate
  | dryRun
  | compare
  | verbose
  | configure
deriving DecidableEq, Repr

/-- The options of a run. -/
structure Options where
  countries : List Text
  switches : List Switch
  output : Path
  /-- Empty if there is none. -/
  token : Text
  interval : Binary64
  timeout : Binary64
deriving DecidableEq, Repr

namespace Options

def has (options : Options) (switch : Switch) : Bool :=
  switch ∈ options.switches

/-- The switches with which a run only reads. -/
def readingSwitches : List Switch :=
  [.list, .validate, .compare, .dryRun]

/-- One of the reading switches is given, and no token is to be saved. -/
def OnlyRead (options : Options) : Prop :=
  (∃ switch ∈ readingSwitches, options.has switch = true) ∧ options.has .configure = false

instance (options : Options) : Decidable options.OnlyRead :=
  inferInstanceAs (Decidable (_ ∧ _))

end Options

/-- What a parser makes of arguments. -/
inductive Parsed where
  | options (options : Options)
  /-- The parser ends the run, with a code and with the files as it leaves them. -/
  | ended (code : Nat) (files : FileTree)
deriving DecidableEq

/-- The files behind a parser that found some. -/
def Parsed.files (found : FileTree) : Parsed → FileTree
  | options _ => found
  | ended _ files => files

/-- A parser of arguments, which may look at files. -/
abbrev Parser := FileTree → List Text → Parsed

end Almanac.CommandLine
