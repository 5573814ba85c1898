import Almanac.CommandLine.Options
import Almanac.Data.Decimal

/-!
# Arguments

A parser of the options that a run has, and of no others. An option is a switch, or it has a value.
It is written as a word behind two dashes or as a letter behind one; letters of switches can be put
together. A value stands behind an equals sign, behind its letter, or as the next argument, whatever
that looks like. Of several values of an option the last one counts, but every country counts. Other
arguments than options make no sense, but whoever asks for help gets it all the same, unless an
option is not known or has no value.
-/

namespace Almanac.CommandLine

open Almanac.Text Almanac.Data Almanac.Storage

/-- The options that have a value. -/
inductive Setting where
  | country
  | output
  | token
  | interval
  | timeout
deriving DecidableEq, Repr

/-- An option as it is known by its name. -/
inductive Known where
  | switch (switch : Switch)
  | setting (setting : Setting)
  | help
deriving DecidableEq, Repr

/-- What was given. -/
inductive Given where
  | switch (switch : Switch)
  | value (setting : Setting) (value : Text)
  | help
  /-- An argument that is no option. -/
  | stray (argument : Text)
deriving DecidableEq, Repr

namespace Arguments

def words : List (Text × Known) :=
  [("country", .setting .country), ("list", .switch .list), ("validate", .switch .validate),
   ("dry-run", .switch .dryRun), ("compare", .switch .compare), ("output", .setting .output),
   ("token", .setting .token), ("interval", .setting .interval), ("timeout", .setting .timeout),
   ("verbose", .switch .verbose), ("configure", .switch .configure), ("help", .help)]

def letters : List (Char × Known) :=
  [('C', .setting .country), ('l', .switch .list), ('o', .setting .output),
   ('v', .switch .verbose), ('c', .switch .configure)]

/-- What an argument gives, and whether the value of an option is still due. -/
inductive Reading where
  | given (options : List Given)
  | due (options : List Given) (setting : Setting)
deriving DecidableEq, Repr

/-- What a word behind two dashes gives; nothing if it makes no sense. -/
def readWord? (t : Text) : Option Reading :=
  let name := t.takeWhile (· ≠ '=')
  match words.lookup name, t.drop name.length with
  | some (.switch switch), [] => some (.given [.switch switch])
  | some .help, [] => some (.given [.help])
  | some (.setting setting), [] => some (.due [] setting)
  | some (.setting setting), _ :: value => some (.given [.value setting value])
  | _, _ => none

/-- What letters behind a dash give; nothing if they make no sense. -/
def readLetters? (before : List Given) : Text → Option Reading
  | [] => some (.given before)
  | c :: rest =>
      match letters.lookup c with
      | some (.switch switch) => readLetters? (before ++ [.switch switch]) rest
      | some (.setting setting) =>
          some (if rest.isEmpty then .due before setting
            else .given (before ++ [.value setting rest]))
      | _ => none

/-- What an argument gives; nothing if it makes no sense. -/
def read? : Text → Option Reading
  | '-' :: '-' :: word => readWord? word
  | '-' :: c :: rest => readLetters? [] (c :: rest)
  | argument => some (.given [.stray argument])

/-- What arguments give; nothing if an option is not known or its value is missing. Behind two
dashes alone there are no options. -/
def given? : List Text → Option (List Given)
  | [] => some []
  | argument :: rest =>
      if argument = ("--" : Text) then some (rest.map .stray)
      else match read? argument with
        | none => none
        | some (.given options) => (given? rest).map (options ++ ·)
        | some (.due options setting) =>
            match rest with
            | [] => none
            | value :: rest => (given? rest).map (options ++ .value setting value :: ·)

def isStray : Given → Bool
  | .stray _ => true
  | _ => false

def valuesOf (given : List Given) (setting : Setting) : List Text :=
  given.filterMap fun option =>
    match option with
    | .value other value => if other = setting then some value else none
    | _ => none

def switchesOf (given : List Given) : List Switch :=
  given.filterMap fun option =>
    match option with
    | .switch switch => some switch
    | _ => none

/-- The number that is written so, if it is not below the least one. -/
def numberFrom? (least : Int) (t : Text) : Option Binary64 :=
  (Decimal.read? t).filter fun x => x.compareInt? least ≠ some .lt

/-- Is there a file, which is no directory, where a directory is due? With a slash behind it a
path never leads to a file. -/
def namesFile (tree : FileTree) (t : Text) : Bool :=
  !t.isEmpty && t.getLast? ≠ some '/' && tree.isFile (Path.ofText t)

/-- The options that were given, with the defaults for the others; nothing if a value makes no
sense, or an argument is no option. -/
def options? (tree : FileTree) (given : List Given) : Option Options := do
  let last (setting : Setting) (default : Text) : Text :=
    ((valuesOf given setting).getLast?).getD default
  let interval ← numberFrom? 0 (last .interval "1")
  let timeout ← numberFrom? 1 (last .timeout "30")
  let output := last .output "data/countries"
  if namesFile tree output || given.any isStray then none
  else some {
    countries := valuesOf given .country
    switches := switchesOf given
    output := Path.ofText output
    token := last .token []
    interval := interval
    timeout := timeout }

def usageExit : Nat := 2

/-- The parser of the options of a run. -/
def parse : Parser := fun tree arguments =>
  match given? arguments with
  | none => .ended usageExit tree
  | some given =>
      if .help ∈ given then .ended 0 tree
      else match options? tree given with
        | none => .ended usageExit tree
        | some options => .options options

end Arguments
end Almanac.CommandLine
