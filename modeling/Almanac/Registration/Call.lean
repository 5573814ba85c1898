import Almanac.Holiday.Month
import Almanac.Registration.Arguments
import Almanac.Text.Blank

/-!
# Registration calls

The calls of a source file, found line by line. A line that holds a comment only is passed over.
On every other line the first shape of the table that the line has a call of decides, and a call
that cannot be made sense of is noted with its line and left out. Only a number with too many
digits stops the reading of a file.
-/

namespace Almanac.Registration

open Almanac.Text Almanac.Holiday

/-- A registration call: its method and shape, the name of the holiday, what it tells about the
date, its first line stripped, and the number of that line. -/
structure Call where
  method : Text
  shape : Shape
  name : Text
  date : DateExpression
  source : Text
  line : Nat
deriving DecidableEq, Repr

/-- What is wrong with a call. -/
inductive CallFault where
  /-- No literal names the holiday. -/
  | noName
  /-- The name of the method holds no month where one should be. -/
  | noMonth (method : Text)
deriving DecidableEq, Repr

def CallFault.reason : CallFault → Text
  | noName => "could not extract holiday name"
  | noMonth method => "unknown month in '" ++ method ++ "'"

/-- A call that could not be made sense of, and its line. -/
structure CallError where
  line : Nat
  fault : CallFault
deriving DecidableEq, Repr

/-- Why a call was not read. -/
inductive ReadFault where
  | call (fault : CallFault)
  | number (fault : NumberFault)
deriving DecidableEq, Repr

/-- A fault in a number as the reason why a call was not read. -/
def numeric {α : Type} (value : Except NumberFault α) : Except ReadFault α :=
  value.mapError .number

namespace Call

def nameAndRest (arguments : Text) : Except ReadFault (Text × Text) :=
  match Arguments.name? arguments with
  | some found => .ok found
  | none => .error (.call .noName)

/-- What the arguments tell about the date. In a call of the generic shape it may stand before the
name. -/
def contents (shape : Shape) (method : Method) (arguments : Text) :
    Except ReadFault (Text × DateExpression) := do
  match method with
  | .dated full month day =>
      let month := upper month
      if (Month.abbreviated? month).isNone then throw (.call (.noMonth full))
      let (name, _) ← nameAndRest arguments
      return (name, .fixed month (← numeric (readNat day)))
  | .feast _ date =>
      let (name, _) ← nameAndRest arguments
      return (name, date)
  | .plain _ =>
      let (name, rest) ← nameAndRest arguments
      match shape with
      | .easterBased =>
          match Arguments.findNumber? (Arguments.tail rest) with
          | none => return (name, .easterBased 0)
          | some (negative, digits) =>
              let n ← numeric (readNat digits)
              return (name, .easterBased (if negative then -(n : Int) else n))
      | .weekdayBased => return (name, .weekdayBased (Arguments.tail rest))
      | _ =>
          match ← numeric (DateExpression.classify arguments) with
          | .calculated _ => return (name, .calculated (Arguments.tail rest))
          | date => return (name, date)

def ofSite (shape : Shape) (site : Site) (arguments line : Text) (number : Nat) :
    Except ReadFault Call := do
  let (name, date) ← contents shape site.method arguments
  return ⟨site.method.name, shape, name, date, strip line, number⟩

/-- The call of one shape on a line, with the given arguments or else those on the line itself. -/
def ofLine? (shape : Shape) (line : Text) (number : Nat) (arguments : Option Text) :
    Except ReadFault (Option Call) :=
  match shape.site? line with
  | none => .ok none
  | some site => (ofSite shape site (arguments.getD site.arguments) line number).map some

end Call

/-- The calls of a source file in the order of their lines, and the calls that could not be made
sense of. -/
structure Calls where
  found : List Call
  errors : List CallError
deriving DecidableEq, Repr

namespace Calls

/-- The table of shapes and whether arguments are completed from the following lines. -/
structure Options where
  shapes : List Shape
  joined : Bool

def Options.standard : Options := ⟨Shape.all, true⟩

/-- The outcome at one line with the given number and the lines that follow it; nothing if the
line has no call. -/
def atLine (options : Options) (number : Nat) (line : Text) (following : List Text) :
    Option (Except ReadFault Call) :=
  if Arguments.isComment (stripStart line) then none
  else (firstSite? options.shapes line).map fun (shape, site) =>
    let arguments :=
      if options.joined then Arguments.complete options.shapes site.arguments following
      else site.arguments
    Call.ofSite shape site arguments line number

/-- The calls of lines that are numbered from the given number on. -/
def ofLines (options : Options) (number : Nat) : List Text → Except NumberFault Calls
  | [] => .ok ⟨[], []⟩
  | line :: rest =>
      match atLine options number line rest with
      | none => ofLines options (number + 1) rest
      | some (.error (.number fault)) => .error fault
      | some (.error (.call fault)) =>
          match ofLines options (number + 1) rest with
          | .error e => .error e
          | .ok calls => .ok { calls with errors := ⟨number, fault⟩ :: calls.errors }
      | some (.ok call) =>
          match ofLines options (number + 1) rest with
          | .error e => .error e
          | .ok calls => .ok { calls with found := call :: calls.found }

def ofText (options : Options) (t : Text) : Except NumberFault Calls :=
  ofLines options 1 (lines t)

end Calls
end Almanac.Registration
