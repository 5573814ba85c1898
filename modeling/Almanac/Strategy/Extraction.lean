import Almanac.Holiday.Catalog
import Almanac.Registration.Call
import Almanac.Source.Span

/-!
# Strategies of extraction

There are two ways from a source file to a catalog. The line-pattern strategy takes every
registration call of the file. The structural strategy takes the calls within classes only, and
gives up if the file's outline holds no class. Both run the same converter over their calls.
-/

namespace Almanac.Strategy

open Almanac.Text Almanac.Holiday Almanac.Source Almanac.Registration

/-- Why a strategy came to no catalog. -/
inductive Fault where
  /-- The source cannot be made sense of at a line; another strategy may still succeed. -/
  | unreadable (line : Nat) (reason : Text)
  | number (fault : NumberFault)
  /-- Two different definitions have this key. -/
  | collision (key : Text)
deriving DecidableEq, Repr

namespace Fault

/-- The fault of a source without a class. -/
def noClass : Fault := unreadable 0 "no class definition recovered"

def ofCatalog : Catalog.Fault → Fault
  | .number fault => number fault
  | .collision key => collision key

def message : Fault → Text
  | unreadable line reason => "Line " ++ Text.ofNat line ++ ": " ++ reason
  | number fault => fault.message
  | collision key => "Conflicting holiday definitions for key '" ++ key ++ "'"

end Fault

/-- A call as the announcement of a holiday. -/
def announcement (call : Call) : Announcement :=
  ⟨call.name, call.date⟩

def catalogOf (policy : CollisionPolicy) (calls : List Call) : Except Fault Catalog :=
  (Catalog.ofAnnouncements policy (calls.map announcement)).mapError Fault.ofCatalog

/-- A run of the line-pattern strategy: the calls that could not be made sense of, and the
outcome. -/
structure LinePatternRun where
  errors : List CallError
  outcome : Except Fault Catalog

/-- The line-pattern strategy. -/
def linePattern (policy : CollisionPolicy) (t : Text) : LinePatternRun :=
  match Calls.ofText .standard t with
  | .error e => ⟨[], .error (.number e)⟩
  | .ok calls => ⟨calls.errors, catalogOf policy calls.found⟩

/-- A run of the structural strategy: how many characters no token took, the headers and the calls
that could not be made sense of, and the outcome. -/
structure StructuralRun where
  skipped : Nat
  headerErrors : List HeaderError
  errors : List CallError
  outcome : Except Fault Catalog

def within (spans : List Span) (call : Call) : Bool :=
  spans.any fun span => span.holds call.line

def structural (rules : List TokenRule) (policy : CollisionPolicy) (t : Text) : StructuralRun :=
  let stream := TokenStream.ofText rules t
  let outline := Outline.ofTokens stream.tokens
  if outline.classes.isEmpty then ⟨stream.skipped, outline.errors, [], .error .noClass⟩
  else match Calls.ofText .standard t with
    | .error e => ⟨stream.skipped, outline.errors, [], .error (.number e)⟩
    | .ok calls =>
        let spans := outline.spans (lines t).length
        ⟨stream.skipped, outline.errors, calls.errors,
          catalogOf policy (calls.found.filter (within spans))⟩

/-- The catalog of a source file, and why the structural strategy did not give it if the
line-pattern strategy had to. -/
def extract (t : Text) : Except Fault (Catalog × Option Text) :=
  match (structural TokenRule.all .suffix t).outcome with
  | .error (.unreadable line reason) =>
      (linePattern .suffix t).outcome.map fun catalog =>
        (catalog, some (Fault.unreadable line reason).message)
  | .error e => .error e
  | .ok [] =>
      (linePattern .suffix t).outcome.map fun catalog => (catalog, some "no definitions found")
  | .ok catalog => .ok (catalog, none)

end Almanac.Strategy
