import Almanac.Strategy.Extraction

/-!
# Comparison of the strategies

Both strategies can be run over one file to see whether they agree. The catalog of the structural
strategy is chosen if it came to one that holds anything, and that of the line-pattern strategy
otherwise. What is reported are the sizes of both catalogs and the keys that only one of them
has.
-/

namespace Almanac.Strategy

open Almanac.Text Almanac.Data Almanac.Holiday Almanac.Source

/-- The names of the strategies. -/
inductive Name where
  | structural
  | linePattern
deriving DecidableEq, Repr

def Name.text : Name → Text
  | structural => "structural"
  | linePattern => "line_pattern"

/-- What a comparison of the strategies shows. -/
structure Comparison where
  structuralCount : Nat
  linePatternCount : Nat
  chosen : Name
  /-- The keys that only one of the catalogs has, in order. -/
  differing : List Text
  /-- Why the structural strategy came to no catalog, if it did not. -/
  structuralError : Option Text
deriving DecidableEq, Repr

namespace Comparison

def differingKeys (first second : Catalog) : List Text :=
  Text.sort (first.keys.filter (fun key => !second.has key)
    ++ second.keys.filter fun key => !first.has key)

/-- The chosen catalog and the comparison, from the catalogs of both strategies; `error` tells why
the structural one is missing, in which case its catalog is empty. -/
def choose (error : Option Text) (structural linePattern : Catalog) : Catalog × Comparison :=
  let chosen := if error.isNone && !structural.isEmpty then Name.structural else Name.linePattern
  let catalog := match chosen with
    | .structural => structural
    | .linePattern => linePattern
  (catalog, {
    structuralCount := structural.length
    linePatternCount := linePattern.length
    chosen := chosen
    differing := differingKeys structural linePattern
    structuralError := error })

/-- The chosen catalog and the comparison, from the outcomes of both strategies. A source that the
structural strategy cannot make sense of is reported; any other fault ends the comparison, that of
the structural strategy first. -/
def ofOutcomes (structural linePattern : Except Fault Catalog) :
    Except Fault (Catalog × Comparison) :=
  match structural with
  | .error (.unreadable line reason) =>
      linePattern.map fun catalog =>
        choose (some (Fault.unreadable line reason).message) [] catalog
  | .error e => .error e
  | .ok first => linePattern.map fun second => choose none first second

def ofText (rules : List TokenRule) (policy : CollisionPolicy) (t : Text) :
    Except Fault (Catalog × Comparison) :=
  ofOutcomes (structural rules policy t).outcome (linePattern policy t).outcome

end Comparison
end Almanac.Strategy
