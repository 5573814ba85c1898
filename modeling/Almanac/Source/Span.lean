import Almanac.Source.Outline

/-!
# Spans of classes

Each class of a source file spans the lines from its declaration to the line before the next
declaration, and the last one spans the rest of the file. The spans of classes that are declared on
one line, the last of them apart, hold no line at all.
-/

namespace Almanac.Source

/-- Lines from a first to a last one, both included; empty if the last comes before the first. -/
structure Span where
  first : Int
  last : Int
deriving DecidableEq, Repr

namespace Span

def holds (span : Span) (line : Int) : Bool :=
  span.first ≤ line && line ≤ span.last

/-- The spans that begin at the given lines, which are in order; the last span ends with the file's
last line. -/
def between (last : Int) : List Int → List Span
  | [] => []
  | [start] => [⟨start, last⟩]
  | start :: next :: rest => ⟨start, next - 1⟩ :: between last (next :: rest)

/-- The spans of declarations on the given lines, in whatever order these come. -/
def ofDeclarations (lines : List Int) (last : Int) : List Span :=
  between last (lines.mergeSort fun a b => a ≤ b)

end Span

/-- The spans of the classes of an outline in a file with the given number of lines. -/
def Outline.spans (outline : Outline) (last : Int) : List Span :=
  Span.ofDeclarations (outline.classes.map fun c => (c.line : Int)) last

end Almanac.Source
