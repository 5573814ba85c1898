import Almanac.Text.Basic

/-!
# Paths

A path is a root, which is empty for a relative path, and the names of the steps from there. A
written path loses its single dots and its doubled and trailing slashes, while double dots stay,
since what they lead to depends on the files.
-/

namespace Almanac.Storage

open Almanac.Text

/-- A path to a file or a directory. -/
structure Path where
  /-- Empty for a relative path; two slashes are a root of their own. -/
  root : Text
  steps : List Text
deriving DecidableEq, Repr

namespace Path

/-- The root that a written path begins with: no more than two slashes count as they are. -/
def rootOf (t : Text) : Text :=
  match (t.takeWhile (· = '/')).length with
  | 0 => ""
  | 2 => "//"
  | _ => "/"

def ofText (t : Text) : Path :=
  ⟨rootOf t, (pieces '/' t).filter fun step => !step.isEmpty && step ≠ ['.']⟩

def toText (path : Path) : Text :=
  if path.root.isEmpty && path.steps.isEmpty then "."
  else path.root ++ join "/" path.steps

/-- The second path as seen from the first, or the second alone if it has a root. -/
def append (first second : Path) : Path :=
  if second.root.isEmpty then ⟨first.root, first.steps ++ second.steps⟩ else second

def parent (path : Path) : Path :=
  ⟨path.root, path.steps.dropLast⟩

/-- The paths from the first step of a path to its last. -/
def stages (path : Path) : List Path :=
  (List.range path.steps.length).map fun n => ⟨path.root, path.steps.take (n + 1)⟩

end Path
end Almanac.Storage
