import Almanac.Data.Entries
import Almanac.Storage.Path
import Almanac.Text.Quoted
import Almanac.Failure

/-!
# Trees of files

A tree of files as a path is resolved in it: step by step, each step from a directory that is
there, two dots leading back. Every place is named by the steps that lead to it straight from the
working directory; places above it begin with two dots, and those under a root begin with that
root. What is not in the tree is not there, the places from which paths start apart; and whatever is
in it is in a directory of it. A path leads to a place in a directory, so this stays so when
something is put there.
-/

namespace Almanac.Storage

open Almanac.Text Almanac.Data

/-- What is at a place of a tree. -/
inductive Node where
  | directory
  | file (bytes : List UInt8)
deriving DecidableEq, Repr

/-- A place in a tree: the steps that lead to it, none of them leading back but the first ones. -/
abbrev Place := List Text

/-- Why a file operation fails. -/
inductive PathProblem where
  | missing
  | occupied
  | notDirectory
  | isDirectory
deriving DecidableEq, Repr

namespace PathProblem

def mishap (path : Path) (problem : PathProblem) : Mishap :=
  let shown := WideText.quoted path.toText
  match problem with
  | missing => ⟨"FileNotFoundError", "[Errno 2] No such file or directory: " ++ shown⟩
  | occupied => ⟨"FileExistsError", "[Errno 17] File exists: " ++ shown⟩
  | notDirectory => ⟨"NotADirectoryError", "[Errno 20] Not a directory: " ++ shown⟩
  | isDirectory => ⟨"IsADirectoryError", "[Errno 21] Is a directory: " ++ shown⟩

end PathProblem

/-- The step that leads back. -/
def backStep : Text := ".."

/-- The places of the two roots. -/
def Place.roots : List Place := [["/".toList], ["//".toList]]

/-- Do paths start from the place, or from one above the working directory? -/
def Place.isStart (place : Place) : Bool :=
  place ∈ Place.roots || place.all (· = backStep)

def Place.step (place : Place) (step : Text) : Place :=
  if step ≠ backStep then place ++ [step]
  else if place ∈ Place.roots then place
  else if place.isStart then place ++ [backStep]
  else place.dropLast

/-- The written form of a place, as seen from the working directory. -/
def Place.toText (place : Place) : Text :=
  match place with
  | [] => "."
  | root :: steps => if [root] ∈ Place.roots then root ++ join "/" steps else join "/" place

/-- One step back from where paths start they start as well. -/
theorem Place.isStart_dropLast {place : Place} (h : place.isStart = true) :
    Place.isStart place.dropLast = true := by
  simp only [Place.isStart, Bool.or_eq_true, decide_eq_true_eq] at h
  rcases h with hroot | hback
  · have hroots : ∀ root ∈ Place.roots, Place.isStart root.dropLast = true := by decide
    exact hroots place hroot
  · refine Bool.or_eq_true_iff.mpr (.inr (List.all_eq_true.mpr fun step hstep => ?_))
    exact List.all_eq_true.mp hback step (List.dropLast_subset place hstep)

/-- What is at a place where nodes are at places; where paths start there is a directory. -/
def nodeAt? (nodes : Entries Place Node) (place : Place) : Option Node :=
  if place.isStart then some .directory else nodes.get? place

/-- A tree of files. -/
structure FileTree where
  nodes : Entries Place Node
  connected : ∀ place ∈ nodes.keys, nodeAt? nodes place.dropLast = some .directory
deriving DecidableEq

namespace FileTree

def empty : FileTree := ⟨[], by decide⟩

def node? (tree : FileTree) (place : Place) : Option Node :=
  nodeAt? tree.nodes place

theorem node?_of_isStart (tree : FileTree) {place : Place} (h : place.isStart = true) :
    tree.node? place = some .directory :=
  if_pos h

theorem node?_parent (tree : FileTree) {place : Place} {node : Node}
    (hnode : tree.node? place = some node) : tree.node? place.dropLast = some .directory := by
  unfold node? nodeAt? at hnode
  split at hnode
  next hstart => exact tree.node?_of_isStart (Place.isStart_dropLast hstart)
  next =>
    exact tree.connected place (List.mem_map.mpr ⟨_, Entries.mem_of_get?_eq_some hnode, rfl⟩)

/-! ## What is put at a place -/

/-- What was put at a place is there, and nothing else has changed. -/
theorem nodeAt?_put {nodes : Entries Place Node} {place : Place}
    (hplace : nodeAt? nodes place ≠ some .directory) (node : Node) (other : Place) :
    nodeAt? (nodes.put place node) other =
      if place = other then some node else nodeAt? nodes other := by
  unfold nodeAt?
  rw [Entries.get?_put]
  by_cases hother : place = other
  · subst hother
    -- where paths start there is a directory, whatever was put there
    by_cases hstart : place.isStart = true
    · exact absurd (if_pos hstart) hplace
    · rw [if_neg hstart, if_pos rfl, if_pos rfl]
  · rw [if_neg hother, if_neg hother]

/-- The tree with a node at a place in a directory, where there may be anything but a directory. -/
def insert (tree : FileTree) (place : Place) (node : Node)
    (hparent : tree.node? place.dropLast = some .directory)
    (hfree : tree.node? place ≠ some .directory) : FileTree where
  nodes := tree.nodes.put place node
  connected := by
    intro other hother
    have hdirectory : tree.node? other.dropLast = some .directory := by
      rw [Entries.keys_put] at hother
      split at hother
      next => exact tree.connected other hother
      next =>
        rcases List.mem_append.mp hother with hold | hnew
        · exact tree.connected other hold
        · obtain rfl := List.mem_singleton.mp hnew
          exact hparent
    have hplace : place ≠ other.dropLast := fun hplace => hfree (hplace ▸ hdirectory)
    rw [nodeAt?_put hfree, if_neg hplace]
    exact hdirectory

/-! ## Where paths lead to -/

/-- The place that steps lead to; all but the last one must lead to directories. -/
def follow (tree : FileTree) (place : Place) : List Text → Except PathProblem Place
  | [] => .ok place
  | step :: rest =>
      match tree.node? place with
      | none => .error .missing
      | some (.file _) => .error .notDirectory
      | some .directory => follow tree (place.step step) rest

/-- The place that a path leads to, whether anything is there or not. -/
def resolve (tree : FileTree) (path : Path) : Except PathProblem Place :=
  tree.follow (if path.root.isEmpty then [] else [path.root]) path.steps

theorem node?_step (tree : FileTree) {place : Place} (hplace : tree.node? place = some .directory)
    (step : Text) : tree.node? (place.step step).dropLast = some .directory := by
  unfold Place.step
  split
  next => rwa [List.dropLast_concat]
  next =>
    split
    next => exact tree.node?_parent hplace
    next =>
      split
      next => rwa [List.dropLast_concat]
      -- a step back leads to a directory, so there is one more behind it
      next => exact tree.node?_parent (tree.node?_parent hplace)

theorem node?_follow (tree : FileTree) {steps : List Text} {start last : Place}
    (hstart : tree.node? start.dropLast = some .directory)
    (hfollow : tree.follow start steps = .ok last) :
    tree.node? last.dropLast = some .directory := by
  induction steps generalizing start with
  | nil =>
      obtain rfl := Except.ok.inj hfollow
      exact hstart
  | cons step rest ih =>
      unfold follow at hfollow
      split at hfollow
      next => cases hfollow
      next => cases hfollow
      next hdirectory => exact ih (tree.node?_step hdirectory step) hfollow

/-- A path leads to a place in a directory, whether anything is there or not. -/
theorem node?_resolve (tree : FileTree) {path : Path} {place : Place}
    (hplace : tree.resolve path = .ok place) : tree.node? place.dropLast = some .directory := by
  refine tree.node?_follow ?_ hplace
  split <;> exact tree.node?_of_isStart rfl

def at? (tree : FileTree) (path : Path) : Option Node :=
  match tree.resolve path with
  | .ok place => tree.node? place
  | .error _ => none

def contains (tree : FileTree) (path : Path) : Bool :=
  (tree.at? path).isSome

def isFile (tree : FileTree) (path : Path) : Bool :=
  match tree.at? path with
  | some (.file _) => true
  | _ => false

def isDirectory (tree : FileTree) (path : Path) : Bool :=
  tree.at? path = some .directory

def bytes (tree : FileTree) (path : Path) : Except PathProblem (List UInt8) := do
  match tree.node? (← tree.resolve path) with
  | none => .error .missing
  | some .directory => .error .isDirectory
  | some (.file content) => .ok content

/-- The tree with a node at the path, where there may be anything but a directory. -/
def putNode (tree : FileTree) (path : Path) (node : Node) : Except PathProblem FileTree :=
  match hplace : tree.resolve path with
  | .error problem => .error problem
  | .ok place =>
      if hnode : tree.node? place = some .directory then .error .isDirectory
      else .ok (tree.insert place node (tree.node?_resolve hplace) hnode)

/-- The tree with a file at the path, where there may be a file but no directory. -/
def put (tree : FileTree) (path : Path) (content : List UInt8) : Except PathProblem FileTree :=
  tree.putNode path (.file content)

/-- The tree with a directory at the path, where nothing may be. -/
def makeDirectory (tree : FileTree) (path : Path) : Except PathProblem FileTree :=
  if tree.contains path then .error .occupied else tree.putNode path .directory

/-- The tree with a directory at the path, and what is wrong if there cannot be one. A directory
that is there already is kept. -/
def ensureLast (tree : FileTree) (path : Path) : FileTree × Option (Path × PathProblem) :=
  match tree.makeDirectory path with
  | .ok made => (made, none)
  | .error problem =>
      if tree.isDirectory path then (tree, none) else (tree, some (path, problem))

/-- The tree with a directory behind the steps, given in reverse order. Directories that are
missing on the way are made as well, and stay even if the last one cannot be made. -/
def ensureSteps (tree : FileTree) (root : Text) :
    (reversed : List Text) → FileTree × Option (Path × PathProblem)
  | [] => tree.ensureLast ⟨root, []⟩
  | step :: before =>
      let path : Path := ⟨root, (step :: before).reverse⟩
      match tree.makeDirectory path with
      | .error .missing =>
          match ensureSteps tree root before with
          | (wider, some problem) => (wider, some problem)
          | (wider, none) => wider.ensureLast path
      | _ => tree.ensureLast path

/-- The tree with a directory at the path, and what is wrong if there cannot be one. -/
def ensureDirectory (tree : FileTree) (path : Path) : FileTree × Option (Path × PathProblem) :=
  tree.ensureSteps path.root path.steps.reverse

def files (tree : FileTree) : Entries Place (List UInt8) :=
  tree.nodes.filterMap fun (place, node) =>
    match node with
    | .file content => some (place, content)
    | .directory => none

/-- What is in the second tree, but not in the first one at the same place. -/
def changes (before after : FileTree) : List (Place × Node) :=
  after.nodes.filter fun (place, node) => before.nodes.get? place ≠ some node

end FileTree
end Almanac.Storage
