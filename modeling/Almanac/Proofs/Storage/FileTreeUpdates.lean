import Almanac.Proofs.Outcome
import Almanac.Storage.FileTree
import Mathlib.Tactic.SplitIfs

/-!
# Files and directories that were made

What is put at a path is found there, since a path leads to the same place as long as the
directories on the way stay; and a path to which a directory was made leads to a directory.
-/

namespace Almanac.Storage.FileTree

open Almanac.Data

/-- Every directory of the tree is one of the wider tree. -/
def KeepsDirectories (tree wider : FileTree) : Prop :=
  ∀ place, tree.node? place = some .directory → wider.node? place = some .directory

theorem follow_mono {tree wider : FileTree} (hwider : tree.KeepsDirectories wider)
    {steps : List Text} {start last : Place} (hfollow : tree.follow start steps = .ok last) :
    wider.follow start steps = .ok last := by
  induction steps generalizing start with
  | nil => exact hfollow
  | cons step rest ih =>
      unfold follow at hfollow ⊢
      cases hnode : tree.node? start with
      | none => simp [hnode] at hfollow
      | some node =>
          cases node with
          | file bytes => simp [hnode] at hfollow
          -- a step is only ever made from a directory, which the wider tree has as well
          | directory =>
              rw [hnode] at hfollow
              rw [hwider start hnode]
              exact ih hfollow

theorem resolve_mono {tree wider : FileTree} (hwider : tree.KeepsDirectories wider) {path : Path}
    {place : Place} (hplace : tree.resolve path = .ok place) :
    wider.resolve path = .ok place :=
  follow_mono hwider hplace

/-- Further steps lead on from where the first ones lead to. -/
@[simp] theorem follow_append (tree : FileTree) (steps more : List Text) (start : Place) :
    tree.follow start (steps ++ more) =
      (tree.follow start steps).bind fun last => tree.follow last more := by
  induction steps generalizing start with
  | nil => rfl
  | cons step rest ih =>
      rw [List.cons_append, follow, follow]
      cases tree.node? start with
      | none => rfl
      | some node =>
          cases node with
          | file bytes => rfl
          | directory => exact ih _

/-- One further step leads on from a directory. -/
theorem resolve_concat {tree : FileTree} {path : Path} {place : Place}
    (hplace : tree.resolve path = .ok place) (hdirectory : tree.node? place = some .directory)
    (step : Text) :
    tree.resolve ⟨path.root, path.steps ++ [step]⟩ = .ok (place.step step) := by
  unfold resolve at hplace ⊢
  rw [follow_append, hplace]
  simp [Except.bind, follow, hdirectory]

theorem resolve_concat_of_missing {tree : FileTree} {path : Path} {place : Place}
    (hplace : tree.resolve path = .ok place) (hmissing : tree.node? place = none) (step : Text) :
    tree.resolve ⟨path.root, path.steps ++ [step]⟩ = .error .missing := by
  unfold resolve at hplace ⊢
  rw [follow_append, hplace]
  simp [Except.bind, follow, hmissing]

/-! ## What is at a place -/

section Insert

variable {tree : FileTree} {place : Place} (node : Node)
  (hparent : tree.node? place.dropLast = some .directory)
  (hfree : tree.node? place ≠ some .directory)

/-- What was put at a place is there, and nothing else has changed. -/
@[simp] theorem node?_insert (other : Place) : (tree.insert place node hparent hfree).node? other =
    if place = other then some node else tree.node? other :=
  nodeAt?_put hfree node other

theorem keepsDirectories_insert :
    tree.KeepsDirectories (tree.insert place node hparent hfree) := by
  intro other hother
  rw [node?_insert]
  split_ifs with heq
  · subst heq
    exact absurd hother hfree
  · exact hother

end Insert

/-- There is nothing in a directory that is not there. -/
theorem node?_concat_of_missing (tree : FileTree) {place : Place}
    (hmissing : tree.node? place = none) (step : Text) : tree.node? (place ++ [step]) = none := by
  cases hnode : tree.node? (place ++ [step]) with
  | none => rfl
  | some node =>
      have hparent := tree.node?_parent hnode
      rw [List.dropLast_concat, hmissing] at hparent
      cases hparent

/-! ## Files -/

/-- A node can be put where a path leads, unless there is a directory. -/
theorem putNode_of_resolve {tree : FileTree} {path : Path} {place : Place}
    (hplace : tree.resolve path = .ok place) (hfree : tree.node? place ≠ some .directory)
    (node : Node) :
    tree.putNode path node = .ok (tree.insert place node (tree.node?_resolve hplace) hfree) := by
  unfold putNode
  split
  next hproblem => rw [hplace] at hproblem; cases hproblem
  next other hother =>
    obtain rfl := Except.ok.inj (hplace.symm.trans hother)
    rw [dif_neg hfree]

/-- A node that could be put was put where its path leads to, and no directory was there. -/
theorem of_putNode {tree next : FileTree} {path : Path} {node : Node}
    (hput : tree.putNode path node = .ok next) :
    ∃ (place : Place) (hplace : tree.resolve path = .ok place)
      (hfree : tree.node? place ≠ some .directory),
      next = tree.insert place node (tree.node?_resolve hplace) hfree := by
  unfold putNode at hput
  split at hput
  next => cases hput
  next place hplace =>
    split_ifs at hput with hfree
    exact ⟨place, hplace, hfree, (Except.ok.inj hput).symm⟩

/-- The bytes that were put at a path are read there. -/
theorem bytes_insert {tree : FileTree} {path : Path} {place : Place}
    (hplace : tree.resolve path = .ok place) (hfree : tree.node? place ≠ some .directory)
    (content : List UInt8) :
    (tree.insert place (.file content) (tree.node?_resolve hplace) hfree).bytes path =
      .ok content := by
  unfold bytes
  rw [resolve_mono (keepsDirectories_insert _ _ hfree) hplace]
  dsimp only [bind, Except.bind]
  rw [node?_insert, if_pos rfl]

/-! ## Directories -/

theorem isDirectory_iff (tree : FileTree) (path : Path) : tree.isDirectory path = true ↔
    ∃ place, tree.resolve path = .ok place ∧ tree.node? place = some .directory := by
  unfold isDirectory at?
  cases hplace : tree.resolve path with
  | error problem => simp
  | ok place => simp

/-- A directory that could be made is put where there was nothing. -/
theorem of_makeDirectory {tree made : FileTree} {path : Path}
    (hmade : tree.makeDirectory path = .ok made) :
    ∃ (place : Place) (hplace : tree.resolve path = .ok place)
      (hfree : tree.node? place ≠ some .directory), tree.node? place = none ∧
      made = tree.insert place .directory (tree.node?_resolve hplace) hfree := by
  unfold makeDirectory at hmade
  split_ifs at hmade with hfound
  obtain ⟨place, hplace, hfree, rfl⟩ := of_putNode hmade
  refine ⟨place, hplace, hfree, ?_, rfl⟩
  simpa [contains, at?, hplace] using hfound

theorem isDirectory_of_makeDirectory {tree made : FileTree} {path : Path}
    (hmade : tree.makeDirectory path = .ok made) : made.isDirectory path = true := by
  obtain ⟨place, hplace, hfree, -, rfl⟩ := of_makeDirectory hmade
  refine (isDirectory_iff _ path).mpr ⟨place, ?_, ?_⟩
  · exact resolve_mono (keepsDirectories_insert _ _ hfree) hplace
  · rw [node?_insert, if_pos rfl]

/-- A directory that is made leaves all files as they are. -/
theorem files_of_makeDirectory {tree made : FileTree} {path : Path}
    (hmade : tree.makeDirectory path = .ok made) : made.files = tree.files := by
  obtain ⟨place, -, -, hnode, rfl⟩ := of_makeDirectory hmade
  have hfree : tree.nodes.get? place = none := by
    unfold node? nodeAt? at hnode
    split at hnode
    next => cases hnode
    next => exact hnode
  simp [files, insert, Entries.put_of_get?_eq_none hfree]

/-- A directory that is made is empty: what was looked for in it was not there, and is not
there. -/
theorem at?_concat_of_makeDirectory {tree made : FileTree} {path : Path}
    (hmade : tree.makeDirectory path = .ok made) {step : Text} (hstep : step ≠ backStep) :
    tree.at? ⟨path.root, path.steps ++ [step]⟩ = none ∧
      made.at? ⟨path.root, path.steps ++ [step]⟩ = none := by
  obtain ⟨place, hplace, hfree, hmissing, rfl⟩ := of_makeDirectory hmade
  constructor
  · rw [at?, resolve_concat_of_missing hplace hmissing]
  · have hdirectory := node?_insert .directory (tree.node?_resolve hplace) hfree place
    rw [if_pos rfl] at hdirectory
    have hother : place ≠ place ++ [step] := by simp
    rw [at?, resolve_concat (resolve_mono (keepsDirectories_insert _ _ hfree) hplace) hdirectory,
      Place.step, if_pos hstep]
    dsimp only
    rw [node?_insert, if_neg hother]
    exact tree.node?_concat_of_missing hmissing step

/-- A directory is made unless it is there already. -/
theorem of_ensureLast {tree made : FileTree} {path : Path}
    (hmade : tree.ensureLast path = (made, none)) :
    tree.makeDirectory path = .ok made ∨ tree.isDirectory path = true ∧ made = tree := by
  unfold ensureLast at hmade
  split at hmade
  next made' hmake =>
    obtain ⟨rfl, -⟩ := Prod.mk.inj hmade
    exact .inl hmake
  next =>
    split at hmade
    next hdirectory =>
      obtain ⟨rfl, -⟩ := Prod.mk.inj hmade
      exact .inr ⟨hdirectory, rfl⟩
    next => cases hmade

theorem isDirectory_of_ensureLast {tree made : FileTree} {path : Path}
    (hmade : tree.ensureLast path = (made, none)) : made.isDirectory path = true := by
  rcases of_ensureLast hmade with hmake | ⟨hdirectory, rfl⟩
  · exact isDirectory_of_makeDirectory hmake
  · exact hdirectory

theorem isDirectory_of_ensureSteps {tree made : FileTree} {root : Text} {reversed : List Text}
    (hmade : tree.ensureSteps root reversed = (made, none)) :
    made.isDirectory ⟨root, reversed.reverse⟩ = true := by
  cases reversed with
  | nil => exact isDirectory_of_ensureLast hmade
  | cons step before =>
      unfold ensureSteps at hmade
      dsimp only at hmade
      split at hmade
      next =>
        split at hmade
        next => cases hmade
        next => exact isDirectory_of_ensureLast hmade
      next => exact isDirectory_of_ensureLast hmade

/-- Where a directory could be made there is one. -/
theorem isDirectory_of_ensureDirectory {tree made : FileTree} {path : Path}
    (hmade : tree.ensureDirectory path = (made, none)) : made.isDirectory path = true := by
  have hsteps := isDirectory_of_ensureSteps hmade
  rwa [List.reverse_reverse] at hsteps

end Almanac.Storage.FileTree
