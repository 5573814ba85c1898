import Almanac.Display.Progress

/-!
# What the display shows of a batch

A display tells its board about a country that was done and about the end of the work. With a lawful
drawer such a report changes the task that it is about and no other, and nothing goes wrong as long
as the task is on the board. So a display that takes the start of a batch takes every step of it.
Its task has the number of entries as its total, advances by one with every completion, and ends
with the tally as what is completed.
-/

namespace Almanac.Display

open Almanac.Text Almanac.Batch

/-- Boards that are lists of tasks keep the laws. -/
theorem Drawer.isLawful_plain : Drawer.plain.IsLawful where
  create _ _ := rfl
  enter _ _ := rfl
  leave _ _ := rfl
  add_ok := by
    rintro (board : List Task) - description total number board' - ⟨⟩
    refine ⟨List.getElem?_eq_none (Nat.le_refl _), funext fun other => ?_⟩
    change (board ++ [_])[other]? = if other = board.length then _ else board[other]?
    grind
  add_error := by
    intro _ _ _ _ mishap _ _ _ _ hadd
    cases congrArg Prod.fst hadd
  update_known := by
    intro (board : List Task) number task _ update (htask : board[number]? = some task)
    obtain ⟨hlt, -⟩ := List.getElem?_eq_some_iff.mp htask
    simp only [plain, htask, true_and]
    funext other
    grind
  update_unknown := by
    intro (board : List Task) number _ update (hnone : board[number]? = none)
    simp only [plain, hnone]

namespace Progress

variable {drawer : Drawer} {progress : Progress drawer}

/-! ## Reports -/

/-- A report on the work, with its name, the failures in it, and what it sets about the task if
there are some number of failures up to it. -/
inductive Step.Reports : Step → Text → Nat → (Nat → Update) → Prop
  | success (code : Text) :
      Reports (.done code false) "on_country_done" 0 fun _ =>
        { description := some (styled ("Synced " ++ code) .inProgress), advance := some 1 }
  | failure (code : Text) :
      Reports (.done code true) "on_country_done" 1 fun failed =>
        { description := some (styled ("Failed " ++ code ++ " (" ++ Text.ofNat failed
            ++ " failed so far)") .warning), advance := some 1 }
  | completion (succeeded failed : Int) :
      Reports (.complete succeeded failed) "on_complete" 0 fun _ =>
        { description := some (styled ("Synced " ++ ofInt succeeded ++ " countries, "
            ++ ofInt failed ++ " failed") (.ofTally succeeded failed)),
          completed := some (succeeded + failed) }

theorem step_report (progress : Progress drawer) {step : Step} {method : Text} {failures : Nat}
    {update : Nat → Update} (h : step.Reports method failures update) :
    progress.step step = match progress.require method with
      | .error fault => (progress, some fault)
      | .ok (board, number) =>
          let failed := progress.failed + failures
          { progress with failed := failed }.drawn
            (drawer.update board progress.console number (update failed)) := by
  cases h <;> rfl

/-- A report on a task that is on the board changes that task and no other. -/
theorem report_of_known (hlawful : drawer.IsLawful) {step : Step} {method : Text} {failures : Nat}
    {update : Nat → Update} (h : step.Reports method failures update) {number : Nat} {task : Task}
    (hnumber : progress.task = some number) (htask : progress.task? number = some task) :
    ∃ next, progress.step step = (next, none) ∧ next.task = some number ∧
      next.failed = progress.failed + failures ∧
      next.task? number = some ((update next.failed).apply task) ∧
      ∀ other ≠ number, next.task? other = progress.task? other := by
  obtain ⟨board, hboard, htask⟩ := Option.bind_eq_some_iff.mp htask
  obtain ⟨hok, hupdated⟩ :=
    hlawful.update_known progress.console (update (progress.failed + failures)) htask
  have hrequire : progress.require method = .ok (board, number) := by
    rw [require, hboard, hnumber]
  rw [step_report progress h, hrequire]
  refine ⟨_, Prod.ext rfl ?_, hnumber, rfl, ?_, fun other hother => ?_⟩
  · simp only [drawn, hok]
  · simp only [drawn, task?, Option.bind_some, hupdated, if_true]
  · simp only [drawn, task?, hboard, Option.bind_some, hupdated, if_neg hother]

/-! ## Starts -/

/-- What can come of a start. Either the display was not entered, or a task is added, or the drawer
refuses to add one. -/
theorem start_cases (hlawful : drawer.IsLawful) (progress : Progress drawer) (total : Option Int) :
    (progress.board = none ∧ progress.step (.start total) = (progress, some .notEntered)) ∨
    (∃ board number next, progress.board = some board ∧
      (drawer.start board progress.console "Syncing countries" total).1 = .ok number ∧
      progress.step (.start total) = (next, none) ∧ next.task = some number ∧ next.failed = 0 ∧
      progress.task? number = none ∧
      next.task? number = some ⟨styled "Syncing countries" .inProgress, total, 0⟩ ∧
      ∀ other ≠ number, next.task? other = progress.task? other) ∨
    ∃ board mishap next, progress.board = some board ∧
      (drawer.start board progress.console "Syncing countries" total).1 = .error mishap ∧
      progress.step (.start total) = (next, some (.board mishap)) ∧ next.board.isSome ∧
      next.task = progress.task ∧ next.failed = 0 ∧
      ∀ number task, progress.task? number = some task → next.task? number = some task := by
  cases hboard : progress.board with
  | none => exact .inl ⟨rfl, by rw [Progress.step, start, hboard]⟩
  | some board =>
      rcases hadd : drawer.start board progress.console "Syncing countries" total with
        ⟨outcome, board', console'⟩
      simp only [Progress.step, start, hboard, hadd, task?, Option.bind_some]
      cases outcome with
      | ok number =>
          obtain ⟨hnew, hadded⟩ := hlawful.add_ok hadd
          refine .inr (.inl ⟨board, number, _, rfl, by rw [hadd], rfl, rfl, rfl, hnew, ?_,
            fun other hother => ?_⟩)
          · simp only [Option.bind_some, hadded, if_true]
          · simp only [Option.bind_some, hadded, if_neg hother]
      | error mishap =>
          exact .inr (.inr ⟨board, mishap, _, rfl, by rw [hadd], rfl, rfl, rfl, rfl,
            fun _ _ => hlawful.add_error hadd⟩)

/-! ## Batches -/

/-- The display shows its task with a total and what is completed of it. -/
def Shows (progress : Progress drawer) (total completed : Int) : Prop :=
  ∃ number task, progress.task = some number ∧ progress.task? number = some task ∧
    task.total = some total ∧ task.completed = completed

theorem tell_start (hlawful : drawer.IsLawful) {total : Nat}
    (htaken : (progress.tell (.start total)).2 = none) :
    ∃ next, progress.tell (.start total) = (next, none) ∧ next.Shows total 0 := by
  obtain ⟨-, hstep⟩ | ⟨_, number, next, -, -, hstep, hnumber, -, -, htask, -⟩ |
    ⟨_, mishap, next, -, -, hstep, -⟩ := start_cases hlawful progress (some (total : Int))
  · cases htaken.symm.trans (congrArg Prod.snd hstep)
  · exact ⟨next, hstep, number, _, hnumber, htask, rfl, rfl⟩
  · cases htaken.symm.trans (congrArg Prod.snd hstep)

/-- After a report the display shows what the report sets. -/
theorem Shows.report (hlawful : drawer.IsLawful) {total completed completed' : Int}
    (h : progress.Shows total completed) {step : Step} {method : Text} {failures : Nat}
    {update : Nat → Update} (hreports : step.Reports method failures update)
    (hkeeps : ∀ failed, (update failed).total = none)
    (hsets : ∀ failed task, task.completed = completed →
      ((update failed).apply task).completed = completed') :
    ∃ next, progress.step step = (next, none) ∧ next.Shows total completed' := by
  obtain ⟨number, task, hnumber, htask, htotal, hcompleted⟩ := h
  obtain ⟨next, hstep, hnumber', -, htask', -⟩ := report_of_known hlawful hreports hnumber htask
  refine ⟨next, hstep, number, _, hnumber', htask', ?_, hsets _ _ hcompleted⟩
  simp only [Update.apply, hkeeps, Option.none_or, htotal]

theorem Shows.tell_done (hlawful : drawer.IsLawful) {total completed : Int}
    (h : progress.Shows total completed) (code : Text) (error : Option WideText) :
    ∃ next, progress.tell (.done code error) = (next, none) ∧
      next.Shows total (completed + 1) := by
  cases error with
  | none => exact h.report hlawful (.success code) (fun _ => rfl) fun _ _ h => by rw [← h]; rfl
  | some message =>
      exact h.report hlawful (.failure code) (fun _ => rfl) fun _ _ h => by rw [← h]; rfl

/-- The display of a batch that is under way shows how many entries are completed. -/
theorem Shows.follow_dones (hlawful : drawer.IsLawful) {total completed : Int}
    (h : progress.Shows total completed) (completions : List Completion) (events : List Event) :
    ∃ next : Progress drawer,
      progress.follow (completions.map Completion.event ++ events) = next.follow events ∧
      next.Shows total (completed + completions.length) := by
  induction completions generalizing progress completed with
  | nil => exact ⟨progress, rfl, by simpa using h⟩
  | cons completion completions ih =>
      obtain ⟨code, error, hevent⟩ : ∃ code error, completion.event = .done code error := by
        unfold Completion.event
        split <;> exact ⟨_, _, rfl⟩
      obtain ⟨next, htell, hnext⟩ := h.tell_done hlawful code error
      obtain ⟨last, hfollow, hlast⟩ := ih hnext
      refine ⟨last, ?_, ?_⟩
      · rw [List.map_cons, List.cons_append, follow, hevent, htell, ← hfollow]
      · have hcount : completed + ((completion :: completions).length : Int) =
            completed + 1 + completions.length := by
          rw [List.length_cons]
          omega
        rwa [hcount]

/-- A display that takes the start of a batch takes every step of it, and ends with the tally. -/
theorem follow_batch (hlawful : drawer.IsLawful) {total : Nat}
    (htaken : (progress.tell (.start total)).2 = none) (completions : List Completion)
    (succeeded failed : Nat) :
    ∃ next, progress.follow (.start total :: completions.map Completion.event ++
        [.complete succeeded failed]) = (next, none) ∧
      next.Shows total (succeeded + failed) := by
  obtain ⟨started, hstart, hstarted⟩ := tell_start hlawful htaken
  obtain ⟨underway, hdones, hunderway⟩ :=
    hstarted.follow_dones hlawful completions [.complete succeeded failed]
  obtain ⟨next, hcomplete, hnext⟩ :=
    hunderway.report hlawful (.completion succeeded failed) (fun _ => rfl) fun _ _ _ => rfl
  refine ⟨next, ?_, hnext⟩
  rw [List.cons_append, follow, hstart]
  dsimp only
  rw [hdones, follow, tell, ← Progress.step, hcomplete]
  rfl

/-- A display of boards that are lists of tasks takes the start of a batch if it was entered. -/
theorem tell_start_plain {progress : Progress Drawer.plain}
    (hentered : progress.board.isSome = true) (total : Nat) :
    (progress.tell (.start total)).2 = none := by
  obtain ⟨board, hboard⟩ := Option.isSome_iff_exists.mp hentered
  rw [tell, start, hboard]
  rfl

end Progress
end Almanac.Display
