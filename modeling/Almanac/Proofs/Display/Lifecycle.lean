import Almanac.Proofs.Display.FollowedBatches
import Almanac.Proofs.Splits
import Mathlib.Data.List.Induction

/-!
# The life of a display

What a display answers to a step depends on the steps before it: whether it was entered, whether a
start was ever taken, and whether a start was taken since it was last entered. Each of these holds
since a step of one kind until a step of another kind, and each shows in the display. Entering
brings a fresh board but keeps the number of the task, so a display that was entered again reports
on a task that is not on the board until the task is started again. All this is so for every lawful
drawer, whatever may go wrong with drawing.
-/

namespace Almanac.Display.Progress

open Almanac.Text

/-! ## What came before -/

/-- A step was taken, and since then none that undoes it. -/
def Since (taken : List Step → Step → Prop) (undoes : Step → Bool) (steps : List Step) : Prop :=
  ∃ before step since, steps = before ++ step :: since ∧ taken before step ∧
    ∀ later ∈ since, ¬ undoes later

@[simp] theorem since_nil {taken : List Step → Step → Prop} {undoes : Step → Bool} :
    ¬ Since taken undoes [] := by
  rintro ⟨before, step, since, hsteps, -, -⟩
  simp at hsteps

theorem since_concat {taken : List Step → Step → Prop} {undoes : Step → Bool} {steps : List Step}
    {step : Step} : Since taken undoes (steps ++ [step]) ↔
      taken steps step ∨ ¬ undoes step ∧ Since taken undoes steps := by
  refine (exists_split_concat_iff steps step _).trans (or_congr ?_ ?_)
  · exact and_iff_left (List.forall_mem_nil _)
  · simp only [List.forall_mem_append, List.forall_mem_singleton]
    constructor
    · rintro ⟨before, mark, since, hsteps, htaken, hnone, hstep⟩
      exact ⟨hstep, before, mark, since, hsteps, htaken, hnone⟩
    · rintro ⟨hstep, before, mark, since, hsteps, htaken, hnone⟩
      exact ⟨before, mark, since, hsteps, htaken, hnone, hstep⟩

namespace Step

def isNew : Step → Bool
  | new => true
  | _ => false

def isStart : Step → Bool
  | start _ => true
  | _ => false

/-- Does the step bring another board? -/
def clears : Step → Bool
  | new | enter => true
  | _ => false

def isDone : Step → Bool
  | done .. => true
  | _ => false

def isFailure : Step → Bool
  | done _ failed => failed
  | _ => false

def isCompletion : Step → Bool
  | complete .. => true
  | _ => false

/-- A step is another display, an entry, an exit, a start, or a report. -/
theorem cases_reports (step : Step) :
    step = .new ∨ step = .enter ∨ step = .exit ∨ (∃ total, step = .start total) ∨
      ∃ method failures update, step.Reports method failures update := by
  cases step with
  | new | enter | exit | start => simp
  | done code failed =>
      cases failed with
      | false => exact .inr (.inr (.inr (.inr ⟨_, _, _, .success code⟩)))
      | true => exact .inr (.inr (.inr (.inr ⟨_, _, _, .failure code⟩)))
  | complete succeeded failed =>
      exact .inr (.inr (.inr (.inr ⟨_, _, _, .completion succeeded failed⟩)))

/-- What a report counts and what it sets. -/
theorem Reports.sets {step : Step} {method : Text} {failures : Nat} {update : Nat → Update}
    (h : step.Reports method failures update) :
    ¬ step.isNew ∧ ¬ step.clears ∧ ¬ step.isStart ∧
      failures = (if step.isFailure then 1 else 0) ∧
      ∀ failed task, ((update failed).apply task).total = task.total ∧
        (¬ step.isCompletion → ((update failed).apply task).completed =
          task.completed + if step.isDone then 1 else 0) ∧
        ∀ code, step = .done code true → ((update failed).apply task).description =
          styled ("Failed " ++ code ++ " (" ++ Text.ofNat failed ++ " failed so far)")
            .warning := by
  cases h <;> simp [Step.isNew, clears, isStart, isFailure, isCompletion, isDone, Update.apply]

end Step

variable {drawer : Drawer} {console : drawer.Console} {progress : Progress drawer}

variable (console) in
/-- What a step raises after others. -/
def raised (steps : List Step) (step : Step) : Option Mishap :=
  ((after console steps).step step).2.map Fault.mishap

/-- The display was entered since it was made. -/
def Entered : List Step → Prop :=
  Since (fun _ step => step = .enter) Step.isNew

variable (console) in
/-- A start was taken since the display was made. -/
def EverStarted : List Step → Prop :=
  Since (fun before step => step.isStart ∧ raised console before step = none) Step.isNew

variable (console) in
/-- A start was taken since the display was last entered. -/
def Started : List Step → Prop :=
  Since (fun before step => step.isStart ∧ raised console before step = none) Step.clears

/-- A start was tried since the display was last entered. -/
def Tried : List Step → Prop :=
  Since (fun before step => step.isStart ∧ Entered before) Step.clears

variable (console) in
/-- Steps since a start that was taken after others. None of them brings another board, and no other
start was taken among them. -/
inductive LatestStart (before : List Step) (total : Option Int) : List Step → Prop
  | start : raised console before (.start total) = none → LatestStart before total []
  | later {since : List Step} {step : Step} : LatestStart before total since → ¬ step.clears →
      (step.isStart → raised console (before ++ .start total :: since) step ≠ none) →
      LatestStart before total (since ++ [step])

/-- The failures since the last start among the steps. -/
def latestFailures (steps : List Step) : Nat :=
  (steps.reverse.takeWhile fun step => !step.isStart).countP Step.isFailure

theorem latestFailures_concat (steps : List Step) (step : Step) :
    latestFailures (steps ++ [step]) =
      if step.isStart then 0
      else latestFailures steps + if step.isFailure then 1 else 0 := by
  rw [latestFailures, List.reverse_concat, List.takeWhile_cons]
  cases step.isStart with
  | true => rfl
  | false => exact List.countP_cons

/-! ## Steps -/

theorem report_keeps (progress : Progress drawer) {step : Step} {method : Text} {failures : Nat}
    {update : Nat → Update} (h : step.Reports method failures update) :
    (progress.step step).1.board.isSome = progress.board.isSome ∧
      (progress.step step).1.task = progress.task := by
  rw [step_report progress h]
  unfold require
  cases hboard : progress.board with
  | none => simp [hboard]
  | some board => cases hnumber : progress.task <;> simp [drawn, hboard, hnumber]

/-- A report on a task that is not on the board raises a missing key, and a failure is counted. -/
theorem report_of_missing (hlawful : drawer.IsLawful) {step : Step} {method : Text}
    {failures : Nat} {update : Nat → Update} (h : step.Reports method failures update)
    {number : Nat} (hboard : progress.board.isSome) (hnumber : progress.task = some number)
    (htask : progress.task? number = none) :
    progress.step step = ({ progress with failed := progress.failed + failures },
      some (.board ⟨"KeyError", Text.ofNat number⟩)) := by
  obtain ⟨board, hboard⟩ := Option.isSome_iff_exists.mp hboard
  rw [task?, hboard, Option.bind_some] at htask
  rw [step_report progress h, require, hboard, hnumber]
  dsimp only
  rw [hlawful.update_unknown _ _ htask]
  simp only [drawn]

/-- A report brings no task to a board without tasks. -/
theorem task?_report_of_empty (hlawful : drawer.IsLawful) {step : Step} {method : Text}
    {failures : Nat} {update : Nat → Update} (h : step.Reports method failures update)
    (hempty : ∀ number, progress.task? number = none) (number : Nat) :
    (progress.step step).1.task? number = none := by
  cases hboard : progress.board with
  | none =>
      rw [step_report progress h, require, hboard]
      exact hempty number
  | some board =>
      cases hnumber : progress.task with
      | none =>
          rw [step_report progress h, require, hboard, hnumber]
          exact hempty number
      | some own =>
          rw [report_of_missing hlawful h (by rw [hboard, Option.isSome_some]) hnumber (hempty own)]
          exact hempty number

theorem step_enter (hlawful : drawer.IsLawful) (progress : Progress drawer) :
    (progress.step .enter).1.board.isSome ∧ (progress.step .enter).1.task = progress.task ∧
      (progress.step .enter).1.failed = progress.failed ∧
      ∀ number, (progress.step .enter).1.task? number = none := by
  refine ⟨rfl, rfl, rfl, fun number => ?_⟩
  simp only [Progress.step, enter, drawn, task?, Option.bind_some, hlawful.enter, hlawful.create]

theorem step_exit (hlawful : drawer.IsLawful) (progress : Progress drawer) :
    (progress.step .exit).1.board.isSome = progress.board.isSome ∧
      (progress.step .exit).1.task = progress.task ∧
      (progress.step .exit).1.failed = progress.failed ∧
      (progress.step .exit).1.task? = progress.task? := by
  cases hboard : progress.board with
  | none => simp [Progress.step, exit, hboard]
  | some board =>
      simp only [Progress.step, exit, hboard, drawn, Option.isSome_some, true_and]
      funext number
      simp only [task?, hboard, Option.bind_some, hlawful.leave]

/-! The two facts about the display, and how a step changes them. -/

theorem isSome_board_step (hlawful : drawer.IsLawful) (progress : Progress drawer) (step : Step) :
    (progress.step step).1.board.isSome ↔
      step = .enter ∨ ¬ step.isNew ∧ progress.board.isSome := by
  obtain rfl | rfl | rfl | ⟨total, rfl⟩ | ⟨method, failures, update, h⟩ := step.cases_reports
  · simp [Progress.step, Step.isNew]
  · simp [step_enter hlawful]
  · simp [step_exit hlawful, Step.isNew]
  · obtain ⟨hboard, hstep⟩ | ⟨board, _, next, hboard, -, hstep, -, -, -, htask, -⟩ |
      ⟨board, _, next, hboard, -, hstep, hboard', -⟩ := start_cases hlawful progress total
    · simp [hstep, hboard]
    · obtain ⟨board', hboard', -⟩ := Option.bind_eq_some_iff.mp htask
      simp [hstep, hboard, hboard', Step.isNew]
    · simp [hstep, hboard, hboard', Step.isNew]
  · have hother : step ≠ .enter := by
      rintro rfl
      exact h.sets.2.1 rfl
    simp [report_keeps progress h, h.sets.1, hother]

theorem isSome_task_step (hlawful : drawer.IsLawful) (progress : Progress drawer) (step : Step) :
    (progress.step step).1.task.isSome ↔
      (step.isStart ∧ (progress.step step).2 = none) ∨ ¬ step.isNew ∧ progress.task.isSome := by
  obtain rfl | rfl | rfl | ⟨total, rfl⟩ | ⟨method, failures, update, h⟩ := step.cases_reports
  · simp [Progress.step, Step.isNew, Step.isStart]
  · simp [step_enter hlawful, Step.isNew, Step.isStart]
  · simp [step_exit hlawful, Step.isNew, Step.isStart]
  · obtain ⟨-, hstep⟩ | ⟨_, number, next, -, -, hstep, hnumber, -⟩ |
      ⟨_, _, next, -, -, hstep, -, hnumber, -⟩ := start_cases hlawful progress total
    · simp [hstep, Step.isNew]
    · simp [hstep, hnumber, Step.isStart]
    · simp [hstep, hnumber, Step.isNew]
  · simp [report_keeps progress h, h.sets.1, h.sets.2.2.1]

/-! ## Runs -/

@[simp]
theorem after_concat (steps : List Step) (step : Step) :
    after console (steps ++ [step]) = ((after console steps).step step).1 := by
  simp [after]

/-- What a step of one kind brings about and a step of another undoes holds since the one until
the other. -/
theorem holds_after_iff (holds : Progress drawer → Prop) {taken : List Step → Step → Prop}
    {undoes : Step → Bool} (hnone : ¬ holds { console })
    (hstep : ∀ steps step, holds ((after console steps).step step).1 ↔
      taken steps step ∨ ¬ undoes step ∧ holds (after console steps)) (steps : List Step) :
    holds (after console steps) ↔ Since taken undoes steps := by
  induction steps using List.reverseRecOn with
  | nil => exact iff_of_false hnone since_nil
  | append_singleton steps step ih => rw [after_concat, hstep, since_concat, ih]

theorem isSome_board_after (console : drawer.Console) (hlawful : drawer.IsLawful)
    (steps : List Step) :
    (after console steps).board.isSome ↔ Entered steps :=
  holds_after_iff (·.board.isSome) Bool.false_ne_true
    (fun steps => isSome_board_step hlawful (after console steps)) steps

theorem isSome_task_after (console : drawer.Console) (hlawful : drawer.IsLawful)
    (steps : List Step) :
    (after console steps).task.isSome ↔ EverStarted console steps := by
  refine holds_after_iff (·.task.isSome) Bool.false_ne_true (fun steps step => ?_) steps
  rw [raised, Option.map_eq_none_iff]
  exact isSome_task_step hlawful (after console steps) step

theorem EverStarted.entered (hlawful : drawer.IsLawful) {steps : List Step}
    (h : EverStarted console steps) : Entered steps := by
  induction steps using List.reverseRecOn with
  | nil => exact absurd h since_nil
  | append_singleton steps step ih =>
      refine since_concat.mpr (.inr ?_)
      obtain ⟨hstart, hraised⟩ | ⟨hnew, hever⟩ := since_concat.mp h
      · cases step with
        | start total =>
            refine ⟨Bool.false_ne_true, (isSome_board_after console hlawful steps).mp ?_⟩
            obtain ⟨-, hstep⟩ | ⟨board, _, _, hboard, -⟩ | ⟨board, _, _, hboard, -⟩ :=
              start_cases hlawful (after console steps) total
            · simp [raised, hstep] at hraised
            · rw [hboard, Option.isSome_some]
            · rw [hboard, Option.isSome_some]
        | _ => cases hstart
      · exact ⟨hnew, ih hever⟩

theorem step_start_of_not_entered (hlawful : drawer.IsLawful) {steps : List Step}
    (h : ¬ Entered steps) (total : Option Int) :
    (after console steps).step (.start total) = (after console steps, some .notEntered) := by
  rw [← isSome_board_after console hlawful, Option.not_isSome_iff_eq_none] at h
  obtain ⟨-, hstep⟩ | ⟨board, _, _, hboard, -⟩ | ⟨board, _, _, hboard, -⟩ :=
    start_cases hlawful (after console steps) total
  · exact hstep
  · cases h.symm.trans hboard
  · cases h.symm.trans hboard

/-- If no start was tried since the display was entered, there is nothing on the board. -/
theorem task?_of_not_tried (hlawful : drawer.IsLawful) {steps : List Step} (h : ¬ Tried steps)
    (number : Nat) : (after console steps).task? number = none := by
  induction steps using List.reverseRecOn generalizing number with
  | nil => rfl
  | append_singleton steps step ih =>
      rw [Tried, since_concat, not_or] at h
      obtain ⟨hlast, hbefore⟩ := h
      have hempty (hkeeps : ¬ step.clears) := ih fun htried => hbefore ⟨hkeeps, htried⟩
      rw [after_concat]
      obtain rfl | rfl | rfl | ⟨total, rfl⟩ | ⟨method, failures, update, h⟩ := step.cases_reports
      · rfl
      · exact (step_enter hlawful _).2.2.2 number
      · rw [(step_exit hlawful _).2.2.2]
        exact hempty Bool.false_ne_true number
      · have hentered : ¬ Entered steps := fun hentered => hlast ⟨rfl, hentered⟩
        rw [step_start_of_not_entered hlawful hentered]
        exact hempty Bool.false_ne_true number
      · exact task?_report_of_empty hlawful h (hempty h.sets.2.1) number

/-! ## The latest task -/

/-- What the display and its task show since the start of the task with a total, after steps that
had left the display at an earlier state. -/
structure Accounts (earlier : Progress drawer) (total : Option Int) (since : List Step)
    (progress : Progress drawer) (number : Nat) (task : Task) : Prop where
  number_eq : progress.task = some number
  task_eq : progress.task? number = some task
  new : earlier.task? number = none
  older : ∀ other shown, earlier.task? other = some shown → progress.task? other = some shown
  failed_eq : progress.failed = latestFailures since
  total_eq : task.total = total
  completed_eq : (∀ later ∈ since, ¬ later.isCompletion) →
    task.completed = since.countP Step.isDone
  description_eq : ∀ front code, since = front ++ [.done code true] →
    task.description = styled ("Failed " ++ code ++ " (" ++ Text.ofNat (latestFailures since)
      ++ " failed so far)") .warning

namespace Accounts

variable {earlier : Progress drawer} {total : Option Int} {since : List Step} {number : Nat}
  {task : Task}

/-- A step that leaves the task as it is. -/
theorem keep (h : Accounts earlier total since progress number task) {next : Progress drawer}
    {step : Step} (hnumber : next.task = progress.task)
    (htask : ∀ other shown, progress.task? other = some shown → next.task? other = some shown)
    (hfailed : next.failed = latestFailures (since ++ [step])) (hdone : ¬ step.isDone) :
    Accounts earlier total (since ++ [step]) next number task where
  number_eq := hnumber.trans h.number_eq
  task_eq := htask number task h.task_eq
  new := h.new
  older other shown hshown := htask other shown (h.older other shown hshown)
  failed_eq := hfailed
  total_eq := h.total_eq
  completed_eq hopen := by
    rw [h.completed_eq fun later hlater => hopen later (List.mem_append_left _ hlater)]
    simp [hdone]
  description_eq front code heq := by
    obtain ⟨-, hlast⟩ := List.append_inj' heq rfl
    obtain rfl := List.singleton_inj.mp hlast
    exact absurd rfl hdone

/-- A report changes the task by what it sets. -/
theorem report (h : Accounts earlier total since progress number task) (hlawful : drawer.IsLawful)
    {step : Step} {method : Text} {failures : Nat} {update : Nat → Update}
    (hreports : step.Reports method failures update) :
    ∃ task', Accounts earlier total (since ++ [step]) (progress.step step).1 number task' := by
  obtain ⟨-, -, hstart, hfailures, hsets⟩ := hreports.sets
  obtain ⟨next, hstep, hnumber, hfailed, htask, hothers⟩ :=
    report_of_known hlawful hreports h.number_eq h.task_eq
  obtain ⟨htotal, hcompleted, hdescription⟩ := hsets next.failed task
  have hlatest : next.failed = latestFailures (since ++ [step]) := by
    rw [hfailed, h.failed_eq, latestFailures_concat, if_neg hstart, hfailures]
  rw [hstep]
  refine ⟨_, hnumber, htask, h.new, fun other shown hshown => ?_, hlatest, htotal.trans h.total_eq,
    fun hopen => ?_, fun front code heq => ?_⟩
  · have hother : other ≠ number := by
      rintro rfl
      cases h.new.symm.trans hshown
    rw [hothers other hother]
    exact h.older other shown hshown
  · rw [hcompleted (hopen _ List.mem_concat_self),
      h.completed_eq fun later hlater => hopen later (List.mem_append_left _ hlater),
      List.countP_append, List.countP_singleton, Int.natCast_add]
    split <;> rfl
  · obtain ⟨-, hlast⟩ := List.append_inj' heq rfl
    rw [hdescription code (List.singleton_inj.mp hlast), hlatest]

end Accounts

/-- The steps since the latest start, one after the other. -/
theorem LatestStart.accounts (hlawful : drawer.IsLawful) {before since : List Step}
    {total : Option Int} (h : LatestStart console before total since) :
    ∃ number task, Accounts (after console before) total since
      (after console (before ++ .start total :: since)) number task := by
  induction h with
  | start hraised =>
      rw [after_concat]
      obtain ⟨-, hstep⟩ | ⟨_, number, next, -, -, hstep, hnumber, hfailed, hnew, htask, hothers⟩ |
        ⟨_, mishap, next, -, -, hstep, -⟩ := start_cases hlawful (after console before) total
      · simp [raised, hstep] at hraised
      · rw [hstep]
        refine ⟨number, _, hnumber, htask, hnew, fun other shown hshown => ?_, hfailed, rfl,
          fun _ => rfl, by simp⟩
        have hother : other ≠ number := by
          rintro rfl
          cases hnew.symm.trans hshown
        rwa [hothers other hother]
      · simp [raised, hstep] at hraised
  | @later since step hlatest hclears hrefused ih =>
      obtain ⟨number, task, haccounts⟩ := ih
      rw [← List.cons_append, ← List.append_assoc, after_concat]
      generalize hnow : after console (before ++ .start total :: since) = now at haccounts
      obtain rfl | rfl | rfl | ⟨total', rfl⟩ | ⟨method, failures, update, hreports⟩ :=
        step.cases_reports
      · exact absurd rfl hclears
      · exact absurd rfl hclears
      · obtain ⟨-, hnumber, hfailed, htasks⟩ := step_exit hlawful now
        refine ⟨number, task, haccounts.keep hnumber (fun _ _ hshown => by rwa [htasks]) ?_
          Bool.false_ne_true⟩
        rw [hfailed, haccounts.failed_eq, latestFailures_concat]
        rfl
      · obtain ⟨hnone, -⟩ | ⟨_, _, next, -, -, hstep, -⟩ |
          ⟨_, _, next, -, -, hstep, -, hnumber, hfailed, htasks⟩ := start_cases hlawful now total'
        · obtain ⟨board, hboard, -⟩ := Option.bind_eq_some_iff.mp haccounts.task_eq
          cases hnone.symm.trans hboard
        · exact absurd (by rw [raised, hnow, hstep]; rfl) (hrefused rfl)
        · rw [hstep]
          refine ⟨number, task, haccounts.keep hnumber htasks ?_ Bool.false_ne_true⟩
          rw [hfailed, latestFailures_concat]
          rfl
      · obtain ⟨task', haccounts'⟩ := haccounts.report hlawful hreports
        exact ⟨number, task', haccounts'⟩

/-- A start that is refused does not undo the one before it. -/
theorem exists_latestStart {steps : List Step} (h : Started console steps) :
    ∃ before total since, steps = before ++ .start total :: since ∧
      LatestStart console before total since := by
  induction steps using List.reverseRecOn with
  | nil => exact absurd h since_nil
  | append_singleton steps step ih =>
      by_cases htaken : step.isStart ∧ raised console steps step = none
      · obtain ⟨hstart, hraised⟩ := htaken
        cases step with
        | start total => exact ⟨steps, total, [], rfl, .start hraised⟩
        | _ => cases hstart
      · obtain ⟨hclears, hstarted⟩ := (since_concat.mp h).resolve_left htaken
        obtain ⟨before, total, since, rfl, hlatest⟩ := ih hstarted
        exact ⟨before, total, since ++ [step], by simp,
          hlatest.later hclears fun hstart hraised => htaken ⟨hstart, hraised⟩⟩

/-! ## Every step -/

/-- What goes wrong with an outcome, if anything does. -/
def mishapOf? {α : Type} : Except Mishap α → Option Mishap
  | .ok _ => none
  | .error mishap => some mishap

/-- What a step does to a display: what it raises, and what becomes of the display. -/
structure Answers (now : Progress drawer) (step : Step) (raised : Option Mishap)
    (next : Progress drawer) : Prop where
  new : step = .new → raised = none ∧ next = { console := now.console }
  /-- An entry brings a board without tasks. It raises what the drawer raises, and forgets neither
  the number of the task nor the failures. -/
  enter : step = .enter →
    raised = mishapOf? (drawer.enter (drawer.create now.console) now.console).1 ∧
      next.task = now.task ∧ next.failed = now.failed ∧ ∀ number, next.task? number = none
  exit : step = .exit →
    raised = now.board.bind (fun board => mishapOf? (drawer.leave board now.console).1) ∧
      next.task = now.task ∧ next.failed = now.failed ∧ next.task? = now.task?
  /-- Without a board, starts and reports are refused. -/
  notEntered : now.board = none →
    step.isStart ∨ (∃ method failures update, step.Reports method failures update) →
    raised = some Fault.notEntered.mishap ∧ next = now
  /-- A start puts a task on the board that was not there, unless the drawer refuses to add it. -/
  start : ∀ total board, step = .start total → now.board = some board →
    match (drawer.start board now.console "Syncing countries" total).1 with
    | .ok number => raised = none ∧ next.task = some number ∧ next.failed = 0 ∧
        now.task? number = none ∧
        next.task? number = some ⟨styled "Syncing countries" .inProgress, total, 0⟩ ∧
        ∀ other ≠ number, next.task? other = now.task? other
    | .error mishap => raised = some mishap ∧ next.task = now.task ∧ next.failed = 0 ∧
        ∀ number task, now.task? number = some task → next.task? number = some task
  notStarted : ∀ method failures update, step.Reports method failures update →
    now.board.isSome → now.task = none →
    raised = some (Fault.notStarted method).mishap ∧ next = now
  /-- A report changes the task with the number that the display knows and no other. If there is
  none on the board, it raises a missing key, and a failure is counted all the same. -/
  report : ∀ method failures update, step.Reports method failures update →
    now.board.isSome → ∀ number, now.task = some number →
    match now.task? number with
    | some task => raised = none ∧ next.task = some number ∧
        next.failed = now.failed + failures ∧
        next.task? number = some ((update next.failed).apply task) ∧
        ∀ other ≠ number, next.task? other = now.task? other
    | none => raised = some ⟨"KeyError", Text.ofNat number⟩ ∧
        next = { now with failed := now.failed + failures }

theorem answers_step (hlawful : drawer.IsLawful) (progress : Progress drawer) (step : Step) :
    Answers progress step ((progress.step step).2.map Fault.mishap) (progress.step step).1 := by
  constructor
  case new =>
    rintro rfl
    exact ⟨rfl, rfl⟩
  case enter =>
    rintro rfl
    refine ⟨?_, (step_enter hlawful progress).2⟩
    simp only [Progress.step, Progress.enter, drawn]
    cases (drawer.enter (drawer.create progress.console) progress.console).1 <;> rfl
  case exit =>
    rintro rfl
    refine ⟨?_, (step_exit hlawful progress).2⟩
    cases hboard : progress.board with
    | none => simp only [Progress.step, Progress.exit, hboard, Option.map_none, Option.bind_none]
    | some board =>
        simp only [Progress.step, Progress.exit, hboard, drawn, Option.bind_some]
        cases (drawer.leave board progress.console).1 <;> rfl
  case notEntered =>
    intro hboard hneeds
    suffices h : progress.step step = (progress, some .notEntered) by
      rw [h]
      exact ⟨rfl, rfl⟩
    obtain hstart | ⟨method, failures, update, hreports⟩ := hneeds
    · cases step with
      | start total => rw [Progress.step, Progress.start, hboard]
      | _ => cases hstart
    · rw [step_report progress hreports, require, hboard]
  case start =>
    rintro total board rfl hboard
    obtain ⟨hnone, -⟩ | ⟨board', number, next, hsome, hadded, hstep, hnext⟩ |
      ⟨board', mishap, next, hsome, hrefused, hstep, -, hnext⟩ :=
      start_cases hlawful progress total
    · cases hnone.symm.trans hboard
    · obtain rfl := Option.some.inj (hsome.symm.trans hboard)
      rw [hadded, hstep]
      exact ⟨rfl, hnext⟩
    · obtain rfl := Option.some.inj (hsome.symm.trans hboard)
      rw [hrefused, hstep]
      exact ⟨rfl, hnext⟩
  case notStarted =>
    intro method failures update hreports hboard hnumber
    obtain ⟨board, hboard⟩ := Option.isSome_iff_exists.mp hboard
    rw [step_report progress hreports, require, hboard, hnumber]
    exact ⟨rfl, rfl⟩
  case report =>
    intro method failures update hreports hboard number hnumber
    cases htask : progress.task? number with
    | none =>
        rw [report_of_missing hlawful hreports hboard hnumber htask]
        exact ⟨rfl, rfl⟩
    | some task =>
        obtain ⟨next, hstep, hnext⟩ := report_of_known hlawful hreports hnumber htask
        rw [hstep]
        exact ⟨rfl, hnext⟩

open Classical in
/-- What the display does at a step after others, and what it shows before that. -/
structure Lifecycle (console : drawer.Console) (steps : List Step) (step : Step) : Prop where
  answers : Answers (after console steps) step (raised console steps step)
    (after console (steps ++ [step]))
  /-- The display has a board if it was entered, and the number of a task if a start was taken,
  which needs a board. -/
  entered : (after console steps).board.isSome ↔ Entered steps
  everStarted : (after console steps).task.isSome ↔ EverStarted console steps
  entered_of_everStarted : EverStarted console steps → Entered steps
  /-- What a report raises, by the steps before it. -/
  report : ∀ method failures update, step.Reports method failures update → ∃ number,
    raised console steps step =
      if ¬ Entered steps then some Fault.notEntered.mishap
      else if ¬ EverStarted console steps then some (Fault.notStarted method).mishap
      else if ((after console steps).task? number).isSome then none
      else some ⟨"KeyError", Text.ofNat number⟩
  /-- The task is on the board if it was started since the latest entry, -/
  onBoard : Started console steps → ∃ number task, (after console steps).task = some number ∧
    (after console steps).task? number = some task
  /-- and nothing is there if no start was tried since then. -/
  offBoard : ¬ Tried steps → ∀ number, (after console steps).task? number = none
  latest : Started console steps → ∃ before total since,
    steps = before ++ .start total :: since ∧ LatestStart console before total since
  /-- The task adds up what was reported since its start. -/
  accounts : ∀ before total since, steps = before ++ .start total :: since →
    LatestStart console before total since → ∃ number task,
      Accounts (after console before) total since (after console steps) number task

open Classical in
theorem raised_report (hlawful : drawer.IsLawful) (steps : List Step) {step : Step} {method : Text}
    {failures : Nat} {update : Nat → Update} (h : step.Reports method failures update) :
    ∃ number, raised console steps step =
      if ¬ Entered steps then some Fault.notEntered.mishap
      else if ¬ EverStarted console steps then some (Fault.notStarted method).mishap
      else if ((after console steps).task? number).isSome then none
      else some ⟨"KeyError", Text.ofNat number⟩ := by
  have hanswers := answers_step hlawful (after console steps) step
  rw [← isSome_board_after console hlawful, ← isSome_task_after console hlawful, raised]
  by_cases hboard : (after console steps).board.isSome
  · cases hnumber : (after console steps).task with
    | none =>
        refine ⟨0, ?_⟩
        rw [if_neg (not_not.mpr hboard), if_pos (by simp)]
        exact (hanswers.notStarted _ _ _ h hboard hnumber).1
    | some number =>
        have hreport := hanswers.report _ _ _ h hboard number hnumber
        refine ⟨number, ?_⟩
        rw [if_neg (not_not.mpr hboard), if_neg (by simp)]
        cases htask : (after console steps).task? number with
        | none =>
            rw [htask] at hreport
            exact hreport.1
        | some task =>
            rw [htask] at hreport
            exact hreport.1
  · refine ⟨0, ?_⟩
    rw [if_pos hboard]
    exact (hanswers.notEntered (Option.not_isSome_iff_eq_none.mp hboard) (.inr ⟨_, _, _, h⟩)).1

/-- For every lawful drawer, after whatever steps, every step is answered as laid down, and the task
is on the board and adds up the reports as long as it was started since the latest entry. -/
theorem lifecycle (hlawful : drawer.IsLawful) (console : drawer.Console) (steps : List Step)
    (step : Step) : Lifecycle console steps step where
  answers := by
    rw [after_concat]
    exact answers_step hlawful (after console steps) step
  entered := isSome_board_after console hlawful steps
  everStarted := isSome_task_after console hlawful steps
  entered_of_everStarted := EverStarted.entered hlawful
  report _ _ _ := raised_report hlawful steps
  onBoard h := by
    obtain ⟨before, total, since, rfl, hlatest⟩ := exists_latestStart h
    obtain ⟨number, task, haccounts⟩ := hlatest.accounts hlawful
    exact ⟨number, task, haccounts.number_eq, haccounts.task_eq⟩
  offBoard := task?_of_not_tried hlawful
  latest := exists_latestStart
  accounts := by
    rintro before total since rfl h
    exact h.accounts hlawful

/-- The console of boards that are lists of tasks. -/
def plainConsole : Drawer.plain.Console :=
  ()

/-- A batch of two countries, of which one failed. -/
def batch : List Step :=
  [.enter, .start (some 2), .done "US" false, .done "FR" true]

/-- With boards that are lists of tasks, the end of the work is reported without a fault. -/
theorem lifecycle_batch :
    LatestStart plainConsole [.enter] (some 2) [.done "US" false, .done "FR" true] ∧
      raised plainConsole batch (.complete 1 1) = none ∧
      ∃ number task, (after plainConsole batch).task? number = some task ∧
        task.completed = 2 ∧
        task.description = styled "Failed FR (1 failed so far)" .warning := by
  have hfirst : LatestStart plainConsole [.enter] (some 2) [.done "US" false] :=
    .later (.start rfl) (by decide) (by decide)
  have hlatest : LatestStart plainConsole [.enter] (some 2)
      [.done "US" false, .done "FR" true] :=
    hfirst.later (by decide) (by decide)
  have hlifecycle := lifecycle Drawer.isLawful_plain plainConsole batch (.complete 1 1)
  obtain ⟨number, task, haccounts⟩ := hlifecycle.accounts _ _ _ rfl hlatest
  have hboard : (after plainConsole batch).board.isSome :=
    hlifecycle.entered.mpr ⟨[], .enter, _, rfl, rfl, by decide⟩
  have hreport := hlifecycle.answers.report _ _ _ (.completion 1 1) hboard number
    haccounts.number_eq
  rw [haccounts.task_eq] at hreport
  exact ⟨hlatest, hreport.1, number, task, haccounts.task_eq, haccounts.completed_eq (by decide),
    haccounts.description_eq [.done "US" false] "FR" rfl⟩

/-- After another entry a report does not say that a start is missing, and a failure is counted. -/
theorem report_of_reentered :
    let steps := batch ++ [.exit, .enter]
    Entered steps ∧ ¬ Tried steps ∧
      raised plainConsole steps (.done "US" false) = some ⟨"KeyError", "0"⟩ ∧
      raised plainConsole steps (.done "US" true) = some ⟨"KeyError", "0"⟩ ∧
      (after plainConsole (steps ++ [.done "US" true])).failed =
        (after plainConsole steps).failed + 1 := by
  refine ⟨⟨batch ++ [.exit], .enter, [], rfl, rfl, by decide⟩, ?_, rfl, rfl, rfl⟩
  intro htried
  obtain ⟨hstart, -⟩ | ⟨hclears, -⟩ :=
    since_concat.mp (show Tried ((batch ++ [.exit]) ++ [.enter]) from htried)
  · cases hstart
  · exact hclears rfl

end Almanac.Display.Progress
