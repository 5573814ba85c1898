import Almanac.Proofs.Batch.BatchRuns
import Almanac.Proofs.Display.FollowedBatches
import Mathlib.Data.List.Forall2

/-!
# The tally of a batch, in whatever order its entries are completed

What the report of a batch and its display tell at the end is read off the completions in their
order: it does not depend on how many entries were in flight at a time, nor on anything else that
happened on the way.
-/

namespace Almanac.Batch

open Almanac.Text Almanac.Data Almanac.Storage

/-- What the report and the display tell of entries with the given completions, in their order. -/
structure Tally (tasks : List Task) (completions : List Completion) (told : List Event)
    (report : Report) : Prop where
  /-- Every success is listed, in order and as often as it came. -/
  succeeded : report.succeeded =
    (completions.filter Completion.succeeds).map Completion.code
  /-- Exactly the codes with a failure are listed with a message, each once. -/
  failedKeys : report.failed.keys.Nodup ∧ ∀ code, code ∈ report.failed.keys ↔
    ∃ completion ∈ completions, completion.code = code ∧ completion.succeeds = false
  /-- The message is that of the last failure. -/
  failed : ∀ code, report.failed.get? code = (Report.messagesOf code completions).getLast?
  /-- Where every success writes a record, there is one path for each, in the same order. -/
  written : (∀ task ∈ tasks, task.Writes) →
    List.Forall₂ (fun completion path => completion.outcome = .ok (some path))
      (completions.filter Completion.succeeds) report.written
  /-- The display hears of the start, then of every entry, and of the tally at last. -/
  heard : told = .start tasks.length :: completions.map Completion.event ++
    [.complete report.succeeded.length report.failed.length]
  heardOften : completions.length = tasks.length
  /-- A display that takes the start follows without a fault, and shows the tally at last. -/
  shown : ∀ (drawer : Display.Drawer) (display : Display.Progress drawer), drawer.IsLawful →
    (display.tell (.start tasks.length)).2 = none →
    ∃ next, display.follow told = (next, none) ∧
      next.Shows tasks.length (report.succeeded.length + report.failed.length)
  /-- If no code comes twice, each is listed once, and what is shown as completed is the total. -/
  distinct : (tasks.map Task.code).Nodup →
    report.succeeded.Nodup ∧
      (∀ code ∈ tasks.map Task.code, code ∈ report.succeeded ↔ code ∉ report.failed.keys) ∧
      report.succeeded.length + report.failed.length = tasks.length

/-- Successes with paths are written one by one. -/
theorem forall₂_written {completions : List Completion}
    (h : ∀ completion ∈ completions, completion.succeeds = true →
      ∃ path, completion.outcome = .ok (some path)) :
    List.Forall₂ (fun completion path => completion.outcome = .ok (some path))
      (completions.filter Completion.succeeds) (completions.filterMap Completion.path?) := by
  induction completions with
  | nil => exact .nil
  | cons completion completions ih =>
      obtain ⟨hfirst, hrest⟩ := List.forall_mem_cons.mp h
      cases hsucceeds : completion.succeeds with
      | false =>
          obtain ⟨message, hmessage⟩ : ∃ message, completion.message? = some message := by
            rw [Completion.succeeds, Option.isNone_eq_false_iff] at hsucceeds
            exact Option.isSome_iff_exists.mp hsucceeds
          rw [List.filter_cons_of_neg (by simp [hsucceeds]),
            List.filterMap_cons_none (Report.path?_of_message hmessage)]
          exact ih hrest
      | true =>
          obtain ⟨path, hpath⟩ := hfirst hsucceeds
          rw [List.filter_cons_of_pos hsucceeds,
            List.filterMap_cons_some (by rw [Completion.path?, hpath])]
          exact .cons hpath (ih hrest)

namespace Underway

variable {slots : Nat} {tasks : List Task} {trace : List (Task × Completion)} {batch : Underway}

/-- What is told of the completions, if no code comes twice among them. -/
theorem Kept.distinct (h : Kept slots tasks trace batch)
    (hnodup : ((trace.map Prod.snd).map Completion.code).Nodup) :
    batch.report.succeeded.Nodup ∧
      (∀ code ∈ (trace.map Prod.snd).map Completion.code,
        code ∈ batch.report.succeeded ↔ code ∉ batch.report.failed.keys) ∧
      batch.report.succeeded.length + batch.report.failed.length = (trace.map Prod.snd).length := by
  rw [h.recorded]
  refine ⟨?_, fun code => Report.mem_succeeded_iff_notMem_failed hnodup,
    Report.total_ofCompletions hnodup⟩
  rw [Report.succeeded_ofCompletions]
  exact hnodup.sublist (List.filter_sublist.map _)

/-- The completions have the codes of the entries, in some order. -/
theorem Kept.perm_codes (h : Kept slots tasks trace batch) (hdone : batch.isDone)
    (hopen : batch.abandoned = none) :
    ((trace.map Prod.snd).map Completion.code).Perm (tasks.map Task.code) := by
  have hsame : (trace.map Prod.snd).map Completion.code = (trace.map Prod.fst).map Task.code := by
    rw [List.map_map, List.map_map]
    exact List.map_congr_left fun entry hentry => (h.worked entry hentry).1
  rw [hsame]
  exact (h.perm_of_done hdone hopen).map Task.code

theorem Kept.tally (h : Kept slots tasks trace batch) (hdone : batch.isDone)
    (hopen : batch.abandoned = none) :
    Tally tasks (trace.map Prod.snd) batch.told batch.report := by
  have hcodes := h.perm_codes hdone hopen
  have hlength : (trace.map Prod.snd).length = tasks.length := by
    rw [← List.length_map Completion.code, hcodes.length_eq, List.length_map]
  have hheard : batch.told = .start tasks.length :: (trace.map Prod.snd).map Completion.event ++
      [.complete batch.report.succeeded.length batch.report.failed.length] := by
    rw [Underway.told, h.heard]
  constructor
  case succeeded => rw [h.recorded, Report.succeeded_ofCompletions]
  case failedKeys =>
    rw [h.recorded]
    exact ⟨Report.nodup_keys_failed _, fun code => Report.mem_keys_failed_iff⟩
  case failed =>
    rw [h.recorded]
    exact Report.failed_ofCompletions _
  case written =>
    intro hwrites
    rw [h.recorded, Report.written_ofCompletions]
    apply forall₂_written
    intro completion hcompletion hsucceeds
    obtain ⟨entry, hentry, rfl⟩ := List.mem_map.mp hcompletion
    have htask : entry.1 ∈ tasks :=
      (h.perm_of_done hdone hopen).subset (List.mem_map_of_mem hentry)
    exact (hwrites entry.1 htask).path_of_success (h.worked entry hentry) hsucceeds
  case heard => exact hheard
  case heardOften => exact hlength
  case shown =>
    intro drawer display hlawful htaken
    rw [hheard]
    exact Display.Progress.follow_batch hlawful htaken _ _ _
  case distinct =>
    intro hdistinct
    obtain ⟨hsucceeded, hfailed, htotal⟩ := h.distinct (hcodes.nodup_iff.mpr hdistinct)
    exact ⟨hsucceeded, fun code hcode => hfailed code (hcodes.mem_iff.mpr hcode),
      htotal.trans hlength⟩

end Underway

/-- A batch of entries that give results or failures of their own, worked on with whatever
concurrency: it has never more entries in flight than slots, every step brings it nearer to its
end, it can always go on to its end, and there it gives a report, which together with what the
display heard is the tally of its completions in their order. Every order of the entries occurs.
Entries of a plan with a directory write their records. -/
theorem tally_of_run (concurrency : Int) (tasks : List Task) (world : World)
    (hcontained : ∀ task ∈ tasks, task.IsContained) :
    (∀ trace batch, Underway.Run (slotsOf concurrency) (.start tasks world) trace batch →
      batch.inFlight.length ≤ slotsOf concurrency ∧
      (∀ label next, Underway.Step (slotsOf concurrency) batch label next →
        next.remaining < batch.remaining) ∧
      (∃ more last, Underway.Run (slotsOf concurrency) (.start tasks world) (trace ++ more) last ∧
        last.isDone) ∧
      (batch.isDone →
        (trace.map Prod.fst).Perm tasks ∧
        (∀ entry ∈ trace, entry.1.CompletesAs entry.2) ∧
        ∃ report, batch.result = .ok report ∧
          Tally tasks (trace.map Prod.snd) batch.told report)) ∧
    (∀ order, order.Perm tasks → ∃ trace last,
      Underway.Run (slotsOf concurrency) (.start tasks world) trace last ∧ last.isDone ∧
        trace.map Prod.fst = order) ∧
    ∀ (plan : Plan) (directory : Path) (code : Text), plan.destination = .directory directory →
      (plan.task code).Writes := by
  have hslots := slotsOf_pos concurrency
  refine ⟨?_, ?_, fun plan directory code h => Plan.task_writes h code⟩
  · intro trace batch hrun
    have hopen := hrun.not_abandoned hcontained
    refine ⟨hrun.kept.bounded, fun _ _ hstep => hstep.remaining_lt, hrun.exists_done hslots, ?_⟩
    intro hdone
    refine ⟨hrun.kept.perm_of_done hdone hopen, hrun.kept.worked, batch.report, ?_,
      hrun.kept.tally hdone hopen⟩
    rw [Underway.result, hopen]
  · intro order hperm
    have horder : ∀ task ∈ order, task.IsContained :=
      fun task htask => hcontained task (hperm.subset htask)
    obtain ⟨completions, hwork⟩ := Underway.completions_of_contained horder world
    have hstart : Underway.Run (slotsOf concurrency) (.start tasks world) [] (.start tasks world) :=
      .start
    obtain ⟨last, hrun, hdone, -, -⟩ := hstart.in_order hslots order rfl hperm.symm hwork
    refine ⟨_, last, hrun, hdone, ?_⟩
    rw [List.nil_append, List.map_fst_zip (Nat.le_of_eq (length_of_mapM_ok hwork).symm)]

/-- Three entries, of which two have one code: one of these succeeds, and the others fail. -/
def mixedTasks : List Task :=
  [⟨"AA", pure none⟩, ⟨"BB", throw (.failure (Failure.unknownCountry "BB"))⟩,
    ⟨"AA", throw (.failure { kind := .fetch })⟩]

/-- Worked on two at a time, the three entries can be completed from the last to the first, and
the display hears of five events. With a board that is a list of tasks it follows. -/
theorem tally_mixedTasks :
    ∃ trace last report, Underway.Run 2 (.start mixedTasks ⟨.empty, {}⟩) trace last ∧
      last.result = .ok report ∧ trace.map Prod.fst = mixedTasks.reverse ∧
        last.told.length = 5 ∧
        ∀ display : Display.Progress .plain, display.board.isSome = true →
          (display.follow last.told).2 = none := by
  have hcontained : ∀ task ∈ mixedTasks, task.IsContained := by
    intro task hmem world stop hstop
    simp only [mixedTasks, List.mem_cons, List.not_mem_nil, or_false] at hmem
    rcases hmem with rfl | rfl | rfl
    · cases hstop
    · obtain rfl := Except.error.inj hstop
      exact ⟨_, rfl, rfl⟩
    · obtain rfl := Except.error.inj hstop
      exact ⟨_, rfl, rfl⟩
  obtain ⟨hruns, horders, -⟩ := tally_of_run 2 mixedTasks ⟨.empty, {}⟩ hcontained
  obtain ⟨trace, last, hrun, hdone, horder⟩ := horders mixedTasks.reverse (List.reverse_perm _)
  obtain ⟨-, -, -, htally⟩ := hruns trace last hrun
  obtain ⟨-, -, report, hresult, htally⟩ := htally hdone
  refine ⟨trace, last, report, hrun, hresult, horder, ?_, fun display hentered => ?_⟩
  · have hcount := htally.heardOften
    rw [htally.heard]
    simp only [List.length_cons, List.length_append, List.length_map, List.length_nil] at hcount ⊢
    rw [hcount]
    rfl
  · obtain ⟨next, hfollow, -⟩ := htally.shown .plain display Display.Drawer.isLawful_plain
      (Display.Progress.tell_start_plain hentered _)
    rw [hfollow]

end Almanac.Batch
