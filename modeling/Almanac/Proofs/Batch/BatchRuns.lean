import Almanac.Batch.Concurrent
import Almanac.Proofs.Batch.CountryWork
import Almanac.Proofs.Batch.Tally

/-!
# Batches from their start to their end

A batch is a system of steps in which any waiting entry may get a free slot and the work on any
entry in flight may end next. Each step keeps the entries accounted for: every one of them is
waiting, in flight or completed, and the report and the display are those of the completions so
far. Each step also uses up something, and there is a step until nothing waits or is in flight, so
every batch comes to its end. As the end of the work on an entry is one step, a batch is as if its
entries had been worked on one after another, and every order of them occurs.
-/

namespace Almanac.Batch

open Almanac.Text Almanac.Data Almanac.Storage

/-- There is always a slot. -/
theorem slotsOf_pos (concurrency : Int) : 0 < slotsOf concurrency := by
  unfold slotsOf
  omega

/-! ## The work on an entry -/

namespace Task

theorem outcome_complete (task : Task) (world : World) :
    outcome task.complete world =
      (settled (outcome task.work world)).map fun found => ⟨task.code, found⟩ := by
  unfold complete
  rw [outcome_bind, outcome_recorded]
  cases settled (outcome task.work world) <;> rfl

/-- The entry can be completed so: some world gives its work this end. -/
def CompletesAs (task : Task) (completion : Completion) : Prop :=
  completion.code = task.code ∧
    ∃ world, settled (outcome task.work world) = .ok completion.outcome

/-- The work gives a result or a failure that belongs to one file, whatever the world. -/
def IsContained (task : Task) : Prop :=
  ∀ world stop, outcome task.work world = .error stop →
    ∃ failure, stop = .failure failure ∧ failure.kind.isFileLevel = true

/-- Work that gives a result gives the path of a record with it. -/
def Writes (task : Task) : Prop :=
  ∀ world found, outcome task.work world = .ok found → found.isSome = true

theorem completesAs_of_run {task : Task} {completion : Completion} {world left : World}
    (h : task.complete.run.run world = (.ok completion, left)) : task.CompletesAs completion := by
  have houtcome : outcome task.complete world = .ok completion := by rw [outcome, h]
  rw [outcome_complete] at houtcome
  cases hsettled : settled (outcome task.work world) with
  | error stop =>
      rw [hsettled] at houtcome
      cases houtcome
  | ok found =>
      rw [hsettled] at houtcome
      obtain rfl := Except.ok.inj houtcome
      exact ⟨rfl, world, hsettled⟩

theorem IsContained.complete_ok {task : Task} (h : task.IsContained) (world : World) :
    ∃ completion, outcome task.complete world = .ok completion := by
  rw [outcome_complete]
  cases hwork : outcome task.work world with
  | ok found => exact ⟨_, rfl⟩
  | error stop =>
      obtain ⟨failure, rfl, hlevel⟩ := h world stop hwork
      exact ⟨_, by rw [settled, if_pos hlevel]; rfl⟩

/-- A success of an entry that writes has a path. -/
theorem Writes.path_of_success {task : Task} (h : task.Writes) {completion : Completion}
    (hcompletes : task.CompletesAs completion) (hsucceeds : completion.succeeds = true) :
    ∃ path, completion.outcome = .ok (some path) := by
  obtain ⟨code, found⟩ := completion
  obtain ⟨-, world, hsettled⟩ := hcompletes
  cases found with
  | error message => cases hsucceeds
  | ok found =>
      obtain ⟨path, rfl⟩ := Option.isSome_iff_exists.mp (h world found (eq_ok_of_settled hsettled))
      exact ⟨path, rfl⟩

end Task

namespace Underway

/-! ## What every step keeps -/

/-- What is true of a batch after the given completions: as long as it is not abandoned every entry
is completed, in flight or waiting; no more are in flight than there are slots; and the report and
the display know of the completions and of nothing else. -/
structure Kept (slots : Nat) (tasks : List Task) (trace : List (Task × Completion))
    (batch : Underway) : Prop where
  accounted : batch.abandoned = none →
    (trace.map Prod.fst ++ (batch.inFlight ++ batch.waiting)).Perm tasks
  bounded : batch.inFlight.length ≤ slots
  recorded : batch.report = .ofCompletions (trace.map Prod.snd)
  heard : batch.events = .start tasks.length :: (trace.map Prod.snd).map Completion.event
  worked : ∀ entry ∈ trace, entry.1.CompletesAs entry.2

variable {slots : Nat} {tasks : List Task} {trace : List (Task × Completion)}
  {batch next : Underway} {label : Option (Task × Completion)}

theorem kept_start (slots : Nat) (tasks : List Task) (world : World) :
    Kept slots tasks [] (start tasks world) where
  accounted := fun _ => .refl tasks
  bounded := Nat.zero_le slots
  recorded := rfl
  heard := rfl
  worked := by simp

/-- Without one of its entries a list is shorter. -/
theorem length_lt_of_split {whole before rest : List Task} {task : Task}
    (h : whole = before ++ task :: rest) : (before ++ rest).length < whole.length := by
  rw [h]
  simp

/-- A step without a completion leaves the report and the events alone. -/
theorem Kept.unrecorded (h : Kept slots tasks trace batch) (hreport : next.report = batch.report)
    (hevents : next.events = batch.events) (hbounded : next.inFlight.length ≤ slots)
    (haccounted : next.abandoned = none → batch.abandoned = none ∧
      (next.inFlight ++ next.waiting).Perm (batch.inFlight ++ batch.waiting)) :
    Kept slots tasks (trace ++ Option.toList none) next := by
  rw [Option.toList_none, List.append_nil]
  refine ⟨fun hopen => ?_, hbounded, hreport ▸ h.recorded, hevents ▸ h.heard, h.worked⟩
  obtain ⟨hbefore, hperm⟩ := haccounted hopen
  exact (hperm.append_left _).trans (h.accounted hbefore)

/-- A completed entry has left the entries in flight. -/
theorem Kept.completed (h : Kept slots tasks trace batch) {before rest : List Task} {task : Task}
    {completion : Completion} (hflight : batch.inFlight = before ++ task :: rest)
    (hcompletes : task.CompletesAs completion)
    (hnext : next.inFlight = before ++ rest ∧ next.waiting = batch.waiting ∧
      next.abandoned = batch.abandoned)
    (hreport : next.report = batch.report.add completion)
    (hevents : next.events = batch.events ++ [completion.event]) :
    Kept slots tasks (trace ++ [(task, completion)]) next where
  accounted hopen := by
    rw [hnext.2.2] at hopen
    refine List.Perm.trans ?_ (h.accounted hopen)
    rw [List.map_append, hnext.1, hnext.2.1, hflight, List.append_assoc]
    exact (List.perm_middle.symm.append_right batch.waiting).append_left _
  bounded := by
    rw [hnext.1]
    exact Nat.le_trans (Nat.le_of_lt (length_lt_of_split hflight)) h.bounded
  recorded := by
    rw [List.map_append, List.map_singleton, Report.ofCompletions_concat, ← h.recorded, hreport]
  heard := by simp [hevents, h.heard]
  worked := List.forall_mem_append.mpr ⟨h.worked, List.forall_mem_singleton.mpr hcompletes⟩

theorem Kept.step (h : Kept slots tasks trace batch) (hstep : Step slots batch label next) :
    Kept slots tasks (trace ++ label.toList) next := by
  cases hstep with
  | @enter before rest task hwaiting hfree =>
      refine h.unrecorded rfl rfl ?_ fun hopen => ⟨hopen, ?_⟩
      · rw [List.length_append]
        exact hfree
      · rw [hwaiting, List.append_assoc]
        have hmoved : (task :: (before ++ rest)).Perm (before ++ task :: rest) :=
          List.perm_middle.symm
        exact hmoved.append_left batch.inFlight
  | complete hflight hwork =>
      exact h.completed hflight (Task.completesAs_of_run hwork) ⟨rfl, rfl, rfl⟩ rfl rfl
  | stop hflight hwork =>
      exact h.unrecorded rfl rfl
        (Nat.le_trans (Nat.le_of_lt (length_lt_of_split hflight)) h.bounded) nofun
  | dropWaiting habandoned hwaiting =>
      refine h.unrecorded rfl rfl h.bounded fun hopen => ?_
      rw [show batch.abandoned = none from hopen] at habandoned
      cases habandoned
  | dropInFlight habandoned hflight =>
      refine h.unrecorded rfl rfl
        (Nat.le_trans (Nat.le_of_lt (length_lt_of_split hflight)) h.bounded) fun hopen => ?_
      rw [show batch.abandoned = none from hopen] at habandoned
      cases habandoned

theorem Run.kept {world : World} (hrun : Run slots (Underway.start tasks world) trace batch) :
    Kept slots tasks trace batch := by
  induction hrun with
  | start => exact kept_start slots tasks world
  | step hrun hstep ih => exact ih.step hstep

/-- A batch that is done without having been abandoned has completed every entry. -/
theorem Kept.perm_of_done (h : Kept slots tasks trace batch) (hdone : batch.isDone)
    (hopen : batch.abandoned = none) : (trace.map Prod.fst).Perm tasks := by
  have hall := h.accounted hopen
  rwa [hdone.1, hdone.2, List.append_nil, List.append_nil] at hall

/-! ## Coming to the end -/

/-- Every step uses up something. -/
theorem Step.remaining_lt (hstep : Step slots batch label next) :
    next.remaining < batch.remaining := by
  unfold remaining
  cases hstep with
  | enter hwaiting hfree =>
      have hless := length_lt_of_split hwaiting
      simp only [List.length_append, List.length_singleton] at hless ⊢
      omega
  | complete hflight hwork =>
      have hless := length_lt_of_split hflight
      simp only at hless ⊢
      omega
  | stop hflight hwork =>
      have hless := length_lt_of_split hflight
      simp only at hless ⊢
      omega
  | dropWaiting habandoned hwaiting =>
      have hless := length_lt_of_split hwaiting
      simp only at hless ⊢
      omega
  | dropInFlight habandoned hflight =>
      have hless := length_lt_of_split hflight
      simp only at hless ⊢
      omega

/-- A batch that is not done can take a step, if there is a slot at all. -/
theorem exists_step (hslots : 0 < slots) (hopen : ¬ batch.isDone) :
    ∃ label next, Step slots batch label next := by
  cases hflight : batch.inFlight with
  | nil =>
      cases hwaiting : batch.waiting with
      | nil => exact absurd ⟨hwaiting, hflight⟩ hopen
      | cons task rest =>
          have hsplit : batch.waiting = [] ++ task :: rest := hwaiting
          exact ⟨none, _, .enter hsplit (by rw [hflight]; exact hslots)⟩
  | cons task rest =>
      have hsplit : batch.inFlight = [] ++ task :: rest := hflight
      -- the work on any entry in flight ends in one way or the other
      cases hwork : task.complete.run.run batch.world with
      | mk found left =>
          cases found with
          | ok completion => exact ⟨_, _, .complete hsplit hwork⟩
          | error stop => exact ⟨_, _, .stop hsplit hwork⟩

/-- From wherever a batch has come to, it goes on to its end. -/
theorem Run.exists_done {first : Underway} (hslots : 0 < slots)
    (hrun : Run slots first trace batch) :
    ∃ more last, Run slots first (trace ++ more) last ∧ last.isDone := by
  induction hsize : batch.remaining using Nat.strongRecOn generalizing trace batch with
  | _ size ih =>
      by_cases hdone : batch.isDone
      · exact ⟨[], batch, by simpa using hrun, hdone⟩
      · obtain ⟨label, next, hstep⟩ := exists_step hslots hdone
        have hless := hstep.remaining_lt
        obtain ⟨more, last, hlast, hend⟩ := ih next.remaining (hsize ▸ hless) (hrun.step hstep) rfl
        exact ⟨label.toList ++ more, last, by simpa using hlast, hend⟩

/-- Entries of which each gives a result or a failure of its own do not abandon the batch. -/
theorem Run.not_abandoned {world : World} (hcontained : ∀ task ∈ tasks, task.IsContained)
    (hrun : Run slots (Underway.start tasks world) trace batch) : batch.abandoned = none := by
  induction hrun with
  | start => rfl
  | @step trace batch next label hrun hstep ih =>
      cases hstep with
      | enter => exact ih
      | complete => exact ih
      | @stop before rest task stop world hflight hwork =>
          have hmem : task ∈ tasks := by
            refine (hrun.kept.accounted ih).subset ?_
            simp [hflight]
          obtain ⟨completion, hcompletion⟩ := (hcontained task hmem).complete_ok batch.world
          rw [outcome, hwork] at hcompletion
          cases hcompletion
      | dropWaiting habandoned => simp [ih] at habandoned
      | dropInFlight habandoned => simp [ih] at habandoned

/-! ## Orders -/

/-- From where nothing is in flight the waiting entries can be completed in any order, each in the
world that the one before has left. -/
theorem Run.in_order {first : Underway} (hslots : 0 < slots) (order : List Task)
    (hrun : Run slots first trace batch) (hflight : batch.inFlight = [])
    (hwaiting : batch.waiting.Perm order) {completions : List Completion}
    (hwork : outcome (order.mapM Task.complete) batch.world = .ok completions) :
    ∃ last, Run slots first (trace ++ order.zip completions) last ∧ last.isDone ∧
      last.abandoned = batch.abandoned ∧
      last.world = after (order.mapM Task.complete) batch.world := by
  induction order generalizing trace batch completions with
  | nil =>
      refine ⟨batch, by simpa using hrun, ⟨hwaiting.eq_nil, hflight⟩, rfl, ?_⟩
      rw [List.mapM_nil, after_pure]
  | cons task order ih =>
      obtain ⟨completion, others, rfl, hcomplete, hothers⟩ := mapM_cons_ok hwork
      obtain ⟨before, rest, hsplit⟩ := List.append_of_mem (hwaiting.mem_iff.mpr List.mem_cons_self)
      -- the next entry gets a slot, and its work is over at once
      let entered : Underway :=
        { batch with waiting := before ++ rest, inFlight := batch.inFlight ++ [task] }
      have henter : Step slots batch none entered :=
        .enter hsplit (by rw [hflight]; exact hslots)
      have halone : entered.inFlight = [] ++ task :: [] := by
        rw [show entered.inFlight = batch.inFlight ++ [task] from rfl, hflight]
      have hrunTask : task.complete.run.run entered.world =
          (.ok completion, after task.complete batch.world) := Prod.ext hcomplete rfl
      have hleft : (before ++ rest).Perm order := by
        rw [hsplit] at hwaiting
        exact (List.perm_middle.symm.trans hwaiting).cons_inv
      obtain ⟨last, hlast, hdone, hopen, hworld⟩ :=
        ih ((hrun.step henter).step (.complete halone hrunTask)) rfl hleft hothers
      refine ⟨last, by simpa using hlast, hdone, hopen, ?_⟩
      rw [hworld, after_mapM_cons hcomplete]

/-- A batch that is not abandoned is as if its entries had been worked on one after another, in the
order in which they were completed. -/
theorem Run.replayed {world : World} (hrun : Run slots (Underway.start tasks world) trace batch)
    (hopen : batch.abandoned = none) :
    outcome ((trace.map Prod.fst).mapM Task.complete) world = .ok (trace.map Prod.snd) ∧
      after ((trace.map Prod.fst).mapM Task.complete) world = batch.world := by
  induction hrun with
  | start => exact ⟨rfl, rfl⟩
  | @step trace batch next label hrun hstep ih =>
      cases hstep with
      | enter => simpa using ih hopen
      | @complete before rest task completion left hflight hwork =>
          obtain ⟨houtcome, hworld⟩ := ih hopen
          have hcomplete : outcome task.complete
              (after ((trace.map Prod.fst).mapM Task.complete) world) = .ok completion := by
            rw [hworld, outcome, hwork]
          obtain ⟨hall, hleft⟩ := mapM_concat_ok houtcome hcomplete
          rw [Option.toList_some, List.map_append, List.map_append, List.map_singleton,
            List.map_singleton]
          refine ⟨hall, ?_⟩
          rw [hleft, hworld, after, hwork]
      | stop => cases hopen
      | dropWaiting habandoned =>
          rw [show batch.abandoned = none from hopen] at habandoned
          cases habandoned
      | dropInFlight habandoned =>
          rw [show batch.abandoned = none from hopen] at habandoned
          cases habandoned

/-- The work on contained entries comes to its end, in whatever order. -/
theorem completions_of_contained {order : List Task} (h : ∀ task ∈ order, task.IsContained)
    (world : World) :
    ∃ completions, outcome (order.mapM Task.complete) world = .ok completions := by
  induction order generalizing world with
  | nil => exact ⟨[], rfl⟩
  | cons task order ih =>
      obtain ⟨htask, horder⟩ := List.forall_mem_cons.mp h
      obtain ⟨completion, hcompletion⟩ := htask.complete_ok world
      obtain ⟨completions, hcompletions⟩ := ih horder (after task.complete world)
      refine ⟨completion :: completions, ?_⟩
      rw [outcome_mapM_cons, hcompletion, Except.bind, hcompletions]
      rfl

end Underway

/-! ## Entries of a plan -/

/-- An entry of a plan is completed as its code is. -/
theorem Plan.complete_task (plan : Plan) (code : Text) :
    (plan.task code).complete = plan.complete code := by
  have houtcome : ∀ world, outcome (plan.task code).complete world =
      outcome (plan.complete code) world := by
    intro world
    rw [Task.outcome_complete, Plan.outcome_complete, task, outcome_map, settled_map]
    cases settled (outcome (plan.sync code) world) <;> rfl
  have hafter : ∀ world, after (plan.task code).complete world =
      after (plan.complete code) world := by
    intro world
    let entry (found : Except WideText (Option Path)) : Completion := ⟨code, found⟩
    calc after (plan.task code).complete world
        = after (entry <$> recorded (Synced.path <$> plan.sync code)) world := rfl
      _ = after (Synced.path <$> plan.sync code) world := by rw [after_map, after_recorded]
      _ = after (plan.complete code) world := by rw [after_map, after_complete]
  exact ExceptT.ext (StateT.ext fun world => Prod.ext (houtcome world) (hafter world))

/-- A plan with a directory gives a path with every success. -/
theorem Plan.task_writes {plan : Plan} {directory : Path}
    (h : plan.destination = .directory directory) (code : Text) : (plan.task code).Writes := by
  intro world found hfound
  rw [task, outcome_map] at hfound
  cases hsync : outcome (plan.sync code) world with
  | error stop =>
      rw [hsync] at hfound
      cases hfound
  | ok synced =>
      rw [hsync] at hfound
      obtain rfl := Except.ok.inj hfound
      obtain ⟨t, -, -, -, hdeliver, -⟩ := sync_ok hsync
      rw [h] at hdeliver
      obtain ⟨file, hfile, -⟩ := deliver_directory_ok hdeliver
      rw [hfile]
      rfl

theorem Plan.mapM_complete_task (plan : Plan) (codes : List Text) :
    (codes.map plan.task).mapM Task.complete = plan.completeAll codes := by
  rw [List.mapM_map, completeAll]
  congr 1
  funext code
  exact plan.complete_task code

/-- The work on one country after another is a batch in which each is completed before the next
one gets a slot. -/
theorem Plan.run_completeAll {plan : Plan} {codes : List Text} {world : World}
    {completions : List Completion} {slots : Nat} (hslots : 0 < slots)
    (h : outcome (plan.completeAll codes) world = .ok completions) :
    ∃ trace last, Underway.Run slots (.start (codes.map plan.task) world) trace last ∧
      last.isDone ∧ last.result = .ok (.ofCompletions completions) ∧
      last.world = after (plan.completeAll codes) world := by
  rw [← plan.mapM_complete_task] at h ⊢
  have hstart : Underway.Run slots (.start (codes.map plan.task) world) []
      (.start (codes.map plan.task) world) := .start
  obtain ⟨last, hrun, hdone, hopen, hworld⟩ :=
    hstart.in_order hslots (codes.map plan.task) rfl (.refl _) h
  refine ⟨_, last, hrun, hdone, ?_, hworld⟩
  rw [Underway.result, hopen, hrun.kept.recorded, List.nil_append,
    List.map_snd_zip (Nat.le_of_eq (length_of_mapM_ok h))]
  rfl

/-- A batch that gives a report is as if its countries had been worked on one after another, in
some order. -/
theorem Plan.completeAll_of_run {plan : Plan} {codes : List Text} {world : World} {slots : Nat}
    {trace : List (Task × Completion)} {last : Underway} {report : Report}
    (hrun : Underway.Run slots (.start (codes.map plan.task) world) trace last)
    (hdone : last.isDone) (hresult : last.result = .ok report) :
    ∃ order completions, order.Perm codes ∧
      outcome (plan.completeAll order) world = .ok completions ∧
      after (plan.completeAll order) world = last.world ∧
      report = .ofCompletions completions := by
  obtain ⟨hopen, rfl⟩ : last.abandoned = none ∧ last.report = report := by
    unfold Underway.result at hresult
    split at hresult
    next => cases hresult
    next hopen => exact ⟨hopen, Except.ok.inj hresult⟩
  have hperm := hrun.kept.perm_of_done hdone hopen
  obtain ⟨houtcome, hafter⟩ := hrun.replayed hopen
  -- every entry is the one of its code
  have hentries : ((trace.map Prod.fst).map Task.code).map plan.task = trace.map Prod.fst := by
    rw [List.map_map]
    conv_rhs => rw [← List.map_id (trace.map Prod.fst)]
    apply List.map_congr_left
    intro entry hentry
    obtain ⟨code, -, rfl⟩ := List.mem_map.mp (hperm.subset hentry)
    rfl
  refine ⟨(trace.map Prod.fst).map Task.code, trace.map Prod.snd, ?_, ?_, ?_, hrun.kept.recorded⟩
  · have hcodes := hperm.map Task.code
    rwa [List.map_map (f := plan.task), show Task.code ∘ plan.task = id from rfl, List.map_id]
      at hcodes
  · rwa [← plan.mapM_complete_task, hentries]
  · rwa [← plan.mapM_complete_task, hentries]

end Almanac.Batch
