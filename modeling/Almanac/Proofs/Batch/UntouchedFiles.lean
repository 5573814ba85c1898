import Almanac.Batch.Concurrent
import Almanac.Batch.Validation
import Almanac.Proofs.Frames

/-!
# Work that leaves files alone

Only saving a record changes files. Asking the host does not, nor does looking at a record, so
validation leaves files alone, and so does the work on countries whose records go nowhere. This
depends neither on what the host answers nor on how the work ends, nor on which countries are worked
on at once.
-/

namespace Almanac.Batch

open Almanac.Storage Almanac.Remote Almanac.Time

variable {α : Type}

/-- The work leaves files as they are, however it ends. -/
abbrev KeepsFiles (work : Work α) : Prop :=
  Keeps World.files work

theorem KeepsFiles.exchange (work : Exchange α) : KeepsFiles (exchange work) :=
  fun _ => rfl

/-- Looking at files leaves them as they are. -/
theorem KeepsFiles.looking (look : FileTree → Except Stop α) :
    KeepsFiles (storing fun files => (look files, files)) :=
  fun _ => rfl

theorem KeepsFiles.recorded {work : Work α} (h : KeepsFiles work) : KeepsFiles (recorded work) := by
  refine (h.map Except.ok).tryCatch fun stop => ?_
  cases stop with
  | mishap mishap => exact .throw _
  | failure failure =>
      change Keeps World.files (if _ then _ else _)
      split
      next => exact .pure _
      next => exact .throw _

/-- The host comes to answer in this way. -/
def answering (host : Host) : Work Unit :=
  modify fun world => { world with host := host }

theorem KeepsFiles.answering (host : Host) : KeepsFiles (answering host) :=
  Keeps.modify fun _ => rfl

/-! ## Validation -/

namespace Validation

variable (room : Nat) (fetcher : Fetcher) (now : Timestamp)

theorem keepsFiles_compare (path : Path) (code : Text) :
    KeepsFiles (compare room fetcher now path code) :=
  (KeepsFiles.looking _).bind fun _ => (KeepsFiles.exchange _).bind fun _ =>
    (Keeps.ofExcept _).bind fun _ => .pure _

theorem keepsFiles_extend (directory : Path) (validation : Validation) (code : Text) :
    KeepsFiles (extend room fetcher now directory validation code) := by
  refine Keeps.get.bind fun world => ?_
  split
  next => exact (keepsFiles_compare room fetcher now _ code).recorded.bind fun _ => .pure _
  next => exact .pure _

theorem keepsFiles_ofCodes (directory : Path) (codes : List Text) :
    KeepsFiles (ofCodes room fetcher now directory codes) :=
  Keeps.foldlM (keepsFiles_extend room fetcher now directory) {} codes

/-- The validation of countries by a host that answers for each of them in another way. -/
def ofAnswered (directory : Path) (countries : List (Text × Host)) : Work Validation :=
  countries.foldlM (fun validation country => do
    answering country.2
    extend room fetcher now directory validation country.1) {}

theorem keepsFiles_ofAnswered (directory : Path) (countries : List (Text × Host)) :
    KeepsFiles (ofAnswered room fetcher now directory countries) := by
  refine Keeps.foldlM (fun validation country => ?_) _ countries
  refine (KeepsFiles.answering country.2).bind fun _ => ?_
  exact keepsFiles_extend room fetcher now directory validation country.1

end Validation

/-! ## Countries whose records go nowhere -/

namespace Plan

variable {plan : Plan}

theorem keepsFiles_sync (hnowhere : plan.destination = .nowhere) (code : Text) :
    KeepsFiles (plan.sync code) := by
  refine (KeepsFiles.exchange _).bind fun t => (Keeps.ofExcept _).bind fun reading => ?_
  rw [hnowhere]
  exact (Keeps.pure none).bind fun _ => .pure _

theorem keepsFiles_completeAll (hnowhere : plan.destination = .nowhere) (codes : List Text) :
    KeepsFiles (plan.completeAll codes) :=
  Keeps.mapM (fun code => (keepsFiles_sync hnowhere code).recorded.bind fun _ => .pure _) codes

theorem keepsFiles_task (hnowhere : plan.destination = .nowhere) (code : Text) :
    KeepsFiles (plan.task code).work :=
  (keepsFiles_sync hnowhere code).map Synced.path

end Plan

/-! ## Many countries at once -/

namespace Underway

/-- What becomes of a batch step by step, while the host may come to answer otherwise between any
two steps. -/
inductive Reached (slots : Nat) (first : Underway) : Underway → Prop where
  | start : Reached slots first first
  | step {batch next : Underway} {label : Option (Task × Completion)}
      (h : Reached slots first batch) (hstep : Step slots batch label next) :
      Reached slots first next
  | host {batch : Underway} (h : Reached slots first batch) (host : Host) :
      Reached slots first { batch with world := { batch.world with host := host } }

variable {slots : Nat} {first batch next : Underway} {label : Option (Task × Completion)}

/-- The entries that are left have work that leaves files alone. -/
def IsFilesSafe (batch : Underway) : Prop :=
  ∀ task ∈ batch.waiting ++ batch.inFlight, KeepsFiles task.work

/-- No step brings an entry that was not there. -/
theorem entries_subset_of_step (hstep : Step slots batch label next) :
    next.waiting ++ next.inFlight ⊆ batch.waiting ++ batch.inFlight := by
  intro task htask
  cases hstep with
  | enter hwaiting => grind
  | complete hflight => grind
  | stop hflight => grind
  | dropWaiting _ hwaiting => grind
  | dropInFlight _ hflight => grind

/-- A step of entries that leave files alone leaves them alone. -/
theorem files_of_step (hsafe : batch.IsFilesSafe) (hstep : Step slots batch label next) :
    next.world.files = batch.world.files ∧ next.IsFilesSafe := by
  refine ⟨?_, fun task htask => hsafe task (entries_subset_of_step hstep htask)⟩
  have hwork : ∀ {task : Task} {before rest : List Task},
      batch.inFlight = before ++ task :: rest → ∀ {found : Except Stop Completion} {world : World},
      task.complete.run.run batch.world = (found, world) → world.files = batch.world.files := by
    intro task before rest hflight found world hrun
    have htask : KeepsFiles task.work := hsafe task (by simp [hflight])
    have hcomplete : KeepsFiles task.complete := htask.recorded.bind fun _ => .pure _
    have hfiles := hcomplete batch.world
    rwa [hrun] at hfiles
  cases hstep with
  | enter => rfl
  | complete hflight hrun => exact hwork hflight hrun
  | stop hflight hrun => exact hwork hflight hrun
  | dropWaiting => rfl
  | dropInFlight => rfl

theorem files_of_reached (hsafe : first.IsFilesSafe) (h : Reached slots first batch) :
    batch.world.files = first.world.files ∧ batch.IsFilesSafe := by
  induction h with
  | start => exact ⟨rfl, hsafe⟩
  | step _ hstep ih =>
      obtain ⟨hfiles, hbatch⟩ := ih
      obtain ⟨hnext, hnextSafe⟩ := files_of_step hbatch hstep
      exact ⟨hnext.trans hfiles, hnextSafe⟩
  | host _ host ih => exact ih

/-- While countries are worked on whose records go nowhere, files stay as they are, whatever the
host answers and however the batch ends. -/
theorem files_of_nowhere {plan : Plan} (hnowhere : plan.destination = .nowhere) {codes : List Text}
    {world : World} (h : Reached slots (.start (codes.map plan.task) world) batch) :
    batch.world.files = world.files := by
  refine (files_of_reached (fun task htask => ?_) h).1
  obtain ⟨code, -, rfl⟩ : ∃ code ∈ codes, plan.task code = task := by
    simpa [start] using htask
  exact Plan.keepsFiles_task hnowhere code

end Underway
end Almanac.Batch
