import Almanac.Batch.Report
import Almanac.Proofs.Outcome

/-!
# The work on one country, stage by stage

The work on a country asks the host, then reads, then stores. Its outcome and the world that it
leaves are those of its stages put one behind the other. A failure that belongs to one file is
turned into an entry of the report; what the work did to the world before it stays done.
-/

namespace Almanac.Batch

open Almanac.Text Almanac.Data Almanac.Storage Almanac.Remote

variable {α : Type}

/-! ## Stages -/

@[simp] theorem outcome_getWorld (world : World) : outcome (get : Work World) world = .ok world :=
  rfl

theorem after_getWorld (world : World) : after (get : Work World) world = world :=
  rfl

theorem outcome_exchange (work : Exchange α) (world : World) :
    outcome (exchange work) world = outcome work world.host :=
  rfl

/-- Asking the host leaves the files alone. -/
@[simp] theorem after_exchange (work : Exchange α) (world : World) :
    after (exchange work) world = { world with host := after work world.host } :=
  rfl

theorem outcome_storing (work : FileTree → Except Stop α × FileTree) (world : World) :
    outcome (storing work) world = (work world.files).1 :=
  rfl

theorem after_storing (work : FileTree → Except Stop α × FileTree) (world : World) :
    after (storing work) world = { world with files := (work world.files).2 } :=
  rfl

/-- What is recorded of an outcome, if the work goes on behind it. -/
def settled : Except Stop α → Except Stop (Except WideText α)
  | .ok value => .ok (.ok value)
  | .error (.failure failure) =>
      if failure.kind.isFileLevel then .ok (.error failure.message) else .error (.failure failure)
  | .error (.mishap mishap) => .error (.mishap mishap)

/-- Only a result is recorded as one. -/
theorem eq_ok_of_settled {found : Except Stop α} {value : α} (h : settled found = .ok (.ok value)) :
    found = .ok value := by
  cases found with
  | ok other => rw [Except.ok.inj (Except.ok.inj h)]
  | error stop =>
      cases stop with
      | mishap mishap => cases h
      | failure failure =>
          rw [settled] at h
          split at h <;> cases h

/-- The results are recorded after what is done with them, the failures before it. -/
theorem settled_map {β : Type} (f : α → β) (found : Except Stop α) :
    settled (found.map f) = (settled found).map (Except.map f) := by
  cases found with
  | ok value => rfl
  | error stop =>
      cases stop with
      | mishap mishap => rfl
      | failure failure =>
          simp only [Except.map, settled]
          cases failure.kind.isFileLevel <;> rfl

theorem run_recorded (work : Work α) (world : World) :
    (recorded work).run.run world = (settled (outcome work world), after work world) := by
  unfold recorded
  rw [run_tryCatch, outcome_map, after_map]
  cases outcome work world with
  | ok value => rfl
  | error stop =>
      cases stop with
      | mishap mishap => rfl
      | failure failure =>
          simp only [Except.map, settled]
          cases failure.kind.isFileLevel <;> rfl

@[simp] theorem outcome_recorded (work : Work α) (world : World) :
    outcome (recorded work) world = settled (outcome work world) := by
  rw [outcome, run_recorded]

@[simp] theorem after_recorded (work : Work α) (world : World) :
    after (recorded work) world = after work world := by
  rw [after, run_recorded]

/-! ## One country -/

/-- What becomes of a source text: it is read, and the record of its profile is delivered. -/
def Plan.digest (plan : Plan) (code t : Text) : Work Synced := do
  let reading ← MonadExcept.ofExcept (reading t code plan.compare)
  let record := recordOf plan.now code reading.profile
  let path ← deliver record plan.destination
  return ⟨reading, record, path⟩

theorem Plan.sync_eq (plan : Plan) (code : Text) :
    plan.sync code = exchange (plan.fetcher.source code) >>= plan.digest code :=
  rfl

theorem Plan.outcome_sync (plan : Plan) (code : Text) (world : World) :
    outcome (plan.sync code) world =
      (outcome (plan.fetcher.source code) world.host).bind fun t =>
        outcome (plan.digest code t)
          { world with host := after (plan.fetcher.source code) world.host } := by
  rw [sync_eq, outcome_bind, outcome_exchange, after_exchange]

/-- A source that cannot be had is the end of the work on its country. -/
theorem Plan.outcome_sync_of_source_error {plan : Plan} {code : Text} {world : World} {stop : Stop}
    (h : outcome (plan.fetcher.source code) world.host = .error stop) :
    outcome (plan.sync code) world = .error stop := by
  rw [outcome_sync, h]
  rfl

theorem outcome_deliver_directory (record : Record) (directory : Path) (world : World) :
    outcome (deliver record (.directory directory)) world =
      (RecordFile.save world.files directory record).1.map some := by
  unfold deliver
  rw [outcome_map, outcome_storing]

theorem after_deliver_directory (record : Record) (directory : Path) (world : World) :
    after (deliver record (.directory directory)) world =
      { world with files := (RecordFile.save world.files directory record).2 } := by
  unfold deliver
  rw [after_map, after_storing]

theorem deliver_directory_ok {record : Record} {directory : Path} {world : World}
    {path : Option Path} (h : outcome (deliver record (.directory directory)) world = .ok path) :
    ∃ file, path = some file ∧ (RecordFile.save world.files directory record).1 = .ok file := by
  rw [outcome_deliver_directory] at h
  cases hsave : (RecordFile.save world.files directory record).1 with
  | error stop =>
      rw [hsave] at h
      cases h
  | ok file =>
      rw [hsave] at h
      exact ⟨file, (Except.ok.inj h).symm, rfl⟩

/-- The result of the work on a country comes from the source that was had and the profile that was
read in it. -/
theorem Plan.sync_ok {plan : Plan} {code : Text} {world : World} {synced : Synced}
    (h : outcome (plan.sync code) world = .ok synced) :
    ∃ t, outcome (plan.fetcher.source code) world.host = .ok t ∧
      reading t code plan.compare = .ok synced.reading ∧
      synced.record = recordOf plan.now code synced.reading.profile ∧
      outcome (deliver synced.record plan.destination)
        { world with host := after (plan.fetcher.source code) world.host } = .ok synced.path ∧
      after (plan.sync code) world = after (deliver synced.record plan.destination)
        { world with host := after (plan.fetcher.source code) world.host } := by
  rw [outcome_sync] at h
  cases hsource : outcome (plan.fetcher.source code) world.host with
  | error stop =>
      rw [hsource] at h
      cases h
  | ok t =>
      rw [hsource, Except.bind, digest, outcome_bind, outcome_ofExcept, after_ofExcept] at h
      cases hreading : reading t code plan.compare with
      | error stop =>
          rw [hreading] at h
          cases h
      | ok found =>
          rw [hreading, Except.bind, outcome_bind] at h
          cases hdeliver : outcome (deliver (recordOf plan.now code found.profile)
              plan.destination)
              { world with host := after (plan.fetcher.source code) world.host } with
          | error stop =>
              rw [hdeliver] at h
              cases h
          | ok path =>
              rw [hdeliver] at h
              obtain rfl := Except.ok.inj h
              refine ⟨t, rfl, hreading, rfl, hdeliver, ?_⟩
              have hexchange : outcome (exchange (plan.fetcher.source code)) world = .ok t :=
                hsource
              rw [sync_eq, after_bind_of_ok hexchange, after_exchange, digest,
                after_bind_of_ok (by rw [outcome_ofExcept, hreading]), after_ofExcept,
                after_bind_of_ok hdeliver, after_pure]

theorem Plan.outcome_complete (plan : Plan) (code : Text) (world : World) :
    outcome (plan.complete code) world =
      (settled (outcome (plan.sync code) world)).map fun (found : Except WideText Synced) =>
        ⟨code, found.map Synced.path⟩ := by
  unfold complete
  rw [outcome_bind, outcome_recorded]
  cases settled (outcome (plan.sync code) world) <;> rfl

/-- A success comes from a country that was worked on to the end. -/
theorem Plan.sync_of_success {plan : Plan} {code : Text} {world : World} {completion : Completion}
    {path : Option Path} (h : outcome (plan.complete code) world = .ok completion)
    (hsuccess : completion.outcome = .ok path) :
    ∃ synced, outcome (plan.sync code) world = .ok synced := by
  rw [outcome_complete] at h
  cases hsettled : settled (outcome (plan.sync code) world) with
  | error stop => rw [hsettled] at h; cases h
  | ok found =>
      rw [hsettled] at h
      obtain rfl := Except.ok.inj h
      cases found with
      | error message => cases hsuccess
      | ok synced => exact ⟨synced, eq_ok_of_settled hsettled⟩

theorem Plan.after_complete (plan : Plan) (code : Text) (world : World) :
    after (plan.complete code) world = after (plan.sync code) world := by
  let entry (found : Except WideText Synced) : Completion := ⟨code, found.map Synced.path⟩
  calc after (plan.complete code) world
      = after (entry <$> recorded (plan.sync code)) world := rfl
    _ = after (recorded (plan.sync code)) world := after_map entry _ world
    _ = after (plan.sync code) world := after_recorded _ world

/-- A plan with a fetcher of its own, for one moment in May. -/
def plainPlan : Plan where
  fetcher := {}
  now := ⟨⟨2024, 5, 3, by decide⟩, ⟨6, 7, 8, 0, by decide⟩, some Time.Offset.utc⟩

end Almanac.Batch
