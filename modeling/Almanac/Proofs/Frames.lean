/-!
# Work that leaves a part of the state alone

Work that goes on in a state and may stop keeps a part of the state if it is the same behind the
work as before it, whether the work stops or not. What is put together from such work keeps the part
as well, so it is enough to look at the single pieces.
-/

namespace Almanac

variable {σ τ ε α β : Type}

/-- The work leaves what is seen of the state as it is, however it ends. -/
def Keeps (view : σ → τ) (work : ExceptT ε (StateM σ) α) : Prop :=
  ∀ state, view (work.run.run state).2 = view state

namespace Keeps

variable {view : σ → τ} {work : ExceptT ε (StateM σ) α} {next : α → ExceptT ε (StateM σ) β}

theorem pure (value : α) : Keeps view (Pure.pure value : ExceptT ε (StateM σ) α) :=
  fun _ => rfl

theorem throw (error : ε) : Keeps view (MonadExcept.throw error : ExceptT ε (StateM σ) α) :=
  fun _ => rfl

theorem get : Keeps view (MonadState.get : ExceptT ε (StateM σ) σ) :=
  fun _ => rfl

theorem modify {f : σ → σ} (h : ∀ state, view (f state) = view state) :
    Keeps view (modify f : ExceptT ε (StateM σ) PUnit) :=
  h

theorem ofExcept (value : Except ε α) :
    Keeps view (MonadExcept.ofExcept value : ExceptT ε (StateM σ) α) := by
  cases value with
  | ok value => exact pure value
  | error error => exact throw error

theorem bind (h : Keeps view work) (hnext : ∀ value, Keeps view (next value)) :
    Keeps view (work >>= next) := by
  intro state
  rw [ExceptT.run_bind, StateT.run_bind]
  have hstate := h state
  cases hrun : work.run.run state with
  | mk found left =>
      rw [hrun] at hstate
      cases found with
      | ok value => exact (hnext value left).trans hstate
      | error error => exact hstate

theorem map (f : α → β) (h : Keeps view work) : Keeps view (f <$> work) :=
  h.bind fun value => pure (f value)

/-- Work that is rescued keeps what the work and each rescue keep. -/
theorem tryCatch {rescue : ε → ExceptT ε (StateM σ) α} (h : Keeps view work)
    (hrescue : ∀ error, Keeps view (rescue error)) :
    Keeps view (MonadExcept.tryCatch work rescue) := by
  intro state
  simp only [MonadExcept.tryCatch, tryCatchThe, MonadExceptOf.tryCatch, ExceptT.tryCatch,
    ExceptT.run_mk, StateT.run_bind]
  have hstate := h state
  cases hrun : work.run.run state with
  | mk found left =>
      have hwork : StateT.run work state = Pure.pure (found, left) := hrun
      rw [hrun] at hstate
      rw [hwork]
      cases found with
      | ok value => exact hstate
      | error error => exact (hrescue error left).trans hstate

theorem mapM {work : α → ExceptT ε (StateM σ) β} (h : ∀ item, Keeps view (work item))
    (items : List α) : Keeps view (items.mapM work) := by
  induction items with
  | nil => exact pure []
  | cons item items ih =>
      rw [List.mapM_cons]
      exact (h item).bind fun value => ih.map (value :: ·)

theorem foldlM {work : β → α → ExceptT ε (StateM σ) β}
    (h : ∀ value item, Keeps view (work value item)) (value : β) (items : List α) :
    Keeps view (items.foldlM work value) := by
  induction items generalizing value with
  | nil => exact pure value
  | cons item items ih =>
      rw [List.foldlM_cons]
      exact (h value item).bind ih

end Keeps
end Almanac
