import Almanac.Failure

/-!
# Outcome and end state of work

Work that may stop goes on in a state and keeps what it did to it when it stops. Running it gives
two things, its outcome and the state that it leaves, and each of them has an equation for every
way to put work together. Facts about fetchers and about batches are read off these equations and
never off the layers of the monad. Work without a state that came to a value is taken apart step
by step.
-/

namespace Almanac

variable {σ α β : Type}

/-! ## Work without a state -/

section Except

variable {ε ε' : Type}

theorem bind_eq_ok {found : Except ε α} {next : α → Except ε β} {result : β} :
    found >>= next = .ok result ↔ ∃ value, found = .ok value ∧ next value = .ok result := by
  cases found with
  | error fault => simp [bind, Except.bind]
  | ok value => simp [bind, Except.bind]

@[simp] theorem mapError_eq_ok {found : Except ε α} {f : ε → ε'} {value : α} :
    found.mapError f = .ok value ↔ found = .ok value := by
  cases found with
  | error fault => exact iff_of_false nofun nofun
  | ok other =>
      change Except.ok other = Except.ok value ↔ _
      rw [Except.ok.injEq, Except.ok.injEq]

theorem map_ok_iff (found : Except ε α) (f : α → β) :
    (∃ result, found.map f = .ok result) ↔ ∃ value, found = .ok value := by
  cases found <;> simp [Except.map]

theorem exists_of_map_eq_ok {found : Except ε α} {f : α → β} {result : β}
    (h : found.map f = .ok result) : ∃ value, found = .ok value ∧ f value = result := by
  cases found with
  | error fault => cases h
  | ok value => exact ⟨value, rfl, Except.ok.inj h⟩

@[simp] theorem map_eq_error {found : Except ε α} {f : α → β} {fault : ε} :
    found.map f = .error fault ↔ found = .error fault := by
  cases found with
  | error other =>
      change Except.error other = Except.error fault ↔ _
      rw [Except.error.injEq, Except.error.injEq]
  | ok value => exact iff_of_false nofun nofun

/-- What every step of a run keeps holds at its end. -/
theorem of_foldlM_eq_ok {holds : β → Prop} {step : β → α → Except ε β} {items : List α}
    {start last : β} (hlast : items.foldlM step start = .ok last) (hstart : holds start)
    (hstep : ∀ item ∈ items, ∀ state next, holds state → step state item = .ok next →
      holds next) : holds last := by
  induction items generalizing start with
  | nil =>
      obtain rfl := Except.ok.inj hlast
      exact hstart
  | cons item items ih =>
      obtain ⟨hitem, hitems⟩ := List.forall_mem_cons.mp hstep
      rw [List.foldlM_cons] at hlast
      obtain ⟨next, hnext, hlast⟩ := bind_eq_ok.mp hlast
      exact ih hlast (hitem start next hstart hnext) hitems

end Except

/-! ## Work in a state -/

/-- How work ends that is begun in a state. -/
def outcome (work : ExceptT Stop (StateM σ) α) (state : σ) : Except Stop α :=
  (work.run.run state).1

/-- What work that is begun in a state leaves of it, whether it stops or not. -/
def after (work : ExceptT Stop (StateM σ) α) (state : σ) : σ :=
  (work.run.run state).2

@[simp]
theorem after_pure (value : α) (state : σ) :
    after (pure value : ExceptT Stop (StateM σ) α) state = state :=
  rfl

@[simp]
theorem outcome_ofExcept (value : Except Stop α) (state : σ) :
    outcome (MonadExcept.ofExcept value) state = value := by
  cases value <;> rfl

@[simp]
theorem after_ofExcept (value : Except Stop α) (state : σ) :
    after (MonadExcept.ofExcept value : ExceptT Stop (StateM σ) α) state = state := by
  cases value <;> rfl

/-- What comes next starts from what the first part leaves, unless the first part stops. -/
@[simp]
theorem outcome_bind (work : ExceptT Stop (StateM σ) α) (next : α → ExceptT Stop (StateM σ) β)
    (state : σ) :
    outcome (work >>= next) state =
      (outcome work state).bind fun value => outcome (next value) (after work state) := by
  unfold outcome after
  rw [ExceptT.run_bind, StateT.run_bind]
  cases h : work.run.run state with
  | mk found left =>
      cases found with
      | ok value => rfl
      | error stop => rfl

theorem after_bind (work : ExceptT Stop (StateM σ) α) (next : α → ExceptT Stop (StateM σ) β)
    (state : σ) : after (work >>= next) state = match outcome work state with
      | .ok value => after (next value) (after work state)
      | .error _ => after work state := by
  unfold outcome after
  rw [ExceptT.run_bind, StateT.run_bind]
  cases h : work.run.run state with
  | mk found left =>
      cases found with
      | ok value => rfl
      | error stop => rfl

theorem after_bind_of_ok {work : ExceptT Stop (StateM σ) α} {state : σ} {value : α}
    (h : outcome work state = .ok value) (next : α → ExceptT Stop (StateM σ) β) :
    after (work >>= next) state = after (next value) (after work state) := by
  rw [after_bind, h]

theorem after_bind_of_error {work : ExceptT Stop (StateM σ) α} {state : σ} {stop : Stop}
    (h : outcome work state = .error stop) (next : α → ExceptT Stop (StateM σ) β) :
    after (work >>= next) state = after work state := by
  rw [after_bind, h]

@[simp] theorem outcome_map (f : α → β) (work : ExceptT Stop (StateM σ) α) (state : σ) :
    outcome (f <$> work) state = (outcome work state).map f := by
  unfold outcome
  rw [ExceptT.run_map, StateT.run_map]
  rfl

@[simp] theorem after_map (f : α → β) (work : ExceptT Stop (StateM σ) α) (state : σ) :
    after (f <$> work) state = after work state := by
  unfold after
  rw [ExceptT.run_map, StateT.run_map]
  rfl

/-- Work that is rescued goes on from what it left when it stopped. -/
theorem run_tryCatch (work : ExceptT Stop (StateM σ) α)
    (rescue : Stop → ExceptT Stop (StateM σ) α) (state : σ) :
    (tryCatch work rescue : ExceptT Stop (StateM σ) α).run.run state =
      match outcome work state with
      | .ok value => (.ok value, after work state)
      | .error stop => (rescue stop).run.run (after work state) := by
  simp only [tryCatch, tryCatchThe, MonadExceptOf.tryCatch, ExceptT.tryCatch, ExceptT.run_mk,
    StateT.run_bind]
  unfold outcome after
  cases hrun : work.run.run state with
  | mk found left =>
      have hwork : StateT.run work state = pure (found, left) := hrun
      rw [hwork]
      cases found <;> rfl

/-- A value that is only read further leaves the state as the work left it. -/
@[simp] theorem outcome_bind_ofExcept (work : ExceptT Stop (StateM σ) α) (read : α → Except Stop β)
    (state : σ) :
    outcome (work >>= fun value => MonadExcept.ofExcept (read value)) state =
      (outcome work state).bind read := by
  simp

/-- Work behind which the state is left alone leaves it where the work did. -/
theorem after_bind_of_still {next : α → ExceptT Stop (StateM σ) β}
    (hstill : ∀ value state, after (next value) state = state)
    (work : ExceptT Stop (StateM σ) α) (state : σ) :
    after (work >>= next) state = after work state := by
  cases h : outcome work state with
  | ok value => rw [after_bind_of_ok h, hstill]
  | error stop => exact after_bind_of_error h _

@[simp] theorem after_bind_ofExcept (work : ExceptT Stop (StateM σ) α) (read : α → Except Stop β)
    (state : σ) :
    after (work >>= fun value => MonadExcept.ofExcept (read value)) state = after work state :=
  after_bind_of_still (fun value => after_ofExcept (read value)) work state

/-! ## Work on the items of a list -/

@[simp] theorem outcome_mapM_cons (work : α → ExceptT Stop (StateM σ) β) (item : α) (items : List α)
    (state : σ) :
    outcome ((item :: items).mapM work) state =
      (outcome (work item) state).bind fun value =>
        (outcome (items.mapM work) (after (work item) state)).map (value :: ·) := by
  rw [List.mapM_cons, outcome_bind]
  congr 1
  funext value
  exact outcome_map (value :: ·) (items.mapM work) (after (work item) state)

theorem after_mapM_cons {work : α → ExceptT Stop (StateM σ) β} {item : α} {state : σ} {value : β}
    (h : outcome (work item) state = .ok value) (items : List α) :
    after ((item :: items).mapM work) state =
      after (items.mapM work) (after (work item) state) := by
  rw [List.mapM_cons, after_bind_of_ok h]
  exact after_map (value :: ·) (items.mapM work) (after (work item) state)

/-- If the work on all items gives results, so does that on the first, and then on the others. -/
theorem mapM_cons_ok {work : α → ExceptT Stop (StateM σ) β} {item : α} {items : List α} {state : σ}
    {values : List β} (h : outcome ((item :: items).mapM work) state = .ok values) :
    ∃ value rest, values = value :: rest ∧ outcome (work item) state = .ok value ∧
      outcome (items.mapM work) (after (work item) state) = .ok rest := by
  rw [outcome_mapM_cons] at h
  obtain ⟨value, hitem, hitems⟩ := bind_eq_ok.mp h
  obtain ⟨rest, hrest, hvalues⟩ := exists_of_map_eq_ok hitems
  exact ⟨value, rest, hvalues.symm, hitem, hrest⟩

/-- Work on one more item comes behind that on the others. -/
theorem mapM_concat_ok {work : α → ExceptT Stop (StateM σ) β} {items : List α} {item : α}
    {state : σ} {values : List β} {value : β} (h : outcome (items.mapM work) state = .ok values)
    (hitem : outcome (work item) (after (items.mapM work) state) = .ok value) :
    outcome ((items ++ [item]).mapM work) state = .ok (values ++ [value]) ∧
      after ((items ++ [item]).mapM work) state =
        after (work item) (after (items.mapM work) state) := by
  induction items generalizing state values with
  | nil =>
      obtain rfl := Except.ok.inj h
      rw [List.mapM_nil, after_pure] at hitem ⊢
      rw [List.nil_append, outcome_mapM_cons, after_mapM_cons hitem, hitem, List.mapM_nil,
        after_pure]
      exact ⟨rfl, rfl⟩
  | cons first items ih =>
      obtain ⟨value', rest, rfl, hfirst, hrest⟩ := mapM_cons_ok h
      rw [after_mapM_cons hfirst] at hitem ⊢
      obtain ⟨houtcome, hafter⟩ := ih hrest hitem
      rw [List.cons_append, outcome_mapM_cons, after_mapM_cons hfirst, hfirst, Except.bind,
        houtcome, hafter]
      exact ⟨rfl, rfl⟩

theorem length_of_mapM_ok {work : α → ExceptT Stop (StateM σ) β} {items : List α} {state : σ}
    {values : List β} (h : outcome (items.mapM work) state = .ok values) :
    values.length = items.length := by
  induction items generalizing state values with
  | nil =>
      obtain rfl := Except.ok.inj h
      rfl
  | cons item items ih =>
      obtain ⟨value, rest, rfl, -, hrest⟩ := mapM_cons_ok h
      rw [List.length_cons, List.length_cons, ih hrest]

end Almanac
