import Almanac.Proofs.Splits
import Almanac.Remote.Limiter
import Mathlib.Data.List.Induction
import Mathlib.Tactic.SplitIfs

/-!
# Accounts of permits

While a run is shorter than the interval, the slot, the permits that were not used, the line and the
refill stand to each other in one of three ways: nothing was started, or a permit is offered, or it
was taken and the refill rests. So all that a step depends on is whether a permit was taken since
the issue was started, and at most one is taken between two closings.
-/

namespace Almanac.Remote

open Almanac.Data

namespace Issue

/-- How the parts of an issue stand to each other for so long a time, and whether its permit was
taken. -/
inductive Stands (time : Nat) : Bool → Option Issue → Prop
  | unstarted : Stands time false none
  | offered : Stands time false (some ⟨true, 1, 0, 0, .joining⟩)
  | resting {left : Option Nat} (hleft : ∀ n ∈ left, time < n) (waiting : Nat) :
      Stands time true (some ⟨false, 0, waiting, 1, .resting left⟩)

/-! ## Going on -/

/-- Nothing goes on during a rest. -/
theorem settle_resting (interval : Option Nat) {left : Option Nat} (hleft : left ≠ some 0)
    (waiting : Nat) : (⟨false, 0, waiting, 1, .resting left⟩ : Issue).settle interval =
      ⟨false, 0, waiting, 1, .resting left⟩ := by
  have hrefilled : (⟨false, 0, waiting, 1, .resting left⟩ : Issue).refilled interval =
      ⟨false, 0, waiting, 1, .resting left⟩ := by
    simp [refilled, move, hleft]
  cases waiting with
  | zero => exact hrefilled
  | succ waiting =>
      rw [settle, serve, hrefilled]
      rfl

/-- When the permit on offer is taken, the refill rests for an interval. -/
theorem settle_take {interval : Option Nat} (hinterval : interval ≠ some 0) :
    (⟨true, 1, 0, 0, .joining⟩ : Issue).take.settle interval =
      ⟨false, 0, 0, 1, .resting interval⟩ := by
  simp [settle, serve, refilled, move, take, hinterval]

theorem ne_zero_of_lt {time : Nat} {left : Option Nat} (hleft : ∀ n ∈ left, time < n) :
    left ≠ some 0 := by
  rintro rfl
  exact absurd (hleft 0 rfl) (Nat.not_lt_zero time)

/-- Time passes without an effect, if it is shorter than the rest. -/
theorem Stands.elapse {interval : Option Nat} {time later : Nat} {taken : Bool}
    {issue : Option Issue} (h : Stands (time + later) taken issue) :
    Stands later taken (issue.map (Issue.elapse interval time)) := by
  induction time generalizing issue with
  | zero =>
      rw [Nat.zero_add] at h
      cases issue <;> exact h
  | succ time ih =>
      cases h with
      | unstarted => exact .unstarted
      | offered => exact ih .offered
      | @resting left hleft waiting =>
          have htick : ∃ rest, (⟨false, 0, waiting, 1, .resting left⟩ : Issue).tick =
              ⟨false, 0, waiting, 1, .resting rest⟩ ∧ ∀ n ∈ rest, time + later < n := by
            cases left with
            | none => exact ⟨none, rfl, nofun⟩
            | some n =>
                have hlong := hleft n rfl
                obtain ⟨m, rfl⟩ := Nat.exists_eq_succ_of_ne_zero (by omega : n ≠ 0)
                refine ⟨some m, rfl, ?_⟩
                rintro _ ⟨⟩
                omega
          obtain ⟨rest, htick, hrest⟩ := htick
          have hnext := ih (.resting hrest waiting)
          rw [Option.map_some] at hnext ⊢
          rw [Issue.elapse, htick, settle_resting interval (ne_zero_of_lt hrest)]
          exact hnext

end Issue

namespace Limiter

/-! ## Steps -/

/-- Only closing puts the permits taken so far among the earlier ones. -/
theorem earlier_step (limiter : Limiter) (step : Step) :
    (limiter.step step).2.earlier =
      if step = .close then limiter.granted else limiter.earlier := by
  cases step with
  | close => rfl
  | acquireCancelled => rfl
  | acquire | acquireThenCancel =>
      unfold Limiter.step
      dsimp only
      split <;> rfl

/-- How a step ends, by whether a permit was taken since the issue was started. -/
def Step.outcome (taken : Bool) : Step → Outcome
  | acquire => if taken then .waiting else .done
  | acquireCancelled => .cancelled
  | acquireThenCancel => if taken then .cancelled else .done
  | close => .done

/-- Whether a permit was taken since the issue was started, after a step. -/
def Step.takenAfter (taken : Bool) : Step → Bool
  | acquire | acquireThenCancel => true
  | acquireCancelled => taken
  | close => false

/-- The time is shorter than the interval, and shows as little of the issue. -/
structure Stands (time : Nat) (taken : Bool) (limiter : Limiter) : Prop where
  interval : ∀ n ∈ limiter.interval, time < n
  issue : Issue.Stands time taken limiter.issue

namespace Stands

variable {time : Nat} {taken : Bool} {limiter : Limiter}

theorem elapse {later : Nat} (h : Stands (time + later) taken limiter) :
    Stands later taken (limiter.elapse time) where
  interval n hn := by
    have := h.interval n hn
    omega
  issue := h.issue.elapse

theorem granted_eq (h : Stands time taken limiter) :
    limiter.granted = limiter.earlier + if taken then 1 else 0 := by
  obtain ⟨interval, issue, earlier⟩ := limiter
  cases h.issue <;> rfl

/-- A limiter that takes a permit on offer rests for an interval. -/
theorem goOn_take (hinterval : ∀ n ∈ limiter.interval, time < n) :
    Stands time true (limiter.goOn (⟨true, 1, 0, 0, .joining⟩ : Issue).take) := by
  refine ⟨hinterval, ?_⟩
  rw [goOn, Issue.settle_take (Issue.ne_zero_of_lt hinterval)]
  exact .resting hinterval 0

/-- How a step ends, and how the limiter stands after it, depends on no more than whether a permit
was taken. -/
theorem step (h : Stands time taken limiter) (step : Step) :
    (limiter.step step).1 = step.outcome taken ∧
      Stands time (step.takenAfter taken) (limiter.step step).2 := by
  obtain ⟨hinterval, hissue⟩ := h
  obtain ⟨interval, issue, earlier⟩ := limiter
  cases hissue with
  | unstarted | offered =>
      cases step with
      | acquire => exact ⟨rfl, goOn_take hinterval⟩
      | acquireCancelled => exact ⟨rfl, hinterval, .offered⟩
      | acquireThenCancel => exact ⟨rfl, goOn_take hinterval⟩
      | close => exact ⟨rfl, hinterval, .unstarted⟩
  | @resting left hleft waiting =>
      have hstill := Issue.settle_resting interval (Issue.ne_zero_of_lt hleft)
      have hstarted : started ⟨interval, some ⟨false, 0, waiting, 1, .resting left⟩, earlier⟩ =
          ⟨false, 0, waiting, 1, .resting left⟩ := hstill waiting
      have hgoOn : ∀ waiting', Stands time true
          (goOn ⟨interval, some ⟨false, 0, waiting, 1, .resting left⟩, earlier⟩
            ⟨false, 0, waiting', 1, .resting left⟩) := by
        intro waiting'
        refine ⟨hinterval, ?_⟩
        rw [goOn, hstill]
        exact .resting hleft waiting'
      cases step with
      | acquire =>
          rw [Limiter.step, hstarted]
          exact ⟨rfl, hgoOn (waiting + 1)⟩
      | acquireCancelled =>
          rw [Limiter.step, hstarted]
          exact ⟨rfl, hgoOn waiting⟩
      | acquireThenCancel =>
          rw [Limiter.step, hstarted]
          exact ⟨rfl, hgoOn waiting⟩
      | close => exact ⟨rfl, hinterval, .unstarted⟩

end Stands

/-! ## Runs -/

/-- The time that steps take which come after some time each. -/
def duration : List (Nat × Step) → Nat
  | [] => 0
  | (time, _) :: steps => time + duration steps

/-- How many of the steps close the limiter. -/
def closings (steps : List (Nat × Step)) : Nat :=
  steps.countP fun step => step.2 = .close

/-- How a step ends that comes some time after others, and the limiter after it. -/
def stepAt (limiter : Limiter) (before : List (Nat × Step)) (time : Nat) (step : Step) :
    Outcome × Limiter :=
  ((limiter.after before).elapse time).step step

/-- A request was granted a permit, and the limiter was not closed since. -/
def GrantedSinceClosing (limiter : Limiter) (steps : List (Nat × Step)) : Prop :=
  ∃ before time step behind, steps = before ++ (time, step) :: behind ∧ step ≠ .close ∧
    (limiter.stepAt before time step).1 = .done ∧ ∀ later ∈ behind, later.2 ≠ .close

@[simp]
theorem after_concat (limiter : Limiter) (steps : List (Nat × Step)) (time : Nat) (step : Step) :
    limiter.after (steps ++ [(time, step)]) = (limiter.stepAt steps time step).2 := by
  rw [after, List.foldl_append]
  rfl

theorem grantedSinceClosing_concat {limiter : Limiter} {steps : List (Nat × Step)} {time : Nat}
    {step : Step} : limiter.GrantedSinceClosing (steps ++ [(time, step)]) ↔
      step ≠ .close ∧
        ((limiter.stepAt steps time step).1 = .done ∨ limiter.GrantedSinceClosing steps) := by
  have hcut := exists_split_concat_iff steps (time, step) fun before item behind =>
    item.2 ≠ .close ∧ (limiter.stepAt before item.1 item.2).1 = .done ∧
      ∀ later ∈ behind, later.2 ≠ .close
  simp only [Prod.exists, List.forall_mem_append, List.forall_mem_singleton] at hcut
  refine hcut.trans ?_
  constructor
  · rintro (⟨hstep, hdone, -⟩ | ⟨before, time', step', behind, rfl, hstep', hdone, hbehind, hstep⟩)
    · exact ⟨hstep, .inl hdone⟩
    · exact ⟨hstep, .inr ⟨before, time', step', behind, rfl, hstep', hdone, hbehind⟩⟩
  · rintro ⟨hstep, hdone | ⟨before, time', step', behind, rfl, hstep', hdone, hbehind⟩⟩
    · exact .inl ⟨hstep, hdone, List.forall_mem_nil _⟩
    · exact .inr ⟨before, time', step', behind, rfl, hstep', hdone, hbehind, hstep⟩

@[simp] theorem duration_append (steps more : List (Nat × Step)) :
    duration (steps ++ more) = duration steps + duration more := by
  induction steps with
  | nil => exact (Nat.zero_add _).symm
  | cons step steps ih => rw [List.cons_append, duration, duration, ih, Nat.add_assoc]

/-- A new limiter stands at the beginning of a run. -/
theorem stands_of_ofInterval {interval : Binary64} {limiter : Limiter}
    (h : ofInterval interval = .ok limiter) {time : Nat}
    (hshort : ∀ n ∈ limiter.interval, time < n) :
    Stands time false limiter ∧ limiter.earlier = 0 := by
  unfold ofInterval at h
  split at h
  next => cases h
  next =>
    cases h
    exact ⟨⟨hshort, .unstarted⟩, rfl⟩

/-- After a part of a run the limiter stands for the rest of it, a permit is taken just if one was
granted since the last closing, and no more permits were taken earlier than there were closings. -/
theorem Stands.after {limiter : Limiter} (steps : List (Nat × Step)) {later : Nat}
    (h : Stands (duration steps + later) false limiter) :
    ∃ taken, Stands later taken (limiter.after steps) ∧
      (taken = true ↔ limiter.GrantedSinceClosing steps) ∧
      (limiter.after steps).earlier ≤ limiter.earlier + closings steps := by
  induction steps using List.reverseRecOn generalizing later with
  | nil =>
      have hstands : Stands later false limiter := by simpa [duration] using h
      exact ⟨false, hstands, by simp [GrantedSinceClosing], Nat.le_refl _⟩
  | append_singleton steps last ih =>
      obtain ⟨time, step⟩ := last
      rw [duration_append, Nat.add_assoc] at h
      obtain ⟨taken, hstands, hgranted, hearlier⟩ := ih h
      have hhere : Stands later taken ((limiter.after steps).elapse time) := by
        refine Stands.elapse ?_
        simpa [duration] using hstands
      obtain ⟨houtcome, hnext⟩ := hhere.step step
      refine ⟨step.takenAfter taken, ?_, ?_, ?_⟩
      · rwa [after_concat]
      · rw [grantedSinceClosing_concat, ← hgranted, stepAt, houtcome]
        cases step <;> cases taken <;> simp [Step.takenAfter, Step.outcome]
      · have hlast := earlier_step ((limiter.after steps).elapse time) step
        have htaken := hhere.granted_eq
        have hsame : ((limiter.after steps).elapse time).earlier = (limiter.after steps).earlier :=
          rfl
        have hclosings : closings (steps ++ [(time, step)]) =
            closings steps + if step = .close then 1 else 0 := by
          simp [closings, List.countP_append, List.countP_cons]
        rw [after_concat, stepAt, hclosings, hlast]
        split_ifs at htaken ⊢ <;> omega

/-- Limiters that stand alike end the same steps alike. -/
theorem Stands.run_congr {steps : List (Nat × Step)} {taken : Bool} {first second : Limiter}
    (hfirst : Stands (duration steps) taken first)
    (hsecond : Stands (duration steps) taken second) : first.run steps = second.run steps := by
  induction steps generalizing taken first second with
  | nil => rfl
  | cons step steps ih =>
      obtain ⟨time, step⟩ := step
      have hduration : duration ((time, step) :: steps) = time + duration steps := rfl
      rw [hduration] at hfirst hsecond
      obtain ⟨houtcome, hnext⟩ := hfirst.elapse.step step
      obtain ⟨houtcome', hnext'⟩ := hsecond.elapse.step step
      simp only [run, houtcome, houtcome', ih hnext hnext']

/-- In a run that is shorter than the interval a request without a cancel signal is granted just if
none was granted since the beginning or the last closing. A cancelled request, whether before it
asks or while it waits, comes to nothing and has no influence on later steps. Closing twice is
closing once. So there are no more grants than one and the closings. -/
theorem permits_accounted {interval : Binary64} {limiter : Limiter}
    (hlimiter : ofInterval interval = .ok limiter) {steps : List (Nat × Step)}
    (hshort : ∀ n ∈ limiter.interval, duration steps < n) :
    (∀ before time step behind, steps = before ++ (time, step) :: behind →
      let (outcome, next) := limiter.stepAt before time step
      (step = .acquire → (outcome = .done ↔ ¬ limiter.GrantedSinceClosing before)) ∧
        (step = .acquireCancelled ∨
            step = .acquireThenCancel ∧ limiter.GrantedSinceClosing before →
          outcome = .cancelled ∧ next.granted = (limiter.after before).granted ∧
            next.run behind = ((limiter.after before).elapse time).run behind)) ∧
      (∀ known : Limiter, (known.step .close).2.step .close = known.step .close) ∧
      (limiter.after steps).granted ≤ 1 + closings steps := by
  have hstart : ∀ {part more : List (Nat × Step)}, steps = part ++ more →
      Stands (duration part + duration more) false limiter ∧ limiter.earlier = 0 := by
    rintro part more rfl
    rw [← duration_append]
    exact stands_of_ofInterval hlimiter hshort
  refine ⟨?_, fun known => rfl, ?_⟩
  · intro before time step behind hsteps
    obtain ⟨taken, hstands, hgranted, -⟩ := Stands.after before (hstart hsteps).1
    have hhere : Stands (duration behind) taken ((limiter.after before).elapse time) :=
      hstands.elapse
    obtain ⟨houtcome, hnext⟩ := hhere.step step
    dsimp only
    rw [stepAt, houtcome, ← hgranted]
    refine ⟨?_, fun hcancelled => ?_⟩
    · rintro rfl
      cases taken <;> simp [Step.outcome]
    · -- a cancelled step leaves the limiter as it stands
      have hstill : step.outcome taken = .cancelled ∧ step.takenAfter taken = taken := by
        rcases hcancelled with rfl | ⟨rfl, rfl⟩ <;> exact ⟨rfl, rfl⟩
      have hearlier := earlier_step ((limiter.after before).elapse time) step
      rw [if_neg (by rcases hcancelled with rfl | ⟨rfl, -⟩ <;> exact nofun)] at hearlier
      rw [hstill.2] at hnext
      refine ⟨hstill.1, ?_, hnext.run_congr hhere⟩
      rw [hnext.granted_eq, hearlier, hstands.granted_eq]
      rfl
  · obtain ⟨hunstarted, hnone⟩ := hstart (List.append_nil steps).symm
    obtain ⟨taken, hstands, -, hearlier⟩ := Stands.after steps hunstarted
    have hgranted := hstands.granted_eq
    split at hgranted <;> omega

/-- An hour in seconds, which is `3600 * 2 ^ 41` times `2 ^ -41`. -/
def hour : Binary64 :=
  .finite false 7916483719987200 (-41)

/-- Requests around a closing, two of which are cancelled. -/
def visits : List (Nat × Step) :=
  [(3, .acquireCancelled), (0, .acquire), (7, .acquireThenCancel), (1, .close), (0, .acquire)]

theorem permits_accounted_hour : ∃ limiter, ofInterval hour = .ok limiter ∧
    (∀ n ∈ limiter.interval, duration visits < n) ∧
    limiter.run visits = [.cancelled, .done, .cancelled, .done, .done] ∧
    (limiter.after visits).granted ≤ 1 + closings visits := by
  have hlimiter : ofInterval hour = .ok { interval := units? hour } := rfl
  have hshort : ∀ n ∈ units? hour, duration visits < n := by decide +kernel
  exact ⟨_, hlimiter, hshort, by decide +kernel, (permits_accounted hlimiter hshort).2.2⟩

end Limiter
end Almanac.Remote
