import Almanac.Proofs.Text.Stripping
import Mathlib.Data.List.Infix

/-!
# Runs and pieces

The longest runs of the characters of a class are what is left of a text when the gaps between them
are taken out. They come back from the text in which each gap is closed by one separator, and that
text is what squeezing every gap into one separator leaves, but for separators at the ends. In the
same way texts without a separator come back as the pieces of the text that joins them by it.
-/

namespace Almanac.Text

/-- The text consists of the given longest runs of characters of a class, in order, with other
characters before, between and behind them. -/
inductive HasRuns (p : Char → Bool) : Text → List Text → Prop
  | gap {gap : Text} (hgap : ∀ c ∈ gap, p c = false) : HasRuns p gap []
  | run {gap run rest : Text} {runs : List Text} (hgap : ∀ c ∈ gap, p c = false)
      (hsome : run ≠ []) (hrun : ∀ c ∈ run, p c = true) (hrest : ∀ c ∈ rest.head?, p c = false)
      (h : HasRuns p rest runs) : HasRuns p (gap ++ (run ++ rest)) (run :: runs)

/-- The text with every longest run of characters out of the class replaced by one separator. -/
def squeeze (p : Char → Bool) (separator : Char) : Text → Text
  | [] => []
  | c :: rest =>
      if p c then c :: squeeze p separator rest
      else separator :: squeeze p separator (rest.dropWhile fun d => !p d)
termination_by t => t.length
decreasing_by
  all_goals simp only [List.length_cons]
  · omega
  · exact Nat.lt_succ_of_le (List.dropWhile_sublist _).length_le

section

variable {p : Char → Bool} {t : Text} {runs : List Text}

/-! ## Texts and their runs -/

namespace HasRuns

/-- A run that no gap comes before. -/
theorem front {run rest : Text} (hsome : run ≠ []) (hrun : ∀ c ∈ run, p c = true)
    (hrest : ∀ c ∈ rest.head?, p c = false) (h : HasRuns p rest runs) :
    HasRuns p (run ++ rest) (run :: runs) :=
  .run (List.forall_mem_nil _) hsome hrun hrest h

/-- A character in front of a text lengthens its first gap or its first run, or is a run. -/
theorem exists_cons (h : HasRuns p t runs) (c : Char) : ∃ more, HasRuns p (c :: t) more := by
  cases hc : p c with
  | false =>
      have hfront : ∀ {gap : Text}, (∀ d ∈ gap, p d = false) → ∀ d ∈ c :: gap, p d = false :=
        fun hgap => List.forall_mem_cons.mpr ⟨hc, hgap⟩
      cases h with
      | gap hgap => exact ⟨[], .gap (hfront hgap)⟩
      | run hgap hsome hrun hrest h => exact ⟨_, .run (hfront hgap) hsome hrun hrest h⟩
  | true =>
      by_cases hopen : ∀ d ∈ t.head?, p d = false
      · exact ⟨[c] :: runs, front (List.cons_ne_nil c []) (by simpa using hc) hopen h⟩
      · cases h with
        | gap hgap =>
            exact absurd (fun d hd => hgap d (List.mem_of_mem_head? hd)) hopen
        | @run gap run rest runs hgap hsome hrun hrest h =>
            cases gap with
            | nil =>
                exact ⟨(c :: run) :: runs, front (List.cons_ne_nil c run)
                  (List.forall_mem_cons.mpr ⟨hc, hrun⟩) hrest h⟩
            | cons d gap => exact absurd (by simpa using hgap d List.mem_cons_self) hopen

theorem exists_runs (p : Char → Bool) (t : Text) : ∃ runs, HasRuns p t runs := by
  induction t with
  | nil => exact ⟨[], .gap (by simp)⟩
  | cons c t ih =>
      obtain ⟨runs, h⟩ := ih
      exact h.exists_cons c

theorem forall_runs (h : HasRuns p t runs) :
    ∀ run ∈ runs, run ≠ [] ∧ ∀ c ∈ run, p c = true ∧ c ∈ t := by
  induction h with
  | gap => simp
  | run hgap hsome hrun hrest h ih =>
      refine List.forall_mem_cons.mpr ⟨⟨hsome, fun c hc => ⟨hrun c hc, by simp [hc]⟩⟩, ?_⟩
      intro run hmem
      obtain ⟨hne, hall⟩ := ih run hmem
      exact ⟨hne, fun c hc => ⟨(hall c hc).1, by simp [(hall c hc).2]⟩⟩

end HasRuns

/-! ## Runs joined by separators -/

variable {separator : Char}

@[simp] theorem join_cons_cons (run next : Text) (runs : List Text) :
    join [separator] (run :: next :: runs) =
      run ++ separator :: join [separator] (next :: runs) := by
  simp [join]

theorem join_eq_nil_iff (hruns : ∀ run ∈ runs, run ≠ []) :
    join [separator] runs = [] ↔ runs = [] := by
  match runs with
  | [] => simp [join]
  | [run] => simpa [join] using hruns run
  | run :: next :: runs => simp [join]

theorem mem_join {c : Char} (hc : c ∈ join [separator] runs) :
    c = separator ∨ ∃ run ∈ runs, c ∈ run := by
  induction runs with
  | nil => simp [join] at hc
  | cons run runs ih =>
      cases runs with
      | nil => exact .inr ⟨run, List.mem_cons_self, hc⟩
      | cons next runs =>
          rw [join_cons_cons, List.mem_append, List.mem_cons] at hc
          rcases hc with hrun | rfl | hrest
          · exact .inr ⟨run, List.mem_cons_self, hrun⟩
          · exact .inl rfl
          · refine (ih hrest).imp_right ?_
            rintro ⟨other, hother, hmem⟩
            exact ⟨other, List.mem_cons_of_mem run hother, hmem⟩

section

variable (hruns : ∀ run ∈ runs, run ≠ [] ∧ ∀ c ∈ run, p c = true)

include hruns

theorem head?_join : ∀ c ∈ (join [separator] runs).head?, p c = true := by
  match runs with
  | [] => simp [join]
  | [run] => exact fun c hc => (hruns run List.mem_cons_self).2 c (List.mem_of_mem_head? hc)
  | run :: next :: runs =>
      obtain ⟨hsome, hrun⟩ := hruns run List.mem_cons_self
      obtain ⟨d, more, rfl⟩ := List.exists_cons_of_ne_nil hsome
      simpa [join] using hrun d List.mem_cons_self

theorem getLast?_join : ∀ c ∈ (join [separator] runs).getLast?, p c = true := by
  induction runs with
  | nil => simp [join]
  | cons run runs ih =>
      obtain ⟨⟨hsome, hrun⟩, hrest⟩ := List.forall_mem_cons.mp hruns
      cases runs with
      | nil => exact fun c hc => hrun c (List.mem_of_mem_getLast? hc)
      | cons next runs =>
          have hne : join [separator] (next :: runs) ≠ [] := by
            rw [ne_eq, join_eq_nil_iff fun run hmem => (hrest run hmem).1]
            exact List.cons_ne_nil next runs
          intro c hc
          rw [join_cons_cons, ← List.singleton_append, ← List.append_assoc,
            List.getLast?_append_of_ne_nil _ hne] at hc
          exact ih hrest c hc

/-- Two separators in a row do not come of joining runs. -/
theorem not_infix_join (hseparator : p separator = false) :
    ¬ [separator, separator] <:+: join [separator] runs := by
  have hpass : ∀ {run t : Text}, (∀ c ∈ run, p c = true) →
      [separator, separator] <:+: run ++ t → [separator, separator] <:+: t := by
    intro run t hrun h
    induction run with
    | nil => exact h
    | cons c run ih =>
        obtain ⟨hc, hrun⟩ := List.forall_mem_cons.mp hrun
        rcases List.infix_cons_iff.mp h with hprefix | hinfix
        · obtain ⟨rfl, -⟩ := List.cons_prefix_cons.mp hprefix
          exact Bool.noConfusion (hc.symm.trans hseparator)
        · exact ih hrun hinfix
  induction runs with
  | nil => simp [join]
  | cons run runs ih =>
      obtain ⟨⟨hsome, hrun⟩, hrest⟩ := List.forall_mem_cons.mp hruns
      intro h
      cases runs with
      | nil =>
          rw [join, ← List.append_nil run] at h
          simpa using hpass hrun h
      | cons next runs =>
          rw [join_cons_cons] at h
          -- behind the separator stands the first character of the next run
          rcases List.infix_cons_iff.mp (hpass hrun h) with hprefix | hinfix
          · obtain ⟨-, hsecond⟩ := List.cons_prefix_cons.mp hprefix
            have hhead : p separator = true := head?_join hrest separator
              (List.head?_eq_some_iff.mpr (by
                obtain ⟨more, hmore⟩ := hsecond
                exact ⟨more, hmore.symm⟩))
            exact Bool.noConfusion (hhead.symm.trans hseparator)
          · exact ih hrest hinfix

/-- Joined by separators, runs are those of the text that they make. -/
theorem hasRuns_join (hseparator : p separator = false) :
    HasRuns p (join [separator] runs) runs := by
  induction runs with
  | nil => exact .gap (by simp [join])
  | cons run runs ih =>
      obtain ⟨⟨hsome, hrun⟩, hrest⟩ := List.forall_mem_cons.mp hruns
      cases runs with
      | nil =>
          have h : HasRuns p (run ++ []) [run] := .front hsome hrun (by simp) (.gap (by simp))
          rwa [List.append_nil] at h
      | cons next runs =>
          -- the separator opens the gap before the next run
          have hbehind :
              HasRuns p (separator :: join [separator] (next :: runs)) (next :: runs) := by
            generalize hjoined : join [separator] (next :: runs) = joined at ih ⊢
            cases ih hrest with
            | run hgap hsome hrun hrest h =>
                exact .run (List.forall_mem_cons.mpr ⟨hseparator, hgap⟩) hsome hrun hrest h
          have h : HasRuns p (run ++ separator :: join [separator] (next :: runs))
              (run :: next :: runs) :=
            .front hsome hrun (by simpa using hseparator) hbehind
          rwa [join_cons_cons]

end

/-! ## Squeezed texts -/

theorem squeeze_run_append {run : Text} (hrun : ∀ c ∈ run, p c = true) (t : Text) :
    squeeze p separator (run ++ t) = run ++ squeeze p separator t := by
  induction run with
  | nil => rfl
  | cons c run ih =>
      obtain ⟨hc, hrest⟩ := List.forall_mem_cons.mp hrun
      rw [List.cons_append, squeeze, if_pos hc, ih hrest]
      rfl

theorem squeeze_gap_append {gap : Text} (hsome : gap ≠ []) (hgap : ∀ c ∈ gap, p c = false)
    (hopen : ∀ c ∈ t.head?, p c = true) :
    squeeze p separator (gap ++ t) = separator :: squeeze p separator t := by
  obtain ⟨c, more, rfl⟩ := List.exists_cons_of_ne_nil hsome
  obtain ⟨hc, hmore⟩ := List.forall_mem_cons.mp hgap
  have hdrop : (more ++ t).dropWhile (fun d => !p d) = t := by
    rw [List.dropWhile_append_of_pos fun d hd => by simp [hmore d hd]]
    cases t with
    | nil => rfl
    | cons d t => simp [hopen d rfl]
  rw [List.cons_append, squeeze, if_neg (by simp [hc]), hdrop]

theorem head?_run_append {run : Text} (hsome : run ≠ []) (hrun : ∀ c ∈ run, p c = true)
    (t : Text) : ∀ c ∈ (run ++ t).head?, p c = true := by
  obtain ⟨c, more, rfl⟩ := List.exists_cons_of_ne_nil hsome
  simpa using hrun c List.mem_cons_self

theorem squeeze_gap {gap : Text} (hgap : ∀ c ∈ gap, p c = false) :
    ∀ c ∈ squeeze p separator gap, c = separator := by
  cases gap with
  | nil => simp [squeeze]
  | cons c gap =>
      have hsqueeze : squeeze p separator (c :: gap ++ []) = separator :: squeeze p separator [] :=
        squeeze_gap_append (List.cons_ne_nil c gap) hgap (by simp)
      rw [List.append_nil] at hsqueeze
      simp [hsqueeze, squeeze]

theorem trimStart_run_append {run : Text} (hsome : run ≠ []) (hrun : ∀ c ∈ run, p c = true)
    (hseparator : p separator = false) (t : Text) :
    trimStart (· = separator) (run ++ t) = run ++ t := by
  obtain ⟨c, more, rfl⟩ := List.exists_cons_of_ne_nil hsome
  refine List.dropWhile_cons_of_neg ?_
  rw [decide_eq_true_eq]
  rintro rfl
  exact Bool.noConfusion ((hrun c List.mem_cons_self).symm.trans hseparator)

/-- The gap before the first run leaves nothing when separators are trimmed away. -/
theorem trimStart_squeeze {gap run rest : Text} (hgap : ∀ c ∈ gap, p c = false)
    (hsome : run ≠ []) (hrun : ∀ c ∈ run, p c = true) (hseparator : p separator = false) :
    trimStart (· = separator) (squeeze p separator (gap ++ (run ++ rest))) =
      run ++ squeeze p separator rest := by
  rw [← squeeze_run_append hrun]
  have hkept : trimStart (· = separator) (squeeze p separator (run ++ rest)) =
      squeeze p separator (run ++ rest) := by
    rw [squeeze_run_append hrun]
    exact trimStart_run_append hsome hrun hseparator _
  by_cases hnil : gap = []
  · rw [hnil, List.nil_append, hkept]
  · rw [squeeze_gap_append hnil hgap (head?_run_append hsome hrun rest)]
    exact (List.dropWhile_cons_of_pos (p := (· = separator)) (decide_eq_true rfl)).trans hkept

/-- But for separators at the ends, squeezing the gaps of a text into separators joins its runs. -/
theorem HasRuns.trim_squeeze (h : HasRuns p t runs) (hseparator : p separator = false) :
    trim (· = separator) (squeeze p separator t) = join [separator] runs := by
  have hkept : ∀ {run : Text}, run ≠ [] → (∀ c ∈ run, p c = true) →
      trimEnd (· = separator) run = run := by
    intro run hsome hrun
    refine trimEnd_eq_self fun c hc => decide_eq_false ?_
    rintro rfl
    exact Bool.noConfusion ((hrun c hc).symm.trans hseparator)
  induction h with
  | gap hgap =>
      have hnil : trimStart (· = separator) (squeeze p separator _) = [] :=
        List.dropWhile_eq_nil_iff.mpr fun c hc => decide_eq_true (squeeze_gap hgap c hc)
      rw [trim, hnil]
      rfl
  | @run gap run rest runs hgap hsome hrun hrest h ih =>
      rw [trim, trimStart_squeeze hgap hsome hrun hseparator]
      cases h with
      | gap hbehind =>
          -- behind the last run no more than one separator is left
          have hseparators : ∀ c ∈ squeeze p separator rest, decide (c = separator) = true :=
            fun c hc => decide_eq_true (squeeze_gap hbehind c hc)
          rw [join, trimEnd_append_of_forall hseparators, hkept hsome hrun]
      | @run between next rest runs hbetween hnext hnextRun hnextRest h =>
          have hgapSome : between ≠ [] := by
            rintro rfl
            obtain ⟨c, more, rfl⟩ := List.exists_cons_of_ne_nil hnext
            have hc := hrest c rfl
            rw [hnextRun c List.mem_cons_self] at hc
            exact Bool.noConfusion hc
          rw [trim, trimStart_squeeze hbetween hnext hnextRun hseparator] at ih
          have hne : trimEnd (· = separator) (next ++ squeeze p separator rest) ≠ [] := by
            rw [ih, ne_eq, join_eq_nil_iff]
            · exact List.cons_ne_nil next runs
            · exact List.forall_mem_cons.mpr ⟨hnext, fun run hmem => (h.forall_runs run hmem).1⟩
          rw [squeeze_gap_append hgapSome hbetween (head?_run_append hnext hnextRun rest),
            squeeze_run_append hnextRun, join_cons_cons, ← ih, ← List.singleton_append,
            ← List.append_assoc, trimEnd_append hne, List.append_assoc, List.singleton_append]

end

/-! ## Pieces between separators -/

section Pieces

variable {separator : Char}

theorem pieces_of_not_mem {t : Text} (h : separator ∉ t) : pieces separator t = [t] := by
  induction t with
  | nil => rfl
  | cons c rest ih =>
      have hc : c ≠ separator := fun heq => h (heq ▸ List.mem_cons_self)
      rw [pieces, if_neg hc, ih fun hmem => h (List.mem_cons_of_mem _ hmem)]

theorem pieces_append {piece : Text} (h : separator ∉ piece) (rest : Text) :
    pieces separator (piece ++ separator :: rest) = piece :: pieces separator rest := by
  induction piece with
  | nil => rw [List.nil_append, pieces, if_pos rfl]
  | cons c piece ih =>
      have hc : c ≠ separator := fun heq => h (heq ▸ List.mem_cons_self)
      rw [List.cons_append, pieces, if_neg hc, ih fun hmem => h (List.mem_cons_of_mem _ hmem)]

theorem pieces_join {first : Text} {more : List Text} (hfirst : separator ∉ first)
    (hmore : ∀ piece ∈ more, separator ∉ piece) :
    pieces separator (join [separator] (first :: more)) = first :: more := by
  induction more generalizing first with
  | nil => exact pieces_of_not_mem hfirst
  | cons next more ih =>
      obtain ⟨hnext, hlater⟩ := List.forall_mem_cons.mp hmore
      rw [join_cons_cons, pieces_append hfirst, ih hnext hlater]

end Pieces

end Almanac.Text
