import Almanac.Holiday.Key
import Almanac.Proofs.Text.LowerCase
import Almanac.Proofs.Text.Runs

/-!
# Canonical keys

The words of a key are the longest runs of key characters in the lower case of the name, and every
run of other characters is squeezed into one underscore or, at the ends, taken away. A key is made
of characters that have no other lower case, so it is its own key.
-/

namespace Almanac.Holiday.Key

open Almanac.Text

/-! ## Words -/

theorem words_cons_of_gap {c : Char} (hc : isKeyChar c = false) (t : Text) :
    words (c :: t) = words t := by
  rw [words.eq_def]
  dsimp only
  rw [hc, if_neg Bool.false_ne_true]

theorem words_gap_append {gap : Text} (hgap : ∀ c ∈ gap, isKeyChar c = false) (t : Text) :
    words (gap ++ t) = words t := by
  induction gap with
  | nil => rfl
  | cons c gap ih =>
      obtain ⟨hc, hrest⟩ := List.forall_mem_cons.mp hgap
      rw [List.cons_append, words_cons_of_gap hc, ih hrest]

theorem words_run_append {run rest : Text} (hsome : run ≠ [])
    (hrun : ∀ c ∈ run, isKeyChar c = true) (hrest : ∀ c ∈ rest.head?, isKeyChar c = false) :
    words (run ++ rest) = run :: words rest := by
  induction run with
  | nil => exact absurd rfl hsome
  | cons c run ih =>
      obtain ⟨hc, hmore⟩ := List.forall_mem_cons.mp hrun
      cases run with
      | nil =>
          cases rest with
          | nil => simp [words, hc]
          | cons d rest => simp [words, hc, hrest d rfl]
      | cons d run =>
          have hd : isKeyChar d = true := hmore d List.mem_cons_self
          have hwords := ih (List.cons_ne_nil d run) hmore
          rw [List.cons_append] at hwords
          rw [List.cons_append, List.cons_append, words, if_pos hc, if_pos hd, hwords]

/-- The words of a text are its longest runs of key characters. -/
theorem hasRuns_iff {t : Text} {runs : List Text} :
    HasRuns isKeyChar t runs ↔ words t = runs := by
  have hwords : ∀ {runs : List Text}, HasRuns isKeyChar t runs → words t = runs := by
    intro runs h
    induction h with
    | @gap gap hgap =>
        have hall := words_gap_append hgap []
        rwa [List.append_nil] at hall
    | run hgap hsome hrun hrest h ih =>
        rw [words_gap_append hgap, words_run_append hsome hrun hrest, ih]
  constructor
  · exact hwords
  · rintro rfl
    obtain ⟨runs, h⟩ := HasRuns.exists_runs isKeyChar t
    rwa [hwords h]

theorem hasRuns_words (t : Text) : HasRuns isKeyChar t (words t) :=
  hasRuns_iff.mpr rfl

theorem forall_words (t : Text) :
    ∀ word ∈ words t, word ≠ [] ∧ ∀ c ∈ word, isKeyChar c = true := by
  intro word hword
  obtain ⟨hsome, hall⟩ := (hasRuns_words t).forall_runs word hword
  exact ⟨hsome, fun c hc => (hall c hc).1⟩

@[simp] theorem isKeyChar_underscore : isKeyChar '_' = false := by decide

/-! ## Keys -/

theorem isLowered_of_mem_ofName {name : Text} {c : Char} (hc : c ∈ ofName name) :
    IsLowered c := by
  rcases mem_join hc with rfl | ⟨word, hword, hmem⟩
  · exact ⟨by decide, by decide⟩
  · have hall := ((hasRuns_words (lower name)).forall_runs word hword).2
    exact isLowered_of_mem_lower (hall c hmem).2

theorem ofName_ofName (name : Text) : ofName (ofName name) = ofName name := by
  have hlower : lower (ofName name) = ofName name :=
    lower_eq_self fun c hc => isLowered_of_mem_ofName hc
  have hwords : words (ofName name) = words (lower name) :=
    hasRuns_iff.mp (hasRuns_join (forall_words (lower name)) isKeyChar_underscore)
  rw [ofName, hlower, hwords]
  rfl

/-- The key of a name joins the longest runs of key characters in the lower case of the name by
single underscores. It is the lower case with every gap between such runs squeezed into one
underscore and without the underscores at its ends, so it has none there and no two in a row; it is
empty just if there is no run; and it is its own key. -/
theorem ofName_canonical (name : Text) :
    ∃ runs, (∀ others, HasRuns isKeyChar (lower name) others ↔ others = runs) ∧
      ofName name = join "_" runs ∧
      ofName name = trim (· = '_') (squeeze isKeyChar '_' (lower name)) ∧
      (ofName name).head? ≠ some '_' ∧ (ofName name).getLast? ≠ some '_' ∧
      ¬ "__".toList <:+: ofName name ∧
      (ofName name = [] ↔ runs = []) ∧
      ofName (ofName name) = ofName name := by
  have hwords := forall_words (lower name)
  have hhead : ∀ c ∈ (ofName name).head?, isKeyChar c = true := head?_join hwords
  have hlast : ∀ c ∈ (ofName name).getLast?, isKeyChar c = true := getLast?_join hwords
  have hnot : ¬ isKeyChar '_' = true := Bool.eq_false_iff.mp isKeyChar_underscore
  refine ⟨words (lower name), fun others => hasRuns_iff.trans eq_comm, rfl, ?_,
    fun h => hnot (hhead '_' h), fun h => hnot (hlast '_' h), ?_, ?_, ofName_ofName name⟩
  · exact ((hasRuns_words (lower name)).trim_squeeze isKeyChar_underscore).symm
  · exact not_infix_join hwords isKeyChar_underscore
  · exact join_eq_nil_iff fun word hword => (hwords word hword).1

example : ofName "Half-day__İzmir's!" = "half_day_i_zmir's".toList := by decide

end Almanac.Holiday.Key
