import Almanac.Source.Span
import Mathlib.Tactic.SplitIfs

/-!
# Lines that spans hold

The spans of declarations begin at the declarations in the order of their lines. They leave no line
out between the first declaration and the end of the file, whatever the order of the declarations,
hold none before the first one, and none twice: of the declarations on one line only the last has
a span with lines in it.
-/

namespace Almanac.Source.Span

theorem holds_iff (span : Span) (line : Int) :
    span.holds line = true ↔ span.first ≤ line ∧ line ≤ span.last := by
  simp [holds]

/-! ## Spans between lines in order -/

theorem map_first_between (last : Int) (starts : List Int) :
    (between last starts).map first = starts := by
  fun_induction between last starts with
  | case1 => rfl
  | case2 start => rfl
  | case3 start next rest ih => rw [List.map_cons, ih]

/-- The spans that begin at lines in order hold every line from the first of them on once. -/
theorem countP_between (last first : Int) (rest : List Int)
    (hsorted : (first :: rest).Pairwise (· ≤ ·)) (hlast : ∀ start ∈ first :: rest, start ≤ last)
    (line : Int) :
    (between last (first :: rest)).countP (fun span => span.holds line) =
      if first ≤ line ∧ line ≤ last then 1 else 0 := by
  induction rest generalizing first with
  | nil => simp [between, List.countP_singleton, holds_iff]
  | cons next rest ih =>
      -- the first span ends right before the next one begins, so none is left out or held twice
      obtain ⟨hfirst, hrest⟩ := List.pairwise_cons.mp hsorted
      have hnext : first ≤ next := hfirst next List.mem_cons_self
      have hend : next ≤ last := hlast next (by simp)
      rw [between, List.countP_cons,
        ih next hrest (fun start hstart => hlast start (List.mem_cons_of_mem _ hstart))]
      simp only [holds_iff]
      split_ifs <;> omega

/-! ## Spans of declarations -/

theorem pairwise_mergeSort_lines (lines : List Int) :
    (lines.mergeSort fun a b => a ≤ b).Pairwise (· ≤ ·) := by
  have hsorted : (lines.mergeSort fun a b => a ≤ b).Pairwise fun a b => decide (a ≤ b) = true :=
    List.pairwise_mergeSort (fun a b c hab hbc => by simp at *; omega)
      (fun a b => by simp; omega) lines
  exact hsorted.imp of_decide_eq_true

/-- Of the spans of declarations one holds a line of the file if some declaration is not behind it,
and otherwise none does. -/
theorem countP_ofDeclarations (lines : List Int) (last : Int)
    (hlast : ∀ start ∈ lines, start ≤ last) (line : Int) :
    (ofDeclarations lines last).countP (fun span => span.holds line) =
      if (∃ start ∈ lines, start ≤ line) ∧ line ≤ last then 1 else 0 := by
  -- sorting brings the lines into order and keeps them all
  have hmem : ∀ start, start ∈ lines.mergeSort (fun a b => a ≤ b) ↔ start ∈ lines :=
    fun start => List.mem_mergeSort
  have hsorted := pairwise_mergeSort_lines lines
  unfold ofDeclarations
  cases hsort : lines.mergeSort fun a b => a ≤ b with
  | nil =>
      rw [hsort] at hmem
      simp [between, ← hmem]
  | cons first rest =>
      rw [hsort] at hmem hsorted
      rw [countP_between last first rest hsorted
        (fun start hstart => hlast start ((hmem start).mp hstart))]
      have hbehind : first ≤ line ↔ ∃ start ∈ lines, start ≤ line := by
        refine ⟨fun h => ⟨first, (hmem first).mp List.mem_cons_self, h⟩, ?_⟩
        rintro ⟨start, hstart, hle⟩
        rcases List.mem_cons.mp ((hmem start).mpr hstart) with rfl | htail
        · exact hle
        · exact Int.le_trans ((List.pairwise_cons.mp hsorted).1 start htail) hle
      simp only [hbehind]

/-- The spans of declarations hold a line of the file just if some declaration is not behind it. -/
theorem any_ofDeclarations_iff (lines : List Int) (last : Int)
    (hlast : ∀ start ∈ lines, start ≤ last) (line : Int) :
    (ofDeclarations lines last).any (fun span => span.holds line) = true ↔
      (∃ start ∈ lines, start ≤ line) ∧ line ≤ last := by
  rw [List.any_eq_true, ← List.countP_pos_iff, countP_ofDeclarations lines last hlast]
  split
  next h => exact iff_of_true Nat.one_pos h
  next h => exact iff_of_false (Nat.lt_irrefl 0) h

/-- The spans are one for each line of a declaration, in the order of these lines. Each line from
the first declaration to the last line of the file is in one of them, and no other line is. -/
structure IsPartition (lines : List Int) (last : Int) (spans : List Span) : Prop where
  starts : (spans.map first).Perm lines
  ordered : (spans.map first).Pairwise (· ≤ ·)
  once : ∀ line, (∃ start ∈ lines, start ≤ line) → line ≤ last →
    spans.countP (fun span => span.holds line) = 1
  outside : ∀ line, ¬ ((∃ start ∈ lines, start ≤ line) ∧ line ≤ last) →
    ∀ span ∈ spans, span.holds line = false

/-- However many declarations there are on whatever lines, their spans divide the lines from the
first declaration to the end of the file among them. -/
theorem isPartition_ofDeclarations (lines : List Int) (last : Int)
    (hlast : ∀ start ∈ lines, start ≤ last) :
    IsPartition lines last (ofDeclarations lines last) := by
  have hstarts : (ofDeclarations lines last).map first = lines.mergeSort fun a b => a ≤ b :=
    map_first_between last _
  refine ⟨?_, ?_, fun line hbehind hle => ?_, fun line hnot span hspan => ?_⟩
  · rw [hstarts]
    exact List.mergeSort_perm lines _
  · rw [hstarts]
    exact pairwise_mergeSort_lines lines
  · rw [countP_ofDeclarations lines last hlast, if_pos ⟨hbehind, hle⟩]
  · have hnone := countP_ofDeclarations lines last hlast line
    rw [if_neg hnot, List.countP_eq_zero] at hnone
    exact Bool.eq_false_iff.mpr (hnone span hspan)

/-- Two declarations share a line, and the last one is on the last line. -/
theorem isPartition_ofDeclarations_sharedLine :
    ofDeclarations [7, 3, 9, 3] 9 = [⟨3, 2⟩, ⟨3, 6⟩, ⟨7, 8⟩, ⟨9, 9⟩] ∧
      IsPartition [7, 3, 9, 3] 9 (ofDeclarations [7, 3, 9, 3] 9) :=
  ⟨by simp [ofDeclarations, List.mergeSort, between],
    isPartition_ofDeclarations [7, 3, 9, 3] 9 (by decide)⟩

end Almanac.Source.Span
