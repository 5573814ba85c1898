import Almanac.Proofs.Registration.CallLines
import Almanac.Proofs.Source.SpanCover
import Almanac.Proofs.Source.TokenLines
import Almanac.Strategy.Extraction

/-!
# Calls within classes

The spans of a file's classes hold every line from the first class on. The structural strategy
therefore comes to the catalog of the calls that the line-pattern strategy finds from that line
on, and both strategies come to the same outcome in a file without calls before its first class.
-/

namespace Almanac.Strategy

open Almanac.Text Almanac.Holiday Almanac.Source Almanac.Registration

/-- The spans of a file's classes hold a call of the file just if the first class is not declared
behind it. -/
theorem within_spans_iff {rules : List TokenRule} {t : Text} {first : Source.Class}
    {others : List Source.Class} (hclasses : (Outline.ofText rules t).classes = first :: others)
    {calls : Calls} (hcalls : Calls.ofText .standard t = .ok calls) {call : Call}
    (hmem : call ∈ calls.found) :
    within ((Outline.ofText rules t).spans (lines t).length) call = true ↔
      first.line ≤ call.line := by
  have hbounded : ∀ start ∈ (Outline.ofText rules t).classes.map (fun c => (c.line : Int)),
      start ≤ (lines t).length := by
    intro start hstart
    obtain ⟨c, hc, rfl⟩ := List.mem_map.mp hstart
    exact_mod_cast Outline.line_le_of_mem_ofText rules t hc
  have hcallBound := Calls.line_of_mem_ofLines hcalls hmem
  have hsorted := Outline.pairwise_line_ofText rules t
  rw [hclasses, List.map_cons, List.pairwise_cons] at hsorted
  unfold within Outline.spans
  rw [Span.any_ofDeclarations_iff _ _ hbounded, hclasses]
  constructor
  · rintro ⟨⟨start, hstart, hle⟩, -⟩
    obtain ⟨c, hc, rfl⟩ := List.mem_map.mp hstart
    rcases List.mem_cons.mp hc with rfl | htail
    · omega
    · have hfirst := hsorted.1 c.line (List.mem_map_of_mem htail)
      omega
  · intro hle
    exact ⟨⟨first.line, by simp, by omega⟩, by omega⟩

theorem structural_outcome_of_noClass {rules : List TokenRule} (policy : CollisionPolicy) {t : Text}
    (hclasses : (Outline.ofText rules t).classes = []) :
    (structural rules policy t).outcome = .error .noClass := by
  have houtline : (Outline.ofTokens (TokenStream.ofText rules t).tokens).classes = [] := hclasses
  unfold structural
  dsimp only
  rw [houtline]
  rfl

/-- The outcome of the structural strategy for a file whose outline has a class. -/
theorem structural_outcome_of_class {rules : List TokenRule} (policy : CollisionPolicy) {t : Text}
    {first : Source.Class} {others : List Source.Class}
    (hclasses : (Outline.ofText rules t).classes = first :: others) :
    (structural rules policy t).outcome =
      match Calls.ofText .standard t with
      | .error e => .error (.number e)
      | .ok calls =>
          catalogOf policy (calls.found.filter fun call => first.line ≤ call.line) := by
  have houtline : (Outline.ofTokens (TokenStream.ofText rules t).tokens).classes =
      first :: others := hclasses
  unfold structural
  dsimp only
  rw [houtline, List.isEmpty_cons, if_neg Bool.false_ne_true]
  cases hcalls : Calls.ofText .standard t with
  | error e => rfl
  | ok calls =>
      dsimp only
      congr 1
      apply List.filter_congr
      intro call hmem
      rw [Bool.eq_iff_iff, decide_eq_true_iff]
      exact within_spans_iff hclasses hcalls hmem

/-- The structural strategy takes the calls from the first class of the outline on, whatever the
table of token rules, and gives up just if there is no class. Both strategies come to one outcome
in a file all of whose calls stand at or behind its first class. -/
theorem structural_outcome_eq (rules : List TokenRule) (policy : CollisionPolicy) (t : Text) :
    ((structural rules policy t).outcome =
      match (Outline.ofText rules t).classes with
      | [] => .error .noClass
      | first :: _ =>
          match Calls.ofText .standard t with
          | .error e => .error (.number e)
          | .ok calls =>
              catalogOf policy (calls.found.filter fun call => first.line ≤ call.line)) ∧
    ∀ first others calls, (Outline.ofText rules t).classes = first :: others →
      Calls.ofText .standard t = .ok calls →
      (∀ call ∈ calls.found, first.line ≤ call.line) →
      (structural rules policy t).outcome = (linePattern policy t).outcome := by
  constructor
  · cases hclasses : (Outline.ofText rules t).classes with
    | nil => exact structural_outcome_of_noClass policy hclasses
    | cons first others => exact structural_outcome_of_class policy hclasses
  · intro first others calls hclasses hcalls hbehind
    rw [structural_outcome_of_class policy hclasses, hcalls, linePattern, hcalls]
    dsimp only
    rw [List.filter_eq_self.mpr fun call hmem => decide_eq_true (hbehind call hmem)]

/-- A file with one class and one call in it. -/
def oneClass : Text :=
  "class A:\n    self._add_holiday(\"X\", date(year, JAN, 1))\n"

theorem structural_outcome_oneClass :
    ∃ first calls, (Outline.ofText TokenRule.all oneClass).classes = [first] ∧
      Calls.ofText .standard oneClass = .ok calls ∧
      (∀ call ∈ calls.found, first.line ≤ call.line) ∧
      (structural TokenRule.all .reject oneClass).outcome =
        (linePattern .reject oneClass).outcome := by
  let first : Source.Class := ⟨"A", [], [], 1⟩
  let call : Call := ⟨"_add_holiday", .generic, "X", .fixed "JAN" 1,
    "self._add_holiday(\"X\", date(year, JAN, 1))", 2⟩
  have hclasses : (Outline.ofText TokenRule.all oneClass).classes = [first] := by decide +kernel
  have hcalls : Calls.ofText .standard oneClass = .ok ⟨[call], []⟩ := by decide +kernel
  have hbehind : ∀ c ∈ [call], first.line ≤ c.line := by decide
  exact ⟨first, ⟨[call], []⟩, hclasses, hcalls, hbehind,
    (structural_outcome_eq TokenRule.all .reject oneClass).2 first [] _ hclasses hcalls hbehind⟩

end Almanac.Strategy
