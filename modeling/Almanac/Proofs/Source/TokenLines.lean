import Almanac.Source.Outline
import Mathlib.Data.List.Basic

/-!
# Lines of tokens and classes

Every token carries the number of the line it was cut from, so the tokens of a file come in the
order of their lines. A class is declared on the line of its keyword, and classes come in the
order of their keywords; hence the first class of an outline is declared before all others.
-/

namespace Almanac.Source

open Almanac.Text

namespace TokenStream

theorem line_of_mem_ofRest (rules : List TokenRule) (line column : Nat) (t : Text)
    {token : Token} (hmem : token ∈ (ofRest rules line column t).tokens) : token.line = line := by
  fun_induction ofRest rules line column t with
  | case1 => simp [empty] at hmem
  | case2 column c rest hblank ih => exact ih hmem
  | case3 => simp [empty] at hmem
  | case4 column c rest hblank hhash hnone ih => exact ih hmem
  | case5 column c rest hblank hhash kind length hfirst ih =>
      rcases List.mem_cons.mp hmem with rfl | hrest
      · rfl
      · exact ih hrest

theorem line_of_mem_ofLine (rules : List TokenRule) (number : Nat) (line : Text)
    {token : Token} (hmem : token ∈ (ofLine rules number line).tokens) : token.line = number := by
  unfold ofLine at hmem
  split at hmem
  next => simp [empty] at hmem
  next =>
    dsimp only at hmem
    split at hmem
    next => exact line_of_mem_ofRest _ _ _ _ hmem
    next =>
      rcases List.mem_cons.mp hmem with rfl | hrest
      · rfl
      · exact line_of_mem_ofRest _ _ _ _ hrest

/-- The tokens of lines numbered from `number` on carry the numbers of these lines. -/
theorem line_of_mem_ofLines (rules : List TokenRule) (number : Nat) (lines : List Text)
    {token : Token} (hmem : token ∈ (ofLines rules number lines).tokens) :
    number ≤ token.line ∧ token.line < number + lines.length := by
  induction lines generalizing number with
  | nil => simp [ofLines, empty] at hmem
  | cons line rest ih =>
      rw [List.length_cons]
      rcases List.mem_append.mp hmem with hfirst | hrest
      · have hline := line_of_mem_ofLine rules number line hfirst
        omega
      · have hline := ih (number + 1) hrest
        omega

theorem pairwise_line_ofLines (rules : List TokenRule) (number : Nat) (lines : List Text) :
    ((ofLines rules number lines).tokens.map Token.line).Pairwise (· ≤ ·) := by
  induction lines generalizing number with
  | nil => exact List.Pairwise.nil
  | cons line rest ih =>
      have hfirst : ∀ n ∈ (ofLine rules number line).tokens.map Token.line, n = number := by
        intro n hn
        obtain ⟨token, htoken, rfl⟩ := List.mem_map.mp hn
        exact line_of_mem_ofLine rules number line htoken
      rw [ofLines, append, List.map_append, List.pairwise_append]
      -- within a line all numbers are equal, and those of later lines are greater
      refine ⟨List.Pairwise.imp_of_mem ?_ (List.pairwise_of_forall (fun _ _ => trivial)),
        ih (number + 1), ?_⟩
      · intro a b ha hb _
        exact Nat.le_of_eq ((hfirst a ha).trans (hfirst b hb).symm)
      · intro a ha b hb
        obtain ⟨token, htoken, rfl⟩ := List.mem_map.mp hb
        have hline := line_of_mem_ofLines rules (number + 1) rest htoken
        rw [hfirst a ha]
        omega

end TokenStream

theorem Class.line_of_read {keyword : Token} {tokens : List Token} {reading : ClassReading}
    (hread : Class.read keyword tokens = .ok reading) : reading.found.line = keyword.line := by
  unfold Class.read at hread
  split at hread
  next => cases hread
  next =>
    split at hread
    next =>
      split at hread
      next => cases hread
      next =>
        cases hread
        rfl
    next => cases hread

namespace Outline

/-- Every class takes its line from a token of its own. -/
theorem sublist_line_ofTokens (tokens : List Token) :
    ((ofTokens tokens).classes.map Class.line).Sublist (tokens.map Token.line) := by
  fun_induction ofTokens tokens with
  | case1 => exact List.Sublist.refl _
  | case2 token rest hclass error hread outline ih => exact ih.cons _
  | case3 token rest hclass reading hread outline ih =>
      rw [List.map_cons, List.map_cons, Class.line_of_read hread]
      -- the next class is looked for behind the tokens that this one took
      exact (ih.trans ((List.drop_sublist _ _).map _)).cons_cons _
  | case4 token rest hclass ih => exact ih.cons _

/-- The classes of a source file come in the order of their lines. -/
theorem pairwise_line_ofText (rules : List TokenRule) (t : Text) :
    ((ofText rules t).classes.map Class.line).Pairwise (· ≤ ·) :=
  (TokenStream.pairwise_line_ofLines rules 1 (lines t)).sublist (sublist_line_ofTokens _)

/-- A class is declared on a line of its file. -/
theorem line_le_of_mem_ofText (rules : List TokenRule) (t : Text) {c : Class}
    (hmem : c ∈ (ofText rules t).classes) : c.line ≤ (lines t).length := by
  have hline : c.line ∈ (TokenStream.ofText rules t).tokens.map Token.line :=
    (sublist_line_ofTokens _).subset (List.mem_map_of_mem hmem)
  obtain ⟨token, htoken, heq⟩ := List.mem_map.mp hline
  have hbound := TokenStream.line_of_mem_ofLines rules 1 (lines t) htoken
  omega

end Outline
end Almanac.Source
