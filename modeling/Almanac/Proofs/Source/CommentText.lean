import Almanac.Proofs.Source.LiteralText
import Almanac.Proofs.Text.Stripping

/-!
# Comments of lines

The code of a line ends where a `#` stands outside of its literals; the rest of the line is its
comment. A line that is stripped loses the white space around its code and at the end of its
comment.
-/

namespace Almanac.Source.Literal

open Almanac.Text

/-- The text up to its comment, where so many characters belong to a literal that is open. -/
def codeWithin : (inLiteral : Nat) → Text → Text
  | _, [] => []
  | n + 1, c :: rest => c :: codeWithin n rest
  | 0, c :: rest =>
      if c = '#' then [] else c :: codeWithin ((openingExtent? (c :: rest)).getD 0) rest

/-- The code of a line: what stands before the first `#` outside of its literals. -/
def code (line : Text) : Text :=
  codeWithin 0 line

/-- The comment of a line, with its `#`. -/
def comment (line : Text) : Text :=
  line.drop (code line).length

/-- Does each quote in the code of a line that opens a literal find one to close it? Of the
characters at the start so many belong to a literal. -/
def closesLiterals : (inLiteral : Nat) → Text → Bool
  | _, [] => true
  | n + 1, _ :: rest => closesLiterals n rest
  | 0, c :: rest =>
      if c = '#' then true
      else match openingExtent? (c :: rest) with
        | some n => closesLiterals n rest
        | none => c ≠ '"' && c ≠ '\'' && closesLiterals 0 rest

theorem codeWithin_spec (n : Nat) (line : Text) :
    codeWithin n line ++ line.drop (codeWithin n line).length = line ∧
      ∀ c ∈ (line.drop (codeWithin n line).length).head?, c = '#' := by
  fun_induction codeWithin n line with
  | case1 => exact ⟨rfl, by simp⟩
  | case2 n c rest ih => exact ⟨congrArg (c :: ·) ih.1, ih.2⟩
  | case3 rest => exact ⟨rfl, by simp⟩
  | case4 c rest _ ih => exact ⟨congrArg (c :: ·) ih.1, ih.2⟩

@[simp] theorem code_append_comment (line : Text) : code line ++ comment line = line :=
  (codeWithin_spec 0 line).1

theorem head?_comment (line : Text) : ∀ c ∈ (comment line).head?, c = '#' :=
  (codeWithin_spec 0 line).2

/-- A comment is none of the code, behind white space neither. -/
theorem head?_stripStart_code (line : Text) : (stripStart (code line)).head? ≠ some '#' := by
  induction line with
  | nil => simp [code, codeWithin, stripStart, trimStart]
  | cons c rest ih =>
      by_cases hc : c = '#'
      · simp [code, codeWithin, hc, stripStart, trimStart]
      · cases hblank : isBlank c with
        | true =>
            have hquote : openingExtent? (c :: rest) = none := by
              rw [openingExtent?_cons, if_neg]
              rintro (rfl | rfl) <;> exact absurd hblank (by decide)
            simp only [code, codeWithin, hc, if_false, hquote, Option.getD_none]
            rwa [stripStart, trimStart, List.dropWhile_cons_of_pos hblank]
        | false =>
            simp only [code, codeWithin, hc, if_false]
            rw [stripStart, trimStart, List.dropWhile_cons_of_neg (by simp [hblank])]
            simpa using hc

/-! ## Stripped lines -/

/-- Behind white space a line without code has its comment only. -/
theorem stripStart_of_noCode {line : Text} (hcode : strip (code line) = []) :
    stripStart line = comment line := by
  have hstart : stripStart line = stripStart (comment line) := by
    conv_lhs => rw [← code_append_comment line]
    exact List.dropWhile_append_of_pos (isBlank_of_strip_eq_nil hcode)
  rw [hstart]
  have hhead := head?_comment line
  cases hline : comment line with
  | nil => rfl
  | cons c rest =>
      obtain rfl := hhead c (by rw [hline]; rfl)
      exact List.dropWhile_cons_of_neg (show ¬ isBlank '#' = true by decide)

theorem stripStart_of_code {line : Text} (hcode : strip (code line) ≠ []) :
    stripStart line = stripStart (code line) ++ comment line := by
  have hkeep : (code line).dropWhile isBlank ≠ [] := by
    intro hnil
    apply hcode
    rw [strip, trim, trimStart, hnil]
    rfl
  conv_lhs => rw [← code_append_comment line]
  rw [stripStart, trimStart, List.dropWhile_append, if_neg (by simpa using hkeep)]
  rfl

/-- A line with code is its stripped code, and behind white space its comment, once stripped. -/
theorem strip_of_code {line : Text} (hcode : strip (code line) ≠ []) :
    ∃ before mark behind, (∀ c ∈ before, isBlank c = true) ∧ (∀ c ∈ behind, isBlank c = true) ∧
      strip line = strip (code line) ++ (before ++ mark) ∧ comment line = mark ++ behind := by
  have hstart := stripStart_of_code hcode
  have hhead := head?_comment line
  cases hcomment : comment line with
  | nil =>
      rw [hcomment, List.append_nil] at hstart
      refine ⟨[], [], [], by simp, by simp, ?_, rfl⟩
      change stripEnd (stripStart line) = _
      rw [hstart, List.append_nil, List.append_nil]
      rfl
  | cons c rest =>
      rw [hcomment] at hhead hstart
      obtain rfl := hhead c rfl
      have hsome : stripEnd ('#' :: rest) ≠ [] := by
        intro hnil
        exact absurd (List.rdropWhile_eq_nil_iff.mp hnil '#' List.mem_cons_self) (by decide)
      obtain ⟨before, hbefore, hcodeEnd⟩ := exists_stripEnd_append (stripStart (code line))
      obtain ⟨behind, hbehind, hcommentEnd⟩ := exists_stripEnd_append ('#' :: rest)
      refine ⟨before, stripEnd ('#' :: rest), behind, hbefore, hbehind, ?_, hcommentEnd⟩
      change stripEnd (stripStart line) = stripEnd (stripStart (code line)) ++ _
      rw [hstart, stripEnd_append hsome, ← List.append_assoc, ← hcodeEnd]

end Almanac.Source.Literal
