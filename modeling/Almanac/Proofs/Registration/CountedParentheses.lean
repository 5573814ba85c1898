import Almanac.Proofs.Source.LiteralPlaces
import Almanac.Registration.Arguments

/-!
# Parentheses of arguments, counted

The parentheses of a text are counted in what is left of it when its literals are emptied and its
comment is cut. Where each literal that opens before the comment is closed, this is the count of a
scan that reads the text character by character, keeps track of the literal it stands in, and reads
nothing behind the first `#` in code. What quotes the comment holds, and whether they match, makes
no difference.
-/

namespace Almanac.Registration.Arguments

open Almanac.Text Almanac.Source Almanac.Source.Literal

/-! ## One piece of a text -/

@[simp] theorem balance_nil : balance [] = 0 := by
  simp [balance]

/-- A comment has no parentheses that count. -/
theorem balance_sign (comment : Text) : balance ('#' :: comment) = 0 := by
  have hkept := hollow_cons_of_notQuote (c := '#') (by decide) (by decide) comment
  simp [balance, hkept]

/-- What a character in code opens, by the sorts of parentheses. -/
theorem opened_singleton (c : Char) : Place.code.opened [c] =
    ((if c = '(' then 1 else 0 : Nat) : Int) - (if c = ')' then 1 else 0 : Nat) := by
  by_cases hopen : c = '('
  · simp [Place.opened, hopen]
  · by_cases hclose : c = ')'
    · simp [Place.opened, hclose]
    · simp [Place.opened, hopen, hclose]

/-- A character of code counts for itself. -/
theorem balance_cons_of_code {c : Char} (hdouble : c ≠ '"') (hsingle : c ≠ '\'') (hsign : c ≠ '#')
    (t : Text) : balance (c :: t) = Place.code.opened [c] + balance t := by
  have hcode : (hollow (c :: t)).takeWhile (· ≠ '#') = c :: (hollow t).takeWhile (· ≠ '#') := by
    rw [hollow_cons_of_notQuote hdouble hsingle, List.takeWhile_cons_of_pos (by simpa using hsign)]
  unfold balance
  rw [hcode, opened_singleton]
  simp only [List.count_cons, beq_iff_eq]
  omega

/-- A literal counts for nothing, whatever it holds. -/
theorem balance_literal {quote : Char} {body : Text} (hquote : quote = '"' ∨ quote = '\'')
    (hbody : IsBody quote body) (t : Text) : balance (quote :: (body ++ t)) = balance t := by
  unfold balance
  rw [hbody.hollow hquote]
  simp

/-! ## A text whose literals are closed -/

/-- A text whose literals are closed and that has no comment counts for its code, and what stands
behind it for itself. -/
theorem balance_append_of_closed {t : Text} (hline : '\n' ∉ t)
    (hclosed : Place.code.behind t = .code) (hsign : Place.code.hasSign t = false) (behind : Text) :
    balance (t ++ behind) = Place.code.opened t + balance behind := by
  revert hsign
  refine Place.closed_induction (motive := fun t => Place.code.hasSign t = false →
    balance (t ++ behind) = Place.code.opened t + balance behind) ?nil ?plain ?literal hline hclosed
  case nil =>
    intro _
    exact (Int.zero_add _).symm
  case plain =>
    intro c rest hdouble hsingle ih hsign
    have hnext : Place.code.behind [c] = .code := Place.next_code_of_notQuote hdouble hsingle
    have hopened := Place.opened_append .code [c] rest
    rw [← List.singleton_append, Place.hasSign_append, hnext, Bool.or_eq_false_iff] at hsign
    rw [hnext, List.singleton_append] at hopened
    have hc : c ≠ '#' := by simpa [Place.hasSign] using hsign.1
    rw [List.cons_append, balance_cons_of_code hdouble hsingle hc, ih hsign.2, hopened,
      Int.add_assoc]
  case literal =>
    intro quote body rest hquote hbody ih hsign
    obtain ⟨hbehind, hopened⟩ := Place.behind_literal hbody hquote
    rw [← List.cons_append, Place.hasSign_append, hbehind, Bool.or_eq_false_iff] at hsign
    rw [List.cons_append, List.append_assoc, balance_literal hquote hbody, ih hsign.2,
      ← List.cons_append, Place.opened_append, hbehind, hopened, Int.zero_add]

theorem balance_of_closed {t : Text} (hline : '\n' ∉ t) (hclosed : Place.code.behind t = .code)
    (hsign : Place.code.hasSign t = false) : balance t = Place.code.opened t := by
  simpa using balance_append_of_closed hline hclosed hsign []

/-! ## A scan by characters -/

/-- What a reading of a text has come to: the place it stands at, whether it is in the comment, and
how many parentheses of either sort it has met in the code. -/
structure Scan where
  place : Place
  inComment : Bool
  opening : Nat
  closing : Nat
deriving DecidableEq, Repr

namespace Scan

def start : Scan := ⟨.code, false, 0, 0⟩

/-- The comment is not read, and in a literal nothing is counted. -/
def step (scan : Scan) (c : Char) : Scan :=
  if scan.inComment then scan
  else if scan.place ≠ .code then { scan with place := scan.place.next c }
  else if c = '#' then { scan with inComment := true }
  else
    { scan with
      place := scan.place.next c
      opening := scan.opening + if c = '(' then 1 else 0
      closing := scan.closing + if c = ')' then 1 else 0 }

/-- The scan goes on over the text. -/
def run (scan : Scan) (t : Text) : Scan :=
  t.foldl step scan

def ofText (t : Text) : Scan :=
  start.run t

/-- How many more parentheses were met that open than that close. -/
def net (scan : Scan) : Int :=
  scan.opening - scan.closing

variable {scan : Scan}

/-- A character that begins no comment moves the place, and counts if it stands in code. -/
theorem step_of_noSign (hcode : scan.inComment = false) {c : Char}
    (hsign : scan.place.hasSign [c] = false) : (scan.step c).inComment = false ∧
      (scan.step c).place = scan.place.next c ∧
        (scan.step c).net = scan.net + scan.place.opened [c] := by
  simp only [Place.hasSign, Bool.or_false, Bool.and_eq_false_iff, decide_eq_false_iff_not] at hsign
  unfold step
  rw [if_neg (by simp [hcode])]
  split
  next hplace => exact ⟨hcode, rfl, by simp [net, Place.opened, hplace]⟩
  next hplace =>
    have hc : c ≠ '#' := hsign.resolve_left hplace
    rw [if_neg hc]
    refine ⟨hcode, rfl, ?_⟩
    rw [not_not.mp hplace, opened_singleton]
    simp only [net]
    omega

/-- Over a text without comments the scan counts what the code of the text opens. -/
theorem run_of_noSign (hcode : scan.inComment = false) {t : Text}
    (hsign : scan.place.hasSign t = false) : (scan.run t).inComment = false ∧
      (scan.run t).place = scan.place.behind t ∧
        (scan.run t).net = scan.net + scan.place.opened t := by
  induction t generalizing scan with
  | nil => exact ⟨hcode, rfl, (Int.add_zero _).symm⟩
  | cons c rest ih =>
      rw [← List.singleton_append, Place.hasSign_append, Bool.or_eq_false_iff] at hsign
      obtain ⟨hstill, hplace, hnet⟩ := step_of_noSign hcode hsign.1
      obtain ⟨hend, hbehind, hcount⟩ := ih hstill (by rw [hplace]; exact hsign.2)
      refine ⟨hend, by rw [run, List.foldl_cons, ← run, hbehind, hplace]; rfl, ?_⟩
      rw [← List.singleton_append, Place.opened_append, ← Int.add_assoc, ← hnet]
      rw [hplace] at hcount
      exact hcount

/-- In the comment nothing changes any more. -/
theorem run_of_inComment (hcomment : scan.inComment = true) (t : Text) : scan.run t = scan :=
  List.foldl_fixed' (fun c => show scan.step c = scan from if_pos hcomment) t

theorem ofText_of_noSign {t : Text} (hsign : Place.code.hasSign t = false) :
    (ofText t).inComment = false ∧ (ofText t).place = Place.code.behind t ∧
      (ofText t).net = Place.code.opened t := by
  obtain ⟨hread, hbehind, hnet⟩ := run_of_noSign (show start.inComment = false from rfl) hsign
  exact ⟨hread, hbehind, hnet.trans (Int.zero_add _)⟩

/-- From the first `#` in code on the scan keeps what it has met before. -/
theorem ofText_append_sign {before : Text} (hsign : Place.code.hasSign before = false)
    (hcode : Place.code.behind before = .code) (comment : Text) :
    ofText (before ++ '#' :: comment) = { ofText before with inComment := true } := by
  obtain ⟨hread, hbehind, -⟩ := ofText_of_noSign hsign
  have hstep : (ofText before).step '#' = { ofText before with inComment := true } := by
    simp [step, hread, hbehind.trans hcode]
  calc ofText (before ++ '#' :: comment)
      = (ofText before).run ('#' :: comment) := List.foldl_append
    _ = ((ofText before).step '#').run comment := rfl
    _ = ({ ofText before with inComment := true } : Scan).run comment := by rw [hstep]
    _ = { ofText before with inComment := true } := run_of_inComment rfl comment

end Scan

/-- The count of a text on one line is that of the scan, which meets the parentheses outside of
literals and before the comment, if no literal is open where the scan ends. Of the characters that
end a line only the line feed matters: a literal does not take it along behind a backslash. -/
theorem balance_eq_scan {t : Text} (hline : '\n' ∉ t) (hclosed : (Scan.ofText t).place = .code) :
    balance t = ((Scan.ofText t).opening : Int) - (Scan.ofText t).closing := by
  change balance t = (Scan.ofText t).net
  cases hsign : Place.code.hasSign t with
  | false =>
      obtain ⟨-, hbehind, hnet⟩ := Scan.ofText_of_noSign hsign
      rw [hbehind] at hclosed
      rw [balance_of_closed hline hclosed hsign, hnet]
  | true =>
      obtain ⟨before, comment, rfl, hnone, hcode⟩ := Place.exists_of_hasSign hsign
      have hbefore : '\n' ∉ before := fun h => hline (List.mem_append_left _ h)
      rw [balance_append_of_closed hbefore hcode hnone, balance_sign, Int.add_zero,
        Scan.ofText_append_sign hnone hcode]
      exact (Scan.ofText_of_noSign hnone).2.2.symm

/-- A line with each sort of quote in a literal of the other, with escaped quotes, parentheses and
`#` in literals, and with a comment whose quotes match and do not. -/
def quotedLine : Text :=
  "self._add_holiday(tr(\"John's \\\"Day\\\" (#1)\"), '\\'\")(' + f(x  # it's \"(\" and ')'))"

theorem balance_eq_scan_quotedLine : '\n' ∉ quotedLine ∧
    Scan.ofText quotedLine = ⟨.code, true, 3, 1⟩ ∧ balance quotedLine = 2 := by
  have hline : '\n' ∉ quotedLine := by decide +kernel
  have hscan : Scan.ofText quotedLine = ⟨.code, true, 3, 1⟩ := by decide +kernel
  have hbalance := balance_eq_scan hline (show (Scan.ofText quotedLine).place = .code by rw [hscan])
  rw [hscan] at hbalance
  exact ⟨hline, hscan, hbalance⟩

end Almanac.Registration.Arguments
