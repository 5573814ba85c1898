import Almanac.Text.Blank
import Almanac.Text.Case
import Almanac.Text.Integer
import Almanac.Text.Letter

/-!
# Digits and white space among other characters

A digit, in the wide sense too, is no white space and no ASCII letter, and neither it nor white
space has another case. So a text that begins like a number is no name, in capitals neither. The
tables of characters are compared interval by interval.
-/

namespace Almanac.Text

/-! ## Tables of intervals -/

/-- Do the code points of the first interval lie outside of the second? -/
def apart (first second : Nat × Nat) : Bool :=
  Nat.blt first.2 second.1 || Nat.blt second.2 first.1

/-- Does no interval of the first table meet one of the second? -/
def allApart (first second : List (Nat × Nat)) : Bool :=
  first.all fun run => second.all fun interval => apart run interval

/-- Is the code point in an interval of the table? -/
def Holds (table : List (Nat × Nat)) (n : Nat) : Prop :=
  ∃ interval ∈ table, interval.1 ≤ n ∧ n ≤ interval.2

theorem Holds.not_of_allApart {first second : List (Nat × Nat)} {n : Nat}
    (hn : Holds first n) (hapart : allApart first second = true) : ¬ Holds second n := by
  rintro ⟨interval, hinterval, hlow, hhigh⟩
  obtain ⟨run, hrun, hfirst, hlast⟩ := hn
  have hpair := List.all_eq_true.mp (List.all_eq_true.mp hapart run hrun) interval hinterval
  simp only [apart, Bool.or_eq_true, Nat.blt_eq] at hpair
  omega

theorem holds_of_inIntervals {table : List (Nat × Nat)} {n : Nat}
    (h : inIntervals table n = true) : Holds table n := by
  induction table with
  | nil => cases h
  | cons interval rest ih =>
      obtain ⟨low, high⟩ := interval
      rw [inIntervals] at h
      split at h
      next => cases h
      next hlow =>
        rcases (Bool.or_eq_true _ _).mp h with hhigh | hrest
        · exact ⟨(low, high), List.mem_cons_self, by omega, of_decide_eq_true hhigh⟩
        · obtain ⟨interval, hmem, hn⟩ := ih hrest
          exact ⟨interval, List.mem_cons_of_mem _ hmem, hn⟩

/-! ## Digits -/

/-- The intervals of the digits in the wide sense. -/
def digitRuns : List (Nat × Nat) :=
  zeroDigits.map (fun first => (first, first + 9)) ++ digitIntervals

theorem holds_of_isDigit {c : Char} (hc : isDigit c = true) : Holds digitRuns c.toNat := by
  rcases (Bool.or_eq_true _ _).mp hc with hdecimal | hdigit
  · obtain ⟨value, hvalue⟩ := Option.isSome_iff_exists.mp hdecimal
    obtain ⟨first, hfirst, hrun⟩ := List.exists_of_findSome?_eq_some hvalue
    refine ⟨(first, first + 9), List.mem_append_left _ (List.mem_map_of_mem hfirst), ?_⟩
    split at hrun
    next hbounds => exact hbounds
    next => cases hrun
  · obtain ⟨run, hmem, hbounds⟩ := holds_of_inIntervals hdigit
    exact ⟨run, List.mem_append_right _ hmem, hbounds⟩

theorem isDigit_of_isDecimal {c : Char} (hc : isDecimal c = true) : isDigit c = true := by
  rw [isDigit, hc, Bool.true_or]

theorem isBlank_of_isDigit {c : Char} (hc : isDigit c = true) : isBlank c = false := by
  cases hblank : isBlank c with
  | false => rfl
  | true =>
      exact absurd (holds_of_inIntervals hblank)
        ((holds_of_isDigit hc).not_of_allApart (by decide))

/-- The intervals of the ASCII letters. -/
def alphaIntervals : List (Nat × Nat) :=
  [(65, 90), (97, 122)]

theorem holds_of_isAlpha {c : Char} (hc : c.isAlpha = true) : Holds alphaIntervals c.toNat := by
  unfold Char.isAlpha Char.isUpper Char.isLower at hc
  simp only [Bool.or_eq_true, Bool.and_eq_true, decide_eq_true_eq, ge_iff_le,
    UInt32.le_iff_toNat_le] at hc
  rcases hc with hupper | hlower
  · exact ⟨(65, 90), by decide, hupper⟩
  · exact ⟨(97, 122), by decide, hlower⟩

theorem isAlpha_of_isDigit {c : Char} (hc : isDigit c = true) : c.isAlpha = false := by
  cases halpha : c.isAlpha with
  | false => rfl
  | true =>
      exact absurd (holds_of_isAlpha halpha)
        ((holds_of_isDigit hc).not_of_allApart (by decide))

theorem isDigit_of_isAlpha {c : Char} (hc : c.isAlpha = true) : isDigit c = false := by
  cases hdigit : isDigit c with
  | false => rfl
  | true =>
      rw [isAlpha_of_isDigit hdigit] at hc
      exact Bool.noConfusion hc

theorem isAlpha_of_isBlank {c : Char} (hc : isBlank c = true) : c.isAlpha = false := by
  cases halpha : c.isAlpha with
  | false => rfl
  | true =>
      exact absurd (holds_of_isAlpha halpha)
        ((holds_of_inIntervals hc).not_of_allApart (by decide))

theorem isBlank_of_isAlpha {c : Char} (hc : c.isAlpha = true) : isBlank c = false := by
  cases hblank : isBlank c with
  | false => rfl
  | true =>
      rw [isAlpha_of_isBlank hblank] at hc
      exact Bool.noConfusion hc

theorem isWord_of_isBlank {c : Char} (hc : isBlank c = true) : isWord c = false := by
  have hblank := holds_of_inIntervals hc
  have hletter : isLetter c = false := by
    rw [Bool.eq_false_iff]
    intro h
    exact hblank.not_of_allApart (by decide +kernel) (holds_of_inIntervals h)
  have hnumeral : isNumeral c = false := by
    rw [Bool.eq_false_iff]
    intro h
    exact hblank.not_of_allApart (by decide) (holds_of_inIntervals h)
  have hunderscore : c ≠ '_' := by
    rintro rfl
    exact absurd hc (by decide)
  simp [isWord, hletter, hnumeral, hunderscore]

/-! ## Capitals -/

/-- The intervals in which all characters with another upper case lie. -/
def upperIntervals : List (Nat × Nat) :=
  upperRuns.map (fun run => (run.first, run.last))
    ++ upperExpansions.map fun (n, _) => (n, n)

theorem upperChar_eq_self {c : Char} (hc : ¬ Holds upperIntervals c.toNat) : upperChar c = [c] := by
  have hruns : CaseRun.find? upperRuns c.toNat = none := by
    unfold CaseRun.find?
    rw [Option.map_eq_none_iff, List.find?_eq_none]
    intro run hrun hfound
    simp only [Bool.and_eq_true, decide_eq_true_eq] at hfound
    exact hc ⟨(run.first, run.last), List.mem_append_left _ (List.mem_map_of_mem hrun), hfound.1⟩
  have hexpansions : upperExpansions.find? (·.1 == c.toNat) = none := by
    rw [List.find?_eq_none]
    intro expansion hmem hfound
    rw [beq_iff_eq] at hfound
    exact hc ⟨(expansion.1, expansion.1),
      List.mem_append_right _ (List.mem_map_of_mem hmem), by omega⟩
  have hlower : ¬ (97 ≤ c.toNat ∧ c.toNat ≤ 122) := fun hbounds =>
    hc ⟨(97, 122), List.mem_append_left _ (by decide), hbounds⟩
  unfold upperChar
  split
  next =>
    unfold Char.toUpper
    rw [dif_neg]
    rw [UInt32.le_iff_toNat_le, UInt32.le_iff_toNat_le]
    exact hlower
  next =>
    rw [hexpansions, hruns]
    rfl

theorem upperChar_of_isDigit {c : Char} (hc : isDigit c = true) : upperChar c = [c] :=
  upperChar_eq_self ((holds_of_isDigit hc).not_of_allApart (by decide +kernel))

theorem upperChar_of_isBlank {c : Char} (hc : isBlank c = true) : upperChar c = [c] :=
  upperChar_eq_self ((holds_of_inIntervals hc).not_of_allApart (by decide +kernel))

@[simp] theorem upper_append (t u : Text) : upper (t ++ u) = upper t ++ upper u :=
  List.flatMap_append

theorem upper_blank {t : Text} (h : ∀ c ∈ t, isBlank c = true) : upper t = t := by
  induction t with
  | nil => rfl
  | cons c t ih =>
      obtain ⟨hc, ht⟩ := List.forall_mem_cons.mp h
      rw [upper, List.flatMap_cons, upperChar_of_isBlank hc, ← upper, ih ht]
      rfl

/-- A text that begins with a character that is no letter is no name of a table of names in
capital letters. -/
theorem lookup_eq_none_of_head {table : List (Text × Nat)}
    (hnames : table.all (fun entry => entry.1.head?.any Char.isAlpha) = true) {c : Char}
    (hc : c.isAlpha = false) (rest : Text) : table.lookup (c :: rest) = none := by
  rw [List.lookup_eq_none_iff]
  rintro ⟨name, number⟩ hentry
  rw [bne_iff_ne]
  rintro rfl
  have hhead := List.all_eq_true.mp hnames _ hentry
  rw [List.head?_cons, Option.any_some, hc] at hhead
  exact Bool.noConfusion hhead

end Almanac.Text
