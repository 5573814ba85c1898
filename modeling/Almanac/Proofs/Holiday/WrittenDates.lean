import Almanac.Proofs.Holiday.DateCalls
import Almanac.Proofs.Text.DecimalDigits
import Almanac.Proofs.Text.Occurrences
import Almanac.Proofs.Text.Stripping

/-!
# Written dates

A date as a source writes it is read as the date that it stands for: a day of a month, whichever way
the year and the month are named, and a distance from Easter Sunday, whichever way its sign is
split between the operator and the number.
-/

namespace Almanac.Text

/-! ## Digits -/

theorem decimalValue?_of_isPlainDigit {c : Char} (hc : isPlainDigit c = true) :
    decimalValue? c = some (c.toNat - 48) := by
  simp only [isPlainDigit, Bool.and_eq_true, decide_eq_true_eq, Char.le_def,
    UInt32.le_iff_toNat_le] at hc
  have hfirst : (48 : Nat) ≤ c.toNat ∧ c.toNat ≤ 48 + 9 := hc
  unfold decimalValue? zeroDigits
  rw [List.findSome?_cons, if_pos hfirst]

theorem isDecimal_of_mem_ofNat {n : Nat} {c : Char} (hmem : c ∈ ofNat n) : isDecimal c = true := by
  rw [isDecimal, decimalValue?_of_isPlainDigit (isPlainDigit_of_mem_ofNat hmem)]
  rfl

theorem isBlank_of_mem_ofNat {n : Nat} {c : Char} (hmem : c ∈ ofNat n) : isBlank c = false :=
  isBlank_of_isDigit (isDigit_of_isDecimal (isDecimal_of_mem_ofNat hmem))

@[simp] theorem ofInt_ne_nil (n : Int) : ofInt n ≠ [] := by
  cases n with
  | ofNat n => exact ofNat_ne_nil n
  | negSucc n => exact List.cons_ne_nil _ _

theorem isBlank_of_mem_ofInt {n : Int} {c : Char} (hmem : c ∈ ofInt n) : isBlank c = false := by
  cases n with
  | ofNat n => exact isBlank_of_mem_ofNat hmem
  | negSucc n =>
      rcases List.mem_cons.mp hmem with rfl | hdigit
      · decide
      · exact isBlank_of_mem_ofNat hdigit

theorem notMem_ofNat {c : Char} (hc : isDecimal c = false) (n : Nat) : c ∉ ofNat n := by
  intro hmem
  rw [isDecimal_of_mem_ofNat hmem] at hc
  exact Bool.noConfusion hc

theorem notMem_ofInt {c : Char} (hc : isDecimal c = false) (hsign : c ≠ '-') (n : Int) :
    c ∉ ofInt n := by
  cases n with
  | ofNat n => exact notMem_ofNat hc n
  | negSucc n =>
      rw [ofInt, List.mem_cons, not_or]
      exact ⟨hsign, notMem_ofNat hc (n + 1)⟩

theorem exists_isSign_ofInt (n : Int) :
    ∃ sign, IsSign sign (decide (n < 0)) ∧ ofInt n = sign ++ ofNat n.natAbs := by
  cases n with
  | ofNat n =>
      have hsign : decide (Int.ofNat n < 0) = false := by simp
      exact ⟨[], hsign ▸ .none, rfl⟩
  | negSucc n =>
      have hsign : decide (Int.negSucc n < 0) = true := by simp [Int.negSucc_lt_zero]
      exact ⟨['-'], hsign ▸ .minus, rfl⟩

/-- A written number that is not too long is read as the number. -/
theorem readNat_ofNat {n : Nat} (hlength : (ofNat n).length ≤ maxDigits) :
    readNat (ofNat n) = .ok n := by
  have hall : (ofNat n).takeWhile isDecimal = ofNat n :=
    List.takeWhile_eq_self_iff.mpr fun c hc => isDecimal_of_mem_ofNat hc
  have hvalue : ∀ digits : Text, (∀ c ∈ digits, isPlainDigit c = true) → ∀ start : Nat,
      digits.foldl (fun n c => 10 * n + (decimalValue? c).getD 0) start =
        digits.foldl (fun n c => 10 * n + (c.toNat - '0'.toNat)) start := by
    intro digits hdigits
    induction digits with
    | nil => exact fun _ => rfl
    | cons c digits ih =>
        obtain ⟨hc, hrest⟩ := List.forall_mem_cons.mp hdigits
        intro start
        rw [List.foldl_cons, List.foldl_cons, decimalValue?_of_isPlainDigit hc]
        exact ih hrest _
  have hnumber : digitsValue (ofNat n) = n := by
    rw [digitsValue, hvalue _ (fun c hc => isPlainDigit_of_mem_ofNat hc)]
    exact plainNumber_ofNat n
  unfold readNat
  dsimp only
  rw [hall, if_neg (by omega), if_neg (by simp), hnumber]

theorem isDigits_ofNat (n : Nat) : IsDigits (ofNat n) :=
  ⟨ofNat_ne_nil n, fun _ hc => isDecimal_of_mem_ofNat hc⟩

theorem isShortNumber_ofNat {n : Nat} (hn : n < 100) : IsShortNumber (ofNat n) := by
  refine ⟨ofNat_ne_nil n, ?_, fun _ hc => isDecimal_of_mem_ofNat hc⟩
  revert n
  decide

end Almanac.Text

namespace Almanac.Holiday

open Almanac.Text

/-! ## Months -/

/-- The ways in which a source names a month: by its English name or the first three letters of it,
in any case, or by its number. -/
inductive NamesMonth (month : Text) (m : Nat) : Prop
  | name (halpha : ∀ c ∈ month, c.isAlpha = true) (hnamed : Month.named? (upper month) = some m)
  | number (hlow : 1 ≤ m) (hhigh : m ≤ 12) (hmonth : month = ofNat m)

namespace NamesMonth

variable {month : Text} {m : Nat}

theorem ne_nil (h : NamesMonth month m) : month ≠ [] := by
  rintro rfl
  cases h with
  | name halpha hnamed =>
      rw [show Month.named? (upper []) = none by decide] at hnamed
      cases hnamed
  | number hlow hhigh hmonth => exact ofNat_ne_nil m hmonth.symm

theorem isBlank_of_mem (h : NamesMonth month m) {c : Char} (hc : c ∈ month) :
    isBlank c = false := by
  cases h with
  | name halpha hnamed => exact isBlank_of_isAlpha (halpha c hc)
  | number hlow hhigh hmonth =>
      exact isBlank_of_isDigit (isDigit_of_isDecimal (isDecimal_of_mem_ofNat (hmonth ▸ hc)))

/-- Whichever way the month is named, it is the month. -/
theorem ofToken (h : NamesMonth month m) : Month.ofToken month = .ok m := by
  cases h with
  | name halpha hnamed =>
      have hblank : ∀ c ∈ month, isBlank c = false := fun c hc =>
        (NamesMonth.name halpha hnamed).isBlank_of_mem hc
      unfold Month.ofToken
      dsimp only
      rw [strip_eq_self hblank, hnamed]
  | number hlow hhigh hmonth =>
      subst hmonth
      have hsmall : ∀ n < 13, 1 ≤ n → Month.ofToken (ofNat n) = .ok n := by decide
      exact hsmall m (by omega) hlow

theorem isToken (h : NamesMonth month m) : Month.IsToken month := by
  refine ⟨h.ne_nil, ?_⟩
  cases h with
  | name halpha hnamed => exact .inl halpha
  | number hlow hhigh hmonth => exact .inr fun c hc => isDecimal_of_mem_ofNat (hmonth ▸ hc)

end NamesMonth

namespace DateExpression

/-! ## Dates of a month -/

/-- A date of a month as a source writes it. -/
def writtenDate (year month : Text) (day : Nat) : Text :=
  "date(" ++ year ++ ", " ++ month ++ ", " ++ ofNat day ++ ")"

theorem fixedDate?_writtenDate {year month : Text} {m day : Nat} (hyear : year ∈ yearNames)
    (hmonth : NamesMonth month m) (hday : day < 100) (rest : Text) :
    fixedDate? (writtenDate year month day ++ rest) = some (month, ofNat day) := by
  have hopens := Opens.plain "(" (.plain year (.plain "," (.spaced month (.plain ","
    (.spaced (ofNat day) (.plain ")" (.nil : Opens [] rest rest)))))))
  rw [fixedDate?_eq_some_iff]
  refine ⟨rest, hmonth.isToken, isShortNumber_ofNat hday, year, hyear, _, ?_, hopens⟩
  unfold writtenDate
  simp only [List.append_assoc]
  rfl

/-! ## Distances from Easter Sunday -/

/-- A distance from Easter Sunday as a source writes it: so many days after it, or before it. -/
def writtenDistance (year span : Text) (backward : Bool) (days : Int) : Text :=
  "easter(" ++ year ++ ") " ++ [if backward then '-' else '+'] ++ " " ++ span ++ "(days=" ++
    ofInt days ++ ")"

theorem easter?_writtenDistance {year span : Text} (hyear : year ∈ yearNames)
    (hspan : span ∈ spanNames) (backward : Bool) (days : Int) (rest : Text) :
    easter? (writtenDistance year span backward days ++ rest) =
      some (some ⟨backward != decide (days < 0), ofNat days.natAbs⟩) := by
  let operator : Char := if backward then '-' else '+'
  obtain ⟨sign, hsign, hdays⟩ := exists_isSign_ofInt days
  have hoperator : IsSign [operator] backward := by
    cases backward
    · exact .plus
    · exact .minus
  have hspanOpens := Opens.spaced span (.plain "(" (.plain "days" (.plain "=" (.plain sign
    (.plain (ofNat days.natAbs) (.plain ")" (.nil : Opens [] rest rest)))))))
  rw [easter?_eq_some_iff]
  refine ⟨_, ⟨year, hyear, _, ?_, .plain "(" (.plain year (.plain ")" .nil))⟩,
    shift?_eq_some_iff.mpr ⟨operator, backward, _, _, rest, hoperator, .spaced [operator] .nil,
      ⟨isDigits_ofNat _, span, hspan, sign, hsign, hspanOpens⟩, rfl⟩⟩
  unfold writtenDistance
  rw [hdays]
  simp only [List.append_assoc]
  rfl

end DateExpression
end Almanac.Holiday
