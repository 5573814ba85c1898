import Almanac.Holiday.Month
import Almanac.Proofs.Outcome
import Almanac.Proofs.Text.DigitClasses
import Almanac.Proofs.Text.NumberReading

/-!
# Readable months

A month that a date expression tells is a name or a number. A name stands for a month without being
read; a number is read unless it has too many digits.
-/

namespace Almanac.Holiday

open Almanac.Text

theorem strip_eq_self {t : Text} (hblank : ∀ c ∈ t, isBlank c = false) : strip t = t := by
  have hstart : ∀ u : Text, (∀ c ∈ u, isBlank c = false) → u.dropWhile isBlank = u := by
    intro u hu
    cases u with
    | nil => rfl
    | cons c rest => rw [List.dropWhile_cons_of_neg (by simp [hu c List.mem_cons_self])]
  unfold strip trim trimEnd trimStart
  rw [hstart t hblank, hstart t.reverse fun c hc => hblank c (List.mem_reverse.mp hc),
    List.reverse_reverse]

theorem upper_cons_of_upperChar {c : Char} (hc : upperChar c = [c]) (rest : Text) :
    upper (c :: rest) = c :: upper rest := by
  rw [upper, List.flatMap_cons, hc]
  rfl

namespace Month

theorem named?_of_head {c : Char} (hupper : upperChar c = [c]) (hc : c.isAlpha = false)
    (rest : Text) :
    abbreviated? (upper (c :: rest)) = none ∧ named? (upper (c :: rest)) = none := by
  have habbreviated : abbreviated? (upper (c :: rest)) = none := by
    rw [upper_cons_of_upperChar hupper]
    exact lookup_eq_none_of_head (by decide) hc _
  refine ⟨habbreviated, ?_⟩
  rw [named?, habbreviated, Option.none_or, upper_cons_of_upperChar hupper]
  exact lookup_eq_none_of_head (by decide) hc _

/-- A month is a name in ASCII letters or a number in decimal digits. -/
def IsToken (month : Text) : Prop :=
  month ≠ [] ∧ ((∀ c ∈ month, c.isAlpha = true) ∨ ∀ c ∈ month, isDecimal c = true)

theorem isToken_of_abbreviated? {month : Text} (h : (abbreviated? month).isSome = true) :
    IsToken month := by
  obtain ⟨n, hn⟩ := Option.isSome_iff_exists.mp h
  obtain ⟨before, after, hentry, -⟩ := List.lookup_eq_some_iff.mp hn
  have hnames : ∀ entry ∈ abbreviations, entry.1 ≠ [] ∧ ∀ c ∈ entry.1, c.isAlpha = true := by
    simp [abbreviations]
  obtain ⟨hsome, halpha⟩ := hnames (month, n) (by rw [hentry]; simp)
  exact ⟨hsome, .inl halpha⟩

/-- A name stands for some month, if only for the first one. -/
theorem ofToken_of_isAlpha {month : Text} (hsome : month ≠ [])
    (halpha : ∀ c ∈ month, c.isAlpha = true) : ∃ n, ofToken month = .ok n := by
  have hblank : ∀ c ∈ month, isBlank c = false := fun c hc => isBlank_of_isAlpha (halpha c hc)
  have hnumeric : isNumeric month = false := by
    obtain ⟨c, rest, rfl⟩ := List.exists_cons_of_ne_nil hsome
    simp [isNumeric, isDigit_of_isAlpha (halpha c List.mem_cons_self)]
  unfold ofToken
  dsimp only
  rw [strip_eq_self hblank, hnumeric]
  split
  next n _ => exact ⟨n, rfl⟩
  next => exact ⟨1, rfl⟩

/-- Decimal digits are read as a number. -/
theorem ofToken_of_isDecimal {month : Text} (hsome : month ≠ [])
    (hdecimal : ∀ c ∈ month, isDecimal c = true) :
    (∃ n, ofToken month = .ok n) ↔ ∃ n, readNat month = .ok n := by
  have hdigit : ∀ c ∈ month, isDigit c = true := fun c hc => isDigit_of_isDecimal (hdecimal c hc)
  obtain ⟨c, rest, rfl⟩ := List.exists_cons_of_ne_nil hsome
  have hfirst := hdigit c List.mem_cons_self
  have hnumeric : isNumeric (c :: rest) = true := by
    rw [isNumeric, List.isEmpty_cons, Bool.not_false, Bool.true_and, List.all_eq_true]
    exact hdigit
  unfold ofToken
  dsimp only
  rw [strip_eq_self fun d hd => isBlank_of_isDigit (hdigit d hd),
    (named?_of_head (upperChar_of_isDigit hfirst) (isAlpha_of_isDigit hfirst) rest).2]
  dsimp only
  rw [if_pos hnumeric]
  cases readNat (c :: rest) <;> simp

/-- A month is read unless it is a number with too many digits. -/
theorem ofToken_ok_iff {month : Text} (htoken : IsToken month) :
    (∃ n, ofToken month = .ok n) ↔
      ((∀ c ∈ month, isDecimal c = true) → month.length ≤ maxDigits) := by
  obtain ⟨hsome, halpha | hdecimal⟩ := htoken
  · refine iff_of_true (ofToken_of_isAlpha hsome halpha) fun hdecimal => ?_
    obtain ⟨c, rest, rfl⟩ := List.exists_cons_of_ne_nil hsome
    have hdigit := isDigit_of_isDecimal (hdecimal c List.mem_cons_self)
    rw [isDigit_of_isAlpha (halpha c List.mem_cons_self)] at hdigit
    exact Bool.noConfusion hdigit
  · rw [ofToken_of_isDecimal hsome hdecimal, readNat_ok_iff]
    exact ⟨fun h _ => h.2.2, fun h => ⟨hsome, hdecimal, h hdecimal⟩⟩

end Month

end Almanac.Holiday
