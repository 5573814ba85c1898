import Almanac.Text.Numeral
import Mathlib.Data.List.Induction
import Mathlib.Data.Nat.Digits.Defs
import Mathlib.Tactic.Ring

/-!
# Decimal digits of numbers

The written form of a number consists of ASCII digits, begins with a zero only if the number is
zero, and stands for the number again.
-/

namespace Almanac.Text

theorem isPlainDigit_of_mem_ofNat {n : Nat} {c : Char} (hmem : c ∈ ofNat n) :
    isPlainDigit c = true := by
  have hdigit : c.isDigit = true := Nat.isDigit_of_mem_toDigits (by decide) (by decide) hmem
  simp only [Char.isDigit, Bool.and_eq_true, decide_eq_true_eq] at hdigit
  simp only [isPlainDigit, Bool.and_eq_true, decide_eq_true_eq]
  exact hdigit

@[simp] theorem ofNat_ne_nil (n : Nat) : ofNat n ≠ [] := Nat.toDigits_ne_nil

theorem exists_ofNat_eq_cons (n : Nat) :
    ∃ c more, ofNat n = c :: more ∧ isPlainDigit c = true := by
  cases hwritten : ofNat n with
  | nil => exact absurd hwritten (ofNat_ne_nil n)
  | cons c more =>
      exact ⟨c, more, rfl, isPlainDigit_of_mem_ofNat (n := n) (hwritten ▸ List.mem_cons_self)⟩

/-- The digits of a number stand for it. -/
@[simp] theorem plainNumber_ofNat (n : Nat) : plainNumber (ofNat n) = n := by
  have h : Nat.ofDigitChars 10 (Nat.toDigits 10 n) 0 = n := Nat.ofDigitChars_ten_toDigits
  simpa only [plainNumber, ofNat, Nat.ofDigitChars] using h

/-- Digits before others count as many times more as there are values of the others. -/
theorem plainNumber_append (first second : Text) :
    plainNumber (first ++ second) =
      plainNumber first * 10 ^ second.length + plainNumber second := by
  induction second using List.reverseRecOn with
  | nil => simp [plainNumber]
  | append_singleton second c ih =>
      simp only [plainNumber, ← List.append_assoc, List.foldl_append, List.foldl_cons,
        List.foldl_nil, List.length_append, List.length_cons, List.length_nil, Nat.zero_add,
        Nat.pow_succ] at ih ⊢
      rw [ih]
      ring

theorem plainNumber_lt {digits : Text} (hdigits : ∀ c ∈ digits, isPlainDigit c = true) :
    plainNumber digits < 10 ^ digits.length := by
  induction digits using List.reverseRecOn with
  | nil => decide
  | append_singleton digits c ih =>
      have hvalue : plainNumber [c] < 10 := by
        have hc := hdigits c (by simp)
        simp only [isPlainDigit, Bool.and_eq_true, decide_eq_true_eq] at hc
        have hnine : c.toNat ≤ '9'.toNat := hc.2
        have hzero : plainNumber [c] = c.toNat - '0'.toNat := by simp [plainNumber]
        rw [hzero]
        exact Nat.lt_of_le_of_lt (Nat.sub_le_sub_right hnine _) (by decide)
      have hdigits' := ih fun d hd => hdigits d (List.mem_append_left _ hd)
      rw [plainNumber_append, List.length_append, List.length_singleton, Nat.pow_succ]
      omega

/-- The number that digits stand for is written with no more digits. -/
theorem length_ofNat_plainNumber_le {digits : Text} (hsome : digits ≠ [])
    (hdigits : ∀ c ∈ digits, isPlainDigit c = true) :
    (ofNat (plainNumber digits)).length ≤ digits.length :=
  Nat.toDigits_length 10 (plainNumber digits) digits.length (List.length_pos_iff.mpr hsome)
    (plainNumber_lt hdigits)

theorem plainNumber_replicate_zero (n : Nat) : plainNumber (List.replicate n '0') = 0 := by
  induction n with
  | zero => rfl
  | succ n ih => rw [List.replicate_succ', plainNumber_append, ih]; rfl

/-- Only the written form of zero begins with a zero. -/
theorem head?_ofNat_of_pos {n : Nat} (hn : 0 < n) : (ofNat n).head? ≠ some '0' := by
  induction n using Nat.strongRecOn with
  | ind n ih =>
      unfold ofNat
      by_cases hsmall : n < 10
      · have hdigit : ∀ d < 10, 0 < d → [Nat.digitChar d].head? ≠ some '0' := by decide
        rw [Nat.toDigits_of_lt_base hsmall]
        exact hdigit n hsmall hn
      · have hquotient := ih (n / 10) (by omega) (by omega)
        rw [Nat.toDigits_of_base_le (by decide) (by omega), List.head?_append]
        unfold ofNat at hquotient
        cases hdigits : Nat.toDigits 10 (n / 10) with
        | nil => exact absurd hdigits Nat.toDigits_ne_nil
        | cons d rest => simpa [hdigits] using hquotient

end Almanac.Text
