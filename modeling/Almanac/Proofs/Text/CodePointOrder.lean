import Almanac.Text.Wide
import Mathlib.Data.List.Lex
import Mathlib.Order.Basic

/-!
# Order by code points

The order by code points is the lexicographic order of lists of numbers, which is linear, and a text
is known by its numbers; so a list that is sorted by different keys is in strictly increasing order
of them.
-/

namespace Almanac

/-- A half of a surrogate pair has a number that no character has. -/
theorem CodePoint.number_injective : Function.Injective number := by
  have hchar : ∀ (c : Char) (n : Fin 2048), c.toNat ≠ 0xD800 + n := by
    intro c n h
    have hvalid : c.toNat < 0xD800 ∨ 0xDFFF < c.toNat ∧ c.toNat < 0x110000 := c.valid
    omega
  intro p q h
  cases p with
  | char c =>
      cases q with
      | char d => exact congrArg char (Char.toNat_inj.mp h)
      | half n => exact absurd h (hchar c n)
  | half n =>
      cases q with
      | char d => exact absurd h.symm (hchar d n)
      | half m => exact congrArg half (Fin.ext (Nat.add_left_cancel h))

namespace WideText

def numbers (t : WideText) : List Nat :=
  t.map CodePoint.number

theorem numbers_injective : Function.Injective numbers :=
  CodePoint.number_injective.list_map

theorem precedes_iff_lt (s t : WideText) : precedes s t = true ↔ s.numbers < t.numbers := by
  induction s generalizing t with
  | nil =>
      cases t with
      | nil => simp [precedes, numbers]
      | cons q t => simp [precedes, numbers]
  | cons p s ih =>
      cases t with
      | nil => simp [precedes, numbers]
      | cons q t =>
          have hnumber : p.number = q.number ↔ p = q := CodePoint.number_injective.eq_iff
          have hrest : precedes s t = true ↔ s.map CodePoint.number < t.map CodePoint.number := ih t
          simp [precedes, numbers, List.cons_lt_cons_iff, hnumber, hrest]

theorem not_precedes_iff_le (s t : WideText) :
    (!precedes t s) = true ↔ s.numbers ≤ t.numbers := by
  rw [Bool.not_eq_true', ← Bool.not_eq_true, precedes_iff_lt, not_lt]

/-- Entries do not decrease in the order of their keys once they are sorted. -/
theorem pairwise_mergeSort_keys {α : Type} (entries : List (WideText × α)) :
    (entries.mergeSort fun a b => !precedes b.1 a.1).Pairwise
      fun a b => (!precedes b.1 a.1) = true := by
  refine List.pairwise_mergeSort (fun a b c hab hbc => ?_) (fun a b => ?_) entries
  · rw [not_precedes_iff_le] at hab hbc ⊢
    exact le_trans hab hbc
  · rw [Bool.or_eq_true, not_precedes_iff_le, not_precedes_iff_le]
    exact le_total a.1.numbers b.1.numbers

/-- Entries with different keys are in increasing order of their keys once they are sorted. -/
theorem pairwise_precedes_mergeSort {α : Type} {entries : List (WideText × α)}
    (hkeys : (entries.map Prod.fst).Nodup) :
    (entries.mergeSort fun a b => !precedes b.1 a.1).Pairwise fun a b =>
      precedes a.1 b.1 = true := by
  have hdistinct : (entries.mergeSort fun a b => !precedes b.1 a.1).Pairwise
      fun a b => a.1 ≠ b.1 := by
    have hperm := (List.mergeSort_perm entries fun a b => !precedes b.1 a.1).map Prod.fst
    exact List.pairwise_map.mp (hperm.nodup_iff.mpr hkeys)
  refine ((pairwise_mergeSort_keys entries).and hdistinct).imp fun {a b} hab => ?_
  rw [precedes_iff_lt]
  exact lt_of_le_of_ne ((not_precedes_iff_le a.1 b.1).mp hab.1)
    fun hsame => hab.2 (numbers_injective hsame)

end WideText
end Almanac
