import Almanac.Text.Case

/-!
# Texts in lower case

A text in lower case has no other lower case: no character that comes of a character by the tables
changes again, so even the capital sigma and the dotted capital I, whose lower case depends on its
place or is two characters, leave nothing behind that does. The runs of the table are compared with
each other: what a run gives lies outside of every run.
-/

namespace Almanac.Text

/-- A character that stays as it is in lower case, wherever it stands. -/
def IsLowered (c : Char) : Prop :=
  c ≠ 'Σ' ∧ lowerChar c = [c]

instance (c : Char) : Decidable (IsLowered c) :=
  inferInstanceAs (Decidable (c ≠ 'Σ' ∧ lowerChar c = [c]))

theorem lowerAfter_eq_self {t : Text} (h : ∀ c ∈ t, IsLowered c) (before : Text) :
    lowerAfter before t = t := by
  induction t generalizing before with
  | nil => rfl
  | cons c t ih =>
      obtain ⟨⟨hsigma, hc⟩, ht⟩ := List.forall_mem_cons.mp h
      rw [lowerAfter, if_neg hsigma, hc, ih ht]
      rfl

theorem lower_eq_self {t : Text} (h : ∀ c ∈ t, IsLowered c) : lower t = t :=
  lowerAfter_eq_self h []

/-! ## Runs -/

namespace CaseRun

def holds (run : CaseRun) (n : Nat) : Bool :=
  run.first ≤ n && n ≤ run.last && (n - run.first) % run.step == 0

/-- The code point that a code point of the run changes to. -/
def image (run : CaseRun) (n : Nat) : Nat :=
  ((n : Int) + run.shift).toNat

theorem find?_eq_some {runs : List CaseRun} {n m : Nat} (h : find? runs n = some m) :
    ∃ run ∈ runs, run.holds n = true ∧ m = run.image n := by
  obtain ⟨run, hfound, rfl⟩ := Option.map_eq_some_iff.mp h
  have hholds : run.holds n = true := List.find?_some (p := fun run : CaseRun => run.holds n) hfound
  exact ⟨run, List.mem_of_find?_eq_some hfound, hholds, rfl⟩

theorem find?_eq_none {runs : List CaseRun} {n : Nat} (h : ∀ run ∈ runs, run.holds n = false) :
    find? runs n = none := by
  rw [find?, Option.map_eq_none_iff, List.find?_eq_none]
  intro run hrun hholds
  exact Bool.noConfusion ((h run hrun).symm.trans hholds)

/-- Does what the first run gives lie outside of the second one? Either the intervals lie apart, or
the code points of one are even and those of the other odd. -/
def landsOutside (run other : CaseRun) : Bool :=
  Nat.blt (run.image run.last) other.first || Nat.blt other.last (run.image run.first) ||
    (Nat.beq other.step 2 && (Nat.beq run.step 2 || Nat.beq run.first run.last) &&
      Nat.blt 0 (run.image run.first) && Nat.beq ((run.image run.first + other.first) % 2) 1)

theorem not_holds_image {run other : CaseRun} {n : Nat} (hn : run.holds n = true)
    (houtside : run.landsOutside other = true) : other.holds (run.image n) = false := by
  rw [Bool.eq_false_iff]
  intro hholds
  simp only [holds, Bool.and_eq_true, decide_eq_true_eq, beq_iff_eq] at hn hholds
  obtain ⟨⟨hfirst, hlast⟩, hstep⟩ := hn
  obtain ⟨⟨hlow, hhigh⟩, hother⟩ := hholds
  simp only [landsOutside, Bool.or_eq_true, Bool.and_eq_true, Nat.blt_eq,
    Nat.beq_eq] at houtside
  unfold image at *
  rcases houtside with (hbelow | habove) | ⟨⟨⟨htwo, hrun⟩, hpositive⟩, hodd⟩
  · omega
  · omega
  · rw [htwo] at hother
    rcases hrun with hrun | hrun
    · rw [hrun] at hstep
      omega
    · omega

end CaseRun

/-- The runs of the characters that have another lower case: those of the table, and the dotted
capital I. -/
def changingRuns : List CaseRun :=
  ⟨304, 304, 1, 0⟩ :: lowerRuns

theorem landsOutside_changingRuns :
    (lowerRuns.all fun run => changingRuns.all run.landsOutside) = true := by
  decide +kernel

/-! ## Characters -/

theorem isLowered_of_not_holds {c : Char} (h : ∀ run ∈ changingRuns, run.holds c.toNat = false) :
    IsLowered c := by
  have htable : ∀ run ∈ lowerRuns, run.holds c.toNat = false :=
    fun run hrun => h run (List.mem_cons_of_mem _ hrun)
  constructor
  · rintro rfl
    have hsigma : (lowerRuns.any fun run => run.holds 'Σ'.toNat) = true := by decide
    obtain ⟨run, hrun, hholds⟩ := List.any_eq_true.mp hsigma
    exact Bool.noConfusion ((htable run hrun).symm.trans hholds)
  · have hdotted : c ≠ 'İ' := by
      rintro rfl
      exact absurd (h ⟨304, 304, 1, 0⟩ List.mem_cons_self) (by decide)
    have hcapital : ¬ (65 ≤ c.toNat ∧ c.toNat ≤ 90) := by
      have hletters := htable ⟨65, 90, 1, 32⟩ List.mem_cons_self
      simp only [CaseRun.holds, Nat.mod_one, beq_self_eq_true, Bool.and_true,
        Bool.and_eq_false_iff, decide_eq_false_iff_not] at hletters
      omega
    unfold lowerChar
    split
    next =>
      unfold Char.toLower
      rw [dif_neg]
      rw [ge_iff_le, UInt32.le_iff_toNat_le, UInt32.le_iff_toNat_le]
      exact hcapital
    next => simp [CaseRun.find?_eq_none htable]

/-- What comes of a code point of a run does not change again. -/
theorem isLowered_image {run : CaseRun} (hrun : run ∈ lowerRuns) {n : Nat}
    (hn : run.holds n = true) : IsLowered (Char.ofNat (run.image n)) := by
  by_cases hvalid : (run.image n).isValidChar
  · have hcode : (Char.ofNat (run.image n)).toNat = run.image n := by
      rw [Char.ofNat, dif_pos hvalid]
      rfl
    refine isLowered_of_not_holds fun other hother => ?_
    rw [hcode]
    have hpairs := List.all_eq_true.mp landsOutside_changingRuns run hrun
    exact CaseRun.not_holds_image hn (List.all_eq_true.mp hpairs other hother)
  · rw [Char.ofNat, dif_neg hvalid]
    exact ⟨by decide, by decide⟩

theorem isLowered_of_mem_lowerChar {c d : Char} (hc : c ≠ 'Σ') (hd : d ∈ lowerChar c) :
    IsLowered d := by
  unfold lowerChar at hd
  split at hd
  next hascii =>
    obtain rfl := List.mem_singleton.mp hd
    have hall : ∀ n < 128, IsLowered (Char.ofNat n).toLower := by decide
    rw [← Char.ofNat_toNat c]
    exact hall c.toNat hascii
  next hascii =>
    split at hd
    next =>
      rcases List.mem_cons.mp hd with rfl | hdot
      · exact ⟨by decide, by decide⟩
      · obtain rfl := List.mem_singleton.mp hdot
        exact ⟨by decide, by decide⟩
    next hdotted =>
      obtain rfl := List.mem_singleton.mp hd
      cases hfound : CaseRun.find? lowerRuns c.toNat with
      | none =>
          refine ⟨hc, ?_⟩
          rw [Option.map_none, Option.getD_none, lowerChar, if_neg hascii, if_neg hdotted, hfound]
          rfl
      | some m =>
          obtain ⟨run, hrun, hholds, rfl⟩ := CaseRun.find?_eq_some hfound
          exact isLowered_image hrun hholds

theorem isLowered_of_mem_lowerAfter {before t : Text} {c : Char} (hc : c ∈ lowerAfter before t) :
    IsLowered c := by
  induction t generalizing before with
  | nil => cases hc
  | cons d t ih =>
      rw [lowerAfter] at hc
      rcases List.mem_append.mp hc with hhere | hrest
      · split at hhere
        next =>
          -- either small sigma stays as it is
          split at hhere
          all_goals
            obtain rfl := List.mem_singleton.mp hhere
            exact ⟨by decide, by decide⟩
        next hsigma => exact isLowered_of_mem_lowerChar hsigma hhere
      · exact ih hrest

/-- Every character of a text in lower case stays as it is. -/
theorem isLowered_of_mem_lower {t : Text} {c : Char} (hc : c ∈ lower t) : IsLowered c :=
  isLowered_of_mem_lowerAfter hc

end Almanac.Text
