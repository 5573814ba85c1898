import Almanac.Proofs.Holiday.DefinitionNumbers

/-!
# What month tokens stand for

A token stands for the month that it names, for the month of its number, and failing both for
January. The exception are tokens of digits that make no number: `²` is a digit in the wide sense
but no decimal one, and of thousands of digits none is read. Such a token is taken for a number and
then refused, and only such a token is.
-/

namespace Almanac.Holiday

open Almanac.Text

namespace Month

/-- In capitals, and without the white space around it, the token is the abbreviation or the full
name of the month. -/
def Names (token : Text) (month : Nat) : Prop :=
  (upper (strip token), month) ∈ abbreviations ++ fullNames

/-- Without the white space around it, the token is the number of the month in decimal digits. -/
structure Numbers (token : Text) (month : Nat) : Prop where
  nonempty : strip token ≠ []
  decimal : ∀ c ∈ strip token, isDecimal c = true
  value : digitsValue (strip token) = month
  low : 1 ≤ month
  high : month ≤ 12

/-- The month that a token stands for: names come before numbers, and all else is January. -/
inductive StandsFor (token : Text) : Nat → Prop
  | name {month : Nat} (hname : Names token month) : StandsFor token month
  | number {month : Nat} (hnone : ∀ other, ¬ Names token other) (hnumber : Numbers token month) :
      StandsFor token month
  | other (hnone : ∀ other, ¬ Names token other) (hunnumbered : ∀ other, ¬ Numbers token other) :
      StandsFor token 1

/-- The token consists of digits, in the wide sense too, but is no number that is read: one of them
is no decimal digit, or there are too many. -/
structure IsSpoiled (token : Text) : Prop where
  nonempty : strip token ≠ []
  digits : ∀ c ∈ strip token, isDigit c = true
  unread : (∃ c ∈ strip token, isDecimal c = false) ∨ maxDigits < (strip token).length

/-! ## Names -/

theorem named?_eq_some_iff {name : Text} {month : Nat} :
    named? name = some month ↔ (name, month) ∈ abbreviations ++ fullNames := by
  have hlookup : named? name = (abbreviations ++ fullNames).lookup name :=
    (List.lookup_append).symm
  constructor
  · intro h
    rw [hlookup] at h
    obtain ⟨before, after, hentry, -⟩ := List.lookup_eq_some_iff.mp h
    rw [hentry]
    simp
  · intro h
    -- the two tables agree on the month whose full name has three letters
    have htable : ∀ entry ∈ abbreviations ++ fullNames, named? entry.1 = some entry.2 := by decide
    exact htable _ h

theorem named?_eq_none_iff {token : Text} :
    named? (upper (strip token)) = none ↔ ∀ month, ¬ Names token month := by
  rw [Option.eq_none_iff_forall_ne_some]
  exact forall_congr' fun month => not_congr named?_eq_some_iff

/-- Digits are no name, in capitals neither. -/
theorem not_names_of_digits {token : Text} (hsome : strip token ≠ [])
    (hdigits : ∀ c ∈ strip token, isDigit c = true) (month : Nat) : ¬ Names token month := by
  suffices named? (upper (strip token)) = none from named?_eq_none_iff.mp this month
  obtain ⟨c, rest, hstrip⟩ := List.exists_cons_of_ne_nil hsome
  have hc : isDigit c = true := hdigits c (hstrip ▸ List.mem_cons_self)
  rw [hstrip]
  exact (named?_of_head (upperChar_of_isDigit hc) (isAlpha_of_isDigit hc) rest).2

/-! ## Numbers -/

theorem isNumeric_iff {t : Text} :
    isNumeric t = true ↔ t ≠ [] ∧ ∀ c ∈ t, isDigit c = true := by
  simp [isNumeric]

theorem Numbers.isNumeric {token : Text} {month : Nat} (h : Numbers token month) :
    isNumeric (strip token) = true :=
  isNumeric_iff.mpr ⟨h.nonempty, fun c hc => isDigit_of_isDecimal (h.decimal c hc)⟩

/-- Digits are spoiled just if they are not read as a number. -/
theorem isSpoiled_iff {token : Text} :
    IsSpoiled token ↔ isNumeric (strip token) = true ∧ ¬ IsReadableNat (strip token) := by
  rw [isNumeric_iff]
  constructor
  · rintro ⟨hsome, hdigits, hunread⟩
    refine ⟨⟨hsome, hdigits⟩, ?_⟩
    rintro ⟨-, hdecimal, hlength⟩
    rcases hunread with ⟨c, hc, hwide⟩ | hlong
    · rw [hdecimal c hc] at hwide
      exact Bool.noConfusion hwide
    · omega
  · rintro ⟨⟨hsome, hdigits⟩, hunread⟩
    refine ⟨hsome, hdigits, ?_⟩
    by_contra hread
    obtain ⟨hdecimal, hlength⟩ := not_or.mp hread
    refine hunread ⟨hsome, fun c hc => ?_, Nat.not_lt.mp hlength⟩
    by_contra hwide
    exact hdecimal ⟨c, hc, Bool.eq_false_iff.mpr hwide⟩

theorem isReadableNat_of_not_isSpoiled {token : Text} (hnumeric : isNumeric (strip token) = true)
    (hspoiled : ¬ IsSpoiled token) : IsReadableNat (strip token) := by
  by_contra hunread
  exact hspoiled (isSpoiled_iff.mpr ⟨hnumeric, hunread⟩)

/-! ## What comes of a token -/

variable {token : Text} {month : Nat}

theorem ofToken_of_names (h : Names token month) : ofToken token = .ok month := by
  unfold ofToken
  dsimp only
  rw [named?_eq_some_iff.mpr h]

theorem ofToken_of_numbers (h : Numbers token month) (hspoiled : ¬ IsSpoiled token) :
    ofToken token = .ok month := by
  have hreadable := isReadableNat_of_not_isSpoiled h.isNumeric hspoiled
  have hdigits := isNumeric_iff.mp h.isNumeric
  have hnone := named?_eq_none_iff.mpr (not_names_of_digits hdigits.1 hdigits.2)
  unfold ofToken
  dsimp only
  rw [hnone]
  dsimp only
  rw [if_pos h.isNumeric, readNat_of_isReadableNat hreadable, h.value]
  dsimp only
  rw [if_pos ⟨h.low, h.high⟩]

theorem ofToken_of_isSpoiled (h : IsSpoiled token) :
    ∃ fault, ofToken token = .error fault ∧ readNat (strip token) = .error fault := by
  have hnone := named?_eq_none_iff.mpr (not_names_of_digits h.nonempty h.digits)
  obtain ⟨hnumeric, hunread⟩ := isSpoiled_iff.mp h
  unfold ofToken
  dsimp only
  rw [hnone]
  dsimp only
  rw [if_pos hnumeric]
  cases hread : readNat (strip token) with
  | error fault => exact ⟨fault, rfl, rfl⟩
  | ok n => exact absurd ((readNat_ok_iff _).mp ⟨n, hread⟩) hunread

theorem ofToken_of_other (hnone : ∀ other, ¬ Names token other)
    (hunnumbered : ∀ other, ¬ Numbers token other) (hspoiled : ¬ IsSpoiled token) :
    ofToken token = .ok 1 := by
  unfold ofToken
  dsimp only
  rw [named?_eq_none_iff.mpr hnone]
  dsimp only
  split
  next hnumeric =>
    have hreadable := isReadableNat_of_not_isSpoiled hnumeric hspoiled
    rw [readNat_of_isReadableNat hreadable]
    dsimp only
    rw [if_neg]
    rintro ⟨hlow, hhigh⟩
    exact hunnumbered _ ⟨hreadable.1, hreadable.2.1, rfl, hlow, hhigh⟩
  next => rfl

/-- A token that is not spoiled stands for the month that it is read as. -/
theorem ofToken_of_standsFor (h : StandsFor token month) (hspoiled : ¬ IsSpoiled token) :
    ofToken token = .ok month := by
  cases h with
  | name hname => exact ofToken_of_names hname
  | number _ hnumber => exact ofToken_of_numbers hnumber hspoiled
  | other hnone hunnumbered => exact ofToken_of_other hnone hunnumbered hspoiled

theorem exists_standsFor (token : Text) : ∃ month, StandsFor token month := by
  by_cases hname : ∃ month, Names token month
  · obtain ⟨month, hname⟩ := hname
    exact ⟨month, .name hname⟩
  · have hnone := not_exists.mp hname
    by_cases hnumber : ∃ month, Numbers token month
    · obtain ⟨month, hnumber⟩ := hnumber
      exact ⟨month, .number hnone hnumber⟩
    · exact ⟨1, .other hnone (not_exists.mp hnumber)⟩

theorem ofToken_eq_ok_iff :
    ofToken token = .ok month ↔ ¬ IsSpoiled token ∧ StandsFor token month := by
  constructor
  · intro h
    have hspoiled : ¬ IsSpoiled token := by
      intro hspoiled
      obtain ⟨fault, herror, -⟩ := ofToken_of_isSpoiled hspoiled
      rw [h] at herror
      cases herror
    obtain ⟨stood, hstood⟩ := exists_standsFor token
    rw [ofToken_of_standsFor hstood hspoiled] at h
    obtain rfl := Except.ok.inj h
    exact ⟨hspoiled, hstood⟩
  · rintro ⟨hspoiled, hstood⟩
    exact ofToken_of_standsFor hstood hspoiled

theorem ofToken_eq_error_iff {fault : NumberFault} :
    ofToken token = .error fault ↔ IsSpoiled token ∧ readNat (strip token) = .error fault := by
  constructor
  · intro h
    have hspoiled : IsSpoiled token := by
      by_contra hspoiled
      obtain ⟨stood, hstood⟩ := exists_standsFor token
      rw [ofToken_of_standsFor hstood hspoiled] at h
      cases h
    obtain ⟨other, hother, hread⟩ := ofToken_of_isSpoiled hspoiled
    rw [h] at hother
    obtain rfl := Except.error.inj hother
    exact ⟨hspoiled, hread⟩
  · rintro ⟨hspoiled, hread⟩
    obtain ⟨other, hother, hsame⟩ := ofToken_of_isSpoiled hspoiled
    rw [hread] at hsame
    obtain rfl := Except.error.inj hsame
    exact hother

theorem exists_ofToken_eq_ok_iff : (∃ month, ofToken token = .ok month) ↔ ¬ IsSpoiled token := by
  constructor
  · rintro ⟨month, h⟩
    exact (ofToken_eq_ok_iff.mp h).1
  · intro hspoiled
    obtain ⟨month, hstood⟩ := exists_standsFor token
    exact ⟨month, ofToken_of_standsFor hstood hspoiled⟩

theorem StandsFor.bounds (h : StandsFor token month) : 1 ≤ month ∧ month ≤ 12 := by
  cases h with
  | name hname =>
      have htable : ∀ entry ∈ abbreviations ++ fullNames, 1 ≤ entry.2 ∧ entry.2 ≤ 12 := by decide
      exact htable _ hname
  | number _ hnumber => exact ⟨hnumber.low, hnumber.high⟩
  | other => decide

/-! ## Definitions -/

theorem exists_definition_iff (category name : Text) (day : Int) :
    (∃ definition, Definition.ofAnnouncement category ⟨name, .fixed token day⟩ = .ok definition) ↔
      ¬ IsSpoiled token :=
  ((map_ok_iff _ _).trans (map_ok_iff _ _)).trans exists_ofToken_eq_ok_iff

theorem calculation_of_ofAnnouncement {category name : Text} {day : Int} {definition : Definition}
    (h : Definition.ofAnnouncement category ⟨name, .fixed token day⟩ = .ok definition) :
    ∃ month, StandsFor token month ∧ definition.calculation = .fixed month day := by
  obtain ⟨calculation, hcalculation, rfl⟩ := exists_of_map_eq_ok h
  obtain ⟨month, htoken, rfl⟩ := exists_of_map_eq_ok hcalculation
  exact ⟨month, (ofToken_eq_ok_iff.mp htoken).2, rfl⟩

/-- A token that is not spoiled is read as the month that it stands for, which is one of the
twelve; a spoiled one is refused with the fault of reading it as a number. So a date of a month
becomes a definition unless its token is spoiled, and the month of the definition is always one of
the twelve. -/
theorem ofToken_unless_spoiled (token : Text) :
    (∀ month, ofToken token = .ok month ↔ ¬ IsSpoiled token ∧ StandsFor token month) ∧
    (∀ fault, ofToken token = .error fault ↔
      IsSpoiled token ∧ readNat (strip token) = .error fault) ∧
    (∀ month, StandsFor token month → 1 ≤ month ∧ month ≤ 12) ∧
    ∀ (category name : Text) (day : Int),
      ((∃ definition, Definition.ofAnnouncement category ⟨name, .fixed token day⟩ =
          .ok definition) ↔ ¬ IsSpoiled token) ∧
      ∀ definition, Definition.ofAnnouncement category ⟨name, .fixed token day⟩ =
          .ok definition →
        ∃ month, definition.calculation = .fixed month day ∧ 1 ≤ month ∧ month ≤ 12 := by
  refine ⟨fun month => ofToken_eq_ok_iff, fun fault => ofToken_eq_error_iff,
    fun month hstood => hstood.bounds, fun category name day => ⟨?_, fun definition h => ?_⟩⟩
  · exact exists_definition_iff category name day
  · obtain ⟨month, hstood, hcalculation⟩ := calculation_of_ofAnnouncement h
    exact ⟨month, hcalculation, hstood.bounds⟩

/-- A superscript two stands for January, as every token does that names no month and is no decimal
number, but it is refused. -/
theorem ofToken_superscript :
    StandsFor "²" 1 ∧ ofToken "²" = .error (.notDecimal "²") := by
  have hstrip : strip "²" = "²".toList := by decide
  refine ⟨.other (fun month hname => ?_) (fun month hnumber => ?_), by decide⟩
  · have hnone : named? (upper (strip "²")) = none := by decide
    exact named?_eq_none_iff.mp hnone month hname
  · have hdecimal := hnumber.decimal '²' (by rw [hstrip]; decide)
    revert hdecimal
    decide

end Month
end Almanac.Holiday
