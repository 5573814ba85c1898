import Almanac.Holiday.WeekdayRule
import Almanac.Proofs.Holiday.ReadableMonths
import Almanac.Proofs.Text.Spans

/-!
# The parts of weekday rules

A part of a rule tells a month, a weekday or an integer by its form, and no part has two of these
forms. So to go over the parts once is to search them for each of the forms by itself, and where
only one part has a form, it is found at whatever place it stands.
-/

namespace Almanac.Holiday.WeekdayRule

open Almanac.Text

/-- The parts of a rule, in order. -/
def parts (rule : Text) : List Text :=
  (pieces ',' rule).map part

/-! ## The forms of parts -/

/-- In capitals the part is the abbreviation of the month. -/
def IsMonthPart (written : Text) (month : Nat) : Prop :=
  (upper written, month) ∈ Month.abbreviations

/-- In capitals the part is made of letters, of which the first three abbreviate the weekday. -/
structure IsWeekdayPart (written : Text) (weekday : Nat) : Prop where
  letters : ∀ c ∈ upper written, isLetter c = true
  abbreviation : ((upper written).take 3, weekday) ∈ weekdays

/-- The part is a sign or none, white space or none, and the decimal digits of the integer. -/
inductive IsIntegerPart : Text → Int → Prop
  | signed {sign blanks digits : Text} {negative : Bool} (hsign : IsSign sign negative)
      (hblanks : ∀ c ∈ blanks, isBlank c = true) (hsome : digits ≠ [])
      (hdecimal : ∀ c ∈ digits, isDecimal c = true) :
      IsIntegerPart (sign ++ (blanks ++ digits))
        (if negative then -(digitsValue digits : Int) else digitsValue digits)

def monthOf? (written : Text) : Option Nat :=
  Month.abbreviated? (upper written)

def weekdayOf? (written : Text) : Option Nat :=
  weekday? (upper written)

/-- What is read of a part in the form of an integer. -/
def integerOf? (written : Text) : Option (Except NumberFault Int) :=
  if isInteger written then some (integer written) else none

theorem monthOf?_eq_some_iff (written : Text) (month : Nat) :
    monthOf? written = some month ↔ IsMonthPart written month := by
  constructor
  · intro h
    obtain ⟨before, after, hentry, -⟩ := List.lookup_eq_some_iff.mp h
    rw [IsMonthPart, hentry]
    simp
  · intro h
    have htable : ∀ entry ∈ Month.abbreviations,
        Month.abbreviated? entry.1 = some entry.2 := by decide
    exact htable _ h

theorem weekdayOf?_eq_some_iff (written : Text) (weekday : Nat) :
    weekdayOf? written = some weekday ↔ IsWeekdayPart written weekday := by
  rw [weekdayOf?, weekday?, Option.ite_none_right_eq_some, List.all_eq_true]
  constructor
  · rintro ⟨hletters, h⟩
    obtain ⟨before, after, hentry, -⟩ := List.lookup_eq_some_iff.mp h
    exact ⟨hletters, by rw [hentry]; simp⟩
  · rintro ⟨hletters, h⟩
    have htable : ∀ entry ∈ weekdays, weekdays.lookup entry.1 = some entry.2 := by decide
    exact ⟨hletters, htable _ h⟩

/-- No abbreviation of a month is one of a weekday. -/
theorem weekdayOf?_of_isMonthPart {written : Text} {month : Nat} (h : IsMonthPart written month) :
    weekdayOf? written = none := by
  have htable : ∀ entry ∈ Month.abbreviations, weekday? entry.1 = none := by decide
  exact htable _ h

/-! ## Integers -/

/-- The white space behind the sign of a part consists of spaces, and its digits are not too
many. -/
def IsReadableInteger (part : Text) : Prop :=
  (∀ c ∈ (behindSign part).takeWhile isBlank, c = ' ') ∧
    (stripStart (behindSign part)).length ≤ maxDigits

theorem isInteger_iff (part : Text) : isInteger part = true ↔
    stripStart (behindSign part) ≠ [] ∧ ∀ c ∈ stripStart (behindSign part), isDecimal c = true := by
  unfold isInteger
  dsimp only
  split
  next => simp [behindSign]
  next => simp [behindSign]
  next hplus hminus =>
    rw [behindSign_of_not_sign hplus hminus]
    simp

theorem substitute_space (t : Text) : substitute ' ' [] t = t.filter (· ≠ ' ') := by
  induction t with
  | nil => rfl
  | cons c rest ih =>
      by_cases hc : c = ' '
      · simpa [substitute, hc] using ih
      · simpa [substitute, hc] using ih

section Signed

variable {sign blanks digits : Text} {negative : Bool}

/-- White space and decimal digits hold no sign. -/
theorem sign_notMem (hblanks : ∀ c ∈ blanks, isBlank c = true)
    (hdecimal : ∀ c ∈ digits, isDecimal c = true) :
    '+' ∉ blanks ++ digits ∧ '-' ∉ blanks ++ digits := by
  have hsign : ∀ c, isBlank c = false → isDecimal c = false → c ∉ blanks ++ digits := by
    intro c hblank hdigit hmem
    rcases List.mem_append.mp hmem with hfront | hback
    · rw [hblanks c hfront] at hblank
      exact Bool.noConfusion hblank
    · rw [hdecimal c hback] at hdigit
      exact Bool.noConfusion hdigit
  exact ⟨hsign '+' (by decide) (by decide), hsign '-' (by decide) (by decide)⟩

theorem notBlank_of_head?_digits (hdecimal : ∀ c ∈ digits, isDecimal c = true) :
    ∀ c ∈ digits.head?, isBlank c = false := fun c hc =>
  isBlank_of_isDigit (isDigit_of_isDecimal (hdecimal c (List.mem_of_mem_head? hc)))

/-- Of the spaces those behind the sign are left out. -/
theorem substitute_space_signed (hsign : IsSign sign negative)
    (hdecimal : ∀ c ∈ digits, isDecimal c = true) :
    substitute ' ' [] (sign ++ (blanks ++ digits)) =
      sign ++ (blanks.filter (· ≠ ' ') ++ digits) := by
  have hkept : sign.filter (· ≠ ' ') = sign := by cases hsign <;> rfl
  have hdigits : digits.filter (· ≠ ' ') = digits := by
    refine List.filter_eq_self.mpr fun c hc => decide_eq_true ?_
    rintro rfl
    exact absurd (hdecimal ' ' hc) (by decide)
  rw [substitute_space, List.filter_append, List.filter_append, hkept, hdigits]

theorem isReadableInteger_signed_iff (hsign : IsSign sign negative)
    (hblanks : ∀ c ∈ blanks, isBlank c = true)
    (hdecimal : ∀ c ∈ digits, isDecimal c = true) :
    IsReadableInteger (sign ++ (blanks ++ digits)) ↔
      blanks.filter (· ≠ ' ') = [] ∧ digits.length ≤ maxDigits := by
  rw [IsReadableInteger, behindSign_signed hsign (sign_notMem hblanks hdecimal),
    takeWhile_span hblanks (notBlank_of_head?_digits hdecimal), stripStart, trimStart,
    dropWhile_span hblanks (notBlank_of_head?_digits hdecimal), List.filter_eq_nil_iff]
  simp

end Signed

theorem isInteger_iff_exists {written : Text} :
    isInteger written = true ↔ ∃ n, IsIntegerPart written n := by
  rw [isInteger_iff]
  constructor
  · rintro ⟨hsome, hdecimal⟩
    obtain ⟨sign, negative, hsign, hsplit⟩ := exists_isSign written
    have hblanks : ∀ c ∈ (behindSign written).takeWhile isBlank, isBlank c = true :=
      fun c hc => List.mem_takeWhile_imp hc
    have hpart := IsIntegerPart.signed hsign hblanks hsome hdecimal
    rw [stripStart, trimStart, List.takeWhile_append_dropWhile, ← hsplit] at hpart
    exact ⟨_, hpart⟩
  · rintro ⟨n, ⟨hsign, hblanks, hsome, hdecimal⟩⟩
    rw [behindSign_signed hsign (sign_notMem hblanks hdecimal), stripStart, trimStart,
      dropWhile_span hblanks (notBlank_of_head?_digits hdecimal)]
    exact ⟨hsome, hdecimal⟩

/-- A part in the form of an integer is read just if nothing but spaces stands behind its sign and
its digits are not too many. -/
theorem integer_ok_iff {written : Text} (hpart : isInteger written = true) :
    (∃ n, integer written = .ok n) ↔ IsReadableInteger written := by
  obtain ⟨n, @⟨sign, blanks, digits, negative, hsign, hblanks, hsome, hdecimal⟩⟩ :=
    isInteger_iff_exists.mp hpart
  have hkept : ∀ c ∈ blanks.filter (· ≠ ' '), isBlank c = true := fun c hc =>
    hblanks c (List.mem_filter.mp hc).1
  rw [isReadableInteger_signed_iff hsign hblanks hdecimal, integer,
    substitute_space_signed hsign hdecimal, readInt_ok_iff,
    behindSign_signed hsign (sign_notMem hkept hdecimal)]
  constructor
  · rintro ⟨-, hall, hlength⟩
    rw [List.length_append] at hlength
    refine ⟨List.eq_nil_iff_forall_not_mem.mpr fun c hc => ?_, by omega⟩
    have hblank := isBlank_of_isDigit (isDigit_of_isDecimal (hall c (List.mem_append_left _ hc)))
    rw [hkept c hc] at hblank
    exact Bool.noConfusion hblank
  · rintro ⟨hnone, hlength⟩
    rw [hnone, List.nil_append]
    exact ⟨hsome, hdecimal, hlength⟩

/-- A part in the form of an integer that is read at all is read as the integer. -/
theorem IsIntegerPart.integer_eq {written : Text} {n : Int} (h : IsIntegerPart written n)
    (hread : IsReadableInteger written) : integer written = .ok n := by
  obtain @⟨sign, blanks, digits, negative, hsign, hblanks, hsome, hdecimal⟩ := h
  obtain ⟨hnone, hlength⟩ := (isReadableInteger_signed_iff hsign hblanks hdecimal).mp hread
  rw [integer, substitute_space_signed hsign hdecimal, hnone, List.nil_append]
  exact readInt_signed hsign ⟨hsome, hdecimal, hlength⟩

/-- A part in the form of an integer names neither a month nor a weekday. -/
theorem names_of_isInteger {part : Text} (hpart : isInteger part = true) :
    Month.abbreviated? (upper part) = none ∧ weekday? (upper part) = none := by
  obtain ⟨hsome, hdecimal⟩ := (isInteger_iff part).mp hpart
  obtain ⟨c, rest, rfl, hupper, halpha⟩ :
      ∃ c rest, part = c :: rest ∧ upperChar c = [c] ∧ c.isAlpha = false := by
    cases part with
    | nil => exact absurd rfl hsome
    | cons c rest =>
        refine ⟨c, rest, rfl, ?_⟩
        by_cases hplus : c = '+'
        · subst hplus
          exact ⟨by decide, by decide⟩
        · by_cases hminus : c = '-'
          · subst hminus
            exact ⟨by decide, by decide⟩
          · rw [behindSign_of_not_sign (fun _ h => hplus (List.cons.inj h).1)
              (fun _ h => hminus (List.cons.inj h).1)] at hdecimal
            cases hblank : isBlank c with
            | true => exact ⟨upperChar_of_isBlank hblank, isAlpha_of_isBlank hblank⟩
            | false =>
                have hdigit : isDigit c = true := by
                  refine isDigit_of_isDecimal (hdecimal c ?_)
                  simp [stripStart, trimStart, hblank]
                exact ⟨upperChar_of_isDigit hdigit, isAlpha_of_isDigit hdigit⟩
  refine ⟨(Month.named?_of_head hupper halpha rest).1, ?_⟩
  unfold weekday?
  rw [upper_cons_of_upperChar hupper, List.take_succ_cons]
  split
  next => exact lookup_eq_none_of_head (by decide) halpha _
  next => rfl

/-! ## The first part of a form -/

section First

variable {α : Type} {tells : Text → α → Prop} {tells? : Text → Option α}

/-- The first of the parts that tell anything tells this. -/
def IsFirst (tells : Text → α → Prop) (parts : List Text) (told : α) : Prop :=
  ∃ before written after, parts = before ++ written :: after ∧ tells written told ∧
    ∀ earlier ∈ before, ∀ other, ¬ tells earlier other

theorem IsFirst.exists_mem {parts : List Text} {told : α} (h : IsFirst tells parts told) :
    ∃ written ∈ parts, tells written told := by
  obtain ⟨before, written, after, rfl, hwritten, -⟩ := h
  exact ⟨written, by simp, hwritten⟩

theorem eq_none_iff_forall
    (htells : ∀ written told, tells? written = some told ↔ tells written told)
    (written : Text) : tells? written = none ↔ ∀ told, ¬ tells written told := by
  rw [Option.eq_none_iff_forall_ne_some]
  exact forall_congr' fun told => not_congr (htells written told)

theorem findSome?_eq_some_iff_isFirst
    (htells : ∀ written told, tells? written = some told ↔ tells written told)
    {parts : List Text} {told : α} :
    parts.findSome? tells? = some told ↔ IsFirst tells parts told := by
  simp only [List.findSome?_eq_some_iff, IsFirst, eq_none_iff_forall htells, htells]

theorem findSome?_eq_none_iff_forall
    (htells : ∀ written told, tells? written = some told ↔ tells written told)
    {parts : List Text} :
    parts.findSome? tells? = none ↔ ∀ written ∈ parts, ∀ told, ¬ tells written told := by
  rw [List.findSome?_eq_none_iff]
  exact forall₂_congr fun written _ => eq_none_iff_forall htells written

/-- A single one of the parts tells anything. -/
def IsSingle (tells : Text → α → Prop) (parts : List Text) : Prop :=
  ∃ before written after, parts = before ++ written :: after ∧ (∃ told, tells written told) ∧
    ∀ other ∈ before ++ after, ∀ told, ¬ tells other told

theorem IsSingle.length_filterMap {β : Type} {told? : Text → Option β} {parts : List Text}
    (h : IsSingle tells parts)
    (htells : ∀ written, (told? written).isSome = true ↔ ∃ told, tells written told) :
    (parts.filterMap told?).length = 1 := by
  obtain ⟨before, written, after, rfl, htold, hothers⟩ := h
  have hnone : ∀ others : List Text, (∀ other ∈ others, ∀ told, ¬ tells other told) →
      others.filterMap told? = [] := by
    intro others hothers
    refine List.filterMap_eq_nil_iff.mpr fun other hother => ?_
    rw [← Option.not_isSome_iff_eq_none, htells]
    exact not_exists.mpr (hothers other hother)
  obtain ⟨told, hwritten⟩ := Option.isSome_iff_exists.mp ((htells written).mpr htold)
  rw [List.filterMap_append, List.filterMap_cons, hwritten,
    hnone before fun other hother => hothers other (List.mem_append_left _ hother),
    hnone after fun other hother => hothers other (List.mem_append_right _ hother)]
  rfl

/-- Where a single part tells anything, it is found in any order of the parts. -/
theorem findSome?_perm {parts others : List Text} (h : parts.Perm others)
    (hsingle : (parts.filterMap tells?).length = 1) :
    parts.findSome? tells? = others.findSome? tells? := by
  obtain ⟨told, htold⟩ := List.length_eq_one_iff.mp hsingle
  have hperm := h.filterMap tells?
  rw [htold, List.singleton_perm] at hperm
  rw [← List.head?_filterMap, ← List.head?_filterMap, htold, hperm]

end First

/-! ## From step to search -/

/-- The occurrence after more parts: the one that has been named, or what is read of the first part
in the form of an integer. -/
def counted : Option Int → List Text → Except NumberFault (Option Int)
  | some n, _ => .ok (some n)
  | none, parts =>
      match parts.findSome? integerOf? with
      | none => .ok none
      | some (.ok n) => .ok (some n)
      | some (.error e) => .error e

theorem counted_cons_of_passed {occurrence : Option Int} {written : Text}
    (h : isInteger written = false ∨ occurrence.isSome = true) (rest : List Text) :
    counted occurrence (written :: rest) = counted occurrence rest := by
  cases occurrence with
  | some n => rfl
  | none =>
      obtain hform : isInteger written = false := by simpa using h
      have hnone : integerOf? written = none := by rw [integerOf?, hform]; rfl
      rw [counted, counted, List.findSome?_cons, hnone]

/-- A part that is not counted as the occurrence names the month and the weekday if it can and they
have not been named. -/
theorem step_of_passed {found : Found} {piece : Text}
    (h : isInteger (part piece) = false ∨ found.occurrence.isSome = true) :
    found.step piece = .ok ⟨found.month.or (monthOf? (part piece)),
      found.weekday.or (weekdayOf? (part piece)), found.occurrence⟩ := by
  have hcounted : (found.occurrence.isNone && isInteger (part piece)) = false := by
    rcases h with hform | hbehind
    · rw [hform, Bool.and_false]
    · rw [← Option.not_isSome, hbehind]
      rfl
  obtain ⟨month, weekday, occurrence⟩ := found
  unfold Found.step
  dsimp only
  rw [hcounted, ← monthOf?, ← weekdayOf?]
  cases month with
  | some month => cases weekday <;> cases weekdayOf? (part piece) <;> rfl
  | none =>
      cases hmonth : monthOf? (part piece) with
      | none => cases weekday <;> cases weekdayOf? (part piece) <;> rfl
      | some named =>
          rw [weekdayOf?_of_isMonthPart ((monthOf?_eq_some_iff _ _).mp hmonth), Option.or_none]
          rfl

/-- The first part in the form of an integer is the occurrence. -/
theorem step_of_isInteger {found : Found} {piece : Text} (hnone : found.occurrence = none)
    (hpart : isInteger (part piece) = true) :
    found.step piece =
      match integer (part piece) with
      | .error e => .error e
      | .ok n => .ok { found with occurrence := some n } := by
  obtain ⟨hmonth, hweekday⟩ := names_of_isInteger hpart
  unfold Found.step
  dsimp only
  rw [hmonth, hweekday, ite_self, ite_self, hnone, hpart]
  rfl

/-- To go over the parts is to search them for a month, for a weekday and for an occurrence. -/
theorem foldlM_step (pieces : List Text) (found : Found) :
    pieces.foldlM Found.step found = (counted found.occurrence (pieces.map part)).map fun n =>
      ⟨found.month.or ((pieces.map part).findSome? monthOf?),
        found.weekday.or ((pieces.map part).findSome? weekdayOf?), n⟩ := by
  induction pieces generalizing found with
  | nil =>
      obtain ⟨month, weekday, occurrence⟩ := found
      cases occurrence <;> simp [counted, Except.map, pure, Except.pure]
  | cons piece pieces ih =>
      rw [List.foldlM_cons, List.map_cons]
      by_cases hpassed : isInteger (part piece) = false ∨ found.occurrence.isSome = true
      · rw [step_of_passed hpassed, counted_cons_of_passed hpassed]
        simp only [bind, Except.bind, ih, Option.or_assoc, List.findSome?_cons]
        cases monthOf? (part piece) <;> cases weekdayOf? (part piece) <;> simp
      · obtain ⟨hform, hnone⟩ := not_or.mp hpassed
        replace hform : isInteger (part piece) = true := by simpa using hform
        replace hnone : found.occurrence = none := by simpa using hnone
        obtain ⟨hmonth, hweekday⟩ := names_of_isInteger hform
        rw [← monthOf?] at hmonth
        rw [← weekdayOf?] at hweekday
        have hread : integerOf? (part piece) = some (integer (part piece)) := by
          rw [integerOf?, if_pos hform]
        rw [step_of_isInteger hnone hform, hnone, counted, List.findSome?_cons,
          List.findSome?_cons, List.findSome?_cons, hread, hmonth, hweekday]
        cases integer (part piece) with
        | error fault => rfl
        | ok n => exact ih _

theorem ofText_eq (rule : Text) : ofText rule = (counted none (parts rule)).map fun n =>
    Found.rule? ⟨(parts rule).findSome? monthOf?, (parts rule).findSome? weekdayOf?, n⟩ := by
  have hfold := foldlM_step (pieces ',' rule) ⟨none, none, none⟩
  simp only [Option.none_or] at hfold
  unfold ofText
  rw [hfold, parts]
  cases counted none ((pieces ',' rule).map part) <;> rfl

/-! ## What a rule tells -/

/-- The parts tell the rule: the first part in each of the three forms is that of the rule, and its
occurrence is not zero. -/
structure IsTold (parts : List Text) (rule : WeekdayRule) : Prop where
  month : ∃ month : Nat, IsFirst IsMonthPart parts month ∧ rule.month = month
  weekday : ∃ weekday : Nat, IsFirst IsWeekdayPart parts weekday ∧ rule.weekday = weekday
  occurrence : IsFirst IsIntegerPart parts rule.occurrence
  nonzero : rule.occurrence ≠ 0

/-- One part has the form of a month, one that of a weekday and one that of an integer. The other
parts have none of these forms. -/
structure HasOneOfEach (parts : List Text) : Prop where
  month : IsSingle IsMonthPart parts
  weekday : IsSingle IsWeekdayPart parts
  occurrence : IsSingle IsIntegerPart parts

theorem isSome_integerOf?_iff (written : Text) :
    (integerOf? written).isSome = true ↔ ∃ n, IsIntegerPart written n := by
  rw [← isInteger_iff_exists, integerOf?]
  cases isInteger written <;> simp

theorem integerOf?_eq_none_iff (written : Text) :
    integerOf? written = none ↔ ∀ n, ¬ IsIntegerPart written n := by
  rw [← Option.not_isSome_iff_eq_none, isSome_integerOf?_iff, not_exists]

/-- What is read of a part in the form of an integer is the integer, if it is not refused. -/
theorem IsIntegerPart.integerOf?_eq {written : Text} {n : Int} (h : IsIntegerPart written n) :
    integerOf? written = some (.ok n) ∨ ∃ fault, integerOf? written = some (.error fault) := by
  have hform := isInteger_iff_exists.mpr ⟨n, h⟩
  rw [integerOf?, if_pos hform]
  cases hinteger : integer written with
  | error fault => exact .inr ⟨fault, rfl⟩
  | ok found =>
      rw [h.integer_eq ((integer_ok_iff hform).mp ⟨found, hinteger⟩)] at hinteger
      exact .inl (congrArg some hinteger.symm)

theorem isIntegerPart_of_integerOf? {written : Text} {n : Int}
    (h : integerOf? written = some (.ok n)) : IsIntegerPart written n := by
  obtain ⟨m, hpart⟩ := (isSome_integerOf?_iff written).mp (by rw [h]; rfl)
  rcases hpart.integerOf?_eq with hread | ⟨fault, hread⟩
  · rw [h] at hread
    obtain rfl := Except.ok.inj (Option.some.inj hread)
    exact hpart
  · rw [h] at hread
    cases hread

/-- The occurrence that is read is the integer of the first part in that form. -/
theorem counted_eq_some_iff {parts : List Text} {occurrence : Option Int}
    (h : counted none parts = .ok occurrence) {n : Int} :
    occurrence = some n ↔ IsFirst IsIntegerPart parts n := by
  rw [counted] at h
  constructor
  · rintro rfl
    split at h
    next => cases h
    next found hfound =>
      obtain rfl := Option.some.inj (Except.ok.inj h)
      obtain ⟨before, written, after, rfl, hwritten, hbefore⟩ :=
        List.findSome?_eq_some_iff.mp hfound
      exact ⟨before, written, after, rfl, isIntegerPart_of_integerOf? hwritten,
        fun earlier hearlier => (integerOf?_eq_none_iff earlier).mp (hbefore earlier hearlier)⟩
    next => cases h
  · rintro ⟨before, written, after, rfl, hpart, hbefore⟩
    have hfound : ∀ {found}, integerOf? written = some found →
        (before ++ written :: after).findSome? integerOf? = some found := fun hwritten =>
      List.findSome?_eq_some_iff.mpr ⟨before, written, after, rfl, hwritten,
        fun earlier hearlier => (integerOf?_eq_none_iff earlier).mpr (hbefore earlier hearlier)⟩
    rcases hpart.integerOf?_eq with hread | ⟨fault, hread⟩
    · rw [hfound hread] at h
      exact (Except.ok.inj h).symm
    · rw [hfound hread] at h
      cases h

theorem counted_eq_none_iff {parts : List Text} {occurrence : Option Int}
    (h : counted none parts = .ok occurrence) :
    occurrence = none ↔ ∀ written ∈ parts, ∀ n, ¬ IsIntegerPart written n := by
  have hforms : parts.findSome? integerOf? = none ↔
      ∀ written ∈ parts, ∀ n, ¬ IsIntegerPart written n := by
    rw [List.findSome?_eq_none_iff]
    exact forall₂_congr fun written _ => integerOf?_eq_none_iff written
  rw [← hforms]
  rw [counted] at h
  split at h
  next hnone => exact iff_of_true (Except.ok.inj h).symm hnone
  next found hfound =>
    obtain rfl := Except.ok.inj h
    exact iff_of_false (Option.some_ne_none found) (by simp [hfound])
  next => cases h

theorem rule?_eq_none_iff {found : Found} : found.rule? = none ↔
    found.month = none ∨ found.weekday = none ∨ found.occurrence = none ∨
      found.occurrence = some 0 := by
  obtain ⟨_ | month, _ | weekday, _ | occurrence⟩ := found <;> simp [Found.rule?]

theorem rule?_eq_some_iff {found : Found} {rule : WeekdayRule} : found.rule? = some rule ↔
    (∃ month : Nat, found.month = some month ∧ rule.month = month) ∧
    (∃ weekday : Nat, found.weekday = some weekday ∧ rule.weekday = weekday) ∧
    found.occurrence = some rule.occurrence ∧ rule.occurrence ≠ 0 := by
  obtain ⟨_ | month, _ | weekday, _ | occurrence⟩ := found <;> simp [Found.rule?]
  obtain ⟨namedMonth, namedWeekday, namedOccurrence⟩ := rule
  rw [WeekdayRule.mk.injEq]
  constructor
  · rintro ⟨hnonzero, rfl, rfl, rfl⟩
    exact ⟨rfl, rfl, rfl, hnonzero⟩
  · rintro ⟨rfl, rfl, rfl, hnonzero⟩
    exact ⟨hnonzero, rfl, rfl, rfl⟩

variable {rule : Text} {parsed : Option WeekdayRule}

theorem eq_some_iff_isTold (h : ofText rule = .ok parsed) {named : WeekdayRule} :
    parsed = some named ↔ IsTold (parts rule) named := by
  rw [ofText_eq] at h
  obtain ⟨occurrence, hcounted, rfl⟩ := exists_of_map_eq_ok h
  rw [rule?_eq_some_iff]
  simp only [findSome?_eq_some_iff_isFirst monthOf?_eq_some_iff,
    findSome?_eq_some_iff_isFirst weekdayOf?_eq_some_iff, counted_eq_some_iff hcounted]
  constructor
  · rintro ⟨hmonth, hweekday, hoccurrence, hnonzero⟩
    exact ⟨hmonth, hweekday, hoccurrence, hnonzero⟩
  · rintro ⟨hmonth, hweekday, hoccurrence, hnonzero⟩
    exact ⟨hmonth, hweekday, hoccurrence, hnonzero⟩

theorem eq_none_iff (h : ofText rule = .ok parsed) : parsed = none ↔
    (∀ written ∈ parts rule, ∀ month, ¬ IsMonthPart written month) ∨
    (∀ written ∈ parts rule, ∀ weekday, ¬ IsWeekdayPart written weekday) ∨
    (∀ written ∈ parts rule, ∀ n, ¬ IsIntegerPart written n) ∨
    IsFirst IsIntegerPart (parts rule) 0 := by
  rw [ofText_eq] at h
  obtain ⟨occurrence, hcounted, rfl⟩ := exists_of_map_eq_ok h
  rw [rule?_eq_none_iff]
  simp only [findSome?_eq_none_iff_forall monthOf?_eq_some_iff,
    findSome?_eq_none_iff_forall weekdayOf?_eq_some_iff, counted_eq_none_iff hcounted,
    counted_eq_some_iff hcounted]

/-- Parts in these forms tell the same in whatever order they stand, and whether or not they are
read. -/
theorem ofText_perm {one other : Text} (h : (parts one).Perm (parts other))
    (heach : HasOneOfEach (parts one)) : ofText one = ofText other := by
  have hmonth : (parts one).findSome? monthOf? = (parts other).findSome? monthOf? := by
    refine findSome?_perm h (heach.month.length_filterMap fun written => ?_)
    rw [Option.isSome_iff_exists]
    exact exists_congr fun month => monthOf?_eq_some_iff written month
  have hweekday : (parts one).findSome? weekdayOf? = (parts other).findSome? weekdayOf? := by
    refine findSome?_perm h (heach.weekday.length_filterMap fun written => ?_)
    rw [Option.isSome_iff_exists]
    exact exists_congr fun weekday => weekdayOf?_eq_some_iff written weekday
  have hinteger : (parts one).findSome? integerOf? = (parts other).findSome? integerOf? :=
    findSome?_perm h (heach.occurrence.length_filterMap isSome_integerOf?_iff)
  rw [ofText_eq, ofText_eq, hmonth, hweekday, counted, counted, hinteger]

end Almanac.Holiday.WeekdayRule
