import Almanac.Proofs.Registration.CallNumbers
import Almanac.Proofs.Registration.WrittenCalls

/-!
# Idioms of one date

A source has several ways to register a holiday on one date. A day of a month stands in the
arguments of the general method, in the name of a method made for it, or in the name of a feast; a
distance from Easter Sunday stands in the arguments of its own method, as a shift forward or
backward in those of the general one, or in the name of a feast. All ways to one date are read as
dates with one calculation.
-/

namespace Almanac.Registration

open Almanac.Text Almanac.Holiday Almanac.Source Holiday.DateExpression

/-- A method, and what stands between the name of the holiday and the end of the call, tell a
calculation. -/
inductive Tells : (method second : Text) → Calculation → Prop
  | date {year month : Text} {m day : Nat} (hyear : year ∈ yearNames) (hmonth : NamesMonth month m)
      (hday : day < 100) :
      Tells "_add_holiday" (", " ++ writtenDate year month day) (.fixed m day)
  | dated {abbreviation : Text} {m day : Nat} (hmonth : (abbreviation, m) ∈ Month.abbreviations)
      (hday : day < 100) :
      Tells ("_add_holiday_" ++ (lower abbreviation ++ '_' :: ofNat day)) [] (.fixed m day)
  | feast {method : Text} {date : DateExpression} {calculation : Calculation}
      (hfeast : (method, date) ∈ feasts) (hdate : Calculation.ofDate date = .ok calculation) :
      Tells method [] calculation
  | distance {offset : Int} (hlength : (ofNat offset.natAbs).length ≤ maxDigits) :
      Tells "_add_easter_based_holiday" (", " ++ ofInt offset) (.easterBased offset)
  /-- A minus sign before the span goes with the distance taken the other way round. -/
  | shift {year span : Text} {offset : Int} (backward : Bool) (hyear : year ∈ yearNames)
      (hspan : span ∈ spanNames) (hlength : (ofNat offset.natAbs).length ≤ maxDigits) :
      Tells "_add_holiday"
        (", " ++ writtenDistance year span backward (if backward then -offset else offset))
        (.easterBased offset)

/-! ## Characters of second arguments -/

theorem notMem_month {month : Text} {m : Nat} (h : NamesMonth month m) {c : Char}
    (hc : isDecimal c = false) (halpha : c.isAlpha = false) : c ∉ month := by
  intro hmem
  cases h with
  | name hletters hnamed =>
      rw [hletters c hmem] at halpha
      exact Bool.noConfusion halpha
  | number hlow hhigh hmonth => exact notMem_ofNat hc m (hmonth ▸ hmem)

/-- A text without quotes, comments and parentheses. -/
def IsBare (t : Text) : Prop :=
  ∀ mark ∈ "\"'#()".toList, mark ∉ t

instance (t : Text) : Decidable (IsBare t) :=
  List.decidableBAll (fun mark => mark ∉ t) "\"'#()".toList

theorem IsBare.not_of_mark {mark : Char} (hmark : mark ∈ "\"'#()".toList) :
    isDecimal mark = false ∧ mark ≠ '-' ∧ mark.isAlpha = false := by
  have hcases : mark = '"' ∨ mark = '\'' ∨ mark = '#' ∨ mark = '(' ∨ mark = ')' := by
    simpa using hmark
  rcases hcases with rfl | rfl | rfl | rfl | rfl <;> decide

namespace IsBare

variable {t : Text}

theorem opens (ht : IsBare t) : Opens 0 t := by
  constructor
  · intro c hc
    refine ⟨?_, ?_, ?_⟩ <;> rintro rfl <;> exact ht _ (by decide) hc
  · rw [List.count_eq_zero.mpr (ht '(' (by decide)), List.count_eq_zero.mpr (ht ')' (by decide))]
    rfl

theorem ofNat (n : Nat) : IsBare (Text.ofNat n) :=
  fun _ hmark => notMem_ofNat (not_of_mark hmark).1 n

theorem ofInt (n : Int) : IsBare (Text.ofInt n) :=
  fun _ hmark => notMem_ofInt (not_of_mark hmark).1 (not_of_mark hmark).2.1 n

theorem month {month : Text} {m : Nat} (h : NamesMonth month m) : IsBare month :=
  fun _ hmark => notMem_month h (not_of_mark hmark).1 (not_of_mark hmark).2.2

theorem year {year : Text} (hyear : year ∈ yearNames) : IsBare year := by
  have hall : ∀ year ∈ yearNames, IsBare year := by decide
  exact hall year hyear

theorem span {span : Text} (hspan : span ∈ spanNames) : IsBare span := by
  have hall : ∀ span ∈ spanNames, IsBare span := by decide
  exact hall span hspan

end IsBare

/-- A second argument has no quotes and no comment, and closes each parenthesis that it opens. -/
theorem Tells.opens {method second : Text} {calculation : Calculation}
    (htells : Tells method second calculation) : Opens 0 second := by
  have hcomma : Opens 0 ", ".toList := by decide
  have hclose : Opens (-1) ")".toList := by decide
  cases htells with
  | @date year month m day hyear hmonth hday =>
      have hdate : Opens 0 (writtenDate year month day) := by
        have hopen : Opens 1 "date(".toList := by decide
        exact (((((hopen.append (IsBare.year hyear).opens).append hcomma).append
          (IsBare.month hmonth).opens).append hcomma).append (IsBare.ofNat day).opens).append hclose
      exact hcomma.append hdate
  | dated | feast => exact ⟨by decide, rfl⟩
  | @distance offset hlength => exact hcomma.append (IsBare.ofInt offset).opens
  | @shift year span offset backward hyear hspan hlength =>
      have hdistance : ∀ days,
          Opens 0 (writtenDistance year span backward days) := by
        intro days
        have heaster : Opens 1 "easter(".toList := by decide
        have hbehind : Opens (-1) ") ".toList := by decide
        have hsign : Opens 0 [if backward then '-' else '+'] := by cases backward <;> decide
        have hspace : Opens 0 " ".toList := by decide
        have hdays : Opens 1 "(days=".toList := by decide
        exact (((((((heaster.append (IsBare.year hyear).opens).append hbehind).append hsign).append
          hspace).append (IsBare.span hspan).opens).append hdays).append
          (IsBare.ofInt days).opens).append hclose
      exact hcomma.append (hdistance _)

/-! ## Sites of the idioms -/

section

variable {name indent : Text} {literal : NameLiteral}

/-- The only call that the table of shapes finds on a line, and its shape. -/
def IsOnlyCall (indent method : Text) (shape : Shape) (read : Method) (arguments : Text) : Prop :=
  firstSite? Shape.all (indent ++ ("self." ++ (method ++ '(' :: arguments))) =
    some (shape, ⟨read, arguments⟩)

theorem isOnlyCall_generic (hindent : ∀ c ∈ indent, isBlank c = true) (arguments : Text) :
    IsOnlyCall indent "_add_holiday" .generic (.plain "_add_holiday") arguments :=
  firstSite?_written (show Shape.all = [] ++ .generic :: _ from rfl) (by simp) hindent
    (Shape.named?_self _ _ arguments)

variable (hindent : ∀ c ∈ indent, isBlank c = true) (hliteral : literal.Shows name)
  (hname : Nameable name)

include hindent hliteral hname

theorem isOnlyCall_distance {rest : Text} (hrest : '.' ∉ rest) :
    IsOnlyCall indent "_add_easter_based_holiday" .easterBased (.plain "_add_easter_based_holiday")
      (literal.before rest) := by
  refine firstSite?_written (show Shape.all = [.generic] ++ .easterBased :: _ from rfl) ?_ hindent
    (Shape.named?_self _ _ _)
  intro other hother
  obtain rfl := List.mem_singleton.mp hother
  exact ⟨rfl, hliteral.site? hname _ (by decide) hrest⟩

theorem isOnlyCall_dated {abbreviation : Text} {m day : Nat}
    (hmonth : (abbreviation, m) ∈ Month.abbreviations) (hday : day < 100) {rest : Text}
    (hrest : '.' ∉ rest) :
    IsOnlyCall indent ("_add_holiday_" ++ (lower abbreviation ++ '_' :: ofNat day)) .dateSuffixed
      (.dated ("_add_holiday_" ++ (lower abbreviation ++ '_' :: ofNat day)) (lower abbreviation)
        (ofNat day)) (literal.before rest) := by
  have hletters : ∀ entry ∈ Month.abbreviations, '.' ∉ lower entry.1 := by decide
  have hpoint : '.' ∉ "_add_holiday_" ++ (lower abbreviation ++ '_' :: ofNat day) := by
    simp [hletters _ hmonth, notMem_ofNat (show isDecimal '.' = false by decide)]
  refine firstSite?_written
    (show Shape.all = [.generic, .easterBased, .weekdayBased] ++ .dateSuffixed :: _ from rfl) ?_
    hindent ?_
  · intro other hother
    refine ⟨?_, hliteral.site? hname other hpoint hrest⟩
    simp only [List.mem_cons, List.not_mem_nil, or_false] at hother
    rcases hother with rfl | rfl | rfl <;> rfl
  · have hread := Shape.dated?_written hmonth hday (literal.before rest)
    rw [List.append_assoc, List.append_assoc]
    exact hread

theorem isOnlyCall_feast {method : Text} {date : DateExpression} (hfeast : (method, date) ∈ feasts)
    {rest : Text} (hrest : '.' ∉ rest) :
    IsOnlyCall indent method .namedHelper (.feast method date) (literal.before rest) := by
  have hmethods : ∀ opening ∈ ["tr(".toList, []], ∀ entry ∈ feasts, '.' ∉ entry.1 ∧
      (∀ other ∈ [Shape.generic, .easterBased, .weekdayBased, .dateSuffixed],
        other.method? (entry.1 ++ '(' :: opening) = none) ∧
      Shape.namedHelper.method? (entry.1 ++ '(' :: opening) =
        some ⟨.feast entry.1 entry.2, opening⟩ := by decide
  have hopening : literal.opening ∈ ["tr(".toList, []] := by
    unfold NameLiteral.opening
    split <;> simp
  obtain ⟨hpoint, hearlier, hread⟩ := hmethods _ hopening _ hfeast
  refine firstSite?_written (show Shape.all =
    [.generic, .easterBased, .weekdayBased, .dateSuffixed] ++ .namedHelper :: [] from rfl) ?_
    hindent ?_
  · intro other hother
    refine ⟨?_, hliteral.site? hname other hpoint hrest⟩
    rw [hliteral.method?, hearlier other hother]
    rfl
  · rw [hliteral.method?, hread]
    rfl

end

/-! ## What the idioms tell -/

/-- A distance from Easter Sunday up to the number of days. -/
def writtenSpan (year span : Text) (backward : Bool) : Text :=
  "easter(" ++ year ++ ") " ++ [if backward then '-' else '+'] ++ " " ++ span ++ "(days"

/-- No date of a month is found in a distance from Easter Sunday. -/
theorem findWord?_fixedDate_writtenDistance {year span : Text} (hyear : year ∈ yearNames)
    (hspan : span ∈ spanNames) (backward : Bool) (days : Int) :
    findWord? fixedDate? (writtenDistance year span backward days ++ ")") = none := by
  -- the equals sign is in no date, and behind it stands a number
  have hequals : IsForeign fixedMarks '=' := by constructor <;> decide
  have hbefore : ∀ year ∈ yearNames, ∀ span ∈ spanNames, ∀ backward,
      findWord? fixedDate? (writtenSpan year span backward) = none := by decide
  have hbehind : 'd' ∉ ofInt days ++ "))" := by
    have hdays := notMem_ofInt (show isDecimal 'd' = false by decide) (by decide) days
    simpa using hdays
  have hsplit : writtenDistance year span backward days ++ ")" =
      writtenSpan year span backward ++ '=' :: (ofInt days ++ "))") := by
    unfold writtenDistance writtenSpan
    simp only [List.append_assoc]
    rfl
  rw [hsplit, respects_fixedDate?.findWord?_append_cons rfl hequals,
    hbefore year hyear span hspan backward, Option.map_none, Option.none_or]
  refine findWord?_of_notMem (fun u hu => ?_) hbehind
  rw [fixedDate?, after?_of_notMem (show 'd' ∈ "date".toList by decide) hu]
  rfl

theorem readNat_ofNat_of_lt {day : Nat} (hday : day < 100) : readNat (ofNat day) = .ok day := by
  have hdays : ∀ day < 100, readNat (ofNat day) = .ok day := by decide
  exact hdays day hday

theorem contents_of_classify {arguments name rest : Text} {date : DateExpression}
    (hread : Arguments.name? arguments = some (name, rest)) (hdate : classify arguments = .ok date)
    (hknown : ∀ expression, date ≠ .calculated expression) (method : Text) :
    Call.contents .generic (.plain method) arguments = .ok (name, date) := by
  rw [Call.contents_classified hread (by simp) (by simp), hdate]
  cases date with
  | calculated expression => exact absurd rfl (hknown expression)
  | fixed | easterBased | weekdayBased => rfl

section

variable {name rest : Text} {literal : NameLiteral} (hliteral : literal.Shows name)

include hliteral

theorem contents_feastIdiom (hrest : IsCode rest) (method : Text) (date : DateExpression) :
    Call.contents .namedHelper (.feast method date) (literal.before rest) = .ok (name, date) := by
  rw [Call.contents_feast, Call.nameAndRest_of_name (hliteral.name? hrest)]
  rfl

theorem contents_datedIdiom (hrest : IsCode rest) {abbreviation : Text} {m day : Nat}
    (hmonth : (abbreviation, m) ∈ Month.abbreviations) (hday : day < 100) (method : Text) :
    Call.contents .dateSuffixed (.dated method (lower abbreviation) (ofNat day))
      (literal.before rest) = .ok (name, .fixed abbreviation day) := by
  have hmonths : ∀ entry ∈ Month.abbreviations, upper (lower entry.1) = entry.1 ∧
      (Month.abbreviated? entry.1).isNone = false := by decide
  obtain ⟨hupper, hnamed⟩ := hmonths _ hmonth
  unfold Call.contents
  dsimp only at hupper hnamed ⊢
  rw [hupper, hnamed, Call.nameAndRest_of_name (hliteral.name? hrest), readNat_ofNat_of_lt hday]
  rfl

theorem contents_distanceIdiom {offset : Int} (hlength : (ofNat offset.natAbs).length ≤ maxDigits)
    (method : Text) :
    Call.contents .easterBased (.plain method) (literal.before (", " ++ ofInt offset ++ ")")) =
      .ok (name, .easterBased offset) := by
  have hcode : IsCode (", " ++ ofInt offset ++ ")") :=
    ((show IsCode ", ".toList by decide).append (IsBare.ofInt offset).opens.1).append (by decide)
  have htail :
      Arguments.tail (literal.closing ++ (", " ++ ofInt offset ++ ")")) = ofInt offset := by
    rw [List.append_assoc]
    exact Arguments.tail_second (ofInt_ne_nil offset) (fun c hc => isBlank_of_mem_ofInt hc)
      (notMem_ofInt (by decide) (by decide) offset)
      (notMem_ofInt (by decide) (by decide) offset) literal
  have hoffset : (if decide (offset < 0) = true then -(offset.natAbs : Int) else offset.natAbs) =
      offset := by
    by_cases hnegative : offset < 0
    · rw [if_pos (decide_eq_true hnegative)]
      omega
    · rw [if_neg (by rwa [decide_eq_true_eq])]
      omega
  rw [Call.contents_easterBased (hliteral.name? hcode)]
  simp only [htail, Arguments.findNumber?_ofInt, readNat_ofNat hlength, numeric, Except.mapError,
    Except.map, hoffset]

variable (hname : Nameable name)

include hname

theorem findWord?_fixedDate (t : Text) :
    findWord? fixedDate? (literal.before (", " ++ t)) = findWord? fixedDate? t := by
  refine hliteral.findWord?_second stopsAtBoundaries_fixedDate? hname.noDate ?_ t
  unfold NameLiteral.opening
  split <;> rfl

theorem findWord?_easter (t : Text) :
    findWord? easter? (literal.before (", " ++ t)) = findWord? easter? t := by
  refine hliteral.findWord?_second stopsAtBoundaries_easter? hname.noDistance ?_ t
  unfold NameLiteral.opening
  split <;> rfl

theorem classify_date {year month : Text} {m day : Nat} (hyear : year ∈ yearNames)
    (hmonth : NamesMonth month m) (hday : day < 100) :
    classify (literal.before (", " ++ writtenDate year month day ++ ")")) =
      .ok (.fixed month day) := by
  have hfound : findWord? fixedDate? (literal.before (", " ++ writtenDate year month day ++ ")")) =
      some (month, ofNat day) := by
    rw [List.append_assoc, findWord?_fixedDate hliteral hname]
    exact findWord?_of_scan rfl (fixedDate?_writtenDate hyear hmonth hday ")")
  unfold classify
  rw [hfound]
  dsimp only
  rw [readNat_ofNat_of_lt hday]
  rfl

theorem classify_shift {year span : Text} {offset : Int} (backward : Bool)
    (hyear : year ∈ yearNames)
    (hspan : span ∈ spanNames) (hlength : (ofNat offset.natAbs).length ≤ maxDigits) :
    classify (literal.before (", " ++ writtenDistance year span backward
      (if backward then -offset else offset) ++ ")")) = .ok (.easterBased offset) := by
  generalize hdays : (if backward = true then -offset else offset) = days
  have hnatAbs : days.natAbs = offset.natAbs := by
    subst hdays
    split <;> simp
  have hfixed : findWord? fixedDate?
      (literal.before (", " ++ writtenDistance year span backward days ++ ")")) = none := by
    rw [List.append_assoc, findWord?_fixedDate hliteral hname]
    exact findWord?_fixedDate_writtenDistance hyear hspan backward days
  have heaster : findWord? easter?
      (literal.before (", " ++ writtenDistance year span backward days ++ ")")) =
        some (some ⟨backward != decide (days < 0), ofNat days.natAbs⟩) := by
    rw [List.append_assoc, findWord?_easter hliteral hname]
    exact findWord?_of_scan rfl (easter?_writtenDistance hyear hspan backward days ")")
  have hvalue : (if (backward != decide (days < 0)) = true then -(days.natAbs : Int)
      else days.natAbs) = offset := by
    subst hdays
    cases backward with
    | false =>
        by_cases hnegative : offset < 0 <;> simp only [hnegative, Bool.false_eq_true, if_false,
          decide_true, decide_false, bne_self_eq_false, Bool.false_bne, if_true] <;> omega
    | true =>
        by_cases hnegative : -offset < 0 <;>
          simp only [hnegative, if_true, decide_true, decide_false, bne_self_eq_false,
            Bool.true_bne, Bool.not_false, Bool.false_eq_true, if_false] <;> omega
  have hread : readNat (ofNat days.natAbs) = .ok days.natAbs := readNat_ofNat (by rwa [hnatAbs])
  rw [(classify_of_shift hfixed heaster).1]
  dsimp only
  rw [hread]
  simp only [Except.map, hvalue]

end

end Almanac.Registration
