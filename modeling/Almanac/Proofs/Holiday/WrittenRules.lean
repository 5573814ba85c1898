import Almanac.Proofs.Holiday.RuleParts
import Almanac.Proofs.Holiday.WrittenDates
import Almanac.Proofs.Text.Runs

/-!
# Written weekday rules

A text tells the rule of its first part in each of the three forms. So a rule comes back from every
text that writes it, with keywords or without and whatever the order of its parts.
-/

namespace Almanac.Holiday.WeekdayRule

open Almanac.Text

/-! ## One form a part -/

theorem monthOf?_of_isWeekdayPart {written : Text} {weekday : Nat}
    (h : IsWeekdayPart written weekday) : monthOf? written = none := by
  rw [Option.eq_none_iff_forall_ne_some]
  intro month hmonth
  have hnone := weekdayOf?_of_isMonthPart ((monthOf?_eq_some_iff _ _).mp hmonth)
  rw [(weekdayOf?_eq_some_iff _ _).mpr h] at hnone
  cases hnone

theorem integerOf?_of_isMonthPart {written : Text} {month : Nat} (h : IsMonthPart written month) :
    integerOf? written = none := by
  rw [integerOf?, if_neg]
  intro hinteger
  have hnone := (names_of_isInteger hinteger).1
  rw [← monthOf?, (monthOf?_eq_some_iff _ _).mpr h] at hnone
  cases hnone

theorem integerOf?_of_isWeekdayPart {written : Text} {weekday : Nat}
    (h : IsWeekdayPart written weekday) : integerOf? written = none := by
  rw [integerOf?, if_neg]
  intro hinteger
  have hnone := (names_of_isInteger hinteger).2
  rw [← weekdayOf?, (weekdayOf?_eq_some_iff _ _).mpr h] at hnone
  cases hnone

/-! ## Values in pieces -/

/-- The text can stand for a part as it is: it has characters, none of which is white space or a
mark between or within parts. -/
structure IsPlain (value : Text) : Prop where
  nonempty : value ≠ []
  notBlank : ∀ c ∈ value, isBlank c = false
  comma : ',' ∉ value
  equals : '=' ∉ value

/-- The piece shows the value, with white space around it or none, and with a keyword before it or
none. -/
inductive IsShown (value : Text) : Text → Prop
  | plain {front back : Text} (hfront : ∀ c ∈ front, isBlank c = true)
      (hback : ∀ c ∈ back, isBlank c = true) : IsShown value (front ++ value ++ back)
  | keyword {key front back : Text} (hcomma : ',' ∉ key) (hequals : '=' ∉ key)
      (hfront : ∀ c ∈ front, isBlank c = true) (hback : ∀ c ∈ back, isBlank c = true) :
      IsShown value (key ++ '=' :: (front ++ value ++ back))

theorem IsPlain.strip_between {value : Text} (h : IsPlain value) {front back : Text}
    (hfront : ∀ c ∈ front, isBlank c = true) (hback : ∀ c ∈ back, isBlank c = true) :
    strip (front ++ value ++ back) = value := by
  rw [strip_append_blank hback]
  exact strip_indented hfront h.nonempty
    (fun c hc => h.notBlank c (List.mem_of_mem_head? hc))
    (fun c hc => h.notBlank c (List.mem_of_mem_getLast? hc))

theorem strip_keyword {key rest : Text} (hrest : stripEnd rest ≠ []) :
    strip (key ++ '=' :: rest) = stripStart key ++ '=' :: stripEnd rest := by
  have hstart : stripStart (key ++ '=' :: rest) = stripStart key ++ '=' :: rest := by
    rw [stripStart, trimStart, List.dropWhile_append]
    split
    next hnil =>
      rw [stripStart, trimStart, List.isEmpty_iff.mp hnil,
        List.dropWhile_cons_of_neg (by decide), List.nil_append]
    next => rfl
  have hend : stripEnd ('=' :: rest) = '=' :: stripEnd rest :=
    stripEnd_append (t := ['=']) hrest
  change stripEnd (stripStart (key ++ '=' :: rest)) = _
  rw [hstart, stripEnd_append (by rw [hend]; exact List.cons_ne_nil _ _), hend]

/-- Of a piece the value that it shows is the part. -/
theorem IsShown.part_eq {value piece : Text} (h : IsShown value piece) (hplain : IsPlain value) :
    part piece = value := by
  have hother : ∀ t : Text, '=' ∉ t → ∀ c ∈ t, decide (c ≠ '=') = true := by
    rintro t ht c hc
    refine decide_eq_true ?_
    rintro rfl
    exact ht hc
  cases h with
  | plain hfront hback =>
      rw [part, hplain.strip_between hfront hback]
      rw [List.dropWhile_eq_nil_iff.mpr (hother value hplain.equals)]
  | @keyword key front back hcomma hkey hfront hback =>
      have hvalue : stripEnd value = value := trimEnd_eq_self hplain.notBlank
      have hend : stripEnd (front ++ value ++ back) = front ++ value := by
        rw [stripEnd_append_blank hback, stripEnd_append (hvalue.symm ▸ hplain.nonempty), hvalue]
      have hsome : stripEnd (front ++ value ++ back) ≠ [] := by
        rw [hend]
        exact List.append_ne_nil_of_right_ne_nil _ hplain.nonempty
      have hstart : '=' ∉ stripStart key := fun hmem =>
        hkey (List.dropWhile_subset _ hmem)
      have hinner := hplain.strip_between hfront (List.forall_mem_nil _)
      rw [List.append_nil] at hinner
      rw [part, strip_keyword hsome, hend, List.dropWhile_append_of_pos (hother _ hstart),
        List.dropWhile_cons_of_neg (by simp)]
      exact hinner

theorem IsShown.comma_notMem {value piece : Text} (h : IsShown value piece)
    (hplain : IsPlain value) : ',' ∉ piece := by
  have hblank : ∀ blanks : Text, (∀ c ∈ blanks, isBlank c = true) → ',' ∉ blanks :=
    fun blanks hblanks hmem => absurd (hblanks ',' hmem) (by decide)
  cases h with
  | plain hfront hback => simp [hblank _ hfront, hblank _ hback, hplain.comma]
  | keyword hcomma hequals hfront hback =>
      simp [hcomma, hblank _ hfront, hblank _ hback, hplain.comma]

/-! ## Written rules -/

/-- The text writes the rule: its pieces, in any order, show the name of the month, a name of the
weekday and the number of the occurrence. -/
inductive Writes : WeekdayRule → Text → Prop
  | pieces {month weekday : Nat} {occurrence : Int}
      {monthName weekdayName first second third : Text} {written : List Text}
      (hmonth : IsMonthPart monthName month)
      (hweekday : IsWeekdayPart weekdayName weekday) (hfirst : IsShown monthName first)
      (hsecond : IsShown weekdayName second) (hthird : IsShown (ofInt occurrence) third)
      (horder : written.Perm [first, second, third]) :
      Writes ⟨month, weekday, occurrence⟩ (join "," written)

/-- The rule is about a month of the year and a day of the week, and its occurrence is not zero and
has no more digits than are read. -/
structure IsProper (rule : WeekdayRule) : Prop where
  month : 1 ≤ rule.month ∧ rule.month ≤ 12
  weekday : 0 ≤ rule.weekday ∧ rule.weekday ≤ 6
  nonzero : rule.occurrence ≠ 0
  short : IsShort rule.occurrence

/-- A text whose capitals are made of letters is plain, since no mark has a capital. -/
theorem isPlain_of_upper {written : Text} (hsome : upper written ≠ [])
    (hletters : ∀ c ∈ upper written, isLetter c = true) : IsPlain written := by
  have hkept : ∀ c ∈ written, upperChar c = [c] → isLetter c = true := by
    intro c hc hupper
    exact hletters c (List.mem_flatMap.mpr ⟨c, hc, by rw [hupper]; exact List.mem_singleton_self c⟩)
  refine ⟨?_, fun c hc => ?_, fun hmem => ?_, fun hmem => ?_⟩
  · rintro rfl
    exact hsome rfl
  · cases hblank : isBlank c with
    | false => rfl
    | true =>
        have hword : isWord c = true := by simp [isWord, hkept c hc (upperChar_of_isBlank hblank)]
        rw [isWord_of_isBlank hblank] at hword
        exact Bool.noConfusion hword
  · exact absurd (hkept ',' hmem (by decide)) (by decide)
  · exact absurd (hkept '=' hmem (by decide)) (by decide)

theorem IsMonthPart.isPlain {written : Text} {month : Nat} (h : IsMonthPart written month) :
    IsPlain written := by
  have htable : ∀ entry ∈ Month.abbreviations,
      entry.1 ≠ [] ∧ entry.1.all isLetter = true := by decide
  exact isPlain_of_upper (htable _ h).1 (List.all_eq_true.mp (htable _ h).2)

theorem IsWeekdayPart.isPlain {written : Text} {weekday : Nat} (h : IsWeekdayPart written weekday) :
    IsPlain written := by
  have htable : ∀ entry ∈ weekdays, entry.1 ≠ [] := by decide
  refine isPlain_of_upper (fun hnil => htable _ h.abbreviation ?_) h.letters
  simp [hnil]

theorem isPlain_ofInt (n : Int) : IsPlain (ofInt n) :=
  ⟨ofInt_ne_nil n, fun _ hc => isBlank_of_mem_ofInt hc,
    notMem_ofInt (by decide) (by decide) n, notMem_ofInt (by decide) (by decide) n⟩

theorem digitsValue_ofNat {n : Nat} (hlength : (ofNat n).length ≤ maxDigits) :
    digitsValue (ofNat n) = n := by
  have hread := readNat_of_isReadableNat
    ⟨ofNat_ne_nil n, fun _ hc => isDecimal_of_mem_ofNat hc, hlength⟩
  rw [readNat_ofNat hlength] at hread
  exact (Except.ok.inj hread).symm

@[simp] theorem signed_natAbs (n : Int) :
    (if decide (n < 0) = true then -(n.natAbs : Int) else n.natAbs) = n := by
  simp only [decide_eq_true_eq]
  split <;> omega

theorem isIntegerPart_ofInt {n : Int} (h : IsShort n) : IsIntegerPart (ofInt n) n := by
  obtain ⟨sign, hsign, hwritten⟩ := exists_isSign_ofInt n
  have hpart := IsIntegerPart.signed hsign (List.forall_mem_nil _) (ofNat_ne_nil n.natAbs)
    fun _ hc => isDecimal_of_mem_ofNat hc
  rwa [List.nil_append, ← hwritten, digitsValue_ofNat h.length_ofNat, signed_natAbs] at hpart

theorem readInt_ofInt {n : Int} (h : IsShort n) : readInt (ofInt n) = .ok n := by
  obtain ⟨sign, hsign, hwritten⟩ := exists_isSign_ofInt n
  rw [hwritten, readInt_signed hsign
    ⟨ofNat_ne_nil _, fun _ hc => isDecimal_of_mem_ofNat hc, h.length_ofNat⟩,
    digitsValue_ofNat h.length_ofNat, signed_natAbs]

theorem integerOf?_ofInt {n : Int} (h : IsShort n) : integerOf? (ofInt n) = some (.ok n) := by
  have hspaces : substitute ' ' [] (ofInt n) = ofInt n := by
    rw [substitute_space]
    refine List.filter_eq_self.mpr fun c hc => decide_eq_true ?_
    rintro rfl
    exact absurd (isBlank_of_mem_ofInt hc) (by decide)
  rw [integerOf?, if_pos (isInteger_iff_exists.mpr ⟨n, isIntegerPart_ofInt h⟩), integer, hspaces,
    readInt_ofInt h]

/-! ## From text to rule -/

theorem parts_join {first : Text} {more values : List Text}
    (hcomma : ∀ piece ∈ first :: more, ',' ∉ piece)
    (hparts : (first :: more).map part = values) :
    parts (join "," (first :: more)) = values := by
  obtain ⟨hfirst, hmore⟩ := List.forall_mem_cons.mp hcomma
  rw [parts, ← hparts]
  exact congrArg (List.map part) (pieces_join hfirst hmore)

section Written

variable {monthName weekdayName : Text} {month weekday : Nat} {occurrence : Int}

theorem hasOneOfEach (hmonth : IsMonthPart monthName month)
    (hweekday : IsWeekdayPart weekdayName weekday) (hshort : IsShort occurrence) :
    HasOneOfEach [monthName, weekdayName, ofInt occurrence] := by
  have hnumber := isIntegerPart_ofInt hshort
  obtain ⟨hnumberMonth, hnumberWeekday⟩ :=
    names_of_isInteger (isInteger_iff_exists.mpr ⟨occurrence, hnumber⟩)
  refine ⟨⟨[], _, [_, _], rfl, ⟨month, hmonth⟩, ?_⟩, ⟨[_], _, [_], rfl, ⟨weekday, hweekday⟩, ?_⟩,
    ⟨[_, _], _, [], rfl, ⟨occurrence, hnumber⟩, ?_⟩⟩
  · rw [List.nil_append, List.forall_mem_cons, List.forall_mem_singleton]
    exact ⟨(eq_none_iff_forall monthOf?_eq_some_iff _).mp (monthOf?_of_isWeekdayPart hweekday),
      (eq_none_iff_forall monthOf?_eq_some_iff _).mp hnumberMonth⟩
  · rw [List.singleton_append, List.forall_mem_cons, List.forall_mem_singleton]
    exact ⟨(eq_none_iff_forall weekdayOf?_eq_some_iff _).mp (weekdayOf?_of_isMonthPart hmonth),
      (eq_none_iff_forall weekdayOf?_eq_some_iff _).mp hnumberWeekday⟩
  · rw [List.append_nil, List.forall_mem_cons, List.forall_mem_singleton]
    exact ⟨(integerOf?_eq_none_iff _).mp (integerOf?_of_isMonthPart hmonth),
      (integerOf?_eq_none_iff _).mp (integerOf?_of_isWeekdayPart hweekday)⟩

theorem ofText_of_parts {text : Text} (hmonth : IsMonthPart monthName month)
    (hweekday : IsWeekdayPart weekdayName weekday) (hshort : IsShort occurrence)
    (hnonzero : occurrence ≠ 0)
    (hparts : parts text = [monthName, weekdayName, ofInt occurrence]) :
    ofText text = .ok (some ⟨month, weekday, occurrence⟩) := by
  have hcounted : counted none [monthName, weekdayName, ofInt occurrence] =
      .ok (some occurrence) := by
    simp [counted, integerOf?_of_isMonthPart hmonth, integerOf?_of_isWeekdayPart hweekday,
      integerOf?_ofInt hshort]
  rw [ofText_eq, hparts, hcounted]
  simp [Except.map, Found.rule?, (monthOf?_eq_some_iff _ _).mpr hmonth,
    weekdayOf?_of_isMonthPart hmonth, (weekdayOf?_eq_some_iff _ _).mpr hweekday, hnonzero]

end Written

/-- A rule comes back from every text that writes it. -/
theorem Writes.ofText_eq {rule : WeekdayRule} {text : Text} (h : Writes rule text)
    (hproper : IsProper rule) : ofText text = .ok (some rule) := by
  obtain @⟨month, weekday, occurrence, monthName, weekdayName, first, second, third, written,
    hmonth, hweekday, hfirst, hsecond, hthird, horder⟩ := h
  have hcomma : ∀ piece ∈ [first, second, third], ',' ∉ piece := by
    rw [List.forall_mem_cons, List.forall_mem_cons, List.forall_mem_singleton]
    exact ⟨hfirst.comma_notMem hmonth.isPlain, hsecond.comma_notMem hweekday.isPlain,
      hthird.comma_notMem (isPlain_ofInt occurrence)⟩
  have hmap : [first, second, third].map part = [monthName, weekdayName, ofInt occurrence] := by
    simp [hfirst.part_eq hmonth.isPlain, hsecond.part_eq hweekday.isPlain,
      hthird.part_eq (isPlain_ofInt occurrence)]
  obtain ⟨head, tail, rfl⟩ : ∃ head tail, written = head :: tail :=
    List.exists_cons_of_ne_nil fun hnil => by simpa [hnil] using horder.length_eq
  have hinOrder := parts_join hcomma hmap
  have hanyOrder := parts_join (fun piece hpiece => hcomma piece (horder.mem_iff.mp hpiece)) rfl
  have hperm :
      (parts (join "," [first, second, third])).Perm (parts (join "," (head :: tail))) := by
    rw [hinOrder, hanyOrder, ← hmap]
    exact (horder.map part).symm
  have heach := hasOneOfEach hmonth hweekday hproper.short
  rw [← ofText_perm hperm (hinOrder ▸ heach)]
  exact ofText_of_parts hmonth hweekday hproper.short hproper.nonzero hinOrder

theorem exists_writes {rule : WeekdayRule} (h : IsProper rule) : ∃ text, Writes rule text := by
  have hmonths : ∀ month ≤ 12, 1 ≤ month →
      ∃ entry ∈ Month.abbreviations, entry.2 = month ∧ upper entry.1 = entry.1 := by
    decide
  have hweekdays : ∀ weekday ≤ 6, ∃ entry ∈ weekdays, entry.2 = weekday ∧
      upper entry.1 = entry.1 ∧ entry.1.take 3 = entry.1 ∧ entry.1.all isLetter = true := by
    decide
  obtain ⟨month, weekday, occurrence⟩ := rule
  obtain ⟨hlow, hhigh⟩ : 1 ≤ month ∧ month ≤ 12 := h.month
  obtain ⟨hfirst, hlast⟩ : 0 ≤ weekday ∧ weekday ≤ 6 := h.weekday
  lift month to Nat using by omega
  lift weekday to Nat using hfirst
  obtain ⟨⟨monthName, _⟩, hmonth, rfl, hmonthUpper⟩ := hmonths month (by omega) (by omega)
  obtain ⟨⟨weekdayName, _⟩, hweekday, rfl, hweekdayUpper, htake, hletters⟩ :=
    hweekdays weekday (by omega)
  have hshown : ∀ value, IsShown value value := fun value => by
    simpa using IsShown.plain (List.forall_mem_nil _) (List.forall_mem_nil _)
  exact ⟨_, .pieces (by rwa [IsMonthPart, hmonthUpper])
    ⟨by rwa [hweekdayUpper, ← List.all_eq_true], by rwa [hweekdayUpper, htake]⟩ (hshown monthName)
    (hshown weekdayName) (hshown _) (.refl _)⟩

/-- A rule is read unless its first part in the form of an integer is refused. What is read is the
rule of the first part in each form, and there is none just if a form is missing or the first
integer is zero. With one part in each form the order of the parts does not matter, and a proper
rule comes back from every text that writes it. -/
theorem ofText_tells_first_parts (text : Text) :
    ((∃ parsed, ofText text = .ok parsed) ↔
      ∀ written, occurrencePart? text = some written → IsReadableInteger written) ∧
    (∀ parsed, ofText text = .ok parsed →
      (∀ rule, parsed = some rule ↔ IsTold (parts text) rule) ∧
      (parsed = none ↔
        (∀ written ∈ parts text, ∀ month, ¬ IsMonthPart written month) ∨
        (∀ written ∈ parts text, ∀ weekday, ¬ IsWeekdayPart written weekday) ∨
        (∀ written ∈ parts text, ∀ n, ¬ IsIntegerPart written n) ∨
        IsFirst IsIntegerPart (parts text) 0)) ∧
    (HasOneOfEach (parts text) →
      ∀ other, (parts text).Perm (parts other) → ofText text = ofText other) ∧
    ∀ rule : WeekdayRule, IsProper rule →
      (∃ written, Writes rule written) ∧
      ∀ written, Writes rule written → ofText written = .ok (some rule) := by
  refine ⟨ofText_ok_iff text, fun parsed h => ⟨fun rule => eq_some_iff_isTold h, eq_none_iff h⟩,
    fun heach other hperm => ofText_perm hperm heach, fun rule hproper => ?_⟩
  exact ⟨exists_writes hproper, fun written hwrites => hwrites.ofText_eq hproper⟩

example : ofText "number = -1, month=may, Monday" = .ok (some ⟨5, 0, -1⟩) := by decide

/-- The part as it is written, and not in capitals, is made of letters, of which the first three
abbreviate the weekday in some case. -/
def SpellsWeekday (written : Text) (weekday : Nat) : Prop :=
  (∀ c ∈ written, isLetter c = true) ∧ (upper (written.take 3), weekday) ∈ weekdays

/-- The letter `ΐ` becomes a letter with two marks in capitals, and marks are no letters. So a part
of letters with it names no weekday. -/
theorem ofText_marked_capital :
    IsFirst IsMonthPart (parts "MAY, MONΐ, 1") 5 ∧
    IsFirst SpellsWeekday (parts "MAY, MONΐ, 1") 0 ∧
    IsFirst IsIntegerPart (parts "MAY, MONΐ, 1") 1 ∧
    ofText "MAY, MONΐ, 1" = .ok none := by
  have hparts : parts "MAY, MONΐ, 1" = ["MAY".toList, "MONΐ".toList, "1".toList] := by
    decide
  have hmay : ∀ entry ∈ weekdays, entry.1 ≠ upper ("MAY".toList.take 3) := by decide
  rw [hparts]
  refine ⟨⟨[], _, _, rfl, by unfold IsMonthPart; decide, by simp⟩,
    ⟨["MAY".toList], _, _, rfl,
      ⟨List.all_eq_true.mp (by decide), by decide⟩, ?_⟩,
    ⟨["MAY".toList, "MONΐ".toList], _, [], rfl, .signed .none (List.forall_mem_nil _) (by decide)
      (List.forall_mem_singleton.mpr (by decide)), ?_⟩,
    by decide⟩
  · rw [List.forall_mem_singleton]
    exact fun weekday hspells => hmay _ hspells.2 rfl
  · rw [List.forall_mem_cons, List.forall_mem_singleton]
    exact ⟨(integerOf?_eq_none_iff _).mp (by decide),
      (integerOf?_eq_none_iff _).mp (by decide)⟩

end Almanac.Holiday.WeekdayRule
