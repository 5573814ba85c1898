import Almanac.Proofs.Holiday.ReadableDates
import Almanac.Proofs.Registration.CallLines
import Almanac.Proofs.Text.Occurrences

/-!
# Numbers in registration calls

Of the numbers in a registration call only the distance from Easter Sunday can have too many
digits: days have two at most, and months are kept as they are written. So the calls of a file are
read unless one of them has such a distance, and every other call that cannot be made sense of is
noted without keeping the others from being read.
-/

namespace Almanac.Text

/-- One or two decimal digits. -/
structure IsShortNumber (digits : Text) : Prop where
  nonempty : digits ≠ []
  length : digits.length ≤ 2
  decimal : ∀ c ∈ digits, isDecimal c = true

theorem IsShortNumber.isReadableNat {digits : Text} (h : IsShortNumber digits) :
    IsReadableNat digits :=
  ⟨h.nonempty, h.decimal, h.length.trans (by decide)⟩

theorem oneOrTwoDigits?_spec {t digits rest : Text}
    (h : oneOrTwoDigits? t = some (digits, rest)) : t = digits ++ rest ∧ IsShortNumber digits := by
  unfold oneOrTwoDigits? at h
  split at h
  next => cases h
  next c more =>
    split at h
    next hc =>
      split at h
      next =>
        obtain ⟨rfl, rfl⟩ := Prod.mk.inj (Option.some.inj h)
        exact ⟨rfl, by simp, by simp, by simp [hc]⟩
      next d others =>
        split at h
        next hd =>
          obtain ⟨rfl, rfl⟩ := Prod.mk.inj (Option.some.inj h)
          exact ⟨rfl, by simp, by simp, by simp [hc, hd]⟩
        next =>
          obtain ⟨rfl, rfl⟩ := Prod.mk.inj (Option.some.inj h)
          exact ⟨rfl, by simp, by simp, by simp [hc]⟩
    next => cases h

end Almanac.Text

namespace Almanac.Holiday.DateExpression

open Almanac.Text

/-! ## Dates in arguments -/

theorem month?_spec {t month rest : Text} (h : month? t = some (month, rest)) :
    t = month ++ rest ∧ Month.IsToken month := by
  unfold month? at h
  split at h
  next found halpha =>
    obtain rfl := Option.some.inj h
    obtain ⟨hsplit, hsome, hletters⟩ := some?_spec halpha
    exact ⟨hsplit, hsome, .inl hletters⟩
  next =>
    obtain ⟨hsplit, hsome, hdecimal⟩ := some?_spec h
    exact ⟨hsplit, hsome, .inr hdecimal⟩

theorem fixedDate?_spec {t month day : Text} (h : fixedDate? t = some (month, day)) :
    Month.IsToken month ∧ IsReadableNat day := by
  simp only [fixedDate?, Option.bind_eq_bind, Option.bind_eq_some_iff] at h
  obtain ⟨_, -, _, -, _, -, _, -, ⟨month, _⟩, hmonth, _, -, ⟨day, _⟩, hday, _, -, h⟩ := h
  obtain ⟨rfl, rfl⟩ := Prod.mk.inj (Option.some.inj h)
  exact ⟨(month?_spec hmonth).2, (oneOrTwoDigits?_spec hday).2.isReadableNat⟩

theorem shift?_spec {t : Text} {shift : Shift} (h : shift? t = some shift) :
    shift.digits ≠ [] ∧ ∀ c ∈ shift.digits, isDecimal c = true := by
  simp only [shift?, Option.bind_eq_bind, Option.bind_eq_some_iff] at h
  obtain ⟨_, -, _, -, _, -, _, -, ⟨digits, _⟩, hdigits, _, -, h⟩ := h
  obtain rfl := Option.some.inj h
  exact (some?_spec hdigits).2

theorem easter?_spec {t : Text} {shift : Shift} (h : easter? t = some (some shift)) :
    shift.digits ≠ [] ∧ ∀ c ∈ shift.digits, isDecimal c = true := by
  simp only [easter?, Option.bind_eq_bind, Option.bind_eq_some_iff] at h
  obtain ⟨_, -, _, -, _, -, _, -, h⟩ := h
  exact shift?_spec (Option.some.inj h)

/-- The digits of the shift from Easter Sunday that arguments tell, if they tell one and no date of
a month. -/
def shiftDigits? (arguments : Text) : Option Text :=
  match findWord? fixedDate? arguments with
  | some _ => none
  | none => ((findWord? easter? arguments).join).map Shift.digits

theorem classify_of_fixedDate {arguments month day : Text}
    (hfound : findWord? fixedDate? arguments = some (month, day)) :
    ∃ date, classify arguments = .ok date ∧ date.IsTold := by
  obtain ⟨-, u, -, -, hu⟩ := split_of_search_eq_some hfound
  obtain ⟨hmonth, hday⟩ := fixedDate?_spec hu
  obtain ⟨n, hn⟩ := (readNat_ok_iff day).mpr hday
  refine ⟨fixed month n, ?_, hmonth, isShort_of_readNat hn⟩
  unfold classify
  rw [hfound]
  dsimp only
  rw [hn]
  rfl

theorem classify_of_shift {arguments : Text} {shift : Shift}
    (hfixed : findWord? fixedDate? arguments = none)
    (hfound : findWord? easter? arguments = some (some shift)) :
    classify arguments = (readNat shift.digits).map (fun n : Nat =>
      easterBased (if shift.backward then -(n : Int) else n)) ∧
    ((∃ n, readNat shift.digits = .ok n) ↔ shift.digits.length ≤ maxDigits) := by
  obtain ⟨-, u, -, -, hu⟩ := split_of_search_eq_some hfound
  obtain ⟨hsome, hdecimal⟩ := easter?_spec hu
  refine ⟨?_, (readNat_ok_iff shift.digits).trans
    ⟨fun h => h.2.2, fun h => ⟨hsome, hdecimal, h⟩⟩⟩
  unfold classify
  rw [hfixed, hfound]
  dsimp only
  cases readNat shift.digits <;> rfl

theorem classify_of_noShift {arguments : Text}
    (hfixed : findWord? fixedDate? arguments = none)
    (hshift : (findWord? easter? arguments).join = none) :
    ∃ date, classify arguments = .ok date ∧ date.IsTold := by
  unfold classify
  rw [hfixed]
  cases heaster : findWord? easter? arguments with
  | none => exact ⟨_, rfl, trivial, trivial⟩
  | some found =>
      cases found with
      | none => exact ⟨_, rfl, trivial, isShort_of_lt (by decide)⟩
      | some shift => simp [heaster] at hshift

/-- Arguments are classified unless they tell a shift with too many digits. -/
theorem classify_ok_iff (arguments : Text) : (∃ date, classify arguments = .ok date) ↔
    ∀ digits, shiftDigits? arguments = some digits → digits.length ≤ maxDigits := by
  unfold shiftDigits?
  cases hfixed : findWord? fixedDate? arguments with
  | some found =>
      obtain ⟨n, hclassify, -⟩ := classify_of_fixedDate hfixed
      exact iff_of_true ⟨_, hclassify⟩ (by simp)
  | none =>
      cases hshift : (findWord? easter? arguments).join with
      | none =>
          obtain ⟨date, hclassify, -⟩ := classify_of_noShift hfixed hshift
          exact iff_of_true ⟨date, hclassify⟩ (by simp)
      | some shift =>
          obtain ⟨hclassify, hread⟩ := classify_of_shift hfixed (Option.join_eq_some_iff.mp hshift)
          rw [hclassify, map_ok_iff, hread]
          simp

theorem isTold_of_classify {arguments : Text} {date : DateExpression}
    (h : classify arguments = .ok date) : date.IsTold := by
  cases hfixed : findWord? fixedDate? arguments with
  | some found =>
      obtain ⟨found, hclassify, htold⟩ := classify_of_fixedDate hfixed
      obtain rfl := Except.ok.inj (h.symm.trans hclassify)
      exact htold
  | none =>
      cases hshift : (findWord? easter? arguments).join with
      | none =>
          obtain ⟨found, hclassify, htold⟩ := classify_of_noShift hfixed hshift
          obtain rfl := Except.ok.inj (h.symm.trans hclassify)
          exact htold
      | some shift =>
          rw [(classify_of_shift hfixed (Option.join_eq_some_iff.mp hshift)).1] at h
          cases hread : readNat shift.digits with
          | error fault => rw [hread] at h; cases h
          | ok n =>
              rw [hread] at h
              obtain rfl := Except.ok.inj h
              exact ⟨trivial, isShort_signed (isShort_of_readNat hread) shift.backward⟩

end Almanac.Holiday.DateExpression

namespace Almanac.Registration

open Almanac.Text Almanac.Holiday

/-! ## Methods -/

/-- The day in the name of a method is a number, and the date of a feast is one. -/
def Method.IsRecognised : Method → Prop
  | .plain _ => True
  | .dated _ _ day => IsReadableNat day
  | .feast _ date => date.IsTold

theorem feasts_isTold : ∀ entry ∈ feasts, entry.2.IsTold := by
  have hmonths : ∀ entry ∈ feasts, entry.2.HasMonthToken := by
    simp [feasts, DateExpression.HasMonthToken, Month.IsToken]
  have hnumbers : ∀ entry ∈ feasts, entry.2.HasShortNumbers := by
    simp (disch := decide) [feasts, DateExpression.HasShortNumbers, isShort_of_lt]
  exact fun entry hmem => ⟨hmonths entry hmem, hnumbers entry hmem⟩

namespace Shape

theorem method_of_named? {name t : Text} {method : Method} {site : Site}
    (h : named? name method t = some site) : site.method = method := by
  simp only [named?, Option.bind_eq_bind, Option.bind_eq_some_iff] at h
  obtain ⟨_, -, _, -, h⟩ := h
  obtain rfl := Option.some.inj h
  rfl

theorem isRecognised_of_dated? {t : Text} {site : Site} (h : dated? t = some site) :
    site.method.IsRecognised := by
  simp only [dated?, Option.bind_eq_bind, Option.bind_eq_some_iff] at h
  obtain ⟨_, -, h⟩ := h
  split at h
  next =>
    split at h
    next =>
      simp only [Option.bind_eq_some_iff] at h
      obtain ⟨⟨day, _⟩, hday, _, -, h⟩ := h
      obtain rfl := Option.some.inj h
      exact (oneOrTwoDigits?_spec hday).2.isReadableNat
    next => cases h
  next => cases h

theorem isRecognised_of_method? {shape : Shape} {t : Text} {site : Site}
    (h : shape.method? t = some site) : site.method.IsRecognised := by
  cases shape with
  | generic => rw [method_of_named? h]; trivial
  | easterBased => rw [method_of_named? h]; trivial
  | weekdayBased => rw [method_of_named? h]; trivial
  | dateSuffixed => exact isRecognised_of_dated? h
  | namedHelper =>
      obtain ⟨entry, hentry, hsite⟩ := List.exists_of_findSome?_eq_some h
      rw [method_of_named? hsite]
      exact feasts_isTold entry hentry

theorem isRecognised_of_site? {shape : Shape} {line : Text} {site : Site}
    (h : shape.site? line = some site) : site.method.IsRecognised := by
  obtain ⟨-, u, -, -, hu⟩ := split_of_search_eq_some h
  obtain ⟨t, -, ht⟩ := Option.bind_eq_some_iff.mp hu
  exact isRecognised_of_method? ht

end Shape

theorem isRecognised_of_firstSite? {shapes : List Shape} {line : Text} {shape : Shape} {site : Site}
    (h : firstSite? shapes line = some (shape, site)) : site.method.IsRecognised := by
  obtain ⟨found, -, hfound⟩ := List.exists_of_findSome?_eq_some h
  obtain ⟨there, hsite, heq⟩ := Option.map_eq_some_iff.mp hfound
  obtain ⟨rfl, rfl⟩ := Prod.mk.inj heq
  exact Shape.isRecognised_of_site? hsite

/-! ## Calls -/

namespace Call

/-- The digits of the distance from Easter Sunday that a call tells, if it tells one. -/
def distanceDigits? (shape : Shape) (method : Method) (arguments : Text) : Option Text :=
  match method, Arguments.name? arguments with
  | .plain _, some (_, rest) =>
      match shape with
      | .easterBased => (Arguments.findNumber? (Arguments.tail rest)).map Prod.snd
      | .weekdayBased => none
      | _ => DateExpression.shiftDigits? arguments
  | _, _ => none

theorem findNumber?_spec {t digits : Text} {negative : Bool}
    (h : Arguments.findNumber? t = some (negative, digits)) :
    (∃ n, readNat digits = .ok n) ↔ digits.length ≤ maxDigits := by
  obtain ⟨-, u, -, -, hu⟩ := split_of_search_eq_some h
  simp only [Arguments.signedNumber?, Option.bind_eq_bind, Option.bind_eq_some_iff] at hu
  obtain ⟨⟨found, _⟩, hfound, hu⟩ := hu
  obtain ⟨-, hsome, hdecimal⟩ := some?_spec hfound
  obtain rfl : found = digits := by
    split at hu
    next => exact (Prod.mk.inj (Option.some.inj hu)).2
    next => cases hu
  exact (readNat_ok_iff found).trans ⟨fun h => h.2.2, fun h => ⟨hsome, hdecimal, h⟩⟩

/-- The outcome of reading a call is no fault of a number. -/
def NumbersRead {α : Type} (outcome : Except ReadFault α) : Prop :=
  ∀ fault, outcome ≠ .error (.number fault)

theorem numbersRead_ok {α : Type} (value : α) : NumbersRead (.ok value) := by
  intro fault h
  cases h

theorem numbersRead_call {α : Type} (noted : CallFault) :
    NumbersRead (.error (.call noted) : Except ReadFault α) := by
  intro fault h
  cases h

@[simp] theorem numbersRead_map_numeric {α β : Type} (value : Except NumberFault α) (f : α → β) :
    NumbersRead ((numeric value).map f) ↔ ∃ a, value = .ok a := by
  cases value with
  | error fault => exact iff_of_false (fun h => h fault rfl) (by simp)
  | ok a => exact iff_of_true (numbersRead_ok (f a)) ⟨a, rfl⟩

theorem exists_of_map_numeric {α β : Type} {value : Except NumberFault α} {f : α → β} {b : β}
    (h : (numeric value).map f = .ok b) : ∃ a, value = .ok a ∧ f a = b := by
  obtain ⟨a, hvalue, hb⟩ := exists_of_map_eq_ok h
  exact ⟨a, mapError_eq_ok.mp hvalue, hb⟩

theorem numbersRead_map_nameAndRest {α : Type} (arguments : Text) (f : Text × Text → α) :
    NumbersRead ((nameAndRest arguments).map f) := by
  unfold nameAndRest
  cases Arguments.name? arguments with
  | none => exact numbersRead_call .noName
  | some found => exact numbersRead_ok (f found)

/-- A method with a month and a day in its name tells them, if the month is one. -/
theorem contents_dated (shape : Shape) (full month : Text) {day : Text} (hday : IsReadableNat day)
    (arguments : Text) :
    (∃ fault, contents shape (.dated full month day) arguments = .error (.call fault)) ∨
    ∃ name n, contents shape (.dated full month day) arguments =
      .ok (name, .fixed (upper month) n) ∧ (DateExpression.fixed (upper month) n).IsTold := by
  obtain ⟨n, hn⟩ := (readNat_ok_iff day).mpr hday
  unfold contents nameAndRest
  cases hmonth : Month.abbreviated? (upper month) with
  | none =>
      exact .inl ⟨.noMonth full, by simp [hmonth, bind, Except.bind, throw, throwThe,
        MonadExceptOf.throw]⟩
  | some number =>
      cases hname : Arguments.name? arguments with
      | none => exact .inl ⟨.noName, by simp [hmonth, bind, Except.bind]⟩
      | some found =>
          refine .inr ⟨found.1, n, ?_, Month.isToken_of_abbreviated? (by rw [hmonth]; rfl),
            isShort_of_readNat hn⟩
          simp [hmonth, hn, numeric, bind, Except.bind, pure, Except.pure, Except.mapError]

/-- The numbers of a plain call are read unless its distance has too many digits. -/
theorem contents_plain_numbersRead_iff (shape : Shape) (full arguments : Text) :
    NumbersRead (contents shape (.plain full) arguments) ↔
      ∀ digits, distanceDigits? shape (.plain full) arguments = some digits →
        digits.length ≤ maxDigits := by
  unfold distanceDigits?
  cases hname : Arguments.name? arguments with
  | none =>
      rw [contents_of_noName shape full hname]
      exact iff_of_true (numbersRead_call .noName) (by simp)
  | some found =>
      cases shape with
      | weekdayBased =>
          rw [contents_weekdayBased hname]
          exact iff_of_true (numbersRead_ok _) (by simp)
      | easterBased =>
          rw [contents_easterBased hname]
          cases hnumber : Arguments.findNumber? (Arguments.tail found.2) with
          | none => exact iff_of_true (numbersRead_ok _) (by simp [hnumber])
          | some signed =>
              dsimp only
              rw [numbersRead_map_numeric, findNumber?_spec hnumber]
              simp [hnumber]
      | generic | dateSuffixed | namedHelper =>
          rw [contents_classified hname (by simp) (by simp), numbersRead_map_numeric]
          exact DateExpression.classify_ok_iff arguments

/-- A call with a method of the shapes is read, or noted as one that makes no sense, unless its
distance from Easter Sunday has too many digits. -/
theorem contents_numbersRead_iff (shape : Shape) {method : Method} (hmethod : method.IsRecognised)
    (arguments : Text) : NumbersRead (contents shape method arguments) ↔
      ∀ digits, distanceDigits? shape method arguments = some digits →
        digits.length ≤ maxDigits := by
  cases method with
  | dated full month day =>
      refine iff_of_true ?_ (by simp [distanceDigits?])
      rcases contents_dated shape full month hmethod arguments with
        ⟨fault, h⟩ | ⟨name, n, h, -⟩
      · exact h ▸ numbersRead_call fault
      · exact h ▸ numbersRead_ok _
  | feast full date =>
      refine iff_of_true ?_ (by simp [distanceDigits?])
      rw [contents_feast]
      exact numbersRead_map_nameAndRest arguments _
  | plain full => exact contents_plain_numbersRead_iff shape full arguments

theorem isTold_orTail {date : DateExpression} (h : date.IsTold) (rest : Text) :
    (orTail rest date).IsTold := by
  cases date with
  | calculated expression => exact ⟨trivial, trivial⟩
  | fixed | easterBased | weekdayBased => exact h

theorem isTold_of_contents_plain {shape : Shape} {full arguments name : Text}
    {date : DateExpression} (h : contents shape (.plain full) arguments = .ok (name, date)) :
    date.IsTold := by
  cases hname : Arguments.name? arguments with
  | none => cases (contents_of_noName shape full hname).symm.trans h
  | some found =>
      cases shape with
      | weekdayBased =>
          rw [contents_weekdayBased hname] at h
          obtain ⟨-, rfl⟩ := Prod.mk.inj (Except.ok.inj h)
          exact ⟨trivial, trivial⟩
      | easterBased =>
          rw [contents_easterBased hname] at h
          split at h
          next =>
            obtain ⟨-, rfl⟩ := Prod.mk.inj (Except.ok.inj h)
            exact ⟨trivial, isShort_of_lt (by decide)⟩
          next negative digits _ =>
            obtain ⟨n, hread, hn⟩ := exists_of_map_numeric h
            obtain ⟨-, rfl⟩ := Prod.mk.inj hn
            exact ⟨trivial, isShort_signed (isShort_of_readNat hread) negative⟩
      | generic | dateSuffixed | namedHelper =>
          rw [contents_classified hname (by simp) (by simp)] at h
          obtain ⟨told, hclassify, hdate⟩ := exists_of_map_numeric h
          obtain ⟨-, rfl⟩ := Prod.mk.inj hdate
          exact isTold_orTail (DateExpression.isTold_of_classify hclassify) found.2

/-- The month of a date that a call tells is a name or a number, and the numbers are short. -/
theorem isTold_of_contents {shape : Shape} {method : Method} {arguments name : Text}
    {date : DateExpression} (hmethod : method.IsRecognised)
    (h : contents shape method arguments = .ok (name, date)) : date.IsTold := by
  cases method with
  | dated full month day =>
      rcases contents_dated shape full month hmethod arguments with
        ⟨fault, hcontents⟩ | ⟨told, n, hcontents, htold⟩
      · cases hcontents.symm.trans h
      · obtain ⟨-, rfl⟩ := Prod.mk.inj (Except.ok.inj (hcontents.symm.trans h))
        exact htold
  | feast full feastDate =>
      rw [contents_feast] at h
      obtain ⟨found, -, hfound⟩ := exists_of_map_eq_ok h
      obtain ⟨-, rfl⟩ := Prod.mk.inj hfound
      exact hmethod
  | plain full => exact isTold_of_contents_plain h

theorem ofSite_numbersRead_iff {shape : Shape} {site : Site} (hsite : site.method.IsRecognised)
    (arguments line : Text) (number : Nat) :
    NumbersRead (ofSite shape site arguments line number) ↔
      ∀ digits, distanceDigits? shape site.method arguments = some digits →
        digits.length ≤ maxDigits := by
  rw [← contents_numbersRead_iff shape hsite]
  unfold ofSite NumbersRead
  cases contents shape site.method arguments <;> simp [bind, Except.bind, pure, Except.pure]

end Call

/-! ## Files -/

namespace Calls

/-- The digits of the distance from Easter Sunday that the call on a line tells, if the line has a
call and that tells one. -/
def distanceAt? (options : Options) (line : Text) (following : List Text) : Option Text :=
  if Arguments.isComment (stripStart line) then none
  else (firstSite? options.shapes line).bind fun (shape, site) =>
    Call.distanceDigits? shape site.method
      (if options.joined then Arguments.complete options.shapes site.arguments following
      else site.arguments)

/-- No call on the lines tells a distance from Easter Sunday that has too many digits. -/
def HasReadableDistances (options : Options) (lines : List Text) : Prop :=
  ∀ before line following, lines = before ++ line :: following →
    ∀ digits, distanceAt? options line following = some digits → digits.length ≤ maxDigits

theorem atLine_numbersRead_iff (options : Options) (number : Nat) (line : Text)
    (following : List Text) :
    (∀ outcome, atLine options number line following = some outcome → Call.NumbersRead outcome) ↔
      ∀ digits, distanceAt? options line following = some digits →
        digits.length ≤ maxDigits := by
  unfold atLine distanceAt?
  split
  next => simp
  next =>
    cases hsite : firstSite? options.shapes line with
    | none => simp
    | some found =>
        obtain ⟨shape, site⟩ := found
        simp [Call.ofSite_numbersRead_iff (isRecognised_of_firstSite? hsite)]

theorem isTold_of_atLine {options : Options} {number : Nat} {line : Text}
    {following : List Text} {call : Call}
    (hcall : atLine options number line following = some (.ok call)) :
    call.date.IsTold := by
  obtain ⟨shape, site, arguments, name, date, hsite, hcontents, rfl⟩ :=
    exists_contents_of_atLine hcall
  exact Call.isTold_of_contents (isRecognised_of_firstSite? hsite) hcontents

/-- The months of the dates that the calls of a file tell are names or numbers, and the numbers in
them are short. -/
theorem isTold_of_mem_found {options : Options} {number : Nat} {lines : List Text}
    {calls : Calls} (hcalls : ofLines options number lines = .ok calls) :
    ∀ call ∈ calls.found, call.date.IsTold := by
  intro call hmem
  obtain ⟨before, line, following, -, hcall⟩ := (mem_found_iff hcalls call).mp hmem
  exact isTold_of_atLine hcall

theorem hasReadableDistances_cons_iff (options : Options) (line : Text) (rest : List Text) :
    HasReadableDistances options (line :: rest) ↔
      (∀ digits, distanceAt? options line rest = some digits → digits.length ≤ maxDigits) ∧
        HasReadableDistances options rest := by
  constructor
  · intro h
    exact ⟨h [] line rest rfl, fun before other following hsplit =>
      h (line :: before) other following (by rw [hsplit]; rfl)⟩
  · rintro ⟨hline, hrest⟩ before other following hsplit
    cases before with
    | nil =>
        obtain ⟨rfl, rfl⟩ := List.cons.inj hsplit
        exact hline
    | cons head before =>
        obtain ⟨rfl, rfl⟩ := List.cons.inj hsplit
        exact hrest before other following rfl

/-- The calls of a file are read just if no distance from Easter Sunday has too many digits. -/
theorem ofLines_ok_iff (options : Options) (number : Nat) (lines : List Text) :
    (∃ calls, ofLines options number lines = .ok calls) ↔ HasReadableDistances options lines := by
  induction lines generalizing number with
  | nil => exact iff_of_true ⟨_, rfl⟩ fun before line following hsplit => by simp at hsplit
  | cons line rest ih =>
      rw [hasReadableDistances_cons_iff, ← atLine_numbersRead_iff options number, ← ih (number + 1),
        ofLines]
      cases hline : atLine options number line rest with
      | none => simp
      | some outcome =>
          cases outcome with
          | ok call => cases ofLines options (number + 1) rest <;> simp [Call.NumbersRead]
          | error fault =>
              cases fault with
              | number fault => simp [Call.NumbersRead]
              | call fault => cases ofLines options (number + 1) rest <;> simp [Call.NumbersRead]

end Calls
end Almanac.Registration
