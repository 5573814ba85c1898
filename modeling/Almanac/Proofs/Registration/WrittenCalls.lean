import Almanac.Proofs.Registration.NamedArguments
import Almanac.Holiday.Key
import Almanac.Registration.Call

/-!
# Calls as a source writes them

A call on a line of its own has its method behind the indent and `self.`, and the name of the
holiday is its first argument. Such a line has the site of that call only, and its arguments close
the parenthesis on the line.
-/

namespace Almanac.Registration

open Almanac.Text Almanac.Source Almanac.Holiday

/-! ## Sites -/

namespace Shape

variable (shape : Shape)

theorem site?_of_noPoint {t : Text} (ht : '.' ∉ t) : shape.site? t = none := by
  refine findWord?_of_notMem (fun u hu => ?_) ht
  rw [siteHere?, after?_of_notMem (show '.' ∈ "self.".toList by decide) hu]
  rfl

theorem site?_indent {indent : Text} (hindent : ∀ c ∈ indent, isBlank c = true) (t : Text) :
    shape.site? (indent ++ t) = shape.site? t :=
  (stopsAtBoundaries_siteHere? shape).findWord?_blank_append hindent t

/-- A call on the object itself, or one further on in the line. -/
theorem site?_self (t : Text) :
    shape.site? ("self." ++ t) = (shape.method? t).or (shape.site? t) := by
  have hhere : shape.siteHere? ("self." ++ t) = shape.method? t := by
    rw [siteHere?, after?_self, Option.bind_some]
  cases hmethod : shape.method? t with
  | some site => exact findWord?_of_scan rfl (hhere.trans hmethod)
  | none =>
      have hnone : shape.siteHere? ('s' :: 'e' :: 'l' :: 'f' :: '.' :: t) = none :=
        hhere.trans hmethod
      have hword : isWord 's' = true ∧ isWord 'e' = true ∧ isWord 'l' = true ∧ isWord 'f' = true ∧
          isWord '.' = false := by decide
      show search isWord shape.siteHere? false ('s' :: 'e' :: 'l' :: 'f' :: '.' :: t) = _
      simp [search, hnone, hword, site?, findWord?]

theorem named?_self (name : Text) (method : Method) (arguments : Text) :
    named? name method (name ++ '(' :: arguments) = some ⟨method, arguments⟩ := by
  unfold named?
  rw [after?_self]
  rfl

/-- The month and the day in the name of a method. -/
theorem dated?_written {abbreviation : Text} {m day : Nat}
    (hmonth : (abbreviation, m) ∈ Month.abbreviations) (hday : day < 100) (arguments : Text) :
    dated? ("_add_holiday_" ++
        (lower abbreviation ++ '_' :: (Text.ofNat day ++ '(' :: arguments))) =
      some ⟨.dated ("_add_holiday_" ++ (lower abbreviation ++ '_' :: Text.ofNat day))
        (lower abbreviation) (Text.ofNat day), arguments⟩ := by
  have hletters : ∀ entry ∈ Month.abbreviations,
      (lower entry.1).length = 3 ∧ (lower entry.1).all isLowerLetter = true := by decide
  obtain ⟨hlength, hlower⟩ := hletters _ hmonth
  obtain ⟨a, b, c, habc⟩ := List.length_eq_three.mp hlength
  rw [habc] at hlower ⊢
  simp only [List.all_cons, List.all_nil, Bool.and_eq_true] at hlower
  have hday' := oneOrTwoDigits?_append (isShortNumber_ofNat hday)
    (show isDecimal '(' = false by decide) arguments
  have hopen : afterBlank? "(" ('(' :: arguments) = some arguments := rfl
  rw [dated?_eq, after?_self, Option.bind_some]
  simp only [List.append_assoc, List.cons_append, List.nil_append, monthAndDay?, hlower,
    decide_true, Bool.and_self, if_true, day?, hday', Option.bind_some, hopen]

end Shape

/-- The site of a call is that of the first shape of the table that the line begins with a call of,
if the other shapes have none further on. -/
theorem firstSite?_written {earlier later : List Shape} {shape : Shape} {site : Site}
    {indent t : Text} (hshapes : Shape.all = earlier ++ shape :: later)
    (hearlier : ∀ other ∈ earlier, other.method? t = none ∧ other.site? t = none)
    (hindent : ∀ c ∈ indent, isBlank c = true) (hsite : shape.method? t = some site) :
    firstSite? Shape.all (indent ++ ("self." ++ t)) = some (shape, site) := by
  have hnone : ∀ other ∈ earlier, other.site? (indent ++ ("self." ++ t)) = none := by
    intro other hother
    obtain ⟨hmethod, hmore⟩ := hearlier other hother
    rw [other.site?_indent hindent, other.site?_self, hmethod, hmore]
    rfl
  have hfound : shape.site? (indent ++ ("self." ++ t)) = some site := by
    rw [shape.site?_indent hindent, shape.site?_self, hsite]
    rfl
  rw [firstSite?, hshapes, List.findSome?_append, List.findSome?_cons, hfound]
  have hskip : earlier.findSome? (fun shape =>
      (shape.site? (indent ++ ("self." ++ t))).map fun site => (shape, site)) = none := by
    rw [List.findSome?_eq_none_iff]
    intro other hother
    rw [hnone other hother]
    rfl
  rw [hskip]
  rfl

/-! ## Names -/

/-- A name that a call can give to a holiday without being taken for something else: it has a key,
and holds no call and no date. -/
structure Nameable (name : Text) : Prop where
  key : Key.ofName name ≠ []
  noCall : hasSite Shape.all name = false
  noDate : findWord? DateExpression.fixedDate? name = none
  noDistance : findWord? DateExpression.easter? name = none

namespace NameLiteral

variable {literal : NameLiteral} {name method second : Text}

@[simp] theorem noPoint_opening (literal : NameLiteral) : '.' ∉ literal.opening := by
  unfold opening
  split <;> decide

@[simp] theorem noPoint_closing (literal : NameLiteral) : '.' ∉ literal.closing := by
  unfold closing
  split <;> decide

/-- Neither the name nor what stands around it is another call. -/
theorem Shows.site? (h : literal.Shows name) (hname : Nameable name) (shape : Shape)
    (hmethod : '.' ∉ method) {rest : Text} (hrest : '.' ∉ rest) :
    shape.site? (method ++ '(' :: literal.before rest) = none := by
  have hopening : '.' ∉ method ++ '(' :: literal.opening := by
    simp [hmethod]
  have hclosing : '.' ∉ literal.closing ++ rest := by simp [hrest]
  have hsearch := h.findWord? (stopsAtBoundaries_siteHere? shape)
    (site?_eq_none_of_hasSite hname.noCall shape) (method ++ ['('])
    (by rw [List.append_assoc]; exact shape.site?_of_noPoint hopening) rest
  rw [List.append_assoc] at hsearch
  exact hsearch.trans (shape.site?_of_noPoint hclosing)

/-- The method of a call is read up to the name. -/
theorem Shows.method? (h : literal.Shows name) (shape : Shape) (rest : Text) :
    shape.method? (method ++ '(' :: literal.before rest) =
      (shape.method? (method ++ '(' :: literal.opening)).map (Site.longer
        (literal.quote :: (literal.body ++ literal.quote :: (literal.closing ++ rest)))) := by
  have hseam : IsSeam siteMarks
      (literal.quote :: (literal.body ++ literal.quote :: (literal.closing ++ rest))) := by
    obtain ⟨hblank, hword, hdecimal, halpha, hmark⟩ := h.isBoundary.isForeign
    refine isSeam_cons ⟨hblank, hword, hdecimal, halpha, fun hmem => hmark ?_⟩ _
    exact (show siteMarks ⊆ DateExpression.easterMarks by decide) hmem
  have hread := shape.respects_method? _ hseam (method ++ '(' :: literal.opening)
  rw [List.append_assoc, List.cons_append] at hread
  exact hread

/-- A date is looked for behind the name and the comma. -/
theorem Shows.findWord?_second {α : Type} {scan : Text → Option α} {longer : Text → α → α}
    (h : literal.Shows name) (hscan : StopsAtBoundaries scan longer)
    (hfree : Text.findWord? scan name = none)
    (hopening : Text.findWord? scan literal.opening = none)
    (t : Text) : Text.findWord? scan (literal.before (", " ++ t)) = Text.findWord? scan t := by
  have hcomma : Text.findWord? scan (',' :: ' ' :: t) = Text.findWord? scan t := by
    rw [hscan.findWord?_cons (by decide), hscan.findWord?_cons (by decide)]
  refine (h.findWord? hscan hfree [] hopening (", " ++ t)).trans (Eq.trans ?_ hcomma)
  unfold closing
  split
  · exact hscan.findWord?_cons (by decide) _
  · rfl

end NameLiteral

/-! ## Second arguments -/

namespace Arguments

theorem withoutComments_of_notMem {t : Text} (ht : '#' ∉ t) : withoutComments false t = t := by
  induction t with
  | nil => rfl
  | cons c t ih =>
      simp only [List.mem_cons, not_or] at ht
      have hrest := ih ht.2
      rw [withoutComments]
      split
      · rw [hrest]
      · rw [if_neg (by simp [Ne.symm ht.1]), hrest]

/-- There is no white space at the ends of what stands behind a name. -/
theorem strip_behindName (literal : NameLiteral) (t : Text) :
    strip (literal.closing ++ (", " ++ (t ++ ")"))) = literal.closing ++ (", " ++ (t ++ ")")) := by
  have hends : ∀ c u, isBlank c = false →
      strip (c :: (u ++ (t ++ ")"))) = c :: (u ++ (t ++ ")")) := by
    intro c u hc
    rw [← List.append_assoc]
    exact strip_of_ends hc (by decide) _
  unfold NameLiteral.closing
  split
  · exact hends ')' ", " (by decide)
  · exact hends ',' " " (by decide)

theorem withoutClosing_append {t : Text} (hblank : ∀ c ∈ t, isBlank c = false) :
    withoutClosing (t ++ ")") = t := by
  have hreverse : (t ++ ")".toList).reverse = ')' :: t.reverse := by simp
  rw [withoutClosing, hreverse]
  change stripEnd t.reverse.reverse = t
  rw [List.reverse_reverse]
  exact trimEnd_eq_self hblank

/-- A second argument of one word is what stands between the name and the end of the call. -/
theorem tail_second {t : Text} (hsome : t ≠ []) (hblank : ∀ c ∈ t, isBlank c = false)
    (hsign : '#' ∉ t) (hcomma : ',' ∉ t) (literal : NameLiteral) :
    tail (literal.closing ++ (", " ++ (t ++ ")"))) = t := by
  have hnumber : '#' ∉ literal.closing ++ (", " ++ (t ++ ")")) := by
    have hclosing : '#' ∉ literal.closing := fun h => (literal.isCode_closing _ h).2.2 rfl
    simp_all
  have hname : trimStart (fun c => c = ')' || c = ',') (literal.closing ++
      (", " ++ (t ++ ")"))) = ' ' :: (t ++ ")") := by
    unfold NameLiteral.closing
    split <;> rfl
  have hargument : strip (' ' :: (t ++ ")")) = t ++ ")" := by
    obtain ⟨first, more, rfl⟩ := List.exists_cons_of_ne_nil hsome
    have hskip : strip (' ' :: (first :: more ++ ")")) = strip (first :: more ++ ")") :=
      congrArg stripEnd (stripStart_space _)
    rw [hskip]
    exact strip_of_ends (hblank first List.mem_cons_self) (by decide) more
  have hend : ∀ c ∈ t, decide (c = ',') = false := by
    intro c hc
    rw [decide_eq_false_iff_not]
    rintro rfl
    exact hcomma hc
  rw [tail, withoutComments_of_notMem hnumber, strip_behindName, hname, hargument,
    withoutClosing_append hblank, trimEnd_eq_self hend, strip_eq_self hblank]

theorem signedNumber?_ofInt (n : Int) :
    signedNumber? (ofInt n) = some (decide (n < 0), ofNat n.natAbs) := by
  have hdigits : ∀ k, some? isDecimal (stripStart (ofNat k)) = some (ofNat k, []) := by
    intro k
    have hstart := stripStart_append (ofNat_ne_nil k) (fun c hc => isBlank_of_mem_ofNat hc) []
    rw [List.append_nil] at hstart
    have htake : (ofNat k).takeWhile isDecimal = ofNat k :=
      List.takeWhile_eq_self_iff.mpr fun c hc => isDecimal_of_mem_ofNat hc
    have hdrop : (ofNat k).dropWhile isDecimal = [] :=
      List.dropWhile_eq_nil_iff.mpr fun c hc => isDecimal_of_mem_ofNat hc
    obtain ⟨d, more, hcons⟩ := List.exists_cons_of_ne_nil (ofNat_ne_nil k)
    rw [hstart, some?, htake, hdrop]
    rw [hcons]
  unfold signedNumber?
  cases n with
  | ofNat n =>
      have hsign := DateExpression.sign?_append (isDigits_ofNat n) []
      rw [List.append_nil] at hsign
      simp [ofInt, hsign, hdigits, endsWord]
  | negSucc n =>
      have hsign : DateExpression.sign? (ofInt (.negSucc n)) = some (true, ofNat (n + 1)) := rfl
      simp [hsign, hdigits, endsWord, Int.negSucc_lt_zero]

theorem findNumber?_ofInt (n : Int) :
    findNumber? (ofInt n) = some (decide (n < 0), ofNat n.natAbs) := by
  obtain ⟨c, more, hcons⟩ := List.exists_cons_of_ne_nil (ofInt_ne_nil n)
  have hread := signedNumber?_ofInt n
  rw [hcons] at hread
  rw [findNumber?, hcons, search, if_neg Bool.false_ne_true, hread]

end Arguments
end Almanac.Registration
