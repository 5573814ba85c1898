import Almanac.Proofs.Text.Seams
import Almanac.Registration.Arguments

/-!
# Seams of calls and dates

The scanners for the sites of calls and for the dates in their arguments know letters, digits, white
space and a few marks. A quotation mark, a backslash and the sign of a comment are none of these, so
each of them is a seam: what these scanners find before it does not depend on what stands behind.
-/

namespace Almanac.Holiday.DateExpression

open Almanac.Text

/-- The marks in a date of a month. -/
def fixedMarks : Text := "(),."

/-- The marks in a distance from Easter Sunday. -/
def easterMarks : Text := "(),.+-="

theorem afterYear?_eq (t : Text) : afterYear? t =
    (after? "self." (stripStart t)).elim (after? "year" (stripStart t))
      fun rest => after? "year" ((after? "_" rest).getD rest) := by
  simp only [afterYear?]
  cases after? "self." (stripStart t) <;> rfl

theorem respects_afterYear? : Respects "." afterYear? (fun z rest => rest ++ z) := by
  have hself : Respects ".".toList (after? "self.") (fun z rest => rest ++ z) :=
    respects_after? (by decide)
  have hunderscore : Respects ".".toList (after? "_") (fun z rest => rest ++ z) :=
    respects_after? (by decide)
  have hyear : Respects ".".toList (after? "year") (fun z rest => rest ++ z) :=
    respects_after? (by decide)
  have hstripped : Respects ".".toList (fun t => (after? "self." t).elim (after? "year" t)
      fun rest => after? "year" ((after? "_" rest).getD rest)) (fun z rest => rest ++ z) := by
    intro z hz t
    dsimp only
    rw [hself z hz]
    cases after? "self." t with
    | none => exact hyear z hz t
    | some rest =>
        dsimp only [Option.map_some, Option.elim_some]
        rw [hunderscore z hz]
        cases after? "_" rest with
        | none => exact hyear z hz rest
        | some more => exact hyear z hz more
  intro z hz t
  rw [afterYear?_eq, afterYear?_eq]
  exact hstripped.stripStart rfl z hz t

theorem respects_month? : Respects fixedMarks month? withRest := by
  intro z hz t
  unfold month?
  rw [respects_letters z hz, respects_decimals z hz]
  cases some? Char.isAlpha t <;> rfl

theorem respects_fixedDate? : Respects fixedMarks fixedDate? (fun _ => id) := by
  refine (respects_after? (by decide)).bind ?_
  refine (respects_afterBlank? (by decide) (by decide)).bind ?_
  refine (respects_afterYear?.mono (by decide)).bind ?_
  refine (respects_afterBlank? (by decide) (by decide)).bind ?_
  refine (respects_month?.stripStart rfl).bindRead fun month => ?_
  refine (respects_afterBlank? (by decide) (by decide)).bind ?_
  refine (respects_oneOrTwoDigits?.stripStart rfl).bindRead fun day => ?_
  exact (respects_afterBlank? (by decide) (by decide)).bind (respects_const _)

theorem respects_sign? : Respects easterMarks sign? withRest := by
  intro z hz t
  cases t with
  | cons c t =>
      rw [List.cons_append]
      unfold sign?
      split <;> simp_all [withRest]
  | nil =>
      cases z with
      | nil => rfl
      | cons c z =>
          have hsigns : c ≠ '+' ∧ c ≠ '-' := by
            constructor <;> rintro rfl <;> rcases hz.head with hblank | hforeign
            · exact absurd hblank (by decide)
            · exact hforeign.notMark (by decide)
            · exact absurd hblank (by decide)
            · exact hforeign.notMark (by decide)
          simp [sign?, hsigns]

/-- The digits of a number of days and the parenthesis that closes the span. -/
def days? (backward : Bool) (t : Text) : Option Shift :=
  (some? isDecimal (stripStart t)).bind fun (digits, rest) =>
    (afterBlank? ")" rest).bind fun _ => some ⟨backward, digits⟩

/-- A number of days with a sign of its own, or none, behind the sign of the span. -/
def signedDays? (outer : Bool) (t : Text) : Option Shift :=
  match sign? t with
  | none => days? outer t
  | some (inner, rest) => days? (outer != inner) rest

theorem shift?_eq (t : Text) : shift? t = (sign? (stripStart t)).bind fun (outer, rest) =>
    (spanNames.findSome? fun name =>
        (afterBlank? name rest).bind (afterBlank? "(")).bind fun rest =>
      (afterBlank? "days" rest).bind fun rest =>
        (afterBlank? "=" rest).bind fun rest => signedDays? outer (stripStart rest) := by
  have hsigned : ∀ outer u, signedDays? outer u =
      days? (outer != ((sign? u).getD (false, u)).1) ((sign? u).getD (false, u)).2 := by
    intro outer u
    unfold signedDays?
    cases sign? u <;> simp
  simp only [hsigned]
  rfl

theorem respects_days? (backward : Bool) :
    Respects easterMarks (days? backward) (fun _ => id) := by
  refine (respects_decimals.stripStart rfl).bindRead fun digits => ?_
  exact (respects_afterBlank? (by decide) (by decide)).bind (respects_const _)

theorem respects_signedDays? (outer : Bool) :
    Respects easterMarks (signedDays? outer) (fun _ => id) := by
  intro z hz t
  unfold signedDays?
  rw [respects_sign? z hz]
  cases sign? t with
  | none => exact respects_days? outer z hz t
  | some found => exact respects_days? (outer != found.1) z hz found.2

theorem respects_shift? : Respects easterMarks shift? (fun _ => id) := by
  have hspans : ∀ name ∈ spanNames, IsKnown easterMarks name ∧ name ≠ [] := by decide
  intro z hz t
  rw [shift?_eq, shift?_eq]
  revert z t
  refine (respects_sign?.stripStart rfl).bindRead fun outer => ?_
  refine (respects_findSome? fun name hname => ?_).bind ?_
  · obtain ⟨hknown, hsome⟩ := hspans name hname
    exact (respects_afterBlank? hknown hsome).bind (respects_afterBlank? (by decide) (by decide))
  · refine (respects_afterBlank? (by decide) (by decide)).bind ?_
    refine (respects_afterBlank? (by decide) (by decide)).bind ?_
    exact (respects_signedDays? outer).stripStart rfl

theorem respects_easter? : Respects easterMarks easter? (fun _ => id) := by
  refine (respects_after? (by decide)).bind ?_
  refine (respects_afterBlank? (by decide) (by decide)).bind ?_
  refine (respects_afterYear?.mono (by decide)).bind ?_
  refine (respects_afterBlank? (by decide) (by decide)).bind ?_
  intro z hz rest
  dsimp only
  rw [respects_shift? z hz]
  simp

end Almanac.Holiday.DateExpression

namespace Almanac.Registration

open Almanac.Text Almanac.Holiday

/-! ## Sites -/

/-- The marks in a call up to its arguments. -/
def siteMarks : Text := "(."

/-- The site of a call on a line that goes on with a further text. -/
def Site.longer (z : Text) (site : Site) : Site :=
  { site with arguments := site.arguments ++ z }

namespace Shape

theorem respects_named? {name : Text} (hname : IsKnown siteMarks name) (method : Method) :
    Respects siteMarks (named? name method) Site.longer := by
  refine (respects_after? hname).bind ?_
  refine (respects_afterBlank? (by decide) (by decide)).bind ?_
  intro z hz rest
  rfl

theorem isLowerLetter_of_not_isAlpha {c : Char} (hc : c.isAlpha = false) :
    isLowerLetter c = false := by
  cases hlower : isLowerLetter c with
  | false => rfl
  | true =>
      have hletter : c.isAlpha = true := by
        simp only [isLowerLetter, Bool.and_eq_true, decide_eq_true_eq] at hlower
        unfold Char.isAlpha Char.isLower
        simp only [Bool.or_eq_true, Bool.and_eq_true, decide_eq_true_eq]
        exact .inr hlower
      rw [hc] at hletter
      exact Bool.noConfusion hletter

/-- The day behind a month of three letters, and the parenthesis that opens the arguments. -/
def day? (month : Text) (t : Text) : Option Site :=
  (oneOrTwoDigits? t).bind fun (day, rest) => (afterBlank? "(" rest).bind fun arguments =>
    some ⟨.dated ("_add_holiday_" ++ (month ++ ['_']) ++ day) month day, arguments⟩

/-- The month and the day in the name of a method, and the parenthesis that opens the arguments. -/
def monthAndDay? : Text → Option Site
  | a :: b :: c :: d :: t =>
      if isLowerLetter a && isLowerLetter b && isLowerLetter c && d = '_' then day? [a, b, c] t
      else none
  | _ => none

theorem dated?_eq (t : Text) : dated? t = (after? "_add_holiday_" t).bind monthAndDay? := by
  unfold dated?
  simp only [Option.bind_eq_bind]
  congr 1
  funext rest
  split
  next a b c rest =>
    simp only [monthAndDay?, decide_true, Bool.and_true]
    split <;> rfl
  next hother =>
    unfold monthAndDay?
    split
    next a b c d t =>
      rw [if_neg]
      intro h
      simp only [Bool.and_eq_true, decide_eq_true_eq] at h
      exact hother a b c t (by rw [h.2])
    next => rfl

theorem respects_day? (month : Text) : Respects siteMarks (day? month) Site.longer := by
  refine respects_oneOrTwoDigits?.bindRead fun day => ?_
  refine (respects_afterBlank? (by decide) (by decide)).bind ?_
  intro z hz rest
  rfl

theorem respects_monthAndDay? : Respects siteMarks monthAndDay? Site.longer := by
  intro z hz t
  have hseam : ∀ c w, z = c :: w → isLowerLetter c = false ∧ c ≠ '_' := by
    rintro c w rfl
    rcases hz.head with hblank | hforeign
    · exact ⟨isLowerLetter_of_not_isAlpha (isAlpha_of_isBlank hblank), by
        rintro rfl
        exact absurd hblank (by decide)⟩
    · exact ⟨isLowerLetter_of_not_isAlpha hforeign.notAlpha, by
        rintro rfl
        exact absurd hforeign.notWord (by decide)⟩
  rcases t with _ | ⟨a, _ | ⟨b, _ | ⟨c, _ | ⟨d, t⟩⟩⟩⟩
  case cons.cons.cons.cons =>
    simp only [List.cons_append, monthAndDay?]
    split
    next => exact respects_day? [a, b, c] z hz t
    next => rfl
  -- the seam is no letter of the month and not the underscore behind it
  all_goals
    rcases z with _ | ⟨e, z⟩
    · rfl
    · obtain ⟨hletter, hunderscore⟩ := hseam e z rfl
      simp only [List.nil_append, List.cons_append, monthAndDay?]
      split <;> simp_all

theorem respects_dated? : Respects siteMarks dated? Site.longer := by
  intro z hz t
  rw [dated?_eq, dated?_eq]
  exact (respects_after? (by decide)).bind respects_monthAndDay? z hz t

theorem respects_method? (shape : Shape) : Respects siteMarks shape.method? Site.longer := by
  have hfeasts : ∀ entry ∈ feasts, IsKnown siteMarks entry.1 := by decide
  cases shape with
  | generic => exact respects_named? (by decide) _
  | easterBased => exact respects_named? (by decide) _
  | weekdayBased => exact respects_named? (by decide) _
  | dateSuffixed => exact respects_dated?
  | namedHelper =>
      exact respects_findSome? fun entry hentry => respects_named? (hfeasts entry hentry) _

theorem respects_siteHere? (shape : Shape) : Respects siteMarks shape.siteHere? Site.longer :=
  (respects_after? (by decide)).bind shape.respects_method?

end Shape

theorem site?_eq_none_of_hasSite {t : Text} (h : hasSite Shape.all t = false) (shape : Shape) :
    shape.site? t = none := by
  have hmem : shape ∈ Shape.all := by cases shape <;> decide
  simpa using List.any_eq_false.mp h shape hmem

/-! ## Searches up to a seam -/

/-- A quote, a backslash or the sign of a comment. -/
def IsBoundary (c : Char) : Prop :=
  c = '"' ∨ c = '\'' ∨ c = '\\' ∨ c = '#'

theorem IsBoundary.isForeign {c : Char} (hc : IsBoundary c) :
    IsForeign DateExpression.easterMarks c := by
  rcases hc with rfl | rfl | rfl | rfl <;> constructor <;> decide

/-- A scanner for what begins with a word, which reads nothing at the end of a text and knows no
boundary. -/
structure StopsAtBoundaries {α : Type} (scan : Text → Option α) (longer : Text → α → α) : Prop where
  respects : Respects DateExpression.easterMarks scan longer
  nil : scan [] = none
  word : ∀ c, isWord c = false → ∀ t, scan (c :: t) = none

theorem after?_cons_of_not_isWord {o : Char} {opening : Text} (ho : isWord o = true) {c : Char}
    (hc : isWord c = false) (t : Text) : after? (o :: opening) (c :: t) = none := by
  refine if_neg ?_
  rintro rfl
  rw [ho] at hc
  exact Bool.noConfusion hc

theorem stopsAtBoundaries_fixedDate? :
    StopsAtBoundaries DateExpression.fixedDate? (fun _ => id) where
  respects := DateExpression.respects_fixedDate?.mono (by decide)
  nil := rfl
  word c hc t := by
    have hdate : after? "date" (c :: t) = none := after?_cons_of_not_isWord (by decide) hc t
    rw [DateExpression.fixedDate?, hdate]
    rfl

theorem stopsAtBoundaries_easter? : StopsAtBoundaries DateExpression.easter? (fun _ => id) where
  respects := DateExpression.respects_easter?
  nil := rfl
  word c hc t := by
    have heaster : after? "easter" (c :: t) = none := after?_cons_of_not_isWord (by decide) hc t
    rw [DateExpression.easter?, heaster]
    rfl

theorem stopsAtBoundaries_siteHere? (shape : Shape) :
    StopsAtBoundaries shape.siteHere? Site.longer where
  respects := shape.respects_siteHere?.mono (by decide)
  nil := rfl
  word c hc t := by
    have hself : after? "self." (c :: t) = none := after?_cons_of_not_isWord (by decide) hc t
    rw [Shape.siteHere?, hself]
    rfl

namespace StopsAtBoundaries

variable {α : Type} {scan : Text → Option α} {longer : Text → α → α}
  (hscan : StopsAtBoundaries scan longer)

include hscan

/-- A search goes on behind a boundary if it finds nothing before. -/
theorem findWord?_append_cons {c : Char} (hc : IsBoundary c) (t w : Text) :
    findWord? scan (t ++ c :: w) =
      ((findWord? scan t).map (longer (c :: w))).or (findWord? scan w) :=
  hscan.respects.findWord?_append_cons hscan.nil hc.isForeign t w

/-- A search passes over what is no part of a word. -/
theorem findWord?_cons {c : Char} (hc : isWord c = false) (t : Text) :
    findWord? scan (c :: t) = findWord? scan t :=
  findWord?_cons_of_none (hscan.word c hc t) hc

theorem findWord?_blank_append {blanks : Text} (hblank : ∀ c ∈ blanks, isBlank c = true)
    (t : Text) : findWord? scan (blanks ++ t) = findWord? scan t := by
  induction blanks with
  | nil => rfl
  | cons c blanks ih =>
      obtain ⟨hc, hrest⟩ := List.forall_mem_cons.mp hblank
      rw [List.cons_append, hscan.findWord?_cons (isWord_of_isBlank hc), ih hrest]

end StopsAtBoundaries
end Almanac.Registration
