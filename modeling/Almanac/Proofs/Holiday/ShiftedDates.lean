import Almanac.Proofs.Holiday.DateCalls
import Almanac.Proofs.Text.Gaps

/-!
# Shifted dates

Behind the call of a date an operator and an expression may shift it. Only a shift of Easter Sunday
by a number of days is read. A shift of a date of a month is dropped, whatever it is, and so is
every other shift of Easter Sunday: the date is read as if it stood alone.
-/

namespace Almanac.Text

/-- A search passes over characters that begin nothing. -/
theorem search_append_of_forall {α : Type} {barrier : Char → Bool} {scan : Text → Option α}
    {front : Text} (h : ∀ c ∈ front, ∀ t, scan (c :: t) = none) (blocked : Bool) (later : Text) :
    search barrier scan blocked (front ++ later) =
      search barrier scan (bars barrier blocked front) later := by
  induction front generalizing blocked with
  | nil => rfl
  | cons c front ih =>
      obtain ⟨hc, hfront⟩ := List.forall_mem_cons.mp h
      rw [List.cons_append, search_cons_of_none (.inr (hc _)), ih hfront, bars_cons]

end Almanac.Text

namespace Almanac.Holiday.DateExpression

open Almanac.Text

/-- The text is the call for a date of a month. -/
def IsDateCall (month day call : Text) : Prop :=
  OpensDate month day call []

/-- The text is the call for Easter Sunday. -/
def IsEasterCall (call : Text) : Prop :=
  OpensEaster call []

/-- Somewhere in the text, and not within a word, the call for a date of a month begins. -/
def HasDateCall (t : Text) : Prop :=
  ∃ before after month day rest, t = before ++ after ∧
    (∀ c ∈ before.getLast?, isWord c = false) ∧ OpensDate month day after rest

/-- The text is a call with an operator and an expression behind it. -/
inductive IsShifted (call : Text) (backward : Bool) (expression : Text) : Text → Prop
  | operator {blanks : Text} {operator : Char} (hblanks : ∀ c ∈ blanks, isBlank c = true)
      (hoperator : IsSign [operator] backward) :
      IsShifted call backward expression (call ++ (blanks ++ operator :: expression))

variable {call expression text month day : Text} {backward : Bool}

/-! ## Searches for calls -/

theorem IsDateCall.opensDate (h : IsDateCall month day call) (rest : Text) :
    OpensDate month day (call ++ rest) rest := by
  obtain ⟨hmonth, hday, year, hyear, behind, rfl, hopens⟩ := h
  exact ⟨hmonth, hday, year, hyear, behind ++ rest, List.append_assoc .., hopens.append rest⟩

theorem IsEasterCall.opensEaster (h : IsEasterCall call) (rest : Text) :
    OpensEaster (call ++ rest) rest := by
  obtain ⟨year, hyear, behind, rfl, hopens⟩ := h
  exact ⟨year, hyear, behind ++ rest, List.append_assoc .., hopens.append rest⟩

theorem findWord?_fixedDate?_eq_none_iff :
    findWord? fixedDate? text = none ↔ ¬ HasDateCall text := by
  constructor
  · rintro hnone ⟨before, after, month, day, rest, rfl, hword, hopens⟩
    have hread := fixedDate?_eq_some_iff.mpr ⟨rest, hopens⟩
    have hbars : bars isWord false before = false := by
      cases hlast : before.getLast? with
      | none => rw [bars, hlast]; rfl
      | some c => rw [bars, hlast]; exact hword c hlast
    have hfound := isSome_search_of_split (by rintro rfl; cases hread) hbars
      (Option.isSome_of_eq_some hread)
    rw [← findWord?, hnone] at hfound
    cases hfound
  · intro h
    by_contra hfound
    obtain ⟨found, hfound⟩ := Option.ne_none_iff_exists'.mp hfound
    obtain ⟨before, after, hsplit, hbars, hread⟩ := split_of_search_eq_some hfound
    obtain ⟨rest, hopens⟩ := fixedDate?_eq_some_iff.mp hread
    refine h ⟨before, after, _, _, rest, hsplit, fun c hc => ?_, hopens⟩
    rw [bars, Option.mem_def.mp hc] at hbars
    exact hbars

/-- There is no letter `d` in the call for Easter Sunday, so no date of a month begins there. -/
theorem IsEasterCall.d_notMem (h : IsEasterCall call) : 'd' ∉ call := by
  obtain ⟨year, hyear, behind, rfl, hopens⟩ := h
  have hnames : ∀ year ∈ yearNames, ∀ piece ∈ ["(".toList, year, ")".toList], 'd' ∉ piece := by
    decide
  intro hmem
  rcases List.mem_append.mp hmem with heaster | hbehind
  · revert heaster
    decide
  · rcases hopens.mem hbehind with hblank | ⟨piece, hpiece, hd⟩ | hnil
    · revert hblank
      decide
    · exact hnames year hyear piece hpiece hd
    · exact absurd hnil List.not_mem_nil

theorem fixedDate?_cons_of_ne {c : Char} (hc : c ≠ 'd') (t : Text) :
    fixedDate? (c :: t) = none := by
  have hdate : after? "date" (c :: t) = none := if_neg fun heq => hc heq.symm
  rw [fixedDate?, hdate]
  rfl

theorem IsShifted.findWord?_fixedDate? (h : IsShifted call backward expression text)
    (hcall : IsEasterCall call) (hnone : ¬ HasDateCall expression) :
    findWord? fixedDate? text = none := by
  obtain @⟨blanks, operator, hblanks, hoperator⟩ := h
  have hmark : operator ≠ 'd' ∧ isWord operator = false := by cases hoperator <;> decide
  have hfront : ∀ c ∈ call ++ (blanks ++ [operator]), ∀ t, fixedDate? (c :: t) = none := by
    intro c hc t
    refine fixedDate?_cons_of_ne ?_ t
    rintro rfl
    rcases List.mem_append.mp hc with hmem | hc
    · exact hcall.d_notMem hmem
    · rcases List.mem_append.mp hc with hblank | hmem
      · exact absurd (hblanks 'd' hblank) (by decide)
      · exact hmark.1 (List.mem_singleton.mp hmem).symm
  have hbars : bars isWord false (call ++ (blanks ++ [operator])) = false := by
    simp [bars, hmark.2]
  have hsplit : call ++ (blanks ++ operator :: expression) =
      call ++ (blanks ++ [operator]) ++ expression := by simp
  rw [hsplit, findWord?, search_append_of_forall hfront, hbars]
  exact findWord?_fixedDate?_eq_none_iff.mpr hnone

/-! ## Shifts -/

/-- The shift that a scanner reads behind a call is the number of days that the expression opens
with. -/
theorem shift?_iff {operator : Char} {t : Text} (hoperator : IsSign [operator] backward)
    (h : Opens [[operator]] t expression) {b : Bool} {digits : Text} :
    shift? t = some ⟨b, digits⟩ ↔
      ∃ negative rest, OpensSpan negative digits expression rest ∧ b = (backward != negative) := by
  rw [shift?_eq_some_iff]
  constructor
  · rintro ⟨other, outer, negative, behind, rest, hother, hopens, hspan, rfl⟩
    have hstart := opens_sign_iff.mpr ⟨operator, hoperator, h⟩
    rw [opens_sign_iff.mpr ⟨other, hother, hopens⟩] at hstart
    obtain ⟨rfl, rfl⟩ := Prod.mk.inj (Option.some.inj hstart)
    exact ⟨negative, rest, hspan, rfl⟩
  · rintro ⟨negative, rest, hspan, rfl⟩
    exact ⟨operator, backward, negative, expression, rest, hoperator, h, hspan, rfl⟩

theorem IsEasterCall.findWord?_easter? (h : IsEasterCall call) (rest : Text) :
    findWord? easter? (call ++ rest) = some (shift? rest) :=
  findWord?_of_scan rfl (easter?_eq_some_iff.mpr ⟨rest, h.opensEaster rest, rfl⟩)

/-- A call for Easter Sunday holds no date of a month. -/
theorem IsEasterCall.classify_eq (h : IsEasterCall call) : classify call = .ok (easterBased 0) := by
  have hfixed : findWord? fixedDate? call = none :=
    findWord?_of_notMem (c := 'd') (fun u hu => by
      rw [fixedDate?, after?_of_notMem (c := 'd') (by decide) hu]
      rfl) h.d_notMem
  have heaster := h.findWord?_easter? []
  rw [List.append_nil] at heaster
  unfold classify
  rw [hfixed, heaster]
  rfl

/-- Whatever stands behind the call for a date of a month, the text tells that date. -/
theorem IsDateCall.classify_append (h : IsDateCall month day call) (rest : Text) :
    classify (call ++ rest) = .ok (fixed month (digitsValue day)) := by
  have hfound : findWord? fixedDate? (call ++ rest) = some (month, day) :=
    findWord?_of_scan rfl (fixedDate?_eq_some_iff.mpr ⟨rest, h.opensDate rest⟩)
  unfold classify
  rw [hfound]
  dsimp only
  rw [readNat_of_isReadableNat h.2.1.isReadableNat]
  rfl

theorem IsShifted.classify_of_easter (h : IsShifted call backward expression text)
    (hcall : IsEasterCall call) (hnone : ¬ HasDateCall expression) :
    (∀ negative digits rest, OpensSpan negative digits expression rest →
      classify text = (readNat digits).map fun n : Nat =>
        easterBased (if backward != negative then -(n : Int) else n)) ∧
    ((∀ negative digits rest, ¬ OpensSpan negative digits expression rest) →
      classify text = .ok (easterBased 0)) := by
  have hfixed := h.findWord?_fixedDate? hcall hnone
  obtain @⟨blanks, operator, hblanks, hoperator⟩ := h
  have hopens : Opens [[operator]] (blanks ++ operator :: expression) expression :=
    .cons hblanks .nil
  have heaster := hcall.findWord?_easter? (blanks ++ operator :: expression)
  refine ⟨fun negative digits rest hspan => ?_, fun hnone => ?_⟩
  · rw [(shift?_iff hoperator hopens).mpr ⟨negative, rest, hspan, rfl⟩] at heaster
    exact (classify_of_shift hfixed heaster).1
  · have hshift : shift? (blanks ++ operator :: expression) = none := by
      rw [Option.eq_none_iff_forall_ne_some]
      rintro ⟨b, digits⟩ hread
      obtain ⟨negative, rest, hspan, -⟩ := (shift?_iff hoperator hopens).mp hread
      exact hnone negative digits rest hspan
    unfold classify
    rw [hfixed, heaster, hshift]
    rfl

/-- A shift of a date of a month makes no difference. A shift of Easter Sunday, with no date of a
month in it, makes one only if it opens with a number of days, which is then the distance, taken the
other way round behind a minus sign; every other shift leaves Easter Sunday itself. -/
theorem classify_shifted {call expression text : Text} {backward : Bool}
    (h : IsShifted call backward expression text) :
    (∀ month day, IsDateCall month day call →
      classify text = .ok (fixed month (digitsValue day)) ∧ classify text = classify call) ∧
    (IsEasterCall call → ¬ HasDateCall expression →
      (∀ negative digits rest, OpensSpan negative digits expression rest →
        classify text = (readNat digits).map fun n : Nat =>
          easterBased (if backward != negative then -(n : Int) else n)) ∧
      ((∀ negative digits rest, ¬ OpensSpan negative digits expression rest) →
        classify text = .ok (easterBased 0) ∧ classify text = classify call)) := by
  refine ⟨fun month day hcall => ?_, fun hcall hnone => ?_⟩
  · obtain @⟨blanks, operator, -, -⟩ := h
    have halone := hcall.classify_append []
    rw [List.append_nil] at halone
    rw [hcall.classify_append, halone]
    exact ⟨rfl, rfl⟩
  · obtain ⟨hspan, hother⟩ := h.classify_of_easter hcall hnone
    refine ⟨hspan, fun hnot => ?_⟩
    rw [hcall.classify_eq, hother hnot]
    exact ⟨rfl, rfl⟩

/-- An operator behind a space. -/
theorem isShifted_spaced {operator : Char} (hoperator : IsSign [operator] backward)
    (htext : text = call ++ ' ' :: operator :: expression) :
    IsShifted call backward expression text :=
  htext ▸ .operator (List.forall_mem_singleton.mpr (show isBlank ' ' = true by decide)) hoperator

theorem isEasterCall_year : IsEasterCall "easter(year)" :=
  ⟨"year", by decide, "(year)", rfl, .plain "(" (.plain "year" (.plain ")" .nil))⟩

theorem classify_shifted_twoDaysBefore :
    IsShifted "easter(year)" true " td(days=2)" "easter(year) - td(days=2)" ∧
    classify "easter(year) - td(days=2)" = .ok (easterBased (-2)) := by
  have hshifted : IsShifted "easter(year)" true " td(days=2)" "easter(year) - td(days=2)" :=
    isShifted_spaced .minus rfl
  have hnone : ¬ HasDateCall " td(days=2)" :=
    findWord?_fixedDate?_eq_none_iff.mp (by decide)
  have hspan : OpensSpan false "2" " td(days=2)" [] :=
    ⟨⟨by decide, List.forall_mem_singleton.mpr (by decide)⟩, "td", by decide, [], .none,
      .spaced "td" (.plain "(" (.plain "days" (.plain "=" (.plain [] (.plain "2"
        (.plain ")" .nil))))))⟩
  obtain ⟨-, heaster⟩ := classify_shifted hshifted
  refine ⟨hshifted, ((heaster isEasterCall_year hnone).1 false "2" [] hspan).trans ?_⟩
  decide

/-- A shift by a week, which is no number of days, leaves Easter Sunday, and a shift by a day leaves
the first of January. -/
theorem classify_drops_shifts :
    (IsShifted "easter(year)" false " rd(weeks=1)" "easter(year) + rd(weeks=1)" ∧
      IsEasterCall "easter(year)" ∧ ¬ HasDateCall " rd(weeks=1)" ∧
      (∀ negative digits rest, ¬ OpensSpan negative digits " rd(weeks=1)" rest) ∧
      classify "easter(year) + rd(weeks=1)" = .ok (easterBased 0)) ∧
    (IsShifted "date(year, JAN, 1)" false " td(days=1)" "date(year, JAN, 1) + td(days=1)" ∧
      IsDateCall "JAN" "1" "date(year, JAN, 1)" ∧ ¬ HasDateCall " td(days=1)" ∧
      classify "date(year, JAN, 1) + td(days=1)" = .ok (fixed "JAN" 1)) := by
  have hplus : Opens [['+']] " + rd(weeks=1)" " rd(weeks=1)" := .spaced ['+'] .nil
  refine ⟨⟨isShifted_spaced .plus rfl, isEasterCall_year,
      findWord?_fixedDate?_eq_none_iff.mp (by decide), ?_, by decide⟩,
    ⟨isShifted_spaced .plus rfl, ?_,
      findWord?_fixedDate?_eq_none_iff.mp (by decide), by decide⟩⟩
  · intro negative digits rest hspan
    have hread := (shift?_iff .plus hplus).mpr ⟨negative, rest, hspan, rfl⟩
    have hnone : shift? " + rd(weeks=1)" = none := by rfl
    rw [hnone] at hread
    cases hread
  · exact ⟨⟨by decide, .inl (List.all_eq_true.mp (by decide))⟩,
      ⟨by decide, by decide, List.forall_mem_singleton.mpr (by decide)⟩, "year", by decide,
      "(year, JAN, 1)", rfl,
      .plain "(" (.plain "year" (.plain "," (.spaced "JAN" (.plain "," (.spaced "1"
        (.plain ")" .nil))))))⟩

end Almanac.Holiday.DateExpression
