import Almanac.Proofs.Registration.CallNumbers
import Almanac.Proofs.Registration.CallSeams
import Almanac.Proofs.Text.Openings

/-!
# Calls of dates

A date of a month, Easter Sunday and a number of days are calls, each of a few pieces that white
space may stand between. What a scanner reads at the start of a text is such a call, and each such
call is read whatever stands behind it.
-/

namespace Almanac.Text

/-- Decimal digits, at least one and as many as there may be. -/
def IsDigits (t : Text) : Prop :=
  t ≠ [] ∧ ∀ c ∈ t, isDecimal c = true

theorem IsDigits.beginsSolid {t : Text} (h : IsDigits t) : beginsSolid t = true :=
  beginsSolid_of_forall h.1 fun c hc => isBlank_of_isDigit (isDigit_of_isDecimal (h.2 c hc))

/-- The one or two digits of a number, with no digit behind them. -/
theorem oneOrTwoDigits?_append {digits : Text} (h : IsShortNumber digits) {c : Char}
    (hc : isDecimal c = false) (rest : Text) :
    oneOrTwoDigits? (digits ++ c :: rest) = some (digits, c :: rest) := by
  obtain ⟨hsome, hlength, hdecimal⟩ := h
  rcases digits with _ | ⟨d, _ | ⟨e, _ | ⟨f, more⟩⟩⟩
  · exact absurd rfl hsome
  · simp [oneOrTwoDigits?, hdecimal d, hc]
  · simp [oneOrTwoDigits?, hdecimal d, hdecimal e]
  · simp at hlength

end Almanac.Text

namespace Almanac.Holiday.DateExpression

open Almanac.Text

/-! ## Years, months and days -/

/-- The ways in which a source names the year. -/
def yearNames : List Text :=
  ["year", "self.year", "self._year"]

/-- With no white space before it, the year is read by each of its names. -/
theorem year_iff {u rest : Text} : ((after? "self." u).elim (after? "year" u)
      fun rest => after? "year" ((after? "_" rest).getD rest)) = some rest ↔
    ∃ year ∈ yearNames, u = year ++ rest := by
  constructor
  · intro h
    cases hself : after? "self." u with
    | none =>
        rw [hself] at h
        exact ⟨_, by simp [yearNames], after?_eq_some_iff.mp h⟩
    | some behind =>
        rw [hself, Option.elim_some] at h
        obtain rfl := after?_eq_some_iff.mp hself
        cases hunderscore : after? "_" behind with
        | none =>
            rw [hunderscore, Option.getD_none] at h
            obtain rfl := after?_eq_some_iff.mp h
            exact ⟨"self.year", by simp [yearNames], rfl⟩
        | some more =>
            rw [hunderscore, Option.getD_some] at h
            obtain rfl := after?_eq_some_iff.mp hunderscore
            obtain rfl := after?_eq_some_iff.mp h
            exact ⟨"self._year", by simp [yearNames], rfl⟩
  · rintro ⟨year, hyear, rfl⟩
    simp only [yearNames, List.mem_cons, List.not_mem_nil, or_false] at hyear
    rcases hyear with rfl | rfl | rfl <;> rfl

theorem afterYear?_eq_some_iff {t rest : Text} : afterYear? t = some rest ↔
    ∃ year ∈ yearNames, Opens [year] t rest := by
  have hnames : ∀ year ∈ yearNames, beginsSolid year = true := by decide
  rw [afterYear?_eq, year_iff]
  refine exists_congr fun year => and_congr_right fun hyear => ?_
  exact stripStart_eq_append_iff (hnames year hyear)

/-- A month and a text that begins with neither a letter nor a decimal digit. -/
theorem month?_append {month : Text} (hmonth : Month.IsToken month) {c : Char}
    (hletter : c.isAlpha = false) (hdecimal : isDecimal c = false) (rest : Text) :
    month? (month ++ c :: rest) = some (month, c :: rest) := by
  unfold month?
  obtain ⟨hsome, hletters | hdecimals⟩ := hmonth
  · rw [some?_append_cons hsome hletters hletter]
  · have hnone : some? Char.isAlpha (month ++ c :: rest) = none := by
      obtain ⟨d, more, rfl⟩ := List.exists_cons_of_ne_nil hsome
      have hd := isAlpha_of_isDigit (isDigit_of_isDecimal (hdecimals d List.mem_cons_self))
      simp [some?, hd]
    rw [hnone, some?_append_cons hsome hdecimals hdecimal]

theorem beginsSolid_of_isToken {month : Text} (h : Month.IsToken month) :
    beginsSolid month = true := by
  obtain ⟨hsome, hletters | hdecimals⟩ := h
  · exact beginsSolid_of_forall hsome fun c hc => isBlank_of_isAlpha (hletters c hc)
  · exact IsDigits.beginsSolid ⟨hsome, hdecimals⟩

/-- A scanner for texts of a kind reads one before a mark just if the text opens with both: what it
reads is of the kind, and it reads up to white space or the mark. -/
theorem read_mark_iff {scan : Text → Option (Text × Text)} {kind : Text → Prop} {mark : Char}
    (hsolid : ∀ {read}, kind read → beginsSolid read = true)
    (hspec : ∀ {t read rest}, scan t = some (read, rest) → t = read ++ rest ∧ kind read)
    (happend : ∀ {read c}, kind read → isBlank c = true ∨ c = mark → ∀ rest,
      scan (read ++ c :: rest) = some (read, c :: rest)) {t read rest : Text} :
    (∃ behind, scan (stripStart t) = some (read, behind) ∧ Opens [[mark]] behind rest) ↔
      kind read ∧ Opens [read, [mark]] t rest := by
  constructor
  · rintro ⟨behind, hscan, hmark⟩
    obtain ⟨hsplit, hkind⟩ := hspec hscan
    refine ⟨hkind, opens_cons_iff.mpr ⟨behind, ?_, hmark⟩⟩
    exact (stripStart_eq_append_iff (hsolid hkind)).mp hsplit
  · rintro ⟨hkind, h⟩
    obtain ⟨behind, hopens, hmark⟩ := opens_cons_iff.mp h
    obtain ⟨c, more, rfl, hc⟩ := hmark.exists_cons
    refine ⟨c :: more, ?_, hmark⟩
    rw [(stripStart_eq_append_iff (hsolid hkind)).mpr hopens]
    exact happend hkind hc more

/-- A month is read up to a comma just if it is one. -/
theorem month?_comma_iff {t month rest : Text} :
    (∃ behind, month? (stripStart t) = some (month, behind) ∧ Opens [","] behind rest) ↔
      Month.IsToken month ∧ Opens [month, ","] t rest := by
  refine read_mark_iff beginsSolid_of_isToken month?_spec ?_
  rintro month c hmonth (hblank | rfl)
  · exact month?_append hmonth (isAlpha_of_isBlank hblank) (isDecimal_of_isBlank hblank)
  · exact month?_append hmonth (by decide) (by decide)

theorem day_close_iff {t day rest : Text} :
    (∃ behind, oneOrTwoDigits? (stripStart t) = some (day, behind) ∧ Opens [")"] behind rest) ↔
      IsShortNumber day ∧ Opens [day, ")"] t rest := by
  refine read_mark_iff (fun h => IsDigits.beginsSolid ⟨h.nonempty, h.decimal⟩)
    oneOrTwoDigits?_spec ?_
  rintro day c hday (hblank | rfl)
  · exact oneOrTwoDigits?_append hday (isDecimal_of_isBlank hblank)
  · exact oneOrTwoDigits?_append hday (by decide)

theorem digits_close_iff {t digits rest : Text} :
    (∃ behind, some? isDecimal (stripStart t) = some (digits, behind) ∧ Opens [")"] behind rest) ↔
      IsDigits digits ∧ Opens [digits, ")"] t rest := by
  refine read_mark_iff IsDigits.beginsSolid some?_spec ?_
  rintro digits c hdigits (hblank | rfl)
  · exact some?_append_cons hdigits.1 hdigits.2 (isDecimal_of_isBlank hblank)
  · exact some?_append_cons hdigits.1 hdigits.2 (by decide)

/-! ## Dates of a month -/

/-- The text opens with a date of a month. -/
def OpensDate (month day t rest : Text) : Prop :=
  Month.IsToken month ∧ IsShortNumber day ∧ ∃ year ∈ yearNames, ∃ behind, t = "date" ++ behind ∧
    Opens ["(", year, ",", month, ",", day, ")"] behind rest

theorem opens_mark_iff {mark : Char} (hmark : isBlank mark = false) {t rest : Text} :
    afterBlank? [mark] t = some rest ↔ Opens [[mark]] t rest :=
  afterBlank?_eq_some_iff (by simpa [beginsSolid] using hmark)

/-- A scanner reads the dates of a month that a text opens with, and no others. -/
theorem fixedDate?_eq_some_iff {t month day : Text} :
    fixedDate? t = some (month, day) ↔ ∃ rest, OpensDate month day t rest := by
  simp only [fixedDate?, Option.bind_eq_bind, Option.bind_eq_some_iff]
  constructor
  · rintro ⟨t₁, hdate, t₂, hopen, t₃, hyear, t₄, hcomma, ⟨month, t₅⟩, hmonth, t₆, hcomma',
      ⟨day, t₇⟩, hday, rest, hclose, hresult⟩
    obtain ⟨rfl, rfl⟩ := Prod.mk.inj (Option.some.inj hresult)
    obtain ⟨year, hname, hyear⟩ := afterYear?_eq_some_iff.mp hyear
    obtain ⟨htoken, hmonth⟩ := month?_comma_iff.mp
      ⟨t₅, hmonth, (opens_mark_iff (by decide)).mp hcomma'⟩
    obtain ⟨hshort, hday⟩ := day_close_iff.mp ⟨t₇, hday, (opens_mark_iff (by decide)).mp hclose⟩
    have hopen := (opens_mark_iff (by decide)).mp hopen
    have hcomma := (opens_mark_iff (by decide)).mp hcomma
    exact ⟨rest, htoken, hshort, year, hname, t₁, after?_eq_some_iff.mp hdate,
      hopen.trans (hyear.trans (hcomma.trans (hmonth.trans hday)))⟩
  · rintro ⟨rest, htoken, hshort, year, hname, t₁, rfl, h⟩
    obtain ⟨t₂, hopen, h⟩ := opens_cons_iff.mp h
    obtain ⟨t₃, hyear, h⟩ := opens_cons_iff.mp h
    obtain ⟨t₄, hcomma, h⟩ := opens_cons_iff.mp h
    obtain ⟨t₆, hmonth, hday⟩ := (@opens_append_iff [month, ","] _ _ _).mp h
    obtain ⟨t₅, hmonth, hcomma'⟩ := month?_comma_iff.mpr ⟨htoken, hmonth⟩
    obtain ⟨t₇, hday, hclose⟩ := day_close_iff.mpr ⟨hshort, hday⟩
    exact ⟨t₁, after?_self "date" t₁, t₂, (opens_mark_iff (by decide)).mpr hopen, t₃,
      afterYear?_eq_some_iff.mpr ⟨year, hname, hyear⟩, t₄, (opens_mark_iff (by decide)).mpr hcomma,
      (month, t₅), hmonth, t₆, (opens_mark_iff (by decide)).mpr hcomma', (day, t₇), hday, rest,
      (opens_mark_iff (by decide)).mpr hclose, rfl⟩

/-! ## Numbers of days -/

/-- The text opens with a number of days: the name of a span, and in its parentheses the keyword for
days, a sign or none, and decimal digits. -/
def OpensSpan (negative : Bool) (digits t rest : Text) : Prop :=
  IsDigits digits ∧ ∃ span ∈ spanNames, ∃ sign, IsSign sign negative ∧
    Opens [span, "(", "days", "=", sign, digits, ")"] t rest

/-- The letters of a name, behind white space, up to the parenthesis that opens. -/
theorem some?_of_opens_name {name t rest : Text} (hname : beginsSolid name = true)
    (hletters : name.all Char.isAlpha = true) (h : Opens [name, "("] t rest) :
    ∃ behind, some? Char.isAlpha (stripStart t) = some (name, behind) := by
  obtain ⟨behind, hopens, hopen⟩ := opens_cons_iff.mp h
  obtain ⟨c, more, rfl, hc⟩ := hopen.exists_cons
  have hsome : name ≠ [] := by
    rintro rfl
    cases hname
  refine ⟨c :: more, ?_⟩
  rw [(stripStart_eq_append_iff hname).mpr hopens]
  refine some?_append_cons hsome (List.all_eq_true.mp hletters) ?_ more
  rcases hc with hblank | rfl
  · exact isAlpha_of_isBlank hblank
  · decide

theorem span_iff {t rest : Text} :
    (spanNames.findSome? fun name => (afterBlank? name t).bind (afterBlank? "(")) = some rest ↔
      ∃ span ∈ spanNames, Opens [span, "("] t rest := by
  have hnames : ∀ span ∈ spanNames, beginsSolid span = true ∧ span.all Char.isAlpha = true := by
    decide
  have hread : ∀ span ∈ spanNames, ∀ behind,
      (afterBlank? span t).bind (afterBlank? "(") = some behind ↔ Opens [span, "("] t behind := by
    intro span hspan behind
    rw [Option.bind_eq_some_iff, opens_cons_iff]
    refine exists_congr fun later => and_congr (afterBlank?_eq_some_iff (hnames span hspan).1) ?_
    exact opens_mark_iff (by decide)
  constructor
  · intro h
    obtain ⟨span, hspan, hfound⟩ := List.exists_of_findSome?_eq_some h
    exact ⟨span, hspan, (hread span hspan rest).mp hfound⟩
  · rintro ⟨span, hspan, h⟩
    have hfound := (hread span hspan rest).mpr h
    cases hfirst : spanNames.findSome? fun name =>
        (afterBlank? name t).bind (afterBlank? "(") with
    | none =>
        rw [List.findSome?_eq_none_iff.mp hfirst span hspan] at hfound
        cases hfound
    | some other =>
        -- the name that comes first in the list stands at the same place, so it is the same
        obtain ⟨first, hmem, hother⟩ := List.exists_of_findSome?_eq_some hfirst
        obtain ⟨later, hname⟩ := some?_of_opens_name (hnames span hspan).1 (hnames span hspan).2 h
        obtain ⟨later', hname'⟩ := some?_of_opens_name (hnames first hmem).1
          (hnames first hmem).2 ((hread first hmem other).mp hother)
        obtain ⟨rfl, -⟩ := Prod.mk.inj (Option.some.inj (hname.symm.trans hname'))
        exact hother.symm.trans hfound

theorem days?_eq_some_iff {backward b : Bool} {digits t : Text} :
    days? backward t = some ⟨b, digits⟩ ↔
      b = backward ∧ IsDigits digits ∧ ∃ rest, Opens [digits, ")"] t rest := by
  simp only [days?, Option.bind_eq_some_iff]
  constructor
  · rintro ⟨⟨found, behind⟩, hread, rest, hclose, hshift⟩
    obtain ⟨rfl, rfl⟩ := Shift.mk.inj (Option.some.inj hshift)
    obtain ⟨hdigits, hopens⟩ := digits_close_iff.mp
      ⟨behind, hread, (opens_mark_iff (by decide)).mp hclose⟩
    exact ⟨rfl, hdigits, rest, hopens⟩
  · rintro ⟨rfl, hdigits, rest, h⟩
    obtain ⟨behind, hread, hclose⟩ := digits_close_iff.mpr ⟨hdigits, h⟩
    exact ⟨(digits, behind), hread, rest, (opens_mark_iff (by decide)).mpr hclose, rfl⟩

theorem sign?_eq_some_iff {t rest : Text} {negative : Bool} :
    sign? t = some (negative, rest) ↔ ∃ operator, IsSign [operator] negative ∧
      t = operator :: rest := by
  constructor
  · intro h
    unfold sign? at h
    split at h
    next =>
      obtain ⟨rfl, rfl⟩ := Prod.mk.inj (Option.some.inj h)
      exact ⟨'+', .plus, rfl⟩
    next =>
      obtain ⟨rfl, rfl⟩ := Prod.mk.inj (Option.some.inj h)
      exact ⟨'-', .minus, rfl⟩
    next => cases h
  · rintro ⟨operator, hsign, rfl⟩
    cases hsign <;> rfl

theorem sign?_append {digits : Text} (h : IsDigits digits) (rest : Text) :
    sign? (digits ++ rest) = none := by
  obtain ⟨d, more, rfl⟩ := List.exists_cons_of_ne_nil h.1
  have hd := h.2 d List.mem_cons_self
  rw [List.cons_append]
  unfold sign?
  split
  next hsplit =>
    obtain ⟨rfl, -⟩ := List.cons.inj hsplit
    exact absurd hd (by decide)
  next hsplit =>
    obtain ⟨rfl, -⟩ := List.cons.inj hsplit
    exact absurd hd (by decide)
  next => rfl

theorem opens_sign_iff {t rest : Text} {negative : Bool} :
    sign? (stripStart t) = some (negative, rest) ↔
      ∃ operator, IsSign [operator] negative ∧ Opens [[operator]] t rest := by
  rw [sign?_eq_some_iff]
  refine exists_congr fun operator => and_congr_right fun hsign => ?_
  have hmark : beginsSolid [operator] = true := by cases hsign <;> decide
  exact stripStart_eq_append_iff hmark

theorem signedDays?_of_sign {outer negative : Bool} {operator : Char} {digits t rest : Text}
    (hoperator : IsSign [operator] negative) (hdigits : IsDigits digits)
    (h : Opens [[operator], digits, ")"] t rest) :
    signedDays? outer (stripStart t) = some ⟨outer != negative, digits⟩ := by
  obtain ⟨behind, hmark, hdays⟩ := opens_cons_iff.mp h
  rw [signedDays?, opens_sign_iff.mpr ⟨operator, hoperator, hmark⟩]
  exact days?_eq_some_iff.mpr ⟨rfl, hdigits, rest, hdays⟩

theorem signedDays?_of_digits {outer : Bool} {digits t rest : Text} (hdigits : IsDigits digits)
    (h : Opens [digits, ")"] t rest) :
    signedDays? outer (stripStart t) = some ⟨outer, digits⟩ := by
  obtain ⟨behind, hfront, hclose⟩ := opens_cons_iff.mp h
  have hstart := (stripStart_eq_append_iff hdigits.beginsSolid).mpr hfront
  rw [signedDays?, hstart, sign?_append hdigits behind]
  refine days?_eq_some_iff.mpr ⟨rfl, hdigits, rest, opens_cons_iff.mpr ⟨behind, ?_, hclose⟩⟩
  exact opens_singleton_iff.mpr ⟨[], List.forall_mem_nil _, rfl⟩

theorem signedDays?_eq_some_iff {outer b : Bool} {digits t : Text} :
    signedDays? outer (stripStart t) = some ⟨b, digits⟩ ↔
      ∃ sign negative, IsSign sign negative ∧ b = (outer != negative) ∧ IsDigits digits ∧
        ∃ rest, Opens [sign, digits, ")"] t rest := by
  constructor
  · intro h
    unfold signedDays? at h
    split at h
    next =>
      obtain ⟨rfl, hdigits, rest, hopens⟩ := days?_eq_some_iff.mp h
      obtain ⟨blanks, hblanks, hsplit⟩ := stripStart_split t
      refine ⟨[], false, .none, by simp, hdigits, rest, opens_cons_iff.mpr ⟨_, ?_, hopens⟩⟩
      exact opens_singleton_iff.mpr ⟨blanks, hblanks, hsplit⟩
    next negative behind hsign =>
      obtain ⟨rfl, hdigits, rest, hopens⟩ := days?_eq_some_iff.mp h
      obtain ⟨operator, hoperator, hbehind⟩ := opens_sign_iff.mp hsign
      exact ⟨_, _, hoperator, rfl, hdigits, rest, opens_cons_iff.mpr ⟨_, hbehind, hopens⟩⟩
  · rintro ⟨sign, negative, hsign, rfl, hdigits, rest, hopens⟩
    cases hsign with
    | none =>
        rw [Bool.bne_false]
        exact signedDays?_of_digits hdigits hopens.of_nil_cons
    | plus => exact signedDays?_of_sign .plus hdigits hopens
    | minus => exact signedDays?_of_sign .minus hdigits hopens

/-- A scanner reads the shifts that a text opens with, and no others. -/
theorem shift?_eq_some_iff {t digits : Text} {backward : Bool} :
    shift? t = some ⟨backward, digits⟩ ↔ ∃ operator outer negative behind rest,
      IsSign [operator] outer ∧ Opens [[operator]] t behind ∧
        OpensSpan negative digits behind rest ∧ backward = (outer != negative) := by
  simp only [shift?_eq, Option.bind_eq_some_iff]
  constructor
  · rintro ⟨⟨outer, behind⟩, hsign, t₁, hspan, t₂, hdays, t₃, hequals, hsigned⟩
    obtain ⟨operator, hoperator, hbehind⟩ := opens_sign_iff.mp hsign
    obtain ⟨span, hname, hspan⟩ := span_iff.mp hspan
    obtain ⟨sign, negative, hinner, rfl, hdigits, rest, hsigned⟩ :=
      signedDays?_eq_some_iff.mp hsigned
    have hdays := (afterBlank?_eq_some_iff (by decide)).mp hdays
    have hequals := (opens_mark_iff (by decide)).mp hequals
    exact ⟨operator, outer, negative, behind, rest, hoperator, hbehind, ⟨hdigits, span, hname, sign,
      hinner, hspan.trans (hdays.trans (hequals.trans hsigned))⟩, rfl⟩
  · rintro ⟨operator, outer, negative, behind, rest, hoperator, hbehind,
      ⟨hdigits, span, hname, sign, hinner, h⟩, rfl⟩
    obtain ⟨t₁, hspan, h⟩ := (@opens_append_iff [span, "("] _ _ _).mp h
    obtain ⟨t₂, hdays, h⟩ := opens_cons_iff.mp h
    obtain ⟨t₃, hequals, h⟩ := opens_cons_iff.mp h
    exact ⟨(outer, behind), opens_sign_iff.mpr ⟨operator, hoperator, hbehind⟩, t₁,
      span_iff.mpr ⟨span, hname, hspan⟩, t₂,
      (afterBlank?_eq_some_iff (by decide)).mpr hdays, t₃,
      (opens_mark_iff (by decide)).mpr hequals,
      signedDays?_eq_some_iff.mpr ⟨sign, negative, hinner, rfl, hdigits, rest, h⟩⟩

/-! ## Easter Sunday -/

/-- The text opens with a call for Easter Sunday of the year. -/
def OpensEaster (t rest : Text) : Prop :=
  ∃ year ∈ yearNames, ∃ behind, t = "easter" ++ behind ∧ Opens ["(", year, ")"] behind rest

/-- A scanner reads the calls for Easter Sunday that a text opens with, and no others, and the shift
behind one if there is one. -/
theorem easter?_eq_some_iff {t : Text} {shift : Option Shift} :
    easter? t = some shift ↔ ∃ rest, OpensEaster t rest ∧ shift? rest = shift := by
  simp only [easter?, Option.bind_eq_bind, Option.bind_eq_some_iff]
  constructor
  · rintro ⟨t₁, heaster, t₂, hopen, t₃, hyear, rest, hclose, hshift⟩
    obtain ⟨year, hname, hyear⟩ := afterYear?_eq_some_iff.mp hyear
    have hopen := (opens_mark_iff (by decide)).mp hopen
    have hclose := (opens_mark_iff (by decide)).mp hclose
    exact ⟨rest, ⟨year, hname, t₁, after?_eq_some_iff.mp heaster,
      hopen.trans (hyear.trans hclose)⟩, Option.some.inj hshift⟩
  · rintro ⟨rest, ⟨year, hname, t₁, rfl, h⟩, rfl⟩
    obtain ⟨t₂, hopen, h⟩ := opens_cons_iff.mp h
    obtain ⟨t₃, hyear, hclose⟩ := opens_cons_iff.mp h
    exact ⟨t₁, after?_self "easter" t₁, t₂, (opens_mark_iff (by decide)).mpr hopen, t₃,
      afterYear?_eq_some_iff.mpr ⟨year, hname, hyear⟩, rest,
      (opens_mark_iff (by decide)).mpr hclose, rfl⟩

end Almanac.Holiday.DateExpression
