import Almanac.Proofs.Country.Containment
import Almanac.Proofs.Country.QuotedTexts
import Almanac.Proofs.Text.Occurrences
import Almanac.Proofs.Text.Stripping

/-!
# Usable files that are refused

The test of relevance and the structural strategy have their own notions of a class and of a
registration call. A file from which the strategy gets definitions passes the test if one of its
classes is declared in the plain form at the start of a line, and one of its calls is none of
seventeen feasts. The names of these feasts hold none of the five methods that the test looks for,
so a file with no other calls is refused although there is a holiday in it.
-/

namespace Almanac.Country

open Almanac.Text Almanac.Holiday Almanac.Source Almanac.Registration Almanac.Strategy

/-! ## Declarations of classes -/

/-- A name that an ASCII letter or underscore opens. -/
def IsName (t : Text) : Prop :=
  ∃ c rest, t = c :: rest ∧ opensIdentifier c = true ∧ ∀ d ∈ rest, isWord d = true

/-- The text opens with the declaration of a class: white space, the keyword, white space and a
name, and then a parenthesis or a colon, before which more white space may stand. -/
def Declares (t : Text) : Prop :=
  ∃ lead gap name space mark rest,
    t = lead ++ ("class".toList ++ (gap ++ (name ++ (space ++ mark :: rest)))) ∧
      (∀ c ∈ lead, isBlank c = true) ∧ (gap ≠ [] ∧ ∀ c ∈ gap, isBlank c = true) ∧ IsName name ∧
      (∀ c ∈ space, isBlank c = true) ∧ (mark = '(' ∨ mark = ':')

/-- What stands behind a declaration does not matter to it. -/
theorem Declares.append {t : Text} (h : Declares t) (z : Text) : Declares (t ++ z) := by
  obtain ⟨lead, gap, name, space, mark, rest, rfl, hlead, hgap, hname, hspace, hmark⟩ := h
  exact ⟨lead, gap, name, space, mark, rest ++ z, by simp, hlead, hgap, hname, hspace, hmark⟩

theorem opensIdentifier_notBlank {c : Char} (hc : opensIdentifier c = true) :
    isBlank c = false := by
  cases hblank : isBlank c with
  | false => rfl
  | true =>
      have halpha := isAlpha_of_isBlank hblank
      have hword := isWord_of_isBlank hblank
      rw [opensIdentifier, halpha, Bool.false_or, decide_eq_true_iff] at hc
      subst hc
      cases hword

/-- A name is read where no word character follows it. -/
theorem name?_append {name rest : Text} (hname : IsName name)
    (hrest : ∀ c ∈ rest.head?, isWord c = false) : name? (name ++ rest) = some (name, rest) := by
  obtain ⟨c, tail, rfl, hopens, htail⟩ := hname
  rw [List.cons_append, name?, if_pos hopens, takeWhile_span htail hrest,
    dropWhile_span htail hrest]

theorem declaration?_of_declares {t : Text} (h : Declares t) : declaration? t = some () := by
  obtain ⟨lead, gap, name, space, mark, rest, rfl, hlead, hgap, hname, hspace, hmark⟩ := h
  have hmarkBlank : isBlank mark = false := by rcases hmark with rfl | rfl <;> decide
  have hmarkWord : isWord mark = false := by rcases hmark with rfl | rfl <;> decide
  obtain ⟨first, tail, hfirst, hopens, -⟩ := id hname
  have hbehind : ∀ c ∈ (space ++ mark :: rest).head?, isWord c = false := by
    cases space with
    | nil =>
        rintro _ ⟨⟩
        exact hmarkWord
    | cons c space =>
        rintro _ ⟨⟩
        exact isWord_of_isBlank (hspace c List.mem_cons_self)
  have hclass : stripStart (lead ++ ("class".toList ++ (gap ++ (name ++ (space ++ mark :: rest)))))
      = "class".toList ++ (gap ++ (name ++ (space ++ mark :: rest))) :=
    stripStart_append_cons hlead (by decide) _
  have hgapRead : some? isBlank (gap ++ (name ++ (space ++ mark :: rest))) =
      some (gap, name ++ (space ++ mark :: rest)) := by
    rw [hfirst]
    exact some?_append_cons hgap.1 hgap.2 (opensIdentifier_notBlank hopens) _
  have hnameRead :
      name? (name ++ (space ++ mark :: rest)) = some (name, space ++ mark :: rest) :=
    name?_append hname hbehind
  unfold declaration? afterClass?
  rw [hclass, after?_self]
  simp only [Option.bind_eq_bind, Option.bind_some, hgapRead, Option.pure_def, hnameRead,
    stripStart_append_cons hspace hmarkBlank, if_pos hmark]

theorem name?_spec {t name rest : Text} (h : name? t = some (name, rest)) :
    t = name ++ rest ∧ IsName name := by
  cases t with
  | nil => cases h
  | cons c tail =>
      rw [name?] at h
      split at h
      next hopens =>
        obtain ⟨rfl, rfl⟩ := Prod.mk.inj (Option.some.inj h)
        refine ⟨by rw [List.cons_append, List.takeWhile_append_dropWhile], c, _, rfl, hopens, ?_⟩
        exact fun d hd => List.mem_takeWhile_imp hd
      next => cases h

theorem declares_of_declaration? {t : Text} (h : declaration? t = some ()) : Declares t := by
  unfold declaration? afterClass? at h
  simp only [Option.bind_eq_bind, Option.bind_eq_some_iff, Option.pure_def, Option.some.injEq,
    Prod.exists] at h
  obtain ⟨behindClass, ⟨afterWord, hclass, gap, _, hgap, rfl⟩, name, behindName, hname, hmark⟩ := h
  obtain ⟨lead, hlead, ht⟩ := stripStart_split t
  obtain ⟨hgapSplit, hgapBlank⟩ := some?_spec hgap
  obtain ⟨hnameSplit, hisName⟩ := name?_spec hname
  obtain ⟨space, hspace, hbehind⟩ := stripStart_split behindName
  cases hstrip : stripStart behindName with
  | nil => simp [hstrip] at hmark
  | cons mark rest =>
      rw [hstrip] at hmark hbehind
      have hopens : mark = '(' ∨ mark = ':' := by
        by_contra hneither
        simp [hneither] at hmark
      refine ⟨lead, gap, name, space, mark, rest, ?_, hlead, hgapBlank, hisName, hspace,
        hopens⟩
      rw [ht, after?_eq_some_iff.mp hclass, hgapSplit, hnameSplit, hbehind]

theorem declaration?_iff (t : Text) : (declaration? t).isSome = true ↔ Declares t := by
  rw [Option.isSome_iff_exists]
  constructor
  · rintro ⟨⟨⟩, h⟩
    exact declares_of_declaration? h
  · exact fun h => ⟨(), declaration?_of_declares h⟩

/-! ## What the test of relevance looks for -/

/-- A class is declared somewhere at the beginning of a line that a line feed opens. -/
def DeclaresClass (t : Text) : Prop :=
  ∃ before after, t = before ++ after ∧ OpensLine before ∧ Declares after

/-- One of the five registration methods is mentioned somewhere. -/
def MentionsRegistration (t : Text) : Prop :=
  ∃ marker ∈ registrationMarkers, marker <:+: t

theorem findLine?_declaration_isNone_iff (t : Text) :
    (findLine? declaration? t).isNone = true ↔ ¬ DeclaresClass t := by
  rw [← Option.not_isSome, Bool.not_eq_true', ← Bool.not_eq_true, not_iff_not,
    isSome_findLine?_iff rfl]
  simp only [declaration?_iff]
  rfl

theorem any_contains_iff (t : Text) :
    (registrationMarkers.any fun marker => contains marker t) = true ↔ MentionsRegistration t := by
  rw [List.any_eq_true]
  simp only [contains_iff]
  rfl

/-- A file passes the test just if it declares a class and mentions a registration method. -/
theorem irrelevance?_eq_none_iff (t : Text) :
    irrelevance? t = none ↔ DeclaresClass t ∧ MentionsRegistration t := by
  unfold irrelevance?
  split
  next hnone => simp [(findLine?_declaration_isNone_iff t).mp hnone]
  next hsome =>
    rw [findLine?_declaration_isNone_iff, not_not] at hsome
    split
    next hany => simp [hsome, (any_contains_iff t).mp hany]
    next hany => simp [mt (any_contains_iff t).mpr hany]

/-- In a file whose lines are broken by line feeds, a line that declares a class counts. -/
theorem declaresClass_of_mem_lines {t line : Text} (hbreaks : BreaksAtFeeds t)
    (hline : line ∈ lines t) (hdeclares : Declares line) : DeclaresClass t := by
  obtain ⟨before, after, rfl, hopens⟩ := split_of_mem_lines hbreaks hline
  exact ⟨before, line ++ after, rfl, hopens, hdeclares.append after⟩

/-! ## Calls and the methods that are looked for -/

theorem infix_of_named? {name : Text} {method : Registration.Method} {t : Text} {site : Site}
    (h : Shape.named? name method t = some site) : site.method = method ∧ name <:+: t := by
  unfold Shape.named? at h
  simp only [Option.bind_eq_bind, Option.bind_eq_some_iff, Option.pure_def,
    Option.some.injEq] at h
  obtain ⟨rest, hname, arguments, -, rfl⟩ := h
  exact ⟨rfl, [], rest, (after?_eq_some_iff.mp hname).symm⟩

theorem prefix_of_dated? {t : Text} {site : Site} (h : Shape.dated? t = some site) :
    "_add_holiday_".toList <+: site.method.name ∧ site.method.name <+: t := by
  unfold Shape.dated? at h
  simp only [Option.bind_eq_bind, Option.bind_eq_some_iff] at h
  obtain ⟨behind, hopening, h⟩ := h
  split at h
  next a b c rest =>
    split at h
    next =>
      simp only [Option.bind_eq_some_iff, Option.pure_def, Option.some.injEq, Prod.exists] at h
      obtain ⟨day, behindDay, hday, arguments, -, rfl⟩ := h
      refine ⟨⟨[a, b, c, '_'] ++ day, by simp [Registration.Method.name]⟩, behindDay, ?_⟩
      rw [after?_eq_some_iff.mp hopening, (oneOrTwoDigits?_spec hday).1]
      simp [Registration.Method.name]
    next => cases h
  next => cases h

/-- The feasts whose methods hold none of the names that the test of relevance looks for. -/
def unlistedFeasts : List Text :=
  (feasts.map Prod.fst).filter fun name =>
    !registrationMarkers.any fun marker => contains marker name

example : unlistedFeasts.length = 17 := by decide +kernel

/-- The method of a call is written at its site, and holds a name that the test looks for unless
it is that of an unlisted feast. -/
theorem method?_spec {shape : Shape} {t : Text} {site : Site} (h : shape.method? t = some site) :
    site.method.name <:+: t ∧
      (site.method.name ∉ unlistedFeasts → MentionsRegistration site.method.name) := by
  have hlisted : ∀ marker ∈ registrationMarkers, MentionsRegistration marker :=
    fun marker hmem => ⟨marker, hmem, List.infix_refl marker⟩
  cases shape with
  | generic =>
      obtain ⟨hmethod, hwithin⟩ := infix_of_named? h
      rw [hmethod]
      exact ⟨hwithin, fun _ => hlisted _ (by decide)⟩
  | easterBased =>
      obtain ⟨hmethod, hwithin⟩ := infix_of_named? h
      rw [hmethod]
      exact ⟨hwithin, fun _ => hlisted _ (by decide)⟩
  | weekdayBased =>
      obtain ⟨hmethod, hwithin⟩ := infix_of_named? h
      rw [hmethod]
      exact ⟨hwithin, fun _ => hlisted _ (by decide)⟩
  | dateSuffixed =>
      obtain ⟨hopening, hmethod⟩ := prefix_of_dated? h
      refine ⟨hmethod.isInfix, fun _ => ⟨"_add_holiday", by decide, ?_⟩⟩
      exact (List.IsPrefix.trans ⟨['_'], by decide⟩ hopening).isInfix
  | namedHelper =>
      obtain ⟨⟨name, date⟩, hmem, hnamed⟩ := List.exists_of_findSome?_eq_some h
      obtain ⟨hmethod, hwithin⟩ := infix_of_named? hnamed
      rw [hmethod]
      refine ⟨hwithin, fun hunlisted => ?_⟩
      rw [← any_contains_iff]
      by_contra hnone
      exact hunlisted (List.mem_filter.mpr ⟨List.mem_map_of_mem hmem, by simpa using hnone⟩)

theorem MentionsRegistration.mono {t u : Text} (h : MentionsRegistration t) (hwithin : t <:+: u) :
    MentionsRegistration u := by
  obtain ⟨marker, hmem, hmarker⟩ := h
  exact ⟨marker, hmem, hmarker.trans hwithin⟩

/-- A line with a call of a listed method mentions it. -/
theorem mentions_of_site? {shape : Shape} {line : Text} {site : Site}
    (h : shape.site? line = some site) (hlisted : site.method.name ∉ unlistedFeasts) :
    MentionsRegistration line := by
  obtain ⟨before, after, rfl, -, hsite⟩ := split_of_search_eq_some h
  obtain ⟨behind, hself, hmethod⟩ := Option.bind_eq_some_iff.mp hsite
  obtain ⟨hwithin, hmentions⟩ := method?_spec hmethod
  refine (hmentions hlisted).mono (hwithin.trans ?_)
  rw [after?_eq_some_iff.mp hself]
  exact ⟨before ++ "self.".toList, [], by simp⟩

/-- A file with a call of a listed method mentions it. -/
theorem mentions_of_mem_found {t : Text} {calls : Calls}
    (hcalls : Calls.ofText .standard t = .ok calls) {call : Call} (hmem : call ∈ calls.found)
    (hlisted : call.method ∉ unlistedFeasts) : MentionsRegistration t := by
  obtain ⟨before, line, following, hlines, hcall⟩ := (Calls.mem_found_iff hcalls call).mp hmem
  have hline : line ∈ lines t := by rw [hlines]; simp
  obtain ⟨shape, site, arguments, name, date, hsite, -, rfl⟩ :=
    Calls.exists_contents_of_atLine hcall
  obtain ⟨other, -, hfound⟩ := List.exists_of_findSome?_eq_some hsite
  obtain ⟨site', hsite', heq⟩ := Option.map_eq_some_iff.mp hfound
  obtain ⟨rfl, rfl⟩ := Prod.mk.inj heq
  exact (mentions_of_site? hsite' hlisted).mono (infix_of_mem_lines hline)

/-! ## Files with definitions -/

/-- A catalog with definitions comes from a file with classes, and from calls behind the first. -/
theorem calls_of_structural {t : Text} {catalog : Catalog}
    (husable : (structural TokenRule.all .suffix t).outcome = .ok catalog) (hsome : catalog ≠ []) :
    ∃ calls first others, Calls.ofText .standard t = .ok calls ∧
      (Outline.ofText TokenRule.all t).classes = first :: others ∧
        callsFrom first calls.found ≠ [] := by
  cases hcalls : Calls.ofText .standard t with
  | error fault =>
      cases hclasses : (Outline.ofText TokenRule.all t).classes with
      | nil =>
          rw [structural_outcome_of_noClass _ hclasses] at husable
          cases husable
      | cons first others =>
          rw [structural_outcome_of_class _ hclasses, hcalls] at husable
          cases husable
  | ok calls =>
      rcases Reading.structural_outcome_cases TokenRule.all .suffix hcalls with
        ⟨-, houtcome⟩ | ⟨first, others, hclasses, houtcome⟩
      · rw [houtcome] at husable
        cases husable
      · refine ⟨calls, first, others, rfl, hclasses, fun hnone => ?_⟩
        rw [houtcome, hnone] at husable
        exact hsome (Except.ok.inj husable).symm

/-- A file from which the structural strategy gets definitions is refused just if it declares no
class at the beginning of a line or mentions none of the registration methods. It does declare one
if lines are broken by line feeds and a class of its outline is declared in the plain form on its
line, and it mentions a method if one of its calls is none of an unlisted feast. -/
theorem irrelevance?_of_structural {t : Text} {catalog : Catalog}
    (husable : (structural TokenRule.all .suffix t).outcome = .ok catalog) (hsome : catalog ≠ []) :
    ∃ calls first others, Calls.ofText .standard t = .ok calls ∧
      (Outline.ofText TokenRule.all t).classes = first :: others ∧
      callsFrom first calls.found ≠ [] ∧
      (irrelevance? t = none ↔ DeclaresClass t ∧ MentionsRegistration t) ∧
      (BreaksAtFeeds t → (∃ c ∈ first :: others, ∃ line, (lines t)[c.line - 1]? = some line ∧
        Declares line) → DeclaresClass t) ∧
      ((∃ call ∈ calls.found, call.method ∉ unlistedFeasts) → MentionsRegistration t) := by
  obtain ⟨calls, first, others, hcalls, hclasses, hfound⟩ := calls_of_structural husable hsome
  refine ⟨calls, first, others, hcalls, hclasses, hfound, irrelevance?_eq_none_iff t, ?_, ?_⟩
  · rintro hbreaks ⟨c, -, line, hline, hdeclares⟩
    exact declaresClass_of_mem_lines hbreaks (List.mem_of_getElem? hline) hdeclares
  · rintro ⟨call, hmem, hlisted⟩
    exact mentions_of_mem_found hcalls hmem hlisted

/-- The file with one class and one call passes. -/
theorem irrelevance?_oneClass :
    ∃ catalog, (structural TokenRule.all .suffix oneClass).outcome = .ok catalog ∧ catalog ≠ [] ∧
      irrelevance? oneClass = none := by
  let first : Source.Class := ⟨"A", [], [], 1⟩
  let call : Call := ⟨"_add_holiday", .generic, "X", .fixed "JAN" 1,
    "self._add_holiday(\"X\", date(year, JAN, 1))", 2⟩
  have hcalls : Calls.ofText .standard oneClass = .ok ⟨[call], []⟩ := by decide +kernel
  have hclasses : (Outline.ofText TokenRule.all oneClass).classes = [first] := by decide +kernel
  have hfeeds : (oneClass.all fun c => !isLineBreak c || c == '\n') = true := by decide +kernel
  have hbreaks : BreaksAtFeeds oneClass :=
    .of_forall fun c hc hbreak => by simpa [hbreak] using List.all_eq_true.mp hfeeds c hc
  obtain ⟨catalog, houtcome, hsome⟩ : ∃ catalog,
      (structural TokenRule.all .suffix oneClass).outcome = .ok catalog ∧ catalog ≠ [] := by
    rw [structural_outcome_of_class _ hclasses, hcalls]
    exact ⟨_, rfl, by decide +kernel⟩
  obtain ⟨_, _, others, hfound, houtline, -, hpasses, hdeclares, hmentions⟩ :=
    irrelevance?_of_structural houtcome hsome
  obtain rfl := Except.ok.inj (hcalls.symm.trans hfound)
  obtain ⟨rfl, rfl⟩ := List.cons.inj (hclasses.symm.trans houtline)
  refine ⟨catalog, houtcome, hsome, hpasses.mpr ⟨hdeclares hbreaks ?_,
    hmentions ⟨call, List.mem_singleton_self call, by decide +kernel⟩⟩⟩
  exact ⟨first, List.mem_singleton_self first, "class A:", by decide +kernel,
    (declaration?_iff _).mp (by decide +kernel)⟩

/-- A class with a call for Good Friday. -/
def goodFriday : Text :=
  "class A:\n    self._add_good_friday(\"Good Friday\")\n"

/-- A class with a parameter between brackets. -/
def bracketedClass : Text :=
  "class A[T]:\n    self._add_holiday(\"X\", date(year, JAN, 1))\n"

/-- A definition comes from each of the files, and both are refused. -/
theorem irrelevance?_goodFriday :
    (structural TokenRule.all .suffix goodFriday).outcome.map List.length = .ok 1 ∧
      irrelevance? goodFriday = some .noRegistration ∧
    (structural TokenRule.all .suffix bracketedClass).outcome.map List.length = .ok 1 ∧
      irrelevance? bracketedClass = some .noClass := by
  refine ⟨?_, ?_, ?_, ?_⟩ <;> decide +kernel

end Almanac.Country
