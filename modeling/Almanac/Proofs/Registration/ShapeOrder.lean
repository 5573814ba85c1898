import Almanac.Proofs.Registration.CallNumbers
import Almanac.Proofs.Registration.SiteLines
import Almanac.Registration.Extractor

/-!
# The order of the shapes

No name of a method belongs to two shapes, though some names begin others, since the name of a call
goes up to its parenthesis. So one shape at most has a call at a place of a line, and whether a line
has a call at all does not depend on the order of the table. The order shows only on a line with
calls at two places.
-/

namespace Almanac.Registration

open Almanac.Text

/-! ## Names of methods -/

namespace Shape

/-- The names of methods that tell no month, each with its shape. -/
def methodNames : List (Shape × Text) :=
  (generic, "_add_holiday") :: (easterBased, "_add_easter_based_holiday") ::
    (weekdayBased, "_add_weekday_holiday") :: feasts.map fun (name, _) => (namedHelper, name)

/-- The shape has calls of the method with this name. -/
inductive HasMethod : Shape → Text → Prop
  | named {shape : Shape} {name : Text} (hname : (shape, name) ∈ methodNames) : HasMethod shape name
  | dated {month day : Text} (hlength : month.length = 3)
      (hmonth : ∀ c ∈ month, isLowerLetter c = true) (hday : IsShortNumber day) :
      HasMethod dateSuffixed ("_add_holiday_" ++ (month ++ '_' :: day))

/-- Does the name of a method end before the character? -/
def endsName (c : Char) : Bool :=
  isBlank c || c = '('

theorem endsName_of_isLowerLetter {c : Char} (hc : isLowerLetter c = true) :
    endsName c = false := by
  have hblank : isBlank c = false := by
    by_contra hblank
    rw [Bool.not_eq_false] at hblank
    rw [isLowerLetter_of_not_isAlpha (isAlpha_of_isBlank hblank)] at hc
    exact Bool.noConfusion hc
  have hopen : c ≠ '(' := by
    rintro rfl
    exact absurd hc (by decide)
  simp [endsName, hblank, hopen]

theorem endsName_of_isDecimal {c : Char} (hc : isDecimal c = true) : endsName c = false := by
  have hopen : c ≠ '(' := by
    rintro rfl
    exact absurd hc (by decide)
  simp [endsName, isBlank_of_isDigit (isDigit_of_isDecimal hc), hopen]

namespace HasMethod

variable {shape : Shape} {name : Text}

theorem notEnds (h : HasMethod shape name) : ∀ c ∈ name, endsName c = false := by
  have hnames : methodNames.all (fun entry => entry.2.all (!endsName ·)) = true := by
    decide +kernel
  have hopening : ("_add_holiday_" : Text).all (!endsName ·) = true := by decide
  cases h with
  | named hname => simpa using List.all_eq_true.mp hnames _ hname
  | dated hlength hmonth hday =>
      simp only [List.forall_mem_append, List.forall_mem_cons]
      exact ⟨by simpa using hopening, fun c hc => endsName_of_isLowerLetter (hmonth c hc),
        by decide, fun c hc => endsName_of_isDecimal (hday.decimal c hc)⟩

/-- The name of a method tells the shape. -/
theorem unique {other : Shape} (h : HasMethod shape name) (hother : HasMethod other name) :
    shape = other := by
  have hnames : ∀ entry ∈ methodNames, ∀ entry' ∈ methodNames, entry.2 = entry'.2 →
      entry.1 = entry'.1 := by decide +kernel
  have hundated : ∀ entry ∈ methodNames, ¬ "_add_holiday_".toList <+: entry.2 := by decide +kernel
  have hapart : ∀ {shape : Shape} {t : Text}, (shape, "_add_holiday_".toList ++ t) ∉ methodNames :=
    fun hmem => hundated _ hmem (List.prefix_append _ _)
  cases h with
  | named hname =>
      generalize htext : name = text at hother
      cases hother with
      | named hname' => exact hnames _ hname _ hname' htext
      | dated => exact absurd (htext ▸ hname) hapart
  | dated =>
      generalize htext : "_add_holiday_".toList ++ _ = text at hother
      cases hother with
      | named hname' => exact absurd (htext ▸ hname') hapart
      | dated => rfl

/-- The name of a method is read up to white space or the parenthesis. -/
theorem takeWhile_eq (h : HasMethod shape name) {blanks : Text}
    (hblanks : ∀ c ∈ blanks, isBlank c = true) (arguments : Text) :
    (name ++ (blanks ++ '(' :: arguments)).takeWhile (!endsName ·) = name := by
  refine takeWhile_span (fun c hc => by simp [h.notEnds c hc]) fun c hc => ?_
  cases blanks with
  | nil =>
      obtain rfl := Option.some.inj hc
      rfl
  | cons d blanks =>
      obtain rfl := Option.some.inj hc
      simp [endsName, hblanks d List.mem_cons_self]

end HasMethod

theorem named?_shows {name t : Text} {method : Method} {site : Site}
    (h : named? name method t = some site) :
    ∃ blanks, (∀ c ∈ blanks, isBlank c = true) ∧ t = name ++ (blanks ++ '(' :: site.arguments) := by
  simp only [named?, Option.bind_eq_bind, Option.bind_eq_some_iff] at h
  obtain ⟨rest, hname, arguments, harguments, h⟩ := h
  obtain rfl := Option.some.inj h
  obtain ⟨blanks, hblanks, hrest⟩ := stripStart_split rest
  rw [after?_eq_some_iff.mp hname, hrest, after?_eq_some_iff.mp harguments]
  exact ⟨blanks, hblanks, rfl⟩

theorem dated?_shows {t : Text} {site : Site} (h : dated? t = some site) :
    ∃ name blanks, HasMethod dateSuffixed name ∧ (∀ c ∈ blanks, isBlank c = true) ∧
      t = name ++ (blanks ++ '(' :: site.arguments) := by
  simp only [dated?, Option.bind_eq_bind, Option.bind_eq_some_iff] at h
  obtain ⟨behind, hopening, h⟩ := h
  split at h
  next a b c rest =>
    split at h
    next hletters =>
      simp only [Option.bind_eq_some_iff] at h
      obtain ⟨⟨day, behindDay⟩, hday, arguments, harguments, h⟩ := h
      obtain rfl := Option.some.inj h
      obtain ⟨hsplit, hshort⟩ := oneOrTwoDigits?_spec hday
      obtain ⟨blanks, hblanks, hrest⟩ := stripStart_split behindDay
      have hmonth : ∀ d ∈ [a, b, c], isLowerLetter d = true := by simpa [and_assoc] using hletters
      refine ⟨_, blanks, @HasMethod.dated [a, b, c] day rfl hmonth hshort, hblanks, ?_⟩
      rw [after?_eq_some_iff.mp hopening, hsplit, hrest, after?_eq_some_iff.mp harguments]
      simp
    next => cases h
  next => cases h

/-- What a shape reads begins with the name of a method of its own. -/
theorem method?_shows {shape : Shape} {t : Text} {site : Site} (h : shape.method? t = some site) :
    ∃ name blanks, HasMethod shape name ∧ (∀ c ∈ blanks, isBlank c = true) ∧
      t = name ++ (blanks ++ '(' :: site.arguments) := by
  have hplain : ∀ {shape : Shape} {name : Text} {method : Method}, (shape, name) ∈ methodNames →
      named? name method t = some site → ∃ name blanks, HasMethod shape name ∧
        (∀ c ∈ blanks, isBlank c = true) ∧ t = name ++ (blanks ++ '(' :: site.arguments) := by
    intro shape name method hname hnamed
    obtain ⟨blanks, hblanks, ht⟩ := named?_shows hnamed
    exact ⟨name, blanks, .named hname, hblanks, ht⟩
  cases shape with
  | generic => exact hplain (by decide) h
  | easterBased => exact hplain (by decide) h
  | weekdayBased => exact hplain (by decide) h
  | dateSuffixed => exact dated?_shows h
  | namedHelper =>
      obtain ⟨⟨name, date⟩, hfeast, hnamed⟩ := List.exists_of_findSome?_eq_some h
      refine hplain ?_ hnamed
      have hname : (namedHelper, name) ∈ feasts.map fun (name, _) => (namedHelper, name) :=
        List.mem_map.mpr ⟨(name, date), hfeast, rfl⟩
      exact List.mem_cons_of_mem _ (List.mem_cons_of_mem _ (List.mem_cons_of_mem _ hname))

end Shape

/-! ## Places of calls -/

/-- A registration call stands at the place of the line: no part of a word is before it, and it goes
up to the parenthesis behind the name of a method. -/
def IsSiteAt (line : Text) (place : Nat) : Prop :=
  ∃ before shape name blanks arguments,
    line = before ++ ("self." ++ (name ++ (blanks ++ '(' :: arguments))) ∧ before.length = place ∧
      (∀ c ∈ before.getLast?, isWord c = false) ∧ Shape.HasMethod shape name ∧
        ∀ c ∈ blanks, isBlank c = true

/-- Registration calls stand at one place of the line at most. -/
def HasOneSite (line : Text) : Prop :=
  ∀ first second, IsSiteAt line first → IsSiteAt line second → first = second

/-- A line with one point has calls at one place at most. -/
theorem HasOneSite.of_count {line : Text} (h : line.count '.' ≤ 1) : HasOneSite line := by
  have hplace : ∀ place, IsSiteAt line place → place + 4 = (line.takeWhile (· ≠ '.')).length := by
    rintro place ⟨before, shape, name, blanks, arguments, rfl, rfl, -⟩
    have hnone : '.' ∉ before := by
      intro hmem
      have hbefore : 0 < before.count '.' := List.count_pos_iff.mpr hmem
      have hself : "self.".toList.count '.' = 1 := by decide
      rw [List.count_append, List.count_append, hself] at h
      omega
    rw [List.takeWhile_append_of_pos fun c hc => by
      rw [decide_eq_true_iff]
      rintro rfl
      exact hnone hc]
    simp
  intro first second hfirst hsecond
  have hboth := (hplace first hfirst).trans (hplace second hsecond).symm
  omega

theorem Shape.site?_shows {shape : Shape} {line : Text} {site : Site}
    (h : shape.site? line = some site) : ∃ before name blanks,
      line = before ++ ("self." ++ (name ++ (blanks ++ '(' :: site.arguments))) ∧
        (∀ c ∈ before.getLast?, isWord c = false) ∧ HasMethod shape name ∧
          ∀ c ∈ blanks, isBlank c = true := by
  obtain ⟨before, behind, rfl, hbars, hsite⟩ := split_of_search_eq_some h
  obtain ⟨rest, hself, hmethod⟩ := Option.bind_eq_some_iff.mp hsite
  obtain ⟨name, blanks, hname, hblanks, rfl⟩ := method?_shows hmethod
  refine ⟨before, name, blanks, by rw [after?_eq_some_iff.mp hself], ?_, hname, hblanks⟩
  intro c hc
  simpa [bars, Option.mem_def.mp hc] using hbars

/-- On a line with calls at one place at most, one shape at most has a call. -/
theorem HasOneSite.shape_unique {line : Text} (hline : HasOneSite line) {shape other : Shape}
    (h : (shape.site? line).isSome = true) (hother : (other.site? line).isSome = true) :
    shape = other := by
  obtain ⟨site, hsite⟩ := Option.isSome_iff_exists.mp h
  obtain ⟨site', hsite'⟩ := Option.isSome_iff_exists.mp hother
  obtain ⟨before, name, blanks, hsplit, hword, hname, hblanks⟩ := Shape.site?_shows hsite
  obtain ⟨before', name', blanks', hsplit', hword', hname', hblanks'⟩ := Shape.site?_shows hsite'
  have hplace : before.length = before'.length :=
    hline _ _ ⟨before, shape, name, blanks, _, hsplit, rfl, hword, hname, hblanks⟩
      ⟨before', other, name', blanks', _, hsplit', rfl, hword', hname', hblanks'⟩
  obtain ⟨-, hself⟩ := List.append_inj (hsplit.symm.trans hsplit') hplace
  have hsame : name = name' := by
    have hnames := congrArg (List.takeWhile (!Shape.endsName ·)) (List.append_cancel_left hself)
    rwa [hname.takeWhile_eq hblanks, hname'.takeWhile_eq hblanks'] at hnames
  exact hname.unique (hsame ▸ hname')

/-! ## Tables in another order -/

theorem findSome?_eq_of_perm {α β : Type} {f : α → Option β} {first second : List α}
    (h : first.Perm second) (hone : ∀ a b, (f a).isSome = true → (f b).isSome = true → a = b) :
    first.findSome? f = second.findSome? f := by
  induction h with
  | nil => rfl
  | cons a _ ih => rw [List.findSome?_cons, List.findSome?_cons, ih]
  | swap a b rest =>
      simp only [List.findSome?_cons]
      cases ha : f a with
      | none => rfl
      | some found =>
          cases hb : f b with
          | none => rfl
          | some found' =>
              obtain rfl := hone a b (by rw [ha]; rfl) (by rw [hb]; rfl)
              rw [← hb, ha]
  | trans _ _ ihFirst ihSecond => exact ihFirst.trans ihSecond

variable {shapes others : List Shape}

theorem firstSite?_perm (h : shapes.Perm others) {line : Text} (hline : HasOneSite line) :
    firstSite? shapes line = firstSite? others line := by
  refine findSome?_eq_of_perm h fun shape other hsite hother => ?_
  rw [Option.isSome_map] at hsite hother
  exact hline.shape_unique hsite hother

theorem hasSite_perm (h : shapes.Perm others) (line : Text) :
    hasSite shapes line = hasSite others line :=
  h.any_eq

theorem continuation_perm (h : shapes.Perm others) (depth : Int) (following : List Text) :
    Arguments.continuation shapes depth following =
      Arguments.continuation others depth following := by
  induction following generalizing depth with
  | nil => rfl
  | cons line rest ih =>
      rw [continuation_cons, continuation_cons, hasSite_perm h, ih, ih]

theorem complete_perm (h : shapes.Perm others) (arguments : Text) (following : List Text) :
    Arguments.complete shapes arguments following =
      Arguments.complete others arguments following := by
  unfold Arguments.complete
  simp only [continuation_perm h]

theorem Calls.atLine_perm (h : shapes.Perm others) (joined : Bool) (number : Nat) {line : Text}
    (hline : HasOneSite line) (following : List Text) :
    atLine ⟨shapes, joined⟩ number line following =
      atLine ⟨others, joined⟩ number line following := by
  unfold atLine
  rw [firstSite?_perm h hline]
  simp only [complete_perm h]

namespace Extractor

/-- Extractors that keep the same errors go on alike with tables in different orders. -/
theorem readLines_perm (h : shapes.Perm others) (joined : Bool) (errors : List CallError)
    (number : Nat) {lines : List Text} (hlines : ∀ line ∈ lines, HasOneSite line) :
    let one := (⟨⟨shapes, joined⟩, errors⟩ : Extractor).readLines number lines
    let other := (⟨⟨others, joined⟩, errors⟩ : Extractor).readLines number lines
    one.1 = other.1 ∧ one.2.errors = other.2.errors := by
  induction lines generalizing errors number with
  | nil => exact ⟨rfl, rfl⟩
  | cons line rest ih =>
      obtain ⟨hline, hrest⟩ := List.forall_mem_cons.mp hlines
      dsimp only
      unfold readLines
      dsimp only
      rw [Calls.atLine_perm h joined number hline rest]
      split
      next => exact ih errors (number + 1) hrest
      next => exact ⟨rfl, rfl⟩
      next fault _ => exact ih (errors ++ [⟨number, fault⟩]) (number + 1) hrest
      next call _ =>
        obtain ⟨hfound, herrors⟩ := ih errors (number + 1) hrest
        exact ⟨congrArg (Except.map (call :: ·)) hfound, herrors⟩

/-- On a file with calls at one place of a line at most, an extractor with the shapes in any order
finds the same calls and keeps the same errors as one with the shapes in the order of the table. -/
theorem extract_of_perm {shapes : List Shape} (hshapes : shapes.Perm Shape.all) {t : Text}
    (hlines : ∀ line ∈ lines t, HasOneSite line) (joined : Bool) (errors errors' : List CallError) :
    let one := (⟨⟨shapes, joined⟩, errors⟩ : Extractor).extract t
    let standard := (⟨⟨Shape.all, joined⟩, errors'⟩ : Extractor).extract t
    one.1 = standard.1 ∧ one.2.errors = standard.2.errors :=
  readLines_perm hshapes joined [] 1 hlines

-- with calls at two places of a line the first shape of the table decides
example : firstSite? Shape.all "self._add_good_friday(); self._add_holiday()" =
      some (.generic, ⟨.plain "_add_holiday", ")"⟩) ∧
    firstSite? Shape.all.reverse "self._add_good_friday(); self._add_holiday()" =
      some (.namedHelper,
        ⟨.feast "_add_good_friday" (.easterBased (-2)), "); self._add_holiday()"⟩) := by
  decide +kernel

/-- A file with names of methods that begin one another, and a call that runs over two lines. -/
def namesakes : Text :=
  "self._add_christmas_day_two(\"B\")\nself._add_holiday_jan_1(x)\nself._add_holiday(\"A\",\n"
    ++ "    date(year, JAN, 1))\nself._add_christmas_day(\"C\")\n"

theorem extract_of_perm_namesakes :
    Shape.all.reverse.Perm Shape.all ∧ (∀ line ∈ lines namesakes, HasOneSite line) ∧
      ((⟨⟨Shape.all.reverse, true⟩, []⟩ : Extractor).extract namesakes).1 =
        .ok [⟨"_add_christmas_day_two", .namedHelper, "B", .fixed "DEC" 26,
            "self._add_christmas_day_two(\"B\")", 1⟩,
          ⟨"_add_holiday", .generic, "A", .fixed "JAN" 1, "self._add_holiday(\"A\",", 3⟩,
          ⟨"_add_christmas_day", .namedHelper, "C", .fixed "DEC" 25,
            "self._add_christmas_day(\"C\")", 5⟩] ∧
      ((⟨⟨Shape.all.reverse, true⟩, []⟩ : Extractor).extract namesakes).2.errors =
        [⟨2, .noName⟩] := by
  have hperm := Shape.all.reverse_perm
  have hlines : ∀ line ∈ lines namesakes, HasOneSite line := by
    have hpoints : ∀ line ∈ lines namesakes, line.count '.' ≤ 1 := by decide +kernel
    exact fun line hline => .of_count (hpoints line hline)
  obtain ⟨hfound, herrors⟩ := extract_of_perm hperm hlines true [] []
  refine ⟨hperm, hlines, ?_⟩
  rw [hfound, herrors]
  decide +kernel

end Extractor
end Almanac.Registration
