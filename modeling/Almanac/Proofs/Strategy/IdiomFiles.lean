import Almanac.Proofs.Registration.Idioms
import Almanac.Strategy.Extraction

/-!
# Files that register a holiday in several idioms

All idioms of one date make one definition, so a file that registers a holiday several times, each
time in an idiom of its own, holds it once, and no two of its calls collide.
-/

namespace Almanac.Registration

open Almanac.Text Almanac.Holiday Almanac.Source

/-- The line is a call of one of the idioms and nothing else, which registers the holiday of the
name with the calculation. -/
inductive Registers (name : Text) (calculation : Calculation) : (line : Text) → Prop
  | call {indent method second : Text} {literal : NameLiteral}
      (hindent : ∀ c ∈ indent, isBlank c = true) (hliteral : literal.Shows name)
      (htells : Tells method second calculation) :
      Registers name calculation
        (indent ++ ("self." ++ (method ++ '(' :: literal.before (second ++ ")"))))

/-! ## Lines of the idioms -/

/-- A line without a call, because it holds a comment only or no site of a call. -/
def isQuiet (line : Text) : Bool :=
  Arguments.isComment (stripStart line) || !hasSite Shape.all line

theorem atLine_of_isQuiet {line : Text} (hquiet : isQuiet line = true) (number : Nat)
    (following : List Text) : Calls.atLine .standard number line following = none := by
  unfold Calls.atLine
  split
  next => rfl
  next hcomment =>
    have hnone : firstSite? Shape.all line = none := by
      have hsite : hasSite Shape.all line = false := by simpa [isQuiet, hcomment] using hquiet
      rw [firstSite?, List.findSome?_eq_none_iff]
      intro shape hshape
      rw [site?_eq_none_of_hasSite hsite shape]
      rfl
    rw [Calls.Options.standard, hnone]
    rfl

section

variable {name : Text} (hname : Nameable name) {calculation : Calculation}

include hname

/-- The one call of the line is found, and its arguments are read as the name and the date. -/
theorem Tells.exists_read {indent method second : Text} {literal : NameLiteral}
    (htells : Tells method second calculation) (hindent : ∀ c ∈ indent, isBlank c = true)
    (hliteral : literal.Shows name) :
    ∃ shape read date, IsOnlyCall indent method shape read (literal.before (second ++ ")")) ∧
      Call.contents shape read (literal.before (second ++ ")")) = .ok (name, date) ∧
      Calculation.ofDate date = .ok calculation := by
  have hcode : IsCode (second ++ ")") :=
    (htells.opens.append (show Opens (-1) ")".toList by decide)).1
  have hend : '.' ∉ [] ++ ")".toList := by decide
  cases htells with
  | @date year month m day hyear hmonth hday =>
      refine ⟨_, _, .fixed month day, isOnlyCall_generic hindent _, ?_, ?_⟩
      · exact contents_of_classify (hliteral.name? hcode)
          (classify_date hliteral hname hyear hmonth hday)
          (fun _ h => DateExpression.noConfusion h) _
      · rw [Calculation.ofDate, hmonth.ofToken]
        rfl
  | @dated abbreviation m day hmonth hday =>
      refine ⟨_, _, .fixed abbreviation day, isOnlyCall_dated hindent hliteral hname
        hmonth hday hend, contents_datedIdiom hliteral hcode hmonth hday _, ?_⟩
      have hmonths : ∀ entry ∈ Month.abbreviations, Month.ofToken entry.1 = .ok entry.2 := by
        decide
      rw [Calculation.ofDate, hmonths _ hmonth]
      rfl
  | @feast method date calculation hfeast hdate =>
      exact ⟨_, _, date, isOnlyCall_feast hindent hliteral hname hfeast hend,
        contents_feastIdiom hliteral hcode method date, hdate⟩
  | @distance offset hlength =>
      have hpoint : '.' ∉ ", " ++ ofInt offset ++ ")" := by
        have hoffset :=
          notMem_ofInt (show isDecimal '.' = false by decide) (by decide) offset
        simpa using hoffset
      exact ⟨_, _, .easterBased offset, isOnlyCall_distance hindent hliteral hname hpoint,
        contents_distanceIdiom hliteral hlength _, rfl⟩
  | @shift year span offset backward hyear hspan hlength =>
      refine ⟨_, _, .easterBased offset, isOnlyCall_generic hindent _, ?_, rfl⟩
      exact contents_of_classify (hliteral.name? hcode)
        (classify_shift hliteral hname backward hyear hspan hlength)
        (fun _ h => DateExpression.noConfusion h) _

theorem Registers.atLine {line : Text} (hline : Registers name calculation line) (number : Nat)
    (following : List Text) :
    ∃ call, Calls.atLine .standard number line following = some (.ok call) ∧ call.name = name ∧
      Calculation.ofDate call.date = .ok calculation ∧ call.source = strip line := by
  cases hline with
  | @call indent method second literal hindent hliteral htells =>
      obtain ⟨shape, read, date, honly, hcontents, hdate⟩ :=
        htells.exists_read hname hindent hliteral
      have hcomment : Arguments.isComment (stripStart (indent ++ ("self." ++
          (method ++ '(' :: literal.before (second ++ ")"))))) = false := by
        have hskip : stripStart (indent ++ ("self." ++ (method ++ '(' ::
            literal.before (second ++ ")")))) = stripStart ("self." ++ (method ++ '(' ::
            literal.before (second ++ ")"))) := List.dropWhile_append_of_pos hindent
        rw [hskip]
        rfl
      -- the last parenthesis closes the call
      have hclosed : 1 + Arguments.balance (literal.before (second ++ ")")) ≤ 0 := by
        have hclose : Opens (-1) ")".toList := by decide
        rw [hliteral.balance, (htells.opens.append hclose).balance]
        decide
      refine ⟨⟨read.name, shape, name, date, _, number⟩, ?_, rfl, hdate, rfl⟩
      unfold Calls.atLine
      rw [hcomment, if_neg Bool.false_ne_true, Calls.Options.standard, honly]
      simp only [Option.map_some, if_true, Arguments.complete, if_pos hclosed, Call.ofSite,
        hcontents]
      rfl

theorem Registers.isQuiet {line : Text} (hline : Registers name calculation line) :
    isQuiet line = false := by
  obtain ⟨call, hcall, -⟩ := hline.atLine hname 0 []
  cases hquiet : Registration.isQuiet line with
  | false => rfl
  | true =>
      rw [atLine_of_isQuiet hquiet] at hcall
      cases hcall

/-- A file of quiet lines and lines that register one holiday has a call for each of the latter. -/
theorem ofLines_idioms {lines : List Text}
    (hlines : ∀ line ∈ lines, Registration.isQuiet line = true ∨ Registers name calculation line)
    (number : Nat) :
    ∃ calls, Calls.ofLines .standard number lines = .ok ⟨calls, []⟩ ∧
      calls.map Call.source = (lines.filter fun line => !Registration.isQuiet line).map strip ∧
      ∀ call ∈ calls, call.name = name ∧ Calculation.ofDate call.date = .ok calculation := by
  induction lines generalizing number with
  | nil => exact ⟨[], rfl, rfl, by simp⟩
  | cons line rest ih =>
      obtain ⟨hline, hrest⟩ := List.forall_mem_cons.mp hlines
      obtain ⟨calls, hcalls, hsources, hall⟩ := ih hrest (number + 1)
      rw [Calls.ofLines]
      rcases hline with hquiet | hregisters
      · refine ⟨calls, ?_, ?_, hall⟩
        · rw [atLine_of_isQuiet hquiet]
          exact hcalls
        · rw [List.filter_cons_of_neg (by simp [hquiet]), hsources]
      · obtain ⟨call, hcall, hcallName, hcallDate, hsource⟩ := hregisters.atLine hname number rest
        refine ⟨call :: calls, ?_, ?_, ?_⟩
        · rw [hcall]
          dsimp only
          rw [hcalls]
        · rw [List.filter_cons_of_pos (by simp [hregisters.isQuiet hname]), List.map_cons,
            List.map_cons, hsource, hsources]
        · exact List.forall_mem_cons.mpr ⟨⟨hcallName, hcallDate⟩, hall⟩

end

end Almanac.Registration

namespace Almanac.Holiday.Catalog

open Almanac.Data

/-- A definition that is announced over and over is one entry, and no collision. -/
theorem draft_of_same {policy : CollisionPolicy} {category : Text} {announced : List Announcement}
    {definition : Definition} (hkey : Key.ofName definition.name ≠ [])
    (hall : ∀ a ∈ announced, Definition.ofAnnouncement category a = .ok definition)
    (hsome : announced ≠ []) :
    draft policy category announced = .ok ⟨[(Key.ofName definition.name, definition)], []⟩ := by
  have hempty : (Key.ofName definition.name).isEmpty = false := by simpa using hkey
  have hagain : ∀ more : List Announcement,
      (∀ a ∈ more, Definition.ofAnnouncement category a = .ok definition) →
      more.foldlM (Draft.announce policy category)
          ⟨[(Key.ofName definition.name, definition)], []⟩ =
        .ok ⟨[(Key.ofName definition.name, definition)], []⟩ := by
    intro more hmore
    induction more with
    | nil => rfl
    | cons a more ih =>
        obtain ⟨ha, hrest⟩ := List.forall_mem_cons.mp hmore
        have hadd : Draft.announce policy category
            ⟨[(Key.ofName definition.name, definition)], []⟩ a =
              .ok ⟨[(Key.ofName definition.name, definition)], []⟩ := by
          simp [Draft.announce, ha, Draft.add, hempty, isFree, Entries.get?, Entries.put]
        rw [List.foldlM_cons, hadd]
        exact ih hrest
  obtain ⟨a, more, rfl⟩ := List.exists_cons_of_ne_nil hsome
  obtain ⟨ha, hrest⟩ := List.forall_mem_cons.mp hall
  have hfirst : Draft.announce policy category ⟨[], []⟩ a =
      .ok ⟨[(Key.ofName definition.name, definition)], []⟩ := by
    simp [Draft.announce, ha, Draft.add, hempty, isFree, Entries.get?, Entries.put]
  rw [draft, List.foldlM_cons, hfirst]
  exact hagain more hrest

end Almanac.Holiday.Catalog

namespace Almanac.Registration

open Almanac.Text Almanac.Holiday Almanac.Source

/-- In a file whose calls all register one holiday with one calculation, each in an idiom of its
own, every call is found and is turned into the same definition, and the catalog of them is that
definition under the key of the name, whatever is to happen when definitions collide. -/
theorem ofText_idioms {name : Text} (hname : Nameable name) {calculation : Calculation} {t : Text}
    (hlines : ∀ line ∈ lines t, isQuiet line = true ∨ Registers name calculation line)
    (hsome : ∃ line ∈ lines t, Registers name calculation line) :
    ∃ calls, Calls.ofText .standard t = .ok ⟨calls, []⟩ ∧
      calls.map Call.source = ((lines t).filter fun line => !isQuiet line).map strip ∧
      ∀ category,
        (∀ call ∈ calls, Definition.ofAnnouncement category (Strategy.announcement call) =
          .ok ⟨name, category, calculation⟩) ∧
        ∀ policy, Catalog.draft policy category (calls.map Strategy.announcement) =
          .ok ⟨[(Key.ofName name, ⟨name, category, calculation⟩)], []⟩ := by
  obtain ⟨calls, hcalls, hsources, hall⟩ := ofLines_idioms hname hlines 1
  have hdefinitions : ∀ category, ∀ call ∈ calls,
      Definition.ofAnnouncement category (Strategy.announcement call) =
        .ok ⟨name, category, calculation⟩ := by
    intro category call hcall
    obtain ⟨rfl, hdate⟩ := hall call hcall
    rw [Strategy.announcement, Definition.ofAnnouncement, hdate]
    rfl
  have hcalled : calls.map Strategy.announcement ≠ [] := by
    obtain ⟨line, hmem, hregisters⟩ := hsome
    have hfiltered : strip line ∈ calls.map Call.source := by
      rw [hsources]
      exact List.mem_map_of_mem (List.mem_filter.mpr ⟨hmem, by simp [hregisters.isQuiet hname]⟩)
    rintro hnil
    rw [List.map_eq_nil_iff.mp hnil] at hfiltered
    exact absurd hfiltered List.not_mem_nil
  refine ⟨calls, hcalls, hsources, fun category => ⟨hdefinitions category, fun policy => ?_⟩⟩
  have hannounced : ∀ a ∈ calls.map Strategy.announcement,
      Definition.ofAnnouncement category a = .ok ⟨name, category, calculation⟩ :=
    List.forall_mem_map.mpr (hdefinitions category)
  exact Catalog.draft_of_same hname.key hannounced hcalled

/-- The name of a holiday on Easter Monday, with quotes in it. -/
def brightName : Text := "Easter \"Bright\" Monday"

/-- A line that registers it as a feast. -/
def brightFeast : Text :=
  "    self._add_easter_monday(\"Easter \\\"Bright\\\" Monday\")"

/-- A line that registers it by a shift. -/
def brightShift : Text :=
  "    self._add_holiday(tr('Easter \\\"Bright\\\" Monday'), easter(self.year) - td(days=-1))"

theorem ofText_idioms_bright :
    ∃ calls, Calls.ofText .standard ("class A:\n" ++ brightFeast ++ "\n" ++ brightShift ++ "\n") =
        .ok ⟨calls, []⟩ ∧ calls.length = 2 ∧
      Catalog.draft .reject "public" (calls.map Strategy.announcement) =
        .ok ⟨[("easter_bright_monday", ⟨brightName, "public", .easterBased 1⟩)], []⟩ := by
  have hname : Nameable brightName := by constructor <;> decide +kernel
  have hshows : ∀ quote, (quote = '"' ∨ quote = '\'') → ∀ translated, NameLiteral.Shows
      ⟨quote, Literal.spelled quote brightName, translated⟩ brightName :=
    fun quote hquote => NameLiteral.shows_spelled hquote (by decide)
  have hindent : ∀ c ∈ "    ".toList, isBlank c = true := by
    have hspace : isBlank ' ' = true := by decide
    simpa using hspace
  have hfeast : Registers brightName (.easterBased 1) brightFeast := by
    have hline : brightFeast = "    ".toList ++ ("self." ++ ("_add_easter_monday" ++
        '(' :: NameLiteral.before ⟨'"', Literal.spelled '"' brightName, false⟩
          ([] ++ ")".toList))) := by decide +kernel
    rw [hline]
    exact .call hindent (hshows _ (.inl rfl) false)
      (.feast (show (_, .easterBased 1) ∈ feasts by decide +kernel) rfl)
  have hshift : Registers brightName (.easterBased 1) brightShift := by
    have hline : brightShift = "    ".toList ++ ("self." ++ ("_add_holiday" ++
        '(' :: NameLiteral.before ⟨'\'', Literal.spelled '\'' brightName, true⟩
          (", " ++ DateExpression.writtenDistance "self.year" "td" true (-1) ++ ")"))) := by
      decide +kernel
    rw [hline]
    exact .call hindent (hshows _ (.inr rfl) true)
      (.shift true (by decide) (by decide) (by decide))
  have hsplit : lines ("class A:\n" ++ brightFeast ++ "\n" ++ brightShift ++ "\n") =
      ["class A:".toList, brightFeast, brightShift] := by decide +kernel
  obtain ⟨calls, hcalls, hsources, hall⟩ := ofText_idioms hname
    (by
      rw [hsplit]
      simp only [List.forall_mem_cons, List.not_mem_nil, false_implies, implies_true, and_true]
      exact ⟨.inl (by decide +kernel), .inr hfeast, .inr hshift⟩)
    ⟨brightFeast, by rw [hsplit]; simp, hfeast⟩
  refine ⟨calls, hcalls, ?_, (hall "public").2 .reject⟩
  have hlength := congrArg List.length hsources
  rw [hsplit, List.length_map, List.length_map] at hlength
  exact hlength.trans (by decide +kernel)

end Almanac.Registration
