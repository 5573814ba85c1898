import Almanac.Proofs.Registration.SiteLines
import Almanac.Registration.Extractor
import Mathlib.Data.List.Basic

/-!
# Lines accounted for

Every line of a file that carries a site is accounted for once, by a call that is found there or by
an error that is noted with its number, and no other line is. What stands at the line is what the
first shape of the table with a site on it makes of it. An extractor gives back just these calls
and keeps just these errors, whatever files it read before.
-/

namespace Almanac.Registration

open Almanac.Text

namespace Calls

/-! ## One outcome for each line with a site -/

section

variable {options : Options} {first : Nat} {lines : List Text} {calls : Calls}
  (hcalls : ofLines options first lines = .ok calls)

include hcalls

theorem le_of_hasOutcome {number : Nat} {outcome : Except CallFault Call}
    (houtcome : calls.HasOutcome number outcome) : first ≤ number := by
  obtain ⟨before, line, following, -, rfl, -⟩ := (hasOutcome_iff hcalls number outcome).mp houtcome
  exact Nat.le_add_right first before.length

/-- A line has one outcome at most. -/
theorem hasOutcome_unique {number : Nat} {outcome other : Except CallFault Call}
    (houtcome : calls.HasOutcome number outcome) (hother : calls.HasOutcome number other) :
    outcome = other := by
  obtain ⟨before, line, following, rfl, rfl, hline⟩ :=
    (hasOutcome_iff hcalls number outcome).mp houtcome
  have hsame := Option.some.inj (hline.symm.trans ((hasOutcome_at hcalls other).mp hother))
  cases outcome with
  | error fault => exact (error_eq_mapError_call.mp hsame).symm
  | ok call => exact (ok_eq_mapError_call.mp hsame).symm

/-- A line that carries a site has an outcome, and a number does not stop the reading there. -/
theorem exists_hasOutcome {before following : List Text} {line : Text}
    (hlines : lines = before ++ line :: following)
    (hsite : carriesSite options.shapes line = true) :
    ∃ outcome, calls.HasOutcome (first + before.length) outcome := by
  induction before generalizing first lines calls with
  | nil =>
      subst hlines
      have hsome := isSome_atLine options first line following
      rw [hsite] at hsome
      obtain ⟨later, -, ⟨hline, -⟩ | ⟨fault, -, rfl⟩ | ⟨call, hline, rfl⟩⟩ :=
        ofLines_cons_ok hcalls
      · simp [hline] at hsome
      · exact ⟨.error fault, List.mem_cons_self⟩
      · exact ⟨.ok call, List.mem_cons_self, line_of_atLine hline⟩
  | cons head before ih =>
      subst hlines
      have hnumber : first + (head :: before).length = first + 1 + before.length := by
        rw [List.length_cons]
        omega
      obtain ⟨later, hlater, hstep⟩ := ofLines_cons_ok hcalls
      obtain ⟨outcome, houtcome⟩ := ih hlater rfl
      rw [hnumber]
      refine ⟨outcome, ?_⟩
      -- what the first line adds takes nothing away
      obtain ⟨-, rfl⟩ | ⟨fault, -, rfl⟩ | ⟨call, -, rfl⟩ := hstep
      · exact houtcome
      · cases outcome with
        | error fault => exact List.mem_cons_of_mem _ houtcome
        | ok call => exact houtcome
      · cases outcome with
        | error fault => exact houtcome
        | ok call => exact ⟨List.mem_cons_of_mem _ houtcome.1, houtcome.2⟩

/-- The numbers of the calls increase, and so do those of the errors. -/
theorem pairwise_line :
    (calls.found.map Call.line).Pairwise (· < ·) ∧
      (calls.errors.map CallError.line).Pairwise (· < ·) := by
  induction lines generalizing first calls with
  | nil =>
      obtain rfl : ⟨[], []⟩ = calls := Except.ok.inj hcalls
      exact ⟨.nil, .nil⟩
  | cons line rest ih =>
      obtain ⟨later, hlater, hstep⟩ := ofLines_cons_ok hcalls
      obtain ⟨hfound, herrors⟩ := ih hlater
      obtain ⟨-, rfl⟩ | ⟨fault, -, rfl⟩ | ⟨call, hline, rfl⟩ := hstep
      · exact ⟨hfound, herrors⟩
      · refine ⟨hfound, herrors.cons ?_⟩
        rintro number hnumber
        obtain ⟨error, herror, rfl⟩ := List.mem_map.mp hnumber
        exact le_of_hasOutcome hlater (show later.HasOutcome error.line (.error error.fault)
          from herror)
      · refine ⟨hfound.cons ?_, herrors⟩
        rintro number hnumber
        obtain ⟨other, hother, rfl⟩ := List.mem_map.mp hnumber
        rw [line_of_atLine hline]
        exact le_of_hasOutcome hlater (show later.HasOutcome other.line (.ok other)
          from ⟨hother, rfl⟩)

end

/-- The numbers of calls and errors are those of the lines with an outcome. -/
theorem exists_hasOutcome_iff (calls : Calls) (number : Nat) :
    (∃ outcome, calls.HasOutcome number outcome) ↔
      number ∈ calls.found.map Call.line ∨ number ∈ calls.errors.map CallError.line := by
  constructor
  · rintro ⟨fault | call, houtcome⟩
    · exact .inr (List.mem_map_of_mem houtcome)
    · exact .inl (List.mem_map.mpr ⟨call, houtcome⟩)
  · rintro (hcall | herror)
    · obtain ⟨call, houtcome⟩ := List.mem_map.mp hcall
      exact ⟨.ok call, houtcome⟩
    · obtain ⟨error, hmem, rfl⟩ := List.mem_map.mp herror
      exact ⟨.error error.fault, hmem⟩

/-! ## The first shape with a site -/

/-- The shape has a site on the line, and none that comes before it in the table has. -/
def IsFirstShape (shapes : List Shape) (line : Text) (shape : Shape) : Prop :=
  (shape.site? line).isSome ∧ ∃ earlier later, shapes = earlier ++ shape :: later ∧
    ∀ other ∈ earlier, other.site? line = none

/-- What a shape makes of a line, with the lines behind it. -/
def readBy (options : Options) (shape : Shape) (number : Nat) (line : Text)
    (following : List Text) : Except ReadFault (Option Call) :=
  Call.ofLine? shape line number
    ((shape.site? line).map fun site => argumentsOf options site following)

/-- The outcome at a line is what the first shape with a site there makes of it. -/
theorem exists_isFirstShape {options : Options} {number : Nat} {line : Text}
    {following : List Text} {outcome : Except ReadFault Call}
    (hline : atLine options number line following = some outcome) :
    ∃ shape, IsFirstShape options.shapes line shape ∧
      readBy options shape number line following = outcome.map some := by
  rw [atLine_eq] at hline
  split at hline
  next => cases hline
  next =>
    obtain ⟨⟨shape, site⟩, hfirst, rfl⟩ := Option.map_eq_some_iff.mp hline
    obtain ⟨earlier, found, later, hshapes, hfound, hearlier⟩ :=
      List.findSome?_eq_some_iff.mp hfirst
    obtain ⟨_, hsite, hpair⟩ := Option.map_eq_some_iff.mp hfound
    obtain ⟨rfl, rfl⟩ := Prod.mk.inj hpair
    refine ⟨found, ⟨by rw [hsite]; rfl, earlier, later, hshapes, fun other hother => ?_⟩, ?_⟩
    · exact Option.map_eq_none_iff.mp (hearlier other hother)
    · rw [readBy, Call.ofLine?, hsite]
      rfl

end Calls

/-! ## Extractors -/

namespace Extractor

/-- Reading a file changes neither the table nor the way of reading. -/
theorem options_readLines (extractor : Extractor) (number : Nat) (lines : List Text) :
    (extractor.readLines number lines).2.options = extractor.options := by
  fun_induction readLines extractor number lines with
  | case1 => rfl
  | case2 extractor number line rest hline ih => exact ih
  | case3 => rfl
  | case4 extractor number line rest fault hline ih => exact ih
  | case5 extractor number line rest call hline later after hrest ih =>
      rw [hrest] at ih
      exact ih

/-- An extractor that reads a file to its end gives back the calls of its lines, and adds their
errors to its own. -/
theorem readLines_ok {extractor after : Extractor} {number : Nat} {lines : List Text}
    {found : List Call} (hread : extractor.readLines number lines = (.ok found, after)) :
    ∃ calls, Calls.ofLines extractor.options number lines = .ok calls ∧ found = calls.found ∧
      after.errors = extractor.errors ++ calls.errors := by
  fun_induction readLines extractor number lines generalizing found after with
  | case1 =>
      obtain ⟨hfound, rfl⟩ := Prod.mk.inj hread
      obtain rfl := Except.ok.inj hfound
      exact ⟨⟨[], []⟩, rfl, rfl, (List.append_nil _).symm⟩
  | case2 extractor number line rest hline ih =>
      rw [Calls.ofLines_cons, hline]
      exact ih hread
  | case3 extractor number line rest fault hline => cases (Prod.mk.inj hread).1
  | case4 extractor number line rest fault hline ih =>
      obtain ⟨calls, hcalls, hfound, herrors⟩ := ih hread
      have hcalls' : Calls.ofLines extractor.options (number + 1) rest = .ok calls := hcalls
      rw [Calls.ofLines_cons, hline, hcalls']
      refine ⟨_, rfl, hfound, ?_⟩
      rw [herrors, note, List.append_assoc]
      rfl
  | case5 extractor number line rest call hline later after' hrest ih =>
      obtain ⟨hfound, rfl⟩ := Prod.mk.inj hread
      cases later with
      | error fault => cases hfound
      | ok read =>
          obtain rfl := Except.ok.inj hfound
          obtain ⟨calls, hcalls, rfl, herrors⟩ := ih hrest
          rw [Calls.ofLines_cons, hline, hcalls]
          exact ⟨_, rfl, rfl, herrors⟩

/-- The extractor behind one file after another, stopped at a number or not. -/
def behind (extractor : Extractor) (files : List Text) : Extractor :=
  files.foldl (fun extractor t => (extractor.extract t).2) extractor

theorem options_behind (extractor : Extractor) (files : List Text) :
    (extractor.behind files).options = extractor.options := by
  unfold behind
  induction files generalizing extractor with
  | nil => rfl
  | cons t files ih =>
      rw [List.foldl_cons, ih]
      exact options_readLines { extractor with errors := [] } 1 (lines t)

/-- The calls and the errors account for the lines of a text that carry a site. -/
structure Accounts (options : Calls.Options) (t : Text) (calls : Calls) : Prop where
  calls_increase : (calls.found.map Call.line).Pairwise (· < ·)
  errors_increase : (calls.errors.map CallError.line).Pairwise (· < ·)
  /-- No line has a call and an error. -/
  disjoint : (calls.found.map Call.line).Disjoint (calls.errors.map CallError.line)
  /-- The lines with a call or an error are those that carry a site. -/
  sites : ∀ number, number ∈ calls.found.map Call.line ∨ number ∈ calls.errors.map CallError.line ↔
    ∃ before line following, lines t = before ++ line :: following ∧ number = 1 + before.length ∧
      isCommentLine line = false ∧ ∃ shape ∈ options.shapes, (shape.site? line).isSome
  /-- The call or the error of a line is what the first shape with a site there makes of it. -/
  first : ∀ before line following, lines t = before ++ line :: following →
    ∀ outcome, calls.HasOutcome (1 + before.length) outcome →
      ∃ shape, Calls.IsFirstShape options.shapes line shape ∧
        Calls.readBy options shape (1 + before.length) line following =
          (outcome.mapError .call).map some

/-- Whatever files an extractor read before, when it reads a file to its end, the calls that it
gives back and the errors that it keeps account for the lines with a site, each of them once. -/
theorem extract_accounts {extractor after : Extractor} {earlier : List Text} {t : Text}
    {found : List Call} (hextract : (extractor.behind earlier).extract t = (.ok found, after)) :
    Accounts extractor.options t ⟨found, after.errors⟩ := by
  obtain ⟨calls, hcalls, rfl, herrors⟩ := readLines_ok hextract
  rw [List.nil_append] at herrors
  rw [herrors]
  have hcalls : Calls.ofLines extractor.options 1 (lines t) = .ok calls := by
    rw [← extractor.options_behind earlier]
    exact hcalls
  obtain ⟨hfound, herror⟩ := Calls.pairwise_line hcalls
  refine ⟨hfound, herror, ?_, fun number => ?_, ?_⟩
  · rintro number hcall hnoted
    obtain ⟨call, houtcome⟩ := List.mem_map.mp hcall
    obtain ⟨error, hmem, rfl⟩ := List.mem_map.mp hnoted
    have hsame := Calls.hasOutcome_unique hcalls
      (show calls.HasOutcome error.line (.ok call) from houtcome)
      (show calls.HasOutcome error.line (.error error.fault) from hmem)
    cases hsame
  · rw [← Calls.exists_hasOutcome_iff]
    simp only [← carriesSite_iff]
    constructor
    · rintro ⟨outcome, houtcome⟩
      obtain ⟨before, line, following, hlines, hnumber, hline⟩ :=
        (Calls.hasOutcome_iff hcalls number outcome).mp houtcome
      refine ⟨before, line, following, hlines, hnumber, ?_⟩
      rw [← Calls.isSome_atLine extractor.options number line following, hline]
      rfl
    · rintro ⟨before, line, following, hlines, rfl, hsite⟩
      exact Calls.exists_hasOutcome hcalls hlines hsite
  · rintro before line following hlines outcome houtcome
    rw [hlines] at hcalls
    exact Calls.exists_isFirstShape ((Calls.hasOutcome_at hcalls outcome).mp houtcome)

/-- A file with a call that runs over two lines, one without a name, one without a month, and one in
a comment. -/
def mixedFile : Text :=
  "self._add_holiday(date(year, JAN, 1)\nself._add_holiday(\n    \"B\", date(year, JAN, 2))\n"
    ++ "# self._add_holiday(\"C\", date(year, JAN, 3))\nself._add_holiday_foo_3(\"D\")\n"

/-- Its calls and errors. -/
def mixedCalls : Calls :=
  ⟨[⟨"_add_holiday", .generic, "B", .fixed "JAN" 2, "self._add_holiday(", 2⟩],
    [⟨1, .noName⟩, ⟨5, .noMonth "_add_holiday_foo_3"⟩]⟩

theorem extract_accounts_mixedFile :
    (((⟨.standard, []⟩ : Extractor).behind ["self._add_holiday(x)"]).extract mixedFile).1 =
        .ok mixedCalls.found ∧
      (((⟨.standard, []⟩ : Extractor).behind ["self._add_holiday(x)"]).extract mixedFile).2.errors =
        mixedCalls.errors ∧
      Accounts .standard mixedFile mixedCalls := by
  have hfound : (((⟨.standard, []⟩ : Extractor).behind ["self._add_holiday(x)"]).extract
      mixedFile).1 = .ok mixedCalls.found := by decide +kernel
  have herrors : (((⟨.standard, []⟩ : Extractor).behind ["self._add_holiday(x)"]).extract
      mixedFile).2.errors = mixedCalls.errors := by decide +kernel
  have haccounts := extract_accounts (Prod.ext hfound rfl)
  rw [herrors] at haccounts
  exact ⟨hfound, herrors, haccounts⟩

end Extractor
end Almanac.Registration
