import Almanac.Proofs.Registration.AccountedLines

/-!
# Windows of calls

What becomes of a call depends on its line and on a window of lines behind it: those before the
next line with a site, and eight of them at most. Two files that agree on the line and its window
have one outcome there, whatever stands before the call and behind the window, so that no call
takes anything from another one.
-/

namespace Almanac.Registration

open Almanac.Text

/-! ## Arguments within a window -/

/-- How many lines stand between a call and the next line that carries a site, if there is one
among the eight lines that its arguments can run over. -/
def nextSite? (shapes : List Shape) (following : List Text) : Option Nat :=
  (following.take 8).findIdx? (carriesSite shapes)

/-- How many lines behind a call its window has. -/
def windowSize (shapes : List Shape) (following : List Text) : Nat :=
  (nextSite? shapes following).getD 8

theorem take_windowSize (shapes : List Shape) (following : List Text) :
    following.take (windowSize shapes following) =
      (following.take 8).takeWhile fun line => !carriesSite shapes line := by
  rw [List.takeWhile_eq_take_findIdx_not]
  simp only [Bool.not_not]
  unfold windowSize nextSite?
  cases hnext : (following.take 8).findIdx? (carriesSite shapes) with
  | none =>
      rw [List.findIdx_eq_length_of_false (List.findIdx?_eq_none_iff.mp hnext), List.take_length]
      rfl
  | some count =>
      obtain ⟨hcount, hfound⟩ := List.findIdx?_eq_some_iff_findIdx_eq.mp hnext
      rw [hfound, List.take_take, Option.getD_some]
      congr 1
      rw [List.length_take] at hcount
      omega

/-- Arguments stop before a line that carries a site, whatever comes behind it. -/
theorem continuation_takeWhile (shapes : List Shape) (depth : Int) (lines : List Text) :
    Arguments.continuation shapes depth (lines.takeWhile fun line => !carriesSite shapes line) =
      Arguments.continuation shapes depth lines := by
  induction lines generalizing depth with
  | nil => rfl
  | cons line rest ih =>
      cases hsite : carriesSite shapes line with
      | true =>
          have hpassed : isPassed (strip line) = false := by
            by_contra hpassed
            rw [carriesSite_of_isPassed (by simpa using hpassed)] at hsite
            cases hsite
          obtain ⟨-, hshape⟩ := Bool.and_eq_true_iff.mp hsite
          rw [List.takeWhile_cons_of_neg (by simp [hsite]), continuation_cons, hpassed,
            hasSite_strip, hshape]
          rfl
      | false =>
          rw [List.takeWhile_cons_of_pos (by simp [hsite])]
          simp only [continuation_cons, ih]

theorem complete_window (shapes : List Shape) (arguments : Text) (following : List Text) :
    Arguments.complete shapes arguments following =
      if 1 + Arguments.balance arguments ≤ 0 then arguments
      else join " " (arguments :: Arguments.continuation shapes (1 + Arguments.balance arguments)
        (following.take (windowSize shapes following))) := by
  rw [take_windowSize, continuation_takeWhile]
  rfl

namespace Calls

/-- A call is read from its line and its window. -/
theorem atLine_window (options : Options) (number : Nat) (line : Text)
    {following following' : List Text}
    (hnext : nextSite? options.shapes following' = nextSite? options.shapes following)
    (hwindow : following'.take (windowSize options.shapes following) =
      following.take (windowSize options.shapes following)) :
    atLine options number line following' = atLine options number line following := by
  have hsize : windowSize options.shapes following' = windowSize options.shapes following := by
    rw [windowSize, windowSize, hnext]
  have harguments : ∀ site, argumentsOf options site following' =
      argumentsOf options site following := by
    intro site
    unfold argumentsOf
    rw [complete_window, complete_window, hsize, hwindow]
  simp only [atLine_eq, harguments]

/-- Two files that have the same line with a site at the same place, with the next line with a site
equally far behind it or none within its reach, and the same lines up to there, have the same
outcome at that line: one call, or one error. -/
theorem hasOutcome_of_window {options : Options} {t t' : Text} {calls calls' : Calls}
    (hcalls : ofText options t = .ok calls) (hcalls' : ofText options t' = .ok calls')
    {before before' following following' : List Text} {line : Text}
    (hlines : lines t = before ++ line :: following)
    (hlines' : lines t' = before' ++ line :: following')
    (hplace : before'.length = before.length)
    (hsite : carriesSite options.shapes line = true)
    (hnext : nextSite? options.shapes following' = nextSite? options.shapes following)
    (hwindow : following'.take (windowSize options.shapes following) =
      following.take (windowSize options.shapes following)) :
    ∃ outcome, (∀ other, calls.HasOutcome (1 + before.length) other ↔ other = outcome) ∧
      ∀ other, calls'.HasOutcome (1 + before.length) other ↔ other = outcome := by
  have hread : ofLines options 1 (lines t) = .ok calls := hcalls
  have hread' : ofLines options 1 (lines t') = .ok calls' := hcalls'
  obtain ⟨outcome, houtcome⟩ := exists_hasOutcome hread hlines hsite
  have hsame : ∀ other, calls'.HasOutcome (1 + before.length) other ↔
      calls.HasOutcome (1 + before.length) other := by
    intro other
    rw [hlines] at hread
    rw [hlines'] at hread'
    have hhere := hasOutcome_at hread' other
    rw [hplace, atLine_window options _ line hnext hwindow] at hhere
    rw [hhere, hasOutcome_at hread other]
  have honly : ∀ other, calls.HasOutcome (1 + before.length) other ↔ other = outcome := by
    intro other
    constructor
    · exact fun hother => hasOutcome_unique hread hother houtcome
    · rintro rfl
      exact houtcome
  exact ⟨outcome, honly, fun other => (hsame other).trans (honly other)⟩

/-- A call without an end in front of another call, and the same one among other lines. -/
def openFile : Text :=
  "x = 1\nself._add_holiday(\"A\",\n    date(year, JAN, 1)\nself._add_holiday(\"B\", b)"

def openFile' : Text :=
  "self._add_holiday(c)\nself._add_holiday(\"A\",\n    date(year, JAN, 1)\n"
    ++ "self._add_good_friday()\n)"

/-- The call that both files have at their second line. -/
def openCall : Call :=
  ⟨"_add_holiday", .generic, "A", .fixed "JAN" 1, "self._add_holiday(\"A\",", 2⟩

theorem hasOutcome_of_window_openFile : ∃ outcome,
    (∀ other, Calls.HasOutcome
      ⟨[openCall,
        ⟨"_add_holiday", .generic, "B", .calculated "b", "self._add_holiday(\"B\", b)", 4⟩], []⟩
      2 other ↔ other = outcome) ∧
    ∀ other, Calls.HasOutcome ⟨[openCall], [⟨1, .noName⟩, ⟨4, .noName⟩]⟩ 2 other ↔
      other = outcome := by
  have hcalls : ofText .standard openFile = .ok ⟨[openCall,
      ⟨"_add_holiday", .generic, "B", .calculated "b", "self._add_holiday(\"B\", b)", 4⟩], []⟩ := by
    decide +kernel
  have hcalls' : ofText .standard openFile' =
      .ok ⟨[openCall], [⟨1, .noName⟩, ⟨4, .noName⟩]⟩ := by
    decide +kernel
  have hlines : lines openFile = ["x = 1"] ++ "self._add_holiday(\"A\"," ::
      ["    date(year, JAN, 1)", "self._add_holiday(\"B\", b)"] := by
    decide +kernel
  have hlines' : lines openFile' = ["self._add_holiday(c)"] ++ "self._add_holiday(\"A\"," ::
      ["    date(year, JAN, 1)", "self._add_good_friday()", ")"] := by
    decide +kernel
  exact hasOutcome_of_window hcalls hcalls' hlines hlines' rfl (by decide +kernel)
    (by decide +kernel) (by decide +kernel)

end Calls
end Almanac.Registration
