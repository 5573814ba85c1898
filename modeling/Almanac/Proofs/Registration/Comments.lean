import Almanac.Proofs.Registration.SiteLines
import Almanac.Proofs.Registration.Trailers
import Almanac.Proofs.Source.CommentText
import Almanac.Proofs.Text.TextLines

/-!
# Calls without their comments

The comments of a file can be taken away without a change to its calls, but not all of them. While
the parenthesis of a call is open, its lines are joined, and a comment then hides everything behind
it; and where a call is looked for, or a name or a date, the comment is looked through as well. So
the comments within calls have to stay, no comment that is taken away may hold a call, and the one
behind a call no quote and no date. Comments on lines of their own may hold anything.
-/

namespace Almanac.Registration

open Almanac.Text Almanac.Source Almanac.Holiday

/-- The line, without its comment if that is taken away. -/
def withoutComment (taken : Bool) (line : Text) : Text :=
  if taken then Literal.code line else line

/-- The lines, counted from the given number, without the comments of those that are chosen. -/
def uncommented (chosen : Nat → Bool) (first : Nat) (lines : List Text) : List Text :=
  (lines.zipIdx first).map fun (line, number) => withoutComment (chosen number) line

/-! ## One line -/

/-- A line has no part in a call just if its code has none. -/
theorem isPassed_strip_code (line : Text) :
    isPassed (strip line) = isPassed (strip (Literal.code line)) := by
  rw [Bool.eq_iff_iff, isPassed_strip_iff, isPassed_strip_iff]
  by_cases hcode : strip (Literal.code line) = []
  · refine iff_of_true ?_ (.inl hcode)
    have hstart := Literal.stripStart_of_noCode hcode
    cases hcomment : Literal.comment line with
    | nil =>
        left
        change stripEnd (stripStart line) = []
        rw [hstart, hcomment]
        rfl
    | cons c rest =>
        right
        obtain rfl := Literal.head?_comment line c (by rw [hcomment]; rfl)
        rw [hstart, hcomment]
        rfl
  · have hhead := Literal.head?_stripStart_code line
    obtain ⟨before, mark, -, -, -, hstrip, -⟩ := Literal.strip_of_code hcode
    have hline : strip line ≠ [] := by
      rw [hstrip]
      simp [hcode]
    have hlineHead : (stripStart line).head? ≠ some '#' := by
      have hsome : stripStart (Literal.code line) ≠ [] := by
        intro hnil
        apply hcode
        change stripEnd (stripStart (Literal.code line)) = []
        rw [hnil]
        rfl
      rw [Literal.stripStart_of_code hcode, List.head?_append_of_ne_nil _ hsome]
      exact hhead
    simp [hcode, hhead, hline, hlineHead]

/-- A call is found before a comment without calls or not at all. -/
theorem site?_append_comment {blanks comment : Text} (hblank : ∀ c ∈ blanks, isBlank c = true)
    (hsign : ∀ c ∈ comment.head?, c = '#') {shape : Shape} (hnone : shape.site? comment = none)
    (t : Text) : shape.site? (t ++ (blanks ++ comment)) =
      (shape.site? t).map (Site.longer (blanks ++ comment)) := by
  have hscan := stopsAtBoundaries_siteHere? shape
  unfold Shape.site? at hnone ⊢
  rw [hscan.respects.findWord?_append hscan.nil (isSeam_of_comment hblank hsign),
    hscan.findWord?_blank_append hblank, hnone, Option.or_none]

/-- The call on a line is the one in its code. -/
theorem firstSite?_code {line : Text} (hnone : hasSite Shape.all (Literal.comment line) = false) :
    firstSite? Shape.all line = (firstSite? Shape.all (Literal.code line)).map
      fun (shape, site) => (shape, site.longer (Literal.comment line)) := by
  have hsite : ∀ shape : Shape, shape.site? line =
      (shape.site? (Literal.code line)).map (Site.longer (Literal.comment line)) := by
    intro shape
    have hcode := site?_append_comment (show ∀ c ∈ [], isBlank c = true by simp)
      (Literal.head?_comment line) (site?_eq_none_of_hasSite hnone shape) (Literal.code line)
    rwa [List.nil_append, Literal.code_append_comment] at hcode
  unfold firstSite?
  rw [List.map_findSome?]
  congr 1
  funext shape
  rw [hsite shape, Option.map_map, Function.comp_apply, Option.map_map]
  rfl

theorem hasSite_strip_code {line : Text} (hnone : hasSite Shape.all (Literal.comment line) = false)
    (hcode : strip (Literal.code line) ≠ []) :
    hasSite Shape.all (strip line) = hasSite Shape.all (strip (Literal.code line)) := by
  obtain ⟨before, mark, behind, hbefore, hbehind, hstrip, hcomment⟩ := Literal.strip_of_code hcode
  have hsign : ∀ c ∈ mark.head?, c = '#' := by
    intro c hc
    refine Literal.head?_comment line c ?_
    rw [hcomment]
    cases mark with
    | nil => cases hc
    | cons d rest => exact hc
  have hsite : ∀ shape : Shape, (shape.site? (strip line)).isSome =
      (shape.site? (strip (Literal.code line))).isSome := by
    intro shape
    have hmark : shape.site? mark = none := by
      refine (stopsAtBoundaries_siteHere? shape).findWord?_eq_none hbehind ?_
      rw [← hcomment]
      exact site?_eq_none_of_hasSite hnone shape
    rw [hstrip, site?_append_comment hbefore hsign hmark, Option.isSome_map]
  unfold hasSite
  simp only [hsite]

/-! ## Lines of a call -/

section

variable (chosen : Nat → Bool)

/-- The line loses no comment. -/
def KeepsComment (number : Nat) (line : Text) : Prop :=
  chosen number = true → Literal.comment line = []

/-- The line loses an idle comment, or none. -/
def LosesIdle (number : Nat) (line : Text) : Prop :=
  chosen number = true → IsIdle (Literal.comment line)

/-- The line loses no call with its comment. A comment on a line of its own may hold calls. -/
def LosesNoCall (number : Nat) (line : Text) : Prop :=
  chosen number = true →
    isCommentLine line = true ∨ hasSite Shape.all (Literal.comment line) = false

/-- Of the lines that arguments run over, with so many parentheses open before them, the last one
loses an idle comment at most, and those at whose end the call is still open lose none. -/
def SparesContinuation : (depth : Int) → (number : Nat) → List Text → Prop
  | _, _, [] => True
  | depth, number, line :: rest =>
      if isPassed (strip line) then SparesContinuation depth (number + 1) rest
      else if hasSite Shape.all (strip line) then True
      else if depth + Arguments.balance (strip line) ≤ 0 then LosesIdle chosen number line
      else KeepsComment chosen number line ∧
        SparesContinuation (depth + Arguments.balance (strip line)) (number + 1) rest

/-- The same of the arguments of a call from the line of the call on. -/
def SparesArguments (number : Nat) (line arguments : Text) (following : List Text) : Prop :=
  if 1 + Arguments.balance arguments ≤ 0 then LosesIdle chosen number line
  else KeepsComment chosen number line ∧ SparesContinuation chosen (1 + Arguments.balance arguments)
    (number + 1) (following.take Arguments.maxContinuations)

end

section

variable {chosen : Nat → Bool}

theorem withoutComment_of_keeps {number : Nat} {line : Text}
    (hkeeps : KeepsComment chosen number line) : withoutComment (chosen number) line = line := by
  cases hchosen : chosen number with
  | false => rfl
  | true =>
      have hwhole := Literal.code_append_comment line
      rwa [hkeeps hchosen, List.append_nil] at hwhole

theorem isPassed_withoutComment (taken : Bool) (line : Text) :
    isPassed (strip (withoutComment taken line)) = isPassed (strip line) := by
  cases taken with
  | false => rfl
  | true => exact (isPassed_strip_code line).symm

theorem strip_code_ne_nil {line : Text} (hpassed : isPassed (strip line) = false) :
    strip (Literal.code line) ≠ [] := by
  intro hcode
  rw [isPassed_strip_code, hcode] at hpassed
  cases hpassed

theorem hasSite_withoutComment {number : Nat} {line : Text}
    (hcall : LosesNoCall chosen number line) (hpassed : isPassed (strip line) = false) :
    hasSite Shape.all (strip (withoutComment (chosen number) line)) =
      hasSite Shape.all (strip line) := by
  cases hchosen : chosen number with
  | false => rfl
  | true =>
      rcases hcall hchosen with hcomment | hnone
      · rw [isPassed_of_isCommentLine hcomment] at hpassed
        cases hpassed
      · exact (hasSite_strip_code hnone (strip_code_ne_nil hpassed)).symm

/-- A line that loses an idle comment is the same but for a trailer, once it is stripped. -/
theorem strip_withoutComment {number : Nat} {line : Text} (hline : '\n' ∉ line)
    (hidle : LosesIdle chosen number line) (hpassed : isPassed (strip line) = false) :
    ∃ z, IsTrailer z ∧ strip line = strip (withoutComment (chosen number) line) ++ z := by
  cases hchosen : chosen number with
  | false => exact ⟨[], .nil, (List.append_nil _).symm⟩
  | true =>
      obtain ⟨before, mark, behind, hbefore, hbehind, hstrip, hcomment⟩ :=
        Literal.strip_of_code (strip_code_ne_nil hpassed)
      have hmark := hidle hchosen
      have hsign := Literal.head?_comment line
      rw [hcomment] at hmark hsign
      refine ⟨before ++ mark, .intro hbefore (hmark.of_append_blank hbehind) ?_ ?_, hstrip⟩
      · intro c hc
        cases mark with
        | nil => cases hc
        | cons d rest => exact hsign c hc
      · intro hmem
        apply hline
        rw [← Literal.code_append_comment line, hcomment]
        exact List.mem_append_right _ (List.mem_append_left _ hmem)

theorem uncommented_cons (number : Nat) (line : Text) (rest : List Text) :
    uncommented chosen number (line :: rest) =
      withoutComment (chosen number) line :: uncommented chosen (number + 1) rest := rfl

theorem uncommented_take (number count : Nat) (lines : List Text) :
    (uncommented chosen number lines).take count =
      uncommented chosen number (lines.take count) := by
  induction lines generalizing number count with
  | nil => simp [uncommented]
  | cons line rest ih =>
      cases count with
      | zero => rfl
      | succ count =>
          rw [List.take_succ_cons, uncommented_cons, uncommented_cons, List.take_succ_cons, ih]

/-- Arguments that are completed from the further lines of a call are the same but for a trailer. -/
theorem continuation_uncommented {lines : List Text} {depth : Int} {number : Nat}
    (hlines : ∀ line ∈ lines, '\n' ∉ line)
    (hcalls : ∀ entry ∈ lines.zipIdx number, LosesNoCall chosen entry.2 entry.1)
    (hspares : SparesContinuation chosen depth number lines) :
    ∃ z, IsTrailer z ∧ ∀ arguments,
      join " " (arguments :: Arguments.continuation Shape.all depth lines) =
        join " " (arguments :: Arguments.continuation Shape.all depth
          (uncommented chosen number lines)) ++ z := by
  induction lines generalizing depth number with
  | nil => exact ⟨[], .nil, fun arguments => (List.append_nil _).symm⟩
  | cons line rest ih =>
      obtain ⟨hline, hlines⟩ := List.forall_mem_cons.mp hlines
      obtain ⟨hcall, hcalls⟩ := List.forall_mem_cons.mp hcalls
      rw [SparesContinuation] at hspares
      rw [uncommented_cons]
      simp only [continuation_cons, isPassed_withoutComment]
      cases hpassed : isPassed (strip line) with
      | true =>
          rw [hpassed, if_pos rfl] at hspares
          exact ih hlines hcalls hspares
      | false =>
          rw [hpassed, if_neg Bool.false_ne_true] at hspares
          simp only [hasSite_withoutComment hcall hpassed, Bool.false_eq_true, if_false]
          cases hsite : hasSite Shape.all (strip line) with
          | true => exact ⟨[], .nil, fun arguments => (List.append_nil _).symm⟩
          | false =>
              rw [hsite, if_neg Bool.false_ne_true] at hspares
              simp only [Bool.false_eq_true, if_false]
              by_cases hclosed : depth + Arguments.balance (strip line) ≤ 0
              · -- the last line loses an idle comment
                rw [if_pos hclosed] at hspares
                obtain ⟨z, hz, hstrip⟩ := strip_withoutComment hline hspares hpassed
                have hbalance := hz.balance_append (strip (withoutComment (chosen number) line))
                rw [← hstrip] at hbalance
                rw [if_pos hclosed, if_pos (by rwa [← hbalance])]
                refine ⟨z, hz, fun arguments => ?_⟩
                simp only [join, hstrip, List.append_assoc]
              · rw [if_neg hclosed] at hspares
                obtain ⟨hkeeps, hspares⟩ := hspares
                obtain ⟨z, hz, hrest⟩ := ih hlines hcalls hspares
                rw [withoutComment_of_keeps hkeeps, if_neg hclosed, if_neg hclosed]
                refine ⟨z, hz, fun arguments => ?_⟩
                simp only [join, List.append_assoc] at hrest ⊢
                rw [hrest]

theorem complete_uncommented {number : Nat} {arguments : Text} {following : List Text}
    (hlines : ∀ line ∈ following, '\n' ∉ line)
    (hcalls : ∀ entry ∈ following.zipIdx number, LosesNoCall chosen entry.2 entry.1)
    (hspares : ¬ 1 + Arguments.balance arguments ≤ 0 → SparesContinuation chosen
      (1 + Arguments.balance arguments) number (following.take Arguments.maxContinuations)) :
    ∃ z, IsTrailer z ∧ Arguments.complete Shape.all arguments following =
      Arguments.complete Shape.all arguments (uncommented chosen number following) ++ z := by
  unfold Arguments.complete
  dsimp only
  by_cases hclosed : 1 + Arguments.balance arguments ≤ 0
  · rw [if_pos hclosed, if_pos hclosed]
    exact ⟨[], .nil, (List.append_nil _).symm⟩
  · rw [if_neg hclosed, if_neg hclosed, uncommented_take]
    have htaken : (following.take Arguments.maxContinuations).zipIdx number ⊆
        following.zipIdx number := by
      conv_rhs => rw [← List.take_append_drop Arguments.maxContinuations following,
        List.zipIdx_append]
      exact List.subset_append_left _ _
    obtain ⟨z, hz, hjoin⟩ := continuation_uncommented
      (fun line hline => hlines line (List.mem_of_mem_take hline))
      (fun entry hentry => hcalls entry (htaken hentry)) (hspares hclosed)
    exact ⟨z, hz, hjoin arguments⟩

end

/-! ## Files -/

section

variable {chosen : Nat → Bool}

/-- A call is the same from arguments that are the same but for a trailer. -/
theorem ofSite_trailer {z : Text} (hz : IsTrailer z) (shape : Shape) {site site' : Site}
    (hmethod : site'.method = site.method) (arguments line line' : Text) (number : Nat) :
    (Call.ofSite shape site (arguments ++ z) line number).map Call.withoutSource =
      (Call.ofSite shape site' arguments line' number).map Call.withoutSource := by
  rw [ofSite_withoutSource, ofSite_withoutSource, hz.contents_append, hmethod]

theorem atLine_of_isCommentLine {line : Text} (hcomment : isCommentLine line = true) (number : Nat)
    (following : List Text) : Calls.atLine .standard number line following = none :=
  if_pos hcomment

@[simp] theorem isCommentLine_code (line : Text) : isCommentLine (Literal.code line) = false := by
  rw [Bool.eq_false_iff, isCommentLine, Ne, isComment_iff]
  exact Literal.head?_stripStart_code line

/-- A line without code has no call. -/
theorem atLine_code_of_isCommentLine {line : Text} (hcomment : isCommentLine line = true)
    (number : Nat) (following : List Text) :
    Calls.atLine .standard number (Literal.code line) following = none := by
  have hblank : ∀ c ∈ Literal.code line, isBlank c = true := by
    apply isBlank_of_strip_eq_nil
    have hpassed := isPassed_of_isCommentLine hcomment
    rw [isPassed_strip_code, isPassed_strip_iff] at hpassed
    exact hpassed.resolve_right (Literal.head?_stripStart_code line)
  have hnone : firstSite? Shape.all (Literal.code line) = none := by
    rw [firstSite?, List.findSome?_eq_none_iff]
    intro shape _
    have hscan := stopsAtBoundaries_siteHere? shape
    rw [Shape.site?, hscan.respects.findWord?_blank hscan.nil hblank]
    rfl
  unfold Calls.atLine
  rw [show Calls.Options.standard.shapes = Shape.all from rfl, hnone]
  exact ite_self _

theorem atLine_of_call {line : Text} (hcomment : isCommentLine line = false) (number : Nat)
    (following : List Text) : Calls.atLine .standard number line following =
      (firstSite? Shape.all line).map fun (shape, site) => Call.ofSite shape site
        (Arguments.complete Shape.all site.arguments following) line number :=
  if_neg (Bool.eq_false_iff.mp hcomment)

variable {number : Nat} {line : Text} {following : List Text}
  (hlines : ∀ line ∈ following, '\n' ∉ line)
  (hcalls : ∀ entry ∈ following.zipIdx (number + 1), LosesNoCall chosen entry.2 entry.1)

include hlines hcalls

/-- The call on a line that keeps its comment is the same when the further lines lose theirs. -/
theorem atLine_uncommented_following (hspares : isCommentLine line = false → ∀ shape site,
      firstSite? Shape.all line = some (shape, site) →
        SparesArguments chosen number line site.arguments following) :
    (Calls.atLine .standard number line (uncommented chosen (number + 1) following)).map
      (Except.map Call.withoutSource) =
        (Calls.atLine .standard number line following).map (Except.map Call.withoutSource) := by
  cases hcomment : isCommentLine line with
  | true => rw [atLine_of_isCommentLine hcomment, atLine_of_isCommentLine hcomment]
  | false =>
      rw [atLine_of_call hcomment, atLine_of_call hcomment]
      cases hsite : firstSite? Shape.all line with
      | none => rfl
      | some found =>
          obtain ⟨shape, site⟩ := found
          have hopen := hspares hcomment shape site hsite
          obtain ⟨z, hz, hcomplete⟩ := complete_uncommented hlines hcalls fun hopenDepth => by
            rw [SparesArguments, if_neg hopenDepth] at hopen
            exact hopen.2
          simp only [Option.map_some, hcomplete, ofSite_trailer hz shape rfl _ line line number]

omit hlines hcalls in
/-- The call on a line whose code closes it is the same without the comment of the line, if that is
idle. -/
theorem atLine_code_of_closed {shape : Shape} {site : Site} (hline : '\n' ∉ line)
    (hcomment : isCommentLine line = false)
    (hsite : firstSite? Shape.all (Literal.code line) = some (shape, site))
    (hfirst : firstSite? Shape.all line =
      some (shape, { site with arguments := site.arguments ++ Literal.comment line }))
    (hclosed : 1 + Arguments.balance (site.arguments ++ Literal.comment line) ≤ 0)
    (hidle : IsIdle (Literal.comment line)) (others : List Text) :
    (Calls.atLine .standard number (Literal.code line) others).map (Except.map Call.withoutSource) =
      (Calls.atLine .standard number line following).map (Except.map Call.withoutSource) := by
  have htrailer : IsTrailer (Literal.comment line) := by
    refine .intro (show ∀ c ∈ [], isBlank c = true by simp) hidle (Literal.head?_comment line)
      fun hmem => hline ?_
    rw [← Literal.code_append_comment line]
    exact List.mem_append_right _ hmem
  have hclosedCode : 1 + Arguments.balance site.arguments ≤ 0 := by
    rwa [← htrailer.balance_append]
  rw [atLine_of_call (isCommentLine_code line), atLine_of_call hcomment, hsite, hfirst]
  simp only [Option.map_some, Arguments.complete, if_pos hclosed, if_pos hclosedCode]
  exact congrArg some (ofSite_trailer htrailer shape rfl _ line _ number).symm

theorem atLine_uncommented (hline : '\n' ∉ line) (hcall : LosesNoCall chosen number line)
    (hspares : isCommentLine line = false → ∀ shape site,
      firstSite? Shape.all line = some (shape, site) →
        SparesArguments chosen number line site.arguments following) :
    (Calls.atLine .standard number (withoutComment (chosen number) line)
      (uncommented chosen (number + 1) following)).map (Except.map Call.withoutSource) =
        (Calls.atLine .standard number line following).map (Except.map Call.withoutSource) := by
  have hsame := atLine_uncommented_following hlines hcalls hspares
  cases hchosen : chosen number with
  | false => exact hsame
  | true =>
      change (Calls.atLine .standard number (Literal.code line) _).map _ = _
      cases hcomment : isCommentLine line with
      | true => rw [atLine_code_of_isCommentLine hcomment, atLine_of_isCommentLine hcomment]
      | false =>
          have hnone := (hcall hchosen).resolve_left (by simp [hcomment])
          have hfirst := firstSite?_code hnone
          cases hsite : firstSite? Shape.all (Literal.code line) with
          | none =>
              rw [hsite] at hfirst
              rw [atLine_of_call (isCommentLine_code line), atLine_of_call hcomment, hsite, hfirst]
              rfl
          | some found =>
              obtain ⟨shape, site⟩ := found
              rw [hsite] at hfirst
              have hopen := hspares hcomment shape _ hfirst
              unfold SparesArguments at hopen
              split at hopen
              next hclosed =>
                -- the call ends before its comment, which is idle
                exact atLine_code_of_closed hline hcomment hsite hfirst hclosed (hopen hchosen) _
              next =>
                -- the call goes on, so its line has no comment to lose
                have hkept := withoutComment_of_keeps hopen.1
                rw [hchosen] at hkept
                change Literal.code line = line at hkept
                rw [hkept]
                exact hsame

end

section

variable {chosen : Nat → Bool}

theorem ofLines_uncommented {lines : List Text} {number : Nat}
    (hlines : ∀ line ∈ lines, '\n' ∉ line)
    (hcalls : ∀ entry ∈ lines.zipIdx number, LosesNoCall chosen entry.2 entry.1)
    (hspares : ∀ before line following, lines = before ++ line :: following →
      isCommentLine line = false → ∀ shape site, firstSite? Shape.all line = some (shape, site) →
        SparesArguments chosen (number + before.length) line site.arguments following) :
    (Calls.ofLines .standard number (uncommented chosen number lines)).map Calls.withoutSources =
      (Calls.ofLines .standard number lines).map Calls.withoutSources := by
  induction lines generalizing number with
  | nil => rfl
  | cons line rest ih =>
      obtain ⟨hline, hlines⟩ := List.forall_mem_cons.mp hlines
      obtain ⟨hcall, hcalls⟩ := List.forall_mem_cons.mp hcalls
      have hhere := atLine_uncommented hlines hcalls hline hcall (hspares [] line rest rfl)
      have hrest := ih hlines hcalls fun before other following hsplit => by
        have hspared := hspares (line :: before) other following (by rw [hsplit]; rfl)
        rwa [List.length_cons, Nat.add_comm before.length, ← Nat.add_assoc] at hspared
      rw [uncommented_cons, Calls.ofLines_cons, Calls.ofLines_cons, after_withoutSources,
        after_withoutSources, hhere, hrest]

end

/-! ## An empty last line -/

theorem continuation_concat_nil (depth : Int) (lines : List Text) :
    Arguments.continuation Shape.all depth (lines ++ [[]]) =
      Arguments.continuation Shape.all depth lines := by
  induction lines generalizing depth with
  | nil => rfl
  | cons line rest ih => simp only [List.cons_append, continuation_cons, ih]

theorem complete_concat_nil (arguments : Text) (following : List Text) :
    Arguments.complete Shape.all arguments (following ++ [[]]) =
      Arguments.complete Shape.all arguments following := by
  have htaken : ∀ depth, Arguments.continuation Shape.all depth
      ((following ++ [[]]).take Arguments.maxContinuations) =
        Arguments.continuation Shape.all depth (following.take Arguments.maxContinuations) := by
    intro depth
    rw [List.take_append]
    cases Arguments.maxContinuations - following.length with
    | zero => rw [List.take_zero, List.append_nil]
    | succ n =>
        have hlast : [([] : Text)].take (n + 1) = [[]] := by rw [List.take_succ_cons, List.take_nil]
        rw [hlast, continuation_concat_nil]
  unfold Arguments.complete
  simp only [htaken]

/-- An empty line at the end has no part in any call. -/
theorem ofLines_concat_nil (number : Nat) (lines : List Text) :
    Calls.ofLines .standard number (lines ++ [[]]) = Calls.ofLines .standard number lines := by
  induction lines generalizing number with
  | nil => rfl
  | cons line rest ih =>
      have hline : Calls.atLine .standard number line (rest ++ [[]]) =
          Calls.atLine .standard number line rest := by
        cases hcomment : isCommentLine line with
        | true => rw [atLine_of_isCommentLine hcomment, atLine_of_isCommentLine hcomment]
        | false => simp only [atLine_of_call hcomment, complete_concat_nil]
      rw [List.cons_append, Calls.ofLines_cons, Calls.ofLines_cons, hline, ih]

/-- The second text is the first one without the comments of the chosen lines. Of a last line with
nothing but its comment there is no line left. -/
def TakesComments (chosen : Nat → Bool) (t t' : Text) : Prop :=
  lines t' = uncommented chosen 1 (lines t) ∨ lines t' ++ [[]] = uncommented chosen 1 (lines t)

/-- The comments that are taken hold no call behind code, and no call misses one. -/
structure SparesCalls (chosen : Nat → Bool) (lines : List Text) : Prop where
  noCall : ∀ entry ∈ lines.zipIdx 1, LosesNoCall chosen entry.2 entry.1
  arguments : ∀ before line following, lines = before ++ line :: following →
    isCommentLine line = false → ∀ shape site, firstSite? Shape.all line = some (shape, site) →
      SparesArguments chosen (1 + before.length) line site.arguments following

/-- The calls of a file, and those that make no sense, are the same without comments on any lines,
if no line loses a comment while a call is open, the last line of a call loses no comment with a
quote or a date, and no line with code loses a comment with a call. -/
theorem ofText_uncommented {chosen : Nat → Bool} {t t' : Text} (htakes : TakesComments chosen t t')
    (hspares : SparesCalls chosen (lines t)) :
    (Calls.ofText .standard t').map Calls.withoutSources =
      (Calls.ofText .standard t).map Calls.withoutSources := by
  have hlines := ofLines_uncommented (newline_notMem_lines t) hspares.noCall hspares.arguments
  unfold Calls.ofText
  rcases htakes with hsame | hshorter
  · rw [hsame, hlines]
  · rw [← hlines, ← hshorter, ofLines_concat_nil]

/-- A line with a commented call. -/
def oldDay : Text := "# self._add_holiday(\"A\", date(year, JAN, 1))"

/-- A line at the end of a call, with a comment. -/
def newDay : Text := "    \"B\", date(year, JAN, 2))  # since 1990"

theorem ofText_uncommented_newDay :
    (Calls.ofText .standard ("\nself._add_holiday(\n" ++ Literal.code newDay ++ "\n")).map
        Calls.withoutSources =
      (Calls.ofText .standard (oldDay ++ "\nself._add_holiday(\n" ++ newDay ++ "\n")).map
        Calls.withoutSources := by
  have hlines : lines (oldDay ++ "\nself._add_holiday(\n" ++ newDay ++ "\n") =
      [oldDay, "self._add_holiday(".toList, newDay] := by decide +kernel
  have hsite : firstSite? Shape.all "self._add_holiday(" =
      some (.generic, ⟨.plain "_add_holiday", []⟩) := by decide +kernel
  have hspares : SparesCalls (fun _ => true)
      (lines (oldDay ++ "\nself._add_holiday(\n" ++ newDay ++ "\n")) := by
    rw [hlines]
    constructor
    · have hcalls : isCommentLine oldDay = true ∧
          hasSite Shape.all (Literal.comment "self._add_holiday(") = false ∧
          hasSite Shape.all (Literal.comment newDay) = false := by decide +kernel
      simp only [List.zipIdx_cons, List.zipIdx_nil, List.forall_mem_cons]
      exact ⟨fun _ => .inl hcalls.1, fun _ => .inr hcalls.2.1, fun _ => .inr hcalls.2.2, by simp⟩
    · intro before line following hsplit hcomment shape site hfound
      rcases before with _ | ⟨first, _ | ⟨second, before⟩⟩
      · obtain ⟨rfl, -⟩ := List.cons.inj hsplit
        exact absurd hcomment (by decide +kernel)
      · simp only [List.cons_append, List.nil_append, List.cons.injEq] at hsplit
        obtain ⟨-, rfl, rfl⟩ := hsplit
        obtain ⟨-, rfl⟩ := Prod.mk.inj (Option.some.inj (hsite.symm.trans hfound))
        rw [SparesArguments, if_neg (by decide +kernel)]
        refine ⟨fun _ => by decide +kernel, ?_⟩
        change SparesContinuation _ _ _ [newDay]
        rw [SparesContinuation, if_neg (by decide +kernel), if_neg (by decide +kernel),
          if_pos (by decide +kernel)]
        exact fun _ => by constructor <;> decide +kernel
      · simp only [List.cons_append, List.cons.injEq] at hsplit
        have hlast : line ∈ [newDay] := by
          rw [hsplit.2.2]
          simp
        obtain rfl := List.mem_singleton.mp hlast
        have hnone : firstSite? Shape.all newDay = none := by decide +kernel
        rw [hnone] at hfound
        cases hfound
  exact ofText_uncommented (.inl (by decide +kernel)) hspares

/-- A call with a comment, or none, before its last argument. -/
def dayAfter (comment : Text) : Text :=
  "self._add_easter_based_holiday(\n    \"Easter Monday\"," ++ comment ++ "\n    1,\n)\n"

/-- The call, with the distance that is read. -/
def dayAfterCalls (offset : Int) : Calls :=
  ⟨[⟨"_add_easter_based_holiday", .easterBased, "Easter Monday", .easterBased offset,
    "self._add_easter_based_holiday(", 1⟩], []⟩

/-- A comment within a call hides the arguments behind it, though every literal is closed. -/
theorem ofText_dayAfter :
    (∀ line ∈ lines (dayAfter "  # the day after"), Literal.closesLiterals 0 line = true) ∧
      TakesComments (fun _ => true) (dayAfter "  # the day after") (dayAfter "  ") ∧
      Calls.ofText .standard (dayAfter "  # the day after") = .ok (dayAfterCalls 0) ∧
      Calls.ofText .standard (dayAfter "  ") = .ok (dayAfterCalls 1) := by
  refine ⟨by decide +kernel, .inl (by decide +kernel), by decide +kernel, by decide +kernel⟩

end Almanac.Registration
