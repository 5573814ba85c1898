import Almanac.Proofs.Registration.CallContents
import Almanac.Proofs.Registration.CallSeams
import Almanac.Proofs.Source.LiteralText
import Almanac.Proofs.Text.Stripping

/-!
# What trails the arguments of a call

White space and a comment at the end of the arguments of a call change nothing that is read from
them, if the comment holds no quote and no date: no literal and no date ends in it or begins there,
its parentheses do not count, and it is cut from the text that tells the date. Only an expression
that nothing is made of could show it, and it is cut from that, too.
-/

namespace Almanac.Registration

open Almanac.Text Almanac.Source Almanac.Holiday

/-- A comment that says nothing about a holiday: no literal begins or ends in it, and it holds no
date. -/
structure IsIdle (comment : Text) : Prop where
  noDouble : '"' ∉ comment
  noSingle : '\'' ∉ comment
  noDate : findWord? DateExpression.fixedDate? comment = none
  noDistance : findWord? DateExpression.easter? comment = none

/-- White space and behind it an idle comment, to the end of a line. -/
inductive IsTrailer : Text → Prop
  | intro {blanks comment : Text} (hblank : ∀ c ∈ blanks, isBlank c = true) (hidle : IsIdle comment)
      (hsign : ∀ c ∈ comment.head?, c = '#') (hline : '\n' ∉ comment) :
      IsTrailer (blanks ++ comment)

/-- White space and a comment are a seam for the scanners of calls and dates. -/
theorem isSeam_of_comment {blanks comment : Text} (hblank : ∀ c ∈ blanks, isBlank c = true)
    (hsign : ∀ c ∈ comment.head?, c = '#') :
    IsSeam DateExpression.easterMarks (blanks ++ comment) := by
  refine IsSeam.append_blank hblank ?_
  cases comment with
  | nil => exact isSeam_of_blank (by simp)
  | cons c rest =>
      obtain rfl := hsign c rfl
      exact isSeam_cons (IsBoundary.isForeign (.inr (.inr (.inr rfl)))) rest

/-- What a search does not find in a text, it does not find with less white space at the end. -/
theorem StopsAtBoundaries.findWord?_eq_none {α : Type} {scan : Text → Option α}
    {longer : Text → α → α} (hscan : StopsAtBoundaries scan longer) {t blanks : Text}
    (hblank : ∀ c ∈ blanks, isBlank c = true) (hnone : findWord? scan (t ++ blanks) = none) :
    findWord? scan t = none := by
  rw [hscan.respects.findWord?_append hscan.nil (isSeam_of_blank hblank),
    Option.or_eq_none_iff] at hnone
  exact Option.map_eq_none_iff.mp hnone.1

theorem IsIdle.of_append_blank {comment blanks : Text} (hblank : ∀ c ∈ blanks, isBlank c = true)
    (h : IsIdle (comment ++ blanks)) : IsIdle comment where
  noDouble hmem := h.noDouble (List.mem_append_left _ hmem)
  noSingle hmem := h.noSingle (List.mem_append_left _ hmem)
  noDate := stopsAtBoundaries_fixedDate?.findWord?_eq_none hblank h.noDate
  noDistance := stopsAtBoundaries_easter?.findWord?_eq_none hblank h.noDistance

namespace IsTrailer

variable {z : Text}

theorem nil : IsTrailer [] :=
  .intro (show ∀ c ∈ [], isBlank c = true by simp) ⟨by simp, by simp, rfl, rfl⟩ (by simp) (by simp)

theorem noQuote (hz : IsTrailer z) : '"' ∉ z ∧ '\'' ∉ z := by
  obtain ⟨hblank, hidle, -, -⟩ := hz
  have hquote : isBlank '"' = false ∧ isBlank '\'' = false := by decide
  simp only [List.mem_append, not_or]
  refine ⟨⟨fun h => ?_, hidle.noDouble⟩, ⟨fun h => ?_, hidle.noSingle⟩⟩
  · simp [hblank _ h] at hquote
  · simp [hblank _ h] at hquote

theorem isSeam (hz : IsTrailer z) : IsSeam DateExpression.easterMarks z := by
  obtain ⟨hblank, -, hsign, -⟩ := hz
  exact isSeam_of_comment hblank hsign

/-- A date is found before the trailer or not at all. -/
theorem findWord?_append (hz : IsTrailer z) (t : Text) :
    findWord? DateExpression.fixedDate? (t ++ z) = findWord? DateExpression.fixedDate? t ∧
      findWord? DateExpression.easter? (t ++ z) = findWord? DateExpression.easter? t := by
  have hseam := hz.isSeam
  obtain ⟨hblank, hidle, -, -⟩ := hz
  have hdate := stopsAtBoundaries_fixedDate?
  have hdistance := stopsAtBoundaries_easter?
  constructor
  · rw [hdate.respects.findWord?_append hdate.nil hseam, hdate.findWord?_blank_append hblank,
      hidle.noDate]
    simp
  · rw [hdistance.respects.findWord?_append hdistance.nil hseam,
      hdistance.findWord?_blank_append hblank, hidle.noDistance]
    simp

/-! ## Arguments with a trailer -/

theorem balance_append (hz : IsTrailer z) (t : Text) :
    Arguments.balance (t ++ z) = Arguments.balance t := by
  have hcode : ∀ c ∈ z.takeWhile (· ≠ '#'), isBlank c = true := by
    obtain ⟨hblank, -, hsign, -⟩ := hz
    rename_i blanks comment
    have hcomment : comment.takeWhile (· ≠ '#') = [] := by
      cases comment with
      | nil => rfl
      | cons c rest => simp [hsign c rfl]
    intro c hc
    rw [List.takeWhile_append, hcomment, List.append_nil] at hc
    split at hc
    · exact hblank c hc
    · exact hblank c (List.takeWhile_subset _ hc)
  have hopen : (z.takeWhile (· ≠ '#')).count '(' = 0 :=
    List.count_eq_zero.mpr fun h => absurd (hcode _ h) (by decide)
  have hclose : (z.takeWhile (· ≠ '#')).count ')' = 0 :=
    List.count_eq_zero.mpr fun h => absurd (hcode _ h) (by decide)
  unfold Arguments.balance
  dsimp only
  rw [Literal.hollow_append hz.noQuote.1 hz.noQuote.2, List.takeWhile_append]
  split
  next hlength =>
    have hall : (Literal.hollow t).takeWhile (· ≠ '#') = Literal.hollow t :=
      (List.takeWhile_prefix _).eq_of_length hlength
    rw [List.count_append, List.count_append, hopen, hclose, hall, Nat.add_zero, Nat.add_zero]
  next => rfl

theorem name?_append (hz : IsTrailer z) (t : Text) :
    Arguments.name? (t ++ z) = (Arguments.name? t).map fun (name, rest) => (name, rest ++ z) := by
  unfold Arguments.name?
  rw [Literal.find?_append (by decide) hz.noQuote.1, Literal.find?_append (by decide) hz.noQuote.2]
  cases Literal.find? '"' t with
  | some found => rfl
  | none => cases Literal.find? '\'' t <;> rfl

theorem withoutComments_inComment {comment : Text} (hline : '\n' ∉ comment) :
    Arguments.withoutComments true comment = [] := by
  induction comment with
  | nil => rfl
  | cons c comment ih =>
      simp only [List.mem_cons, not_or] at hline
      rw [Arguments.withoutComments, if_neg (Ne.symm hline.1), if_pos (by simp), ih hline.2]

/-- The comment is cut, and what is left of the white space before it is white space. -/
theorem withoutComments_trailer (hz : IsTrailer z) (inComment : Bool) :
    ∀ c ∈ Arguments.withoutComments inComment z, isBlank c = true := by
  obtain ⟨hblank, -, hsign, hline⟩ := hz
  rename_i blanks comment
  induction blanks generalizing inComment with
  | nil =>
      cases comment with
      | nil => simp [Arguments.withoutComments]
      | cons c rest =>
          obtain rfl := hsign c rfl
          simp only [List.mem_cons, not_or] at hline
          simp [Arguments.withoutComments, withoutComments_inComment hline.2]
  | cons c blanks ih =>
      obtain ⟨hc, hrest⟩ := List.forall_mem_cons.mp hblank
      have hlater := fun inComment => ih inComment hrest
      rw [List.cons_append, Arguments.withoutComments]
      split
      next => exact List.forall_mem_cons.mpr ⟨hc, hlater false⟩
      next =>
        split
        next => exact hlater true
        next => exact List.forall_mem_cons.mpr ⟨hc, hlater false⟩

theorem withoutComments_append (hz : IsTrailer z) (inComment : Bool) (t : Text) :
    ∃ blanks, (∀ c ∈ blanks, isBlank c = true) ∧ Arguments.withoutComments inComment (t ++ z) =
      Arguments.withoutComments inComment t ++ blanks := by
  induction t generalizing inComment with
  | nil => exact ⟨_, hz.withoutComments_trailer inComment, rfl⟩
  | cons c t ih =>
      rw [List.cons_append, Arguments.withoutComments, Arguments.withoutComments]
      split
      next =>
        obtain ⟨blanks, hblank, hcut⟩ := ih false
        exact ⟨blanks, hblank, by rw [hcut]; rfl⟩
      next =>
        split
        next => exact ih true
        next =>
          obtain ⟨blanks, hblank, hcut⟩ := ih false
          exact ⟨blanks, hblank, by rw [hcut]; rfl⟩

theorem tail_append (hz : IsTrailer z) (t : Text) : Arguments.tail (t ++ z) = Arguments.tail t := by
  obtain ⟨blanks, hblank, hcut⟩ := hz.withoutComments_append false t
  unfold Arguments.tail
  rw [hcut, strip_append_blank hblank]

/-- The arguments are classified alike, or as two texts that nothing is made of. -/
theorem classify_append (hz : IsTrailer z) (t : Text) :
    DateExpression.classify (t ++ z) = DateExpression.classify t ∨
      ∃ first second, DateExpression.classify (t ++ z) = .ok (.calculated first) ∧
        DateExpression.classify t = .ok (.calculated second) := by
  obtain ⟨hdate, hdistance⟩ := hz.findWord?_append t
  unfold DateExpression.classify
  rw [hdate, hdistance]
  cases findWord? DateExpression.fixedDate? t with
  | some found => exact .inl rfl
  | none =>
      cases findWord? DateExpression.easter? t with
      | some found => cases found <;> exact .inl rfl
      | none => exact .inr ⟨_, _, rfl, rfl⟩

theorem nameAndRest_append (hz : IsTrailer z) (t : Text) :
    Call.nameAndRest (t ++ z) =
      (Call.nameAndRest t).map fun (name, rest) => (name, rest ++ z) := by
  unfold Call.nameAndRest
  rw [hz.name?_append]
  cases Arguments.name? t <;> rfl

theorem orTail_append (hz : IsTrailer z) (t : Text) (date : DateExpression) :
    Call.orTail (t ++ z) date = Call.orTail t date := by
  cases date with
  | calculated expression => rw [Call.orTail, Call.orTail, hz.tail_append]
  | fixed | easterBased | weekdayBased => rfl

theorem contents_plain_append (hz : IsTrailer z) (shape : Shape) (full t : Text) :
    Call.contents shape (.plain full) (t ++ z) = Call.contents shape (.plain full) t := by
  cases hname : Arguments.name? t with
  | none =>
      have hnone : Arguments.name? (t ++ z) = none := by rw [hz.name?_append, hname]; rfl
      rw [Call.contents_of_noName shape full hname, Call.contents_of_noName shape full hnone]
  | some found =>
      have hsome : Arguments.name? (t ++ z) = some (found.1, found.2 ++ z) := by
        rw [hz.name?_append, hname]
        rfl
      cases shape with
      | easterBased =>
          rw [Call.contents_easterBased hname, Call.contents_easterBased hsome, hz.tail_append]
      | weekdayBased =>
          rw [Call.contents_weekdayBased hname, Call.contents_weekdayBased hsome, hz.tail_append]
      | generic | dateSuffixed | namedHelper =>
          rw [Call.contents_classified hname (by simp) (by simp),
            Call.contents_classified hsome (by simp) (by simp)]
          simp only [hz.orTail_append]
          rcases hz.classify_append t with hsame | ⟨first, second, hfirst, hsecond⟩
          · rw [hsame]
          · rw [hfirst, hsecond]
            rfl

/-- A call is read from its arguments whether or not a trailer stands behind them. -/
theorem contents_append (hz : IsTrailer z) (shape : Shape) (method : Method) (t : Text) :
    Call.contents shape method (t ++ z) = Call.contents shape method t := by
  cases method with
  | dated full month day =>
      unfold Call.contents
      dsimp only
      rw [hz.nameAndRest_append]
      cases (Month.abbreviated? (upper month)).isNone <;> cases Call.nameAndRest t <;> rfl
  | feast full date =>
      rw [Call.contents_feast, Call.contents_feast, hz.nameAndRest_append]
      cases Call.nameAndRest t <;> rfl
  | plain full => exact hz.contents_plain_append shape full t

end IsTrailer
end Almanac.Registration
