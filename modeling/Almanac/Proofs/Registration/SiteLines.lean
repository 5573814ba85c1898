import Almanac.Proofs.Registration.CallLines
import Almanac.Proofs.Registration.CallSeams
import Almanac.Proofs.Text.Stripping

/-!
# Lines with the site of a call

A line has an outcome just if it carries the site of a call and is more than a comment. Of the
lines behind it, those without anything but white space or a comment have no part in the call. The
white space around a line makes no difference to its sites.
-/

namespace Almanac.Registration

open Almanac.Text

/-! ## Comments and blank lines -/

/-- Is there nothing but a comment on the line? -/
def isCommentLine (line : Text) : Bool :=
  Arguments.isComment (stripStart line)

theorem isComment_iff (t : Text) : Arguments.isComment t = true ↔ t.head? = some '#' := by
  unfold Arguments.isComment
  split
  next => simp
  next hother =>
    refine iff_of_false Bool.false_ne_true fun hhead => ?_
    obtain ⟨rest, rfl⟩ := List.head?_eq_some_iff.mp hhead
    exact hother rest rfl

/-- Is a stripped line no part of the arguments of a call? -/
def isPassed (piece : Text) : Bool :=
  piece.isEmpty || Arguments.isComment piece

/-- A text that begins with a sign after white space, if with anything, is no part of arguments. -/
theorem isPassed_strip_iff (t : Text) : isPassed (strip t) = true ↔
    strip t = [] ∨ (stripStart t).head? = some '#' := by
  have hprefix : strip t <+: stripStart t := List.rdropWhile_prefix _ _
  rw [isPassed, Bool.or_eq_true, List.isEmpty_iff, isComment_iff]
  cases hstrip : strip t with
  | nil => simp
  | cons c rest =>
      rw [hstrip] at hprefix
      obtain ⟨more, hmore⟩ := hprefix
      rw [← hmore]
      simp

theorem isPassed_of_isCommentLine {line : Text} (h : isCommentLine line = true) :
    isPassed (strip line) = true :=
  (isPassed_strip_iff line).mpr (.inr ((isComment_iff _).mp h))

/-- Arguments go on with a line that is no blank one, no comment and no call, until they close. -/
theorem continuation_cons (shapes : List Shape) (depth : Int) (line : Text) (rest : List Text) :
    Arguments.continuation shapes depth (line :: rest) =
      if isPassed (strip line) then Arguments.continuation shapes depth rest
      else if hasSite shapes (strip line) then []
      else if depth + Arguments.balance (strip line) ≤ 0 then [strip line]
      else strip line ::
        Arguments.continuation shapes (depth + Arguments.balance (strip line)) rest := rfl

/-! ## Sites -/

/-- Does the line carry the site of a call, and is it more than a comment? -/
def carriesSite (shapes : List Shape) (line : Text) : Bool :=
  !isCommentLine line && hasSite shapes line

theorem carriesSite_iff (shapes : List Shape) (line : Text) : carriesSite shapes line = true ↔
    isCommentLine line = false ∧ ∃ shape ∈ shapes, (shape.site? line).isSome = true := by
  rw [carriesSite, hasSite, Bool.and_eq_true, Bool.not_eq_true', List.any_eq_true]

/-- White space around a text has no part in its sites. -/
theorem site?_isSome_between {front back : Text} (hfront : ∀ c ∈ front, isBlank c = true)
    (hback : ∀ c ∈ back, isBlank c = true) (shape : Shape) (t : Text) :
    (shape.site? (front ++ (t ++ back))).isSome = (shape.site? t).isSome := by
  have hscan := stopsAtBoundaries_siteHere? shape
  unfold Shape.site?
  rw [hscan.findWord?_blank_append hfront,
    hscan.respects.findWord?_append hscan.nil (isSeam_of_blank hback),
    hscan.respects.findWord?_blank hscan.nil hback, Option.or_none, Option.isSome_map]

theorem hasSite_between {front back : Text} (hfront : ∀ c ∈ front, isBlank c = true)
    (hback : ∀ c ∈ back, isBlank c = true) (shapes : List Shape) (t : Text) :
    hasSite shapes (front ++ (t ++ back)) = hasSite shapes t := by
  unfold hasSite
  simp only [site?_isSome_between hfront hback]

theorem hasSite_strip (shapes : List Shape) (line : Text) :
    hasSite shapes (strip line) = hasSite shapes line := by
  obtain ⟨front, back, hfront, hback, hline⟩ := exists_strip_between line
  conv_rhs => rw [hline]
  exact (hasSite_between hfront hback shapes (strip line)).symm

theorem hasSite_blank {blanks : Text} (hblank : ∀ c ∈ blanks, isBlank c = true)
    (shapes : List Shape) : hasSite shapes blanks = false := by
  have hnone := hasSite_between hblank (show ∀ c ∈ [], isBlank c = true by simp) shapes []
  rw [List.append_nil, List.append_nil] at hnone
  rw [hnone]
  simp [hasSite, Shape.site?, findWord?, search]

theorem isSome_firstSite? (shapes : List Shape) (line : Text) :
    (firstSite? shapes line).isSome = hasSite shapes line := by
  unfold firstSite? hasSite
  rw [List.isSome_findSome?]
  simp only [Option.isSome_map]

/-- A blank line and a comment carry no site. -/
theorem carriesSite_of_isPassed {line : Text} (hpassed : isPassed (strip line) = true)
    (shapes : List Shape) : carriesSite shapes line = false := by
  rcases (isPassed_strip_iff line).mp hpassed with hblank | hcomment
  · rw [carriesSite, hasSite_blank (isBlank_of_strip_eq_nil hblank), Bool.and_false]
  · rw [carriesSite, isCommentLine, (isComment_iff _).mpr hcomment]
    rfl

namespace Calls

variable {options : Options}

/-- The arguments with which the call of a site is read. -/
def argumentsOf (options : Options) (site : Site) (following : List Text) : Text :=
  if options.joined then Arguments.complete options.shapes site.arguments following
  else site.arguments

theorem atLine_eq (options : Options) (number : Nat) (line : Text) (following : List Text) :
    atLine options number line following =
      if isCommentLine line then none
      else (firstSite? options.shapes line).map fun (shape, site) =>
        Call.ofSite shape site (argumentsOf options site following) line number := rfl

/-- Just the lines that carry a site have an outcome. -/
theorem isSome_atLine (options : Options) (number : Nat) (line : Text) (following : List Text) :
    (atLine options number line following).isSome = carriesSite options.shapes line := by
  rw [atLine_eq, carriesSite]
  cases isCommentLine line with
  | true => rfl
  | false => simp [isSome_firstSite?]

theorem atLine_eq_none {line : Text} (hline : carriesSite options.shapes line = false)
    (number : Nat) (following : List Text) : atLine options number line following = none := by
  rw [← Option.not_isSome_iff_eq_none, isSome_atLine, hline]
  exact Bool.false_ne_true

/-- Lines without a site have no calls and no errors. -/
theorem ofLines_of_noSite {lines : List Text}
    (hlines : ∀ line ∈ lines, carriesSite options.shapes line = false) (number : Nat) :
    ofLines options number lines = .ok ⟨[], []⟩ := by
  induction lines generalizing number with
  | nil => rfl
  | cons line rest ih =>
      obtain ⟨hline, hrest⟩ := List.forall_mem_cons.mp hlines
      rw [ofLines_cons, atLine_eq_none hline]
      exact ih hrest (number + 1)

end Calls
end Almanac.Registration
