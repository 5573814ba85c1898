import Almanac.Proofs.Registration.CountedParentheses
import Almanac.Proofs.Registration.CutLines
import Almanac.Proofs.Text.TextLines

/-!
# Calls broken over lines

A call that stands on one line can be broken at the single spaces in the code of its arguments. Each
piece goes to a line of its own, with any white space before it, and empty lines and comments may
stand between the pieces. As long as the lines are no more than the arguments of a call can run
over, and no piece is a call itself, the file has the same call or the same error as before.
-/

namespace Almanac.Registration

open Almanac.Text Almanac.Source Almanac.Source.Literal

/-! ## Arguments -/

/-- With so many parentheses open before it, the text closes the last one at its end and not before,
and it has no open literal and no comment. -/
structure ClosesAtEnd (depth : Int) (t : Text) : Prop where
  literals : Place.code.behind t = .code
  noSign : Place.code.hasSign t = false
  closed : depth + Place.code.opened t = 0
  openBefore : ∀ before, before <+: t → before ≠ t → 0 < depth + Place.code.opened before

instance (depth : Int) (t : Text) : Decidable (ClosesAtEnd depth t) :=
  decidable_of_iff (Place.code.behind t = .code ∧ Place.code.hasSign t = false ∧
      depth + Place.code.opened t = 0 ∧
      ∀ before ∈ t.inits, before ≠ t → 0 < depth + Place.code.opened before) <| by
    simp only [List.mem_inits]
    exact ⟨fun ⟨hliterals, hsign, hclosed, hopen⟩ => ⟨hliterals, hsign, hclosed, hopen⟩,
      fun ⟨hliterals, hsign, hclosed, hopen⟩ => ⟨hliterals, hsign, hclosed, hopen⟩⟩

/-- The pieces of a text that is broken at spaces in its code, with no other white space beside
them. -/
inductive IsBroken : Text → List Text → Prop
  | whole (t : Text) : IsBroken t [t]
  | space {piece rest : Text} {pieces : List Text} (hcode : Place.code.behind piece = .code)
      (hbefore : ∀ c ∈ piece.getLast?, isBlank c = false)
      (hbehind : ∀ c ∈ rest.head?, isBlank c = false) (h : IsBroken rest pieces) :
      IsBroken (piece ++ ' ' :: rest) (piece :: pieces)

theorem IsBroken.join {t : Text} {pieces : List Text} (h : IsBroken t pieces) :
    join " " pieces = t := by
  induction h with
  | whole t => rfl
  | space _ _ _ h ih =>
      cases h with
      | whole => simp [Text.join]
      | space => rw [Text.join, ih] <;> simp

/-- A broken text begins with its first piece. -/
theorem IsBroken.exists_append {t first : Text} {pieces : List Text}
    (h : IsBroken t (first :: pieces)) : ∃ more, t = first ++ more := by
  cases h with
  | whole => exact ⟨[], (List.append_nil t).symm⟩
  | space => exact ⟨_, rfl⟩

namespace ClosesAtEnd

variable {depth : Int} {t piece rest : Text}

/-- Behind a space in the code the text goes on closing what is open there. -/
theorem behind_space (h : ClosesAtEnd depth (piece ++ ' ' :: rest))
    (hcode : Place.code.behind piece = .code) : Place.code.hasSign piece = false ∧
      0 < depth + Place.code.opened piece ∧
        ClosesAtEnd (depth + Place.code.opened piece) rest := by
  obtain ⟨hliterals, hsign, hclosed, hopen⟩ := h
  have hopened : ∀ u, Place.code.opened (piece ++ ' ' :: u) =
      Place.code.opened piece + Place.code.opened u := by
    intro u
    rw [Place.opened_append, hcode]
    congr 1
    exact zero_add _
  rw [Place.behind_append, hcode] at hliterals
  rw [Place.hasSign_append, hcode, Bool.or_eq_false_iff] at hsign
  rw [hopened] at hclosed
  refine ⟨hsign.1, hopen piece (List.prefix_append piece _) (by simp), ⟨hliterals, hsign.2, ?_, ?_⟩⟩
  · rw [add_assoc, hclosed]
  · intro before hprefix hne
    have hmore := hopen (piece ++ ' ' :: before)
      (List.prefix_append_right_inj piece |>.mpr (List.cons_prefix_cons.mpr ⟨rfl, hprefix⟩))
      (by simpa using hne)
    rwa [hopened, ← add_assoc] at hmore

/-- At its end stands the parenthesis that closes the last one. -/
theorem getLast? (h : ClosesAtEnd depth t) (hopen : 0 < depth) : t.getLast? = some ')' := by
  obtain rfl | ⟨before, last, rfl⟩ := List.eq_nil_or_concat t
  · have hclosed := h.closed
    rw [Place.opened] at hclosed
    omega
  · rw [List.concat_eq_append] at h ⊢
    have hclosed := h.closed
    have hbefore := h.openBefore before (List.prefix_append before _) (by simp)
    rw [Place.opened_append] at hclosed
    have hlast : Place.opened (Place.code.behind before) [last] < 0 := by omega
    have hclosing : last = ')' := by
      by_contra hne
      have hnonneg : 0 ≤ Place.opened (Place.code.behind before) [last] := by
        simp only [Place.opened, hne, if_false]
        split
        · rfl
        · split <;> decide
      omega
    rw [List.getLast?_concat, hclosing]

end ClosesAtEnd

/-! ## Lines -/

/-- Lines with one piece each, indented, and between the pieces any lines without code. -/
inductive IsLaid : List Text → List Text → Prop
  | nil : IsLaid [] []
  | passed {line : Text} {pieces lines : List Text} (hpassed : isPassed (strip line) = true)
      (h : IsLaid pieces lines) : IsLaid pieces (line :: lines)
  | piece {indent piece : Text} {pieces lines : List Text}
      (hindent : ∀ c ∈ indent, isBlank c = true) (h : IsLaid pieces lines) :
      IsLaid (piece :: pieces) ((indent ++ piece) :: lines)

/-! ## Arguments over several lines -/

/-- A part of arguments that can stand on a line of its own. -/
structure IsPiece (shapes : List Shape) (piece : Text) : Prop where
  ne_nil : piece ≠ []
  oneLine : '\n' ∉ piece
  first : ∀ c ∈ piece.head?, isBlank c = false
  last : ∀ c ∈ piece.getLast?, isBlank c = false
  literals : Place.code.behind piece = .code
  noSign : Place.code.hasSign piece = false
  noSite : hasSite shapes piece = false

theorem IsPiece.isPassed {shapes : List Shape} {piece : Text} (h : IsPiece shapes piece) :
    isPassed piece = false := by
  obtain ⟨c, more, rfl⟩ := List.exists_cons_of_ne_nil h.ne_nil
  have hsign := h.noSign
  rw [Place.hasSign, Bool.or_eq_false_iff] at hsign
  have hc : c ≠ '#' := by simpa using hsign.1
  rw [Bool.eq_false_iff, Registration.isPassed, Ne, Bool.or_eq_true, isComment_iff]
  simp [hc]

/-- A piece on a line is the next part of the arguments. -/
theorem IsPiece.continuation {shapes : List Shape} {piece indent : Text}
    (h : IsPiece shapes piece) (hindent : ∀ c ∈ indent, isBlank c = true) (depth : Int)
    (rest : List Text) : Arguments.continuation shapes depth ((indent ++ piece) :: rest) =
      if depth + Place.code.opened piece ≤ 0 then [piece]
      else piece :: Arguments.continuation shapes (depth + Place.code.opened piece) rest := by
  rw [continuation_cons, strip_indented hindent h.ne_nil h.first h.last, h.isPassed, h.noSite,
    Arguments.balance_of_closed h.oneLine h.literals h.noSign, if_neg Bool.false_ne_true,
    if_neg Bool.false_ne_true]

/-- From the lines with the pieces of arguments the pieces come back. -/
theorem IsLaid.continuation {shapes : List Shape} {pieces following : List Text}
    (hlaid : IsLaid pieces following) {depth : Int} {rest : Text} (hbroken : IsBroken rest pieces)
    (hcloses : ClosesAtEnd depth rest) (hopen : 0 < depth)
    (hfirst : ∀ c ∈ rest.head?, isBlank c = false) (hline : '\n' ∉ rest)
    (hsites : ∀ piece ∈ pieces, hasSite shapes piece = false) :
    Arguments.continuation shapes depth following = pieces := by
  induction hlaid generalizing depth rest with
  | nil => cases hbroken
  | passed hpassed h ih =>
      rw [continuation_cons, hpassed, if_pos rfl]
      exact ih hbroken hcloses hopen hfirst hline hsites
  | @piece indent piece pieces lines hindent h ih =>
      obtain ⟨hsite, hsites⟩ := List.forall_mem_cons.mp hsites
      cases hbroken with
      | whole =>
          have hlast := hcloses.getLast? hopen
          have hpiece : IsPiece shapes piece := by
            refine ⟨?_, hline, hfirst, ?_, hcloses.literals, hcloses.noSign, hsite⟩
            · rintro rfl
              cases hlast
            · rw [hlast]
              rintro c ⟨⟩
              decide
          rw [hpiece.continuation hindent, hcloses.closed, if_pos le_rfl]
      | @space _ rest _ hcode hbefore hbehind hrest =>
          obtain ⟨hsign, hstill, hcloses⟩ := hcloses.behind_space hcode
          simp only [List.mem_append, List.mem_cons, not_or] at hline
          have hpiece : IsPiece shapes piece := by
            refine ⟨?_, hline.1, ?_, hbefore, hcode, hsign, hsite⟩
            · rintro rfl
              exact absurd (hfirst ' ' rfl) (by decide)
            · intro c hc
              exact hfirst c (by simp_all)
          rw [hpiece.continuation hindent, if_neg (not_le.mpr hstill),
            ih hrest hcloses hstill hbehind hline.2.2 hsites]

/-- The arguments of a broken call are completed to what they were on one line. -/
theorem complete_broken {shapes : List Shape} {arguments first : Text}
    {pieces following : List Text} (hcloses : ClosesAtEnd 1 arguments) (hline : '\n' ∉ arguments)
    (hbroken : IsBroken arguments (first :: pieces)) (hlaid : IsLaid pieces following)
    (hfew : following.length ≤ 8) (hsites : ∀ piece ∈ pieces, hasSite shapes piece = false) :
    Arguments.complete shapes first following = arguments := by
  have hwhole := hbroken.join
  unfold Arguments.complete
  dsimp only
  cases hbroken with
  | whole =>
      rw [Arguments.balance_of_closed hline hcloses.literals hcloses.noSign, hcloses.closed,
        if_pos le_rfl]
  | @space _ rest _ hcode _ hbehind hrest =>
      obtain ⟨hsign, hstill, hcloses⟩ := hcloses.behind_space hcode
      simp only [List.mem_append, List.mem_cons, not_or] at hline
      rw [Arguments.balance_of_closed hline.1 hcode hsign, if_neg (not_le.mpr hstill),
        List.take_of_length_le (show following.length ≤ Arguments.maxContinuations from hfew),
        hlaid.continuation hrest hcloses hstill hbehind hline.2.2 hsites, hwhole]

/-! ## Files -/

/-- No line behind that of the call carries a site. -/
theorem IsLaid.noSite {shapes : List Shape} {pieces following : List Text}
    (hlaid : IsLaid pieces following) (hsites : ∀ piece ∈ pieces, hasSite shapes piece = false) :
    ∀ line ∈ following, carriesSite shapes line = false := by
  induction hlaid with
  | nil => simp
  | passed hpassed h ih =>
      exact List.forall_mem_cons.mpr ⟨carriesSite_of_isPassed hpassed shapes, ih hsites⟩
  | @piece indent piece pieces lines hindent h ih =>
      obtain ⟨hsite, hsites⟩ := List.forall_mem_cons.mp hsites
      have hindented := hasSite_between hindent (show ∀ c ∈ [], isBlank c = true by simp) shapes
        piece
      rw [List.append_nil] at hindented
      refine List.forall_mem_cons.mpr ⟨?_, ih hsites⟩
      rw [carriesSite, hindented, hsite, Bool.and_false]

/-- The file with a call on one line has the same call, or the same error, as the one in which the
call is broken over several lines. -/
theorem ofText_broken {shapes : List Shape} {shape : Shape} {method : Method} {t t' : Text}
    {opening arguments first : Text} {pieces following : List Text}
    (hline : lines t = [opening ++ '(' :: arguments])
    (hsite : firstSite? shapes (opening ++ '(' :: arguments) = some (shape, ⟨method, arguments⟩))
    (hcloses : ClosesAtEnd 1 arguments) (hbroken : IsBroken arguments (first :: pieces))
    (hlaid : IsLaid pieces following) (hfew : following.length ≤ 8)
    (hsites : ∀ piece ∈ pieces, hasSite shapes piece = false)
    (hlines : lines t' = (opening ++ '(' :: first) :: following) :
    (Calls.ofText ⟨shapes, true⟩ t').map Calls.withoutSources =
      (Calls.ofText ⟨shapes, true⟩ t).map Calls.withoutSources := by
  have honeLine : '\n' ∉ arguments := by
    have hnewline := newline_notMem_lines t _ (hline ▸ List.mem_singleton_self _)
    simp only [List.mem_append, List.mem_cons, not_or] at hnewline
    exact hnewline.2.2
  have hcut : firstSite? shapes (opening ++ '(' :: first) = some (shape, ⟨method, first⟩) := by
    obtain ⟨more, rfl⟩ := hbroken.exists_append
    exact firstSite?_cut hsite
  have hcomplete : Arguments.complete shapes arguments [] = arguments :=
    complete_broken hcloses honeLine (.whole arguments) .nil (Nat.zero_le 8) (by simp)
  have hcomplete' : Arguments.complete shapes first following = arguments :=
    complete_broken hcloses honeLine hbroken hlaid hfew hsites
  have hsame : (Calls.atLine ⟨shapes, true⟩ 1 (opening ++ '(' :: first) following).map
        (Except.map Call.withoutSource) =
      (Calls.atLine ⟨shapes, true⟩ 1 (opening ++ '(' :: arguments) []).map
        (Except.map Call.withoutSource) := by
    rw [Calls.atLine_eq, Calls.atLine_eq, isCommentLine_append_parenthesis,
      isCommentLine_append_parenthesis opening arguments, hcut, hsite]
    simp only [Option.map_some, Calls.argumentsOf, if_true, hcomplete, hcomplete']
    split
    · rfl
    · rw [Option.map_some, Option.map_some, ofSite_withoutSource, ofSite_withoutSource]
  unfold Calls.ofText
  rw [hline, hlines, Calls.ofLines_cons, Calls.ofLines_cons,
    Calls.ofLines_of_noSite (hlaid.noSite hsites), after_withoutSources, after_withoutSources,
    hsame]
  rfl

/-- The arguments of a call, with a parenthesis and a quote in the name of the holiday. -/
def johnsArguments : Text :=
  "tr(\"John's (Day\"),".toList ++ ' ' :: ("date(year,".toList ++ ' ' :: "JUN, 24))".toList)

/-- The lines that the last two pieces of the arguments are put on. -/
def johnsFollowing : List Text :=
  ["", "  # self._add_good_friday(\"B\")", "        ".toList ++ "date(year,",
    "\t".toList ++ "JUN, 24))"]

theorem ofText_broken_johnsDay :
    (Calls.ofText .standard (join "\n"
        (("    self._add_holiday".toList ++ "(tr(\"John's (Day\"),") :: johnsFollowing))).map
        Calls.withoutSources =
      (Calls.ofText .standard ("    self._add_holiday".toList ++ '(' :: johnsArguments)).map
        Calls.withoutSources := by
  have hbroken : IsBroken johnsArguments ["tr(\"John's (Day\"),", "date(year,", "JUN, 24))"] :=
    .space (by decide) (by rintro c ⟨⟩; rfl) (by rintro c ⟨⟩; rfl) <|
      .space (by decide) (by rintro c ⟨⟩; rfl) (by rintro c ⟨⟩; rfl) (.whole _)
  have hlaid : IsLaid ["date(year,", "JUN, 24))"] johnsFollowing :=
    .passed (by decide +kernel) <| .passed (by decide +kernel) <|
      .piece (List.all_eq_true.mp (by decide)) <| .piece (List.all_eq_true.mp (by decide)) .nil
  have hline : lines ("    self._add_holiday".toList ++ '(' :: johnsArguments) =
      ["    self._add_holiday".toList ++ '(' :: johnsArguments] := by decide +kernel
  have hsite : firstSite? Shape.all ("    self._add_holiday".toList ++ '(' :: johnsArguments) =
      some (.generic, ⟨.plain "_add_holiday", johnsArguments⟩) := by decide +kernel
  exact ofText_broken hline hsite (by decide +kernel) hbroken hlaid (by decide +kernel)
    (by decide +kernel) (by decide +kernel)

end Almanac.Registration
