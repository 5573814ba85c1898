import Almanac.Proofs.Registration.Trailers

/-!
# Tails of arguments

Behind the name of a holiday stand the separators that close it, then an argument, and then the
parenthesis that closes the call, with a comma before it or a comment behind it. The tail is the
argument alone if the separators stand together. Where white space parts them, those behind the
first run of them stay at the front of the tail.
-/

namespace Almanac.Registration.Arguments

open Almanac.Text

/-- Is the character one of those that close the name of a holiday? -/
def isSeparator (c : Char) : Bool :=
  c = ')' || c = ','

theorem isBlank_of_isSeparator {c : Char} (hc : isSeparator c = true) : isBlank c = false := by
  have hcases : c = ')' ∨ c = ',' := by simpa [isSeparator] using hc
  rcases hcases with rfl | rfl <;> decide

/-- An argument that shows by itself where it begins and ends among separators. -/
structure IsArgument (t : Text) : Prop where
  nonempty : t ≠ []
  noComment : '#' ∉ t
  first : ∀ c ∈ t.head?, isBlank c = false ∧ isSeparator c = false
  last : ∀ c ∈ t.getLast?, isBlank c = false ∧ c ≠ ','

/-- An argument is known by its first and its last character. -/
theorem IsArgument.of_ends {t : Text} {first last : Char} (hcomment : '#' ∉ t)
    (hhead : t.head? = some first) (hfirst : isBlank first = false ∧ isSeparator first = false)
    (hend : t.getLast? = some last) (hlast : isBlank last = false ∧ last ≠ ',') :
    IsArgument t where
  nonempty := by
    rintro rfl
    cases hhead
  noComment := hcomment
  first := by simpa [hhead] using hfirst
  last := by simpa [hend] using hlast

/-- The end of a call: a comma or none, the parenthesis that closes the call, and a comment or none,
with white space between them. -/
inductive IsClosing : Text → Prop
  | intro {before comma between behind comment : Text} (hbefore : ∀ c ∈ before, isBlank c = true)
      (hcomma : comma = [] ∨ comma = [',']) (hbetween : ∀ c ∈ between, isBlank c = true)
      (hbehind : ∀ c ∈ behind, isBlank c = true) (hsign : ∀ c ∈ comment.head?, c = '#')
      (hline : '\n' ∉ comment) :
      IsClosing (before ++ (comma ++ (between ++ ')' :: (behind ++ comment))))

/-- Separators that no white space parts, with white space around them. -/
inductive IsTogether : Text → Prop
  | intro {front run gap : Text} (hfront : ∀ c ∈ front, isBlank c = true)
      (hseparators : ∀ c ∈ run, isSeparator c = true) (hblank : ∀ c ∈ gap, isBlank c = true) :
      IsTogether (front ++ (run ++ gap))

/-- White space parts the separators that are left from a first run of them. -/
inductive IsParted : (opening left : Text) → Prop
  | intro {front run gap left : Text} (hfront : ∀ c ∈ front, isBlank c = true) (hrun : run ≠ [])
      (hseparators : ∀ c ∈ run, isSeparator c = true) (hgap : gap ≠ [])
      (hblank : ∀ c ∈ gap, isBlank c = true) (hleft : left ≠ [])
      (hfirst : ∀ c ∈ left.head?, isSeparator c = true) :
      IsParted (front ++ (run ++ (gap ++ left))) left

/-! ## Ends -/

/-- A text with something else than white space at both ends. -/
structure IsSolid (t : Text) : Prop where
  nonempty : t ≠ []
  first : ∀ c ∈ t.head?, isBlank c = false
  last : ∀ c ∈ t.getLast?, isBlank c = false

theorem IsArgument.isSolid {t : Text} (h : IsArgument t) : IsSolid t :=
  ⟨h.nonempty, fun c hc => (h.first c hc).1, fun c hc => (h.last c hc).1⟩

namespace IsSolid

variable {t : Text}

theorem strip_between (h : IsSolid t) {front back : Text} (hfront : ∀ c ∈ front, isBlank c = true)
    (hback : ∀ c ∈ back, isBlank c = true) : strip (front ++ (t ++ back)) = t := by
  rw [← List.append_assoc, strip_append_blank hback]
  exact strip_indented hfront h.nonempty h.first h.last

theorem strip_eq (h : IsSolid t) : strip t = t := by
  simpa using h.strip_between (List.forall_mem_nil _) (List.forall_mem_nil _)

/-- Of two solid texts the ends are those of both together. -/
theorem append (h : IsSolid t) (middle : Text) {u : Text} (hu : IsSolid u) :
    IsSolid (t ++ (middle ++ u)) where
  nonempty := by simp [h.nonempty]
  first := by
    obtain ⟨c, rest, rfl⟩ := List.exists_cons_of_ne_nil h.nonempty
    exact h.first
  last := by
    rw [← List.append_assoc, List.getLast?_append_of_ne_nil _ hu.nonempty]
    exact hu.last

end IsSolid

/-- Behind a text without comments a comment is cut. -/
theorem withoutComments_append {t : Text} (ht : '#' ∉ t) (u : Text) :
    withoutComments false (t ++ u) = t ++ withoutComments false u := by
  induction t with
  | nil => rfl
  | cons c t ih =>
      simp only [List.mem_cons, not_or] at ht
      rw [List.cons_append, withoutComments]
      split
      · rw [ih ht.2, List.cons_append]
      · rw [if_neg (by simp [Ne.symm ht.1]), ih ht.2, List.cons_append]

theorem withoutComments_comment {comment : Text} (hsign : ∀ c ∈ comment.head?, c = '#')
    (hline : '\n' ∉ comment) : withoutComments false comment = [] := by
  cases comment with
  | nil => rfl
  | cons c rest =>
      obtain rfl := hsign c rfl
      simp only [List.mem_cons, not_or] at hline
      rw [withoutComments, if_neg (by decide), if_pos (by decide),
        IsTrailer.withoutComments_inComment hline.2]

theorem withoutClosing_concat (t : Text) : withoutClosing (t ++ [')']) = stripEnd t := by
  have hreverse : (t ++ [')']).reverse = ')' :: t.reverse := by simp
  rw [withoutClosing, hreverse]
  change stripEnd t.reverse.reverse = _
  rw [List.reverse_reverse]

/-! ## What is left of a call -/

section

variable {w before comma between : Text} (hw : IsSolid w) (hlast : ∀ c ∈ w.getLast?, c ≠ ',')
  (hbefore : ∀ c ∈ before, isBlank c = true) (hcomma : comma = [] ∨ comma = [','])
  (hbetween : ∀ c ∈ between, isBlank c = true)

include hw hlast hbefore hcomma hbetween

/-- The closing parenthesis is taken away, and then the comma before it. -/
theorem strip_withoutClosing : strip (trimEnd (· = ',')
    (withoutClosing (w ++ (before ++ (comma ++ (between ++ [')'])))))) = w := by
  have hcomma' : ∀ c ∈ w.getLast?, decide (c = ',') = false := fun c hc => by
    simpa using hlast c hc
  have hassoc : w ++ (before ++ (comma ++ (between ++ [')']))) =
      (w ++ before ++ comma ++ between) ++ [')'] := by simp
  rw [hassoc, withoutClosing_concat, stripEnd_append_blank hbetween]
  rcases hcomma with rfl | rfl
  · rw [List.append_nil, stripEnd_append_blank hbefore, show stripEnd w = w from
      trimEnd_of_last hw.last, trimEnd_of_last hcomma', hw.strip_eq]
  · have hend : stripEnd (w ++ before ++ [',']) = w ++ before ++ [','] :=
      trimEnd_of_last (by simp [show isBlank ',' = false by decide])
    rw [hend, trimEnd_append_of_forall (by simp)]
    obtain ⟨blanks, hblanks, htrimmed⟩ :
        ∃ blanks, (∀ c ∈ blanks, isBlank c = true) ∧
          trimEnd (· = ',') (w ++ before) = w ++ blanks := by
      rcases List.eq_nil_or_concat before with rfl | ⟨rest, blank, rfl⟩
      · exact ⟨[], by simp, by rw [List.append_nil, trimEnd_of_last hcomma']⟩
      · have hblank : isBlank blank = true := hbefore blank (by simp)
        have hne : blank ≠ ',' := by
          rintro rfl
          exact absurd hblank (by decide)
        refine ⟨rest.concat blank, hbefore, trimEnd_of_last ?_⟩
        simp [hne]
    rw [htrimmed]
    exact hw.strip_between (List.forall_mem_nil _) hblanks

end

/-- White space at the start, a run of separators and white space behind it are taken away from a
call. -/
theorem strip_behind_run {front run gap call behind : Text} (hfront : ∀ c ∈ front, isBlank c = true)
    (hrun : ∀ c ∈ run, isSeparator c = true) (hgap : ∀ c ∈ gap, isBlank c = true)
    (hcall : IsSolid call) (hhead : run = [] ∨ gap = [] → ∀ c ∈ call.head?, isSeparator c = false)
    (hbehind : ∀ c ∈ behind, isBlank c = true) :
    strip (trimStart isSeparator (strip (front ++ (run ++ (gap ++ (call ++ behind)))))) = call := by
  have hnone : run = [] ∨ gap = [] → trimStart isSeparator call = call := by
    intro hnil
    obtain ⟨c, rest, rfl⟩ := List.exists_cons_of_ne_nil hcall.nonempty
    exact List.dropWhile_cons_of_neg (by simp [hhead hnil c rfl])
  by_cases hempty : run = []
  · have hblanks : ∀ c ∈ front ++ gap, isBlank c = true :=
      List.forall_mem_append.mpr ⟨hfront, hgap⟩
    rw [hempty, List.nil_append, ← List.append_assoc, hcall.strip_between hblanks hbehind,
      hnone (.inl hempty), hcall.strip_eq]
  · have hruns : IsSolid run :=
      ⟨hempty, fun c hc => isBlank_of_isSeparator (hrun c (List.mem_of_mem_head? hc)),
        fun c hc => isBlank_of_isSeparator (hrun c (List.mem_of_mem_getLast? hc))⟩
    have hassoc : run ++ (gap ++ (call ++ behind)) = (run ++ (gap ++ call)) ++ behind := by simp
    have hskip : trimStart isSeparator (run ++ (gap ++ call)) = gap ++ call := by
      rw [trimStart, List.dropWhile_append_of_pos hrun]
      cases gap with
      | nil => exact hnone (.inr rfl)
      | cons c rest =>
          have hc : isSeparator c = false := by
            by_contra hseparator
            have hblank := hgap c List.mem_cons_self
            rw [isBlank_of_isSeparator (Bool.not_eq_false _ ▸ hseparator)] at hblank
            exact Bool.noConfusion hblank
          exact List.dropWhile_cons_of_neg (by simp [hc])
    rw [hassoc, (hruns.append gap hcall).strip_between hfront hbehind, hskip]
    simpa using hcall.strip_between hgap (List.forall_mem_nil _)

/-- What stands behind white space, a run of separators and white space is left of a call, up to its
end. -/
theorem tail_behind_run {front run gap w closing : Text} (hfront : ∀ c ∈ front, isBlank c = true)
    (hrun : ∀ c ∈ run, isSeparator c = true) (hgap : ∀ c ∈ gap, isBlank c = true)
    (hw : IsSolid w) (hsign : '#' ∉ w) (hlast : ∀ c ∈ w.getLast?, c ≠ ',')
    (hhead : run = [] ∨ gap = [] → ∀ c ∈ w.head?, isSeparator c = false)
    (hclosing : IsClosing closing) : tail (front ++ (run ++ (gap ++ (w ++ closing)))) = w := by
  obtain ⟨hbefore, hcomma, hbetween, hbehind, hcomment, hline⟩ := hclosing
  rename_i before comma between behind comment
  -- the call goes up to its closing parenthesis
  generalize hcall : w ++ (before ++ (comma ++ (between ++ [')']))) = call
  have hparenthesis : IsSolid [')'] := ⟨by simp, by simp; decide, by simp; decide⟩
  have hsolid : IsSolid call := by
    rw [← hcall]
    simpa using hw.append (before ++ (comma ++ between)) hparenthesis
  have hfirst : run = [] ∨ gap = [] → ∀ c ∈ call.head?, isSeparator c = false := by
    intro hnil c hc
    obtain ⟨d, rest, rfl⟩ := List.exists_cons_of_ne_nil hw.nonempty
    rw [← hcall] at hc
    exact hhead hnil c hc
  have hcode : '#' ∉ front ++ (run ++ (gap ++ (call ++ behind))) := by
    have hblanks : ∀ {blanks : Text}, (∀ c ∈ blanks, isBlank c = true) → '#' ∉ blanks :=
      fun h hmem => absurd (h _ hmem) (by decide)
    have hseparators : '#' ∉ run := fun hmem => absurd (hrun _ hmem) (by decide)
    have hmark : '#' ∉ comma := by rcases hcomma with rfl | rfl <;> decide
    rw [← hcall]
    simp [hblanks hfront, hseparators, hblanks hgap, hsign, hblanks hbefore, hmark,
      hblanks hbetween, hblanks hbehind]
  have hsplit : front ++ (run ++ (gap ++ (w ++ (before ++ (comma ++
      (between ++ ')' :: (behind ++ comment))))))) =
      (front ++ (run ++ (gap ++ (call ++ behind)))) ++ comment := by
    rw [← hcall]
    simp
  have hstart := strip_behind_run hfront hrun hgap hsolid hfirst hbehind
  rw [tail, hsplit, withoutComments_append hcode, withoutComments_comment hcomment hline,
    List.append_nil]
  change strip (trimEnd (· = ',') (withoutClosing (strip (trimStart isSeparator _)))) = w
  rw [hstart, ← hcall]
  exact strip_withoutClosing hw hlast hbefore hcomma hbetween

/-! ## Runs of separators -/

theorem exists_span (p : Char → Bool) (t : Text) : ∃ first rest, t = first ++ rest ∧
    (∀ c ∈ first, p c = true) ∧ ∀ c ∈ rest.head?, p c = false := by
  refine ⟨t.takeWhile p, t.dropWhile p, List.takeWhile_append_dropWhile.symm,
    fun c hc => List.mem_takeWhile_imp hc, fun c hc => ?_⟩
  have hfirst := List.head?_dropWhile_not p t
  rw [show (t.dropWhile p).head? = some c from hc] at hfirst
  exact hfirst

/-- Separators among white space stand together, or white space parts some from the first run. -/
theorem isTogether_or_isParted {opening : Text}
    (hopening : ∀ c ∈ opening, isBlank c = true ∨ isSeparator c = true) :
    IsTogether opening ∨ ∃ left, IsParted opening left := by
  obtain ⟨front, afterFront, rfl, hfront, hrunFirst⟩ := exists_span isBlank opening
  obtain ⟨run, afterRun, rfl, hrun, hgapFirst⟩ := exists_span isSeparator afterFront
  obtain ⟨gap, left, rfl, hgap, hleftFirst⟩ := exists_span isBlank afterRun
  cases left with
  | nil =>
      rw [List.append_nil]
      exact .inl (.intro hfront hrun hgap)
  | cons c rest =>
      have hc : isBlank c = false := hleftFirst c rfl
      have hseparator : isSeparator c = true :=
        (hopening c (by simp)).resolve_left (by simp [hc])
      -- the first character behind a run is no separator, and the first one of a run is not blank
      have hgapSome : gap ≠ [] := by
        rintro rfl
        simp [hgapFirst c rfl] at hseparator
      have hrunSome : run ≠ [] := by
        rintro rfl
        obtain ⟨d, more, rfl⟩ := List.exists_cons_of_ne_nil hgapSome
        have hblank := hgap d List.mem_cons_self
        simp [hrunFirst d rfl] at hblank
      refine .inr ⟨c :: rest, .intro hfront hrunSome hrun hgapSome hgap (by simp) ?_⟩
      simpa using hseparator

section

variable {opening argument closing : Text} (hargument : IsArgument argument)
  (hclosing : IsClosing closing)

include hargument hclosing

theorem tail_of_isTogether (h : IsTogether opening) :
    tail (opening ++ (argument ++ closing)) = argument := by
  obtain ⟨hfront, hrun, hgap⟩ := h
  have htail := tail_behind_run hfront hrun hgap hargument.isSolid hargument.noComment
    (fun c hc => (hargument.last c hc).2) (fun _ c hc => (hargument.first c hc).2) hclosing
  simpa using htail

/-- Only the first run of separators is taken away. -/
theorem tail_of_isParted {left : Text}
    (hopening : ∀ c ∈ opening, isBlank c = true ∨ isSeparator c = true)
    (h : IsParted opening left) : tail (opening ++ (argument ++ closing)) = left ++ argument := by
  obtain ⟨hfront, hrun, hseparators, hgap, hblank, hleft, hfirst⟩ := h
  have hend : (left ++ argument).getLast? = argument.getLast? :=
    List.getLast?_append_of_ne_nil _ hargument.nonempty
  have hsolid : IsSolid (left ++ argument) := by
    obtain ⟨c, rest, rfl⟩ := List.exists_cons_of_ne_nil hleft
    refine ⟨by simp, by simpa using isBlank_of_isSeparator (hfirst c rfl), ?_⟩
    rw [hend]
    exact hargument.isSolid.last
  have hsign : '#' ∉ left ++ argument := by
    rw [List.mem_append, not_or]
    refine ⟨fun hmem => ?_, hargument.noComment⟩
    exact absurd (hopening '#' (by simp [hmem])) (by decide)
  have hlast : ∀ c ∈ (left ++ argument).getLast?, c ≠ ',' := by
    rw [hend]
    exact fun c hc => (hargument.last c hc).2
  have htail := tail_behind_run hfront hseparators hblank hsolid hsign hlast
    (fun hnil => absurd hnil (not_or.mpr ⟨hrun, hgap⟩)) hclosing
  simpa using htail

end

/-- The tail of a call is the argument behind the separators just if no white space parts them. Else
the separators that are parted from the first run of them are left before the argument. -/
theorem tail_isolates_iff {opening argument closing : Text}
    (hopening : ∀ c ∈ opening, isBlank c = true ∨ isSeparator c = true)
    (hargument : IsArgument argument) (hclosing : IsClosing closing) :
    (tail (opening ++ (argument ++ closing)) = argument ↔ IsTogether opening) ∧
      ∀ left, IsParted opening left →
        tail (opening ++ (argument ++ closing)) = left ++ argument := by
  refine ⟨⟨fun htail => ?_, tail_of_isTogether hargument hclosing⟩,
    fun left => tail_of_isParted hargument hclosing hopening⟩
  rcases isTogether_or_isParted hopening with htogether | ⟨left, hparted⟩
  · exact htogether
  · -- what is left is not empty, so the argument is not alone
    have hsome : left ≠ [] := by
      obtain ⟨-, -, -, -, -, hleft, -⟩ := hparted
      exact hleft
    rw [tail_of_isParted hargument hclosing hopening hparted] at htail
    exact absurd (List.append_left_eq_self.mp htail) hsome

/-- Behind the parenthesis and the comma of a wrapper the argument is alone; where the wrapper has a
comma of its own and a space before its parenthesis, they are left. -/
theorem tail_isolates_iff_wrapper :
    IsArgument "date(year, f(x))" ∧ IsClosing " ,\t) # x" ∧
      tail (" ), ".toList ++ ("date(year, f(x))".toList ++ " ,\t) # x".toList)) =
        "date(year, f(x))".toList ∧
      tail (", ), ".toList ++ ("date(year, f(x))".toList ++ " ,\t) # x".toList)) =
        "), ".toList ++ "date(year, f(x))".toList := by
  have hargument : IsArgument "date(year, f(x))" :=
    .of_ends (by decide) rfl (by decide) rfl (by decide)
  have hclosing : IsClosing " ,\t) # x" :=
    @IsClosing.intro " " "," "\t" " " "# x" (List.all_eq_true.mp (by decide)) (.inr rfl)
      (List.all_eq_true.mp (by decide)) (List.all_eq_true.mp (by decide))
      (fun _ hsign => (Option.some.inj hsign).symm) (by decide)
  have htogether : IsTogether " ), " :=
    @IsTogether.intro " " ")," " " (List.all_eq_true.mp (by decide))
      (List.all_eq_true.mp (by decide)) (List.all_eq_true.mp (by decide))
  have hparted : IsParted ", ), " "), " :=
    @IsParted.intro "" "," " " "), " (List.forall_mem_nil _) (by decide)
      (List.all_eq_true.mp (by decide)) (by decide) (List.all_eq_true.mp (by decide)) (by decide)
      (fun _ hfirst => Option.some.inj hfirst ▸ rfl)
  have hmade : ∀ opening : Text, opening.all (fun c => isBlank c || isSeparator c) = true →
      ∀ c ∈ opening, isBlank c = true ∨ isSeparator c = true := by simp
  exact ⟨hargument, hclosing,
    (tail_isolates_iff (hmade _ (by decide)) hargument hclosing).1.mpr htogether,
    (tail_isolates_iff (hmade _ (by decide)) hargument hclosing).2 _ hparted⟩

/-- The end of a wrapper over two lines is left before a weekday rule, though it is made of
separators and white space only. -/
theorem tail_keeps_wrapper :
    (∀ c ∈ ", ), ".toList, isBlank c = true ∨ isSeparator c = true) ∧ IsArgument "MAY, MON, 1" ∧
      IsClosing ")" ∧ tail ", ), MAY, MON, 1)" = "), MAY, MON, 1".toList ∧
        tail ", ), MAY, MON, 1)" ≠ "MAY, MON, 1".toList := by
  have hclosing : IsClosing ")" :=
    @IsClosing.intro "" "" "" "" "" (List.forall_mem_nil _) (.inl rfl) (List.forall_mem_nil _)
      (List.forall_mem_nil _) nofun (by decide)
  have hmade : (", ), " : Text).all (fun c => isBlank c || isSeparator c) = true := by decide
  exact ⟨by simpa using hmade, .of_ends (by decide) rfl (by decide) rfl (by decide), hclosing,
    by decide, by decide⟩

end Almanac.Registration.Arguments
