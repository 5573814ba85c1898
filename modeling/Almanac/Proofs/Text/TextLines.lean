import Almanac.Text.Blank
import Mathlib.Data.List.Infix

/-!
# The lines of a text

Each line is an infix of its text and holds no line feed; the first one opens the text. If nothing
but line feeds breaks lines, alone or behind carriage returns, every other line stands behind a
line feed.
-/

namespace Almanac.Text

theorem newline_notMem_lines (t : Text) : ∀ line ∈ lines t, '\n' ∉ line := by
  have hplain : ∀ c, ¬ isLineBreak c = true → '\n' ≠ c := by
    rintro c hbreak rfl
    exact hbreak (by decide)
  fun_induction lines t with
  | case1 => simp
  | case2 rest ih => exact List.forall_mem_cons.mpr ⟨List.not_mem_nil, ih⟩
  | case3 c rest _ hbreak ih => exact List.forall_mem_cons.mpr ⟨List.not_mem_nil, ih⟩
  | case4 c rest _ hbreak hnil ih => simpa using hplain c hbreak
  | case5 c rest _ hbreak line more hcons ih =>
      rw [hcons] at ih
      obtain ⟨hline, hmore⟩ := List.forall_mem_cons.mp ih
      refine List.forall_mem_cons.mpr ⟨?_, hmore⟩
      simpa [hline] using hplain c hbreak

/-- The first line opens the text. -/
theorem prefix_of_head_lines {t line : Text} (hline : line ∈ (lines t).head?) : line <+: t := by
  fun_induction lines t generalizing line with
  | case1 => cases hline
  | case2 rest ih =>
      obtain rfl := Option.some.inj hline
      exact List.nil_prefix
  | case3 c rest _ hbreak ih =>
      obtain rfl := Option.some.inj hline
      exact List.nil_prefix
  | case4 c rest _ hbreak hnil ih =>
      obtain rfl := Option.some.inj hline
      exact ⟨rest, rfl⟩
  | case5 c rest _ hbreak first more hcons ih =>
      obtain rfl := Option.some.inj hline
      rw [hcons] at ih
      exact List.cons_prefix_cons.mpr ⟨rfl, ih rfl⟩

theorem infix_of_mem_lines {t line : Text} (hline : line ∈ lines t) : line <:+: t := by
  fun_induction lines t with
  | case1 => cases hline
  | case2 rest ih =>
      rcases List.mem_cons.mp hline with rfl | hmore
      · exact List.nil_infix
      · exact (ih hmore).trans ⟨['\r', '\n'], [], by simp⟩
  | case3 c rest _ hbreak ih =>
      rcases List.mem_cons.mp hline with rfl | hmore
      · exact List.nil_infix
      · exact List.infix_cons (ih hmore)
  | case4 c rest _ hbreak hnil ih =>
      obtain rfl := List.mem_singleton.mp hline
      exact ⟨[], rest, rfl⟩
  | case5 c rest _ hbreak first more hcons ih =>
      rw [hcons] at ih
      rcases List.mem_cons.mp hline with rfl | hmore
      · have hfirst : first <+: rest := prefix_of_head_lines (by rw [hcons]; rfl)
        exact (List.cons_prefix_cons.mpr ⟨rfl, hfirst⟩).isInfix
      · exact List.infix_cons (ih (List.mem_cons_of_mem first hmore))

@[simp] theorem lines_eq_nil_iff {t : Text} : lines t = [] ↔ t = [] := by
  constructor
  · intro h
    unfold lines at h
    split at h
    next => rfl
    next => cases h
    next =>
      split at h
      next => cases h
      next => split at h <;> cases h
  · rintro rfl
    rfl

/-- Behind a line feed at its end a text goes on with further lines. -/
theorem lines_append {t : Text} (h : t.getLast? = some '\n') (more : Text) :
    lines (t ++ more) = lines t ++ lines more := by
  have hlater : ∀ {c : Char} {rest : Text}, (c :: rest).getLast? = some '\n' → rest ≠ [] →
      rest.getLast? = some '\n' := by
    intro c rest hlast hsome
    obtain ⟨d, rest, rfl⟩ := List.exists_cons_of_ne_nil hsome
    rwa [List.getLast?_cons_cons] at hlast
  have hpair_append : ∀ {c : Char} {rest : Text}, rest ≠ [] →
      (∀ later, c = '\r' → rest = '\n' :: later → False) →
      ∀ later, c = '\r' → rest ++ more = '\n' :: later → False := by
    intro c rest hsome hpair later hreturn heq
    obtain ⟨d, rest, rfl⟩ := List.exists_cons_of_ne_nil hsome
    obtain ⟨rfl, -⟩ := List.cons.inj heq
    exact hpair rest hreturn rfl
  fun_induction lines t with
  | case1 => cases h
  | case2 rest ih =>
      by_cases hrest : rest = []
      · rw [hrest]
        rfl
      · change [] :: lines (rest ++ more) = _
        rw [ih (hlater (hlater h (by simp)) hrest), List.cons_append]
  | case3 c rest hpair hbreak ih =>
      by_cases hrest : rest = []
      · obtain rfl : c = '\n' := by simpa [hrest] using h
        rw [hrest]
        rfl
      · rw [List.cons_append, lines.eq_3 c _ (hpair_append hrest hpair), if_pos hbreak,
          ih (hlater h hrest), List.cons_append]
  | case4 c rest hpair hbreak hnil ih =>
      obtain rfl := lines_eq_nil_iff.mp hnil
      obtain rfl : c = '\n' := by simpa using h
      exact absurd (by decide) hbreak
  | case5 c rest hpair hbreak first later hcons ih =>
      have hrest : rest ≠ [] := fun hnil => by rw [hnil] at hcons; cases hcons
      rw [List.cons_append, lines.eq_3 c _ (hpair_append hrest hpair), if_neg hbreak,
        ih (hlater h hrest), hcons]
      rfl

/-! ## Lines behind line feeds -/

/-- Nothing but line feeds breaks lines, alone or behind carriage returns. -/
def BreaksAtFeeds (t : Text) : Prop :=
  ∀ before c after, t = before ++ c :: after → isLineBreak c = true →
    c = '\n' ∨ (c = '\r' ∧ '\n' ∈ after.head?)

theorem BreaksAtFeeds.of_forall {t : Text} (h : ∀ c ∈ t, isLineBreak c = true → c = '\n') :
    BreaksAtFeeds t := by
  rintro before c after rfl hbreak
  exact .inl (h c (by simp) hbreak)

theorem BreaksAtFeeds.of_append {before after : Text} (h : BreaksAtFeeds (before ++ after)) :
    BreaksAtFeeds after := by
  rintro first c rest rfl
  exact h (before ++ first) c rest (by simp)

/-- A line is the first one, which opens the text, or a later one. -/
theorem mem_lines_cases {t line : Text} (hline : line ∈ lines t) :
    line <+: t ∨ line ∈ (lines t).tail := by
  cases hlines : lines t with
  | nil =>
      rw [hlines] at hline
      cases hline
  | cons first more =>
      rw [hlines] at hline
      rcases List.mem_cons.mp hline with rfl | hmore
      · exact .inl (prefix_of_head_lines (by rw [hlines]; rfl))
      · exact .inr hmore

/-- Where only line feeds break lines, a later line stands behind a line feed. -/
theorem split_of_mem_tail_lines {t line : Text} (hbreaks : BreaksAtFeeds t)
    (hline : line ∈ (lines t).tail) : ∃ before after, t = before ++ '\n' :: (line ++ after) := by
  -- the rest behind a line feed opens with its first line
  have hbehind : ∀ opening rest : Text, line ∈ lines rest →
      (line ∈ (lines rest).tail → ∃ before after, rest = before ++ '\n' :: (line ++ after)) →
      ∃ before after, opening ++ '\n' :: rest = before ++ '\n' :: (line ++ after) := by
    intro opening rest hmem hlater
    rcases mem_lines_cases hmem with ⟨after, rfl⟩ | htail
    · exact ⟨opening, after, rfl⟩
    · obtain ⟨before, after, rfl⟩ := hlater htail
      exact ⟨opening ++ '\n' :: before, after, by simp⟩
  fun_induction lines t with
  | case1 => cases hline
  | case2 rest ih =>
      have hrest : BreaksAtFeeds rest :=
        BreaksAtFeeds.of_append (show BreaksAtFeeds (['\r', '\n'] ++ rest) from hbreaks)
      exact hbehind ['\r'] rest hline (ih hrest)
  | case3 c rest hpair hbreak ih =>
      have hrest : BreaksAtFeeds rest :=
        BreaksAtFeeds.of_append (show BreaksAtFeeds ([c] ++ rest) from hbreaks)
      have hfeed : c = '\n' := by
        rcases hbreaks [] c rest rfl hbreak with hfeed | ⟨rfl, hnext⟩
        · exact hfeed
        · obtain ⟨later, rfl⟩ := List.head?_eq_some_iff.mp hnext
          exact absurd rfl (hpair later rfl)
      rw [hfeed]
      exact hbehind [] rest hline (ih hrest)
  | case4 c rest _ hbreak hnil ih => cases hline
  | case5 c rest _ hbreak first more hcons ih =>
      have hrest : BreaksAtFeeds rest :=
        BreaksAtFeeds.of_append (show BreaksAtFeeds ([c] ++ rest) from hbreaks)
      rw [hcons] at ih
      obtain ⟨before, after, rfl⟩ := ih hrest hline
      exact ⟨c :: before, after, rfl⟩

end Almanac.Text
