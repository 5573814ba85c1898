import Almanac.Text.Blank
import Mathlib.Data.List.DropRight
import Mathlib.Data.List.TakeWhile

/-!
# Stripped texts

Stripping takes away the white space at both ends of a text. A text that has none there is left as
it is, and white space more or less at the end makes no difference.
-/

namespace Almanac.Text

/-! ## Starts -/

theorem stripStart_cons {c : Char} (hc : isBlank c = false) (t : Text) :
    stripStart (c :: t) = c :: t :=
  List.dropWhile_cons_of_neg (by simp [hc])

theorem stripStart_space (t : Text) : stripStart (' ' :: t) = stripStart t :=
  List.dropWhile_cons_of_pos (show isBlank ' ' = true by decide)

theorem stripStart_append {t : Text} (hsome : t ≠ []) (hblank : ∀ c ∈ t, isBlank c = false)
    (rest : Text) : stripStart (t ++ rest) = t ++ rest := by
  obtain ⟨c, more, rfl⟩ := List.exists_cons_of_ne_nil hsome
  exact stripStart_cons (hblank c List.mem_cons_self) (more ++ rest)

theorem stripStart_append_cons {blanks : Text} (hblank : ∀ c ∈ blanks, isBlank c = true) {c : Char}
    (hc : isBlank c = false) (rest : Text) : stripStart (blanks ++ c :: rest) = c :: rest := by
  have hskip : stripStart (blanks ++ c :: rest) = stripStart (c :: rest) :=
    List.dropWhile_append_of_pos hblank
  rw [hskip, stripStart_cons hc]

theorem stripStart_ne_nil {t : Text} (h : ∃ c ∈ t, isBlank c = false) : stripStart t ≠ [] := by
  obtain ⟨c, hc, hblank⟩ := h
  intro hnil
  rw [List.dropWhile_eq_nil_iff.mp hnil c hc] at hblank
  cases hblank

/-- A text with something else than white space in it is stripped within itself. -/
theorem stripStart_append_of_mem {t : Text} (h : ∃ c ∈ t, isBlank c = false) (rest : Text) :
    stripStart (t ++ rest) = stripStart t ++ rest := by
  have hsome : t.dropWhile isBlank ≠ [] := stripStart_ne_nil h
  unfold stripStart trimStart
  rw [List.dropWhile_append, if_neg (by simpa using hsome)]

theorem notBlank_of_head?_stripStart (t : Text) :
    ∀ c ∈ (stripStart t).head?, isBlank c = false := by
  intro c hc
  have hfirst := List.head?_dropWhile_not isBlank t
  rw [show (t.dropWhile isBlank).head? = some c from hc] at hfirst
  exact hfirst

theorem stripStart_split (t : Text) :
    ∃ blanks, (∀ c ∈ blanks, isBlank c = true) ∧ t = blanks ++ stripStart t :=
  ⟨t.takeWhile isBlank, fun _ hc => List.mem_takeWhile_imp hc,
    List.takeWhile_append_dropWhile.symm⟩

/-! ## Ends -/

/-- A text is left as it is if its last character is. -/
theorem trimEnd_of_last {p : Char → Bool} {t : Text} (hlast : ∀ c ∈ t.getLast?, p c = false) :
    trimEnd p t = t := by
  refine List.rdropWhile_eq_self_iff.mpr fun hsome => ?_
  rw [hlast _ (List.getLast?_eq_some_getLast hsome)]
  exact Bool.false_ne_true

theorem trimEnd_eq_self {p : Char → Bool} {t : Text} (ht : ∀ c ∈ t, p c = false) :
    trimEnd p t = t :=
  trimEnd_of_last fun c hc => ht c (List.mem_of_getLast? hc)

theorem trimEnd_append {p : Char → Bool} {t u : Text} (hu : trimEnd p u ≠ []) :
    trimEnd p (t ++ u) = t ++ trimEnd p u := by
  have hsome : u.reverse.dropWhile p ≠ [] := by
    intro h
    exact hu (by rw [trimEnd, h, List.reverse_nil])
  unfold trimEnd
  rw [List.reverse_append, List.dropWhile_append, if_neg (by simpa using hsome),
    List.reverse_append, List.reverse_reverse]

theorem trimEnd_append_of_forall {p : Char → Bool} {u : Text} (hu : ∀ c ∈ u, p c = true)
    (t : Text) : trimEnd p (t ++ u) = trimEnd p t := by
  unfold trimEnd
  rw [List.reverse_append,
    List.dropWhile_append_of_pos fun c hc => hu c (List.mem_reverse.mp hc)]

theorem stripEnd_append {t u : Text} (hu : stripEnd u ≠ []) :
    stripEnd (t ++ u) = t ++ stripEnd u :=
  trimEnd_append hu

/-- Of a text behind white space, with none at its own ends, the text is left. -/
theorem strip_indented {indent t : Text} (hindent : ∀ c ∈ indent, isBlank c = true)
    (hsome : t ≠ []) (hfirst : ∀ c ∈ t.head?, isBlank c = false)
    (hlast : ∀ c ∈ t.getLast?, isBlank c = false) : strip (indent ++ t) = t := by
  have hstart : stripStart (indent ++ t) = t := by
    obtain ⟨c, more, rfl⟩ := List.exists_cons_of_ne_nil hsome
    exact stripStart_append_cons hindent (hfirst c rfl) more
  change stripEnd (stripStart (indent ++ t)) = t
  rw [hstart]
  exact trimEnd_of_last hlast

theorem strip_of_ends {first last : Char} (hfirst : isBlank first = false)
    (hlast : isBlank last = false) (t : Text) :
    strip (first :: (t ++ [last])) = first :: (t ++ [last]) := by
  have hends : ∀ c ∈ (first :: (t ++ [last])).getLast?, isBlank c = false := by
    rw [← List.cons_append, List.getLast?_concat]
    rintro c ⟨⟩
    exact hlast
  have hstart : ∀ c ∈ (first :: (t ++ [last])).head?, isBlank c = false := by
    rintro c ⟨⟩
    exact hfirst
  exact strip_indented (List.forall_mem_nil _) (List.cons_ne_nil _ _) hstart hends

/-- The white space at the end of a text is what stripping takes away there. -/
theorem exists_stripEnd_append (t : Text) :
    ∃ blanks, (∀ c ∈ blanks, isBlank c = true) ∧ t = stripEnd t ++ blanks :=
  ⟨t.rtakeWhile isBlank, fun _ hc => List.mem_rtakeWhile_imp hc,
    List.rdropWhile_append_rtakeWhile.symm⟩

/-- Between white space at both ends is what stripping leaves. -/
theorem exists_strip_between (t : Text) :
    ∃ front back, (∀ c ∈ front, isBlank c = true) ∧ (∀ c ∈ back, isBlank c = true) ∧
      t = front ++ (strip t ++ back) := by
  obtain ⟨back, hback, hend⟩ := exists_stripEnd_append (stripStart t)
  have hstrip : strip t = stripEnd (stripStart t) := rfl
  refine ⟨t.takeWhile isBlank, back, fun c hc => List.mem_takeWhile_imp hc, hback, ?_⟩
  rw [hstrip, ← hend]
  exact List.takeWhile_append_dropWhile.symm

theorem isBlank_of_strip_eq_nil {t : Text} (ht : strip t = []) : ∀ c ∈ t, isBlank c = true := by
  have hall : ∀ c ∈ stripStart t, isBlank c = true := List.rdropWhile_eq_nil_iff.mp ht
  have hnil : t.dropWhile isBlank = [] := by
    by_contra hsome
    have hhead := List.head_dropWhile_not isBlank hsome
    rw [hall _ (List.head_mem hsome)] at hhead
    exact Bool.noConfusion hhead
  exact List.dropWhile_eq_nil_iff.mp hnil

theorem stripEnd_append_blank {blanks : Text} (hblank : ∀ c ∈ blanks, isBlank c = true) (t : Text) :
    stripEnd (t ++ blanks) = stripEnd t :=
  trimEnd_append_of_forall hblank t

/-- White space at the end is stripped away. -/
theorem strip_append_blank {blanks : Text} (hblank : ∀ c ∈ blanks, isBlank c = true) (t : Text) :
    strip (t ++ blanks) = strip t := by
  change stripEnd ((t ++ blanks).dropWhile isBlank) = stripEnd (t.dropWhile isBlank)
  rw [List.dropWhile_append]
  split
  next hnil =>
    rw [List.isEmpty_iff.mp hnil, List.dropWhile_eq_nil_iff.mpr hblank]
  next => exact stripEnd_append_blank hblank _

/-- A mark that stands at the end but for white space stands at the stripped end. -/
theorem exists_notBlank_behind {mark t : Text} (hsome : mark ≠ [])
    (hmark : ∀ c ∈ mark, isBlank c = false) (h : ¬ mark <:+ stripEnd t) {before behind : Text}
    (hsplit : t = before ++ (mark ++ behind)) : ∃ c ∈ behind, isBlank c = false := by
  by_contra hnone
  have hblank : ∀ c ∈ behind, isBlank c = true := by simpa using hnone
  have hend : stripEnd mark = mark := trimEnd_eq_self hmark
  apply h
  rw [hsplit, ← List.append_assoc, stripEnd_append_blank hblank,
    stripEnd_append (by rwa [hend]), hend]
  exact List.suffix_append before mark

end Almanac.Text
