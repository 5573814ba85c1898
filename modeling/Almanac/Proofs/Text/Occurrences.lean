import Almanac.Proofs.Text.Spans
import Almanac.Proofs.Text.TextLines

/-!
# Occurrences in texts

A search finds something just if the scanner reads something at a position where the barrier lets
it look, and a piece that is contained in a text is an infix of it. If nothing but line feeds
breaks lines, every line begins where a search from line to line looks.
-/

namespace Almanac.Text

/-! ## Pieces of a text -/

theorem after?_eq_some_iff {opening t rest : Text} :
    after? opening t = some rest ↔ t = opening ++ rest := by
  induction opening generalizing t with
  | nil => simp [after?, eq_comm]
  | cons o opening ih =>
      cases t with
      | nil => simp [after?]
      | cons c t =>
          by_cases hc : o = c
          · simp [after?, hc, ih]
          · simp [after?, hc, Ne.symm hc]

@[simp] theorem after?_self (opening t : Text) : after? opening (opening ++ t) = some t :=
  after?_eq_some_iff.mpr rfl

/-- A text that lacks a character of an opening does not begin with it. -/
theorem after?_of_notMem {c : Char} {opening t : Text} (hc : c ∈ opening) (ht : c ∉ t) :
    after? opening t = none := by
  cases h : after? opening t with
  | none => rfl
  | some rest =>
      rw [after?_eq_some_iff.mp h] at ht
      exact absurd (List.mem_append_left rest hc) ht

/-- An opening that lacks the first character behind a text is not read across the end. -/
theorem after?_append {opening behind : Text} (h : ∀ c ∈ behind.head?, c ∉ opening) (t : Text) :
    after? opening (t ++ behind) = (after? opening t).map (· ++ behind) := by
  induction opening generalizing t with
  | nil => rfl
  | cons o opening ih =>
      have hrest : ∀ c ∈ behind.head?, c ∉ opening := fun c hc hmem =>
        h c hc (List.mem_cons_of_mem o hmem)
      cases t with
      | nil =>
          cases behind with
          | nil => rfl
          | cons c rest =>
              have hne : o ≠ c := fun heq => h c rfl (heq ▸ List.mem_cons_self)
              simp [after?, hne]
      | cons c t =>
          by_cases hc : o = c
          · simpa [after?, hc] using ih hrest t
          · simp [after?, hc]

theorem contains_iff {piece t : Text} : contains piece t = true ↔ piece <:+: t := by
  induction t with
  | nil => simp [contains]
  | cons c rest ih =>
      rw [contains, Bool.or_eq_true, ih, List.infix_cons_iff]
      refine or_congr_left ?_
      rw [Option.isSome_iff_exists]
      constructor
      · rintro ⟨behind, hbehind⟩
        exact ⟨behind, (after?_eq_some_iff.mp hbehind).symm⟩
      · rintro ⟨behind, hbehind⟩
        exact ⟨behind, after?_eq_some_iff.mpr hbehind.symm⟩

/-! ## Searches -/

section

variable {α : Type} {barrier : Char → Bool} {scan : Text → Option α}

/-- Does a barrier keep a search from looking behind the text? -/
def bars (barrier : Char → Bool) (blocked : Bool) (before : Text) : Bool :=
  (before.getLast?.map barrier).getD blocked

@[simp] theorem bars_cons (blocked : Bool) (c : Char) (before : Text) :
    bars barrier blocked (c :: before) = bars barrier (barrier c) before := by
  unfold bars
  rw [List.getLast?_cons]
  cases before.getLast? <;> rfl

/-- What a search finds the scanner reads at a position that is not barred. -/
theorem split_of_search_eq_some {blocked : Bool} {t : Text} {found : α}
    (h : search barrier scan blocked t = some found) :
    ∃ before after, t = before ++ after ∧ bars barrier blocked before = false ∧
      scan after = some found := by
  induction t generalizing blocked with
  | nil => cases h
  | cons c rest ih =>
      unfold search at h
      split at h
      next hscan =>
        obtain rfl := Option.some.inj h
        cases blocked with
        | true => cases hscan
        | false => exact ⟨[], c :: rest, rfl, rfl, hscan⟩
      next =>
        obtain ⟨before, after, rfl, hbars, hscan⟩ := ih h
        exact ⟨c :: before, after, rfl, by rw [bars_cons, hbars], hscan⟩

/-- A search finds something if the scanner reads something at a position that is not barred. -/
theorem isSome_search_of_split {blocked : Bool} {before after : Text} (hsome : after ≠ [])
    (hbars : bars barrier blocked before = false) (hscan : (scan after).isSome = true) :
    (search barrier scan blocked (before ++ after)).isSome = true := by
  induction before generalizing blocked with
  | nil =>
      obtain ⟨c, rest, rfl⟩ := List.exists_cons_of_ne_nil hsome
      obtain ⟨found, hfound⟩ := Option.isSome_iff_exists.mp hscan
      have hopen : blocked = false := hbars
      simp [search, hopen, hfound]
  | cons c before ih =>
      rw [bars_cons] at hbars
      rw [List.cons_append, search]
      split
      next => rfl
      next => exact ih hbars

/-- A search finds what the scanner reads at a position that is not barred, if it reads nothing else
before it. -/
theorem search_eq_some_of_first {blocked : Bool} {before after : Text} {found : α}
    (hsome : after ≠ []) (hbars : bars barrier blocked before = false)
    (hscan : scan after = some found)
    (hfirst : ∀ front back, before = front ++ back → back ≠ [] →
      bars barrier blocked front = false →
        scan (back ++ after) = none ∨ scan (back ++ after) = some found) :
    search barrier scan blocked (before ++ after) = some found := by
  induction before generalizing blocked with
  | nil =>
      obtain ⟨c, rest, rfl⟩ := List.exists_cons_of_ne_nil hsome
      have hopen : blocked = false := hbars
      simp [search, hopen, hscan]
  | cons c before ih =>
      rw [bars_cons] at hbars
      have hrest := ih hbars fun front back heq hback hfront =>
        hfirst (c :: front) back (by rw [heq, List.cons_append]) hback (by rw [bars_cons, hfront])
      rw [List.cons_append, search, hrest]
      cases blocked with
      | true => rfl
      | false =>
          rcases hfirst [] (c :: before) rfl (List.cons_ne_nil _ _) rfl with hnone | hfound
          · rw [if_neg Bool.false_ne_true, ← List.cons_append, hnone]
          · rw [if_neg Bool.false_ne_true, ← List.cons_append, hfound]

/-- Does a line begin behind the text, if only line feeds end lines? -/
def OpensLine (before : Text) : Prop :=
  ∀ c ∈ before.getLast?, c = '\n'

theorem bars_feed_iff (before : Text) :
    bars (· ≠ '\n') false before = false ↔ OpensLine before := by
  unfold bars OpensLine
  cases before.getLast? <;> simp

theorem isSome_findLine?_iff (hnil : scan [] = none) {t : Text} :
    (findLine? scan t).isSome = true ↔
      ∃ before after, t = before ++ after ∧ OpensLine before ∧ (scan after).isSome = true := by
  constructor
  · intro h
    obtain ⟨found, hfound⟩ := Option.isSome_iff_exists.mp h
    obtain ⟨before, after, rfl, hbars, hscan⟩ := split_of_search_eq_some hfound
    exact ⟨before, after, rfl, (bars_feed_iff before).mp hbars, by rw [hscan]; rfl⟩
  · rintro ⟨before, after, rfl, hline, hscan⟩
    refine isSome_search_of_split ?_ ((bars_feed_iff before).mpr hline) hscan
    rintro rfl
    rw [hnil] at hscan
    cases hscan

end

/-! ## Lines -/

/-- Where only line feeds break lines, every line begins at the start of the text or behind a line
feed. -/
theorem split_of_mem_lines {t line : Text} (hbreaks : BreaksAtFeeds t) (hline : line ∈ lines t) :
    ∃ before after, t = before ++ (line ++ after) ∧ OpensLine before := by
  rcases mem_lines_cases hline with ⟨after, rfl⟩ | htail
  · exact ⟨[], after, rfl, by simp [OpensLine]⟩
  · obtain ⟨before, after, rfl⟩ := split_of_mem_tail_lines hbreaks htail
    exact ⟨before ++ ['\n'], after, by simp, by simp [OpensLine]⟩

end Almanac.Text
