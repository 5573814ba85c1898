import Almanac.Text.Search
import Mathlib.Data.List.TakeWhile

/-!
# Spans of a text

A span is what a text begins with as long as its characters are of one class. It ends where a
character of another class stands, or with the text, so what is read of it depends on no more than
the first character behind it.
-/

namespace Almanac.Text

variable {p : Char → Bool} {t rest : Text}

theorem takeWhile_of_head (h : ∀ c ∈ t.head?, p c = false) : t.takeWhile p = [] := by
  cases t with
  | nil => rfl
  | cons c rest => exact List.takeWhile_cons_of_neg (by simp [h c rfl])

theorem dropWhile_of_head (h : ∀ c ∈ t.head?, p c = false) : t.dropWhile p = t := by
  cases t with
  | nil => rfl
  | cons c rest => exact List.dropWhile_cons_of_neg (by simp [h c rfl])

theorem takeWhile_span (ht : ∀ c ∈ t, p c = true) (hrest : ∀ c ∈ rest.head?, p c = false) :
    (t ++ rest).takeWhile p = t := by
  rw [List.takeWhile_append_of_pos ht, takeWhile_of_head hrest, List.append_nil]

theorem dropWhile_span (ht : ∀ c ∈ t, p c = true) (hrest : ∀ c ∈ rest.head?, p c = false) :
    (t ++ rest).dropWhile p = rest := by
  rw [List.dropWhile_append_of_pos ht, dropWhile_of_head hrest]

/-- A span does not go on behind a text if it ends within the text or right behind it. -/
theorem takeWhile_dropWhile_append
    (h : (∃ c ∈ t, p c = false) ∨ ∀ c ∈ rest.head?, p c = false) :
    (t ++ rest).takeWhile p = t.takeWhile p ∧
      (t ++ rest).dropWhile p = t.dropWhile p ++ rest := by
  by_cases hall : ∀ c ∈ t, p c = true
  · have hrest : ∀ c ∈ rest.head?, p c = false := by
      refine h.resolve_left ?_
      rintro ⟨c, hc, hfalse⟩
      rw [hall c hc] at hfalse
      cases hfalse
    rw [takeWhile_span hall hrest, dropWhile_span hall hrest, List.takeWhile_eq_self_iff.mpr hall,
      List.dropWhile_eq_nil_iff.mpr hall]
    exact ⟨rfl, rfl⟩
  · have hsome : t.dropWhile p ≠ [] := fun hnil => hall (List.dropWhile_eq_nil_iff.mp hnil)
    have hlength : (t.takeWhile p).length ≠ t.length := fun hlength =>
      hall (List.takeWhile_eq_self_iff.mp ((List.takeWhile_prefix p).eq_of_length hlength))
    rw [List.takeWhile_append, List.dropWhile_append, if_neg hlength,
      if_neg (by simpa using hsome)]
    exact ⟨rfl, rfl⟩

/-- A span of one character or more is read up to where it ends. -/
theorem some?_span (hsome : t ≠ []) (ht : ∀ c ∈ t, p c = true)
    (hrest : ∀ c ∈ rest.head?, p c = false) : some? p (t ++ rest) = some (t, rest) := by
  rw [some?, takeWhile_span ht hrest, dropWhile_span ht hrest]
  cases t with
  | nil => exact absurd rfl hsome
  | cons c more => rfl

theorem some?_append_cons (hsome : t ≠ []) (ht : ∀ c ∈ t, p c = true) {c : Char}
    (hc : p c = false) (rest : Text) : some? p (t ++ c :: rest) = some (t, c :: rest) :=
  some?_span hsome ht fun _ hd => Option.some.inj hd ▸ hc

theorem some?_spec {read : Text} (h : some? p t = some (read, rest)) :
    t = read ++ rest ∧ read ≠ [] ∧ ∀ c ∈ read, p c = true := by
  unfold some? at h
  split at h
  next => cases h
  next c more htake =>
    obtain ⟨rfl, rfl⟩ := Prod.mk.inj (Option.some.inj h)
    refine ⟨?_, List.cons_ne_nil c more, fun d hd => List.mem_takeWhile_imp (htake ▸ hd)⟩
    rw [← htake, List.takeWhile_append_dropWhile]

end Almanac.Text
