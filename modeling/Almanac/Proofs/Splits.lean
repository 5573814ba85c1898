import Mathlib.Data.List.Induction

/-!
# Lists cut at an item

What is true at an item of a list may depend on the items before it and behind it. An item of a
list that is longer by one is the new item, at the first or the last place, or it is one of the
others, with one item more on that side. A run over a list stops at an item, behind a run over the
items before it that did not.
-/

namespace Almanac

variable {α : Type}

/-- Either the first item, or one of those behind it. -/
theorem exists_split_cons_iff (first : α) (rest : List α) (holds : List α → α → List α → Prop) :
    (∃ before item behind, first :: rest = before ++ item :: behind ∧ holds before item behind) ↔
      holds [] first rest ∨ ∃ before item behind, rest = before ++ item :: behind ∧
        holds (first :: before) item behind := by
  constructor
  · rintro ⟨before, item, behind, hsplit, hitem⟩
    cases before with
    | nil =>
        obtain ⟨rfl, rfl⟩ := List.cons.inj hsplit
        exact .inl hitem
    | cons head before =>
        obtain ⟨rfl, rfl⟩ := List.cons.inj hsplit
        exact .inr ⟨before, item, behind, rfl, hitem⟩
  · rintro (hfirst | ⟨before, item, behind, rfl, hitem⟩)
    · exact ⟨[], first, rest, rfl, hfirst⟩
    · exact ⟨first :: before, item, behind, rfl, hitem⟩

/-- Either the last item, or one of those before it. -/
theorem exists_split_concat_iff (front : List α) (last : α) (holds : List α → α → List α → Prop) :
    (∃ before item behind, front ++ [last] = before ++ item :: behind ∧ holds before item behind) ↔
      holds front last [] ∨ ∃ before item behind, front = before ++ item :: behind ∧
        holds before item (behind ++ [last]) := by
  constructor
  · rintro ⟨before, item, behind, hsplit, hitem⟩
    rcases List.eq_nil_or_concat behind with rfl | ⟨behind, end', rfl⟩
    · obtain ⟨rfl, hlast⟩ := List.append_inj' hsplit rfl
      obtain rfl := List.singleton_inj.mp hlast
      exact .inl hitem
    · rw [List.concat_eq_append] at hsplit hitem
      rw [← List.cons_append, ← List.append_assoc] at hsplit
      obtain ⟨rfl, hlast⟩ := List.append_inj' hsplit rfl
      obtain rfl := List.singleton_inj.mp hlast
      exact .inr ⟨before, item, behind, rfl, hitem⟩
  · rintro (hlast | ⟨before, item, behind, rfl, hitem⟩)
    · exact ⟨front, last, [], rfl, hlast⟩
    · exact ⟨before, item, behind ++ [last], by simp, hitem⟩

/-- A run that fails does so at one of the items, in the state that those before it lead to. -/
theorem foldlM_eq_error_iff {β ε : Type} {step : β → α → Except ε β} {items : List α} {start : β}
    {fault : ε} : items.foldlM step start = .error fault ↔
      ∃ before item behind, items = before ++ item :: behind ∧
        ∃ state, before.foldlM step start = .ok state ∧ step state item = .error fault := by
  induction items generalizing start with
  | nil =>
      refine iff_of_false ?_ ?_
      · rintro ⟨⟩
      · rintro ⟨before, item, behind, hsplit, -⟩
        simp at hsplit
  | cons first rest ih =>
      rw [exists_split_cons_iff first rest fun before item _ =>
        ∃ state, before.foldlM step start = .ok state ∧ step state item = .error fault,
        List.foldlM_cons]
      cases hfirst : step start first with
      | error other =>
          simp [bind, Except.bind, pure, Except.pure, hfirst]
      | ok next =>
          simpa [bind, Except.bind, pure, Except.pure, hfirst] using ih

end Almanac
