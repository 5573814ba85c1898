import Almanac.Proofs.Text.Gaps
import Almanac.Proofs.Text.Openings

/-!
# Listings

A listing writes values one behind the other, each as some pieces, with commas between them and
perhaps one behind the last. A search that reads every value where it is written, and nothing at
white space and commas, finds the values in their order and goes on behind the listing.
-/

namespace Almanac.Text

variable {α : Type}

/-! ## Positions -/

/-- The scanner reads nothing at any position before the rest of the text. -/
def Passes (scan : Text → Option α) (t rest : Text) : Prop :=
  ∀ s, s <:+ t → ¬ s <:+ rest → scan s = none

namespace Passes

variable {scan : Text → Option α} {t rest : Text}

theorem refl (t : Text) : Passes scan t t :=
  fun _ hs hnot => absurd hs hnot

theorem trans {middle : Text} (ht : Passes scan t middle) (hmiddle : Passes scan middle rest) :
    Passes scan t rest := by
  intro s hs hnot
  by_cases hlater : s <:+ middle
  · exact hmiddle s hlater hnot
  · exact ht s hs hlater

theorem cons {c : Char} (h : scan (c :: t) = none) (ht : Passes scan t rest) :
    Passes scan (c :: t) rest := by
  intro s hs hnot
  rcases List.suffix_cons_iff.mp hs with rfl | hs
  · exact h
  · exact ht s hs hnot

theorem append {part : Text} (hpart : ∀ c ∈ part, ∀ more, scan (c :: more) = none)
    (ht : Passes scan t rest) : Passes scan (part ++ t) rest := by
  induction part with
  | nil => exact ht
  | cons c part ih =>
      obtain ⟨hc, hpart⟩ := List.forall_mem_cons.mp hpart
      exact cons (hc _) (ih hpart)

end Passes

theorem findAll_of_passes {scan : Text → Option (α × Text)} {t : Text} (h : Passes scan t []) :
    findAll scan t = [] := by
  induction t with
  | nil => rw [findAll, searchAll]
  | cons c t ih =>
      have hhere : scan (c :: t) = none := h _ (List.suffix_refl _) (by simp)
      rw [findAll_cons_of_none hhere]
      exact ih fun s hs => h s (hs.trans (List.suffix_cons c t))

/-- A search passes over characters at which nothing is read and behind which a match may begin. -/
theorem searchAll_append_of_none {barrier : Char → Bool} {scan : Text → Option (α × Text)}
    {part : Text} (hpart : ∀ c ∈ part, barrier c = false ∧ ∀ more, scan (c :: more) = none)
    (t : Text) : searchAll barrier scan false (part ++ t) = searchAll barrier scan false t := by
  induction part with
  | nil => rfl
  | cons c part ih =>
      obtain ⟨⟨hbarrier, hc⟩, hpart⟩ := List.forall_mem_cons.mp hpart
      rw [List.cons_append, searchAll_cons_of_none (.inr (hc _)), hbarrier, ih hpart]

theorem findAll_append_of_none {scan : Text → Option (α × Text)} {part : Text}
    (hpart : ∀ c ∈ part, ∀ more, scan (c :: more) = none) (t : Text) :
    findAll scan (part ++ t) = findAll scan t :=
  searchAll_append_of_none (fun c hc => ⟨rfl, hpart c hc⟩) t

/-! ## Listings -/

/-- The text opens with a listing of the values and goes on with the rest. -/
inductive Lists (write : α → List Text) : List α → Text → Text → Prop
  | nil {rest : Text} : Lists write [] rest rest
  | last {value : α} {t rest : Text} (h : Opens (write value) t rest) : Lists write [value] t rest
  | cons {value : α} {values : List α} {t next rest : Text}
      (h : Opens (write value ++ [[',']]) t next) (hmore : Lists write values next rest) :
      Lists write (value :: values) t rest

namespace Lists

variable {write : α → List Text} {values : List α} {t rest : Text}

/-- What opens with a listing is the part that it takes up, with the rest behind it. -/
theorem exists_append (h : Lists write values t rest) :
    ∃ part, t = part ++ rest ∧ ∀ more, Lists write values (part ++ more) more := by
  induction h with
  | nil => exact ⟨[], rfl, fun _ => .nil⟩
  | last h =>
      obtain ⟨part, rfl, hpart⟩ := h.exists_append
      exact ⟨part, rfl, fun more => .last (hpart.append more)⟩
  | cons h _ ih =>
      obtain ⟨first, rfl, hfirst⟩ := h.exists_append
      obtain ⟨part, rfl, hpart⟩ := ih
      refine ⟨first ++ part, by simp, fun more => ?_⟩
      rw [List.append_assoc]
      exact .cons (hfirst.append (part ++ more)) (hpart more)

theorem suffix (h : Lists write values t rest) : rest <:+ t := by
  obtain ⟨part, rfl, -⟩ := h.exists_append
  exact List.suffix_append _ _

end Lists

/-- What stands behind a value of a listing, before the comma. -/
theorem head?_of_opens_comma {follows : Char → Prop} {t rest : Text}
    (hgap : ∀ c, isBlank c = true ∨ c = ',' → follows c) (h : Opens [[',']] t rest) :
    ∀ c ∈ t.head?, follows c := by
  obtain ⟨c, more, rfl, hc⟩ := h.exists_cons
  rintro _ ⟨⟩
  exact hgap c hc

/-- A search finds what is read from the values of a listing, and then what is behind it. Behind a
value must stand a character that may follow it, as white space and commas may. -/
theorem searchAll_of_lists {β : Type} {barrier : Char → Bool} {write : α → List Text}
    {scan : Text → Option (β × Text)} (read : α → β) (follows : Char → Prop) {values : List α}
    {t rest : Text}
    (hgap : ∀ c, isBlank c = true ∨ c = ',' →
      follows c ∧ barrier c = false ∧ ∀ more, scan (c :: more) = none)
    (hread : ∀ value ∈ values, ∀ t rest, Opens (write value) t rest →
      (∀ c ∈ rest.head?, follows c) →
      searchAll barrier scan false t = read value :: searchAll barrier scan false rest)
    (hrest : ∀ c ∈ rest.head?, follows c) (h : Lists write values t rest) :
    searchAll barrier scan false t = values.map read ++ searchAll barrier scan false rest := by
  induction h with
  | nil => rfl
  | last h => exact hread _ List.mem_cons_self _ _ h hrest
  | cons h _ ih =>
      obtain ⟨hvalue, hmore⟩ := List.forall_mem_cons.mp hread
      obtain ⟨behind, hopens, hcomma⟩ := opens_append_iff.mp h
      have hbehind := head?_of_opens_comma (fun c hc => (hgap c hc).1) hcomma
      obtain ⟨blanks, hblanks, rfl⟩ := opens_singleton_iff.mp hcomma
      rw [hvalue _ _ hopens hbehind,
        searchAll_append_of_none fun c hc => (hgap c (.inl (hblanks c hc))).2,
        searchAll_append_of_none fun c hc => (hgap c (.inr (List.mem_singleton.mp hc))).2,
        ih hmore hrest, List.map_cons, List.cons_append]

/-- A search that may begin anywhere finds the values of a listing, and then what is behind it. -/
theorem findAll_of_lists {write : α → List Text} {scan : Text → Option (α × Text)}
    {values : List α} {t rest : Text}
    (hgap : ∀ c, isBlank c = true ∨ c = ',' → ∀ more, scan (c :: more) = none)
    (hread : ∀ value ∈ values, ∀ t rest, Opens (write value) t rest →
      findAll scan t = value :: findAll scan rest)
    (h : Lists write values t rest) : findAll scan t = values ++ findAll scan rest := by
  have hfound : findAll scan t = values.map id ++ findAll scan rest :=
    searchAll_of_lists id (fun _ => True) (fun c hc => ⟨trivial, rfl, hgap c hc⟩)
      (fun value hmem t rest hopens _ => hread value hmem t rest hopens) (fun _ _ => trivial) h
  rwa [List.map_id] at hfound

/-- If nothing is read at any position of a value, as long as certain characters follow it, nothing
is read at any position of a listing. -/
theorem passes_of_lists {β : Type} {write : α → List Text} {scan : Text → Option β}
    (follows : Char → Prop) {values : List α} {t rest : Text}
    (hgap : ∀ c, isBlank c = true ∨ c = ',' → follows c ∧ ∀ more, scan (c :: more) = none)
    (hpass : ∀ value ∈ values, ∀ t rest, Opens (write value) t rest →
      (∀ c ∈ rest.head?, follows c) → Passes scan t rest)
    (hrest : ∀ c ∈ rest.head?, follows c) (h : Lists write values t rest) :
    Passes scan t rest := by
  induction h with
  | nil => exact .refl _
  | last h => exact hpass _ List.mem_cons_self _ _ h hrest
  | cons h _ ih =>
      obtain ⟨hvalue, hmore⟩ := List.forall_mem_cons.mp hpass
      obtain ⟨behind, hopens, hcomma⟩ := opens_append_iff.mp h
      have hhead := head?_of_opens_comma (fun c hc => (hgap c hc).1) hcomma
      obtain ⟨blanks, hblanks, rfl⟩ := opens_singleton_iff.mp hcomma
      refine (hvalue _ _ hopens hhead).trans ?_
      exact .append (fun c hc => (hgap c (.inl (hblanks c hc))).2)
        (.cons ((hgap _ (.inr rfl)).2 _) (ih hmore hrest))

end Almanac.Text
