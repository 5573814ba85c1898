import Almanac.Proofs.Text.Occurrences
import Almanac.Proofs.Text.Stripping

/-!
# Openings of texts

A scanner that passes over white space before each of its pieces reads a text that opens with these
pieces. The relation between the pieces, the text and its rest is what such a scanner is about: it
goes together from the relations of its parts, and comes apart into them.
-/

namespace Almanac.Text

/-- The text opens with the pieces, each behind white space or none, and goes on with the rest. -/
inductive Opens : List Text → Text → Text → Prop
  | nil {rest : Text} : Opens [] rest rest
  | cons {piece blanks t rest : Text} {pieces : List Text}
      (hblanks : ∀ c ∈ blanks, isBlank c = true)
      (h : Opens pieces t rest) : Opens (piece :: pieces) (blanks ++ (piece ++ t)) rest

theorem opens_singleton_iff {piece t rest : Text} : Opens [piece] t rest ↔
    ∃ blanks, (∀ c ∈ blanks, isBlank c = true) ∧ t = blanks ++ (piece ++ rest) := by
  constructor
  · rintro (_ | ⟨hblanks, ⟨⟩⟩)
    exact ⟨_, hblanks, rfl⟩
  · rintro ⟨blanks, hblanks, rfl⟩
    exact .cons hblanks .nil

theorem opens_append_iff {pieces more : List Text} {t rest : Text} :
    Opens (pieces ++ more) t rest ↔ ∃ behind, Opens pieces t behind ∧ Opens more behind rest := by
  constructor
  · intro h
    induction pieces generalizing t with
    | nil => exact ⟨t, .nil, h⟩
    | cons piece pieces ih =>
        cases h with
        | cons hblanks h =>
            obtain ⟨behind, hpieces, hmore⟩ := ih h
            exact ⟨behind, .cons hblanks hpieces, hmore⟩
  · rintro ⟨behind, hpieces, hmore⟩
    induction hpieces with
    | nil => exact hmore
    | cons hblanks _ ih => exact .cons hblanks (ih hmore)

theorem Opens.trans {pieces more : List Text} {t behind rest : Text} (h : Opens pieces t behind)
    (hmore : Opens more behind rest) : Opens (pieces ++ more) t rest :=
  opens_append_iff.mpr ⟨behind, h, hmore⟩

theorem opens_cons_iff {piece t rest : Text} {pieces : List Text} :
    Opens (piece :: pieces) t rest ↔ ∃ behind, Opens [piece] t behind ∧
      Opens pieces behind rest :=
  @opens_append_iff [piece] pieces t rest

/-- A piece behind no white space. -/
theorem Opens.plain (piece : Text) {pieces : List Text} {t rest : Text} (h : Opens pieces t rest) :
    Opens (piece :: pieces) (piece ++ t) rest :=
  .cons (List.forall_mem_nil _) h

/-- A piece behind a space. -/
theorem Opens.spaced (piece : Text) {pieces : List Text} {t rest : Text}
    (h : Opens pieces t rest) : Opens (piece :: pieces) (' ' :: (piece ++ t)) rest :=
  .cons (List.forall_mem_singleton.mpr (show isBlank ' ' = true by decide)) h

theorem Opens.append {pieces : List Text} {t rest : Text} (h : Opens pieces t rest)
    (behind : Text) : Opens pieces (t ++ behind) (rest ++ behind) := by
  induction h with
  | nil => exact .nil
  | cons hblanks _ ih =>
      rw [List.append_assoc, List.append_assoc]
      exact .cons hblanks ih

/-- What opens with pieces is the part that they take up, with the rest behind it. -/
theorem Opens.exists_append {pieces : List Text} {t rest : Text} (h : Opens pieces t rest) :
    ∃ part, t = part ++ rest ∧ Opens pieces part [] := by
  induction h with
  | nil => exact ⟨[], rfl, .nil⟩
  | @cons piece blanks _ _ _ hblanks _ ih =>
      obtain ⟨part, rfl, hpart⟩ := ih
      exact ⟨blanks ++ (piece ++ part), by simp, .cons hblanks hpart⟩

theorem Opens.suffix {pieces : List Text} {t rest : Text} (h : Opens pieces t rest) :
    rest <:+ t := by
  obtain ⟨part, rfl, -⟩ := h.exists_append
  exact List.suffix_append _ _

/-- No piece without white space is read across white space: the pieces open the text before it, or
nothing but white space is left before it when it is a piece's turn. -/
theorem opens_append_blank {pieces : List Text} {t behind rest : Text}
    (hpieces : ∀ piece ∈ pieces, ∀ c ∈ piece, isBlank c = false)
    (hblank : ∀ c ∈ behind.head?, isBlank c = true) (h : Opens pieces (t ++ behind) rest) :
    (∃ left, Opens pieces t left ∧ rest = left ++ behind) ∨
      ∃ done piece more blanks, pieces = done ++ piece :: more ∧ Opens done t blanks ∧
        (∀ c ∈ blanks, isBlank c = true) ∧ Opens (piece :: more) behind rest := by
  induction pieces generalizing t with
  | nil =>
      cases h
      exact .inl ⟨t, .nil, rfl⟩
  | cons piece pieces ih =>
      obtain ⟨hpiece, hmore⟩ := List.forall_mem_cons.mp hpieces
      generalize hwhole : t ++ behind = whole at h
      obtain _ | @⟨_, blanks, next, _, _, hblanks, hnext⟩ := h
      have hcut : (∃ left, t = (blanks ++ piece) ++ left ∧ next = left ++ behind) ∨
          ∃ c left, blanks ++ piece = t ++ c :: left ∧ behind = c :: left ++ next := by
        rw [← List.append_assoc] at hwhole
        rcases List.append_eq_append_iff.mp hwhole with ⟨left, hleft, hbehind⟩ | hpast
        · cases left with
          | nil => exact .inl ⟨[], by simpa using hleft.symm, hbehind.symm⟩
          | cons c left => exact .inr ⟨c, left, hleft, hbehind⟩
        · exact .inl hpast
      rcases hcut with ⟨left, rfl, rfl⟩ | ⟨c, left, hleft, rfl⟩
      · rw [List.append_assoc]
        rcases ih hmore hnext with ⟨last, hlast, rfl⟩ | ⟨done, first, more, last, rfl, hdone, hlast⟩
        · exact .inl ⟨last, .cons hblanks hlast, rfl⟩
        · exact .inr ⟨piece :: done, first, more, last, rfl, .cons hblanks hdone, hlast⟩
      · -- the white space does not begin within the piece, so it begins before it
        rcases List.append_eq_append_iff.mp hleft with ⟨later, -, hpast⟩ | ⟨later, rfl, hpast⟩
        · have hc := hblank c rfl
          rw [hpiece c (by simp [hpast])] at hc
          cases hc
        · refine .inr ⟨[], piece, pieces, t, rfl, .nil, fun c hc => ?_, ?_⟩
          · exact hblanks c (List.mem_append_left _ hc)
          · rw [hpast, List.append_assoc]
            exact .cons (fun c hc => hblanks c (List.mem_append_right _ hc)) hnext

/-- White space before a piece of nothing is white space before the next piece. -/
theorem Opens.of_nil_cons {pieces : List Text} {piece t rest : Text}
    (h : Opens ([] :: piece :: pieces) t rest) : Opens (piece :: pieces) t rest := by
  obtain ⟨behind, hnil, hnext⟩ := opens_cons_iff.mp h
  obtain ⟨later, hpiece, hmore⟩ := opens_cons_iff.mp hnext
  obtain ⟨blanks, hblanks, rfl⟩ := opens_singleton_iff.mp hnil
  obtain ⟨others, hothers, rfl⟩ := opens_singleton_iff.mp hpiece
  rw [List.nil_append, ← List.append_assoc]
  refine opens_cons_iff.mpr ⟨later, opens_singleton_iff.mpr ⟨_, ?_, rfl⟩, hmore⟩
  exact List.forall_mem_append.mpr ⟨hblanks, hothers⟩

/-- Does the text begin with a character that is no white space? -/
def beginsSolid (t : Text) : Bool :=
  t.head?.any fun c => !isBlank c

theorem exists_cons_of_beginsSolid {t : Text} (h : beginsSolid t = true) :
    ∃ c rest, t = c :: rest ∧ isBlank c = false := by
  cases t with
  | nil => cases h
  | cons c rest => exact ⟨c, rest, rfl, by simpa [beginsSolid] using h⟩

theorem beginsSolid_of_forall {t : Text} (hsome : t ≠ []) (ht : ∀ c ∈ t, isBlank c = false) :
    beginsSolid t = true := by
  obtain ⟨c, rest, rfl⟩ := List.exists_cons_of_ne_nil hsome
  simp [beginsSolid, ht c List.mem_cons_self]

/-- Stripping the start of a text leaves a piece that does not begin with white space, with the rest
behind it, just if the text opens with the piece. -/
theorem stripStart_eq_append_iff {t piece rest : Text} (hpiece : beginsSolid piece = true) :
    stripStart t = piece ++ rest ↔ Opens [piece] t rest := by
  rw [opens_singleton_iff]
  constructor
  · intro h
    rw [← h]
    exact stripStart_split t
  · rintro ⟨blanks, hblanks, rfl⟩
    obtain ⟨c, more, rfl, hc⟩ := exists_cons_of_beginsSolid hpiece
    exact stripStart_append_cons hblanks hc (more ++ rest)

theorem afterBlank?_eq_some_iff {opening t rest : Text} (hopening : beginsSolid opening = true) :
    afterBlank? opening t = some rest ↔ Opens [opening] t rest := by
  rw [afterBlank?, after?_eq_some_iff, stripStart_eq_append_iff hopening]

/-- A text that opens with a mark begins with white space or with the mark. -/
theorem Opens.exists_cons {mark : Char} {t rest : Text} (h : Opens [[mark]] t rest) :
    ∃ c more, t = c :: more ∧ (isBlank c = true ∨ c = mark) := by
  obtain ⟨blanks, hblanks, rfl⟩ := opens_singleton_iff.mp h
  cases blanks with
  | nil => exact ⟨mark, rest, rfl, .inr rfl⟩
  | cons c blanks => exact ⟨c, _, rfl, .inl (hblanks c List.mem_cons_self)⟩

/-- The characters of a text that opens with pieces. -/
theorem Opens.mem {pieces : List Text} {t rest : Text} (h : Opens pieces t rest) {c : Char}
    (hc : c ∈ t) : isBlank c = true ∨ (∃ piece ∈ pieces, c ∈ piece) ∨ c ∈ rest := by
  induction h with
  | nil => exact .inr (.inr hc)
  | cons hblanks h ih =>
      rcases List.mem_append.mp hc with hblank | hc
      · exact .inl (hblanks c hblank)
      · rcases List.mem_append.mp hc with hpiece | hbehind
        · exact .inr (.inl ⟨_, List.mem_cons_self, hpiece⟩)
        · rcases ih hbehind with hblank | ⟨piece, hmem, hpiece⟩ | hrest
          · exact .inl hblank
          · exact .inr (.inl ⟨piece, List.mem_cons_of_mem _ hmem, hpiece⟩)
          · exact .inr (.inr hrest)

end Almanac.Text
