import Almanac.Proofs.Text.Seams
import Mathlib.Data.List.GetD
import Mathlib.Data.List.Infix

/-!
# Searches across a gap

Between two parts of a text there may be a gap: a piece in which nothing is found. If no scanner
reads on from the first part into what stands behind it, be it the gap or the second part, a search
finds the same with the gap and without.
-/

namespace Almanac.Text

variable {α : Type} {barrier : Char → Bool} {scan : Text → Option (α × Text)}

/-- The scanner reads at least one character, and gives the text behind what it read. -/
def LeavesRest (scan : Text → Option (α × Text)) : Prop :=
  scan [] = none ∧ ∀ {c t found rest}, scan (c :: t) = some (found, rest) → rest <:+ t

/-- At the start of the first text the scanner reads nothing of the second one, which stands
behind. -/
def StaysIn (scan : Text → Option (α × Text)) (t behind : Text) : Prop :=
  scan (t ++ behind) = (scan t).map (withRest behind)

theorem searchAll_cons_of_none {blocked : Bool} {c : Char} {t : Text}
    (h : blocked = true ∨ scan (c :: t) = none) :
    searchAll barrier scan blocked (c :: t) = searchAll barrier scan (barrier c) t := by
  rw [searchAll]
  rcases h with rfl | hnone
  · rfl
  · rw [hnone]
    cases blocked <;> rfl

theorem searchAll_cons_of_some {c : Char} {t rest : Text} {found : α}
    (h : scan (c :: t) = some (found, rest)) (hrest : rest <:+ t) :
    searchAll barrier scan false (c :: t) = found ::
      searchAll barrier scan (barrier ((c :: t).getD (t.length - rest.length) c)) rest := by
  rw [searchAll, if_neg Bool.false_ne_true, h]
  dsimp only
  rw [← List.suffix_iff_eq_drop.mp hrest]

theorem findAll_cons_of_none {c : Char} {t : Text} (h : scan (c :: t) = none) :
    findAll scan (c :: t) = findAll scan t :=
  searchAll_cons_of_none (.inr h)

theorem findAll_cons_of_some {c : Char} {t rest : Text} {found : α}
    (h : scan (c :: t) = some (found, rest)) (hrest : rest <:+ t) :
    findAll scan (c :: t) = found :: findAll scan rest :=
  searchAll_cons_of_some h hrest

/-- Where nothing is read it makes no difference whether the barrier lets one look. -/
theorem searchAll_of_none {t : Text} (h : scan t = none) (blocked other : Bool) :
    searchAll barrier scan blocked t = searchAll barrier scan other t := by
  cases t with
  | nil => rw [searchAll, searchAll]
  | cons c t => rw [searchAll_cons_of_none (.inr h), searchAll_cons_of_none (.inr h)]

/-- A search passes over a piece in which nothing is found. -/
theorem searchAll_pass {gap later : Text}
    (hgap : ∀ s, s <:+ gap → s ≠ [] → scan (s ++ later) = none) (hlater : scan later = none)
    (blocked : Bool) :
    searchAll barrier scan blocked (gap ++ later) = searchAll barrier scan blocked later := by
  induction gap generalizing blocked with
  | nil => rfl
  | cons c gap ih =>
      have hhere : scan (c :: (gap ++ later)) = none :=
        hgap (c :: gap) (List.suffix_refl _) (List.cons_ne_nil c gap)
      rw [List.cons_append, searchAll_cons_of_none (.inr hhere),
        ih (fun s hs => hgap s (hs.trans (List.suffix_cons c gap))), searchAll_of_none hlater]

/-- What is found at the start of a first part, and where the search goes on behind it, does not
depend on what stands behind that part. -/
theorem searchAll_append_of_some (hscan : LeavesRest scan) {c : Char} {t rest behind : Text}
    {found : α} (h : scan (c :: t) = some (found, rest)) (hstays : StaysIn scan (c :: t) behind) :
    searchAll barrier scan false (c :: (t ++ behind)) = found ::
      searchAll barrier scan (barrier ((c :: t).getD (t.length - rest.length) c))
        (rest ++ behind) := by
  have hrest : rest <:+ t := hscan.2 h
  have hbehind : rest ++ behind <:+ t ++ behind := by
    obtain ⟨front, rfl⟩ := hrest
    exact ⟨front, by rw [List.append_assoc]⟩
  have hfound : scan (c :: (t ++ behind)) = some (found, rest ++ behind) := by
    rw [StaysIn, h] at hstays
    exact hstays
  have hbefore : (c :: (t ++ behind)).getD ((t ++ behind).length - (rest ++ behind).length) c =
      (c :: t).getD (t.length - rest.length) c := by
    rw [List.length_append, List.length_append, Nat.add_sub_add_right, ← List.cons_append,
      List.getD_append]
    rw [List.length_cons]
    omega
  rw [searchAll_cons_of_some hfound hbehind, hbefore]

/-- What is found with a gap is what is found without. -/
theorem searchAll_gap (hscan : LeavesRest scan) {before gap later : Text}
    (hstays : ∀ s, s <:+ before → s ≠ [] → StaysIn scan s (gap ++ later) ∧ StaysIn scan s later)
    (hgap : ∀ s, s <:+ gap → s ≠ [] → scan (s ++ later) = none) (hlater : scan later = none)
    (blocked : Bool) :
    searchAll barrier scan blocked (before ++ (gap ++ later)) =
      searchAll barrier scan blocked (before ++ later) := by
  induction hlength : before.length using Nat.strongRecOn generalizing before blocked with
  | _ n ih =>
      cases before with
      | nil => exact searchAll_pass hgap hlater blocked
      | cons c before =>
          have hsuffix : ∀ {rest}, rest <:+ before → ∀ blocked,
              searchAll barrier scan blocked (rest ++ (gap ++ later)) =
                searchAll barrier scan blocked (rest ++ later) := by
            intro rest hrest blocked
            have hshorter : rest.length < n := by
              have hle := hrest.length_le
              rw [List.length_cons] at hlength
              omega
            exact ih _ hshorter
              (fun s hs => hstays s (hs.trans (hrest.trans (List.suffix_cons c before)))) blocked
              rfl
          obtain ⟨hwith, hwithout⟩ := hstays (c :: before) (List.suffix_refl _) (by simp)
          rw [List.cons_append, List.cons_append]
          cases hfound : scan (c :: before) with
          | none =>
              rw [StaysIn, hfound, List.cons_append] at hwith hwithout
              rw [searchAll_cons_of_none (.inr hwith), searchAll_cons_of_none (.inr hwithout),
                hsuffix (List.suffix_refl _)]
          | some result =>
              obtain ⟨found, rest⟩ := result
              cases blocked with
              | true =>
                  rw [searchAll_cons_of_none (.inl rfl), searchAll_cons_of_none (.inl rfl),
                    hsuffix (List.suffix_refl _)]
              | false =>
                  rw [searchAll_append_of_some hscan hfound hwith,
                    searchAll_append_of_some hscan hfound hwithout, hsuffix (hscan.2 hfound)]

/-! ## The first answer -/

theorem search_cons_of_none {β : Type} {first : Text → Option β} {blocked : Bool} {c : Char}
    {t : Text} (h : blocked = true ∨ first (c :: t) = none) :
    search barrier first blocked (c :: t) = search barrier first (barrier c) t := by
  rw [search]
  rcases h with rfl | hnone
  · rfl
  · rw [hnone]
    cases blocked <;> rfl

theorem search_cons_of_some {β : Type} {first : Text → Option β} {c : Char} {t : Text} {found : β}
    (h : first (c :: t) = some found) : search barrier first false (c :: t) = some found := by
  rw [search, if_neg Bool.false_ne_true, h]

/-- Where the barrier lets nobody look, nothing is found. -/
theorem search_pass {β : Type} {first : Text → Option β} {gap : Text}
    (h : ∀ c ∈ gap, barrier c = true) (later : Text) :
    search barrier first true (gap ++ later) = search barrier first true later := by
  induction gap with
  | nil => rfl
  | cons c gap ih =>
      obtain ⟨hc, hgap⟩ := List.forall_mem_cons.mp h
      rw [List.cons_append, search_cons_of_none (.inl rfl), hc, ih hgap]

/-- The first answer in a text that goes on is the first one in the part before, and otherwise what
is found behind. An answer may be found where nothing was found before, if it is the same as
behind. -/
theorem search_append_or {first : Text → Option Text} {before behind : Text} {last : Option Text}
    (hlast : ∀ blocked, search barrier first blocked behind = last)
    (hfirst : ∀ s, s <:+ before → s ≠ [] → first (s ++ behind) = (first s).map (· ++ behind) ∨
      (∀ blocked, search barrier first blocked s = none) ∧ last.isSome = true ∧
        first (s ++ behind) = last) (blocked : Bool) :
    search barrier first blocked (before ++ behind) =
      ((search barrier first blocked before).map (· ++ behind)).or last := by
  induction before generalizing blocked with
  | nil => exact hlast blocked
  | cons c before ih =>
      have hrest := ih fun s hs => hfirst s (hs.trans (List.suffix_cons c before))
      have hhere := hfirst (c :: before) (List.suffix_refl _) (List.cons_ne_nil c before)
      rw [List.cons_append] at hhere ⊢
      rcases hhere with hsame | ⟨hnone, hsome, hhere⟩
      · cases hfound : first (c :: before) with
        | none =>
            rw [hfound] at hsame
            rw [search_cons_of_none (.inr hsame), search_cons_of_none (.inr hfound), hrest]
        | some found =>
            cases blocked with
            | true =>
                rw [search_cons_of_none (.inl rfl), search_cons_of_none (.inl rfl), hrest]
            | false =>
                rw [hfound] at hsame
                rw [search_cons_of_some hsame, search_cons_of_some hfound]
                rfl
      · obtain ⟨found, rfl⟩ := Option.isSome_iff_exists.mp hsome
        rw [hnone]
        cases blocked with
        | true =>
            have hblocked := hnone true
            rw [search_cons_of_none (.inl rfl)] at hblocked
            rw [search_cons_of_none (.inl rfl), hrest, hblocked]
        | false => exact search_cons_of_some hhere

end Almanac.Text
