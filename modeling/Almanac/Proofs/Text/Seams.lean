import Almanac.Proofs.Text.DigitClasses
import Almanac.Proofs.Text.Occurrences
import Almanac.Proofs.Text.Stripping

/-!
# Seams

A scanner reads words, numbers, white space and some marks. Behind a character that it knows none of
it cannot go on, so what it reads of a text does not change if such a character, with anything
behind it, is put at the end of the text; nor if white space is. Such an end is a *seam* for the
scanner. A search in a text with a seam is a search before the seam and then one behind it.
-/

namespace Almanac.Text

/-- A character that a scanner with the given marks does not know: no white space, no part of a word
or a number, and none of the marks. -/
structure IsForeign (marks : Text) (c : Char) : Prop where
  notBlank : isBlank c = false
  notWord : isWord c = false
  notDecimal : isDecimal c = false
  notAlpha : c.isAlpha = false
  notMark : c ∉ marks

/-- The characters that a keyword of a scanner with the given marks is made of. -/
def IsKnown (marks : Text) (opening : Text) : Prop :=
  ∀ c ∈ opening, isBlank c = false ∧ (isWord c = true ∨ c ∈ marks)

instance (marks opening : Text) : Decidable (IsKnown marks opening) :=
  List.decidableBAll (fun c => isBlank c = false ∧ (isWord c = true ∨ c ∈ marks)) opening

/-- A text into which a scanner with the given marks does not read: white space, and behind it
nothing or a character that the scanner does not know. -/
def IsSeam (marks : Text) (z : Text) : Prop :=
  ∀ c ∈ (stripStart z).head?, IsForeign marks c

section

variable {marks z : Text}

theorem isSeam_of_blank (hblank : ∀ c ∈ z, isBlank c = true) : IsSeam marks z := by
  have hnil : stripStart z = [] := List.dropWhile_eq_nil_iff.mpr hblank
  simp [IsSeam, hnil]

theorem isSeam_cons {c : Char} (hc : IsForeign marks c) (z : Text) : IsSeam marks (c :: z) := by
  rw [IsSeam, stripStart_cons hc.notBlank]
  simpa using hc

theorem IsSeam.head {c : Char} (hz : IsSeam marks (c :: z)) :
    isBlank c = true ∨ IsForeign marks c := by
  cases hblank : isBlank c with
  | true => exact .inl rfl
  | false =>
      rw [IsSeam, stripStart_cons hblank] at hz
      exact .inr (hz c rfl)

theorem IsSeam.stripStart (hz : IsSeam marks z) : IsSeam marks (stripStart z) := by
  have htwice : Text.stripStart (Text.stripStart z) = Text.stripStart z :=
    List.dropWhile_idempotent _ _
  rwa [IsSeam, htwice]

/-- White space before a seam belongs to the seam. -/
theorem IsSeam.append_blank {blanks : Text} (hblank : ∀ c ∈ blanks, isBlank c = true)
    (hz : IsSeam marks z) : IsSeam marks (blanks ++ z) := by
  have hskip : Text.stripStart (blanks ++ z) = Text.stripStart z :=
    List.dropWhile_append_of_pos hblank
  rwa [IsSeam, hskip]

/-- A scanner that reads on into a seam no more than it reads into the end of the text. What it
gives is changed by the seam as told, such as a rest of the text, which the seam makes longer. -/
def Respects (marks : Text) {α : Type} (scan : Text → Option α) (longer : Text → α → α) : Prop :=
  ∀ z, IsSeam marks z → ∀ t, scan (t ++ z) = (scan t).map (longer z)

/-- A scanner that knows fewer marks has more seams. -/
theorem Respects.mono {α : Type} {fewer : Text} {scan : Text → Option α} {longer : Text → α → α}
    (hscan : Respects fewer scan longer) (hmarks : fewer ⊆ marks) : Respects marks scan longer := by
  intro z hz
  refine hscan z fun c hc => ?_
  obtain ⟨hblank, hword, hdecimal, halpha, hmark⟩ := hz c hc
  exact ⟨hblank, hword, hdecimal, halpha, fun h => hmark (hmarks h)⟩

/-- The change to a result with a rest of the text. -/
def withRest {α : Type} (z : Text) (result : α × Text) : α × Text :=
  (result.1, result.2 ++ z)

/-! ## Scanners made of others -/

variable {α β : Type} {longer : Text → α → α}

theorem respects_after? {opening : Text} (hopening : IsKnown marks opening) :
    Respects marks (after? opening) (fun z rest => rest ++ z) := by
  intro z hz t
  refine after?_append (fun c hc hmem => ?_) t
  obtain ⟨hblank, hknown⟩ := hopening c hmem
  cases z with
  | nil => cases hc
  | cons d z =>
      obtain rfl := Option.some.inj hc
      rcases hz.head with hseam | hforeign
      · simp [hblank] at hseam
      · rcases hknown with hword | hmark
        · simp [hforeign.notWord] at hword
        · exact hforeign.notMark hmark

/-- Passing over white space first. -/
theorem Respects.stripStart {scan : Text → Option α} (hscan : Respects marks scan longer)
    (hnil : scan [] = none) : Respects marks (fun t => scan (stripStart t)) longer := by
  intro z hz t
  dsimp only
  by_cases hblank : ∀ c ∈ t, isBlank c = true
  · have hskip : Text.stripStart (t ++ z) = Text.stripStart z :=
      List.dropWhile_append_of_pos hblank
    have hend : Text.stripStart t = [] := List.dropWhile_eq_nil_iff.mpr hblank
    -- behind white space alone the scanner is at the seam at once
    have hseam := hscan (Text.stripStart z) hz.stripStart []
    rw [List.nil_append, hnil] at hseam
    rw [hskip, hend, hnil, hseam]
    rfl
  · have hsome : ∃ c ∈ t, isBlank c = false := by simpa using hblank
    rw [stripStart_append_of_mem hsome, hscan z hz]

theorem respects_afterBlank? {opening : Text} (hopening : IsKnown marks opening)
    (hsome : opening ≠ []) : Respects marks (afterBlank? opening) (fun z rest => rest ++ z) := by
  refine (respects_after? hopening).stripStart ?_
  cases opening with
  | nil => exact absurd rfl hsome
  | cons o opening => rfl

/-- One scanner and then another one on the rest. -/
theorem Respects.bind {scan : Text → Option Text}
    (hscan : Respects marks scan fun z rest => rest ++ z)
    {next : Text → Option α} (hnext : Respects marks next longer) :
    Respects marks (fun t => (scan t).bind next) longer := by
  intro z hz t
  dsimp only
  rw [hscan z hz]
  cases scan t with
  | none => rfl
  | some rest => exact hnext z hz rest

/-- One scanner and then another one on the rest, which depends on what the first one read. -/
theorem Respects.bindRead {scan : Text → Option (β × Text)} (hscan : Respects marks scan withRest)
    {next : β × Text → Option α}
    (hnext : ∀ read, Respects marks (fun rest => next (read, rest)) longer) :
    Respects marks (fun t => (scan t).bind next) longer := by
  intro z hz t
  dsimp only
  rw [hscan z hz]
  cases scan t with
  | none => rfl
  | some found => exact hnext found.1 z hz found.2

/-- An answer that does not depend on the rest. -/
theorem respects_const (answer : Option α) : Respects marks (fun _ => answer) (fun _ => id) := by
  intro z hz t
  simp

/-- The first answer among those of several scanners. -/
theorem respects_findSome? {γ : Type} {options : List γ} {scan : γ → Text → Option α}
    (hscan : ∀ option ∈ options, Respects marks (scan option) longer) :
    Respects marks (fun t => options.findSome? fun option => scan option t) longer := by
  intro z hz t
  induction options with
  | nil => rfl
  | cons option options ih =>
      obtain ⟨hfirst, hrest⟩ := List.forall_mem_cons.mp hscan
      simp only [List.findSome?_cons, hfirst z hz t]
      cases scan option t with
      | none => exact ih hrest
      | some a => rfl

/-- The characters of a class that has none of the seam's. -/
theorem respects_some? {p : Char → Bool} (hblank : ∀ c, isBlank c = true → p c = false)
    (hforeign : ∀ c, IsForeign marks c → p c = false) : Respects marks (some? p) withRest := by
  intro z hz t
  have hend : z.takeWhile p = [] ∧ z.dropWhile p = z := by
    cases z with
    | nil => exact ⟨rfl, rfl⟩
    | cons c z =>
        have hc : p c = false := hz.head.elim (hblank c) (hforeign c)
        simp [hc]
  have hread :
      (t ++ z).takeWhile p = t.takeWhile p ∧ (t ++ z).dropWhile p = t.dropWhile p ++ z := by
    induction t with
    | nil => exact hend
    | cons c t ih =>
        cases hc : p c with
        | true => simpa [hc] using ih
        | false => simp [hc]
  unfold some?
  rw [hread.1, hread.2]
  cases t.takeWhile p <;> rfl

theorem isDecimal_of_isBlank {c : Char} (hc : isBlank c = true) : isDecimal c = false := by
  cases hdecimal : isDecimal c with
  | false => rfl
  | true =>
      rw [isBlank_of_isDigit (isDigit_of_isDecimal hdecimal)] at hc
      exact Bool.noConfusion hc

theorem respects_decimals : Respects marks (some? isDecimal) withRest :=
  respects_some? (fun _ => isDecimal_of_isBlank) fun _ hc => hc.notDecimal

theorem respects_letters : Respects marks (some? Char.isAlpha) withRest :=
  respects_some? (fun _ => isAlpha_of_isBlank) fun _ hc => hc.notAlpha

theorem respects_oneOrTwoDigits? : Respects marks oneOrTwoDigits? withRest := by
  intro z hz t
  have hend : ∀ c w, z = c :: w → isDecimal c = false := by
    rintro c w rfl
    exact hz.head.elim isDecimal_of_isBlank IsForeign.notDecimal
  cases t with
  | nil =>
      cases z with
      | nil => rfl
      | cons c z => simp [oneOrTwoDigits?, hend c z rfl]
  | cons c t =>
      cases hc : isDecimal c with
      | false => simp [oneOrTwoDigits?, hc]
      | true =>
          cases t with
          | nil =>
              cases z with
              | nil => simp [oneOrTwoDigits?, hc, withRest]
              | cons d z => simp [oneOrTwoDigits?, hc, hend d z rfl, withRest]
          | cons d t => cases hd : isDecimal d <;> simp [oneOrTwoDigits?, hc, hd, withRest]

/-! ## Searches -/

theorem findWord?_of_scan {scan : Text → Option α} (hnil : scan [] = none) {t : Text} {a : α}
    (h : scan t = some a) : findWord? scan t = some a := by
  cases t with
  | nil =>
      rw [hnil] at h
      cases h
  | cons c t => simp [findWord?, search, h]

theorem findWord?_cons_of_none {scan : Text → Option α} {c : Char} {t : Text}
    (h : scan (c :: t) = none) (hc : isWord c = false) :
    findWord? scan (c :: t) = findWord? scan t := by
  simp [findWord?, search, h, hc]

/-- A scanner that needs a certain character finds nothing in a text without it. -/
theorem findWord?_of_notMem {scan : Text → Option α} {c : Char}
    (hscan : ∀ u, c ∉ u → scan u = none) {t : Text} (ht : c ∉ t) : findWord? scan t = none := by
  suffices ∀ blocked, search isWord scan blocked t = none from this false
  induction t with
  | nil => exact fun _ => rfl
  | cons d t ih =>
      intro blocked
      have hrest := ih fun hmem => ht (List.mem_cons_of_mem d hmem)
      cases blocked <;> simp [search, hscan (d :: t) ht, hrest]

section

variable {scan : Text → Option α} (hscan : Respects marks scan longer) (hnil : scan [] = none)

include hscan hnil

/-- A scanner that reads nothing at the end of a text reads nothing at a seam. -/
theorem Respects.eq_none (hz : IsSeam marks z) : scan z = none := by
  have hend := hscan z hz []
  rwa [List.nil_append, hnil] at hend

theorem Respects.search_blocked (hz : IsSeam marks z) (barrier : Char → Bool) (blocked : Bool) :
    search barrier scan blocked z = search barrier scan false z := by
  have hnone := hscan.eq_none hnil hz
  cases z with
  | nil => rfl
  | cons c z => cases blocked <;> simp [search, hnone]

/-- A search in a text with a seam goes on behind the seam if it finds nothing before. -/
theorem Respects.search_append (hz : IsSeam marks z) (barrier : Char → Bool) (blocked : Bool)
    (t : Text) : search barrier scan blocked (t ++ z) =
      ((search barrier scan blocked t).map (longer z)).or (search barrier scan false z) := by
  induction t generalizing blocked with
  | nil => exact hscan.search_blocked hnil hz barrier blocked
  | cons c t ih =>
      have hhere := hscan z hz (c :: t)
      rw [List.cons_append] at hhere
      cases blocked with
      | true => simpa [search] using ih (barrier c)
      | false =>
          cases hfound : scan (c :: t) with
          | none => simpa [search, hhere, hfound] using ih (barrier c)
          | some a => simp [search, hhere, hfound]

theorem Respects.findWord?_append (hz : IsSeam marks z) (t : Text) :
    findWord? scan (t ++ z) = ((findWord? scan t).map (longer z)).or (findWord? scan z) :=
  hscan.search_append hnil hz isWord false t

/-- Behind a character that the scanner does not know the search begins anew. -/
theorem Respects.findWord?_cons {c : Char} (hc : IsForeign marks c) (w : Text) :
    findWord? scan (c :: w) = findWord? scan w := by
  have hnone := hscan.eq_none hnil (isSeam_cons hc w)
  simp [findWord?, search, hnone, hc.notWord]

theorem Respects.findWord?_append_cons {c : Char} (hc : IsForeign marks c) (t w : Text) :
    findWord? scan (t ++ c :: w) =
      ((findWord? scan t).map (longer (c :: w))).or (findWord? scan w) := by
  rw [hscan.findWord?_append hnil (isSeam_cons hc w), hscan.findWord?_cons hnil hc]

/-- Nothing is found in white space. -/
theorem Respects.findWord?_blank {blanks : Text} (hblank : ∀ c ∈ blanks, isBlank c = true) :
    findWord? scan blanks = none := by
  suffices ∀ blocked, search isWord scan blocked blanks = none from this false
  induction blanks with
  | nil => exact fun _ => rfl
  | cons c blanks ih =>
      intro blocked
      have hnone := hscan.eq_none hnil (isSeam_of_blank hblank)
      have hrest := ih (List.forall_mem_cons.mp hblank).2
      cases blocked <;> simp [search, hnone, hrest]

end

end
end Almanac.Text
