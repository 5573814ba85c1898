import Almanac.Proofs.Country.WrittenAttributes
import Almanac.Proofs.Text.DigitClasses

/-!
# Tables of subdivisions

Codes that an attribute lists in parentheses are read with the names that another attribute pairs
them with in braces. Names are read between quotes of both sorts, so a name with an apostrophe is
cut there; a name that looks like a code is taken for one; and brackets in names count as brackets.
Of all other names the first one of a code is its name.
-/

namespace Almanac.Country

open Almanac.Text Almanac.Data

/-! ## Quoted texts -/

/-- A text between quotes, which are not in it, opens the text. -/
def OpensQuoted (t value rest : Text) : Prop :=
  ∃ q q', isQuote q = true ∧ isQuote q' = true ∧ value ≠ [] ∧ (∀ c ∈ value, isQuote c = false) ∧
    t = q :: (value ++ q' :: rest)

/-- One to three capital letters and digits. -/
structure IsSubdivisionCode (t : Text) : Prop where
  ne_nil : t ≠ []
  length_le : t.length ≤ 3
  codeChars : ∀ c ∈ t, isCodeChar c = true

instance (t : Text) : Decidable (IsSubdivisionCode t) :=
  haveI := List.decidableBAll (fun c => isCodeChar c = true) t
  decidable_of_iff (t ≠ [] ∧ t.length ≤ 3 ∧ ∀ c ∈ t, isCodeChar c = true)
    ⟨fun ⟨hsome, hlength, hchars⟩ => ⟨hsome, hlength, hchars⟩,
      fun ⟨hsome, hlength, hchars⟩ => ⟨hsome, hlength, hchars⟩⟩

theorem quoted?_eq_some_iff {t value rest : Text} :
    quoted? t = some (value, rest) ↔ OpensQuoted t value rest := by
  constructor
  · exact quoted?_spec
  · rintro ⟨q, q', hq, hq', hsome, hvalue, rfl⟩
    exact quoted?_of_text hq hq' hsome hvalue rest

theorem isQuote_of_isCodeChar {c : Char} (h : isCodeChar c = true) : isQuote c = false :=
  isQuote_of_class (by decide) (by decide) h

theorem isCodeChar_of_isBlank {c : Char} (h : isBlank c = true) : isCodeChar c = false := by
  rw [← Bool.not_eq_true]
  intro hcode
  have hholds : Holds [(48, 57), (65, 90)] c.toNat := by
    simp only [isCodeChar, isCapital, isPlainDigit, Bool.or_eq_true, Bool.and_eq_true,
      decide_eq_true_eq, Char.le_def, UInt32.le_iff_toNat_le] at hcode
    rcases hcode with hcapital | hdigit
    · exact ⟨(65, 90), by decide, hcapital⟩
    · exact ⟨(48, 57), by decide, hdigit⟩
  exact (holds_of_inIntervals h).not_of_allApart (by decide) hholds

theorem isCodeChar_of_isQuote {c : Char} (h : isQuote c = true) : isCodeChar c = false := by
  rw [← Bool.not_eq_true]
  intro hcode
  rw [isQuote_of_isCodeChar hcode] at h
  cases h

theorem code?_eq_some_iff {t code rest : Text} :
    code? t = some (code, rest) ↔ OpensQuoted t code rest ∧ IsSubdivisionCode code := by
  constructor
  · intro h
    obtain ⟨q, q', hq, hq', hsome, hlength, hchars, hsplit⟩ := code?_spec h
    exact ⟨⟨q, q', hq, hq', hsome, fun c hc => isQuote_of_isCodeChar (hchars c hc), hsplit⟩,
      hsome, hlength, hchars⟩
  · rintro ⟨⟨q, q', hq, hq', -, -, rfl⟩, hsome, hlength, hchars⟩
    have hstop : ∀ c ∈ (q' :: rest).head?, isCodeChar c = false := fun c hc => by
      obtain rfl := Option.some.inj hc
      exact isCodeChar_of_isQuote hq'
    rw [code?, quotedValue?, afterQuote?_cons, if_pos hq]
    simp only [Option.bind_eq_bind, Option.bind_some, takeWhile_span hchars hstop,
      dropWhile_span hchars hstop, afterQuote?_cons, hq', if_true]
    rw [if_pos ⟨List.length_pos_iff.mpr hsome, hlength⟩]

/-! ## Pairs -/

/-- A quoted text with a colon behind it opens the text, and then, behind white space or none, there
is another quoted text. -/
def OpensPair (t first second rest : Text) : Prop :=
  ∃ blanks behind, (∀ c ∈ blanks, isBlank c = true) ∧
    OpensQuoted t first (':' :: (blanks ++ behind)) ∧ OpensQuoted behind second rest

/-- A pair opens the text, of which one part is a code. -/
def HasPair (t : Text) : Prop :=
  ∃ first second rest, OpensPair t first second rest ∧
    (IsSubdivisionCode first ∨ IsSubdivisionCode second)

theorem stripStart_of_opensQuoted {blanks t value rest : Text}
    (hblanks : ∀ c ∈ blanks, isBlank c = true) (h : OpensQuoted t value rest) :
    stripStart (blanks ++ t) = t := by
  obtain ⟨q, q', hq, -, -, -, rfl⟩ := h
  refine stripStart_append_cons hblanks ?_ _
  rw [← Bool.not_eq_true]
  intro hblank
  rw [isQuote_of_isBlank hblank] at hq
  cases hq

theorem opensPair_iff {t first second rest : Text} : OpensPair t first second rest ↔
    ∃ behind, OpensQuoted t first (':' :: behind) ∧
      OpensQuoted (stripStart behind) second rest := by
  constructor
  · rintro ⟨blanks, behind, hblanks, hfirst, hsecond⟩
    exact ⟨_, hfirst, by rwa [stripStart_of_opensQuoted hblanks hsecond]⟩
  · rintro ⟨behind, hfirst, hsecond⟩
    obtain ⟨blanks, hblanks, hsplit⟩ := stripStart_split behind
    rw [hsplit] at hfirst
    exact ⟨blanks, stripStart behind, hblanks, hfirst, hsecond⟩

theorem codeAndName?_eq_some_iff {t code name rest : Text} :
    codeAndName? t = some ((code, name), rest) ↔
      OpensPair t code name rest ∧ IsSubdivisionCode code := by
  rw [opensPair_iff, ← exists_and_right]
  refine pair?_eq_some_iff.trans (exists_congr fun behind => ?_)
  rw [code?_eq_some_iff, quoted?_eq_some_iff, and_right_comm]

theorem nameAndCode?_eq_some_iff {t name code rest : Text} :
    nameAndCode? t = some ((name, code), rest) ↔
      OpensPair t name code rest ∧ IsSubdivisionCode code := by
  rw [opensPair_iff, ← exists_and_right]
  refine pair?_eq_some_iff.trans (exists_congr fun behind => ?_)
  rw [code?_eq_some_iff, quoted?_eq_some_iff, and_assoc]

/-- The two searches find something at the positions at which there is a pair with a code. -/
theorem hasPair_iff {t : Text} :
    HasPair t ↔ (codeAndName? t).isSome = true ∨ (nameAndCode? t).isSome = true := by
  simp only [Option.isSome_iff_exists]
  constructor
  · rintro ⟨first, second, rest, hpair, hcode | hcode⟩
    · exact .inl ⟨_, codeAndName?_eq_some_iff.mpr ⟨hpair, hcode⟩⟩
    · exact .inr ⟨_, nameAndCode?_eq_some_iff.mpr ⟨hpair, hcode⟩⟩
  · rintro (⟨⟨⟨code, name⟩, rest⟩, h⟩ | ⟨⟨⟨name, code⟩, rest⟩, h⟩)
    · obtain ⟨hpair, hcode⟩ := codeAndName?_eq_some_iff.mp h
      exact ⟨code, name, rest, hpair, .inl hcode⟩
    · obtain ⟨hpair, hcode⟩ := nameAndCode?_eq_some_iff.mp h
      exact ⟨name, code, rest, hpair, .inr hcode⟩

instance (t : Text) : Decidable (HasPair t) :=
  decidable_of_iff _ hasPair_iff.symm

theorem OpensQuoted.append {t value rest : Text} (h : OpensQuoted t value rest) (more : Text) :
    OpensQuoted (t ++ more) value (rest ++ more) := by
  obtain ⟨q, q', hq, hq', hsome, hvalue, rfl⟩ := h
  exact ⟨q, q', hq, hq', hsome, hvalue, by simp⟩

theorem HasPair.append {t : Text} (h : HasPair t) (more : Text) : HasPair (t ++ more) := by
  obtain ⟨first, second, rest, ⟨blanks, behind, hblanks, hfirst, hsecond⟩, hcode⟩ := h
  refine ⟨first, second, rest ++ more, ⟨blanks, behind ++ more, hblanks, ?_, hsecond.append more⟩,
    hcode⟩
  simpa using hfirst.append more

/-! ## Written tables -/

def doubleQuoted (t : Text) : Text :=
  '"' :: (t ++ ['"'])

def writeCode (code : Text) : List Text :=
  [doubleQuoted code]

def writeAlias (pair : Text × Text) : List Text :=
  [doubleQuoted pair.1 ++ ":", doubleQuoted pair.2]

/-- What is read as a name: anything without quotes that is no code. -/
structure IsSubdivisionName (t : Text) : Prop where
  ne_nil : t ≠ []
  notQuote : ∀ c ∈ t, isQuote c = false
  notCode : ¬ IsSubdivisionCode t

instance (t : Text) : Decidable (IsSubdivisionName t) :=
  haveI := List.decidableBAll (fun c => isQuote c = false) t
  decidable_of_iff (t ≠ [] ∧ (∀ c ∈ t, isQuote c = false) ∧ ¬ IsSubdivisionCode t)
    ⟨fun ⟨hsome, hquote, hcode⟩ => ⟨hsome, hquote, hcode⟩,
      fun ⟨hsome, hquote, hcode⟩ => ⟨hsome, hquote, hcode⟩⟩

theorem opensQuoted_doubleQuoted {value : Text} (hsome : value ≠ [])
    (hvalue : ∀ c ∈ value, isQuote c = false) (rest : Text) :
    OpensQuoted (doubleQuoted value ++ rest) value rest :=
  ⟨'"', '"', rfl, rfl, hsome, hvalue, by simp [doubleQuoted]⟩

theorem IsSubdivisionCode.notQuote {code : Text} (h : IsSubdivisionCode code) :
    ∀ c ∈ code, isQuote c = false :=
  fun c hc => isQuote_of_isCodeChar (h.codeChars c hc)

theorem findAll_of_read {α : Type} {scan : Text → Option (α × Text)} (hscan : LeavesRest scan)
    {t rest : Text} {found : α} (h : scan t = some (found, rest)) :
    findAll scan t = found :: findAll scan rest := by
  cases t with
  | nil => rw [hscan.1] at h; cases h
  | cons c t => exact findAll_cons_of_some h (hscan.2 h)

theorem leavesRest_quoted? : LeavesRest quoted? :=
  ⟨rfl, fun h => suffix_of_quoted? h⟩

theorem findAll_quoted?_of_code {code t rest : Text} (hcode : IsSubdivisionCode code)
    (h : Opens (writeCode code) t rest) : findAll quoted? t = code :: findAll quoted? rest := by
  obtain ⟨blanks, hblanks, rfl⟩ := opens_singleton_iff.mp h
  rw [findAll_quoted?_pass fun c hc => isQuote_of_isBlank (hblanks c hc)]
  exact findAll_of_read leavesRest_quoted?
    (quoted?_eq_some_iff.mpr (opensQuoted_doubleQuoted hcode.ne_nil hcode.notQuote rest))

theorem nameAndCode?_of_notQuote {c : Char} (h : isQuote c = false) (t : Text) :
    nameAndCode? (c :: t) = none :=
  nameAndCode?_of_noText (quoted?_of_notQuote h t)

theorem findAll_nameAndCode?_of_alias {pair : Text × Text} {t rest : Text}
    (hname : IsSubdivisionName pair.1) (hcode : IsSubdivisionCode pair.2)
    (h : Opens (writeAlias pair) t rest) :
    findAll nameAndCode? t = pair :: findAll nameAndCode? rest := by
  obtain ⟨behind, hfirst, hsecond⟩ := opens_cons_iff.mp h
  obtain ⟨blanks, hblanks, rfl⟩ := opens_singleton_iff.mp hfirst
  obtain ⟨others, hothers, rfl⟩ := opens_singleton_iff.mp hsecond
  have hread := opensQuoted_doubleQuoted hname.ne_nil hname.notQuote
    (":" ++ (others ++ (doubleQuoted pair.2 ++ rest)))
  rw [findAll_append_of_none fun c hc =>
    nameAndCode?_of_notQuote (isQuote_of_isBlank (hblanks c hc)), List.append_assoc]
  exact findAll_of_read leavesRest_nameAndCode? (nameAndCode?_eq_some_iff.mpr
    ⟨⟨others, _, hothers, hread, opensQuoted_doubleQuoted hcode.ne_nil hcode.notQuote rest⟩, hcode⟩)

/-! No code is paired with a name at any position of a written pair. -/

theorem codeAndName?_of_notQuote {c : Char} (h : isQuote c = false) (t : Text) :
    codeAndName? (c :: t) = none :=
  codeAndName?_of_noCode (code?_of_notQuote h t)

theorem codeAndName?_of_blanks {blanks : Text} (hblanks : ∀ c ∈ blanks, isBlank c = true) :
    ∀ c ∈ blanks, ∀ more, codeAndName? (c :: more) = none :=
  fun c hc => codeAndName?_of_notQuote (isQuote_of_isBlank (hblanks c hc))

theorem codeAndName?_of_noCodeChar (q : Char) {t : Text}
    (ht : ∀ c ∈ t.head?, isCodeChar c = false) : codeAndName? (q :: t) = none := by
  refine codeAndName?_of_noCode ?_
  cases hread : code? (q :: t) with
  | none => rfl
  | some found =>
      obtain ⟨⟨_, q', -, -, -, -, hsplit⟩, hcode⟩ := code?_eq_some_iff.mp hread
      obtain ⟨c, more, hmore⟩ := List.exists_cons_of_ne_nil hcode.ne_nil
      rw [hmore] at hsplit
      obtain ⟨-, rfl⟩ := List.cons.inj hsplit
      have hchar := hcode.codeChars c (by rw [hmore]; exact List.mem_cons_self)
      rw [ht c rfl] at hchar
      cases hchar

/-- A quoted text is paired with a name if it is a code and a colon stands behind it. -/
theorem codeAndName?_doubleQuoted {value t : Text} (hsome : value ≠ [])
    (hvalue : ∀ c ∈ value, isQuote c = false)
    (h : ¬ IsSubdivisionCode value ∨ ∀ c ∈ t.head?, c ≠ ':') :
    codeAndName? (doubleQuoted value ++ t) = none := by
  cases hread : codeAndName? (doubleQuoted value ++ t) with
  | none => rfl
  | some found =>
      obtain ⟨⟨code, name⟩, rest⟩ := found
      obtain ⟨⟨blanks, behind, -, hquoted, -⟩, hcode⟩ := codeAndName?_eq_some_iff.mp hread
      have hhere := quoted?_eq_some_iff.mpr (opensQuoted_doubleQuoted hsome hvalue t)
      rw [quoted?_eq_some_iff.mpr hquoted] at hhere
      cases hhere
      rcases h with hnot | hhead
      · exact absurd hcode hnot
      · exact absurd rfl (hhead ':' rfl)

theorem passes_doubleQuoted {value t : Text} (hsome : value ≠ [])
    (hvalue : ∀ c ∈ value, isQuote c = false)
    (h : ¬ IsSubdivisionCode value ∨ ∀ c ∈ t.head?, c ≠ ':')
    (ht : ∀ c ∈ t.head?, isCodeChar c = false) :
    Passes codeAndName? (doubleQuoted value ++ t) t := by
  have hhere := codeAndName?_doubleQuoted hsome hvalue h
  simp only [doubleQuoted, List.cons_append, List.append_assoc, List.nil_append] at hhere ⊢
  refine .cons hhere (.append (fun c hc => codeAndName?_of_notQuote (hvalue c hc)) ?_)
  exact .cons (codeAndName?_of_noCodeChar '"' ht) (.refl t)

theorem passes_of_alias {pair : Text × Text} {t rest : Text} (hname : IsSubdivisionName pair.1)
    (hcode : IsSubdivisionCode pair.2) (h : Opens (writeAlias pair) t rest)
    (hrest : ∀ c ∈ rest.head?, c ≠ ':' ∧ isCodeChar c = false) : Passes codeAndName? t rest := by
  obtain ⟨behind, hfirst, hsecond⟩ := opens_cons_iff.mp h
  obtain ⟨blanks, hblanks, rfl⟩ := opens_singleton_iff.mp hfirst
  obtain ⟨others, hothers, rfl⟩ := opens_singleton_iff.mp hsecond
  have hsecond : Passes codeAndName? (others ++ (doubleQuoted pair.2 ++ rest)) rest :=
    .append (codeAndName?_of_blanks hothers) (passes_doubleQuoted hcode.ne_nil hcode.notQuote
      (.inr fun c hc => (hrest c hc).1) fun c hc => (hrest c hc).2)
  have hcolon : Passes codeAndName? (':' :: (others ++ (doubleQuoted pair.2 ++ rest))) rest :=
    .cons (codeAndName?_of_notQuote (by decide) _) hsecond
  rw [List.append_assoc (doubleQuoted pair.1)]
  refine .append (codeAndName?_of_blanks hblanks) (.trans (passes_doubleQuoted hname.ne_nil
    hname.notQuote (.inl hname.notCode) ?_) hcolon)
  rintro c ⟨⟩
  decide

/-! ## The table -/

/-- The names of codes by their aliases: each code has the first name that it is paired with. -/
theorem get?_foldl_aliases (pairs : List (Text × Text)) (known : Entries Text Text) (code : Text) :
    (pairs.foldl (fun known (name, code) =>
        if known.has code then known else known.put code name) known).get? code =
      (known.get? code).or ((pairs.find? fun pair => pair.2 = code).map Prod.fst) := by
  induction pairs generalizing known with
  | nil => simp
  | cons pair pairs ih =>
      obtain ⟨name, other⟩ := pair
      rw [List.foldl_cons, ih, List.find?_cons]
      by_cases hother : other = code
      · subst hother
        cases hknown : known.get? other with
        | none => simp [Entries.has, hknown]
        | some value => simp [Entries.has, hknown]
      · by_cases hknown : other ∈ known.keys <;> simp [hother, hknown]

/-- Codes that are not known yet go to the end, one after the other. -/
theorem foldl_codes {codes : List Text} (hcodes : codes.Nodup) (nameOf : Text → Text)
    (known : Entries Text Text) (hknown : ∀ code ∈ codes, code ∉ known.keys) :
    codes.foldl (fun known code =>
        if known.has code then known else known.put code (nameOf code)) known =
      known ++ codes.map fun code => (code, nameOf code) := by
  induction codes generalizing known with
  | nil => simp
  | cons code codes ih =>
      obtain ⟨hcode, hcodes⟩ := List.nodup_cons.mp hcodes
      obtain ⟨hnew, hknown⟩ := List.forall_mem_cons.mp hknown
      have hnone := (Entries.get?_eq_none_iff known code).mpr hnew
      rw [List.foldl_cons, if_neg (by simp [Entries.has, hnone]),
        Entries.put_of_get?_eq_none hnone, ih hcodes]
      · simp
      · intro other hother
        have hne : other ≠ code := fun heq => hcode (heq ▸ hother)
        simpa [Entries.keys, hne] using hknown other hother

section

variable {t value rest : Text} {pairs : List (Text × Text)} {codes : List Text}

/-- No pair is found outside of the table. -/
def OnlyPairsOf (t value rest : Text) : Prop :=
  ∀ s, s <:+ t → HasPair s → s <:+ value ∧ ¬ s <:+ rest

/-- In a table no code is paired with a name. -/
theorem passes_of_table
    (hpairs : ∀ pair ∈ pairs, IsSubdivisionName pair.1 ∧ IsSubdivisionCode pair.2)
    (hdisplays : Displays '\x7b' '\x7d' writeAlias pairs value rest) :
    Passes codeAndName? value rest := by
  obtain ⟨inside, behind, hopens, hlists, hcloses⟩ := hdisplays
  have hgap : ∀ c, isBlank c = true ∨ c = ',' →
      (c ≠ ':' ∧ isCodeChar c = false) ∧ ∀ more, codeAndName? (c :: more) = none := by
    intro c hc
    refine ⟨?_, codeAndName?_of_notQuote (isQuote_of_gap hc)⟩
    rcases hc with hblank | rfl
    · refine ⟨?_, isCodeChar_of_isBlank hblank⟩
      rintro rfl
      exact absurd hblank (by decide)
    · decide
  have hbehind : ∀ c ∈ behind.head?, c ≠ ':' ∧ isCodeChar c = false := by
    obtain ⟨c, more, rfl, hc⟩ := hcloses.exists_cons
    rintro _ ⟨⟩
    rcases hc with hblank | rfl
    · exact (hgap c (.inl hblank)).1
    · decide
  have hinside : Passes codeAndName? inside behind :=
    passes_of_lists (fun c => c ≠ ':' ∧ isCodeChar c = false) hgap
      (fun pair hmem _ _ => passes_of_alias (hpairs pair hmem).1 (hpairs pair hmem).2)
      hbehind hlists
  obtain ⟨before, hbefore, rfl⟩ := opens_singleton_iff.mp hopens
  obtain ⟨after, hafter, rfl⟩ := opens_singleton_iff.mp hcloses
  have hclosing : Passes codeAndName? (after ++ (['\x7d'] ++ rest)) rest :=
    .append (codeAndName?_of_blanks hafter)
      (.cons (codeAndName?_of_notQuote (by decide) _) (.refl _))
  exact .append (codeAndName?_of_blanks hbefore)
    (.cons (codeAndName?_of_notQuote (by decide) _) (hinside.trans hclosing))

/-- If there are no pairs but those of a table, no code is paired with a name in the whole text. -/
theorem findAll_codeAndName?_eq_nil
    (hpairs : ∀ pair ∈ pairs, IsSubdivisionName pair.1 ∧ IsSubdivisionCode pair.2)
    (hdisplays : Displays '\x7b' '\x7d' writeAlias pairs value rest)
    (honly : OnlyPairsOf t value rest) : findAll codeAndName? t = [] := by
  refine findAll_of_passes fun s hs _ => ?_
  cases hread : codeAndName? s with
  | none => rfl
  | some found =>
      obtain ⟨hwithin, hnot⟩ := honly s hs (hasPair_iff.mpr (.inl (by rw [hread]; rfl)))
      rw [passes_of_table hpairs hdisplays s hwithin hnot] at hread
      cases hread

@[simp] theorem openBrackets?_doubleQuoted (depth : Nat) (t : Text) :
    openBrackets? depth (doubleQuoted t) = openBrackets? depth t := by
  have hquote : ∀ c ∈ ['"'], opensBracket c = false ∧ closesBracket c = false :=
    List.forall_mem_singleton.mpr (by decide)
  rw [doubleQuoted, ← List.singleton_append, openBrackets?_append, openBrackets?_of_plain hquote,
    Option.bind_some, openBrackets?_append]
  cases openBrackets? depth t with
  | none => rfl
  | some left => exact openBrackets?_of_plain hquote left

theorem openBrackets?_of_code {code : Text} (h : IsSubdivisionCode code) (depth : Nat) :
    openBrackets? depth code = some depth := by
  refine openBrackets?_of_plain (fun c hc => ?_) depth
  have hcode := h.codeChars c hc
  rw [← Bool.not_eq_true, ← Bool.not_eq_true]
  simp only [opensBracket, closesBracket, Bool.or_eq_true, decide_eq_true_eq]
  constructor <;> rintro ((rfl | rfl) | rfl) <;> exact absurd hcode (by decide)

theorem openBrackets?_writeAlias {pair : Text × Text} (hcode : IsSubdivisionCode pair.2)
    (depth : Nat) : openBrackets? depth (writeAlias pair).flatten = openBrackets? depth pair.1 := by
  have hcolon : ∀ c ∈ (":" : Text), opensBracket c = false ∧ closesBracket c = false :=
    List.forall_mem_singleton.mpr (by decide)
  rw [writeAlias, List.flatten_cons, List.flatten_singleton, openBrackets?_append,
    openBrackets?_append, openBrackets?_doubleQuoted]
  cases openBrackets? depth pair.1 with
  | none => rfl
  | some left =>
      rw [Option.bind_some, openBrackets?_of_plain hcolon, Option.bind_some,
        openBrackets?_doubleQuoted, openBrackets?_of_code hcode]

/-- The names of codes are those of the table. -/
theorem get?_aliases (hpairs : ∀ pair ∈ pairs, IsSubdivisionName pair.1 ∧ IsSubdivisionCode pair.2)
    (hbrackets : (openBrackets? 1 (pairs.flatMap Prod.fst)).isSome = true)
    (htable : FirstAssignment "subdivisions_aliases" t value)
    (hdisplays : Displays '\x7b' '\x7d' writeAlias pairs value rest)
    (honly : OnlyPairsOf t value rest) (code : Text) :
    (aliases t).get? code = (pairs.find? fun pair => pair.2 = code).map Prod.fst := by
  obtain ⟨depth, hdepth⟩ := Option.isSome_iff_exists.mp hbrackets
  obtain ⟨inside, behind, hblock, hlists, hcloses⟩ := attributeBlock?_of_displays
    (by decide) htable (by decide) (by decide) hdisplays
    (fun pair hmem => openBrackets?_writeAlias (hpairs pair hmem).2) hdepth
  -- the block may go on behind the table, but there are no pairs there
  have hnone : findAll nameAndCode?
      (if depth ≤ 1 then [] else bracketed (depth - 1) rest) = [] := by
    obtain ⟨more, hmore⟩ : (if depth ≤ 1 then [] else bracketed (depth - 1) rest) <+: rest := by
      split
      · exact List.nil_prefix
      · exact bracketed_prefix _ _
    refine findAll_of_passes fun s hs _ => ?_
    cases hread : nameAndCode? s with
    | none => rfl
    | some found =>
        have hpair : HasPair (s ++ more) :=
          (hasPair_iff.mpr (.inr (by rw [hread]; rfl))).append more
        have hrest : s ++ more <:+ rest := by
          obtain ⟨first, hfirst⟩ := hs
          exact ⟨first, by rw [← List.append_assoc, hfirst, hmore]⟩
        exact absurd hrest
          (honly _ (hrest.trans (hdisplays.suffix.trans htable.suffix)) hpair).2
  have hfound : findAll nameAndCode? ('\x7b' :: inside) = pairs := by
    rw [findAll_of_displayed (by decide) (by decide) (fun c hc => nameAndCode?_of_notQuote hc)
      (fun pair hmem _ _ =>
        findAll_nameAndCode?_of_alias (hpairs pair hmem).1 (hpairs pair hmem).2) hlists hcloses,
      hnone, List.append_nil]
  rw [aliases, hblock]
  dsimp only
  rw [hfound, get?_foldl_aliases]
  rfl

/-- Codes are read in the order of their tuple, each with the first name that the table pairs it
with, or else with itself for a name. This holds in any layout in which the colons stand right
behind the names, and for all names without quotes that are no codes themselves, as long as the
brackets in them do not close the one before the table. -/
theorem subdivisions_of_tables {codesValue codesRest : Text}
    (hcodes : ∀ code ∈ codes, IsSubdivisionCode code) (hdistinct : codes.Nodup)
    (hpairs : ∀ pair ∈ pairs, IsSubdivisionName pair.1 ∧ IsSubdivisionCode pair.2)
    (hbrackets : (openBrackets? 1 (pairs.flatMap Prod.fst)).isSome = true)
    (htuple : FirstAssignment "subdivisions" t codesValue)
    (hlisted : Displays '(' ')' writeCode codes codesValue codesRest)
    (htable : FirstAssignment "subdivisions_aliases" t value)
    (hdisplays : Displays '\x7b' '\x7d' writeAlias pairs value rest)
    (honly : OnlyPairsOf t value rest) :
    subdivisions t = codes.map fun code =>
      (code, ((pairs.find? fun pair => pair.2 = code).map Prod.fst).getD code) := by
  have hmark : ∀ code ∈ codes, ∀ depth,
      openBrackets? depth (writeCode code).flatten = openBrackets? depth [] := by
    intro code hmem depth
    rw [writeCode, List.flatten_singleton, openBrackets?_doubleQuoted,
      openBrackets?_of_code (hcodes code hmem)]
    rfl
  have hdepth : openBrackets? 1 (codes.flatMap fun _ => ([] : Text)) = some 1 := by
    rw [List.flatMap_eq_nil_iff.mpr fun _ _ => rfl]
    rfl
  obtain ⟨inside, behind, hblock, hlists, hcloses⟩ := attributeBlock?_of_displays
    (by decide) htuple (by decide) (by decide) hlisted hmark hdepth
  rw [if_pos (Nat.le_refl 1)] at hcloses
  have hfound : findAll quoted? ('(' :: inside) = codes := by
    rw [findAll_of_displayed (by decide) (by decide) (fun c hc => quoted?_of_notQuote hc)
      (fun code hmem _ _ => findAll_quoted?_of_code (hcodes code hmem)) hlists hcloses,
      findAll, searchAll, List.append_nil]
  rw [subdivisions, findAll_codeAndName?_eq_nil hpairs hdisplays honly, hblock]
  dsimp only
  rw [hfound, foldl_codes hdistinct (fun code => ((aliases t).get? code).getD code)
    (Entries.ofList []) fun _ _ => List.not_mem_nil]
  simp only [get?_aliases hpairs hbrackets htable hdisplays honly]
  rfl

end

/-- A table whose first name leaves a bracket open. -/
def northAliases : Text :=
  " \x7b\n  \"North (a\": \"A\", \"Nord\":\n   \"A\"\x7d\n"

/-- A tuple of two codes. -/
def northCodes : Text :=
  " (\"A\", \"B2\",)\n"

/-- The tuple on the line below the table. -/
def northTable : Text :=
  " subdivisions_aliases =" ++ (northAliases ++ (" subdivisions =" ++ northCodes))

theorem subdivisions_of_tables_north :
    subdivisions northTable = ([("A", "North (a"), ("B2", "B2")] : List (Text × Text)) := by
  have hcodes : ∀ code ∈ (["A", "B2"] : List Text), IsSubdivisionCode code := by decide
  have hpairs : ∀ pair ∈ ([("North (a", "A"), ("Nord", "A")] : List (Text × Text)),
      IsSubdivisionName pair.1 ∧ IsSubdivisionCode pair.2 := by decide
  have htuple : FirstAssignment "subdivisions" northTable northCodes := by
    refine ⟨" subdivisions_aliases =" ++ northAliases, " subdivisions =" ++ northCodes,
      (List.append_assoc _ _ _).symm, ?_, ?_, ⟨' ', rfl, by decide⟩,
      .spaced "subdivisions" (.spaced "=" .nil)⟩
    · rintro c ⟨⟩
      rfl
    · rw [assigns_iff (by decide)]
      decide +kernel
  have hlisted : Displays '(' ')' writeCode ["A", "B2"] northCodes "\n" :=
    ⟨_, _, .spaced ['('] .nil, .cons (.plain _ (.plain [','] .nil))
      (.cons (.spaced _ (.plain [','] .nil)) .nil), .plain [')'] .nil⟩
  have htable : FirstAssignment "subdivisions_aliases" northTable
      (northAliases ++ (" subdivisions =" ++ northCodes)) := by
    refine ⟨[], northTable, rfl, nofun, ?_, ⟨' ', rfl, by decide⟩,
      .spaced "subdivisions_aliases" (.spaced "=" .nil)⟩
    rw [assigns_iff (by decide)]
    exact Bool.false_ne_true
  have hdisplays : Displays '\x7b' '\x7d' writeAlias [("North (a", "A"), ("Nord", "A")]
      (northAliases ++ (" subdivisions =" ++ northCodes))
      ("\n" ++ (" subdivisions =" ++ northCodes)) :=
    ⟨_, _, .spaced ['\x7b'] .nil,
      .cons (@Opens.cons _ "\n  " _ _ _ (List.all_eq_true.mp rfl) (.spaced _ (.plain [','] .nil)))
        (.last (.spaced _ (@Opens.cons _ "\n   " _ _ _ (List.all_eq_true.mp rfl) .nil))),
      .plain ['\x7d'] .nil⟩
  have honly : OnlyPairsOf northTable (northAliases ++ (" subdivisions =" ++ northCodes))
      ("\n" ++ (" subdivisions =" ++ northCodes)) := by
    intro s hs
    rw [← List.mem_tails] at hs
    revert s
    decide +kernel
  exact subdivisions_of_tables hcodes (by decide) hpairs (by decide) htuple hlisted htable hdisplays
    honly

/-! ## Tables that are misread -/

/-- A table as the value of its attribute, behind a tuple of one code. -/
def behindTuple (table : Text) : Text :=
  " subdivisions = (\"A\",)\n subdivisions_aliases = \x7b" ++ table ++ "\x7d\n"

/-- A name is cut at an apostrophe, it is taken for a code if it looks like one, it hides the pairs
behind it if it closes a bracket, and it is not seen if the colon does not stand right behind it. -/
theorem subdivisions_of_misread :
    subdivisions (behindTuple "\"Côte d'Azur\": \"A\"") = ([("A", "Azur")] : List (Text × Text)) ∧
      subdivisions (behindTuple "\"ABC\": \"A\"") =
        ([("ABC", "A"), ("A", "ABC")] : List (Text × Text)) ∧
      subdivisions (behindTuple "\"a)\": \"B\", \"North\": \"A\"") =
        ([("A", "A")] : List (Text × Text)) ∧
      subdivisions (behindTuple "\"North\"\n: \"A\"") = ([("A", "A")] : List (Text × Text)) := by
  decide +kernel

end Almanac.Country
