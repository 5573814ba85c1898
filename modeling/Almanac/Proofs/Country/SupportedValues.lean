import Almanac.Proofs.Country.MetadataComments
import Almanac.Proofs.Country.UsableFiles
import Almanac.Proofs.Country.WrittenAttributes
import Almanac.Proofs.Holiday.Suffix
import Almanac.Proofs.Source.Lexemes

/-!
# Supported values

An attribute that is assigned the tuple of names, or of texts in quotes, has these names in lower
case, or these texts, as its values, each once and in the order in which they come first. The layout
of the tuple is free, and what follows it does not matter. The attribute has to be indented. Since
white space goes on over line breaks, an attribute at the very start of a line counts as indented if
a blank line stands above, and it hides the indented ones below.
-/

namespace Almanac.Country

open Almanac.Text Almanac.Source Almanac.Holiday.Catalog

/-! ## Indented assignments -/

/-- The text opens with white space of one line, and assigns a value to the label behind it. -/
def IndentedAt (label t value : Text) : Prop :=
  ∃ indentation behind, indentation ≠ [] ∧ (∀ c ∈ indentation, isBlank c = true ∧ c ≠ '\n') ∧
    t = indentation ++ (label ++ behind) ∧ Opens ["="] behind value

/-- Behind a label, the text opens with an equals sign and a bracket. -/
def OpensBracketed (t : Text) : Prop :=
  ∃ bracket rest, opensBracket bracket = true ∧ Opens ["=", [bracket]] t rest

/-- A line of the text is indented and assigns a bracketed value to the label. -/
def AssignsIndented (label t : Text) : Prop :=
  ∃ front indentation behind, t = front ++ (indentation ++ (label ++ behind)) ∧ OpensLine front ∧
    indentation ≠ [] ∧ (∀ c ∈ indentation, isBlank c = true ∧ c ≠ '\n') ∧ OpensBracketed behind

/-- A line of the text that stands right below blank lines is not indented and assigns a bracketed
value to the label. -/
def AssignsBelowBlank (label t : Text) : Prop :=
  ∃ front blanks behind, t = front ++ (blanks ++ '\n' :: (label ++ behind)) ∧ OpensLine front ∧
    (∀ c ∈ blanks, isBlank c = true) ∧ OpensBracketed behind

theorem IndentedAt.assignsAt {label t value : Text} (h : IndentedAt label t value) :
    AssignsAt label t value := by
  obtain ⟨indentation, behind, hsome, hblank, rfl, hvalue⟩ := h
  obtain ⟨c, indentation, rfl⟩ := List.exists_cons_of_ne_nil hsome
  exact ⟨⟨c, rfl, (hblank c List.mem_cons_self).1⟩, .cons (fun d hd => (hblank d hd).1) hvalue⟩

/-- The part of a text behind the last occurrence of a character. -/
theorem exists_behind_last {c : Char} {t : Text} (h : c ∈ t) :
    ∃ before behind, t = before ++ c :: behind ∧ c ∉ behind := by
  obtain ⟨behind, before, hsplit, hnot⟩ := List.eq_append_cons_of_mem (List.mem_reverse.mpr h)
  refine ⟨before.reverse, behind.reverse, ?_, mt List.mem_reverse.mp hnot⟩
  rw [← List.reverse_reverse t, hsplit]
  simp

theorem assigns_of_blank {label front blanks behind : Text} (hline : OpensLine front)
    (hsome : blanks ≠ []) (hblanks : ∀ c ∈ blanks, isBlank c = true)
    (h : OpensBracketed behind) : Assigns label (front ++ (blanks ++ (label ++ behind))) := by
  obtain ⟨bracket, rest, hbracket, hopens⟩ := h
  obtain ⟨value, hsign, hvalue⟩ := opens_cons_iff.mp hopens
  obtain ⟨c, blanks, rfl⟩ := List.exists_cons_of_ne_nil hsome
  exact ⟨front, _, value, bracket, rest, rfl, hline,
    ⟨⟨c, rfl, hblanks c List.mem_cons_self⟩, .cons hblanks hsign⟩, hbracket, hvalue⟩

/-- The assignments of bracketed values are those of indented lines and those right below blank
lines. -/
theorem assigns_iff_line {label : Text} (hlabel : IsLabel label) {t : Text} :
    Assigns label t ↔ AssignsIndented label t ∨ AssignsBelowBlank label t := by
  constructor
  · rintro ⟨front, back, value, bracket, rest, rfl, hline, ⟨⟨c, hc, hblank⟩, hopens⟩, hbracket,
      hvalue⟩
    obtain ⟨behind, hlabelled, hsign⟩ := opens_cons_iff.mp hopens
    obtain ⟨blanks, hblanks, rfl⟩ := opens_singleton_iff.mp hlabelled
    have hassigned : OpensBracketed behind := ⟨bracket, rest, hbracket, hsign.trans hvalue⟩
    -- the label is no white space, so there is some before it
    have hsome : blanks ≠ [] := by
      rintro rfl
      obtain ⟨d, label, rfl⟩ := List.exists_cons_of_ne_nil hlabel.1
      obtain rfl : d = c := Option.some.inj hc
      rw [(hlabel.2 d List.mem_cons_self).1] at hblank
      cases hblank
    by_cases hfeed : '\n' ∈ blanks
    · obtain ⟨above, indentation, rfl, hnot⟩ := exists_behind_last hfeed
      obtain ⟨habove, hindentation⟩ := List.forall_mem_append.mp hblanks
      cases indentation with
      | nil => exact .inr ⟨front, above, behind, by simp, hline, habove, hassigned⟩
      | cons d indentation =>
          refine .inl ⟨front ++ (above ++ ['\n']), d :: indentation, behind, by simp, ?_, by simp,
            fun c hc => ⟨hindentation c (List.mem_cons_of_mem _ hc), ?_⟩, hassigned⟩
          · simp [OpensLine]
          · rintro rfl
            exact hnot hc
    · refine .inl ⟨front, blanks, behind, rfl, hline, hsome, fun c hc => ⟨hblanks c hc, ?_⟩,
        hassigned⟩
      rintro rfl
      exact hfeed hc
  · rintro (⟨front, indentation, behind, rfl, hline, hsome, hblank, h⟩ |
      ⟨front, blanks, behind, rfl, hline, hblanks, h⟩)
    · exact assigns_of_blank hline hsome (fun c hc => (hblank c hc).1) h
    · have hfeed : ∀ c ∈ blanks ++ ['\n'], isBlank c = true :=
        List.forall_mem_append.mpr ⟨hblanks, List.forall_mem_singleton.mpr (by decide)⟩
      have hassigns : Assigns label (front ++ (blanks ++ ['\n'] ++ (label ++ behind))) :=
        assigns_of_blank hline (by simp) hfeed h
      rwa [List.append_assoc, List.singleton_append] at hassigns

/-! ## Tuples -/

def writeName (name : Text) : List Text :=
  [name]

/-- A text between two quotes of the sort that goes with it. -/
def writeText (item : Char × Text) : List Text :=
  [item.1 :: (item.2 ++ [item.1])]

/-- The text opens with the parenthesised tuple of names, or of texts in quotes, and goes on with
the rest. The values of names are in lower case. -/
inductive OpensTuple : List Text → Text → Text → Prop
  | names {names : List Text} {t rest : Text} (hsome : names ≠ [])
      (hnames : ∀ name ∈ names, Lexeme.isIdentifier name = true)
      (h : Displays '(' ')' writeName names t rest) :
      OpensTuple (names.map fun name => name.map Char.toLower) t rest
  | texts {items : List (Char × Text)} {t rest : Text} (hsome : items ≠ [])
      (hitems : ∀ item ∈ items, isQuote item.1 = true ∧ item.2 ≠ [] ∧ IsPlain item.2)
      (h : Displays '(' ')' writeText items t rest) :
      OpensTuple (items.map Prod.snd) t rest

/-- The value of an attribute is the tuple that it is assigned, if there are no brackets in it. -/
theorem attributeBlock?_of_plain {α : Type} {label t value rest : Text} {write : α → List Text}
    {values : List α} (hlabel : IsPlainLabel label) (h : FirstAssignment label t value)
    (hdisplays : Displays '(' ')' write values value rest)
    (hplain : ∀ value ∈ values, ∀ c ∈ (write value).flatten,
      opensBracket c = false ∧ closesBracket c = false) :
    ∃ inside behind, attributeBlock? label t = some ('(' :: inside) ∧
      Lists write values inside behind ∧ Opens [[')']] behind [] := by
  have hmark : ∀ value ∈ values, ∀ depth,
      openBrackets? depth (write value).flatten = openBrackets? depth [] := fun value hmem depth =>
    openBrackets?_of_plain (hplain value hmem) depth
  have hdepth : openBrackets? 1 (values.flatMap fun _ => ([] : Text)) = some 1 := by
    rw [List.flatMap_eq_nil_iff.mpr fun _ _ => rfl]
    rfl
  exact attributeBlock?_of_displays hlabel h (by decide) (by decide) hdisplays hmark hdepth

/-- Nothing is found in the last part of a tuple. -/
theorem searchAll_closing {α : Type} {barrier : Char → Bool} {scan : Text → Option (α × Text)}
    {behind : Text} (hnone : ∀ c, isBlank c = true ∨ c = ')' →
      barrier c = false ∧ ∀ more, scan (c :: more) = none)
    (h : Opens [[')']] behind []) : searchAll barrier scan false behind = [] := by
  obtain ⟨blanks, hblanks, rfl⟩ := opens_singleton_iff.mp h
  have hpart : ∀ c ∈ blanks ++ [')'], barrier c = false ∧ ∀ more, scan (c :: more) = none :=
    List.forall_mem_append.mpr ⟨fun c hc => hnone c (.inl (hblanks c hc)),
      List.forall_mem_singleton.mpr (hnone ')' (.inr rfl))⟩
  rw [← List.append_assoc, searchAll_append_of_none hpart, searchAll]

/-! ## Names -/

theorem toNat_lt_of_isIdentifierChar {c : Char} (hc : isIdentifierChar c = true) :
    c.toNat < 128 := by
  simp only [isIdentifierChar, Char.isAlphanum, Bool.or_eq_true, decide_eq_true_eq] at hc
  rcases hc with (halpha | hdigit) | rfl
  · obtain ⟨interval, hmem, -, hle⟩ := holds_of_isAlpha halpha
    have hsmall : ∀ interval ∈ alphaIntervals, interval.2 < 128 := by decide
    exact Nat.lt_of_le_of_lt hle (hsmall interval hmem)
  · simp only [Char.isDigit, Bool.and_eq_true, decide_eq_true_eq, UInt32.le_iff_toNat_le] at hdigit
    exact Nat.lt_of_le_of_lt hdigit.2 (by decide)
  · decide

/-- The lower case of ASCII names changes their letters one by one. -/
theorem lower_of_isIdentifierChar {t : Text} (h : ∀ c ∈ t, isIdentifierChar c = true) :
    lower t = t.map Char.toLower := by
  have hafter : ∀ before, lowerAfter before t = t.map Char.toLower := by
    induction t with
    | nil => exact fun _ => rfl
    | cons c t ih =>
        obtain ⟨hc, ht⟩ := List.forall_mem_cons.mp h
        have hsigma : c ≠ 'Σ' := by
          rintro rfl
          exact absurd hc (by decide)
        intro before
        rw [lowerAfter, if_neg hsigma, lowerChar, if_pos (toNat_lt_of_isIdentifierChar hc), ih ht]
        rfl
  exact hafter []

theorem quoted?_of_isIdentifierChar {c : Char} (hc : isIdentifierChar c = true) (t : Text) :
    quoted? (c :: t) = none :=
  quoted?_of_notQuote (isQuote_of_class (by decide) (by decide) hc) t

theorem plain_of_isIdentifierChar {c : Char} (hc : isIdentifierChar c = true) :
    opensBracket c = false ∧ closesBracket c = false := by
  rw [← Bool.not_eq_true, ← Bool.not_eq_true]
  simp only [opensBracket, closesBracket, Bool.or_eq_true, decide_eq_true_eq]
  constructor <;> rintro ((rfl | rfl) | rfl) <;> exact absurd hc (by decide)

theorem isName_of_isIdentifier {name : Text} (hname : Lexeme.isIdentifier name = true) :
    IsName name := by
  cases name with
  | nil => cases hname
  | cons c name =>
      simp only [Lexeme.isIdentifier, Bool.and_eq_true, List.all_eq_true] at hname
      exact ⟨c, name, rfl, hname.1, fun d hd => isWord_of_isIdentifierChar (hname.2 d hd)⟩

theorem name?_of_notWord {t : Text} (h : ∀ c ∈ t.head?, isWord c = false) : name? t = none := by
  cases t with
  | nil => rfl
  | cons c t =>
      refine name?_of_notOpener ?_ t
      rw [← Bool.not_eq_true]
      intro hopens
      have hword := isWord_of_isIdentifierChar (isIdentifierChar_of_opensIdentifier hopens)
      rw [h c rfl] at hword
      cases hword

theorem notWord_of_gap {c : Char} (h : isBlank c = true ∨ c = ',') : isWord c = false := by
  rcases h with hblank | rfl
  · exact isWord_of_isBlank hblank
  · decide +kernel

/-- A search for names finds the one that the text opens with, and goes on behind it. -/
theorem findAllWords_name?_of_opens {name t rest : Text}
    (hname : Lexeme.isIdentifier name = true) (h : Opens (writeName name) t rest)
    (hrest : ∀ c ∈ rest.head?, isWord c = false) :
    findAllWords name? t = name :: findAllWords name? rest := by
  obtain ⟨blanks, hblanks, rfl⟩ := opens_singleton_iff.mp h
  have hgap : ∀ c ∈ blanks, isWord c = false ∧ ∀ more, name? (c :: more) = none := by
    intro c hc
    have hword := isWord_of_isBlank (hblanks c hc)
    exact ⟨hword, fun more => name?_of_notWord (by rintro _ ⟨⟩; exact hword)⟩
  have hread := name?_append (isName_of_isIdentifier hname) hrest
  obtain ⟨c, more, rfl⟩ :=
    List.exists_cons_of_ne_nil (Lexeme.isIdentifierChar_of_isIdentifier hname).1
  rw [findAllWords, findAllWords, searchAll_append_of_none hgap]
  rw [List.cons_append] at hread ⊢
  rw [searchAll_cons_of_some hread (List.suffix_append more rest)]
  -- a word character stands right before the rest, but nothing is read there anyway
  rw [searchAll_of_none (name?_of_notWord hrest)]

theorem quoted?_of_closing {c : Char} (h : isBlank c = true ∨ c = ')') (t : Text) :
    quoted? (c :: t) = none := by
  refine quoted?_of_notQuote ?_ t
  rcases h with hblank | rfl
  · exact isQuote_of_isBlank hblank
  · decide

/-- In a tuple of names there are no texts in quotes. -/
theorem findAll_quoted?_of_names {names : List Text} {inside behind : Text}
    (hnames : ∀ name ∈ names, ∀ c ∈ name, isIdentifierChar c = true)
    (hlists : Lists writeName names inside behind) (hcloses : Opens [[')']] behind []) :
    findAll quoted? inside = [] := by
  have hinside : Passes quoted? inside behind := by
    refine passes_of_lists (fun _ => True)
      (fun c hc => ⟨trivial, quoted?_of_notQuote (isQuote_of_gap hc)⟩)
      (fun name hmem t rest hopens _ => ?_) (fun _ _ => trivial) hlists
    obtain ⟨blanks, hblanks, rfl⟩ := opens_singleton_iff.mp hopens
    exact .append (fun c hc => quoted?_of_notQuote (isQuote_of_isBlank (hblanks c hc)))
      (.append (fun c hc => quoted?_of_isIdentifierChar (hnames name hmem c hc)) (.refl rest))
  obtain ⟨blanks, hblanks, rfl⟩ := opens_singleton_iff.mp hcloses
  have hclosing : Passes quoted? (blanks ++ ([')'] ++ [])) [] :=
    .append (fun c hc => quoted?_of_closing (.inl (hblanks c hc)))
      (.cons (quoted?_of_closing (.inr rfl) []) (.refl []))
  exact findAll_of_passes (hinside.trans hclosing)

/-- A search for names finds those of a tuple. -/
theorem findAllWords_name?_of_names {names : List Text} {inside behind : Text}
    (hnames : ∀ name ∈ names, Lexeme.isIdentifier name = true)
    (hlists : Lists writeName names inside behind) (hcloses : Opens [[')']] behind []) :
    findAllWords name? inside = names := by
  have hnone : ∀ {c : Char}, isWord c = false →
      isWord c = false ∧ ∀ more, name? (c :: more) = none := fun hword =>
    ⟨hword, fun _ => name?_of_notWord (by rintro _ ⟨⟩; exact hword)⟩
  have hclosing : ∀ c, isBlank c = true ∨ c = ')' → isWord c = false := by
    rintro c (hblank | rfl)
    · exact isWord_of_isBlank hblank
    · decide +kernel
  have hbehind : ∀ c ∈ behind.head?, isWord c = false := by
    obtain ⟨c, more, rfl, hc⟩ := hcloses.exists_cons
    rintro _ ⟨⟩
    exact hclosing c hc
  have hfound := searchAll_of_lists id (fun c => isWord c = false)
    (fun c hc => ⟨notWord_of_gap hc, hnone (notWord_of_gap hc)⟩)
    (fun name hmem _ _ => findAllWords_name?_of_opens (hnames name hmem)) hbehind hlists
  rwa [searchAll_closing (fun c hc => hnone (hclosing c hc)) hcloses, List.map_id,
    List.append_nil] at hfound

/-- The values of a tuple of names are the names in lower case. -/
theorem listedValues_of_names {names : List Text} {inside behind : Text}
    (hnames : ∀ name ∈ names, Lexeme.isIdentifier name = true)
    (hlists : Lists writeName names inside behind) (hcloses : Opens [[')']] behind []) :
    listedValues inside = names.map fun name => name.map Char.toLower := by
  have hchars : ∀ name ∈ names, ∀ c ∈ name, isIdentifierChar c = true := fun name hmem =>
    (Lexeme.isIdentifierChar_of_isIdentifier (hnames name hmem)).2
  rw [listedValues, findAll_quoted?_of_names hchars hlists hcloses,
    findAllWords_name?_of_names hnames hlists hcloses]
  exact List.map_congr_left fun name hmem => lower_of_isIdentifierChar (hchars name hmem)

/-! ## Texts in quotes -/

theorem findAll_quoted?_of_opens {item : Char × Text} {t rest : Text}
    (hquote : isQuote item.1 = true) (hsome : item.2 ≠ []) (hplain : IsPlain item.2)
    (h : Opens (writeText item) t rest) : findAll quoted? t = item.2 :: findAll quoted? rest := by
  obtain ⟨blanks, hblanks, rfl⟩ := opens_singleton_iff.mp h
  have hread : quoted? (item.1 :: (item.2 ++ [item.1]) ++ rest) = some (item.2, rest) := by
    rw [List.cons_append, List.append_assoc, List.singleton_append]
    exact quoted?_of_text hquote hquote hsome (fun c hc => (hplain c hc).1) rest
  rw [findAll_append_of_none fun c hc => quoted?_of_notQuote (isQuote_of_isBlank (hblanks c hc))]
  exact findAll_cons_of_some hread (List.suffix_append _ _)

/-- The values of a tuple of texts in quotes are the texts. -/
theorem listedValues_of_texts {items : List (Char × Text)} {inside behind : Text}
    (hsome : items ≠ [])
    (hitems : ∀ item ∈ items, isQuote item.1 = true ∧ item.2 ≠ [] ∧ IsPlain item.2)
    (hlists : Lists writeText items inside behind) (hcloses : Opens [[')']] behind []) :
    listedValues inside = items.map Prod.snd := by
  have hfound : findAll quoted? inside = items.map Prod.snd ++ findAll quoted? behind :=
    searchAll_of_lists Prod.snd (fun _ => True)
      (fun c hc => ⟨trivial, rfl, quoted?_of_notQuote (isQuote_of_gap hc)⟩)
      (fun item hmem _ _ hopens _ =>
        findAll_quoted?_of_opens (hitems item hmem).1 (hitems item hmem).2.1 (hitems item hmem).2.2
          hopens)
      (fun _ _ => trivial) hlists
  have hclosing : findAll quoted? behind = [] :=
    searchAll_closing (fun c hc => ⟨rfl, quoted?_of_closing hc⟩) hcloses
  rw [hclosing, List.append_nil] at hfound
  obtain ⟨item, items, rfl⟩ := List.exists_cons_of_ne_nil hsome
  rw [listedValues, hfound]
  rfl

/-! ## Supported values -/

/-- The values are each taken once, where they come first. -/
theorem distinct_eq_eraseDups (ts : List Text) : distinct ts = ts.eraseDups := by
  induction ts using List.reverseRecOn with
  | nil => rfl
  | append_singleton ts t ih =>
      have hstep : distinct (ts ++ [t]) =
          if t ∈ distinct ts then distinct ts else distinct ts ++ [t] := by
        rw [distinct, List.foldl_append]
        rfl
      rw [hstep, eraseDups_concat, ih]
      simp only [List.mem_eraseDups]

/-- The values of an attribute whose value is a tuple are those that are listed in it. -/
theorem supported_of_block {label inside t : Text} {values : List Text}
    (hblock : attributeBlock? label t = some ('(' :: inside))
    (hvalues : listedValues inside = values) (hsome : values ≠ []) (defaultValue : Text) :
    supported label defaultValue t = values.eraseDups := by
  have hinside : behindParenthesis ('(' :: inside) = inside := rfl
  have hne : values.eraseDups ≠ [] := by
    obtain ⟨value, values, rfl⟩ := List.exists_cons_of_ne_nil hsome
    simp [List.eraseDups_cons]
  rw [supported_eq, hblock]
  dsimp only
  rw [hinside, hvalues, distinct_eq_eraseDups]
  split
  next hnil => exact absurd hnil hne
  next => rfl

/-- The tuple that the first indented assignment gives to an attribute is read back, each value
once and in the order in which the values come first, whatever follows it. No assignment above may
stand right below a blank line without being indented. -/
theorem supported_of_tuple {label front back value rest : Text} {values : List Text}
    (hlabel : IsPlainLabel label) (hline : OpensLine front) (hassigns : IndentedAt label back value)
    (hfirst : ¬ AssignsIndented label front) (hbelow : ¬ AssignsBelowBlank label front)
    (htuple : OpensTuple values value rest) (defaultValue : Text) :
    supported label defaultValue (front ++ back) = values.eraseDups := by
  have hassignment : FirstAssignment label (front ++ back) value :=
    ⟨front, back, rfl, hline, mt (assigns_iff_line hlabel.1).mp (not_or.mpr ⟨hfirst, hbelow⟩),
      hassigns.assignsAt⟩
  cases htuple with
  | @names names _ _ hsome hnames h =>
      have hplain : ∀ name ∈ names, ∀ c ∈ (writeName name).flatten,
          opensBracket c = false ∧ closesBracket c = false := by
        intro name hmem c hc
        rw [writeName, List.flatten_singleton] at hc
        exact plain_of_isIdentifierChar
          ((Lexeme.isIdentifierChar_of_isIdentifier (hnames name hmem)).2 c hc)
      obtain ⟨inside, behind, hblock, hlists, hcloses⟩ :=
        attributeBlock?_of_plain hlabel hassignment h hplain
      exact supported_of_block hblock (listedValues_of_names hnames hlists hcloses)
        (mt List.map_eq_nil_iff.mp hsome) defaultValue
  | @texts items _ _ hsome hitems h =>
      have hplain : ∀ item ∈ items, ∀ c ∈ (writeText item).flatten,
          opensBracket c = false ∧ closesBracket c = false := by
        intro item hmem c hc
        obtain ⟨hquote, -, htext⟩ := hitems item hmem
        simp only [writeText, List.flatten_singleton, List.mem_cons, List.mem_append,
          List.not_mem_nil, or_false] at hc
        rcases hc with rfl | hc | rfl
        · exact plain_of_class (by decide) hquote
        · exact (htext c hc).2
        · exact plain_of_class (by decide) hquote
      obtain ⟨inside, behind, hblock, hlists, hcloses⟩ :=
        attributeBlock?_of_plain hlabel hassignment h hplain
      exact supported_of_block hblock (listedValues_of_texts hsome hitems hlists hcloses)
        (mt List.map_eq_nil_iff.mp hsome) defaultValue

/-- An assignment at the very start of the text, and a class below it. -/
def twoAssignments : Text :=
  "supported_categories = (A,)\nclass X:\n\n"

/-- A tuple of three names in two lines, and an open bracket below it. -/
def threeNames : Text :=
  " (PUBLIC,\n  Bank , PUBLIC)\n x = [\n"

theorem supported_of_tuple_threeNames :
    IndentedAt "supported_categories" (" supported_categories =" ++ threeNames) threeNames ∧
      OpensTuple ["public", "bank", "public"] threeNames "\n x = [\n" ∧
      supported "supported_categories" "public"
        (twoAssignments ++ (" supported_categories =" ++ threeNames)) = ["public", "bank"] := by
  have hindented : IndentedAt "supported_categories" (" supported_categories =" ++ threeNames)
      threeNames :=
    ⟨" ", " =" ++ threeNames, by decide, List.forall_mem_singleton.mpr (by decide), rfl,
      .spaced "=" .nil⟩
  have hdisplays : Displays '(' ')' writeName ["PUBLIC", "Bank", "PUBLIC"] threeNames
      "\n x = [\n" :=
    ⟨_, _, .spaced ['('] .nil,
      .cons (.plain "PUBLIC" (.plain [','] .nil))
        (.cons (@Opens.cons "Bank" "\n  " _ _ _ (List.all_eq_true.mp rfl) (.spaced [','] .nil))
          (.last (.spaced "PUBLIC" .nil))),
      .plain [')'] .nil⟩
  have htuple : OpensTuple ["public", "bank", "public"] threeNames "\n x = [\n" :=
    .names (by decide) (by decide) hdisplays
  have hnone : ¬ Assigns "supported_categories" twoAssignments := by
    rw [assigns_iff (by decide)]
    decide +kernel
  obtain ⟨hfirst, hbelow⟩ := not_or.mp (mt (assigns_iff_line (by decide)).mpr hnone)
  refine ⟨hindented, htuple, ?_⟩
  exact supported_of_tuple (by decide) (by rintro c ⟨⟩; rfl) hindented hfirst hbelow htuple "public"

/-! ## Assignments that are not indented -/

/-- An indented label stands behind white space of its own line. -/
theorem AssignsIndented.exists_suffix {label t : Text} (h : AssignsIndented label t) :
    ∃ s, s <:+ t ∧ s.head?.any (fun c => isBlank c && c ≠ '\n') = true ∧ label <+: s.tail := by
  obtain ⟨front, indentation, behind, rfl, -, hsome, hblank, -⟩ := h
  obtain ⟨before, c, rfl⟩ := (List.eq_nil_or_concat' indentation).resolve_left hsome
  obtain ⟨hc, hline⟩ := hblank c (by simp)
  exact ⟨c :: (label ++ behind), ⟨front ++ before, by simp⟩, by simp [hc, hline],
    List.prefix_append label behind⟩

/-- An assignment at the start of a line below a blank one, and a class below it. -/
def belowBlank : Text :=
  "\nsupported_categories = (SCHOOL,)\nclass X:\n"

/-- An assignment that is not indented hides the first one that is, if a blank line stands above it;
and no line is seen that begins behind a carriage return alone. -/
theorem supported_belowBlank :
    OpensLine belowBlank ∧ ¬ AssignsIndented "supported_categories" belowBlank ∧
      IndentedAt "supported_categories" " supported_categories = (BANK,)\n" " (BANK,)\n" ∧
      OpensTuple ["bank"] " (BANK,)\n" "\n" ∧
      supported "supported_categories" "public"
        (belowBlank ++ " supported_categories = (BANK,)\n") = ["school"] ∧
      supported "supported_categories" "public"
        "class X:\r supported_categories = (BANK,)\r" = ["public"] := by
  refine ⟨by rintro c ⟨⟩; rfl, fun h => ?_, ?_, ?_, by decide +kernel, by decide +kernel⟩
  · have hnone : ∀ s ∈ belowBlank.tails,
        ¬ (s.head?.any (fun c => isBlank c && c ≠ '\n') = true ∧
          ("supported_categories" : Text) <+: s.tail) := by decide +kernel
    obtain ⟨s, hs, hfound⟩ := h.exists_suffix
    exact hnone s ((List.mem_tails s belowBlank).mpr hs) hfound
  · exact ⟨" ", " = (BANK,)\n", by decide, List.forall_mem_singleton.mpr (by decide), rfl,
      .spaced "=" .nil⟩
  · exact @OpensTuple.names ["BANK"] _ _ (by decide) (by decide)
      ⟨_, _, .spaced ['('] .nil, .cons (.plain "BANK" (.plain [','] .nil)) .nil,
        .plain [')'] .nil⟩

end Almanac.Country
