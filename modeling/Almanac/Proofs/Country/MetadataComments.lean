import Almanac.Proofs.Country.AttributeBlocks
import Almanac.Proofs.Source.CommentText
import Mathlib.Data.List.Infix
import Mathlib.Logic.Relation

/-!
# Metadata without comments

Subdivisions, categories and languages are read from the text as it is, comments and all. So a
comment can end the value of an attribute, add to it, or keep a code from its name. One that does
none of this can be taken away: it holds no code in quotes, it does not stand behind a colon or
within an assignment, and if it stands in the value of an attribute it holds no quotes and no
brackets, and no names if it is names that the attribute lists.
-/

namespace Almanac.Country

open Almanac.Text Almanac.Data Almanac.Source

/-- The attributes that list supported values. -/
def supportedLabels : List Text :=
  ["supported_categories", "supported_languages"]

/-- The attributes whose bracketed values are read. -/
def blockLabels : List Text :=
  "subdivisions" :: "subdivisions_aliases" :: supportedLabels

theorem isLabel_of_mem : ∀ label ∈ blockLabels, IsLabel label := by
  decide

/-- The attribute lists quoted texts, if it is assigned anything. -/
def ListsTexts (label t : Text) : Prop :=
  ∀ block ∈ attributeBlock? label t, findAll quoted? (behindParenthesis block) ≠ []

instance (label t : Text) : Decidable (ListsTexts label t) :=
  inferInstanceAs (Decidable (∀ block ∈ attributeBlock? label t, _ ≠ _))

/-- The text holds no quotes and no brackets. -/
def IsPlain (t : Text) : Prop :=
  ∀ c ∈ t, isQuote c = false ∧ opensBracket c = false ∧ closesBracket c = false

instance (t : Text) : Decidable (IsPlain t) :=
  List.decidableBAll
    (fun c => isQuote c = false ∧ opensBracket c = false ∧ closesBracket c = false) t

/-- No name opens in the text. -/
def IsNameless (t : Text) : Prop :=
  ∀ c ∈ t, opensIdentifier c = false

instance (t : Text) : Decidable (IsNameless t) :=
  List.decidableBAll (fun c => opensIdentifier c = false) t

/-- The comment can be taken away from between the text before it and the end of its line. -/
structure IsIdle (before comment later : Text) : Prop where
  isComment : IsComment comment later
  noCode : ∀ s ∈ comment.tails, code? s = none
  pairs : ClosesPairs before
  assignments : ∀ label ∈ blockLabels, ClosesAssignment label before
  indented : ∀ label ∈ blockLabels, IsIndented label later
  plain : ∀ label ∈ blockLabels, (openBlock? label before).isSome = true → IsPlain comment
  subdivisions : ∀ block ∈ openBlock? "subdivisions" before, PairsOff block
  aliases : (openBlock? "subdivisions_aliases" before).isSome = true →
    behindNextQuote? later ≠ some ':'
  supported : ∀ label ∈ supportedLabels, ∀ block ∈ openBlock? label before,
    PairsOff (behindParenthesis block) ∧
      (IsNameless comment ∨ ListsTexts label (before ++ later))

instance (before comment later : Text) : Decidable (IsIdle before comment later) :=
  decidable_of_iff
    (IsComment comment later ∧ (∀ s ∈ comment.tails, code? s = none) ∧ ClosesPairs before ∧
      (∀ label ∈ blockLabels, ClosesAssignment label before) ∧
      (∀ label ∈ blockLabels, IsIndented label later) ∧
      (∀ label ∈ blockLabels, (openBlock? label before).isSome = true → IsPlain comment) ∧
      (∀ block ∈ openBlock? "subdivisions" before, PairsOff block) ∧
      ((openBlock? "subdivisions_aliases" before).isSome = true →
        behindNextQuote? later ≠ some ':') ∧
      ∀ label ∈ supportedLabels, ∀ block ∈ openBlock? label before,
        PairsOff (behindParenthesis block) ∧
          (IsNameless comment ∨ ListsTexts label (before ++ later)))
    ⟨fun ⟨h1, h2, h3, h4, h5, h6, h7, h8, h9⟩ => ⟨h1, h2, h3, h4, h5, h6, h7, h8, h9⟩,
      fun ⟨h1, h2, h3, h4, h5, h6, h7, h8, h9⟩ => ⟨h1, h2, h3, h4, h5, h6, h7, h8, h9⟩⟩

namespace IsIdle

variable {before comment later : Text} (h : IsIdle before comment later)

include h

/-- The value of an attribute with the comment and without: the same, or with the comment in it. -/
theorem attributeBlock_cases {label : Text} (hlabel : label ∈ blockLabels) :
    attributeBlock? label (before ++ (comment ++ later)) = attributeBlock? label (before ++ later) ∨
      ∃ block rest, openBlock? label before = some block ∧ IsComment comment rest ∧ rest <+: later ∧
        attributeBlock? label (before ++ (comment ++ later)) = some (block ++ (comment ++ rest)) ∧
        attributeBlock? label (before ++ later) = some (block ++ rest) := by
  refine (attributeBlock?_comment (isLabel_of_mem label hlabel) h.isComment
    (h.assignments label hlabel) (h.indented label hlabel)
    (fun hopen c hc => (h.plain label hlabel hopen c hc).2)).imp_right ?_
  rintro ⟨block, rest, hblock, hrest, hwith, hwithout⟩
  refine ⟨block, rest, hblock, ⟨h.isComment.sign, h.isComment.line, fun c hc => ?_⟩, hrest, hwith,
    hwithout⟩
  obtain ⟨more, rfl⟩ := hrest
  cases rest with
  | nil => cases hc
  | cons d rest => exact h.isComment.lineEnd c hc

theorem aliases_eq : Country.aliases (before ++ (comment ++ later)) =
    Country.aliases (before ++ later) := by
  have hlabel : ("subdivisions_aliases" : Text) ∈ blockLabels := .tail _ (.head _)
  rcases h.attributeBlock_cases hlabel with
    hsame | ⟨block, rest, hblock, hrest, hpart, hwith, hwithout⟩
  · rw [Country.aliases, Country.aliases, hsame]
  · have hopen : (openBlock? "subdivisions_aliases" before).isSome = true := by rw [hblock]; rfl
    have hnext : behindNextQuote? rest ≠ some ':' := fun hcolon =>
      h.aliases hopen (behindNextQuote?_mono hcolon hpart)
    simp only [Country.aliases, hwith, hwithout]
    rw [findAll_nameAndCode?_gap h.pairs (suffix_of_openBlock? hblock) hrest.opensBreak_append
      hrest.opensBreak (fun c hc => (h.plain _ hlabel hopen c hc).1) hnext]

theorem subdivisions_eq : Country.subdivisions (before ++ (comment ++ later)) =
    Country.subdivisions (before ++ later) := by
  have hlabel : ("subdivisions" : Text) ∈ blockLabels := .head _
  have hpaired := findAll_codeAndName?_gap h.pairs (List.suffix_refl before)
    h.isComment.opensBreak_append h.isComment.opensBreak
    (fun s hs => h.noCode s ((List.mem_tails s comment).mpr hs))
  unfold Country.subdivisions
  rw [hpaired, h.aliases_eq]
  rcases h.attributeBlock_cases hlabel with hsame | ⟨block, rest, hblock, -, -, hwith, hwithout⟩
  · rw [hsame]
  · have hopen : (openBlock? "subdivisions" before).isSome = true := by rw [hblock]; rfl
    simp only [hwith, hwithout]
    rw [findAll_quoted?_gap (h.subdivisions block hblock)
      (fun c hc => (h.plain _ hlabel hopen c hc).1)]

end IsIdle

/-! ## Supported values -/

/-- The values that the inside of an attribute's value lists. -/
def listedValues (inside : Text) : List Text :=
  match findAll quoted? inside with
  | [] => (findAllWords name? inside).map lower
  | values => values

theorem supported_eq (label defaultValue t : Text) :
    supported label defaultValue t =
      match attributeBlock? label t with
      | none => [defaultValue]
      | some block =>
          match distinct (listedValues (behindParenthesis block)) with
          | [] => [defaultValue]
          | values => values :=
  rfl

theorem behindParenthesis_append_of_mem {t : Text} (h : '(' ∈ t) (more : Text) :
    behindParenthesis (t ++ more) = behindParenthesis t ++ more := by
  have hopens : ∃ c ∈ t, decide (c ≠ '(') = false := ⟨'(', h, by decide⟩
  have hdrop : (t ++ more).dropWhile (· ≠ '(') = t.dropWhile (· ≠ '(') ++ more :=
    (takeWhile_dropWhile_append (.inl hopens)).2
  have hsome : t.dropWhile (· ≠ '(') ≠ [] := fun hnil => by
    simpa using List.dropWhile_eq_nil_iff.mp hnil '(' h
  rw [behindParenthesis, behindParenthesis, hdrop]
  cases hrest : t.dropWhile (· ≠ '(') with
  | nil => exact absurd hrest hsome
  | cons c rest => rfl

theorem behindParenthesis_append_of_notMem {t : Text} (h : '(' ∉ t) {more : Text}
    (hmore : '(' ∈ more) : behindParenthesis (t ++ more) = behindParenthesis more := by
  have hskip : ∀ c ∈ t, decide (c ≠ '(') = true := fun c hc =>
    decide_eq_true fun heq => h (heq ▸ hc)
  have hsome : more.dropWhile (· ≠ '(') ≠ [] := fun hnil => by
    simpa using List.dropWhile_eq_nil_iff.mp hnil '(' hmore
  rw [behindParenthesis, behindParenthesis, List.dropWhile_append_of_pos hskip]
  cases hrest : more.dropWhile (· ≠ '(') with
  | nil => exact absurd hrest hsome
  | cons c rest => rfl

theorem behindParenthesis_of_notMem {t : Text} (h : '(' ∉ t) : behindParenthesis t = t := by
  have hnil : t.dropWhile (· ≠ '(') = [] := List.dropWhile_eq_nil_iff.mpr fun c hc =>
    decide_eq_true fun heq => h (heq ▸ hc)
  rw [behindParenthesis, hnil]

/-- A piece without a parenthesis is left out of what is inside of a value, if it is in it at
all. -/
theorem behindParenthesis_gap {gap : Text} (hgap : '(' ∉ gap) (block rest : Text) :
    behindParenthesis (block ++ (gap ++ rest)) = behindParenthesis (block ++ rest) ∨
      behindParenthesis (block ++ (gap ++ rest)) = behindParenthesis block ++ (gap ++ rest) ∧
        behindParenthesis (block ++ rest) = behindParenthesis block ++ rest := by
  by_cases hblock : '(' ∈ block
  · right
    rw [behindParenthesis_append_of_mem hblock, behindParenthesis_append_of_mem hblock]
    exact ⟨rfl, rfl⟩
  · by_cases hrest : '(' ∈ rest
    · left
      rw [behindParenthesis_append_of_notMem hblock (List.mem_append_right gap hrest),
        behindParenthesis_append_of_notMem hgap hrest,
        behindParenthesis_append_of_notMem hblock hrest]
    · right
      rw [behindParenthesis_of_notMem (t := block ++ (gap ++ rest)) (by simp [hblock, hgap, hrest]),
        behindParenthesis_of_notMem (t := block ++ rest) (by simp [hblock, hrest]),
        behindParenthesis_of_notMem hblock]
      exact ⟨rfl, rfl⟩

/-- A comment without quotes has no influence on the values that are listed around it, if it holds
no names or there are quoted texts. -/
theorem listedValues_comment {inside comment rest : Text} (h : IsComment comment rest)
    (hplain : ∀ c ∈ comment, isQuote c = false) (hpairs : PairsOff inside)
    (hnames : IsNameless comment ∨ findAll quoted? (inside ++ rest) ≠ []) :
    listedValues (inside ++ (comment ++ rest)) = listedValues (inside ++ rest) := by
  have htexts : findAll quoted? (inside ++ (comment ++ rest)) = findAll quoted? (inside ++ rest) :=
    findAll_quoted?_gap hpairs hplain
  rw [listedValues, listedValues, htexts]
  cases hfound : findAll quoted? (inside ++ rest) with
  | cons value values => rfl
  | nil =>
      have hletters := hnames.resolve_right fun hsome => hsome hfound
      simp only [findAllWords_name?_gap h.opensBreak_append h.opensBreak hletters]

theorem IsIdle.supported_eq {before comment later : Text} (h : IsIdle before comment later)
    {label : Text} (hlabel : label ∈ supportedLabels) (defaultValue : Text) :
    Country.supported label defaultValue (before ++ (comment ++ later)) =
      Country.supported label defaultValue (before ++ later) := by
  have hmem : label ∈ blockLabels := .tail _ (.tail _ hlabel)
  rw [Country.supported_eq, Country.supported_eq]
  rcases h.attributeBlock_cases hmem with hsame | ⟨block, rest, hblock, hrest, -, hwith, hwithout⟩
  · rw [hsame]
  · have hopen : (openBlock? label before).isSome = true := by rw [hblock]; rfl
    have hplain := h.plain label hmem hopen
    have hparenthesis : '(' ∉ comment := fun hc => by
      simpa [opensBracket] using (hplain '(' hc).2.1
    obtain ⟨hpairs, hnames⟩ := h.supported label hlabel block hblock
    have hvalues : listedValues (behindParenthesis (block ++ (comment ++ rest))) =
        listedValues (behindParenthesis (block ++ rest)) := by
      rcases behindParenthesis_gap hparenthesis block rest with hsame | ⟨hinside, hinside'⟩
      · rw [hsame]
      · rw [hinside, hinside']
        refine listedValues_comment hrest (fun c hc => (hplain c hc).1) hpairs
          (hnames.imp_right fun htexts => ?_)
        rw [← hinside']
        exact htexts _ hwithout
    simp only [hwith, hwithout, hvalues]

/-! ## Texts without comments -/

/-- The second text is the first one without one comment that can be taken away. -/
def LosesIdle (t t' : Text) : Prop :=
  ∃ before comment later, IsIdle before comment later ∧ t = before ++ (comment ++ later) ∧
    t' = before ++ later

/-- Comments that can be taken away one after another have no influence on the subdivisions, the
categories and the languages. -/
theorem metadata_withoutIdle {t t' : Text} (h : Relation.ReflTransGen LosesIdle t t') :
    subdivisions t = subdivisions t' ∧ ∀ label ∈ supportedLabels, ∀ defaultValue,
      supported label defaultValue t = supported label defaultValue t' := by
  induction h with
  | refl => exact ⟨rfl, fun _ _ _ => rfl⟩
  | tail _ hstep ih =>
      obtain ⟨before, comment, later, hidle, rfl, rfl⟩ := hstep
      refine ⟨ih.1.trans hidle.subdivisions_eq, fun label hlabel defaultValue => ?_⟩
      exact (ih.2 label hlabel defaultValue).trans (hidle.supported_eq hlabel defaultValue)

/-- A comment between constants, and one behind the attribute. -/
def twoComments : Text :=
  " supported_categories = (A,  # 1\n B)  # it's (2)\n"

theorem metadata_withoutIdle_twoComments :
    Relation.ReflTransGen LosesIdle twoComments " supported_categories = (A,  \n B)  \n" ∧
      subdivisions twoComments = subdivisions " supported_categories = (A,  \n B)  \n" ∧
      supported "supported_categories" "public" twoComments =
        supported "supported_categories" "public" " supported_categories = (A,  \n B)  \n" := by
  have hinner : LosesIdle twoComments " supported_categories = (A,  \n B)  # it's (2)\n" :=
    ⟨" supported_categories = (A,  ", "# 1", "\n B)  # it's (2)\n", by decide +kernel,
      by decide +kernel, by decide +kernel⟩
  have hlast : LosesIdle " supported_categories = (A,  \n B)  # it's (2)\n"
      " supported_categories = (A,  \n B)  \n" :=
    ⟨" supported_categories = (A,  \n B)  ", "# it's (2)", "\n", by decide +kernel,
      by decide +kernel, by decide +kernel⟩
  have hchain := (Relation.ReflTransGen.single hinner).tail hlast
  have hsame := metadata_withoutIdle hchain
  exact ⟨hchain, hsame.1, hsame.2 _ (.head _) _⟩

/-! ## Comments that have an influence -/

/-- Constants with a comment on the line of one of them. -/
def commentedCategories : Text :=
  "class X:\n supported_categories = (\n  PUBLIC,  # national holidays\n  BANK,\n )\n"

/-- Codes with a comment on the line of one of them. -/
def commentedCodes : Text :=
  "class X:\n subdivisions = (\n  \"N\",  # don't\n  \"S\",\n )\n"

/-- The words of a comment are taken for constants, and its apostrophe for a quote, although every
literal is closed on its line. -/
theorem metadata_of_comments :
    (∀ line ∈ lines commentedCategories ++ lines commentedCodes,
      Literal.closesLiterals 0 line = true) ∧
    supported "supported_categories" "public" commentedCategories =
      ["public", "national", "holidays", "bank"] ∧
    supported "supported_categories" "public"
      (join "\n" ((lines commentedCategories).map Literal.code)) = ["public", "bank"] ∧
    (subdivisions commentedCodes).keys = ["N", "t\n  "] ∧
    (subdivisions (join "\n" ((lines commentedCodes).map Literal.code))).keys = ["N", "S"] := by
  decide +kernel

end Almanac.Country
