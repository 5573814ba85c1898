import Almanac.Proofs.Source.Lexemes

/-!
# Layouts

A text that shows lexemes has white space and comments between them, and characters that no rule
takes. Whatever stands between, the tokens of the text are those lexemes in their order, besides the
indentation of lines. So what is done with tokens without regard to their places can be told from
the lexemes alone.
-/

namespace Almanac.Text

/-! ## The first line -/

/-- The first line of a text, which is empty if the text is. -/
def headLine (t : Text) : Text :=
  (lines t).headD []

def laterLines (t : Text) : List Text :=
  (lines t).tail

theorem lines_cons_of_plain {c : Char} (hc : isLineBreak c = false) (t : Text) :
    lines (c :: t) = (c :: headLine t) :: laterLines t := by
  rw [lines.eq_3 c t, if_neg (by simp [hc])]
  · rw [headLine, laterLines]
    cases lines t <;> rfl
  · rintro later rfl
    exact absurd hc (by decide)

theorem lines_cons_of_break {c : Char} (hc : isLineBreak c = true) {t : Text}
    (hpair : c = '\r' → ∀ later, t ≠ '\n' :: later) : lines (c :: t) = [] :: lines t := by
  rw [lines.eq_3 c t fun later hreturn => hpair hreturn later, if_pos hc]

theorem lines_append_of_plain {s : Text} (hsome : s ≠ []) (hs : ∀ c ∈ s, isLineBreak c = false)
    (t : Text) : lines (s ++ t) = (s ++ headLine t) :: laterLines t := by
  induction s with
  | nil => exact absurd rfl hsome
  | cons c s ih =>
      obtain ⟨hc, hs⟩ := List.forall_mem_cons.mp hs
      rw [List.cons_append, lines_cons_of_plain hc]
      cases s with
      | nil => rfl
      | cons d s => rw [headLine, laterLines, ih (List.cons_ne_nil d s) hs]; rfl

theorem mem_head?_of_headLine {t : Text} {c : Char} (hc : c ∈ (headLine t).head?) :
    c ∈ t.head? := by
  cases hlines : lines t with
  | nil =>
      rw [headLine, hlines] at hc
      cases hc
  | cons line more =>
      have hfirst : line <+: t := prefix_of_head_lines (by rw [hlines]; rfl)
      obtain ⟨behind, rfl⟩ := hfirst
      rw [headLine, hlines, List.headD_cons] at hc
      rw [List.head?_append, hc]
      rfl

/-- A text that begins with a line break has an empty first line. -/
theorem headLine_of_break {t : Text} (ht : ∀ c ∈ t.head?, isLineBreak c = true) :
    headLine t = [] := by
  unfold headLine lines
  split
  next => rfl
  next => rfl
  next c rest _ => rw [if_pos (ht c rfl)]; rfl

end Almanac.Text

namespace Almanac.Source

open Almanac.Text

/-! ## Texts from within a line -/

namespace TokenStream

/-- The tokens of a text that begins within a line, at the given column. -/
def readFrom (line column : Nat) (t : Text) : List Token :=
  (ofRest TokenRule.all line column (headLine t)).tokens
    ++ (ofLines TokenRule.all (line + 1) (laterLines t)).tokens

theorem readFrom_append_of_plain {s : Text} (hsome : s ≠ []) (hs : ∀ c ∈ s, isLineBreak c = false)
    (line column : Nat) (t : Text) : readFrom line column (s ++ t) =
      (ofRest TokenRule.all line column (s ++ headLine t)).tokens
        ++ (ofLines TokenRule.all (line + 1) (laterLines t)).tokens := by
  have hlines := lines_append_of_plain hsome hs t
  rw [readFrom, headLine, laterLines, hlines]
  rfl

/-- A line gives its indentation, if it has any, and the tokens from its start on. -/
theorem exists_indents_ofLine (number : Nat) (line : Text) :
    ∃ indents, (ofLine TokenRule.all number line).tokens =
        indents ++ (ofRest TokenRule.all number 0 line).tokens ∧
      ∀ token ∈ indents, token.kind = .indent ∧ token.line = number := by
  unfold ofLine
  split
  next hline => exact ⟨[], by rw [ofRest_of_isIgnorable hline]; rfl, List.forall_mem_nil _⟩
  next =>
    have hstart : ofRest TokenRule.all number 0 line =
        ofRest TokenRule.all number (line.takeWhile (· = ' ')).length
          (line.dropWhile (· = ' ')) := by
      have hblank : ∀ c ∈ line.takeWhile (· = ' '), isBlank c = true := by
        intro c hc
        obtain rfl : c = ' ' := by simpa using List.mem_takeWhile_imp hc
        decide
      have happend := ofRest_blank_append TokenRule.all number 0 hblank (line.dropWhile (· = ' '))
      rwa [List.takeWhile_append_dropWhile, Nat.zero_add] at happend
    dsimp only
    rw [← hstart]
    split
    next => exact ⟨[], rfl, List.forall_mem_nil _⟩
    next => exact ⟨[_], rfl, List.forall_mem_singleton.mpr ⟨rfl, rfl⟩⟩

theorem exists_indents_ofLines (number : Nat) (t : Text) :
    ∃ indents, (ofLines TokenRule.all number (lines t)).tokens = indents ++ readFrom number 0 t ∧
      ∀ token ∈ indents, token.kind = .indent ∧ token.line = number := by
  cases hlines : lines t with
  | nil =>
      obtain rfl := lines_eq_nil_iff.mp hlines
      refine ⟨[], ?_, List.forall_mem_nil _⟩
      rw [readFrom, headLine, laterLines, hlines, List.headD_nil, ofRest]
      rfl
  | cons line more =>
      obtain ⟨indents, hindents, hkind⟩ := exists_indents_ofLine number line
      refine ⟨indents, ?_, hkind⟩
      rw [ofLines, append, hindents, readFrom, headLine, laterLines, hlines, List.append_assoc]
      rfl

/-! ### White space -/

/-- White space within a line is passed over. -/
theorem readFrom_blank {c : Char} (hblank : isBlank c = true) (hc : isLineBreak c = false)
    (line column : Nat) (t : Text) :
    readFrom line column (c :: t) = readFrom line (column + 1) t := by
  rw [readFrom, headLine, laterLines, lines_cons_of_plain hc, List.headD_cons, List.tail_cons,
    ofRest, if_pos hblank]
  rfl

/-- White space is passed over. A line break lets the next line begin, unless it is a carriage
return before a line feed, which will do so. -/
theorem exists_indents_readFrom {c : Char} (hblank : isBlank c = true) (line column : Nat)
    (t : Text) : ∃ indents line' column',
      readFrom line column (c :: t) = indents ++ readFrom line' column' t ∧
        (∀ token ∈ indents, token.kind = .indent) ∧
        (isLineBreak c = false → indents = [] ∧ line' = line) := by
  cases hc : isLineBreak c with
  | false => exact ⟨[], line, column + 1, readFrom_blank hblank hc line column t,
      List.forall_mem_nil _, fun _ => ⟨rfl, rfl⟩⟩
  | true =>
      by_cases hpair : c = '\r' ∧ ∃ later, t = '\n' :: later
      · obtain ⟨rfl, later, rfl⟩ := hpair
        refine ⟨[], line, column, ?_, List.forall_mem_nil _, nofun⟩
        rw [List.nil_append, readFrom, readFrom, headLine, headLine, laterLines, laterLines, lines,
          lines_cons_of_break (by decide) fun h => absurd h (by decide)]
      · obtain ⟨indents, hindents, hkind⟩ := exists_indents_ofLines (line + 1) t
        refine ⟨indents, line + 1, 0, ?_, fun token htoken => (hkind token htoken).1, nofun⟩
        rw [readFrom, headLine, laterLines, lines_cons_of_break hc, List.headD_cons, List.tail_cons,
          ofRest, ← hindents]
        · rfl
        · rintro hreturn later rfl
          exact hpair ⟨hreturn, later, rfl⟩

/-! ### Other characters -/

theorem readFrom_comment {body : Text} (hbody : ∀ c ∈ body, isLineBreak c = false)
    {t : Text} (ht : ∀ c ∈ t.head?, isLineBreak c = true) (line column : Nat) :
    readFrom line column ('#' :: body ++ t) = readFrom line column t := by
  have hplain : ∀ c ∈ '#' :: body, isLineBreak c = false :=
    List.forall_mem_cons.mpr ⟨by decide, hbody⟩
  rw [readFrom_append_of_plain (List.cons_ne_nil _ _) hplain, readFrom, headLine_of_break ht,
    List.append_nil, ofRest, ofRest, if_neg (by decide), if_pos rfl]

theorem readFrom_unread {c : Char} (hc : isUnread c = true) (line column : Nat) (t : Text) :
    readFrom line column (c :: t) = readFrom line (column + 1) t := by
  have hnone := TokenRule.first?_of_isUnread hc (headLine t)
  simp only [isUnread, Bool.and_eq_true, Bool.not_eq_true', decide_eq_true_eq] at hc
  obtain ⟨⟨hblank, hsign⟩, -⟩ := hc
  rw [readFrom, headLine, laterLines, lines_cons_of_plain (isLineBreak_of_not_blank hblank),
    List.headD_cons, List.tail_cons, ofRest, if_neg (by simp [hblank]), if_neg hsign, hnone]
  rfl

/-- A whole lexeme is the next token, unless the next character goes on with it. -/
theorem readFrom_lexeme {lexeme : Lexeme} (h : lexeme.isWhole = true) {t : Text}
    (ht : ∀ c ∈ t.head?, lexeme.goesOn c = false) (line column : Nat) :
    readFrom line column (lexeme.text ++ t) = ⟨lexeme.kind, lexeme.text, line, column⟩ ::
      readFrom line (column + lexeme.text.length) t := by
  have hfirst := TokenRule.first?_of_isWhole h fun c hc => ht c (mem_head?_of_headLine hc)
  obtain ⟨c, more, htext, hblank, hsign, hbreak⟩ := Lexeme.exists_cons_of_isWhole h
  have htaken : (c :: more ++ headLine t).take (c :: more).length = c :: more := List.take_left
  rw [readFrom_append_of_plain (by simp [htext]) hbreak]
  rw [htext, List.cons_append] at hfirst ⊢
  rw [ofRest, if_neg (by simp [hblank]), if_neg hsign, hfirst, tokens_cons, ← List.cons_append,
    htaken, List.length_cons, Nat.add_sub_cancel, List.drop_left]
  rfl

end TokenStream

/-! ## Parentheses -/

namespace Lexeme

/-- How many parentheses are open behind a lexeme, if so many are before it. -/
def depthAfter (depth : Nat) (lexeme : Lexeme) : Nat :=
  if lexeme = mark '(' then depth + 1
  else if lexeme = mark ')' then depth - 1
  else depth

theorem depthAfter_of_ne {lexeme : Lexeme} (hopen : lexeme ≠ mark '(') (hclose : lexeme ≠ mark ')')
    (depth : Nat) : lexeme.depthAfter depth = depth := by
  rw [depthAfter, if_neg hopen, if_neg hclose]

theorem ne_mark_of_kind {lexeme : Lexeme} (h : lexeme.kind ≠ .operator) (c : Char) :
    lexeme ≠ mark c := by
  rintro rfl
  exact h rfl

theorem depthAfter_of_kind {lexeme : Lexeme} (h : lexeme.kind ≠ .operator) (depth : Nat) :
    lexeme.depthAfter depth = depth :=
  depthAfter_of_ne (ne_mark_of_kind h '(') (ne_mark_of_kind h ')') depth

theorem depthAfter_of_indent {token : Token} (h : token.kind = .indent) (depth : Nat) :
    token.lexeme.depthAfter depth = depth :=
  depthAfter_of_kind (by simp [Token.lexeme, h]) depth

end Lexeme

/-- Outside of parentheses the tokens stay on one line, and none is indentation. `line` is the line
that is read, and `depth` counts the parentheses that are open. -/
def HoldsLine : (line depth : Nat) → List Token → Prop
  | _, _, [] => True
  | line, depth, token :: rest => (depth = 0 → token.line = line ∧ token.kind ≠ .indent) ∧
      HoldsLine token.line (token.lexeme.depthAfter depth) rest

/-- Within parentheses it does not matter what line was read. -/
theorem HoldsLine.of_depth {line depth : Nat} {tokens : List Token} (hdepth : 0 < depth)
    (h : HoldsLine line depth tokens) (line' : Nat) : HoldsLine line' depth tokens := by
  cases tokens with
  | nil => trivial
  | cons token rest => exact ⟨fun hzero => absurd hzero hdepth.ne', h.2⟩

theorem HoldsLine.indents_append {indents : List Token} (hkind : ∀ t ∈ indents, t.kind = .indent)
    {line line' depth : Nat} {tokens : List Token} (hdepth : 0 < depth)
    (h : HoldsLine line depth tokens) : HoldsLine line' depth (indents ++ tokens) := by
  induction indents generalizing line' with
  | nil => exact h.of_depth hdepth line'
  | cons token indents ih =>
      obtain ⟨htoken, hindents⟩ := List.forall_mem_cons.mp hkind
      refine ⟨fun hzero => absurd hzero hdepth.ne', ?_⟩
      rw [Lexeme.depthAfter_of_indent htoken]
      exact ih hindents

/-! ## Fragments -/

/-- What a text is made of: white space, comments up to the end of their lines, characters that no
rule takes, and lexemes. -/
inductive Fragment where
  | blank (c : Char)
  | comment (body : Text)
  | unread (c : Char)
  | shown (lexeme : Lexeme)
deriving DecidableEq, Repr

namespace Fragment

def text : Fragment → Text
  | blank c => [c]
  | comment body => '#' :: body
  | unread c => [c]
  | shown lexeme => lexeme.text

def lexeme? : Fragment → Option Lexeme
  | shown lexeme => some lexeme
  | _ => none

/-- Are the characters those of such a fragment? -/
def isWhole : Fragment → Bool
  | blank c => isBlank c
  | comment body => body.all (!isLineBreak ·)
  | unread c => isUnread c
  | shown lexeme => lexeme.isWhole

/-- Does the character belong to the fragment when it stands right behind it? -/
def goesOn : Fragment → Char → Bool
  | comment _, c => !isLineBreak c
  | shown lexeme, c => lexeme.goesOn c
  | _, _ => false

def breaksLine : Fragment → Bool
  | blank c => isLineBreak c
  | _ => false

def depthAfter (depth : Nat) : Fragment → Nat
  | shown lexeme => lexeme.depthAfter depth
  | _ => depth

end Fragment

def shownText (fragments : List Fragment) : Text :=
  fragments.flatMap Fragment.text

def shownLexemes (fragments : List Fragment) : List Lexeme :=
  fragments.filterMap Fragment.lexeme?

/-- Do the fragments stay apart when they are put together before the rest of a text? -/
def staysApart (rest : Text) : List Fragment → Bool
  | [] => true
  | fragment :: fragments => fragment.isWhole &&
      (shownText fragments ++ rest).head?.all (!fragment.goesOn ·) && staysApart rest fragments

/-- Are all line breaks within parentheses? -/
def keepsLine (depth : Nat) : List Fragment → Bool
  | [] => true
  | fragment :: fragments => (0 < depth || !fragment.breaksLine) &&
      keepsLine (fragment.depthAfter depth) fragments

theorem isWhole_of_staysApart {rest : Text} {fragments : List Fragment}
    (h : staysApart rest fragments = true) :
    ∀ lexeme ∈ shownLexemes fragments, lexeme.isWhole = true := by
  induction fragments with
  | nil => exact List.forall_mem_nil _
  | cons fragment fragments ih =>
      simp only [staysApart, Bool.and_eq_true] at h
      rw [shownLexemes, List.filterMap_cons]
      cases fragment with
      | blank | comment | unread => exact ih h.2
      | shown lexeme => exact List.forall_mem_cons.mpr ⟨h.1.1, ih h.2⟩

/-! ## Tokens of layouts -/

/-- The lexemes of tokens; the indentation of a line is none. -/
def lexemesOf (tokens : List Token) : List Lexeme :=
  (tokens.filter (·.kind ≠ .indent)).map Token.lexeme

theorem lexemesOf_append (first second : List Token) :
    lexemesOf (first ++ second) = lexemesOf first ++ lexemesOf second := by
  rw [lexemesOf, List.filter_append, List.map_append]
  rfl

theorem lexemesOf_indents {tokens : List Token} (h : ∀ token ∈ tokens, token.kind = .indent) :
    lexemesOf tokens = [] := by
  rw [lexemesOf, List.map_eq_nil_iff, List.filter_eq_nil_iff]
  intro token htoken
  simp [h token htoken]

theorem lexemesOf_cons_of_indent {token : Token} (h : token.kind = .indent) (tokens : List Token) :
    lexemesOf (token :: tokens) = lexemesOf tokens := by
  rw [lexemesOf, List.filter_cons_of_neg (by simp [h])]
  rfl

theorem lexemesOf_cons {token : Token} (h : token.kind ≠ .indent) (tokens : List Token) :
    lexemesOf (token :: tokens) = token.lexeme :: lexemesOf tokens := by
  rw [lexemesOf, List.filter_cons_of_pos (by simp [h])]
  rfl

/-- One fragment gives the token of its lexeme, if it is one, and a line break the indentation of
the next line. -/
theorem exists_readFrom_fragment {fragment : Fragment} (h : fragment.isWhole = true) {t : Text}
    (ht : ∀ c ∈ t.head?, fragment.goesOn c = false) (line column : Nat) :
    ∃ read line' column', TokenStream.readFrom line column (fragment.text ++ t) =
        read ++ TokenStream.readFrom line' column' t ∧
      lexemesOf read = fragment.lexeme?.toList ∧
      ∀ depth more, (fragment.breaksLine = true → 0 < depth) →
        HoldsLine line' (fragment.depthAfter depth) more → HoldsLine line depth (read ++ more) := by
  cases fragment with
  | blank c =>
      obtain ⟨indents, line', column', hread, hkind, hline⟩ :=
        TokenStream.exists_indents_readFrom h line column t
      refine ⟨indents, line', column', hread, lexemesOf_indents hkind, ?_⟩
      intro depth more hdepth hmore
      cases hbreak : isLineBreak c with
      | false =>
          obtain ⟨rfl, rfl⟩ := hline hbreak
          exact hmore
      | true => exact hmore.indents_append hkind (hdepth hbreak)
  | comment body =>
      have hbody : ∀ c ∈ body, isLineBreak c = false := by
        simpa [Fragment.isWhole] using h
      have hbreak : ∀ c ∈ t.head?, isLineBreak c = true := by
        simpa [Fragment.goesOn] using ht
      exact ⟨[], line, column, TokenStream.readFrom_comment hbody hbreak line column, rfl,
        fun _ _ _ hmore => hmore⟩
  | unread c =>
      exact ⟨[], line, column + 1, TokenStream.readFrom_unread h line column t, rfl,
        fun _ _ _ hmore => hmore⟩
  | shown lexeme =>
      have hkind : lexeme.kind ≠ .indent := by
        intro hkind
        simp [Fragment.isWhole, Lexeme.isWhole, hkind] at h
      refine ⟨[⟨lexeme.kind, lexeme.text, line, column⟩], line, _,
        TokenStream.readFrom_lexeme h ht line column, ?_, fun depth more _ hmore => ?_⟩
      · rw [lexemesOf_cons hkind]
        rfl
      · exact ⟨fun _ => ⟨rfl, hkind⟩, hmore⟩

/-- The tokens of fragments that stay apart are their lexemes. If all line breaks are within
parentheses, the tokens hold the line outside of them. -/
theorem exists_readFrom {rest : Text} {fragments : List Fragment}
    (h : staysApart rest fragments = true) {depth : Nat} (hkeeps : keepsLine depth fragments = true)
    (line column : Nat) : ∃ read line' column',
      TokenStream.readFrom line column (shownText fragments ++ rest) =
        read ++ TokenStream.readFrom line' column' rest ∧
      lexemesOf read = shownLexemes fragments ∧ HoldsLine line depth read := by
  induction fragments generalizing depth line column with
  | nil => exact ⟨[], line, column, rfl, rfl, trivial⟩
  | cons fragment fragments ih =>
      simp only [staysApart, Bool.and_eq_true, Option.all_eq_true, Bool.not_eq_true'] at h
      simp only [keepsLine, Bool.and_eq_true, Bool.or_eq_true, decide_eq_true_eq,
        Bool.not_eq_true'] at hkeeps
      obtain ⟨⟨hwhole, hhead⟩, hbehind⟩ := h
      obtain ⟨first, line₁, column₁, hfirst, hlexeme, hholds⟩ :=
        exists_readFrom_fragment hwhole hhead line column
      obtain ⟨later, line₂, column₂, hlater, hlexemes, hmore⟩ := ih hbehind hkeeps.2 line₁ column₁
      refine ⟨first ++ later, line₂, column₂, ?_, ?_, hholds depth later (fun hbreak => ?_) hmore⟩
      · rw [shownText, List.flatMap_cons, List.append_assoc, ← shownText, hfirst, hlater,
          List.append_assoc]
      · rw [lexemesOf_append, hlexeme, hlexemes, shownLexemes, shownLexemes, List.filterMap_cons]
        cases fragment.lexeme? <;> rfl
      · exact hkeeps.1.resolve_right (by simp [hbreak])

end Almanac.Source
