import Almanac.Proofs.Source.InsertedLines
import Almanac.Proofs.Source.Layouts
import Almanac.Proofs.Source.TokenPlaces

/-!
# Headers as they are written

The header of a class or a method is laid out with its line breaks within parentheses, and its colon
is the first one outside of them. Such a header is read up to that colon, wherever it stands in a
file. What is read from it, bases or parameters, can be told from its lexemes: indentation changes
nothing, and neither do the places of tokens.
-/

namespace Almanac.Source

open Almanac.Text

/-! ## Parentheses among lexemes -/

namespace Lexeme

/-- How many parentheses are open behind the lexemes, if so many are before them, and nothing if one
is closed that is not open. -/
def nesting? : (depth : Nat) → List Lexeme → Option Nat
  | depth, [] => some depth
  | depth, lexeme :: rest =>
      if lexeme = mark ')' ∧ depth = 0 then none else nesting? (lexeme.depthAfter depth) rest

/-- Every parenthesis is closed, and none that is not open. -/
def IsBalanced (lexemes : List Lexeme) : Prop :=
  nesting? 0 lexemes = some 0

instance (lexemes : List Lexeme) : Decidable (IsBalanced lexemes) :=
  inferInstanceAs (Decidable (_ = _))

/-- The lexemes outside of parentheses, the opening ones included. -/
def outside : (depth : Nat) → List Lexeme → List Lexeme
  | _, [] => []
  | depth, lexeme :: rest =>
      if depth = 0 then lexeme :: outside (lexeme.depthAfter depth) rest
      else outside (lexeme.depthAfter depth) rest

/-- The lexeme is no keyword of a declaration. -/
def IsOrdinary (lexeme : Lexeme) : Prop :=
  lexeme.kind ≠ .classKeyword ∧ lexeme.kind ≠ .defKeyword

instance (lexeme : Lexeme) : Decidable lexeme.IsOrdinary :=
  inferInstanceAs (Decidable (_ ∧ _))

/-- Lexemes that may stand in a header: every parenthesis is closed, and there is no keyword of a
declaration. -/
def IsClosed (lexemes : List Lexeme) : Prop :=
  IsBalanced lexemes ∧ ∀ lexeme ∈ lexemes, lexeme.IsOrdinary

instance (lexemes : List Lexeme) : Decidable (IsClosed lexemes) :=
  inferInstanceAs (Decidable (_ ∧ _))

theorem nesting?_append (depth : Nat) (first second : List Lexeme) :
    nesting? depth (first ++ second) = (nesting? depth first).bind (nesting? · second) := by
  induction first generalizing depth with
  | nil => rfl
  | cons lexeme first ih =>
      rw [List.cons_append, nesting?, nesting?]
      split
      next => rfl
      next => exact ih _

/-- Behind the first of the lexemes the others are nested. -/
theorem nesting?_cons {depth behind : Nat} {lexeme : Lexeme} {lexemes : List Lexeme}
    (h : nesting? depth (lexeme :: lexemes) = some behind) :
    ¬ (lexeme = mark ')' ∧ depth = 0) ∧
      nesting? (lexeme.depthAfter depth) lexemes = some behind := by
  rw [nesting?] at h
  split at h
  next => cases h
  next hclosed => exact ⟨hclosed, h⟩

theorem IsClosed.append {first second : List Lexeme} (hfirst : IsClosed first)
    (hsecond : IsClosed second) : IsClosed (first ++ second) := by
  refine ⟨?_, List.forall_mem_append.mpr ⟨hfirst.2, hsecond.2⟩⟩
  rw [IsBalanced, nesting?_append, show nesting? 0 first = some 0 from hfirst.1]
  exact hsecond.1

/-- Lexemes without parentheses open and close nothing. -/
theorem nesting?_of_noMarks {lexemes : List Lexeme}
    (h : ∀ lexeme ∈ lexemes, lexeme ≠ mark '(' ∧ lexeme ≠ mark ')') (depth : Nat) :
    nesting? depth lexemes = some depth := by
  induction lexemes with
  | nil => rfl
  | cons lexeme lexemes ih =>
      obtain ⟨⟨hopen, hclose⟩, hlater⟩ := List.forall_mem_cons.mp h
      rw [nesting?, if_neg fun hclosed => hclose hclosed.1, depthAfter_of_ne hopen hclose]
      exact ih hlater

theorem depthAfter_add {lexeme : Lexeme} {depth : Nat} (h : ¬ (lexeme = mark ')' ∧ depth = 0))
    (more : Nat) : lexeme.depthAfter (depth + more) = lexeme.depthAfter depth + more := by
  unfold depthAfter
  split
  next => omega
  next =>
    split
    next hmark =>
      have hdepth : depth ≠ 0 := fun hzero => h ⟨hmark, hzero⟩
      omega
    next => rfl

/-- Further parentheses around lexemes stay open. -/
theorem nesting?_add {depth behind : Nat} {lexemes : List Lexeme}
    (h : nesting? depth lexemes = some behind) (more : Nat) :
    nesting? (depth + more) lexemes = some (behind + more) := by
  induction lexemes generalizing depth with
  | nil =>
      obtain rfl := Option.some.inj h
      rfl
  | cons lexeme lexemes ih =>
      obtain ⟨hclosed, h⟩ := nesting?_cons h
      rw [nesting?, if_neg fun hmore => hclosed ⟨hmore.1, by omega⟩, depthAfter_add hclosed]
      exact ih h

theorem notMem_outside_cons {depth : Nat} {lexeme other : Lexeme} {lexemes : List Lexeme}
    (h : other ∉ outside depth (lexeme :: lexemes)) : (depth = 0 → lexeme ≠ other) ∧
      other ∉ outside (lexeme.depthAfter depth) lexemes := by
  rw [outside] at h
  split at h
  next =>
    rw [List.mem_cons, not_or] at h
    exact ⟨fun _ => Ne.symm h.1, h.2⟩
  next hinner => exact ⟨fun hzero => absurd hzero hinner, h⟩

theorem outside_append {depth behind : Nat} {first : List Lexeme}
    (h : nesting? depth first = some behind) (second : List Lexeme) :
    outside depth (first ++ second) = outside depth first ++ outside behind second := by
  induction first generalizing depth with
  | nil =>
      obtain rfl := Option.some.inj h
      rfl
  | cons lexeme first ih =>
      have hbehind := ih (nesting?_cons h).2
      rw [List.cons_append, outside, outside]
      split
      next => rw [hbehind, List.cons_append]
      next => exact hbehind

/-- Between parentheses nothing is outside. -/
theorem outside_of_inner {depth behind : Nat} {lexemes : List Lexeme}
    (h : nesting? depth lexemes = some behind) : outside (depth + 1) lexemes = [] := by
  induction lexemes generalizing depth with
  | nil => rfl
  | cons lexeme lexemes ih =>
      obtain ⟨hclosed, h⟩ := nesting?_cons h
      rw [outside, if_neg (by omega), depthAfter_add hclosed]
      exact ih h

end Lexeme

open Lexeme

/-! ## Header scans -/

namespace Header

theorem isOperator_iff {token : Token} {c : Char} :
    isOperator token [c] = true ↔ token.lexeme = mark c := by
  simp [isOperator, Token.lexeme, mark]

theorem opensDeclaration_eq_false {token : Token} (h : token.lexeme.IsOrdinary) :
    opensDeclaration token = false := by
  have hkind : token.kind ≠ .classKeyword ∧ token.kind ≠ .defKeyword := h
  simp [opensDeclaration, hkind]

/-- A token that is no keyword and does not end the header, on the line that is read or within
parentheses, is one of the header. -/
theorem scan_cons {line depth : Nat} {token : Token} (hordinary : token.lexeme.IsOrdinary)
    (hline : depth = 0 → token.line = line) (hcolon : depth = 0 → token.lexeme ≠ mark ':')
    (rest : List Token) : scan line depth (token :: rest) =
      (scan token.line (token.lexeme.depthAfter depth) rest).map (token :: ·) := by
  have hopen : isOperator token "(" = true ↔ token.lexeme = mark '(' := isOperator_iff
  have hclose : isOperator token ")" = true ↔ token.lexeme = mark ')' := isOperator_iff
  have hend : isOperator token ":" = true ↔ token.lexeme = mark ':' := isOperator_iff
  rw [scan, opensDeclaration_eq_false hordinary, if_neg Bool.false_ne_true,
    if_neg fun h => h.2 (hline h.1), if_neg fun h => hcolon h.2 (hend.mp h.1)]
  simp only [hopen, hclose]
  rfl

/-- A colon outside of parentheses, on the line that is read, ends the header. -/
theorem scan_colon {line : Nat} {token : Token} (hmark : token.lexeme = mark ':')
    (hline : token.line = line) (rest : List Token) : scan line 0 (token :: rest) = some [] := by
  have hend : isOperator token ":" = true := isOperator_iff.mpr hmark
  have hordinary : token.lexeme.IsOrdinary := by rw [hmark]; decide
  rw [scan, opensDeclaration_eq_false hordinary, if_neg Bool.false_ne_true,
    if_neg fun h => h.2 hline, if_pos ⟨hend, rfl⟩]

/-- Indentation within parentheses is kept in the header. -/
theorem scan_indent {line depth : Nat} {token : Token} (hkind : token.kind = .indent)
    (hdepth : depth ≠ 0) (rest : List Token) :
    scan line depth (token :: rest) = (scan token.line depth rest).map (token :: ·) := by
  have hordinary : token.lexeme.IsOrdinary := by simp [IsOrdinary, Token.lexeme, hkind]
  rw [scan_cons hordinary (fun hzero => absurd hzero hdepth) fun hzero => absurd hzero hdepth,
    depthAfter_of_indent hkind]

/-- The tokens of a header that hold the line are read up to the first colon outside of
parentheses. -/
theorem exists_scan {tokens : List Token} {lexemes : List Lexeme} {line depth : Nat}
    (hlexemes : lexemesOf tokens = lexemes ++ [mark ':']) (hholds : HoldsLine line depth tokens)
    (hordinary : ∀ lexeme ∈ lexemes, lexeme.IsOrdinary) (hcolon : mark ':' ∉ outside depth lexemes)
    (hdepth : nesting? depth lexemes = some 0) :
    ∃ header, lexemesOf header = lexemes ∧
      ∀ more, scan line depth (tokens ++ more) = some header := by
  induction tokens generalizing lexemes line depth with
  | nil => exact absurd hlexemes.symm (by simp [lexemesOf])
  | cons token tokens ih =>
      obtain ⟨hhere, hholds⟩ := hholds
      by_cases hkind : token.kind = .indent
      · -- indentation stands within parentheses only
        have hwithin : depth ≠ 0 := fun hzero => (hhere hzero).2 hkind
        rw [lexemesOf_cons_of_indent hkind] at hlexemes
        rw [depthAfter_of_indent hkind] at hholds
        obtain ⟨header, hheader, hscan⟩ := ih hlexemes hholds hordinary hcolon hdepth
        refine ⟨token :: header, (lexemesOf_cons_of_indent hkind header).trans hheader,
          fun more => ?_⟩
        rw [List.cons_append, scan_indent hkind hwithin, hscan]
        rfl
      · rw [lexemesOf_cons hkind] at hlexemes
        cases lexemes with
        | nil =>
            obtain rfl : depth = 0 := Option.some.inj hdepth
            obtain ⟨hmark, -⟩ := List.cons.inj hlexemes
            exact ⟨[], rfl, fun more => scan_colon hmark (hhere rfl).1 (tokens ++ more)⟩
        | cons lexeme lexemes =>
            obtain ⟨rfl, htail⟩ := List.cons.inj hlexemes
            obtain ⟨hordinary, hlater⟩ := List.forall_mem_cons.mp hordinary
            obtain ⟨hend, hcolon⟩ := notMem_outside_cons hcolon
            obtain ⟨header, hheader, hscan⟩ :=
              ih htail hholds hlater hcolon (nesting?_cons hdepth).2
            refine ⟨token :: header, ?_, fun more => ?_⟩
            · rw [lexemesOf_cons hkind, hheader]
            · rw [List.cons_append, scan_cons hordinary (fun hzero => (hhere hzero).1) hend, hscan]
              rfl

/-! ## Headers in files -/

theorem tokens_ofText_append {before : Text} (hbefore : OpensLine before) (t : Text) :
    (TokenStream.ofText TokenRule.all (before ++ t)).tokens =
      (TokenStream.ofText TokenRule.all before).tokens ++
        (TokenStream.ofLines TokenRule.all ((lines before).length + 1) (lines t)).tokens := by
  have hlines : lines (before ++ t) = lines before ++ lines t := by
    cases hlast : before.getLast? with
    | none =>
        rw [List.getLast?_eq_none_iff.mp hlast]
        rfl
    | some c =>
        obtain rfl := hbefore c hlast
        exact lines_append hlast t
  rw [TokenStream.ofText, hlines, TokenStream.ofLines_append, Nat.add_comm]
  rfl

/-- The first token that holds the line outside of parentheses is the first lexeme. -/
theorem exists_cons_of_holdsLine {tokens : List Token} {line : Nat} {lexeme : Lexeme}
    {lexemes : List Lexeme} (hlexemes : lexemesOf tokens = lexeme :: lexemes)
    (hholds : HoldsLine line 0 tokens) (hkind : lexeme.kind ≠ .operator) :
    ∃ token rest, tokens = token :: rest ∧ token.lexeme = lexeme ∧ token.line = line ∧
      lexemesOf rest = lexemes ∧ HoldsLine line 0 rest := by
  cases tokens with
  | nil => cases hlexemes
  | cons token rest =>
      obtain ⟨hhere, hrest⟩ := hholds
      obtain ⟨hline, hindent⟩ := hhere rfl
      rw [lexemesOf_cons hindent] at hlexemes
      obtain ⟨rfl, htail⟩ := List.cons.inj hlexemes
      rw [depthAfter_of_kind hkind, hline] at hrest
      exact ⟨token, rest, rfl, rfl, hline, htail, hrest⟩

/-- A header that is laid out in a file, at the start of a line, is read as the lexemes between its
name and its colon. -/
theorem exists_scan_ofText {before rest : Text} (hbefore : OpensLine before)
    {fragments : List Fragment} (hapart : staysApart rest fragments = true)
    (hkeeps : keepsLine 0 fragments = true) {keyword name : Lexeme} {lexemes : List Lexeme}
    (hshown : shownLexemes fragments = keyword :: name :: (lexemes ++ [mark ':']))
    (hkeyword : keyword.kind ≠ .operator) (hname : name.kind ≠ .operator)
    (hclosed : IsClosed lexemes) (hcolon : mark ':' ∉ outside 0 lexemes) :
    ∃ indents opening first ahead header,
      (TokenStream.ofText TokenRule.all (before ++ (shownText fragments ++ rest))).tokens =
        (TokenStream.ofText TokenRule.all before).tokens ++ indents ++ opening :: first :: ahead ∧
      (∀ token ∈ indents, token.kind = .indent) ∧
      opening.lexeme = keyword ∧ first.lexeme = name ∧
      opening.line = (lines before).length + 1 ∧
      scan opening.line 0 ahead = some header ∧ lexemesOf header = lexemes := by
  obtain ⟨indents, hindents, hkind⟩ :=
    TokenStream.exists_indents_ofLines ((lines before).length + 1) (shownText fragments ++ rest)
  obtain ⟨read, line', column', hread, hlexemes, hholds⟩ :=
    exists_readFrom hapart hkeeps ((lines before).length + 1) 0
  rw [hshown] at hlexemes
  obtain ⟨opening, read, rfl, hopening, hline, hlexemes, hholds⟩ :=
    exists_cons_of_holdsLine hlexemes hholds hkeyword
  obtain ⟨first, read, rfl, hfirst, -, hlexemes, hholds⟩ :=
    exists_cons_of_holdsLine hlexemes hholds hname
  obtain ⟨header, hheader, hscan⟩ := exists_scan hlexemes hholds hclosed.2 hcolon hclosed.1
  refine ⟨indents, opening, first, read ++ TokenStream.readFrom line' column' rest, header, ?_,
    fun token hmem => (hkind token hmem).1, hopening, hfirst, hline, ?_, hheader⟩
  · rw [tokens_ofText_append hbefore, hindents, hread, List.append_assoc]
    rfl
  · rw [hline]
    exact hscan _

end Header

/-! ## Readings of lexemes -/

/-- The lexeme as a token at no place in particular. -/
def Lexeme.token (lexeme : Lexeme) : Token :=
  ⟨lexeme.kind, lexeme.text, 0, 0⟩

/-- What is done with tokens step by step, without regard to places and indentation, is done with
their lexemes. -/
theorem foldl_lexemesOf {σ : Type} {step : σ → Token → σ}
    (hindent : ∀ state token, token.kind = .indent → step state token = state)
    (hplace : ∀ state token, step state token.lexeme.token = step state token) (state : σ)
    (tokens : List Token) : tokens.foldl step state =
      (lexemesOf tokens).foldl (fun state lexeme => step state lexeme.token) state := by
  induction tokens generalizing state with
  | nil => rfl
  | cons token tokens ih =>
      by_cases hkind : token.kind = .indent
      · rw [List.foldl_cons, hindent state token hkind, lexemesOf_cons_of_indent hkind, ih]
      · rw [List.foldl_cons, lexemesOf_cons hkind, List.foldl_cons, hplace, ih]

theorem Lexeme.kind_token_ne {lexeme : Lexeme} (h : lexeme.isWhole = true) :
    lexeme.token.kind ≠ .indent := by
  intro hkind
  have hindent : lexeme.kind = .indent := hkind
  simp [isWhole, hindent] at h

/-- A whole lexeme with the character of an operator is that operator. -/
theorem Lexeme.text_token_iff {lexeme : Lexeme} (h : lexeme.isWhole = true) {c : Char}
    (hc : TokenRule.isOperator c = true) : lexeme.token.text = [c] ↔ lexeme = mark c := by
  constructor
  · intro htext
    obtain ⟨kind, text⟩ := lexeme
    obtain rfl : text = [c] := htext
    have hfirst := @TokenRule.first?_of_isWhole _ [] h nofun
    rw [List.append_nil, TokenRule.first?_of_isOperator hc] at hfirst
    obtain ⟨rfl, -⟩ := Prod.mk.inj (Option.some.inj hfirst)
    rfl
  · rintro rfl
    rfl

/-! ## Lists of items -/

/-- A name as a lexeme. -/
def Lexeme.word (name : Text) : Lexeme :=
  if name = "self" then ⟨.selfKeyword, name⟩ else ⟨.identifier, name⟩

theorem Lexeme.kind_word (name : Text) :
    (word name).kind ≠ .operator ∧ (word name).IsOrdinary := by
  unfold word
  split <;> simp [IsOrdinary]

theorem Lexeme.isClosed_word (name : Text) : IsClosed [word name] := by
  have hmark := ne_mark_of_kind (kind_word name).1
  refine ⟨nesting?_of_noMarks ?_ 0, List.forall_mem_singleton.mpr (kind_word name).2⟩
  exact List.forall_mem_singleton.mpr ⟨hmark '(', hmark ')'⟩

/-- Items with commas between them. -/
def listed : List (List Lexeme) → List Lexeme
  | [] => []
  | [item] => item
  | item :: rest => item ++ mark ',' :: listed rest

/-- Items between parentheses; a comma may stand behind the last one. -/
def enclosed (items : List (List Lexeme)) (trailing : Bool) : List Lexeme :=
  mark '(' :: (listed items ++ (if trailing then [mark ','] else []) ++ [mark ')'])

theorem listed_cons_cons (item next : List Lexeme) (rest : List (List Lexeme)) :
    listed (item :: next :: rest) = item ++ mark ',' :: listed (next :: rest) := rfl

theorem isClosed_listed {items : List (List Lexeme)} (h : ∀ item ∈ items, IsClosed item) :
    IsClosed (listed items) := by
  fun_induction listed items with
  | case1 => exact ⟨rfl, List.forall_mem_nil _⟩
  | case2 item => exact h item (List.mem_singleton_self item)
  | case3 item rest _ ih =>
      obtain ⟨hitem, hrest⟩ := List.forall_mem_cons.mp h
      have hcomma : IsClosed [mark ','] := by decide
      exact hitem.append (hcomma.append (ih hrest))

/-- What is enclosed is closed, and nothing of it is outside but the opening parenthesis. -/
theorem isClosed_enclosed {items : List (List Lexeme)} (h : ∀ item ∈ items, IsClosed item)
    (trailing : Bool) : IsClosed (enclosed items trailing) ∧
      outside 0 (enclosed items trailing) = [mark '('] := by
  have hend : IsClosed (if trailing then [mark ','] else []) := by cases trailing <;> decide
  obtain ⟨hbalanced, hordinary⟩ := (isClosed_listed h).append hend
  have hbehind := nesting?_add hbalanced 1
  refine ⟨⟨?_, ?_⟩, ?_⟩
  · change nesting? 1 _ = some 0
    rw [nesting?_append, hbehind]
    rfl
  · refine List.forall_mem_cons.mpr ⟨by decide, List.forall_mem_append.mpr ⟨hordinary, ?_⟩⟩
    exact List.forall_mem_singleton.mpr (by decide)
  · change mark '(' :: outside 1 _ = _
    rw [outside_append hbehind, outside_of_inner hbalanced]
    rfl

end Almanac.Source
