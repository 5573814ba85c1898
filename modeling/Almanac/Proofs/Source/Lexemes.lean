import Almanac.Proofs.Source.LiteralText
import Almanac.Proofs.Source.TokenColumns
import Almanac.Proofs.Text.DigitClasses
import Almanac.Proofs.Text.Occurrences

/-!
# Lexemes

A lexeme is a token without its place. The characters tell what lexeme they are: a word is a keyword
or an identifier, digits are a number, a literal stands between quotes, and an operator is one
character. Unless the next character goes on with it, a lexeme at the start of a text is what the
table of rules takes there. A character that opens nothing of this sort is taken by no rule.
-/

namespace Almanac.Text

/-! ## Characters of words -/

theorem inIntervals_cons_of_lt {low high n : Nat} (hlow : low ≤ n) (hhigh : n ≤ high)
    (rest : List (Nat × Nat)) : inIntervals ((low, high) :: rest) n = true := by
  rw [inIntervals, if_neg (by omega), decide_eq_true hhigh, Bool.true_or]

theorem inIntervals_cons_of_holds {low high n : Nat} {rest : List (Nat × Nat)} (hlow : low ≤ n)
    (hrest : inIntervals rest n = true) : inIntervals ((low, high) :: rest) n = true := by
  rw [inIntervals, if_neg (by omega), hrest, Bool.or_true]

theorem isLetter_of_isAlpha {c : Char} (hc : c.isAlpha = true) : isLetter c = true := by
  obtain ⟨interval, hmem, hlow, hhigh⟩ := holds_of_isAlpha hc
  unfold isLetter letterIntervals
  simp only [alphaIntervals, List.mem_cons, List.not_mem_nil, or_false] at hmem
  rcases hmem with rfl | rfl
  · exact inIntervals_cons_of_lt hlow hhigh _
  · exact inIntervals_cons_of_holds (by omega) (inIntervals_cons_of_lt hlow hhigh _)

theorem isNumeral_of_isDigit {c : Char} (hc : c.isDigit = true) : isNumeral c = true := by
  have hbounds : 48 ≤ c.toNat ∧ c.toNat ≤ 57 := by
    simpa [Char.isDigit, UInt32.le_iff_toNat_le] using hc
  unfold isNumeral numeralIntervals
  exact inIntervals_cons_of_lt hbounds.1 hbounds.2 _

theorem isWord_of_isIdentifierChar {c : Char} (hc : isIdentifierChar c = true) :
    isWord c = true := by
  simp only [isIdentifierChar, Char.isAlphanum, Bool.or_eq_true, decide_eq_true_eq] at hc
  rcases hc with (halpha | hdigit) | hunderscore
  · rw [isWord, isLetter_of_isAlpha halpha, Bool.true_or, Bool.true_or]
  · rw [isWord, isNumeral_of_isDigit hdigit, Bool.or_true, Bool.true_or]
  · rw [isWord, decide_eq_true hunderscore, Bool.or_true]

theorem isIdentifierChar_of_opensIdentifier {c : Char} (hc : opensIdentifier c = true) :
    isIdentifierChar c = true := by
  simp only [opensIdentifier, Bool.or_eq_true] at hc
  rcases hc with halpha | hunderscore
  · rw [isIdentifierChar, Char.isAlphanum, halpha, Bool.true_or, Bool.true_or]
  · rw [isIdentifierChar, hunderscore, Bool.or_true]

theorem isBlank_of_isLineBreak {c : Char} (hc : isLineBreak c = true) : isBlank c = true := by
  simp only [isLineBreak, Bool.or_eq_true, Bool.and_eq_true, decide_eq_true_eq, beq_iff_eq] at hc
  simp only [isBlank, blankIntervals, inIntervals, Bool.or_eq_true, Bool.if_false_left,
    Bool.and_eq_true, Bool.not_eq_true', decide_eq_false_iff_not, decide_eq_true_eq]
  omega

theorem isLineBreak_of_not_blank {c : Char} (hc : isBlank c = false) : isLineBreak c = false :=
  Bool.eq_false_iff.mpr fun hbreak => Bool.eq_false_iff.mp hc (isBlank_of_isLineBreak hbreak)

theorem isBlank_of_isIdentifierChar {c : Char} (hc : isIdentifierChar c = true) :
    isBlank c = false := by
  refine Bool.eq_false_iff.mpr fun hblank => ?_
  have hword := isWord_of_isIdentifierChar hc
  rw [isWord_of_isBlank hblank] at hword
  cases hword

end Almanac.Text

namespace Almanac.Source

open Almanac.Text

/-- A token without its place. -/
structure Lexeme where
  kind : TokenKind
  text : Text
deriving DecidableEq, Repr

def Token.lexeme (token : Token) : Lexeme :=
  ⟨token.kind, token.text⟩

/-! ## Rules by their first characters -/

namespace TokenRule

/-- Can the rule take something from a text that begins with the character? -/
def opens : TokenRule → Char → Bool
  | classWord, c => c = 'c'
  | defWord, c => c = 'd'
  | selfWord, c => c = 's'
  | doubleQuoted, c => c = '"'
  | singleQuoted, c => c = '\''
  | number, c => isDecimal c
  | identifier, c => opensIdentifier c
  | operator, c => isOperator c

theorem wordLength_cons_of_ne {first c : Char} (hc : c ≠ first) (word t : Text) :
    wordLength (first :: word) (c :: t) = 0 := by
  rw [wordLength, after?, if_neg hc.symm]

theorem extent_of_opens {rule : TokenRule} {c : Char} (h : rule.opens c = false) (t : Text) :
    rule.extent (c :: t) = 0 := by
  cases rule with
  | classWord | defWord | selfWord => exact wordLength_cons_of_ne (of_decide_eq_false h) _ t
  | doubleQuoted | singleQuoted => exact if_neg (of_decide_eq_false h)
  | number =>
      rw [extent, List.takeWhile_cons_of_neg (by simpa [opens] using h)]
      rfl
  | identifier => exact if_neg (by simpa [opens] using h)
  | operator => exact if_neg (by simpa [opens] using h)

end TokenRule

/-- Is the character neither white space nor the sign of a comment, and opens nothing? -/
def isUnread (c : Char) : Bool :=
  !isBlank c && c ≠ '#' && TokenRule.all.all (!TokenRule.opens · c)

/-! ## Lexemes by their characters -/

namespace Lexeme

/-- An operator. -/
def mark (c : Char) : Lexeme :=
  ⟨.operator, [c]⟩

/-- Is the text the body of a literal? A quote of its sort stands behind a backslash only. -/
def isBody (quote : Char) : Text → Bool
  | [] => true
  | '\\' :: _ :: rest => isBody quote rest
  | c :: rest => c ≠ quote && c ≠ '\\' && isBody quote rest

/-- A literal stands between quotes of one sort and on one line. -/
def isLiteral : Text → Bool
  | [] => false
  | quote :: rest => (quote = '"' || quote = '\'') && rest.getLast? = some quote &&
      isBody quote rest.dropLast && rest.all (!isLineBreak ·)

def isIdentifier : Text → Bool
  | [] => false
  | c :: rest => opensIdentifier c && rest.all isIdentifierChar

/-- Are the characters those of a lexeme of this kind? -/
def isWhole (lexeme : Lexeme) : Bool :=
  match lexeme.kind with
  | .classKeyword => lexeme.text = "class"
  | .defKeyword => lexeme.text = "def"
  | .selfKeyword => lexeme.text = "self"
  | .identifier => isIdentifier lexeme.text &&
      lexeme.text ∉ [("class" : Text), "def", "self"]
  | .number => !lexeme.text.isEmpty && lexeme.text.all isDecimal
  | .string => isLiteral lexeme.text
  | .operator => lexeme.text.length = 1 && lexeme.text.all TokenRule.isOperator
  | .indent => false

/-- Does the character belong to the lexeme when it stands right behind it? -/
def goesOn (lexeme : Lexeme) (c : Char) : Bool :=
  match lexeme.kind with
  | .classKeyword | .defKeyword | .selfKeyword => isWord c
  | .identifier => isIdentifierChar c
  | .number => isDecimal c
  | .string | .operator | .indent => false

/-! ## Characters of lexemes -/

variable {lexeme : Lexeme} {t rest : Text}

theorem isIdentifierChar_of_isIdentifier (h : isIdentifier t = true) :
    t ≠ [] ∧ ∀ c ∈ t, isIdentifierChar c = true := by
  cases t with
  | nil => cases h
  | cons c more =>
      rw [isIdentifier, Bool.and_eq_true, List.all_eq_true] at h
      exact ⟨List.cons_ne_nil c more,
        List.forall_mem_cons.mpr ⟨isIdentifierChar_of_opensIdentifier h.1, h.2⟩⟩

theorem exists_of_isLiteral (h : isLiteral t = true) : ∃ quote body,
    t = quote :: (body ++ [quote]) ∧ (quote = '"' ∨ quote = '\'') ∧ isBody quote body = true ∧
      ∀ c ∈ body, isLineBreak c = false := by
  cases t with
  | nil => cases h
  | cons quote more =>
      simp only [isLiteral, Bool.and_eq_true, Bool.or_eq_true, decide_eq_true_eq, List.all_eq_true,
        Bool.not_eq_true'] at h
      obtain ⟨⟨⟨hquote, hlast⟩, hbody⟩, hbreak⟩ := h
      refine ⟨quote, more.dropLast, ?_, hquote, hbody, fun c hc => ?_⟩
      · rw [List.dropLast_append_getLast? quote hlast]
      · exact hbreak c (List.mem_of_mem_dropLast hc)

theorem isBlank_of_isOperator {c : Char} (h : TokenRule.isOperator c = true) :
    isBlank c = false ∧ c ≠ '#' := by
  have hall : ("+-*/=(),.:" : Text).all (fun c => !isBlank c && c ≠ '#') = true := by decide
  simpa using List.all_eq_true.mp hall c (of_decide_eq_true h)

theorem exists_of_isWhole_operator (hkind : lexeme.kind = .operator)
    (h : lexeme.isWhole = true) : ∃ c, lexeme = mark c ∧ TokenRule.isOperator c = true := by
  obtain ⟨kind, text⟩ := lexeme
  obtain rfl : kind = .operator := hkind
  simp only [isWhole, Bool.and_eq_true, decide_eq_true_eq, List.length_eq_one_iff] at h
  obtain ⟨⟨c, rfl⟩, hc⟩ := h
  exact ⟨c, rfl, by simpa using hc⟩

/-- The lexeme begins with a character that is no white space and no sign of a comment, and it
stands on one line. -/
def BeginsCode (t : Text) : Prop :=
  ∃ c more, t = c :: more ∧ isBlank c = false ∧ c ≠ '#' ∧ ∀ c ∈ t, isLineBreak c = false

theorem beginsCode_of_solid {t : Text} (hsome : t ≠ [])
    (hall : ∀ c ∈ t, isBlank c = false ∧ c ≠ '#') : BeginsCode t := by
  obtain ⟨c, more, rfl⟩ := List.exists_cons_of_ne_nil hsome
  obtain ⟨hblank, hsign⟩ := hall c List.mem_cons_self
  exact ⟨c, more, rfl, hblank, hsign, fun d hd => isLineBreak_of_not_blank (hall d hd).1⟩

theorem beginsCode_of_isIdentifier {t : Text} (h : isIdentifier t = true) : BeginsCode t := by
  obtain ⟨hsome, hchars⟩ := isIdentifierChar_of_isIdentifier h
  refine beginsCode_of_solid hsome fun c hc => ⟨isBlank_of_isIdentifierChar (hchars c hc), ?_⟩
  rintro rfl
  exact absurd (hchars _ hc) (by decide)

theorem beginsCode_of_isLiteral {t : Text} (h : isLiteral t = true) : BeginsCode t := by
  obtain ⟨quote, body, rfl, hquote, -, hbreak⟩ := exists_of_isLiteral h
  have hends : isBlank quote = false ∧ quote ≠ '#' ∧ isLineBreak quote = false := by
    rcases hquote with rfl | rfl <;> decide
  refine ⟨quote, _, rfl, hends.1, hends.2.1, ?_⟩
  simp only [List.mem_cons, List.mem_append, List.not_mem_nil, or_false]
  rintro c (rfl | hc | rfl)
  · exact hends.2.2
  · exact hbreak c hc
  · exact hends.2.2

/-- A whole lexeme begins with a character that is no white space and no sign of a comment, and it
stands on one line. -/
theorem exists_cons_of_isWhole (h : lexeme.isWhole = true) : ∃ c more,
    lexeme.text = c :: more ∧ isBlank c = false ∧ c ≠ '#' ∧
      ∀ c ∈ lexeme.text, isLineBreak c = false := by
  obtain ⟨kind, text⟩ := lexeme
  change BeginsCode text
  cases kind with
  | classKeyword | defKeyword | selfKeyword =>
      obtain rfl := of_decide_eq_true h
      exact beginsCode_of_isIdentifier (by decide)
  | identifier => exact beginsCode_of_isIdentifier ((Bool.and_eq_true _ _).mp h).1
  | number =>
      simp only [isWhole, Bool.and_eq_true, Bool.not_eq_true', List.isEmpty_eq_false_iff,
        List.all_eq_true] at h
      refine beginsCode_of_solid h.1 fun c hc =>
        ⟨isBlank_of_isDigit (isDigit_of_isDecimal (h.2 c hc)), ?_⟩
      rintro rfl
      exact absurd (h.2 _ hc) (by decide)
  | string => exact beginsCode_of_isLiteral h
  | operator =>
      obtain ⟨c, hmark, hc⟩ := exists_of_isWhole_operator rfl h
      obtain rfl : text = [c] := congrArg Lexeme.text hmark
      exact beginsCode_of_solid (List.cons_ne_nil c [])
        (List.forall_mem_singleton.mpr (isBlank_of_isOperator hc))
  | indent => cases h

/-! ## Rules at the start of a lexeme -/

theorem wordLength_of_endsWord (word : Text) (h : ∀ c ∈ rest.head?, isWord c = false) :
    TokenRule.wordLength word (word ++ rest) = word.length := by
  have hend : endsWord rest = true := by
    cases rest with
    | nil => rfl
    | cons c more => rw [endsWord, h c rfl]; rfl
  rw [TokenRule.wordLength, after?_self]
  exact if_pos hend

/-- An identifier other than a word does not begin with that word: it ends within the word, or goes
on behind it. -/
theorem wordLength_of_isIdentifier {word : Text} (hword : isIdentifier word = true)
    (ht : isIdentifier t = true) (hne : t ≠ word)
    (hrest : ∀ c ∈ rest.head?, isIdentifierChar c = false) :
    TokenRule.wordLength word (t ++ rest) = 0 := by
  rw [TokenRule.wordLength]
  split
  next behind hbehind =>
    rcases List.append_eq_append_iff.mp (after?_eq_some_iff.mp hbehind) with
      ⟨more, hmore, hbetween⟩ | ⟨more, hmore, hbetween⟩
    · cases more with
      | nil => exact absurd (by simpa using hmore.symm) hne
      | cons c more =>
          have hchar := (isIdentifierChar_of_isIdentifier hword).2 c (by simp [hmore])
          rw [hrest c (by simp [hbetween])] at hchar
          cases hchar
    · cases more with
      | nil => exact absurd (by simpa using hmore) hne
      | cons c more =>
          have hchar := (isIdentifierChar_of_isIdentifier ht).2 c (by simp [hmore])
          rw [hbetween, List.cons_append, endsWord, isWord_of_isIdentifierChar hchar]
          rfl
  next => rfl

theorem identifierLength_of_isIdentifier (ht : isIdentifier t = true)
    (hrest : ∀ c ∈ rest.head?, isIdentifierChar c = false) :
    identifierLength (t ++ rest) = t.length := by
  cases t with
  | nil => cases ht
  | cons c more =>
      rw [isIdentifier, Bool.and_eq_true, List.all_eq_true] at ht
      rw [List.cons_append, identifierLength, if_pos ht.1, takeWhile_span ht.2 hrest,
        List.length_cons, Nat.add_comm]

/-- The quote that stands behind the body of a literal closes it. -/
theorem closes_of_isBody {quote : Char} {body : Text} (hbody : isBody quote body = true)
    (hbreak : ∀ c ∈ body, isLineBreak c = false) : Literal.IsBody quote (body ++ [quote]) := by
  fun_induction isBody quote body with
  | case1 => exact .closing
  | case2 c body ih =>
      simp only [List.forall_mem_cons] at hbreak
      have hfeed : c ≠ '\n' := by
        rintro rfl
        exact absurd hbreak.2.1 (by decide)
      exact .escaped hfeed (ih hbody hbreak.2.2)
  | case3 c body hescape ih =>
      simp only [Bool.and_eq_true, decide_eq_true_eq] at hbody
      exact .plain hbody.1.1 hbody.1.2
        (ih hbody.2 fun d hd => hbreak d (List.mem_cons_of_mem c hd))

theorem quotedLength_of_isBody {quote : Char} (hquote : quote ≠ '\\') {body : Text}
    (hbody : isBody quote body = true) (hbreak : ∀ c ∈ body, isLineBreak c = false) (rest : Text) :
    TokenRule.quotedLength quote (quote :: (body ++ quote :: rest)) = body.length + 2 := by
  have hextent := (closes_of_isBody hbody hbreak).extent? hquote rest
  rw [List.append_assoc, List.singleton_append] at hextent
  rw [TokenRule.quotedLength, if_pos rfl, hextent]
  simp

end Lexeme

namespace TokenRule

theorem first?_of_isUnread {c : Char} (hc : isUnread c = true) (t : Text) :
    first? all (c :: t) = none := by
  simp only [isUnread, Bool.and_eq_true, List.all_eq_true, Bool.not_eq_true'] at hc
  rw [first?, List.findSome?_eq_none_iff]
  intro rule hrule
  rw [extent_of_opens (hc.2 rule hrule) t]
  rfl

variable {lexeme : Lexeme} {rest t : Text}

/-- The rule that takes a text comes behind rules that take nothing of it. -/
theorem first?_of_extent (earlier later : List TokenRule) {rule : TokenRule} {n : Nat}
    (hearlier : ∀ other ∈ earlier, other.extent t = 0) (hn : rule.extent t = n)
    (hpositive : 0 < n) : first? (earlier ++ rule :: later) t = some (rule.kind, n) := by
  induction earlier with
  | nil =>
      rw [List.nil_append, first?, List.findSome?_cons, hn, if_pos hpositive]
  | cons other earlier ih =>
      obtain ⟨hother, hearlier⟩ := List.forall_mem_cons.mp hearlier
      rw [List.cons_append, first?, List.findSome?_cons, hother]
      exact ih hearlier

/-- The rule of a word takes the word. -/
theorem first?_of_word (earlier later : List TokenRule) {rule : TokenRule} (word : Text)
    (hword : word ≠ []) (hextent : ∀ t, rule.extent t = wordLength word t)
    (hearlier : earlier.all (fun other => !word.head?.any other.opens) = true)
    (hrest : ∀ c ∈ rest.head?, isWord c = false) :
    first? (earlier ++ rule :: later) (word ++ rest) = some (rule.kind, word.length) := by
  refine first?_of_extent earlier later ?_ ?_ (List.length_pos_iff.mpr hword)
  · intro other hother
    cases word with
    | nil => exact absurd rfl hword
    | cons c word =>
        have hopens := List.all_eq_true.mp hearlier other hother
        exact extent_of_opens (by simpa using hopens) _
  · rw [hextent, Lexeme.wordLength_of_endsWord word hrest]

theorem opens_of_opensIdentifier {c : Char} (hc : opensIdentifier c = true) :
    ∀ other ∈ [doubleQuoted, singleQuoted, number], other.opens c = false := by
  simp only [List.forall_mem_cons, opens, decide_eq_false_iff_not]
  refine ⟨?_, ?_, ?_, List.forall_mem_nil _⟩
  · rintro rfl
    exact absurd hc (by decide)
  · rintro rfl
    exact absurd hc (by decide)
  · refine Bool.eq_false_iff.mpr fun hdecimal => ?_
    simp only [opensIdentifier, isAlpha_of_isDigit (isDigit_of_isDecimal hdecimal), Bool.false_or,
      decide_eq_true_eq] at hc
    subst hc
    exact absurd hdecimal (by decide)

theorem first?_of_identifier (ht : Lexeme.isIdentifier t = true)
    (hkeyword : t ∉ [("class" : Text), "def", "self"])
    (hrest : ∀ c ∈ rest.head?, isIdentifierChar c = false) :
    first? all (t ++ rest) = some (.identifier, t.length) := by
  simp only [List.mem_cons, List.not_mem_nil, or_false, not_or] at hkeyword
  obtain ⟨hclass, hdef, hself⟩ := hkeyword
  have hword : ∀ {word : Text}, Lexeme.isIdentifier word = true → t ≠ word →
      wordLength word (t ++ rest) = 0 := fun hword hne =>
    Lexeme.wordLength_of_isIdentifier hword ht hne hrest
  obtain ⟨c, more, hcons⟩ :=
    List.exists_cons_of_ne_nil (Lexeme.isIdentifierChar_of_isIdentifier ht).1
  have hopens : opensIdentifier c = true := by
    rw [hcons] at ht
    exact ((Bool.and_eq_true _ _).mp ht).1
  refine first?_of_extent ([classWord, defWord, selfWord] ++ [doubleQuoted, singleQuoted, number])
    [operator] ?_ (Lexeme.identifierLength_of_isIdentifier ht hrest) (by simp [hcons])
  refine List.forall_mem_append.mpr ⟨?_, fun other hother => ?_⟩
  · simp only [List.forall_mem_cons]
    exact ⟨hword (by decide) hclass, hword (by decide) hdef, hword (by decide) hself,
      List.forall_mem_nil _⟩
  · rw [hcons, List.cons_append]
    exact extent_of_opens (opens_of_opensIdentifier hopens other hother) _

theorem first?_of_number (hsome : t ≠ []) (ht : ∀ c ∈ t, isDecimal c = true)
    (hrest : ∀ c ∈ rest.head?, isDecimal c = false) :
    first? all (t ++ rest) = some (.number, t.length) := by
  obtain ⟨c, more, rfl⟩ := List.exists_cons_of_ne_nil hsome
  refine first?_of_extent [classWord, defWord, selfWord, doubleQuoted, singleQuoted]
    [identifier, operator] (fun other hother => extent_of_opens ?_ _) ?_ (Nat.succ_pos _)
  · have hc := ht c List.mem_cons_self
    refine Bool.eq_false_iff.mpr fun hopens => ?_
    have hquiet : ∀ other ∈ [classWord, defWord, selfWord, doubleQuoted, singleQuoted], ∀ d,
        other.opens d = true → d ∈ ['c', 'd', 's', '"', '\''] := by
      simp [opens]
    have hnone : ['c', 'd', 's', '"', '\''].all (!isDecimal ·) = true := by decide
    have hother := List.all_eq_true.mp hnone c (hquiet other hother c hopens)
    rw [hc] at hother
    cases hother
  · rw [extent, takeWhile_span ht hrest]

theorem first?_of_string (ht : Lexeme.isLiteral t = true) :
    first? all (t ++ rest) = some (.string, t.length) := by
  obtain ⟨quote, body, rfl, hquote, hbody, hbreak⟩ := Lexeme.exists_of_isLiteral ht
  have hescape : quote ≠ '\\' := by rcases hquote with rfl | rfl <;> decide
  have hlength := Lexeme.quotedLength_of_isBody hescape hbody hbreak rest
  have htotal : (quote :: (body ++ [quote])).length = body.length + 2 := by simp
  rw [htotal, List.cons_append, List.append_assoc, List.singleton_append]
  rcases hquote with rfl | rfl
  · refine first?_of_extent [classWord, defWord, selfWord] (all.drop 4) ?_ hlength (Nat.succ_pos _)
    exact fun other hother => extent_of_opens (by revert other; decide) _
  · refine first?_of_extent [classWord, defWord, selfWord, doubleQuoted] (all.drop 5) ?_ hlength
      (Nat.succ_pos _)
    exact fun other hother => extent_of_opens (by revert other; decide) _

theorem first?_of_isOperator {c : Char} (hc : isOperator c = true) :
    first? all (c :: rest) = some (.operator, 1) := by
  have hearlier : ("+-*/=(),.:" : Text).all
      (fun c => all.dropLast.all (!TokenRule.opens · c)) = true := by decide
  refine first?_of_extent all.dropLast [] (fun other hother => ?_) (if_pos hc) Nat.one_pos
  have hopens := List.all_eq_true.mp (List.all_eq_true.mp hearlier c (of_decide_eq_true hc))
  exact extent_of_opens (by simpa using hopens other hother) rest

/-- A whole lexeme at the start of a text is taken, unless the next character goes on with it. -/
theorem first?_of_isWhole (h : lexeme.isWhole = true)
    (hrest : ∀ c ∈ rest.head?, lexeme.goesOn c = false) :
    first? all (lexeme.text ++ rest) = some (lexeme.kind, lexeme.text.length) := by
  obtain ⟨kind, text⟩ := lexeme
  cases kind with
  | classKeyword =>
      obtain rfl := of_decide_eq_true h
      exact first?_of_word [] all.tail "class" (by decide) (fun _ => rfl) (by decide) hrest
  | defKeyword =>
      obtain rfl := of_decide_eq_true h
      exact first?_of_word [classWord] (all.drop 2) "def" (by decide) (fun _ => rfl) (by decide)
        hrest
  | selfKeyword =>
      obtain rfl := of_decide_eq_true h
      exact first?_of_word [classWord, defWord] (all.drop 3) "self" (by decide) (fun _ => rfl)
        (by decide) hrest
  | identifier =>
      obtain ⟨hidentifier, hkeyword⟩ := (Bool.and_eq_true _ _).mp h
      exact first?_of_identifier hidentifier (of_decide_eq_true hkeyword) hrest
  | number =>
      simp only [Lexeme.isWhole, Bool.and_eq_true, Bool.not_eq_true', List.isEmpty_eq_false_iff,
        List.all_eq_true] at h
      exact first?_of_number h.1 h.2 hrest
  | string => exact first?_of_string h
  | operator =>
      obtain ⟨c, hmark, hc⟩ := Lexeme.exists_of_isWhole_operator rfl h
      obtain rfl : text = [c] := congrArg Lexeme.text hmark
      exact first?_of_isOperator hc
  | indent => cases h

end TokenRule
end Almanac.Source
