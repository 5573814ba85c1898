import Almanac.Proofs.Source.LiteralText
import Almanac.Proofs.Source.TokenLines
import Almanac.Proofs.Text.Occurrences
import Almanac.Proofs.Text.Stripping
import Almanac.Source.Token
import Mathlib.Algebra.GroupWithZero.Nat
import Mathlib.Data.List.Range

/-!
# Columns of tokens

The tokens of a line stand one behind the other, each with the characters of the line at its column.
Up to the comment at the end of a line, or to the end of the line, no character is lost: it belongs
to one token, or it is white space between tokens, or it is one of those that no rule takes, which
are counted.
-/

namespace Almanac.Source

open Almanac.Text

/-! ## Rules -/

namespace TokenRule

theorem wordLength_le (word t : Text) : wordLength word t ≤ t.length := by
  unfold wordLength
  split
  next rest hrest =>
    obtain rfl := after?_eq_some_iff.mp hrest
    split <;> simp
  next => exact Nat.zero_le _

theorem quotedLength_le (quote : Char) (t : Text) : quotedLength quote t ≤ t.length := by
  cases t with
  | nil => rfl
  | cons c rest =>
      rw [quotedLength]
      split
      next =>
        cases hextent : Literal.extent? quote rest with
        | none => exact Nat.zero_le _
        | some n => simpa using (Literal.extent?_le_length hextent).2
      next => exact Nat.zero_le _

theorem identifierLength_le (t : Text) : identifierLength t ≤ t.length := by
  cases t with
  | nil => rfl
  | cons c rest =>
      have hmore := (List.takeWhile_sublist (p := isIdentifierChar) (l := rest)).length_le
      rw [identifierLength]
      split
      · rw [List.length_cons]
        omega
      · exact Nat.zero_le _

/-- No rule takes more characters than there are. -/
theorem extent_le_length (rule : TokenRule) (t : Text) : rule.extent t ≤ t.length := by
  cases rule with
  | classWord => exact wordLength_le "class" t
  | defWord => exact wordLength_le "def" t
  | selfWord => exact wordLength_le "self" t
  | doubleQuoted => exact quotedLength_le '"' t
  | singleQuoted => exact quotedLength_le '\'' t
  | number => exact (List.takeWhile_sublist _).length_le
  | identifier => exact identifierLength_le t
  | operator =>
      cases t with
      | nil => rfl
      | cons c rest =>
          rw [extent]
          split <;> simp

/-- The rule is the first one of the table that takes characters from the start of the text. -/
def IsFirst (rules : List TokenRule) (t : Text) (rule : TokenRule) : Prop :=
  0 < rule.extent t ∧ ∃ earlier later, rules = earlier ++ rule :: later ∧
    ∀ other ∈ earlier, other.extent t = 0

theorem exists_isFirst {rules : List TokenRule} {t : Text} {kind : TokenKind} {length : Nat}
    (hfirst : first? rules t = some (kind, length)) :
    ∃ rule, IsFirst rules t rule ∧ rule.kind = kind ∧ rule.extent t = length := by
  obtain ⟨earlier, rule, later, rfl, hrule, hearlier⟩ := List.findSome?_eq_some_iff.mp hfirst
  split at hrule
  next hsome =>
    obtain ⟨rfl, rfl⟩ := Prod.mk.inj (Option.some.inj hrule)
    refine ⟨rule, ⟨hsome, earlier, later, rfl, fun other hother => ?_⟩, rfl, rfl⟩
    have hnone := hearlier other hother
    by_contra hextent
    rw [if_pos (Nat.pos_of_ne_zero hextent)] at hnone
    cases hnone
  next => cases hrule

end TokenRule

/-! ## Characters of a line -/

/-- Is the character at the given place of its line one of the token's? -/
def Token.covers (token : Token) (place : Nat) : Bool :=
  token.column ≤ place && place < token.column + token.text.length

theorem Token.covers_iff {token : Token} {place : Nat} : token.covers place = true ↔
    token.column ≤ place ∧ place < token.column + token.text.length := by
  simp [covers]

/-- Is the character at the given place one of a token's? -/
def isCovered (tokens : List Token) (place : Nat) : Bool :=
  tokens.any fun token => token.covers place

theorem isCovered_eq_false {tokens : List Token} {place : Nat} : isCovered tokens place = false ↔
    ∀ token ∈ tokens, token.covers place = false := by
  simp [isCovered]

theorem countP_covers_eq_zero {tokens : List Token} {place : Nat}
    (hnone : ∀ token ∈ tokens, token.covers place = false) :
    tokens.countP (·.covers place) = 0 := by
  rw [List.countP_eq_zero]
  exact fun token htoken => Bool.eq_false_iff.mp (hnone token htoken)

/-- Is there white space outside of the tokens at the given place of the line? -/
def isGap (tokens : List Token) (line : Text) (place : Nat) : Bool :=
  !isCovered tokens place && (line.drop place).head?.any isBlank

/-- Is there a character outside of the tokens at the given place of the line that no rule takes? -/
def isSkipped (rules : List TokenRule) (tokens : List Token) (line : Text) (place : Nat) : Bool :=
  !isCovered tokens place && (line.drop place).head?.any (!isBlank ·) &&
    (TokenRule.first? rules (line.drop place)).isNone

/-- The place of the first `#` outside of the tokens, or the end of the line. -/
def codeEnd (tokens : List Token) (line : Text) : Nat :=
  line.zipIdx.findIdx fun entry => entry.1 = '#' && !isCovered tokens entry.2

/-- The token is the leading spaces of the line, or what the first rule takes at its column. -/
def IsRead (rules : List TokenRule) (line : Text) (token : Token) : Prop :=
  if token.kind = .indent then token.column = 0 ∧ token.text = line.takeWhile (· = ' ')
  else ∃ rule, TokenRule.IsFirst rules (line.drop token.column) rule ∧ token.kind = rule.kind ∧
    token.text.length = rule.extent (line.drop token.column)

/-- A reading of a line from one place to another: what is read are tokens, white space and
characters that no rule takes, and behind it there is a `#` or nothing. -/
inductive Reads (rules : List TokenRule) (line : Text) : Nat → Nat → TokenStream → Prop
  | stop {place : Nat} (hplace : place ≤ line.length)
      (hend : ∀ c ∈ (line.drop place).head?, c = '#') : Reads rules line place place .empty
  | blank {place stop : Nat} {c : Char} {stream : TokenStream}
      (hc : (line.drop place).head? = some c) (hblank : isBlank c = true)
      (h : Reads rules line (place + 1) stop stream) : Reads rules line place stop stream
  | skip {place stop : Nat} {c : Char} {stream : TokenStream}
      (hc : (line.drop place).head? = some c) (hblank : isBlank c = false) (hsign : c ≠ '#')
      (hnone : TokenRule.first? rules (line.drop place) = none)
      (h : Reads rules line (place + 1) stop stream) : Reads rules line place stop stream.skip
  | token {place stop : Nat} {token : Token} {stream : TokenStream} (hcolumn : token.column = place)
      (hsome : token.text ≠ [])
      (hslice : (line.drop token.column).take token.text.length = token.text)
      (hread : IsRead rules line token)
      (h : Reads rules line (place + token.text.length) stop stream) :
      Reads rules line place stop (stream.cons token)

theorem drop_succ_of_eq_cons {line rest : Text} {c : Char} {place : Nat}
    (h : line.drop place = c :: rest) : place < line.length ∧ line.drop (place + 1) = rest := by
  constructor
  · by_contra hlength
    rw [List.drop_eq_nil_of_le (not_lt.mp hlength)] at h
    cases h
  · rw [← List.tail_drop, h]
    rfl

/-- A rule takes a part of a line that lies within the line, and is read in it. -/
theorem token_of_isFirst {rules : List TokenRule} {rule : TokenRule} {line t : Text}
    {column : Nat} (ht : line.drop column = t) (hcolumn : column ≤ line.length)
    (hrule : TokenRule.IsFirst rules t rule) (number : Nat) :
    let token : Token := ⟨rule.kind, t.take (rule.extent t), number, column⟩
    token.text.length = rule.extent t ∧ column + rule.extent t ≤ line.length ∧
      (line.drop column).take token.text.length = token.text ∧ IsRead rules line token := by
  have hextent := TokenRule.extent_le_length rule t
  have hlength : (t.take (rule.extent t)).length = rule.extent t := List.length_take_of_le hextent
  have hkind : rule.kind ≠ .indent := by cases rule <;> decide
  refine ⟨hlength, ?_, by rw [hlength, ht], ?_⟩
  · have hrest : t.length = line.length - column := by rw [← ht, List.length_drop]
    omega
  · rw [IsRead, if_neg hkind, hlength, ht]
    exact ⟨rule, hrule, rfl, rfl⟩

theorem reads_ofRest (rules : List TokenRule) (number : Nat) {line t : Text} {column : Nat}
    (ht : line.drop column = t) (hcolumn : column ≤ line.length) :
    ∃ stop, Reads rules line column stop (.ofRest rules number column t) := by
  fun_induction TokenStream.ofRest rules number column t with
  | case1 column =>
      refine ⟨column, .stop hcolumn ?_⟩
      rw [ht]
      simp
  | case2 column c rest hblank ih =>
      obtain ⟨hlength, hrest⟩ := drop_succ_of_eq_cons ht
      obtain ⟨stop, hstop⟩ := ih hrest hlength
      exact ⟨stop, .blank (by rw [ht]; rfl) hblank hstop⟩
  | case3 column rest hblank =>
      refine ⟨column, .stop hcolumn ?_⟩
      rw [ht]
      simp
  | case4 column c rest hblank hsign hnone ih =>
      obtain ⟨hlength, hrest⟩ := drop_succ_of_eq_cons ht
      obtain ⟨stop, hstop⟩ := ih hrest hlength
      exact ⟨stop, .skip (by rw [ht]; rfl) (by simpa using hblank) hsign (ht ▸ hnone) hstop⟩
  | case5 column c rest hblank hsign kind length hfirst ih =>
      obtain ⟨rule, hrule, rfl, rfl⟩ := TokenRule.exists_isFirst hfirst
      have hpositive := hrule.1
      obtain ⟨hlength, hbound, hslice, hread⟩ := token_of_isFirst ht hcolumn hrule number
      have hbehind : line.drop (column + rule.extent (c :: rest)) =
          rest.drop (rule.extent (c :: rest) - 1) := by
        rw [← List.drop_drop, ht, ← Nat.sub_add_cancel hpositive, List.drop_succ_cons]
        rfl
      obtain ⟨stop, hstop⟩ := ih hbehind hbound
      refine ⟨stop, .token rfl ?_ hslice hread ?_⟩
      · exact List.ne_nil_of_length_pos (hlength.symm ▸ hpositive)
      · rwa [hlength]

/-! ## Lines -/

theorem ofRest_blank_append (rules : List TokenRule) (number column : Nat) {blanks : Text}
    (hblank : ∀ c ∈ blanks, isBlank c = true) (t : Text) :
    TokenStream.ofRest rules number column (blanks ++ t) =
      .ofRest rules number (column + blanks.length) t := by
  induction blanks generalizing column with
  | nil => rfl
  | cons c blanks ih =>
      obtain ⟨hc, hrest⟩ := List.forall_mem_cons.mp hblank
      rw [List.cons_append, TokenStream.ofRest, if_pos hc, ih (column + 1) hrest, List.length_cons,
        Nat.add_assoc, Nat.add_comm 1]

theorem ofRest_of_isIgnorable {line : Text} (hline : TokenStream.isIgnorable line = true)
    (rules : List TokenRule) (number column : Nat) :
    TokenStream.ofRest rules number column line = .empty := by
  obtain ⟨front, back, hfront, hback, hsplit⟩ := exists_strip_between line
  rw [hsplit, ofRest_blank_append rules number column hfront]
  unfold TokenStream.isIgnorable at hline
  split at hline
  next hnil =>
    have hend := ofRest_blank_append rules number (column + front.length) hback []
    rw [hnil, List.nil_append]
    rw [List.append_nil] at hend
    rw [hend, TokenStream.ofRest]
  next c rest hcons =>
    obtain rfl : c = '#' := by simpa using hline
    rw [hcons, List.cons_append, TokenStream.ofRest, if_neg (by decide), if_pos rfl]

theorem reads_ofLine (rules : List TokenRule) (number : Nat) (line : Text) :
    ∃ stop, Reads rules line 0 stop (.ofLine rules number line) := by
  unfold TokenStream.ofLine
  split
  next hline =>
    rw [← ofRest_of_isIgnorable hline rules number 0]
    exact reads_ofRest rules number List.drop_zero (Nat.zero_le _)
  next =>
    have hsplit : line.takeWhile (· = ' ') ++ line.dropWhile (· = ' ') = line :=
      List.takeWhile_append_dropWhile
    have hbehind : line.drop (line.takeWhile (· = ' ')).length = line.dropWhile (· = ' ') :=
      (congrArg (List.drop _) hsplit.symm).trans List.drop_left
    obtain ⟨stop, hstop⟩ := reads_ofRest rules number hbehind
      (List.takeWhile_sublist _).length_le
    dsimp only
    split
    next hnone =>
      rw [List.isEmpty_iff] at hnone
      rw [hnone] at hstop ⊢
      exact ⟨stop, hstop⟩
    next hsome =>
      refine ⟨stop, .token rfl ?_ ?_ ?_ ?_⟩
      · exact fun hnil => hsome (List.isEmpty_iff.mpr hnil)
      · exact (congrArg (List.take _) hsplit.symm).trans List.take_left
      · exact ⟨rfl, rfl⟩
      · rwa [Nat.zero_add]

/-! ## Readings -/

@[simp] theorem TokenStream.tokens_cons (token : Token) (stream : TokenStream) :
    (stream.cons token).tokens = token :: stream.tokens := rfl

theorem TokenStream.skipped_cons (token : Token) (stream : TokenStream) :
    (stream.cons token).skipped = stream.skipped := rfl

theorem TokenStream.tokens_skip (stream : TokenStream) : stream.skip.tokens = stream.tokens := rfl

theorem TokenStream.skipped_skip (stream : TokenStream) :
    stream.skip.skipped = stream.skipped + 1 := rfl

theorem range'_of_lt {first stop : Nat} (h : first < stop) :
    List.range' first (stop - first) = first :: List.range' (first + 1) (stop - (first + 1)) := by
  rw [← List.range'_succ]
  congr 1
  omega

/-- A token takes its own characters, and none behind it. -/
theorem countP_isSkipped_token {place count : Nat} {token : Token} (hcolumn : token.column = place)
    (rules : List TokenRule) (tokens : List Token) (line : Text) :
    (List.range' place (token.text.length + count)).countP
        (isSkipped rules (token :: tokens) line) =
      (List.range' (place + token.text.length) count).countP (isSkipped rules tokens line) := by
  have hwithin : (List.range' place token.text.length).countP
      (isSkipped rules (token :: tokens) line) = 0 := by
    rw [List.countP_eq_zero]
    intro other hother
    have hcovers : token.covers other = true :=
      Token.covers_iff.mpr (by rw [List.mem_range'_1] at hother; omega)
    simp [isSkipped, isCovered, hcovers]
  rw [← List.range'_append_1, List.countP_append, hwithin, Nat.zero_add]
  refine List.countP_congr fun other hother => ?_
  have hcovers : token.covers other = false := by
    rw [List.mem_range'_1] at hother
    rw [Bool.eq_false_iff, Ne, Token.covers_iff]
    omega
  simp [isSkipped, isCovered, hcovers]

namespace Reads

variable {rules : List TokenRule} {line : Text} {first stop : Nat} {stream : TokenStream}

theorem le (h : Reads rules line first stop stream) : first ≤ stop ∧ stop ≤ line.length := by
  induction h with
  | stop hplace _ => exact ⟨le_rfl, hplace⟩
  | blank _ _ _ ih => omega
  | skip _ _ _ _ _ ih => omega
  | token _ _ _ _ _ ih => omega

/-- The tokens stand within the part of the line that is read. -/
theorem bounds (h : Reads rules line first stop stream) : ∀ token ∈ stream.tokens,
    first ≤ token.column ∧ token.column + token.text.length ≤ stop := by
  induction h with
  | stop => simp [TokenStream.empty]
  | blank _ _ _ ih =>
      intro token htoken
      obtain ⟨hcolumn, hend⟩ := ih token htoken
      omega
  | skip _ _ _ _ _ ih =>
      intro token htoken
      obtain ⟨hcolumn, hend⟩ := ih token htoken
      omega
  | token hcolumn _ _ _ h ih =>
      refine List.forall_mem_cons.mpr ⟨⟨hcolumn.ge, ?_⟩, fun token htoken => ?_⟩
      · have hle := h.le
        omega
      · obtain ⟨hcolumn, hend⟩ := ih token htoken
        omega

/-- Each token has the characters at its column, at least one, and is read there. -/
theorem tokens (h : Reads rules line first stop stream) : ∀ token ∈ stream.tokens,
    token.text ≠ [] ∧ (line.drop token.column).take token.text.length = token.text ∧
      IsRead rules line token := by
  induction h with
  | stop => simp [TokenStream.empty]
  | blank _ _ _ ih => exact ih
  | skip _ _ _ _ _ ih => exact ih
  | token _ hsome hslice hread _ ih =>
      exact List.forall_mem_cons.mpr ⟨⟨hsome, hslice, hread⟩, ih⟩

/-- A token begins where the one before it has ended, or later. -/
theorem pairwise (h : Reads rules line first stop stream) :
    stream.tokens.Pairwise fun a b => a.column + a.text.length ≤ b.column := by
  induction h with
  | stop => exact List.Pairwise.nil
  | blank _ _ _ ih => exact ih
  | skip _ _ _ _ _ ih => exact ih
  | token hcolumn _ _ _ h ih =>
      refine List.pairwise_cons.mpr ⟨fun token htoken => ?_, ih⟩
      have hbehind := (h.bounds token htoken).1
      omega

theorem covers_eq_false (h : Reads rules line first stop stream) {place : Nat}
    (hplace : place < first ∨ stop ≤ place) : ∀ token ∈ stream.tokens,
      token.covers place = false := by
  intro token htoken
  obtain ⟨hcolumn, hend⟩ := h.bounds token htoken
  rw [Bool.eq_false_iff, Ne, Token.covers_iff]
  omega

/-- The line is read up to a `#` or to its end. -/
theorem sign_of_stop (h : Reads rules line first stop stream) :
    ∀ c ∈ (line.drop stop).head?, c = '#' := by
  induction h with
  | stop _ hend => exact hend
  | blank _ _ _ ih => exact ih
  | skip _ _ _ _ _ ih => exact ih
  | token _ _ _ _ _ ih => exact ih

/-- A character that is read belongs to one token, or it is white space, or no rule takes it. -/
theorem cases_place (h : Reads rules line first stop stream) {place : Nat} (hfirst : first ≤ place)
    (hstop : place < stop) : stream.tokens.countP (·.covers place) = 1 ∨
      (∀ token ∈ stream.tokens, token.covers place = false) ∧
        ∃ c, (line.drop place).head? = some c ∧ c ≠ '#' ∧
          (isBlank c = true ∨ TokenRule.first? rules (line.drop place) = none) := by
  induction h with
  | stop => omega
  | @blank here _ c _ hc hblank h ih =>
      rcases hfirst.eq_or_lt with rfl | hlater
      · refine .inr ⟨h.covers_eq_false (.inl (Nat.lt_succ_self _)), c, hc, ?_, .inl hblank⟩
        rintro rfl
        exact absurd hblank (by decide)
      · exact ih hlater hstop
  | @skip here _ c _ hc hblank hsign hnone h ih =>
      rcases hfirst.eq_or_lt with rfl | hlater
      · exact .inr ⟨h.covers_eq_false (.inl (Nat.lt_succ_self _)), c, hc, hsign, .inr hnone⟩
      · exact ih hlater hstop
  | @token here _ token stream hcolumn hsome hslice hread h ih =>
      by_cases hplace : place < here + token.text.length
      · left
        have hcovers : token.covers place = true := Token.covers_iff.mpr (by omega)
        have hrest := countP_covers_eq_zero (h.covers_eq_false (.inl hplace))
        rw [TokenStream.tokens_cons, List.countP_cons, hrest, hcovers, if_pos rfl]
      · have hcovers : token.covers place = false := by
          rw [Bool.eq_false_iff, Ne, Token.covers_iff]
          omega
        rcases ih (by omega) hstop with hone | ⟨hnone, hothers⟩
        · left
          rw [TokenStream.tokens_cons, List.countP_cons, hone, hcovers, if_neg Bool.false_ne_true]
        · exact .inr ⟨List.forall_mem_cons.mpr ⟨hcovers, hnone⟩, hothers⟩

/-- Up to where the line is read every sign of a comment belongs to a token. -/
theorem isCovered_of_sign (h : Reads rules line first stop stream) {place : Nat}
    (hfirst : first ≤ place) (hstop : place < stop)
    (hsign : (line.drop place).head? = some '#') : isCovered stream.tokens place = true := by
  rcases h.cases_place hfirst hstop with hone | ⟨-, c, hc, hne, -⟩
  · by_contra hnone
    have hzero := countP_covers_eq_zero (isCovered_eq_false.mp (Bool.eq_false_iff.mpr hnone))
    omega
  · rw [hsign] at hc
    exact absurd (Option.some.inj hc).symm hne

/-- A line is read from its beginning up to the end of its code. -/
theorem codeEnd_eq (h : Reads rules line 0 stop stream) : codeEnd stream.tokens line = stop := by
  have hcovered : ∀ place (hplace : place < stop) (hlength : place < line.zipIdx.length),
      (decide (line.zipIdx[place].1 = '#') && !isCovered stream.tokens line.zipIdx[place].2) =
        false := by
    intro place hplace hlength
    rw [List.getElem_zipIdx, Bool.and_eq_false_iff, decide_eq_false_iff_not]
    by_cases hsign : (line.drop place).head? = some '#'
    · right
      rw [Nat.zero_add, h.isCovered_of_sign (Nat.zero_le _) hplace hsign]
      rfl
    · left
      rw [List.length_zipIdx] at hlength
      rwa [List.head?_drop, List.getElem?_eq_getElem hlength, Option.some_inj] at hsign
  unfold codeEnd
  rcases h.le.2.eq_or_lt with rfl | hlength
  · rw [List.findIdx_eq_length_of_false, List.length_zipIdx]
    intro entry hentry
    obtain ⟨place, hplace, rfl⟩ := List.mem_iff_getElem.mp hentry
    exact hcovered place (by rwa [List.length_zipIdx] at hplace) hplace
  · have hplace : stop < line.zipIdx.length := by rwa [List.length_zipIdx]
    rw [List.findIdx_eq hplace]
    refine ⟨?_, fun place hbefore => hcovered place hbefore _⟩
    have hsign := h.sign_of_stop (line.get ⟨stop, hlength⟩) <| by
      rw [List.head?_drop]
      exact List.getElem?_eq_getElem hlength
    have huncovered := isCovered_eq_false.mpr (h.covers_eq_false (.inr le_rfl))
    simpa [huncovered] using hsign

/-- As many characters are counted as no rule takes. -/
theorem skipped_eq (h : Reads rules line first stop stream) : stream.skipped =
    (List.range' first (stop - first)).countP (isSkipped rules stream.tokens line) := by
  induction h with
  | stop => simp [TokenStream.empty]
  | @blank here stop c stream hc hblank h ih =>
      have hhere : isSkipped rules stream.tokens line here = false := by
        simp [isSkipped, hc, hblank]
      rw [range'_of_lt h.le.1, List.countP_cons, hhere, ← ih]
      rfl
  | @skip here stop c stream hc hblank hsign hnone h ih =>
      have huncovered := isCovered_eq_false.mpr (h.covers_eq_false (.inl (Nat.lt_succ_self here)))
      have hhere : isSkipped rules stream.tokens line here = true := by
        simp [isSkipped, hc, hblank, hnone, huncovered]
      rw [range'_of_lt h.le.1, List.countP_cons, TokenStream.tokens_skip, hhere, if_pos rfl,
        TokenStream.skipped_skip, ih]
  | @token here stop token stream hcolumn hsome hslice hread h ih =>
      have hrange : stop - here = token.text.length + (stop - (here + token.text.length)) := by
        have hle := h.le
        omega
      rw [hrange, TokenStream.tokens_cons, countP_isSkipped_token hcolumn, ← ih,
        TokenStream.skipped_cons]

/-- A character that is read belongs to one token, or is white space, or is skipped, and only one of
these. -/
theorem once (h : Reads rules line first stop stream) {place : Nat} (hfirst : first ≤ place)
    (hstop : place < stop) : stream.tokens.countP (·.covers place) +
      (isGap stream.tokens line place).toNat +
        (isSkipped rules stream.tokens line place).toNat = 1 := by
  rcases h.cases_place hfirst hstop with hone | ⟨hnone, c, hc, -, hkind⟩
  · have hcovered : isCovered stream.tokens place = true := by
      obtain ⟨token, htoken, hcovers⟩ := List.countP_pos_iff.mp (hone ▸ Nat.one_pos)
      exact List.any_eq_true.mpr ⟨token, htoken, hcovers⟩
    simp [hone, isGap, isSkipped, hcovered]
  · have hzero := countP_covers_eq_zero hnone
    have huncovered := isCovered_eq_false.mpr hnone
    cases hblank : isBlank c with
    | true => simp [hzero, isGap, isSkipped, huncovered, hc, hblank]
    | false =>
        have hrule := hkind.resolve_left (by simp [hblank])
        simp [hzero, isGap, isSkipped, huncovered, hc, hblank, hrule]

end Reads

/-! ## Texts -/

/-- The tokens of a line keep its characters up to the end of its code. -/
structure KeepsLine (rules : List TokenRule) (line : Text) (tokens : List Token) : Prop where
  /-- A blank line has no tokens, nor has one with a comment only. -/
  ignorable : TokenStream.isIgnorable line = true → tokens = []
  columns : (tokens.map Token.column).Pairwise (· < ·)
  apart : tokens.Pairwise fun a b => a.column + a.text.length ≤ b.column
  slices : ∀ token ∈ tokens, (line.drop token.column).take token.text.length = token.text
  read : ∀ token ∈ tokens, IsRead rules line token
  beforeEnd : ∀ token ∈ tokens, token.column + token.text.length ≤ codeEnd tokens line
  /-- Each character stands in one token, or is white space, or is skipped. -/
  once : ∀ place < codeEnd tokens line, tokens.countP (·.covers place) +
    (isGap tokens line place).toNat + (isSkipped rules tokens line place).toNat = 1

/-- How many characters of the line no rule takes, up to the end of its code. -/
def skippedPlaces (rules : List TokenRule) (tokens : List Token) (line : Text) : Nat :=
  (List.range (codeEnd tokens line)).countP (isSkipped rules tokens line)

theorem keepsLine_ofLine (rules : List TokenRule) (number : Nat) (line : Text) :
    KeepsLine rules line (TokenStream.ofLine rules number line).tokens := by
  obtain ⟨stop, h⟩ := reads_ofLine rules number line
  refine ⟨fun hline => ?_, ?_, h.pairwise, fun token htoken => (h.tokens token htoken).2.1,
    fun token htoken => (h.tokens token htoken).2.2, ?_, ?_⟩
  · rw [TokenStream.ofLine, if_pos hline]
    rfl
  · rw [List.pairwise_map]
    refine h.pairwise.imp_of_mem fun {a b} ha _ hapart => ?_
    have hsome := List.length_pos_of_ne_nil (h.tokens a ha).1
    omega
  · rw [h.codeEnd_eq]
    exact fun token htoken => (h.bounds token htoken).2
  · rw [h.codeEnd_eq]
    exact fun place hplace => h.once (Nat.zero_le _) hplace

theorem skipped_ofLine (rules : List TokenRule) (number : Nat) (line : Text) :
    (TokenStream.ofLine rules number line).skipped =
      skippedPlaces rules (TokenStream.ofLine rules number line).tokens line := by
  obtain ⟨stop, h⟩ := reads_ofLine rules number line
  rw [skippedPlaces, h.codeEnd_eq, h.skipped_eq, List.range_eq_range', Nat.sub_zero]

/-- The tokens that carry the number of a line. -/
def tokensOn (tokens : List Token) (number : Nat) : List Token :=
  tokens.filter fun token => token.line = number

/-- The tokens with the number of a line are those that are cut from it. -/
theorem tokensOn_ofLines (rules : List TokenRule) {number : Nat} {lines : List Text}
    {entry : Text × Nat} (hentry : entry ∈ lines.zipIdx number) :
    tokensOn (TokenStream.ofLines rules number lines).tokens entry.2 =
      (TokenStream.ofLine rules entry.2 entry.1).tokens := by
  unfold tokensOn
  induction lines generalizing number with
  | nil => cases hentry
  | cons line rest ih =>
      rw [TokenStream.ofLines, TokenStream.append, List.filter_append]
      rcases List.mem_cons.mp hentry with rfl | hlater
      · have hhere : (TokenStream.ofLine rules number line).tokens.filter
            (fun token => token.line = number) = (TokenStream.ofLine rules number line).tokens := by
          rw [List.filter_eq_self]
          intro token htoken
          rw [decide_eq_true_iff]
          exact TokenStream.line_of_mem_ofLine rules number line htoken
        have hbehind : (TokenStream.ofLines rules (number + 1) rest).tokens.filter
            (fun token => token.line = number) = [] := by
          rw [List.filter_eq_nil_iff]
          intro token htoken
          have hline := TokenStream.line_of_mem_ofLines rules (number + 1) rest htoken
          rw [decide_eq_true_iff]
          omega
        rw [hhere, hbehind, List.append_nil]
      · have hnumber := List.le_snd_of_mem_zipIdx hlater
        have hhere : (TokenStream.ofLine rules number line).tokens.filter
            (fun token => token.line = entry.2) = [] := by
          rw [List.filter_eq_nil_iff]
          intro token htoken
          have hline := TokenStream.line_of_mem_ofLine rules number line htoken
          rw [decide_eq_true_iff]
          omega
        rw [hhere, List.nil_append, ih hlater]

theorem skipped_ofLines (rules : List TokenRule) (number : Nat) (lines : List Text) :
    (TokenStream.ofLines rules number lines).skipped = ((lines.zipIdx number).map
      fun entry => (TokenStream.ofLine rules entry.2 entry.1).skipped).sum := by
  induction lines generalizing number with
  | nil => rfl
  | cons line rest ih =>
      rw [TokenStream.ofLines, TokenStream.append, ih, List.zipIdx_cons, List.map_cons,
        List.sum_cons]

namespace Tokenizer

theorem cutLines_eq (tokenizer : Tokenizer) (number : Nat) (lines : List Text) :
    tokenizer.cutLines number lines = ((TokenStream.ofLines tokenizer.rules number lines).tokens,
      { tokenizer with
        skipped := tokenizer.skipped + (TokenStream.ofLines tokenizer.rules number lines).skipped
      }) := by
  induction lines generalizing tokenizer number with
  | nil => rfl
  | cons line rest ih =>
      rw [cutLines]
      dsimp only
      rw [ih, TokenStream.ofLines, TokenStream.append, Nat.add_assoc]

theorem tokenize_eq (tokenizer : Tokenizer) (t : Text) :
    tokenizer.tokenize t = ((TokenStream.ofText tokenizer.rules t).tokens,
      ⟨tokenizer.rules, (TokenStream.ofText tokenizer.rules t).skipped⟩) := by
  rw [tokenize, cutLines_eq, Nat.zero_add]
  rfl

/-- The tokens of a text, and the tokenizer behind it, account for the characters of the text. -/
structure Accounts (rules : List TokenRule) (t : Text) (tokens : List Token) (after : Tokenizer) :
    Prop where
  numbers : ∀ token ∈ tokens, 1 ≤ token.line ∧ token.line ≤ (lines t).length
  keeps : ∀ entry ∈ (lines t).zipIdx 1, KeepsLine rules entry.1 (tokensOn tokens entry.2)
  skipped : after.skipped = (((lines t).zipIdx 1).map fun entry =>
    skippedPlaces rules (tokensOn tokens entry.2) entry.1).sum
  rules : after.rules = rules

/-- Whatever a tokenizer has counted in earlier texts, its tokens keep the characters of each line
of a text up to a comment, and its count is the number of those that no rule takes. -/
theorem tokenize_accounts (tokenizer : Tokenizer) (t : Text) :
    Accounts tokenizer.rules t (tokenizer.tokenize t).1 (tokenizer.tokenize t).2 := by
  rw [tokenize_eq]
  refine ⟨fun token htoken => ?_, fun entry hentry => ?_, ?_, rfl⟩
  · have hnumber := TokenStream.line_of_mem_ofLines tokenizer.rules 1 (lines t) htoken
    omega
  · rw [TokenStream.ofText, tokensOn_ofLines tokenizer.rules hentry]
    exact keepsLine_ofLine tokenizer.rules entry.2 entry.1
  · rw [TokenStream.ofText, skipped_ofLines]
    refine congrArg List.sum (List.map_congr_left fun entry hentry => ?_)
    have hskipped := skipped_ofLine tokenizer.rules entry.2 entry.1
    rw [← tokensOn_ofLines tokenizer.rules hentry] at hskipped
    exact hskipped

example : (⟨TokenRule.all, 3⟩ : Tokenizer).tokenize "  day = $1  # $\n# x\n'#" =
    ([⟨.indent, "  ", 1, 0⟩, ⟨.identifier, "day", 1, 2⟩, ⟨.operator, "=", 1, 6⟩,
      ⟨.number, "1", 1, 9⟩], ⟨TokenRule.all, 2⟩) := by
  decide +kernel

end Tokenizer
end Almanac.Source
