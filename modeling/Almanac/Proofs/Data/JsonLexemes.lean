import Almanac.Data.Json.Printer
import Almanac.Data.Json.Reader
import Almanac.Proofs.Text.DecimalDigits
import Almanac.Proofs.Text.Spans
import Mathlib.Data.List.TakeWhile

/-!
# Lexemes of written values

The written form of a text, of an integer and of a word is cut into one lexeme that holds the
value again. An escaped text ends at the quote behind it, since no quote within it stands without
a backslash; an integer ends where something follows that cannot continue a number.
-/

namespace Almanac.Data.Json

open Almanac.Text (isPlainDigit)

/-- What holds of the lexeme at the start of every text, and of the end, holds of all lexemes. -/
theorem forall_lexemes {P : Lexeme → Prop} (hfinish : P .finish)
    (hlexeme : ∀ position c rest, P (lexeme position c rest).1) {position : Nat} {t : Text} :
    ∀ p ∈ lexemes position t, P p.lexeme := by
  intro p hp
  fun_induction lexemes position t with
  | case1 position =>
      obtain rfl := List.mem_singleton.mp hp
      exact hfinish
  | case2 position c rest hspace ih => exact ih hp
  | case3 position c rest hspace found length hfound ih =>
      rcases List.mem_cons.mp hp with rfl | hmore
      · have hfirst := hlexeme position c rest
        rwa [hfound] at hfirst
      · exact ih hmore

/-! ## Texts -/

/-- The escaped characters of a text. -/
def escapedText (t : Text) : Text :=
  t.flatMap escapeChar

@[simp] theorem escapedText_cons (c : Char) (t : Text) :
    escapedText (c :: t) = escapeChar c ++ escapedText t := rfl

/-- The written form of a text without halves of surrogate pairs has none either. -/
theorem writtenText_wide (t : Text) :
    writtenText t.wide = Text.wide ('"' :: escapedText t ++ ['"']) := by
  have hescaped : t.wide.flatMap escapePoint = (escapedText t).wide := by
    induction t with
    | nil => rfl
    | cons c t ih => rw [escapedText_cons, Text.wide_append, ← ih]; rfl
  rw [writtenText, hescaped]
  simp

/-- A control character is written with four hexadecimal digits that stand for it. -/
theorem hexDigits_control : ∀ n < 32, ∃ a b c d, Text.hexDigits 4 n = [a, b, c, d] ∧
    Text.hexNumber? [a, b, c, d] = some n := by
  intro n hn
  refine ⟨(Text.hexDigits 4 n).getD 0 '0', (Text.hexDigits 4 n).getD 1 '0',
    (Text.hexDigits 4 n).getD 2 '0', (Text.hexDigits 4 n).getD 3 '0', ?_⟩
  revert n
  decide

/-- The written form of a character: itself, or a backslash and a letter for it, or an escape by
number for a control character. -/
inductive Escapes (c : Char) : Text → Prop
  | plain (hquote : c ≠ '"') (hslash : c ≠ '\\') (hcontrol : ¬ c.toNat < 32) : Escapes c [c]
  | letter (e : Char) (hletter : e ≠ 'u') (hescaped : escaped? e = some c) : Escapes c ['\\', e]
  | number (hcontrol : c.toNat < 32) : Escapes c ("\\u" ++ Text.hexDigits 4 c.toNat)

theorem escapes_escapeChar (c : Char) : Escapes c (escapeChar c) := by
  unfold escapeChar
  split_ifs with h1 h2 h3 h4 h5 h6 h7 h8
  · subst h1; exact .letter '"' (by decide) rfl
  · subst h2; exact .letter '\\' (by decide) rfl
  · subst h3; exact .letter 'n' (by decide) rfl
  · subst h4; exact .letter 'r' (by decide) rfl
  · subst h5; exact .letter 't' (by decide) rfl
  · subst h6; exact .letter 'b' (by decide) rfl
  · subst h7; exact .letter 'f' (by decide) rfl
  · exact .number h8
  · exact .plain h1 h2 h8

/-- A written character is read as the character, and reading goes on behind it. -/
theorem textBody_escape {c : Char} {written : Text} (hwritten : Escapes c written)
    (start position : Nat) {rest : Text} {more : WideText} {n : Nat} (hrest : rest ≠ [])
    (hmore : ∀ later, textBody start later rest = .ok (more, n)) :
    textBody start position (written ++ rest) = .ok (.char c :: more, n + written.length) := by
  cases hwritten with
  | plain hquote hslash hcontrol =>
      rw [List.singleton_append, textBody.eq_def]
      simp [hquote, hslash, hcontrol, hmore]
  | letter e hletter hescaped =>
      rw [List.cons_append, List.singleton_append, textBody]
      simp [hletter, hescaped, hmore]
  | number hcontrol =>
      obtain ⟨a, b, x, y, hdigits, hvalue⟩ := hexDigits_control c.toNat hcontrol
      have hquad : hexQuad? (a :: b :: x :: y :: rest) = some c.toNat := hvalue
      have hlength : 1 ≤ rest.length := List.length_pos_iff.mpr hrest
      have hsurrogate : ¬ (0xD800 ≤ c.toNat ∧ c.toNat ≤ 0xDBFF) := by omega
      have hpoint : codePoint c.toNat = .char c := by
        rw [codePoint, if_neg (by omega), Char.ofNat_toNat]
      have htext : ("\\u" ++ Text.hexDigits 4 c.toNat : Text) ++ rest =
          '\\' :: 'u' :: a :: b :: x :: y :: rest := by
        rw [hdigits]
        rfl
      rw [htext, textBody]
      simp [hlength, hquad, hsurrogate, hmore, hpoint, hdigits]

/-- The written form of a text is read as the text. -/
theorem textBody_escapedText (start position : Nat) (t rest : Text) :
    textBody start position (escapedText t ++ '"' :: rest) =
      .ok (t.wide, (escapedText t).length + 1) := by
  induction t generalizing position with
  | nil =>
      rw [escapedText, List.flatMap_nil, List.nil_append, textBody.eq_def]
      simp
  | cons c t ih =>
      rw [escapedText_cons, List.append_assoc,
        textBody_escape (escapes_escapeChar c) start position (by simp) fun later => ih later]
      simp only [List.length_append, Text.wide_cons]
      congr 2
      omega

theorem lexeme_writtenText (position : Nat) (t rest : Text) :
    lexeme position '"' (escapedText t ++ '"' :: rest) =
      (.scalar (.str t.wide), (escapedText t).length + 2) := by
  unfold lexeme
  rw [if_pos rfl, textBody_escapedText]

/-! ## Numbers and words -/

/-- Nothing at the start of the text continues a number. -/
def EndsNumber (rest : Text) : Prop :=
  ∀ c more, rest = c :: more → isPlainDigit c = false ∧ c ≠ '.' ∧ c ≠ 'e' ∧ c ≠ 'E'

theorem endsNumber_cons {c : Char} (h : isPlainDigit c = false ∧ c ≠ '.' ∧ c ≠ 'e' ∧ c ≠ 'E')
    (rest : Text) : EndsNumber (c :: rest) := by
  intro d more heq
  obtain ⟨rfl, -⟩ := List.cons.inj heq
  exact h

theorem EndsNumber.notDigit {rest : Text} (hrest : EndsNumber rest) :
    ∀ c ∈ rest.head?, isPlainDigit c = false := by
  intro c hc
  obtain ⟨more, rfl⟩ := List.head?_eq_some_iff.mp hc
  exact (hrest c more rfl).1

theorem EndsNumber.fractionPart {rest : Text} (hrest : EndsNumber rest) :
    fractionPart rest = [] := by
  unfold Json.fractionPart
  split
  next => exact absurd rfl (hrest _ _ rfl).2.1
  next => rfl

theorem EndsNumber.exponentPart {rest : Text} (hrest : EndsNumber rest) :
    exponentPart rest = (0, 0) := by
  cases rest with
  | nil => rfl
  | cons c more =>
      obtain ⟨-, -, hlower, hupper⟩ := hrest c more rfl
      simp [Json.exponentPart, hlower, hupper]

theorem wholePart?_ofNat (n : Nat) {rest : Text} (hrest : EndsNumber rest) :
    wholePart? (Text.ofNat n ++ rest) = some (Text.ofNat n) := by
  by_cases hn : n = 0
  · subst hn
    rfl
  · have hdigits : ∀ c ∈ Text.ofNat n, isPlainDigit c = true :=
      fun c hc => Text.isPlainDigit_of_mem_ofNat hc
    have hhead := Text.head?_ofNat_of_pos (Nat.pos_of_ne_zero hn)
    cases hwritten : Text.ofNat n with
    | nil => exact absurd hwritten (Text.ofNat_ne_nil n)
    | cons c more =>
        rw [hwritten] at hdigits hhead
        have hzero : c ≠ '0' := fun h => hhead (by rw [h]; rfl)
        have hmore : (more ++ rest).takeWhile isPlainDigit = more :=
          Text.takeWhile_span (fun d hd => hdigits d (List.mem_cons_of_mem _ hd)) hrest.notDigit
        simp [wholePart?, hzero, hdigits c List.mem_cons_self, hmore]

/-- What a character that begins a number is not. -/
theorem ne_of_isPlainDigit {c d : Char} (hc : isPlainDigit c = true)
    (hd : isPlainDigit d = false) : c ≠ d := by
  rintro rfl
  rw [hc] at hd
  exact Bool.noConfusion hd

/-- An unsigned text at whose start stand the digits of a number is read as the number. -/
theorem number?_ofNat (position n : Nat) {rest : Text} (hrest : EndsNumber rest)
    (hdigits : (Text.ofNat n).length ≤ 4300) :
    number? position (Text.ofNat n ++ rest) = some (.scalar (.int n), (Text.ofNat n).length) ∧
    number? position ('-' :: (Text.ofNat n ++ rest)) =
      some (.scalar (.int (-n)), (Text.ofNat n).length + 1) := by
  have hwhole := wholePart?_ofNat n hrest
  have hbehind : (Text.ofNat n ++ rest).drop (Text.ofNat n).length = rest := List.drop_left
  have hsize : ¬ 4300 < (Text.ofNat n).length := by omega
  constructor
  · have hsign : ∀ more, Text.ofNat n ++ rest ≠ '-' :: more := by
      intro more heq
      cases hwritten : Text.ofNat n with
      | nil => exact Text.ofNat_ne_nil n hwritten
      | cons c digits =>
          have hc : isPlainDigit c = true :=
            Text.isPlainDigit_of_mem_ofNat (n := n) (by rw [hwritten]; exact List.mem_cons_self)
          rw [hwritten, List.cons_append] at heq
          exact ne_of_isPlainDigit hc (d := '-') rfl (List.cons.inj heq).1
    unfold number?
    split
    next negative unsigned hsplit =>
      split at hsplit
      next more heq => exact absurd heq (hsign more)
      next =>
        obtain ⟨rfl, rfl⟩ := Prod.mk.inj hsplit
        simp [hwhole, hbehind, hrest.fractionPart, hrest.exponentPart, hsize]
  · simp [number?, hwhole, hbehind, hrest.fractionPart, hrest.exponentPart, hsize, Nat.add_comm]

theorem number?_ofInt (position : Nat) (n : Int) {rest : Text} (hrest : EndsNumber rest)
    (hdigits : (Text.ofNat n.natAbs).length ≤ 4300) :
    number? position (Text.ofInt n ++ rest) = some (.scalar (.int n), (Text.ofInt n).length) := by
  cases n with
  | ofNat k => exact (number?_ofNat position k hrest hdigits).1
  | negSucc k => exact (number?_ofNat position (k + 1) hrest hdigits).2

/-- The digits before a point are digits, and there is one. -/
theorem wholePart?_digits {t whole : Text} (h : wholePart? t = some whole) :
    whole ≠ [] ∧ ∀ c ∈ whole, isPlainDigit c = true := by
  unfold wholePart? at h
  split at h
  next => cases h
  next c rest =>
    split_ifs at h with hzero hdigit
    · obtain rfl := Option.some.inj h
      exact ⟨by simp, List.forall_mem_singleton.mpr rfl⟩
    · obtain rfl := Option.some.inj h
      refine ⟨by simp, fun d hd => ?_⟩
      rcases List.mem_cons.mp hd with rfl | hd
      · exact hdigit
      · exact List.mem_takeWhile_imp hd

/-- A number is an integer that is not too long, or a floating-point number, or an integer that is
told to be too long. -/
theorem number?_cases {position : Nat} {t : Text} {found : Lexeme × Nat}
    (h : number? position t = some found) :
    (∃ n : Int, found.1 = .scalar (.int n) ∧ (Text.ofNat n.natAbs).length ≤ 4300) ∨
      (∃ x, found.1 = .scalar (.real x)) ∨
      ∃ digits, found.1 = .fault ⟨.oversizedInteger digits, position⟩ := by
  unfold number? at h
  split at h
  next _ negative unsigned _ =>
    obtain ⟨whole, hwhole, rfl⟩ := Option.map_eq_some_iff.mp h
    obtain ⟨hsome, hdigits⟩ := wholePart?_digits hwhole
    -- an integer has no more digits than there are in the text
    have hdigits' := Text.length_ofNat_plainNumber_le hsome hdigits
    dsimp only
    generalize (if (fractionPart (unsigned.drop whole.length)).isEmpty then 0
      else (fractionPart (unsigned.drop whole.length)).length + 1) = pointed
    split
    next =>
      split
      next => exact .inr (.inr ⟨_, rfl⟩)
      next hsize =>
        refine .inl ⟨_, rfl, Nat.le_trans ?_ (hdigits'.trans (Nat.not_lt.mp hsize))⟩
        cases negative <;> simp
    next => exact .inr (.inl ⟨_, rfl⟩)

theorem word?_of_isPlainDigit {c : Char} (hc : isPlainDigit c = true) (rest : Text) :
    word? (c :: rest) = none ∧ word? ('-' :: c :: rest) = none := by
  have hn := ne_of_isPlainDigit hc (d := 'n') rfl
  have ht := ne_of_isPlainDigit hc (d := 't') rfl
  have hf := ne_of_isPlainDigit hc (d := 'f') rfl
  have hN := ne_of_isPlainDigit hc (d := 'N') rfl
  have hI := ne_of_isPlainDigit hc (d := 'I') rfl
  have hminus := ne_of_isPlainDigit hc (d := '-') rfl
  constructor
  · simp [word?, words, Text.after?, hn.symm, ht.symm, hf.symm, hN.symm, hI.symm, hminus.symm]
  · simp [word?, words, Text.after?, hI.symm]

/-- The character begins a lexeme that is no end of a list. -/
def OpensValue (c : Char) : Prop :=
  isSpace c = false ∧ c ≠ ']' ∧ c ≠ '\uFEFF'

theorem opensValue_of_isPlainDigit {c : Char} (hc : isPlainDigit c = true) : OpensValue c := by
  refine ⟨?_, ne_of_isPlainDigit hc rfl, ne_of_isPlainDigit hc rfl⟩
  have hspace := ne_of_isPlainDigit hc (d := ' ') rfl
  have htab := ne_of_isPlainDigit hc (d := '\t') rfl
  have hfeed := ne_of_isPlainDigit hc (d := '\n') rfl
  have hreturn := ne_of_isPlainDigit hc (d := '\r') rfl
  simp [isSpace, hspace, htab, hfeed, hreturn]

theorem lexeme_of_number? {position : Nat} {c : Char} {rest : Text} {found : Lexeme × Nat}
    (hquote : c ≠ '"') (hword : word? (c :: rest) = none)
    (hnumber : number? position (c :: rest) = some found) : lexeme position c rest = found := by
  simp [lexeme, hquote, hword, hnumber]

/-- The written form of an integer is one lexeme. -/
theorem lexeme_ofInt (position : Nat) (n : Int) {rest : Text} (hrest : EndsNumber rest)
    (hdigits : (Text.ofNat n.natAbs).length ≤ 4300) :
    ∃ c more, Text.ofInt n = c :: more ∧ OpensValue c ∧
      lexeme position c (more ++ rest) = (.scalar (.int n), (Text.ofInt n).length) := by
  have hnumber := number?_ofInt position n hrest hdigits
  cases n with
  | ofNat k =>
      obtain ⟨c, more, hwritten, hc⟩ := Text.exists_ofNat_eq_cons k
      have hint : Text.ofInt (.ofNat k) = c :: more := hwritten
      rw [hint, List.cons_append] at hnumber
      refine ⟨c, more, hint, opensValue_of_isPlainDigit hc, ?_⟩
      rw [hint]
      exact lexeme_of_number? (ne_of_isPlainDigit hc rfl) (word?_of_isPlainDigit hc _).1 hnumber
  | negSucc k =>
      obtain ⟨c, more, hwritten, hc⟩ := Text.exists_ofNat_eq_cons (k + 1)
      have hint : Text.ofInt (.negSucc k) = '-' :: c :: more := congrArg ('-' :: ·) hwritten
      rw [hint, List.cons_append] at hnumber
      refine ⟨'-', c :: more, hint, by simp [OpensValue, isSpace], ?_⟩
      rw [hint]
      exact lexeme_of_number? (by decide) (word?_of_isPlainDigit hc _).2 hnumber

end Almanac.Data.Json
