import Almanac.Country.Metadata
import Almanac.Proofs.Text.Gaps
import Almanac.Proofs.Text.Occurrences

/-!
# Quoted texts and pairs of them

Codes and names are searched for in the text as it is, be it code or a comment. What a search makes
of the text behind a `#` or a line feed depends on little of what stands before: whether a quote is
open there, and whether a colon stands there.
-/

namespace Almanac.Country

open Almanac.Text

/-- The text opens with the sign of a comment or a line feed, or there is none. -/
def OpensBreak (t : Text) : Prop :=
  ∀ c ∈ t.head?, c = '#' ∨ c = '\n'

theorem OpensBreak.head {c : Char} {t : Text} (h : OpensBreak (c :: t)) : c = '#' ∨ c = '\n' :=
  h c rfl

/-! ## Parts of scanners -/

theorem afterQuote?_cons {c : Char} {t : Text} :
    afterQuote? (c :: t) = if isQuote c then some t else none := rfl

/-- A class of characters that neither quote is of. -/
theorem isQuote_of_class {p : Char → Bool} (hdouble : p '"' = false) (hsingle : p '\'' = false)
    {c : Char} (hc : p c = true) : isQuote c = false := by
  rw [← Bool.not_eq_true]
  intro hquote
  simp only [isQuote, Bool.or_eq_true, decide_eq_true_eq] at hquote
  rcases hquote with rfl | rfl
  · rw [hdouble] at hc
    cases hc
  · rw [hsingle] at hc
    cases hc

theorem notQuote_of_opensBreak {c : Char} (h : c = '#' ∨ c = '\n') : isQuote c = false := by
  rcases h with rfl | rfl <;> decide

theorem afterQuote?_append {behind : Text} (h : OpensBreak behind) (t : Text) :
    afterQuote? (t ++ behind) = (afterQuote? t).map (· ++ behind) := by
  cases t with
  | nil =>
      cases behind with
      | nil => rfl
      | cons c rest => exact if_neg (by simp [notQuote_of_opensBreak h.head])
  | cons c t =>
      rw [List.cons_append, afterQuote?_cons, afterQuote?_cons]
      split <;> rfl

theorem suffix_of_afterQuote? {t rest : Text} (h : afterQuote? t = some rest) :
    ∃ q, isQuote q = true ∧ t = q :: rest := by
  cases t with
  | nil => cases h
  | cons c t =>
      rw [afterQuote?_cons] at h
      split at h
      next hquote =>
        obtain rfl := Option.some.inj h
        exact ⟨c, hquote, rfl⟩
      next => cases h

/-- Between two quotes the characters of a class are read. -/
theorem between_of_afterQuote? {p : Char → Bool} {t first second : Text}
    (hfirst : afterQuote? t = some first)
    (hsecond : afterQuote? (first.dropWhile p) = some second) :
    ∃ q q', isQuote q = true ∧ isQuote q' = true ∧
      t = q :: (first.takeWhile p ++ q' :: second) := by
  obtain ⟨q, hq, rfl⟩ := suffix_of_afterQuote? hfirst
  obtain ⟨q', hq', hdrop⟩ := suffix_of_afterQuote? hsecond
  exact ⟨q, q', hq, hq', by rw [← hdrop, List.takeWhile_append_dropWhile]⟩

/-! ## Codes -/

/-- A code is not read across a break. -/
theorem staysIn_code? {behind : Text} (h : OpensBreak behind) (t : Text) :
    StaysIn code? t behind := by
  have hcode : ∀ c ∈ behind.head?, isCodeChar c = false := by
    intro c hc
    rcases h c hc with rfl | rfl <;> decide
  unfold StaysIn code? quotedValue?
  rw [afterQuote?_append h]
  cases afterQuote? t with
  | none => rfl
  | some rest =>
      obtain ⟨htake, hdrop⟩ := takeWhile_dropWhile_append (t := rest) (.inr hcode)
      simp only [Option.map_some, Option.bind_eq_bind, Option.bind_some, htake, hdrop,
        afterQuote?_append h]
      cases afterQuote? (rest.dropWhile isCodeChar) with
      | none => rfl
      | some rest =>
          simp only [Option.map_some, Option.bind_some]
          split <;> rfl

theorem code?_spec {t code rest : Text} (h : code? t = some (code, rest)) :
    ∃ q q', isQuote q = true ∧ isQuote q' = true ∧ code ≠ [] ∧ code.length ≤ 3 ∧
      (∀ c ∈ code, isCodeChar c = true) ∧ t = q :: (code ++ q' :: rest) := by
  obtain ⟨first, hfirst, hread⟩ := Option.bind_eq_some_iff.mp h
  obtain ⟨second, hsecond, hvalue⟩ := Option.bind_eq_some_iff.mp hread
  obtain ⟨q, q', hq, hq', hsplit⟩ := between_of_afterQuote? hfirst hsecond
  split at hvalue
  next hlength =>
    obtain ⟨rfl, rfl⟩ := Prod.mk.inj (Option.some.inj hvalue)
    exact ⟨q, q', hq, hq', List.ne_nil_of_length_pos hlength.1, hlength.2,
      fun c hc => List.mem_takeWhile_imp hc, hsplit⟩
  next => cases hvalue

/-! ## Quoted texts -/

theorem quoted?_spec {t value rest : Text} (h : quoted? t = some (value, rest)) :
    ∃ q q', isQuote q = true ∧ isQuote q' = true ∧ value ≠ [] ∧
      (∀ c ∈ value, isQuote c = false) ∧ t = q :: (value ++ q' :: rest) := by
  obtain ⟨first, hfirst, hread⟩ := Option.bind_eq_some_iff.mp h
  obtain ⟨second, hsecond, hvalue⟩ := Option.bind_eq_some_iff.mp hread
  obtain ⟨q, q', hq, hq', hsplit⟩ := between_of_afterQuote? hfirst hsecond
  split at hvalue
  next => cases hvalue
  next hsome =>
    obtain ⟨rfl, rfl⟩ := Prod.mk.inj (Option.some.inj hvalue)
    refine ⟨q, q', hq, hq', by simpa using hsome, fun c hc => ?_, hsplit⟩
    simpa using List.mem_takeWhile_imp hc

theorem quoted?_of_notQuote {c : Char} (h : isQuote c = false) (t : Text) :
    quoted? (c :: t) = none := by
  rw [quoted?, afterQuote?_cons, h]
  rfl

/-- Between two quotes side by side there is no text. -/
theorem quoted?_of_empty {q q' : Char} (hq' : isQuote q' = true) (t : Text) :
    quoted? (q :: q' :: t) = none := by
  rw [quoted?, afterQuote?_cons]
  split
  next => simp [hq', afterQuote?_cons]
  next => rfl

/-- Up to the next quote. -/
theorem span_toQuote {q : Char} (hq : isQuote q = true) {t : Text} (ht : ∀ c ∈ t, isQuote c = false)
    (rest : Text) : (t ++ q :: rest).takeWhile (fun c => !isQuote c) = t ∧
      (t ++ q :: rest).dropWhile (fun c => !isQuote c) = q :: rest := by
  have hplain : ∀ c ∈ t, (!isQuote c) = true := fun c hc => by rw [ht c hc]; rfl
  have hstop : ∀ c ∈ (q :: rest).head?, (!isQuote c) = false := fun c hc => by
    obtain rfl := Option.some.inj hc
    rw [hq]
    rfl
  exact ⟨takeWhile_span hplain hstop, dropWhile_span hplain hstop⟩

theorem quoted?_of_text {q q' : Char} (hq : isQuote q = true) (hq' : isQuote q' = true)
    {value : Text} (hsome : value ≠ []) (hvalue : ∀ c ∈ value, isQuote c = false) (t : Text) :
    quoted? (q :: (value ++ q' :: t)) = some (value, t) := by
  obtain ⟨htake, hdrop⟩ := span_toQuote hq' hvalue t
  rw [quoted?, afterQuote?_cons, if_pos hq]
  simp only [Option.bind_eq_bind, Option.bind_some, htake, hdrop, afterQuote?_cons, hq', if_true]
  rw [if_neg (by simpa using hsome)]

/-- A quote that nothing closes opens no text. -/
theorem quoted?_of_open {q : Char} {t : Text} (ht : ∀ c ∈ t, isQuote c = false) :
    quoted? (q :: t) = none := by
  have hdrop : t.dropWhile (fun c => !isQuote c) = [] :=
    List.dropWhile_eq_nil_iff.mpr fun c hc => by rw [ht c hc]; rfl
  rw [quoted?, afterQuote?_cons]
  split
  next => simp [hdrop, afterQuote?]
  next => rfl

theorem exists_nextQuote {t : Text} (h : ∃ c ∈ t, isQuote c = true) :
    ∃ value q rest, t = value ++ q :: rest ∧ isQuote q = true ∧ ∀ c ∈ value, isQuote c = false := by
  induction t with
  | nil =>
      obtain ⟨c, hc, -⟩ := h
      cases hc
  | cons c t ih =>
      cases hc : isQuote c with
      | true => exact ⟨[], c, t, rfl, hc, by simp⟩
      | false =>
          obtain ⟨value, q, rest, rfl, hq, hvalue⟩ := ih (by simpa [hc] using h)
          exact ⟨c :: value, q, rest, rfl, hq, List.forall_mem_cons.mpr ⟨hc, hvalue⟩⟩

/-- A text whose quote is closed within the first part is not read across its end. -/
theorem staysIn_quoted? {t : Text} (hsome : t ≠ [])
    (hclosed : ∀ q rest, t = q :: rest → isQuote q = true → ∃ c ∈ rest, isQuote c = true)
    (behind : Text) : StaysIn quoted? t behind := by
  obtain ⟨q, rest, rfl⟩ := List.exists_cons_of_ne_nil hsome
  cases hq : isQuote q with
  | false =>
      rw [StaysIn, List.cons_append, quoted?_of_notQuote hq, quoted?_of_notQuote hq]
      rfl
  | true =>
      obtain ⟨c, hc, hquote⟩ := hclosed q rest rfl hq
      obtain ⟨value, q', more, rfl, hq', hvalue⟩ := exists_nextQuote ⟨c, hc, hquote⟩
      cases value with
      | nil =>
          rw [StaysIn, List.nil_append, List.cons_append, List.cons_append, quoted?_of_empty hq',
            quoted?_of_empty hq']
          rfl
      | cons d value =>
          have hread := quoted?_of_text hq hq' (List.cons_ne_nil d value) hvalue
          rw [StaysIn, hread more, List.cons_append, List.append_assoc]
          exact hread (more ++ behind)

/-! ## Reading quoted texts one by one -/

/-- What is open behind one more character: nothing, or the text behind a quote so far. A second
quote right behind the first one opens a text anew. -/
def quoteStep (opened : Option Text) (c : Char) : Option Text :=
  match opened with
  | none => if isQuote c then some [] else none
  | some value =>
      if isQuote c then if value.isEmpty then some [] else none else some (value ++ [c])

/-- The quoted text that a character closes. -/
def closedText (opened : Option Text) (c : Char) : List Text :=
  if isQuote c then (opened.filter fun value => !value.isEmpty).toList else []

def quotedFrom (opened : Option Text) : Text → List Text
  | [] => []
  | c :: t => closedText opened c ++ quotedFrom (quoteStep opened c) t

/-- The quotes of the text pair off: behind it no quote is open. -/
def PairsOff (t : Text) : Prop :=
  t.foldl quoteStep none = none

instance (t : Text) : Decidable (PairsOff t) :=
  inferInstanceAs (Decidable (t.foldl quoteStep none = none))

@[simp] theorem quotedFrom_append (opened : Option Text) (t more : Text) :
    quotedFrom opened (t ++ more) =
      quotedFrom opened t ++ quotedFrom (t.foldl quoteStep opened) more := by
  induction t generalizing opened with
  | nil => rfl
  | cons c t ih => rw [List.cons_append, quotedFrom, quotedFrom, ih, List.append_assoc]; rfl

/-- Where no quote is open, what holds no quotes is passed over. -/
theorem quotedFrom_pass {gap : Text} (h : ∀ c ∈ gap, isQuote c = false) (t : Text) :
    quotedFrom none (gap ++ t) = quotedFrom none t := by
  induction gap with
  | nil => rfl
  | cons c gap ih =>
      obtain ⟨hc, hgap⟩ := List.forall_mem_cons.mp h
      rw [List.cons_append, quotedFrom, closedText, quoteStep, hc, if_neg Bool.false_ne_true,
        if_neg Bool.false_ne_true, List.nil_append, ih hgap]

theorem findAll_quoted?_pass {gap : Text} (h : ∀ c ∈ gap, isQuote c = false) (t : Text) :
    findAll quoted? (gap ++ t) = findAll quoted? t := by
  induction gap with
  | nil => rfl
  | cons c gap ih =>
      obtain ⟨hc, hgap⟩ := List.forall_mem_cons.mp h
      rw [List.cons_append, findAll_cons_of_none (quoted?_of_notQuote hc _), ih hgap]

/-- A search for quoted texts reads one character after another and never goes back. -/
theorem findAll_quoted?_eq (t : Text) :
    findAll quoted? t = quotedFrom none t ∧
      ∀ q, isQuote q = true → ∀ value, (∀ c ∈ value, isQuote c = false) →
        findAll quoted? (q :: (value ++ t)) = quotedFrom (some value) t := by
  induction t with
  | nil =>
      have hnil : findAll quoted? [] = [] := by rw [findAll, searchAll]
      refine ⟨hnil, fun q hq value hvalue => ?_⟩
      rw [List.append_nil, findAll_cons_of_none (quoted?_of_open hvalue), ← List.append_nil value,
        findAll_quoted?_pass hvalue, hnil]
      rfl
  | cons c t ih =>
      obtain ⟨hplain, hopen⟩ := ih
      refine ⟨?_, fun q hq value hvalue => ?_⟩
      · cases hc : isQuote c with
        | false =>
            rw [findAll_cons_of_none (quoted?_of_notQuote hc t), hplain, quotedFrom, closedText,
              quoteStep, hc]
            rfl
        | true =>
            have hanew := hopen c hc [] (by simp)
            rw [List.nil_append] at hanew
            rw [hanew, quotedFrom, closedText, quoteStep, hc]
            rfl
      · rw [quotedFrom, closedText, quoteStep]
        cases hc : isQuote c with
        | false =>
            have hlonger := hopen q hq (value ++ [c])
              (by simpa [or_imp, forall_and, hc] using hvalue)
            rw [List.append_assoc, List.singleton_append] at hlonger
            rw [hlonger]
            rfl
        | true =>
            cases value with
            | nil =>
                rw [List.nil_append, findAll_cons_of_none (quoted?_of_empty hc t)]
                exact hopen c hc [] (by simp)
            | cons d value =>
                have hread := quoted?_of_text hq hc (List.cons_ne_nil d value) hvalue t
                rw [findAll_cons_of_some hread ⟨d :: value ++ [c], by simp⟩, hplain]
                rfl

/-- Without quotes a gap has no influence on the quoted texts around it, unless a quote is open
before it. -/
theorem findAll_quoted?_gap {before gap later : Text} (hbefore : PairsOff before)
    (hgap : ∀ c ∈ gap, isQuote c = false) :
    findAll quoted? (before ++ (gap ++ later)) = findAll quoted? (before ++ later) := by
  rw [(findAll_quoted?_eq _).1, (findAll_quoted?_eq _).1, quotedFrom_append none before,
    quotedFrom_append none before, show before.foldl quoteStep none = none from hbefore,
    quotedFrom_pass hgap]

/-! ## Pairs -/

/-- The text before the last quote; none if there is no quote. -/
def beforeLastQuote (t : Text) : Text :=
  ((t.reverse.dropWhile fun c => !isQuote c).drop 1).reverse

/-- The character right behind the next quote. -/
def behindNextQuote? (t : Text) : Option Char :=
  ((t.dropWhile fun c => !isQuote c).drop 1).head?

theorem beforeLastQuote_append {q : Char} (hq : isQuote q = true) {t : Text}
    (ht : ∀ c ∈ t, isQuote c = false) (before : Text) :
    beforeLastQuote (before ++ q :: t) = before := by
  have hreverse : ∀ c ∈ t.reverse, isQuote c = false := fun c hc => ht c (List.mem_reverse.mp hc)
  rw [beforeLastQuote, List.reverse_append, List.reverse_cons, List.append_assoc,
    List.singleton_append, (span_toQuote hq hreverse before.reverse).2, List.drop_one,
    List.tail_cons, List.reverse_reverse]

theorem behindNextQuote?_append {q : Char} (hq : isQuote q = true) {t : Text}
    (ht : ∀ c ∈ t, isQuote c = false) (rest : Text) :
    behindNextQuote? (t ++ q :: rest) = rest.head? := by
  rw [behindNextQuote?, (span_toQuote hq ht rest).2]
  rfl

/-- The text ends in a quote and a colon, white space apart, so the other part of a pair is due. -/
def AwaitsPart (t : Text) : Prop :=
  ['"', ':'] <:+ stripEnd t ∨ ['\'', ':'] <:+ stripEnd t

instance (t : Text) : Decidable (AwaitsPart t) :=
  inferInstanceAs (Decidable (_ ∨ _))

theorem exists_notBlank_of_not_awaitsPart {t : Text} (h : ¬ AwaitsPart t) {q : Char}
    (hq : isQuote q = true) {before behind : Text} (hsplit : t = before ++ ([q, ':'] ++ behind)) :
    ∃ c ∈ behind, isBlank c = false := by
  obtain ⟨hdouble, hsingle⟩ := not_or.mp h
  have hcases : q = '"' ∨ q = '\'' := by simpa [isQuote] using hq
  have hmarks : ∀ c ∈ [q, ':'], isBlank c = false := by
    rw [List.forall_mem_cons, List.forall_mem_singleton]
    rcases hcases with rfl | rfl <;> decide
  rcases hcases with rfl | rfl
  · exact exists_notBlank_behind (List.cons_ne_nil _ _) hmarks hdouble hsplit
  · exact exists_notBlank_behind (List.cons_ne_nil _ _) hmarks hsingle hsplit

/-- No part of a pair is due at the end of the text, and none was due at its last quote. -/
structure ClosesPairs (t : Text) : Prop where
  atEnd : ¬ AwaitsPart t
  atQuote : ¬ AwaitsPart (beforeLastQuote t)

instance (t : Text) : Decidable (ClosesPairs t) :=
  decidable_of_iff (¬ AwaitsPart t ∧ ¬ AwaitsPart (beforeLastQuote t))
    ⟨fun ⟨hend, hquote⟩ => ⟨hend, hquote⟩, fun ⟨hend, hquote⟩ => ⟨hend, hquote⟩⟩

section

variable {before behind s : Text}

/-- Behind a quote and a colon there is more than white space before the end of a text that closes
pairs. -/
theorem ClosesPairs.exists_notBlank (h : ClosesPairs before) (hs : s <:+ before) {q : Char}
    (hq : isQuote q = true) {u v : Text} (hsplit : s = u ++ q :: ':' :: v) :
    ∃ c ∈ v, isBlank c = false := by
  obtain ⟨front, rfl⟩ := hs
  have hwhole : front ++ s = (front ++ u) ++ ([q, ':'] ++ v) := by simp [hsplit]
  exact exists_notBlank_of_not_awaitsPart h.atEnd hq hwhole

/-- A name that is due behind a code ends within a text that closes pairs. -/
theorem ClosesPairs.exists_lastQuote (h : ClosesPairs before) (hs : s <:+ before) {q q' : Char}
    (hq : isQuote q = true) (hq' : isQuote q' = true) {u v name : Text}
    (hsplit : s = u ++ q :: ':' :: v) (hname : stripStart v = q' :: name) :
    ∃ c ∈ name, isQuote c = true := by
  by_contra hnone
  -- otherwise the name would open with the last quote of the text
  have hplain : ∀ c ∈ name, isQuote c = false := by simpa using hnone
  obtain ⟨front, rfl⟩ := hs
  obtain ⟨blanks, hblank, hv⟩ := stripStart_split v
  have hwhole : front ++ s = (front ++ u ++ ([q, ':'] ++ blanks)) ++ q' :: name := by
    rw [hsplit, hv, hname]
    simp
  have hbefore : beforeLastQuote (front ++ s) = front ++ u ++ ([q, ':'] ++ blanks) := by
    rw [hwhole]
    exact beforeLastQuote_append hq' hplain _
  obtain ⟨c, hc, hfalse⟩ := exists_notBlank_of_not_awaitsPart h.atQuote hq hbefore
  rw [hblank c hc] at hfalse
  cases hfalse

theorem colon_notMem_of_opensBreak (h : OpensBreak behind) :
    ∀ c ∈ behind.head?, c ∉ (":" : Text) := by
  intro c hc
  rcases h c hc with rfl | rfl <;> decide

/-- What one scanner reads, a colon, and what another one reads behind white space or none. A code
with its name is such a pair, and so is a name with its code. -/
def pair? (first second : Text → Option (Text × Text)) (t : Text) :
    Option ((Text × Text) × Text) :=
  (first t).bind fun (read, rest) => (after? ":" rest).bind fun rest =>
    (second (stripStart rest)).bind fun (value, rest) => some ((read, value), rest)

section

variable {first second : Text → Option (Text × Text)}

theorem pair?_eq_some_iff {t read value rest : Text} :
    pair? first second t = some ((read, value), rest) ↔
      ∃ later, first t = some (read, ':' :: later) ∧
        second (stripStart later) = some (value, rest) := by
  rw [pair?, Option.bind_eq_some_iff]
  constructor
  · rintro ⟨⟨found, behind⟩, hfirst, hread⟩
    obtain ⟨later, hcolon, hread⟩ := Option.bind_eq_some_iff.mp hread
    obtain ⟨⟨other, last⟩, hsecond, hpair⟩ := Option.bind_eq_some_iff.mp hread
    cases hpair
    obtain rfl := after?_eq_some_iff.mp hcolon
    exact ⟨later, hfirst, hsecond⟩
  · rintro ⟨later, hfirst, hsecond⟩
    refine ⟨_, hfirst, Option.bind_eq_some_iff.mpr ⟨later, after?_eq_some_iff.mpr rfl, ?_⟩⟩
    rw [hsecond]
    rfl

theorem pair?_of_none {t : Text} (h : first t = none) : pair? first second t = none := by
  rw [pair?, h]
  rfl

/-- A pair is not read across a break if its first part is not, and neither is the second one
behind a colon. -/
theorem staysIn_pair? (hbreak : OpensBreak behind) (hfirst : StaysIn first s behind)
    (hsecond : ∀ read value, first s = some (read, ':' :: value) →
      (∃ c ∈ value, isBlank c = false) ∧ StaysIn second (stripStart value) behind) :
    StaysIn (pair? first second) s behind := by
  unfold StaysIn pair?
  rw [StaysIn] at hfirst
  rw [hfirst]
  cases hread : first s with
  | none => rfl
  | some found =>
      obtain ⟨read, rest⟩ := found
      simp only [Option.map_some, Option.bind_some, withRest,
        after?_append (colon_notMem_of_opensBreak hbreak)]
      cases hcolon : after? ":" rest with
      | none => rfl
      | some value =>
          obtain rfl : rest = ':' :: value := after?_eq_some_iff.mp hcolon
          obtain ⟨hmore, hstays⟩ := hsecond read value hread
          rw [StaysIn] at hstays
          simp only [Option.map_some, Option.bind_some, stripStart_append_of_mem hmore, hstays]
          cases second (stripStart value) <;> rfl

/-- A pair leaves an end of the text if its parts do. -/
theorem leavesRest_pair? (hnil : first [] = none)
    (hfirst : ∀ {t read rest}, first t = some (read, rest) → rest <:+ t.tail)
    (hsecond : ∀ {t value rest}, second t = some (value, rest) → rest <:+ t.tail) :
    LeavesRest (pair? first second) := by
  refine ⟨pair?_of_none hnil, fun {c t found rest} h => ?_⟩
  obtain ⟨later, hread, hvalue⟩ := pair?_eq_some_iff.mp h
  have hlater : rest <:+ later :=
    ((hsecond hvalue).trans (List.tail_suffix _)).trans (List.dropWhile_suffix _)
  exact (hlater.trans (List.suffix_cons ':' later)).trans (hfirst hread)

end

/-- A code with its name is not read across a break behind closed pairs. -/
theorem staysIn_codeAndName? (hbreak : OpensBreak behind) (hpairs : ClosesPairs before)
    (hs : s <:+ before) : StaysIn codeAndName? s behind := by
  refine staysIn_pair? hbreak (staysIn_code? hbreak s) fun code value hcode => ?_
  obtain ⟨q, q', -, hq', -, -, -, hsplit⟩ := code?_spec hcode
  have hsplit : s = (q :: code) ++ q' :: ':' :: value := by simp [hsplit]
  have hmore := hpairs.exists_notBlank hs hq' hsplit
  exact ⟨hmore, staysIn_quoted? (stripStart_ne_nil hmore)
    (fun _ _ hname hlast => hpairs.exists_lastQuote hs hq' hlast hsplit hname) behind⟩

/-- If a quote is open at the end of a text, the name ends at the next quote behind. -/
theorem behindNextQuote?_of_open {q : Char} {t name more : Text}
    (ht : ∀ c ∈ t, isQuote c = false) (h : quoted? (q :: (t ++ behind)) = some (name, more)) :
    behindNextQuote? behind = more.head? := by
  obtain ⟨_, q', -, hq', -, hname, hsplit⟩ := quoted?_spec h
  rcases List.append_eq_append_iff.mp (List.cons.inj hsplit).2 with
    ⟨later, rfl, rfl⟩ | ⟨later, rfl, hlater⟩
  · exact behindNextQuote?_append hq' (List.forall_mem_append.mp hname).2 more
  · cases later with
    | nil =>
        have hhere := behindNextQuote?_append hq' (List.forall_mem_nil _) more
        rw [hlater] at hhere
        exact hhere
    | cons c later =>
        obtain ⟨rfl, -⟩ := List.cons.inj hlater
        rw [ht q' (by simp)] at hq'
        cases hq'

/-- A name that is open at the end of a text has no code behind the next quote unless a colon stands
there. -/
theorem staysIn_nameAndCode?_of_open (hnext : behindNextQuote? behind ≠ some ':') {q : Char}
    {t : Text} (ht : ∀ c ∈ t, isQuote c = false) : StaysIn nameAndCode? (q :: t) behind := by
  have hnone : nameAndCode? (q :: t) = none := pair?_of_none (quoted?_of_open ht)
  rw [StaysIn, hnone, Option.map_none, Option.eq_none_iff_forall_ne_some]
  rintro ⟨⟨name, code⟩, rest⟩ h
  obtain ⟨later, hname, -⟩ := pair?_eq_some_iff.mp h
  exact hnext (behindNextQuote?_of_open ht hname)

/-- A name with its code is not read across a break behind closed pairs, if the next quote stands
before no colon. -/
theorem staysIn_nameAndCode? (hbreak : OpensBreak behind) (hpairs : ClosesPairs before)
    (hnext : behindNextQuote? behind ≠ some ':') (hs : s <:+ before) (hsome : s ≠ []) :
    StaysIn nameAndCode? s behind := by
  by_cases hclosed : ∀ q rest, s = q :: rest → isQuote q = true → ∃ c ∈ rest, isQuote c = true
  · refine staysIn_pair? hbreak (staysIn_quoted? hsome hclosed behind) fun name value hname => ?_
    obtain ⟨q, q', -, hq', -, -, hsplit⟩ := quoted?_spec hname
    have hsplit : s = (q :: name) ++ q' :: ':' :: value := by simp [hsplit]
    exact ⟨hpairs.exists_notBlank hs hq' hsplit, staysIn_code? hbreak (stripStart value)⟩
  · push Not at hclosed
    obtain ⟨q, rest, rfl, -, hplain⟩ := hclosed
    exact staysIn_nameAndCode?_of_open hnext (by simpa using hplain)

/-- Behind a break a scanner that begins with a quote reads nothing. -/
theorem quoted?_of_opensBreak (h : OpensBreak behind) : quoted? behind = none := by
  cases behind with
  | nil => rfl
  | cons c rest => exact quoted?_of_notQuote (notQuote_of_opensBreak h.head) rest

theorem code?_of_notQuote {c : Char} (h : isQuote c = false) (t : Text) :
    code? (c :: t) = none := by
  rw [code?, quotedValue?, afterQuote?_cons, h]
  rfl

theorem code?_of_opensBreak (h : OpensBreak behind) : code? behind = none := by
  cases behind with
  | nil => rfl
  | cons c rest => exact code?_of_notQuote (notQuote_of_opensBreak h.head) rest

theorem codeAndName?_of_noCode {t : Text} (h : code? t = none) : codeAndName? t = none :=
  pair?_of_none h

theorem nameAndCode?_of_noText {t : Text} (h : quoted? t = none) : nameAndCode? t = none :=
  pair?_of_none h

theorem suffix_of_code? {t code rest : Text} (h : code? t = some (code, rest)) :
    rest <:+ t.tail := by
  obtain ⟨q, q', -, -, -, -, -, rfl⟩ := code?_spec h
  exact ⟨code ++ [q'], by simp⟩

theorem suffix_of_quoted? {t value rest : Text} (h : quoted? t = some (value, rest)) :
    rest <:+ t.tail := by
  obtain ⟨q, q', -, -, -, -, rfl⟩ := quoted?_spec h
  exact ⟨value ++ [q'], by simp⟩

theorem leavesRest_codeAndName? : LeavesRest codeAndName? :=
  leavesRest_pair? rfl suffix_of_code? suffix_of_quoted?

theorem leavesRest_nameAndCode? : LeavesRest nameAndCode? :=
  leavesRest_pair? rfl suffix_of_quoted? suffix_of_code?

end

/-! ## Gaps between pairs -/

/-- What stands behind the next quote of a text stands there however the text goes on. -/
theorem behindNextQuote?_mono {t part : Text} {c : Char} (h : behindNextQuote? part = some c)
    (hpart : part <+: t) : behindNextQuote? t = some c := by
  obtain ⟨rest, rfl⟩ := hpart
  by_cases hquote : ∃ d ∈ part, isQuote d = true
  · obtain ⟨value, q, more, rfl, hq, hvalue⟩ := exists_nextQuote hquote
    rw [behindNextQuote?_append hq hvalue] at h
    rw [List.append_assoc, List.cons_append, behindNextQuote?_append hq hvalue, List.head?_append,
      h]
    rfl
  · have hnone : part.dropWhile (fun d => !isQuote d) = [] :=
      List.dropWhile_eq_nil_iff.mpr fun d hd => by
        simpa using fun hd' => hquote ⟨d, hd, hd'⟩
    rw [behindNextQuote?, hnone] at h
    cases h

section

variable {whole before gap later : Text}

/-- A piece without quoted codes, between a `#` and the end of its line, has no influence on the
codes with names around it. -/
theorem findAll_codeAndName?_gap (hpairs : ClosesPairs whole) (hbefore : before <:+ whole)
    (hgap : OpensBreak (gap ++ later)) (hlater : OpensBreak later)
    (hcodes : ∀ s, s <:+ gap → code? s = none) :
    findAll codeAndName? (before ++ (gap ++ later)) = findAll codeAndName? (before ++ later) := by
  refine searchAll_gap leavesRest_codeAndName?
    (fun s hs _ => ⟨staysIn_codeAndName? hgap hpairs (hs.trans hbefore),
      staysIn_codeAndName? hlater hpairs (hs.trans hbefore)⟩)
    (fun s hs _ => ?_) (codeAndName?_of_noCode (code?_of_opensBreak hlater)) false
  have hcode := staysIn_code? hlater s
  rw [StaysIn, hcodes s hs] at hcode
  exact codeAndName?_of_noCode hcode

/-- A piece without quotes, between a `#` and the end of its line, has no influence on the names
with codes around it, if the next quote stands before no colon. -/
theorem findAll_nameAndCode?_gap (hpairs : ClosesPairs whole) (hbefore : before <:+ whole)
    (hgap : OpensBreak (gap ++ later)) (hlater : OpensBreak later)
    (hplain : ∀ c ∈ gap, isQuote c = false) (hnext : behindNextQuote? later ≠ some ':') :
    findAll nameAndCode? (before ++ (gap ++ later)) = findAll nameAndCode? (before ++ later) := by
  have hnext' : behindNextQuote? (gap ++ later) ≠ some ':' := by
    rwa [behindNextQuote?, List.dropWhile_append_of_pos fun c hc => by rw [hplain c hc]; rfl]
  refine searchAll_gap leavesRest_nameAndCode?
    (fun s hs hsome => ⟨staysIn_nameAndCode? hgap hpairs hnext' (hs.trans hbefore) hsome,
      staysIn_nameAndCode? hlater hpairs hnext (hs.trans hbefore) hsome⟩)
    (fun s hs hsome => ?_) (nameAndCode?_of_noText (quoted?_of_opensBreak hlater)) false
  obtain ⟨c, rest, rfl⟩ := List.exists_cons_of_ne_nil hsome
  exact nameAndCode?_of_noText (quoted?_of_notQuote (hplain c (hs.subset List.mem_cons_self)) _)

/-! ## Names -/

theorem name?_of_notOpener {c : Char} (h : opensIdentifier c = false) (t : Text) :
    name? (c :: t) = none :=
  if_neg (by simp [h])

theorem name?_of_opensBreak {t : Text} (h : OpensBreak t) : name? t = none := by
  cases t with
  | nil => rfl
  | cons c t =>
      refine name?_of_notOpener ?_ t
      rcases h.head with rfl | rfl <;> decide

theorem leavesRest_name? : LeavesRest name? := by
  refine ⟨rfl, fun {c t found rest} h => ?_⟩
  rw [name?] at h
  split at h
  next =>
    obtain ⟨-, rfl⟩ := Prod.mk.inj (Option.some.inj h)
    exact List.dropWhile_suffix _
  next => cases h

/-- A name is not read across a break. -/
theorem staysIn_name? {t behind : Text} (h : OpensBreak behind) : StaysIn name? t behind := by
  cases t with
  | nil => exact name?_of_opensBreak h
  | cons c t =>
      have hword : ∀ d ∈ behind.head?, isWord d = false := by
        intro d hd
        rcases h d hd with rfl | rfl <;> decide
      obtain ⟨htake, hdrop⟩ := takeWhile_dropWhile_append (.inr hword) (t := t)
      rw [StaysIn, List.cons_append, name?, name?, htake, hdrop]
      split <;> rfl

/-- A piece without letters, between a `#` and the end of its line, has no influence on the names
around it. -/
theorem findAllWords_name?_gap (hgap : OpensBreak (gap ++ later)) (hlater : OpensBreak later)
    (hplain : ∀ c ∈ gap, opensIdentifier c = false) :
    findAllWords name? (before ++ (gap ++ later)) = findAllWords name? (before ++ later) := by
  refine searchAll_gap leavesRest_name? (fun s _ _ => ⟨staysIn_name? hgap, staysIn_name? hlater⟩)
    (fun s hs hsome => ?_) (name?_of_opensBreak hlater) false
  obtain ⟨c, rest, rfl⟩ := List.exists_cons_of_ne_nil hsome
  exact name?_of_notOpener (hplain c (hs.subset List.mem_cons_self)) _

end

end Almanac.Country
