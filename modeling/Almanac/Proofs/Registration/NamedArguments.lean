import Almanac.Proofs.Holiday.WrittenDates
import Almanac.Proofs.Registration.CountedParentheses

/-!
# Arguments that begin with a name

The first argument of most calls is the name of the holiday, as a literal in quotes of either sort
or as such a literal handed to the translation function. The literal is emptied where parentheses
are counted, it gives the name back, and a search for a call or a date passes over it unless the
name itself holds one.
-/

namespace Almanac.Source.Literal

open Almanac.Text Almanac.Registration

variable {quote : Char} {t body : Text}

theorem Spells.unescape (h : Spells quote t body) : Arguments.unescape body = t := by
  induction h with
  | nil => rfl
  | plain _ _ hescape _ ih =>
      rw [Arguments.unescape, ih]
      · rintro rest rfl
        exact absurd rfl hescape
      · rintro rest rfl
        exact absurd rfl hescape
  | escaped hc _ ih => rcases hc with rfl | rfl <;> rw [Arguments.unescape, ih]

/-- What a search for a call or a date does not find in a text, it does not find in a spelling of
the text. -/
theorem Spells.findWord?_eq_none {α : Type} {scan : Text → Option α} {longer : Text → α → α}
    (h : Spells quote t body) (hscan : StopsAtBoundaries scan longer)
    (hfree : findWord? scan t = none) : findWord? scan body = none := by
  -- the search may have come to the spelling by way of any text that is spelled as it is
  suffices ∀ before, findWord? scan (before ++ t) = none →
      findWord? scan (before ++ body) = none from this [] hfree
  clear hfree
  induction h with
  | nil => exact fun _ hnone => hnone
  | @plain c t body _ _ _ _ ih =>
      intro before hnone
      have hmore := ih (before ++ [c])
      simp only [List.append_assoc, List.singleton_append] at hmore
      exact hmore hnone
  | @escaped c t body hc _ ih =>
      intro before hnone
      have hquote : IsBoundary c := hc.elim Or.inl fun h => .inr (.inl h)
      have hbackslash : IsBoundary '\\' := .inr (.inr (.inl rfl))
      rw [hscan.findWord?_append_cons hquote, Option.or_eq_none_iff,
        Option.map_eq_none_iff] at hnone
      rw [hscan.findWord?_append_cons hbackslash, hnone.1, Option.map_none, Option.none_or]
      exact (hscan.findWord?_append_cons hquote [] body).trans (ih [] hnone.2)

/-- A body that spells a text: a backslash before each double quote and each quote in use. -/
def spelled (quote : Char) (t : Text) : Text :=
  t.flatMap fun c => if c = quote ∨ c = '"' then ['\\', c] else [c]

theorem spells_spelled (hquote : quote = '"' ∨ quote = '\'') (ht : '\\' ∉ t) :
    Spells quote t (spelled quote t) := by
  induction t with
  | nil => exact .nil
  | cons c t ih =>
      simp only [List.mem_cons, not_or] at ht
      have hrest := ih ht.2
      unfold spelled at hrest ⊢
      rw [List.flatMap_cons]
      by_cases hc : c = quote ∨ c = '"'
      · rw [if_pos hc]
        refine .escaped ?_ hrest
        rcases hc with rfl | hdouble
        · exact hquote
        · exact .inl hdouble
      · rw [if_neg hc]
        rw [not_or] at hc
        exact .plain hc.1 hc.2 (Ne.symm ht.1) hrest

end Almanac.Source.Literal

namespace Almanac.Registration

open Almanac.Text Almanac.Source

/-! ## Parentheses -/

/-- A text without quotes and comments. -/
def IsCode (t : Text) : Prop :=
  ∀ c ∈ t, c ≠ '"' ∧ c ≠ '\'' ∧ c ≠ '#'

instance (t : Text) : Decidable (IsCode t) :=
  List.decidableBAll (fun c => c ≠ '"' ∧ c ≠ '\'' ∧ c ≠ '#') t

namespace IsCode

variable {t : Text}

theorem append {u : Text} (ht : IsCode t) (hu : IsCode u) : IsCode (t ++ u) :=
  List.forall_mem_append.mpr ⟨ht, hu⟩

theorem noDouble (ht : IsCode t) : '"' ∉ t := fun h => (ht _ h).1 rfl

theorem noSingle (ht : IsCode t) : '\'' ∉ t := fun h => (ht _ h).2.1 rfl

theorem balance_append (ht : IsCode t) (u : Text) :
    Arguments.balance (t ++ u) = (t.count '(' : Int) - t.count ')' + Arguments.balance u := by
  have hcode : ∀ c ∈ t, decide (c ≠ '#') = true := fun c hc => decide_eq_true (ht c hc).2.2
  unfold Arguments.balance
  dsimp only
  rw [Literal.hollow_append_of_noQuote ht.noDouble ht.noSingle, List.takeWhile_append_of_pos hcode,
    List.count_append, List.count_append]
  push_cast
  ring

end IsCode

/-- The text has no quotes and no comment, and opens so many parentheses more than it closes. -/
def Opens (n : Int) (t : Text) : Prop :=
  IsCode t ∧ (t.count '(' : Int) - t.count ')' = n

instance (n : Int) (t : Text) : Decidable (Opens n t) :=
  inferInstanceAs (Decidable (_ ∧ _))

namespace Opens

variable {n m : Int} {t u : Text}

theorem append (ht : Opens n t) (hu : Opens m u) : Opens (n + m) (t ++ u) := by
  obtain ⟨hcode, hcount⟩ := ht
  obtain ⟨hcode', hcount'⟩ := hu
  refine ⟨hcode.append hcode', ?_⟩
  rw [List.count_append, List.count_append]
  push_cast
  omega

theorem balance_append (ht : Opens n t) (u : Text) :
    Arguments.balance (t ++ u) = n + Arguments.balance u := by
  rw [ht.1.balance_append, ht.2]

theorem balance (ht : Opens n t) : Arguments.balance t = n := by
  simpa using ht.balance_append []

end Opens

/-! ## The literal of a name -/

/-- The literal that names a holiday: its quotes, what stands between them, and whether it is handed
to the translation function. -/
structure NameLiteral where
  quote : Char
  body : Text
  translated : Bool

namespace NameLiteral

def opening (literal : NameLiteral) : Text :=
  if literal.translated then "tr(" else ""

def closing (literal : NameLiteral) : Text :=
  if literal.translated then ")" else ""

/-- The literal as the first argument, with a rest of the arguments behind it. -/
def before (literal : NameLiteral) (rest : Text) : Text :=
  literal.opening ++
    literal.quote :: (literal.body ++ literal.quote :: (literal.closing ++ rest))

/-- The literal stands for the name. -/
structure Shows (literal : NameLiteral) (name : Text) : Prop where
  quote : literal.quote = '"' ∨ literal.quote = '\''
  spells : Literal.Spells literal.quote name literal.body

theorem isCode_opening (literal : NameLiteral) : IsCode literal.opening := by
  unfold opening
  split <;> decide

theorem isCode_closing (literal : NameLiteral) : IsCode literal.closing := by
  unfold closing
  split <;> decide

/-- Every name without a backslash has a literal in each sort of quotes. -/
theorem shows_spelled {quote : Char} {name : Text} (hquote : quote = '"' ∨ quote = '\'')
    (hname : '\\' ∉ name) (translated : Bool) :
    Shows ⟨quote, Literal.spelled quote name, translated⟩ name :=
  ⟨hquote, Literal.spells_spelled hquote hname⟩

variable {literal : NameLiteral} {name rest : Text}

theorem Shows.isBoundary (h : literal.Shows name) : IsBoundary literal.quote :=
  h.quote.elim Or.inl fun hsingle => .inr (.inl hsingle)

/-- The name is read, with the rest of the arguments behind it. -/
theorem Shows.name? (h : literal.Shows name) (hrest : IsCode rest) :
    Arguments.name? (literal.before rest) = some (name, literal.closing ++ rest) := by
  have hspells := h.spells
  have hfound : (Literal.find? '"' (literal.before rest)).or
      (Literal.find? '\'' (literal.before rest)) =
        some (literal.body, literal.closing ++ rest) := by
    unfold before
    rcases h.quote with hquote | hquote <;> rw [hquote] at hspells ⊢
    · rw [hspells.find? (by decide) literal.isCode_opening.noDouble, Option.some_or]
    · have hnone := (hspells.find?_double (literal.isCode_closing.append hrest).noDouble).2
      rw [Literal.find?_append_of_notMem literal.isCode_opening.noDouble,
        Literal.find?_cons_of_none (Literal.read?_cons_of_ne (by decide) _), hnone, Option.none_or,
        hspells.find? (by decide) literal.isCode_opening.noSingle]
  rw [Arguments.name?, hfound, Option.map_some, ← hspells.unescape]

/-- The literal and the translation function close as many parentheses as they open. -/
theorem Shows.balance (h : literal.Shows name) (rest : Text) :
    Arguments.balance (literal.before rest) = Arguments.balance rest := by
  have hemptied : Arguments.balance (literal.quote :: (literal.body ++
      literal.quote :: (literal.closing ++ rest))) =
        Arguments.balance (literal.closing ++ rest) := by
    simpa using Arguments.balance_literal h.quote h.spells.isBody (literal.closing ++ rest)
  have hwrapped : (literal.opening.count '(' : Int) - literal.opening.count ')' +
      ((literal.closing.count '(' : Int) - literal.closing.count ')') = 0 := by
    unfold opening closing
    split <;> decide
  rw [before, literal.isCode_opening.balance_append, hemptied,
    literal.isCode_closing.balance_append]
  omega

/-- A search for a call or a date goes on behind the literal. -/
theorem Shows.findWord? {α : Type} {scan : Text → Option α} {longer : Text → α → α}
    (h : literal.Shows name) (hscan : StopsAtBoundaries scan longer)
    (hfree : Text.findWord? scan name = none) (opening : Text)
    (hopening : Text.findWord? scan (opening ++ literal.opening) = none) (rest : Text) :
    Text.findWord? scan (opening ++ literal.before rest) =
      Text.findWord? scan (literal.closing ++ rest) := by
  unfold before
  rw [← List.append_assoc, hscan.findWord?_append_cons h.isBoundary, hopening, Option.map_none,
    Option.none_or, hscan.findWord?_append_cons h.isBoundary,
    h.spells.findWord?_eq_none hscan hfree, Option.map_none, Option.none_or]

end NameLiteral
end Almanac.Registration
