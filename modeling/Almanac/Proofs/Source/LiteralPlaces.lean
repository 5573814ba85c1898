import Almanac.Proofs.Source.LiteralText
import Mathlib.Algebra.Group.Int.Defs

/-!
# Places in a text

A text that is read character by character stands in code or in a literal, and within a literal it
may stand behind a backslash. What counts as code is told by the places alone. A text in which
every literal is closed is made of characters of code and of whole literals.
-/

namespace Almanac.Source.Literal

open Almanac.Text

/-- Where a reading of a text stands: in code, or in a literal with the given quote, behind a
backslash or not. -/
inductive Place where
  | code
  | literal (quote : Char) (escaped : Bool)
deriving DecidableEq, Repr

namespace Place

def next : Place → Char → Place
  | code, c => if c = '"' ∨ c = '\'' then literal c false else code
  | literal quote true, _ => literal quote false
  | literal quote false, c =>
      if c = '\\' then literal quote true
      else if c = quote then code
      else literal quote false

/-- The place behind a text. -/
def behind (place : Place) (t : Text) : Place :=
  t.foldl next place

/-- How many parentheses the code of a text opens more than it closes, read from a place on. -/
def opened : Place → Text → Int
  | _, [] => 0
  | place, c :: rest =>
      (if place ≠ code then 0 else if c = '(' then 1 else if c = ')' then -1 else 0) +
        opened (place.next c) rest

/-- Is there a `#` in the code of a text, read from a place on? -/
def hasSign : Place → Text → Bool
  | _, [] => false
  | place, c :: rest => (place = code && c = '#') || hasSign (place.next c) rest

/-! ## Texts one behind the other -/

@[simp] theorem behind_append (place : Place) (t u : Text) :
    place.behind (t ++ u) = (place.behind t).behind u :=
  List.foldl_append

@[simp] theorem opened_append (place : Place) (t u : Text) :
    place.opened (t ++ u) = place.opened t + (place.behind t).opened u := by
  induction t generalizing place with
  | nil => simp [opened, behind]
  | cons c t ih =>
      rw [List.cons_append, opened, opened, ih, add_assoc]
      rfl

@[simp] theorem hasSign_append (place : Place) (t u : Text) :
    place.hasSign (t ++ u) = (place.hasSign t || (place.behind t).hasSign u) := by
  induction t generalizing place with
  | nil => simp [hasSign, behind]
  | cons c t ih =>
      rw [List.cons_append, hasSign, hasSign, ih, Bool.or_assoc]
      rfl

/-- The first `#` in code: no other stands in the code before it. -/
theorem exists_of_hasSign {place : Place} {t : Text} (hsign : place.hasSign t = true) :
    ∃ before comment, t = before ++ '#' :: comment ∧ place.hasSign before = false ∧
      place.behind before = code := by
  induction t generalizing place with
  | nil => cases hsign
  | cons c rest ih =>
      cases hhere : (place = code && c = '#' : Bool) with
      | true =>
          simp only [Bool.and_eq_true, decide_eq_true_eq] at hhere
          exact ⟨[], rest, by rw [hhere.2]; rfl, rfl, hhere.1⟩
      | false =>
          rw [hasSign, hhere, Bool.false_or] at hsign
          obtain ⟨before, comment, rfl, hnone, hbehind⟩ := ih hsign
          exact ⟨c :: before, comment, rfl, by rw [hasSign, hhere, hnone]; rfl, hbehind⟩

/-! ## Literals -/

theorem next_code_of_notQuote {c : Char} (hdouble : c ≠ '"') (hsingle : c ≠ '\'') :
    code.next c = code :=
  if_neg (not_or.mpr ⟨hdouble, hsingle⟩)

variable {quote : Char} {t body : Text}

/-- Behind a literal the text stands in code, and the literal opens no parenthesis. -/
theorem behind_literal (h : IsBody quote body) (hquote : quote = '"' ∨ quote = '\'') :
    code.behind (quote :: body) = code ∧ code.opened (quote :: body) = 0 := by
  have hwithin : (literal quote false).behind body = code ∧
      (literal quote false).opened body = 0 := by
    induction h with
    | closing =>
        have hescape : quote ≠ '\\' := by rcases hquote with rfl | rfl <;> decide
        simp [behind, opened, next, hescape]
    | escaped _ _ ih => simpa [behind, opened, next] using ih
    | plain hne hescape _ ih => simpa [behind, opened, next, hne, hescape] using ih
  have hparenthesis : quote ≠ '(' ∧ quote ≠ ')' := by
    rcases hquote with rfl | rfl <;> constructor <;> decide
  have hnext : code.next quote = literal quote false := if_pos hquote
  refine ⟨?_, ?_⟩
  · change (code.next quote).behind body = code
    rw [hnext, hwithin.1]
  · rw [opened, hnext, hwithin.2]
    simp [hparenthesis]

/-- A literal that is closed has an end. -/
theorem exists_isBody (hline : '\n' ∉ t) (hclosed : (literal quote false).behind t = code) :
    ∃ body rest, t = body ++ rest ∧ IsBody quote body := by
  fun_induction extent? quote t with
  | case1 => cases hclosed
  | case2 => simp at hline
  | case3 c rest hc ih =>
      simp only [List.mem_cons, not_or] at hline
      obtain ⟨body, behind, rfl, hbody⟩ := ih hline.2.2 (by simpa [behind, next] using hclosed)
      exact ⟨'\\' :: c :: body, behind, rfl, .escaped hc hbody⟩
  | case4 rest _ => exact ⟨[quote], rest, rfl, .closing⟩
  | case5 rest hlast hne =>
      -- behind a backslash at the end the literal is open
      obtain rfl : rest = [] := by
        cases rest with
        | nil => rfl
        | cons d more => exact absurd rfl (hlast d more rfl)
      simp [behind, next] at hclosed
  | case6 c rest _ hne hescape ih =>
      simp only [List.mem_cons, not_or] at hline
      obtain ⟨body, behind, rfl, hbody⟩ :=
        ih hline.2 (by simpa [behind, next, hne, hescape] using hclosed)
      exact ⟨c :: body, behind, rfl, .plain hne hescape hbody⟩

/-- A text whose literals are closed is made of characters of code and of whole literals. -/
theorem closed_induction {motive : Text → Prop} (nil : motive [])
    (plain : ∀ c rest, c ≠ '"' → c ≠ '\'' → motive rest → motive (c :: rest))
    (literal : ∀ quote body rest, quote = '"' ∨ quote = '\'' → IsBody quote body → motive rest →
      motive (quote :: (body ++ rest)))
    (hline : '\n' ∉ t) (hclosed : code.behind t = code) : motive t := by
  induction hlength : t.length using Nat.strongRecOn generalizing t with
  | _ n ih =>
      cases t with
      | nil => exact nil
      | cons c rest =>
          have hrest : '\n' ∉ rest := List.not_mem_of_not_mem_cons hline
          by_cases hquote : c = '"' ∨ c = '\''
          · have hwithin : (code.next c).behind rest = code := hclosed
            rw [show code.next c = .literal c false from if_pos hquote] at hwithin
            obtain ⟨body, rest, rfl, hbody⟩ := exists_isBody hrest hwithin
            rw [← List.cons_append, behind_append, (behind_literal hbody hquote).1] at hclosed
            refine literal c body rest hquote hbody (ih _ ?_ ?_ hclosed rfl)
            · rw [← hlength, List.length_cons, List.length_append]
              omega
            · exact fun h => hrest (List.mem_append_right body h)
          · rw [not_or] at hquote
            have hbehind : (code.next c).behind rest = code := hclosed
            rw [next_code_of_notQuote hquote.1 hquote.2] at hbehind
            refine plain c rest hquote.1 hquote.2 (ih _ ?_ hrest hbehind rfl)
            rw [← hlength, List.length_cons]
            omega

end Place
end Almanac.Source.Literal
