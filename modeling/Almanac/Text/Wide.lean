import Almanac.Text.Blank
import Almanac.Text.Case

/-!
# Wide texts

A format that names characters by number can name half of a surrogate pair without the other half.
Such halves are no characters, but they stand in the texts of JSON values and of the settings like
characters: two of them are told apart, and they have a place in the order of code points. A wide
text may hold them. Every text is a wide text, and a wide text without halves is a text.
-/

namespace Almanac

/-- A character, or half of a surrogate pair that stands alone. -/
inductive CodePoint where
  | char (c : Char)
  | half (n : Fin 2048)
deriving DecidableEq, Repr

namespace CodePoint

def number : CodePoint → Nat
  | char c => c.toNat
  | half n => 0xD800 + n

def char? : CodePoint → Option Char
  | char c => some c
  | half _ => none

def isBlank : CodePoint → Bool
  | char c => Text.isBlank c
  | half _ => false

end CodePoint

/-- A sequence of characters and halves of surrogate pairs. -/
abbrev WideText := List CodePoint

instance : LawfulBEq WideText := List.instLawfulBEq

/-- A text as a wide text. -/
def Text.wide (t : Text) : WideText :=
  t.map .char

instance : Coe Text WideText := ⟨Text.wide⟩

instance : Coe String WideText := ⟨fun s => Text.wide s⟩

namespace WideText

/-- The text that the wide text is; nothing if it holds a half. -/
def text? : WideText → Option Text
  | [] => some []
  | .char c :: rest => (text? rest).map (c :: ·)
  | .half _ :: _ => none

def strip (t : WideText) : WideText :=
  Text.trim CodePoint.isBlank t

def upper (t : WideText) : WideText :=
  t.flatMap fun
    | .char c => Text.wide (Text.upperChar c)
    | .half n => [.half n]

def precedes : WideText → WideText → Bool
  | _, [] => false
  | [], _ :: _ => true
  | p :: s, q :: t => p.number < q.number || (p = q && precedes s t)

/-- Texts sorted by code points; equal texts keep their places among each other. -/
def sort (ts : List WideText) : List WideText :=
  ts.mergeSort fun a b => !precedes b a

theorem text?_eq_some_iff {t : WideText} {s : Text} : t.text? = some s ↔ t = s.wide := by
  induction t generalizing s with
  | nil => cases s <;> simp [text?, Text.wide]
  | cons p t ih =>
      cases p with
      | half n => cases s <;> simp [text?, Text.wide]
      | char c =>
          rw [text?, Option.map_eq_some_iff]
          constructor
          · rintro ⟨more, hmore, rfl⟩
            rw [ih.mp hmore]
            rfl
          · intro h
            cases s with
            | nil => cases h
            | cons d s =>
                obtain ⟨hc, ht⟩ := List.cons.inj h
                obtain rfl := CodePoint.char.inj hc
                exact ⟨s, ih.mpr ht, rfl⟩

/-- A wide text is no text just if there is a half in it. -/
theorem text?_eq_none_iff {t : WideText} : t.text? = none ↔ ∃ n, .half n ∈ t := by
  induction t with
  | nil => simp [text?]
  | cons p t ih =>
      cases p with
      | half n => simp [text?]
      | char c => simp [text?, ih]

end WideText

namespace Text

variable {s t : Text}

@[simp]
theorem wide_nil : wide [] = [] := rfl

@[simp]
theorem wide_cons (c : Char) (t : Text) : wide (c :: t) = .char c :: t.wide := rfl

@[simp]
theorem wide_append (s t : Text) : wide (s ++ t) = s.wide ++ t.wide :=
  List.map_append

@[simp]
theorem text?_wide (t : Text) : t.wide.text? = some t :=
  WideText.text?_eq_some_iff.mpr rfl

@[simp]
theorem wide_inj : s.wide = t.wide ↔ s = t :=
  List.map_inj_right fun _ _ => CodePoint.char.inj

end Text

/-- Texts sorted by code points. -/
def Text.sort (ts : List Text) : List Text :=
  ts.mergeSort fun a b => !WideText.precedes b a

end Almanac
