/-!
# Texts

A text is a list of characters, so that every scanner in the library is a recursion on the text
that it reads. Positions and lengths count characters. This module holds the operations on texts
that need no table of characters: joining, trimming by a class of characters, and membership in a
table of intervals of code points.
-/

namespace Almanac

/-- A sequence of characters. -/
abbrev Text := List Char

instance : Coe String Text := ⟨String.toList⟩

instance : LawfulBEq Text := List.instLawfulBEq

namespace Text

/-- Membership of a code point in a table of closed intervals, which are in increasing order, so
the search stops at the first interval that begins beyond the code point. -/
def inIntervals : List (Nat × Nat) → Nat → Bool
  | [], _ => false
  | (low, high) :: rest, n =>
      if n < low then false
      else n ≤ high || inIntervals rest n

def trimStart {α : Type} (p : α → Bool) (t : List α) : List α :=
  t.dropWhile p

def trimEnd {α : Type} (p : α → Bool) (t : List α) : List α :=
  (t.reverse.dropWhile p).reverse

def trim {α : Type} (p : α → Bool) (t : List α) : List α :=
  trimEnd p (trimStart p t)

def join (separator : Text) : List Text → Text
  | [] => []
  | [t] => t
  | t :: rest => t ++ separator ++ join separator rest

/-- The pieces between the occurrences of a character; there is one more piece than
occurrences. -/
def pieces (separator : Char) : Text → List Text
  | [] => [[]]
  | c :: rest =>
      if c = separator then [] :: pieces separator rest
      else match pieces separator rest with
        | [] => [[c]]
        | piece :: pieces => (c :: piece) :: pieces

/-- The rest of the text after an opening, if the text opens that way. -/
def after? : (opening : Text) → Text → Option Text
  | [], t => some t
  | _ :: _, [] => none
  | o :: opening, c :: rest => if o = c then after? opening rest else none

def contains (piece : Text) : Text → Bool
  | [] => piece.isEmpty
  | c :: rest => (after? piece (c :: rest)).isSome || contains piece rest

/-- The text with every occurrence of a character replaced by a text. -/
def substitute (c : Char) (replacement : Text) (t : Text) : Text :=
  t.flatMap fun d => if d = c then replacement else [d]

def ofNat (n : Nat) : Text :=
  Nat.toDigits 10 n

/-- The decimal digits of an integer, after a minus sign if it is negative. -/
def ofInt : Int → Text
  | .ofNat n => ofNat n
  | .negSucc n => '-' :: ofNat (n + 1)

end Text
end Almanac
