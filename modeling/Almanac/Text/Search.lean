import Almanac.Text.Blank
import Almanac.Text.Letter

/-!
# Searching

A scanner looks at the beginning of a text and answers with what it read there, or with nothing.
A search offers a scanner every position of a text from left to right and takes the first answer.
A *barrier* is a class of characters that a match may not follow: with word characters as the
barrier a search finds whole words only.
-/

namespace Almanac.Text

/-- The first answer of the scanner at a position that no barrier character precedes.
`blocked` says whether a barrier character stands right before the text. -/
def search {α : Type} (barrier : Char → Bool) (scan : Text → Option α) (blocked : Bool) :
    Text → Option α
  | [] => none
  | c :: rest =>
      match if blocked then none else scan (c :: rest) with
      | some found => some found
      | none => search barrier scan (barrier c) rest

def find? {α : Type} (scan : Text → Option α) (t : Text) : Option α :=
  search (fun _ => false) scan false t

/-- The first answer of the scanner at a position where a word may begin. -/
def findWord? {α : Type} (scan : Text → Option α) (t : Text) : Option α :=
  search isWord scan false t

/-- The first answer of the scanner at a position where a line begins. Only a line feed ends a
line here. -/
def findLine? {α : Type} (scan : Text → Option α) (t : Text) : Option α :=
  search (· ≠ '\n') scan false t

/-- All answers of the scanner from left to right at positions that no barrier character precedes.
The scanner gives with each answer the text behind what it read, and the search goes on there, or
one character further if it read nothing. -/
def searchAll {α : Type} (barrier : Char → Bool) (scan : Text → Option (α × Text))
    (blocked : Bool) : Text → List α
  | [] => []
  | c :: rest =>
      match if blocked then none else scan (c :: rest) with
      | none => searchAll barrier scan (barrier c) rest
      | some (found, behind) =>
          let more := rest.length - behind.length
          found :: searchAll barrier scan (barrier ((c :: rest).getD more c)) (rest.drop more)
termination_by t => t.length
decreasing_by
  all_goals simp only [List.length_cons, List.length_drop]
  all_goals omega

def findAll {α : Type} (scan : Text → Option (α × Text)) (t : Text) : List α :=
  searchAll (fun _ => false) scan false t

def findAllWords {α : Type} (scan : Text → Option (α × Text)) (t : Text) : List α :=
  searchAll isWord scan false t

def findAllLines {α : Type} (scan : Text → Option (α × Text)) (t : Text) : List α :=
  searchAll (· ≠ '\n') scan false t

/-- The rest of the text after a keyword that white space may precede. -/
def afterBlank? (opening : Text) (t : Text) : Option Text :=
  after? opening (stripStart t)

/-- The characters of a class at the start of the text, if there is at least one, and the rest. -/
def some? (p : Char → Bool) (t : Text) : Option (Text × Text) :=
  match t.takeWhile p with
  | [] => none
  | c :: more => some (c :: more, t.dropWhile p)

/-- One or two decimal digits at the start of the text, as many as there are, and the rest. -/
def oneOrTwoDigits? : Text → Option (Text × Text)
  | [] => none
  | c :: rest =>
      if isDecimal c then
        match rest with
        | [] => some ([c], [])
        | d :: more => if isDecimal d then some ([c, d], more) else some ([c], d :: more)
      else none

end Almanac.Text
