import Almanac.Text.Search

/-!
# String literals

A string literal of a source file stands between two quotes of one sort, single or double. Within
it a backslash takes the next character along, so a quote after a backslash does not close the
literal; a backslash at the end of a line leaves the literal without an end. A quote that nothing
closes opens no literal.
-/

namespace Almanac.Source.Literal

open Almanac.Text

/-- How many characters the literal takes after its opening quote, the closing quote included, or
nothing if no quote closes it. -/
def extent? (quote : Char) : Text → Option Nat
  | [] => none
  | '\\' :: c :: rest => if c = '\n' then none else (extent? quote rest).map (· + 2)
  | c :: rest =>
      if c = quote then some 1
      else if c = '\\' then none
      else (extent? quote rest).map (· + 1)

/-- The body of a literal with the given quote at the start of the text, and the rest of the
text. -/
def read? (quote : Char) : Text → Option (Text × Text)
  | [] => none
  | c :: rest =>
      if c = quote then
        (extent? quote rest).map fun n => (rest.take (n - 1), rest.drop n)
      else none

/-- The body of the first literal with the given quote, and the text after that literal. -/
def find? (quote : Char) (t : Text) : Option (Text × Text) :=
  Text.find? (read? quote) t

/-- How many characters a literal at the start of the text takes after its opening quote. -/
def openingExtent? : Text → Option Nat
  | [] => none
  | c :: rest => if c = '"' ∨ c = '\'' then extent? c rest else none

def hollow : Text → Text
  | [] => []
  | c :: rest =>
      match openingExtent? (c :: rest) with
      | none => c :: hollow rest
      | some n => '"' :: '"' :: hollow (rest.drop n)
termination_by t => t.length
decreasing_by
  all_goals simp only [List.length_cons, List.length_drop]
  all_goals omega

end Almanac.Source.Literal
