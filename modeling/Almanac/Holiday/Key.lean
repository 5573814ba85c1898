import Almanac.Text.Case
import Almanac.Text.Letter

/-!
# Keys of holidays

The key of a holiday is its name in lower case, cut into words that are joined by underscores. An
apostrophe belongs to its word; every other character that is no letter or numeral separates
words. A name without a word has the empty key.
-/

namespace Almanac.Holiday.Key

open Almanac.Text

def isKeyChar (c : Char) : Bool :=
  c = '\'' || (isWord c && c ≠ '_')

/-- The words of a text: its longest runs of characters that may stand in one. -/
def words : Text → List Text
  | [] => []
  | c :: rest =>
      if isKeyChar c then
        match rest with
        | [] => [[c]]
        | d :: _ =>
            if isKeyChar d then
              match words rest with
              | [] => [[c]]
              | word :: more => (c :: word) :: more
            else [c] :: words rest
      else words rest

def ofName (name : Text) : Text :=
  join "_" (words (lower name))

/-- The key that stands for a further holiday of the same name, the second one first. -/
def numbered (key : Text) (n : Nat) : Text :=
  key ++ '_' :: ofNat n

end Almanac.Holiday.Key
