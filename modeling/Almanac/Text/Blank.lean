import Almanac.Text.Basic

/-!
# White space and lines

The white space of texts is that of Unicode 14 together with the four information separators
`U+001C` to `U+001F`. Zero-width characters and the byte order mark are no white space.

A text falls into lines at eleven of these characters: line feed, carriage return, the vertical and
page feeds, three of the information separators, next line, and the line and paragraph separators.
A carriage return followed by a line feed is one break. The last line needs no break, and a break
at the end of the text opens no further line.
-/

namespace Almanac.Text

/-- The intervals of code points that are white space, in increasing order. -/
def blankIntervals : List (Nat × Nat) :=
  [(9, 13), (28, 32), (133, 133), (160, 160), (5760, 5760), (8192, 8202), (8232, 8233),
   (8239, 8239), (8287, 8287), (12288, 12288)]

def isBlank (c : Char) : Bool :=
  inIntervals blankIntervals c.toNat

def strip (t : Text) : Text :=
  trim isBlank t

def stripStart (t : Text) : Text :=
  trimStart isBlank t

def stripEnd (t : Text) : Text :=
  trimEnd isBlank t

def isLineBreak (c : Char) : Bool :=
  let n := c.toNat
  (10 ≤ n && n ≤ 13) || (28 ≤ n && n ≤ 30) || n == 133 || n == 8232 || n == 8233

def lines : Text → List Text
  | [] => []
  | '\r' :: '\n' :: rest => [] :: lines rest
  | c :: rest =>
      if isLineBreak c then [] :: lines rest
      else match lines rest with
        | [] => [[c]]
        | line :: more => (c :: line) :: more

end Almanac.Text
