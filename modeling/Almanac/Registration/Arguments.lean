import Almanac.Registration.Shape
import Almanac.Source.Literal

/-!
# Arguments of registration calls

The arguments of a call can run over several lines. They are joined, with a space between the
pieces, until the parenthesis of the call is closed, for at most eight lines and never beyond a
line with another call. From the joined text come the name of the holiday, which is its first
double-quoted literal or else its first single-quoted one, and the tail behind the name, which for
some shapes tells the date.
-/

namespace Almanac.Registration

open Almanac.Text Almanac.Source Almanac.Holiday

namespace Arguments

/-- How many parentheses the code of a text opens more than it closes. Literals and what follows a
`#` are no code. -/
def balance (t : Text) : Int :=
  let code := (Literal.hollow t).takeWhile (· ≠ '#')
  (code.count '(' : Int) - code.count ')'

/-- How many of the lines behind a call its arguments can run over. -/
def maxContinuations : Nat := 8

/-- Is there nothing but a comment on the line, once it is stripped? -/
def isComment : Text → Bool
  | '#' :: _ => true
  | _ => false

/-- The pieces of the following lines that belong to arguments with so many parentheses open. -/
def continuation (shapes : List Shape) (depth : Int) : List Text → List Text
  | [] => []
  | line :: rest =>
      let piece := strip line
      -- empty lines and comments count as lines, but not as pieces
      if piece.isEmpty || isComment piece then continuation shapes depth rest
      else if hasSite shapes piece then []
      else
        let depth := depth + balance piece
        if depth ≤ 0 then [piece] else piece :: continuation shapes depth rest

/-- The arguments that begin with the given text, completed from the following lines. -/
def complete (shapes : List Shape) (arguments : Text) (following : List Text) : Text :=
  let depth := 1 + balance arguments
  if depth ≤ 0 then arguments
  else join " " (arguments :: continuation shapes depth (following.take maxContinuations))

/-- The text with a quote of either sort in place of each quote behind a backslash. -/
def unescape : Text → Text
  | '\\' :: '"' :: rest => '"' :: unescape rest
  | '\\' :: '\'' :: rest => '\'' :: unescape rest
  | c :: rest => c :: unescape rest
  | [] => []

def name? (arguments : Text) : Option (Text × Text) :=
  ((Literal.find? '"' arguments).or (Literal.find? '\'' arguments)).map fun (body, rest) =>
    (unescape body, rest)

/-- The text with every comment removed, from its `#` to the end of its line. -/
def withoutComments : (inComment : Bool) → Text → Text
  | _, [] => []
  | inComment, c :: rest =>
      if c = '\n' then c :: withoutComments false rest
      else if inComment || c = '#' then withoutComments true rest
      else c :: withoutComments false rest

/-- The text without the closing parenthesis at its end, if it has one. -/
def withoutClosing (t : Text) : Text :=
  match t.reverse with
  | ')' :: rest => stripEnd rest.reverse
  | _ => t

/-- What stands between the name of the holiday and the end of the call. -/
def tail (t : Text) : Text :=
  let t := strip (withoutComments false t)
  let t := strip (trimStart (fun c => c = ')' || c = ',') t)
  strip (trimEnd (· = ',') (withoutClosing t))

/-- A sign and the digits behind it at the start of the text, where a number may stand: whether
the sign is a minus, and the digits. -/
def signedNumber? (t : Text) : Option (Bool × Text) := do
  let (negative, rest) := (DateExpression.sign? t).getD (false, t)
  -- white space may stand behind the sign
  let (digits, rest) ← some? isDecimal (stripStart rest)
  if endsWord rest then some (negative, digits) else none

/-- The first number in the text that is no part of a name or of a number with a point. -/
def findNumber? (t : Text) : Option (Bool × Text) :=
  search (fun c => isWord c || c = '.') signedNumber? false t

end Arguments
end Almanac.Registration
