import Almanac.Console.Layout
import Almanac.Strategy.Comparison

/-!
# The table of a comparison

The comparison of the strategies is shown as a table with a row for each: its name and the count of
its definitions. The title stands in the middle above the table, in as many lines as it needs.
-/

namespace Almanac.Console.Table

open Almanac.Text Almanac.Strategy

/-- The width of the column of names, without the space around it. -/
def nameWidth : Nat := 12

/-- The width of the column of counts, without the space around it. -/
def countWidth : Nat := 11

def tableWidth : Nat := nameWidth + countWidth + 7

def filled (width : Nat) (t : Text) : Text :=
  t ++ List.replicate (width - t.length) ' '

def filledStart (width : Nat) (t : Text) : Text :=
  List.replicate (width - t.length) ' ' ++ t

/-- A line across the table, from its corners and the cross between them. -/
def rule (left line cross right : Char) : Text :=
  [left] ++ List.replicate (nameWidth + 2) line ++ [cross]
    ++ List.replicate (countWidth + 2) line ++ [right]

def row (border : Char) (first second : Text) : Text :=
  [border, ' '] ++ filled nameWidth first ++ [' ', border, ' ']
    ++ second ++ [' ', border]

def countRow (name : Name) (count : Nat) : Text :=
  row '│' name.text (filledStart countWidth (ofNat count))

def titleLines (title : Text) : Except Stop (List Text) :=
  match laidOut tableWidth title with
  | .error fault => .error fault.stop
  | .ok found => .ok (found.flatMap fun line => seenLines (centred tableWidth line))

def lines (title : Text) (structural linePattern : Nat) : Except Stop (List Text) :=
  (titleLines title).map fun above => above ++ [
    rule '┏' '━' '┳' '┓',
    row '┃' (filled nameWidth "Strategy") (filled countWidth "Definitions"),
    rule '┡' '━' '╇' '┩',
    countRow .structural structural,
    countRow .linePattern linePattern,
    rule '└' '─' '┴' '┘']

end Almanac.Console.Table
