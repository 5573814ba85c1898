import Almanac.Console.Markup
import Almanac.Text.Blank
import Almanac.Text.Width

/-!
# Lines on the console

A text is laid out in lines of at most a given width. A line that is too long is broken before a
word; a word that alone is too long is broken where the width is reached. A tab reaches to the next
multiple of eight cells.
-/

namespace Almanac.Console

open Almanac.Text

def tabStop : Nat := 8

/-- The text with its tabs turned into spaces; the column is that of its first character. -/
def withoutTabs (column : Nat) : Text → Text
  | [] => []
  | c :: rest =>
      if c = '\t' then
        let spaces := tabStop - column % tabStop
        List.replicate spaces ' ' ++ withoutTabs (column + spaces) rest
      else c :: withoutTabs (column + charWidth c) rest

/-- The words of a text, each with the white space behind it; the first one has that before it as
well. -/
def words (t : Text) : List Text :=
  let rec behind (word : Text) (ended : Bool) : Text → List Text
    | [] => [word.reverse]
    | c :: rest =>
        if isBlank c then behind (c :: word) true rest
        else if ended then word.reverse :: behind [c] false rest
        else behind (c :: word) false rest
  let blanks := t.takeWhile isBlank
  behind blanks.reverse false (t.drop blanks.length)

def chopped (limit : Nat) (part : Text) (used : Nat) : Text → List Text
  | [] => [part.reverse]
  | c :: rest =>
      if limit < used + charWidth c then part.reverse :: chopped limit [c] (charWidth c) rest
      else chopped limit (c :: part) (used + charWidth c) rest

/-- A layout in the making: the lines before, the last one first, and the current line. -/
structure Draft where
  before : List Text := []
  current : Text := []

def Draft.broken (draft : Draft) : Draft :=
  if draft.current.isEmpty then draft else ⟨draft.current :: draft.before, []⟩

def Draft.add (limit : Nat) (draft : Draft) (word : Text) : Draft :=
  if width draft.current + width (stripEnd word) ≤ limit then
    { draft with current := draft.current ++ word }
  else if width (stripEnd word) ≤ limit then
    { draft.broken with current := word }
  else
    match (chopped limit [] 0 word).reverse with
    | [] => draft
    | last :: others => ⟨others ++ draft.broken.before, last⟩

def wrapped (limit : Nat) (line : Text) : List Text :=
  let draft := (words line).foldl (Draft.add limit) {}
  (draft.current :: draft.before).reverse

/-- The lines of a text with markup, of at most the width each. -/
def laidOut (limit : Nat) (t : Text) : Except Markup.Fault (List Text) :=
  (Markup.text t).map fun shown =>
    (pieces '\n' shown).flatMap fun line => wrapped limit (withoutTabs 0 line)

/-- A line in the middle of the width, as far as it can be. -/
def centred (limit : Nat) (line : Text) : Text :=
  let kept := stripEnd line
  List.replicate ((limit - width kept) / 2) ' ' ++ kept

def consoleWidth : Nat := 1000

/-- A laid-out line as it is seen. White space at its end is not, and characters that separate
lines do so here too. -/
def seenLines (line : Text) : List Text :=
  (lines (line ++ "\n")).map stripEnd

/-- The lines that printing a text with markup puts on the console, which takes no halves of
surrogate pairs. -/
def printed (t : WideText) : Except Stop (List Text) :=
  match t.text? with
  | none => .error (.mishap (.unencodable t))
  | some plain =>
      match laidOut consoleWidth plain with
      | .error fault => .error fault.stop
      | .ok found => .ok (found.flatMap seenLines)

end Almanac.Console
