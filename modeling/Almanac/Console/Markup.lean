import Almanac.Failure
import Almanac.Text.Blank
import Almanac.Text.Case

/-!
# Markup

A text that is printed may hold tags in square brackets, which style what is between an opening and
a closing tag. A bracket opens a tag if a small letter, a hash, a slash or an at sign follows, and
no other bracket opens before the tag is closed. A tag that begins with a slash closes the last tag
of its name, or with no name the last tag of all; there must be one. A backslash before a bracket
takes its meaning. Here styles are dropped and the text that is seen is kept.
-/

namespace Almanac.Console.Markup

open Almanac.Text

/-- A part of a text with markup. -/
inductive Piece where
  | plain (t : Text)
  /-- A tag without its brackets, and where it begins. -/
  | tag (t : Text) (position : Nat)
deriving DecidableEq, Repr

/-- Why markup makes no sense. -/
inductive Fault where
  | unmatched (tag : Text) (position : Nat)
  | nothingOpen (position : Nat)
deriving DecidableEq, Repr

def Fault.stop : Fault → Stop
  | unmatched tag position => .mishap ⟨"MarkupError",
      "closing tag '[" ++ tag ++ "]' at position " ++ Text.ofNat position
        ++ " doesn't match any open tag"⟩
  | nothingOpen position => .mishap ⟨"MarkupError",
      "closing tag '[/]' at position " ++ Text.ofNat position ++ " has nothing to close"⟩

def opensTag (c : Char) : Bool :=
  ('a' ≤ c && c ≤ 'z') || c = '#' || c = '/' || c = '@'

/-- The tag at the start of the text behind its opening bracket, without the brackets. -/
def tag? : Text → Option Text
  | [] => none
  | c :: rest =>
      if opensTag c then
        let body := rest.takeWhile fun d => d ≠ '[' && d ≠ ']'
        if (rest.drop body.length).head? = some ']' then some (c :: body) else none
      else none

/-- The backslashes at the start of the text and the tag behind them, if one stands there. -/
def escapedTag? (t : Text) : Option (Nat × Text) :=
  let slashes := (t.takeWhile (· = '\\')).length
  match t.drop slashes with
  | c :: rest => if c = '[' then (tag? rest).map fun tag => (slashes, tag) else none
  | [] => none

/-- The pieces that a tag behind backslashes stands for: every two backslashes are one, and a
single one makes the tag plain. -/
def escapedPieces (position slashes : Nat) (tag : Text) : List Piece :=
  let kept : List Piece :=
    if slashes < 2 then [] else [.plain (List.replicate (slashes / 2) '\\')]
  kept ++ [if slashes % 2 = 1 then .plain ('[' :: tag ++ "]")
    else .tag tag (position + slashes / 2 * 2)]

def withChar (c : Char) : List Piece → List Piece
  | .plain t :: rest => .plain (c :: t) :: rest
  | pieces => .plain [c] :: pieces

/-- The pieces of the rest of a text that begins at the position. -/
def piecesFrom (position : Nat) : Text → List Piece
  | [] => []
  | c :: rest =>
      match escapedTag? (c :: rest) with
      | some (slashes, tag) =>
          let length := slashes + tag.length + 2
          escapedPieces position slashes tag
            ++ piecesFrom (position + length) (rest.drop (length - 1))
      | none => withChar c (piecesFrom (position + 1) rest)
termination_by t => t.length
decreasing_by
  all_goals simp only [List.length_cons, List.length_drop]
  all_goals omega

def unescaped : Text → Text
  | '\\' :: '[' :: rest => '[' :: unescaped rest
  | c :: rest => c :: unescaped rest
  | [] => []

def nameOf (tag : Text) : Text :=
  tag.takeWhile (· ≠ '=')

def shortNames : List (Text × Text) :=
  [("b", "bold"), ("c", "conceal"), ("d", "dim"), ("i", "italic"), ("o", "overline"),
   ("r", "reverse"), ("s", "strike"), ("u", "underline"), ("uu", "underline2")]

def normalized (name : Text) : Text :=
  let plain := lower (strip name)
  (shortNames.lookup plain).getD plain

/-- The tags that are open after one more, the last one first. -/
def openAfter (opened : List Text) (tag : Text) (position : Nat) : Except Fault (List Text) :=
  match nameOf tag with
  | '/' :: name =>
      if (strip name).isEmpty then
        match opened with
        | [] => .error (.nothingOpen position)
        | _ :: others => .ok others
      else if normalized name ∈ opened then .ok (opened.erase (normalized name))
      else .error (.unmatched tag position)
  | name => .ok (normalized name :: opened)

/-- The seen text of pieces, given the open tags, the last one first. -/
def seen (opened : List Text) : List Piece → Except Fault Text
  | [] => .ok []
  | .plain t :: rest => (seen opened rest).map fun more => unescaped t ++ more
  | .tag tag position :: rest =>
      match openAfter opened tag position with
      | .error fault => .error fault
      | .ok opened => seen opened rest

/-- Is the character one that a console does not show: a bell, a backspace, a vertical tab, a form
feed or a carriage return? -/
def isStruck (c : Char) : Bool :=
  c.toNat ∈ [7, 8, 11, 12, 13]

def text (t : Text) : Except Fault Text :=
  (seen [] (piecesFrom 0 t)).map fun shown => shown.filter fun c => !isStruck c

end Almanac.Console.Markup
