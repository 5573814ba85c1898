import Almanac.Source.Literal
import Almanac.Text.Blank

/-!
# Tokens of a source file

A source file is cut into tokens line by line, and nothing is carried from one line to the next.
Blank lines and lines that hold a comment only give no token. On every other line the leading
spaces become an indentation token, and from there the first rule of an ordered table that matches
at least one character takes its characters. White space is passed over, a `#` ends the line, and
a character that no rule takes is skipped and counted, because the aim is to find declarations and
not to judge the file. A tokenizer cuts one text after another by the same rules; its count of
skipped characters begins anew with each text and goes on from line to line.
-/

namespace Almanac.Source

open Almanac.Text

/-- The kinds of token. -/
inductive TokenKind where
  | classKeyword
  | defKeyword
  | selfKeyword
  | string
  | number
  | identifier
  | operator
  | indent
deriving DecidableEq, Repr

namespace TokenKind

def name : TokenKind → Text
  | classKeyword => "class"
  | defKeyword => "def"
  | selfKeyword => "self"
  | string => "string"
  | number => "number"
  | identifier => "identifier"
  | operator => "operator"
  | indent => "indent"

def all : List TokenKind :=
  [classKeyword, defKeyword, selfKeyword, string, number, identifier, operator, indent]

def ofName? (name : Text) : Option TokenKind :=
  all.find? fun kind => kind.name = name

end TokenKind

/-- A token: its exact characters, its line counted from one, and the number of characters before
it on that line. -/
structure Token where
  kind : TokenKind
  text : Text
  line : Nat
  column : Nat
deriving DecidableEq, Repr

/-- The rules that cut tokens from a line. -/
inductive TokenRule where
  | classWord
  | defWord
  | selfWord
  | doubleQuoted
  | singleQuoted
  | number
  | identifier
  | operator
deriving DecidableEq, Repr

namespace TokenRule

/-- The rules in the order in which they are tried: keywords come before identifiers. -/
def all : List TokenRule :=
  [classWord, defWord, selfWord, doubleQuoted, singleQuoted, number, identifier, operator]

def kind : TokenRule → TokenKind
  | classWord => .classKeyword
  | defWord => .defKeyword
  | selfWord => .selfKeyword
  | doubleQuoted | singleQuoted => .string
  | number => .number
  | identifier => .identifier
  | operator => .operator

/-- The length of the word at the start of the text, or zero if the text opens otherwise or the
word goes on. -/
def wordLength (word t : Text) : Nat :=
  match after? word t with
  | some rest => if endsWord rest then word.length else 0
  | none => 0

/-- The length of a literal at the start of the text, both quotes included, or zero. -/
def quotedLength (quote : Char) : Text → Nat
  | [] => 0
  | c :: rest => if c = quote then ((Literal.extent? quote rest).map (· + 1)).getD 0 else 0

/-- Is the character an operator? Each operator is a token by itself. -/
def isOperator (c : Char) : Bool :=
  c ∈ ("+-*/=(),.:" : Text)

/-- How many characters the rule takes from the start of the text; zero means no match. -/
def extent : TokenRule → Text → Nat
  | classWord, t => wordLength "class" t
  | defWord, t => wordLength "def" t
  | selfWord, t => wordLength "self" t
  | doubleQuoted, t => quotedLength '"' t
  | singleQuoted, t => quotedLength '\'' t
  | number, t => (t.takeWhile isDecimal).length
  | identifier, t => identifierLength t
  | operator, [] => 0
  | operator, c :: _ => if isOperator c then 1 else 0

/-- The first rule of the table that takes characters from the start of the text, as the kind of
token it makes and the number of characters. -/
def first? (rules : List TokenRule) (t : Text) : Option (TokenKind × Nat) :=
  rules.findSome? fun rule =>
    if 0 < rule.extent t then some (rule.kind, rule.extent t) else none

end TokenRule

/-- The tokens found, and how many characters no rule took. -/
structure TokenStream where
  tokens : List Token
  skipped : Nat
deriving DecidableEq, Repr

namespace TokenStream

def empty : TokenStream := ⟨[], 0⟩

def cons (token : Token) (stream : TokenStream) : TokenStream :=
  ⟨token :: stream.tokens, stream.skipped⟩

def skip (stream : TokenStream) : TokenStream :=
  ⟨stream.tokens, stream.skipped + 1⟩

def append (first second : TokenStream) : TokenStream :=
  ⟨first.tokens ++ second.tokens, first.skipped + second.skipped⟩

/-- The tokens of the rest of a line that begins at the given column. -/
def ofRest (rules : List TokenRule) (line : Nat) (column : Nat) : Text → TokenStream
  | [] => empty
  | c :: rest =>
      if isBlank c then ofRest rules line (column + 1) rest
      else if c = '#' then empty
      else match TokenRule.first? rules (c :: rest) with
        | none => (ofRest rules line (column + 1) rest).skip
        | some (kind, length) =>
            (ofRest rules line (column + length) (rest.drop (length - 1))).cons
              ⟨kind, (c :: rest).take length, line, column⟩
termination_by t => t.length
decreasing_by
  all_goals simp only [List.length_cons, List.length_drop]
  all_goals omega

/-- Does the line hold nothing but white space or a comment? -/
def isIgnorable (line : Text) : Bool :=
  match strip line with
  | [] => true
  | c :: _ => c = '#'

def ofLine (rules : List TokenRule) (number : Nat) (line : Text) : TokenStream :=
  if isIgnorable line then empty
  else
    let indentation := line.takeWhile (· = ' ')
    let rest := ofRest rules number indentation.length (line.dropWhile (· = ' '))
    if indentation.isEmpty then rest
    else rest.cons ⟨.indent, indentation, number, 0⟩

/-- The tokens of lines that are numbered from the given number on. -/
def ofLines (rules : List TokenRule) (number : Nat) : List Text → TokenStream
  | [] => empty
  | line :: rest => (ofLine rules number line).append (ofLines rules (number + 1) rest)

def ofText (rules : List TokenRule) (t : Text) : TokenStream :=
  ofLines rules 1 (lines t)

end TokenStream

/-! ## Tokenizers -/

/-- A tokenizer: the table of its rules, and how many characters of its last text no rule took. -/
structure Tokenizer where
  rules : List TokenRule
  skipped : Nat := 0
deriving DecidableEq, Repr

namespace Tokenizer

/-- The tokens of lines that are numbered from the given number on, and the tokenizer behind
them, whose count goes on. -/
def cutLines (tokenizer : Tokenizer) (number : Nat) : List Text → List Token × Tokenizer
  | [] => ([], tokenizer)
  | line :: rest =>
      let stream := TokenStream.ofLine tokenizer.rules number line
      let counted := { tokenizer with skipped := tokenizer.skipped + stream.skipped }
      let (later, after) := counted.cutLines (number + 1) rest
      (stream.tokens ++ later, after)

/-- The tokens of a text, and the tokenizer behind it. -/
def tokenize (tokenizer : Tokenizer) (t : Text) : List Token × Tokenizer :=
  { tokenizer with skipped := 0 }.cutLines 1 (lines t)

end Tokenizer

end Almanac.Source
