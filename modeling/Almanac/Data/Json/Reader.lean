import Almanac.Data.Json.Basic
import Almanac.Text.Numeral

/-!
# Reading JSON

A text is first cut into lexemes, each with its position, and the lexemes then drive a machine
that builds the value. The machine holds the lists and objects that are still open, so no step
calls itself, and reading is a fold over the lexemes. How many can be open at once depends on who
reads: there is always room for the levels of a record, and for some more. Cutting never fails: a
text without an end, say, becomes a lexeme that carries the problem, and the problem counts only if
a value or a name was due there. Of a name that an object repeats the last value counts.
-/

namespace Almanac.Data.Json

/-- What keeps a text from being a value. -/
inductive ReadProblem where
  | noValue
  | noName
  | noColon
  | noComma
  | extraText
  | unclosedText
  | controlCharacter
  | badEscape
  | badUnicodeEscape
  | byteOrderMark
  /-- An integer of more than 4300 digits; the count of its digits. -/
  | oversizedInteger (digits : Nat)
  /-- A list or an object within as many others as can be open at once. -/
  | tooDeep (shape : Text)
deriving DecidableEq, Repr

/-- A problem and the position, counted in characters, where it shows. -/
structure ReadError where
  problem : ReadProblem
  position : Nat
deriving DecidableEq, Repr

/-- What a text is cut into. -/
inductive Lexeme where
  /-- A text, number, truth value or null. -/
  | scalar (value : Json)
  /-- Any other character, brackets, commas and colons among them. -/
  | mark (c : Char)
  /-- A text or number that cannot be read. -/
  | fault (error : ReadError)
  /-- The end of the text. -/
  | finish
deriving Repr

/-- A lexeme and the position of its first character. -/
structure Placed where
  position : Nat
  lexeme : Lexeme
deriving Repr

def isSpace (c : Char) : Bool :=
  c = ' ' || c = '\t' || c = '\n' || c = '\r'

/-- The number that four hexadecimal digits at the start of the text stand for. -/
def hexQuad? : Text → Option Nat
  | a :: b :: c :: d :: _ => Text.hexNumber? [a, b, c, d]
  | _ => none

def escaped? : Char → Option Char
  | '"' => some '"'
  | '\\' => some '\\'
  | '/' => some '/'
  | 'b' => some '\x08'
  | 'f' => some '\x0c'
  | 'n' => some '\n'
  | 'r' => some '\r'
  | 't' => some '\t'
  | _ => none

/-- What four hexadecimal digits escape: the character of that number, or half of a surrogate
pair. -/
def codePoint (n : Nat) : CodePoint :=
  if 0xD800 ≤ n ∧ n ≤ 0xDFFF then .half (Fin.ofNat 2048 (n - 0xD800)) else .char (Char.ofNat n)

/-- The number escaped after the first half of a surrogate pair, if an escape with a number
follows that does not end the text; nothing within if its digits are wrong. -/
def lowSurrogate? : Text → Option (Option Nat)
  | '\\' :: 'u' :: a :: b :: c :: d :: _ :: _ =>
      some (hexQuad? [a, b, c, d])
  | _ => none

/-- The characters of a text up to its closing quote, and how many characters that takes with the
quote. The text began at `start` and the rest begins at `position`. -/
def textBody (start : Nat) (position : Nat) : Text → Except ReadError (WideText × Nat)
  | [] => .error ⟨.unclosedText, start⟩
  | c :: rest =>
      if c = '"' then .ok ([], 1)
      else if c.toNat < 32 then .error ⟨.controlCharacter, position⟩
      else if c ≠ '\\' then
        match textBody start (position + 1) rest with
        | .error e => .error e
        | .ok (more, n) => .ok (.char c :: more, n + 1)
      else match rest with
        | [] => .error ⟨.unclosedText, start⟩
        | e :: after =>
            if e ≠ 'u' then
              match escaped? e with
              | none => .error ⟨.badEscape, position⟩
              | some d =>
                  match textBody start (position + 2) after with
                  | .error e => .error e
                  | .ok (more, n) => .ok (.char d :: more, n + 2)
            -- the digits must not be the end of the text
            else if after.length < 5 then .error ⟨.badUnicodeEscape, position + 1⟩
            else match hexQuad? after with
              | none => .error ⟨.badUnicodeEscape, position + 1⟩
              | some high =>
                  let single := fun (_ : Unit) =>
                    match textBody start (position + 6) (after.drop 4) with
                    | .error e => .error e
                    | .ok (more, n) => .ok (codePoint high :: more, n + 6)
                  -- two halves make one character, and a half without the other one stands alone
                  if 0xD800 ≤ high ∧ high ≤ 0xDBFF then
                    match lowSurrogate? (after.drop 4) with
                    | none => single ()
                    | some none => .error ⟨.badUnicodeEscape, position + 7⟩
                    | some (some low) =>
                        if 0xDC00 ≤ low ∧ low ≤ 0xDFFF then
                          match textBody start (position + 12) (after.drop 10) with
                          | .error e => .error e
                          | .ok (more, n) =>
                              let code := 0x10000 + (high - 0xD800) * 0x400 + (low - 0xDC00)
                              .ok (.char (Char.ofNat code) :: more, n + 12)
                        else single ()
                  else single ()
termination_by t => t.length
decreasing_by
  all_goals simp only [List.length_cons, List.length_drop]
  all_goals omega

/-- The digits before the point at the start of the text: a zero alone, or digits that begin with
another one. -/
def wholePart? : Text → Option Text
  | [] => none
  | c :: rest =>
      if c = '0' then some ['0']
      else if Text.isPlainDigit c then some (c :: rest.takeWhile Text.isPlainDigit)
      else none

/-- The digits of a fraction at the start of the text, behind a point. -/
def fractionPart : Text → Text
  | '.' :: rest => rest.takeWhile Text.isPlainDigit
  | _ => []

/-- The exponent at the start of the text and how many characters it takes; no characters if there
is no exponent. -/
def exponentPart : Text → Int × Nat
  | [] => (0, 0)
  | e :: rest =>
      if e = 'e' ∨ e = 'E' then
        let (negative, signed, digits) := match rest with
          | '-' :: more => (true, 1, more.takeWhile Text.isPlainDigit)
          | '+' :: more => (false, 1, more.takeWhile Text.isPlainDigit)
          | more => (false, 0, more.takeWhile Text.isPlainDigit)
        if digits.isEmpty then (0, 0)
        else
          -- beyond seven digits only the size of the exponent matters
          let size : Int := if 7 < digits.length ∧ 10000000 ≤ Text.plainNumber digits then 10000000
            else Text.plainNumber digits
          (if negative then -size else size, 1 + signed + digits.length)
      else (0, 0)

/-- The number at the start of the text and how many characters it takes. -/
def number? (position : Nat) (t : Text) : Option (Lexeme × Nat) :=
  let (negative, unsigned) := match t with
    | '-' :: rest => (true, rest)
    | _ => (false, t)
  let signed := if negative then 1 else 0
  (wholePart? unsigned).map fun whole =>
    let behind := unsigned.drop whole.length
    let fraction := fractionPart behind
    let pointed := if fraction.isEmpty then 0 else fraction.length + 1
    let (exponent, powered) := exponentPart (behind.drop pointed)
    let length := signed + whole.length + pointed + powered
    if pointed = 0 ∧ powered = 0 then
      if 4300 < whole.length then (.fault ⟨.oversizedInteger whole.length, position⟩, length)
      else
        let n : Int := Text.plainNumber whole
        (.scalar (.int (if negative then -n else n)), length)
    else
      let value := Binary64.ofDecimal negative (Text.plainNumber (whole ++ fraction))
        (exponent - fraction.length)
      (.scalar (.real value), length)

def words : List (Text × Json) :=
  [("null", null), ("true", bool true), ("false", bool false), ("NaN", real .undefined),
   ("Infinity", real (.infinite false)), ("-Infinity", real (.infinite true))]

/-- The word at the start of the text that stands for a value, and its length. -/
def word? (t : Text) : Option (Lexeme × Nat) :=
  words.findSome? fun (word, value) =>
    (Text.after? word t).map fun _ => (.scalar value, word.length)

/-- The lexeme at the start of a text that does not begin with white space, and how many
characters it takes. -/
def lexeme (position : Nat) (c : Char) (rest : Text) : Lexeme × Nat :=
  if c = '"' then
    match textBody position (position + 1) rest with
    | .ok (t, n) => (.scalar (.str t), n + 1)
    | .error e => (.fault e, 1)
  else
    match word? (c :: rest) with
    | some found => found
    | none =>
        match number? position (c :: rest) with
        | some found => found
        | none => (.mark c, 1)

/-- The lexemes of the rest of a text that begins at the position. -/
def lexemes (position : Nat) : Text → List Placed
  | [] => [⟨position, .finish⟩]
  | c :: rest =>
      if isSpace c then lexemes (position + 1) rest
      else
        let (found, length) := lexeme position c rest
        ⟨position, found⟩ :: lexemes (position + length) (rest.drop (length - 1))
termination_by t => t.length
decreasing_by
  all_goals simp only [List.length_cons, List.length_drop]
  all_goals omega

/-- A list or object that is still open, with what it holds so far. -/
inductive Frame where
  | list (items : List Json)
  | object (members : List (WideText × Json)) (name : WideText)
deriving Repr

/-- What is due next. -/
inductive Due where
  /-- A value. -/
  | value
  /-- A value or the end of the list that was just opened. -/
  | firstItem
  /-- A name or the end of the object that was just opened. -/
  | firstName
  /-- A name, in an object with these members. -/
  | name (members : List (WideText × Json))
  /-- A colon, in an object with these members and behind this name. -/
  | colon (members : List (WideText × Json)) (name : WideText)
  /-- A comma or the end of what is open, behind this value. -/
  | separator (value : Json)
  /-- Nothing more: this is the value of the whole text. -/
  | nothing (value : Json)
deriving Repr

/-- The state of reading: what is due, and what is open, innermost first. -/
structure ReadState where
  due : Due
  opened : List Frame
deriving Repr

/-- How many lists and objects can be open at once: the four levels of a record, and as many more as
there is room for. -/
def levels (room : Nat) : Nat :=
  4 + room

/-- The room that is left where nothing else goes deep: a thousand levels can be open in all. -/
def usualRoom : Nat := 980

namespace ReadState

def start : ReadState := ⟨.value, []⟩

/-- One list or object more is open, and this is due in it. -/
def nest (room : Nat) (opened : List Frame) (position : Nat) (shape : Text) (due : Due) :
    Except ReadError ReadState :=
  if opened.length < levels room then .ok ⟨due, opened⟩ else .error ⟨.tooDeep shape, position⟩

def openValue (room : Nat) (opened : List Frame) (p : Placed) : Except ReadError ReadState :=
  match p.lexeme with
  | .scalar v => .ok ⟨.separator v, opened⟩
  | .mark c =>
      if c = '[' then nest room opened p.position "array" .firstItem
      else if c = '\x7b' then nest room opened p.position "object" .firstName
      else .error ⟨.noValue, p.position⟩
  | .fault e => .error e
  | .finish => .error ⟨.noValue, p.position⟩

def openName (opened : List Frame) (members : List (WideText × Json)) (p : Placed) :
    Except ReadError ReadState :=
  match p.lexeme with
  | .scalar (.str name) => .ok ⟨.colon members name, opened⟩
  | .fault e =>
      match e.problem with
      | .oversizedInteger _ => .error ⟨.noName, p.position⟩
      | _ => .error e
  | _ => .error ⟨.noName, p.position⟩

def close (opened : List Frame) (value : Json) (p : Placed) : Except ReadError ReadState :=
  match opened with
  | [] =>
      match p.lexeme with
      | .finish => .ok ⟨.nothing value, []⟩
      | _ => .error ⟨.extraText, p.position⟩
  | .list items :: outer =>
      match p.lexeme with
      | .mark ',' => .ok ⟨.value, .list (items ++ [value]) :: outer⟩
      | .mark ']' => .ok ⟨.separator (.arr (items ++ [value])), outer⟩
      | _ => .error ⟨.noComma, p.position⟩
  | .object members name :: outer =>
      match p.lexeme with
      | .mark ',' => .ok ⟨.name (Entries.put members name value), outer⟩
      | .mark '\x7d' => .ok ⟨.separator (.obj (Entries.put members name value)), outer⟩
      | _ => .error ⟨.noComma, p.position⟩

def step (room : Nat) (state : ReadState) (p : Placed) : Except ReadError ReadState :=
  match state.due with
  | .value => openValue room state.opened p
  | .firstItem =>
      match p.lexeme with
      | .mark ']' => .ok ⟨.separator (.arr []), state.opened⟩
      | _ => openValue room (.list [] :: state.opened) p
  | .firstName =>
      match p.lexeme with
      | .mark '\x7d' => .ok ⟨.separator (.obj []), state.opened⟩
      | _ => openName state.opened [] p
  | .name members => openName state.opened members p
  | .colon members name =>
      match p.lexeme with
      | .mark ':' => .ok ⟨.value, .object members name :: state.opened⟩
      | _ => .error ⟨.noColon, p.position⟩
  | .separator value => close state.opened value p
  | .nothing value => .ok ⟨.nothing value, state.opened⟩

end ReadState

def read (room : Nat) (t : Text) : Except ReadError Json :=
  match t with
  | '\uFEFF' :: _ => .error ⟨.byteOrderMark, 0⟩
  | _ =>
      match (lexemes 0 t).foldlM (ReadState.step room) ReadState.start with
      | .error e => .error e
      | .ok state =>
          match state.due with
          | .nothing value => .ok value
          | _ => .error ⟨.noValue, t.length⟩

namespace ReadProblem

def description : ReadProblem → Text
  | noValue => "Expecting value"
  | noName => "Expecting property name enclosed in double quotes"
  | noColon => "Expecting ':' delimiter"
  | noComma => "Expecting ',' delimiter"
  | extraText => "Extra data"
  | unclosedText => "Unterminated string starting at"
  | controlCharacter => "Invalid control character at"
  | badEscape => "Invalid \\escape"
  | badUnicodeEscape => "Invalid \\uXXXX escape"
  | byteOrderMark => "Unexpected UTF-8 BOM (decode using utf-8-sig)"
  | oversizedInteger digits =>
      "Exceeds the limit (4300 digits) for integer string conversion: value has "
        ++ Text.ofNat digits ++ " digits; use sys.set_int_max_str_digits() to increase the limit"
  | tooDeep shape =>
      "maximum recursion depth exceeded while decoding a JSON " ++ shape ++ " from a unicode string"

end ReadProblem

/-- The description of an error in a text, with its line and column. -/
def ReadError.message (error : ReadError) (t : Text) : Text :=
  match error.problem with
  | .oversizedInteger _ | .tooDeep _ => error.problem.description
  | _ =>
      let before := t.take error.position
      let line := before.count '\n' + 1
      let column := (before.reverse.takeWhile (· ≠ '\n')).length + 1
      error.problem.description ++ ": line " ++ Text.ofNat line ++ " column " ++ Text.ofNat column
        ++ " (char " ++ Text.ofNat error.position ++ ")"

end Almanac.Data.Json
