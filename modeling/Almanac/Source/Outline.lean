import Almanac.Data.Entries
import Almanac.Source.Token

/-!
# Outlines of source files

An outline holds the classes of a source file with their bases and methods, recovered from the
tokens alone. Bodies are not looked into and indentation is not followed: a class ends where the
next one begins, so a class within a class ends the outer one and is noted. A header that cannot
be read is noted as well, and reading goes on behind its keyword.
-/

namespace Almanac.Source

open Almanac.Data

/-- A method: its name, the names of its parameters, and the line of its keyword. -/
structure Method where
  name : Text
  parameters : List Text
  line : Nat
deriving DecidableEq, Repr

/-- A class: its name, its bases as dotted names, its methods by name, and the line of its
keyword. Of methods with one name the last counts. -/
structure Class where
  name : Text
  bases : List Text
  methods : Entries Text Method
  line : Nat
deriving DecidableEq, Repr

/-- What is wrong with the header of a class or method. -/
inductive HeaderFault where
  | noClassName
  | noMethodName
  /-- No colon ends the header that the keyword opened. -/
  | unterminated (keyword : Text)
deriving DecidableEq, Repr

def HeaderFault.reason : HeaderFault → Text
  | noClassName => "expected class name"
  | noMethodName => "expected method name"
  | unterminated keyword => "unterminated '" ++ keyword ++ "' header"

/-- A header that could not be read and the line of its keyword. -/
structure HeaderError where
  line : Nat
  fault : HeaderFault
deriving DecidableEq, Repr

/-- A class that begins within another one: its line and the name of the outer class. -/
structure NestedClass where
  line : Nat
  outer : Text
deriving DecidableEq, Repr

def NestedClass.message (nested : NestedClass) : Text :=
  "Line " ++ Text.ofNat nested.line ++ ": nested class inside '" ++ nested.outer
    ++ "' treated as top-level"

namespace Header

def opensDeclaration (token : Token) : Bool :=
  token.kind = .classKeyword || token.kind = .defKeyword

def isOperator (token : Token) (text : Text) : Bool :=
  token.kind = .operator && token.text = text

/-- The tokens of a header up to the colon that ends it, which is the first one outside
parentheses. A header may go on to another line only within parentheses. `line` is the line of the
token before, and `depth` counts the parentheses that are open. -/
def scan (line depth : Nat) : List Token → Option (List Token)
  | [] => none
  | token :: rest =>
      if opensDeclaration token then none
      else if depth = 0 ∧ token.line ≠ line then none
      else if isOperator token ":" ∧ depth = 0 then some []
      else
        let depth :=
          if isOperator token "(" then depth + 1
          else if isOperator token ")" then depth - 1
          else depth
        (scan token.line depth rest).map (token :: ·)

/-- Reading the names of parameters: how many parentheses are open, whether a name is due, and the
names found. -/
structure ParameterState where
  depth : Int
  due : Bool
  names : List Text
deriving Repr

/-- One token of a method's header read for parameters. Directly within the outer parentheses a
name opens each slot; stars before it are passed over. -/
def ParameterState.step (state : ParameterState) (token : Token) : ParameterState :=
  if token.kind = .indent then state
  else if token.text = "(" then
    { state with depth := state.depth + 1, due := state.depth + 1 = 1 }
  else if token.text = ")" then { state with depth := state.depth - 1 }
  else if state.depth ≠ 1 then state
  else if token.text = "," then { state with due := true }
  else if token.text = "*" then state
  else if state.due ∧ (token.kind = .identifier ∨ token.kind = .selfKeyword) then
    { state with due := false, names := state.names ++ [token.text] }
  else { state with due := false }

def parameters (header : List Token) : List Text :=
  (header.foldl ParameterState.step ⟨0, false, []⟩).names

/-- Reading the bases of a class: how many parentheses are open, the parts of the dotted name at
hand, whether a keyword's value is being passed over, whether a dot came last, and the names
found. -/
structure BaseState where
  depth : Int
  current : List Text
  inValue : Bool
  afterDot : Bool
  names : List Text
deriving Repr

/-- The state after the dotted name at hand is complete; it counts unless it is a keyword's
value. -/
def BaseState.flush (state : BaseState) : BaseState :=
  { state with
    names := if state.current.isEmpty || state.inValue then state.names
      else state.names ++ [Text.join "." state.current]
    current := [] }

def BaseState.step (state : BaseState) (token : Token) : BaseState :=
  if token.kind = .indent then state
  else if token.text = "(" then { state with depth := state.depth + 1 }
  else if token.text = ")" then
    -- the outer parenthesis ends the last base
    let closed := if state.depth = 1 then { state.flush with inValue := false } else state
    { closed with depth := closed.depth - 1 }
  else if state.depth ≠ 1 then state
  else if token.text = "," then { state.flush with inValue := false, afterDot := false }
  -- what stood before the equals sign was a keyword, no base
  else if token.text = "=" then { state with current := [], inValue := true, afterDot := false }
  else if token.text = "." then { state with afterDot := true }
  else if token.kind = .identifier then
    -- a name without a dot before it begins another base
    let ready := if !state.current.isEmpty && !state.afterDot then state.flush else state
    { ready with current := ready.current ++ [token.text], afterDot := false }
  else { state.flush with afterDot := false }

/-- The dotted names of the bases in a class header, keyword arguments left out. -/
def bases (header : List Token) : List Text :=
  (header.foldl BaseState.step ⟨0, [], false, false, []⟩).flush.names

end Header

namespace Method

def isName (token : Token) : Bool :=
  token.kind = .identifier || token.kind = .selfKeyword

/-- The method whose keyword is given and whose header begins the tokens, and how many tokens the
header takes. -/
def read (keyword : Token) : List Token → Except HeaderError (Method × Nat)
  | [] => .error ⟨keyword.line, .noMethodName⟩
  | name :: rest =>
      if isName name then
        match Header.scan keyword.line 0 rest with
        | none => .error ⟨keyword.line, .unterminated keyword.text⟩
        | some header =>
            .ok (⟨name.text, Header.parameters header, keyword.line⟩, header.length + 2)
      else .error ⟨keyword.line, .noMethodName⟩

end Method

/-- The methods of a class body, the headers that could not be read, and how many tokens the body
takes. -/
structure ClassBody where
  methods : List Method
  errors : List HeaderError
  length : Nat
deriving DecidableEq, Repr

namespace ClassBody

/-- The body that the tokens begin with; it ends before the next class. -/
def read : List Token → ClassBody
  | [] => ⟨[], [], 0⟩
  | token :: rest =>
      if token.kind = .classKeyword then ⟨[], [], 0⟩
      else if token.kind = .defKeyword then
        match Method.read token rest with
        -- the tokens behind a keyword without a header are read as any others
        | .error e =>
            let body := read rest
            ⟨body.methods, e :: body.errors, body.length + 1⟩
        | .ok (method, n) =>
            let body := read (rest.drop n)
            ⟨method :: body.methods, body.errors, body.length + n + 1⟩
      else
        let body := read rest
        { body with length := body.length + 1 }
termination_by tokens => tokens.length
decreasing_by
  all_goals simp only [List.length_cons, List.length_drop]
  all_goals omega

end ClassBody

/-- A class together with what was noted while it was read, and how many tokens it takes behind
its keyword. -/
structure ClassReading where
  found : Class
  errors : List HeaderError
  nested : List NestedClass
  length : Nat
deriving DecidableEq, Repr

namespace Class

/-- The class whose keyword is given and whose header begins the tokens. -/
def read (keyword : Token) : List Token → Except HeaderError ClassReading
  | [] => .error ⟨keyword.line, .noClassName⟩
  | name :: rest =>
      if name.kind = .identifier then
        match Header.scan keyword.line 0 rest with
        | none => .error ⟨keyword.line, .unterminated keyword.text⟩
        | some header =>
            let tail := rest.drop (header.length + 1)
            let body := ClassBody.read tail
            -- the body ends at the next class, which lies within this one if it is indented deeper
            let nested := match tail.drop body.length with
              | [] => []
              | next :: _ =>
                  if keyword.column < next.column then [⟨next.line, name.text⟩] else []
            .ok {
              found := {
                name := name.text
                bases := Header.bases header
                methods := Entries.ofList (body.methods.map fun m => (m.name, m))
                line := keyword.line }
              errors := body.errors
              nested := nested
              length := header.length + 2 + body.length }
      else .error ⟨keyword.line, .noClassName⟩

end Class

/-- The classes of a source file, and the headers and nested classes noted on the way. -/
structure Outline where
  classes : List Class
  errors : List HeaderError
  nested : List NestedClass
deriving DecidableEq, Repr

namespace Outline

def ofTokens : List Token → Outline
  | [] => ⟨[], [], []⟩
  | token :: rest =>
      if token.kind = .classKeyword then
        match Class.read token rest with
        | .error e =>
            let outline := ofTokens rest
            { outline with errors := e :: outline.errors }
        | .ok reading =>
            let outline := ofTokens (rest.drop reading.length)
            ⟨reading.found :: outline.classes, reading.errors ++ outline.errors,
              reading.nested ++ outline.nested⟩
      else ofTokens rest
termination_by tokens => tokens.length
decreasing_by
  all_goals simp only [List.length_cons, List.length_drop]
  all_goals omega

def ofText (rules : List TokenRule) (t : Text) : Outline :=
  ofTokens (TokenStream.ofText rules t).tokens

end Outline

end Almanac.Source
