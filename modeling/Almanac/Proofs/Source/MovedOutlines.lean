import Almanac.Proofs.Source.TokenPlaces
import Mathlib.Data.List.Basic

/-!
# Outlines of moved tokens

Line numbers decide something in one place only: a header outside parentheses ends with its line.
All that counts there is whether two numbers are equal. So if tokens are moved to other lines, and
those of different lines stay on different lines, their outline is the one before but for the lines,
which are moved in the same way.
-/

namespace Almanac.Source

open Almanac.Data

/-! ## Moving -/

def Token.moved (f : Nat → Nat) (token : Token) : Token :=
  { token with line := f token.line }

def Method.moved (f : Nat → Nat) (method : Method) : Method :=
  { method with line := f method.line }

/-- The class with its own line and the lines of its methods moved. -/
def Class.moved (f : Nat → Nat) (c : Class) : Class :=
  { c with
    methods := c.methods.map fun entry => (entry.1, entry.2.moved f)
    line := f c.line }

def HeaderError.moved (f : Nat → Nat) (error : HeaderError) : HeaderError :=
  { error with line := f error.line }

def NestedClass.moved (f : Nat → Nat) (nested : NestedClass) : NestedClass :=
  { nested with line := f nested.line }

def ClassBody.moved (f : Nat → Nat) (body : ClassBody) : ClassBody :=
  ⟨body.methods.map (Method.moved f), body.errors.map (HeaderError.moved f), body.length⟩

def ClassReading.moved (f : Nat → Nat) (reading : ClassReading) : ClassReading where
  found := reading.found.moved f
  errors := reading.errors.map (HeaderError.moved f)
  nested := reading.nested.map (NestedClass.moved f)
  length := reading.length

/-- The outline with all lines moved. Names, bases, parameters, faults and the order of all that was
found are as before. -/
def Outline.moved (f : Nat → Nat) (outline : Outline) : Outline where
  classes := outline.classes.map (Class.moved f)
  errors := outline.errors.map (HeaderError.moved f)
  nested := outline.nested.map (NestedClass.moved f)

/-- What was read, or the error, with its lines moved. -/
def movedResult {α : Type} (f : Nat → Nat) (g : α → α) :
    Except HeaderError α → Except HeaderError α
  | .ok found => .ok (g found)
  | .error error => .error (error.moved f)

variable {f : Nat → Nat}

/-! ## Headers -/

namespace Header

theorem scan_moved (hf : f.Injective) (line depth : Nat) (tokens : List Token) :
    scan (f line) depth (tokens.map (Token.moved f)) =
      (scan line depth tokens).map (List.map (Token.moved f)) := by
  induction tokens generalizing line depth with
  | nil => rfl
  | cons token rest ih =>
      have hline : (token.moved f).line ≠ f line ↔ token.line ≠ line := hf.ne_iff
      rw [List.map_cons, scan, scan]
      simp only [hline]
      change (if opensDeclaration token then none else _) = _
      split
      next => rfl
      next =>
        split
        next => rfl
        next =>
          change (if isOperator token ":" ∧ depth = 0 then some [] else _) = _
          split
          next => rfl
          next =>
            change (scan (f token.line) _ _).map _ = _
            rw [ih, Option.map_map, Option.map_map]
            rfl

theorem named_moved (hf : f.Injective) {isName : Token → Bool}
    (hname : ∀ token : Token, isName (token.moved f) = isName token) (noName : HeaderFault)
    (keyword : Token) (tokens : List Token) :
    named isName noName (keyword.moved f) (tokens.map (Token.moved f)) =
      movedResult f (fun found => (found.1.moved f, found.2.map (Token.moved f)))
        (named isName noName keyword tokens) := by
  cases tokens with
  | nil => rfl
  | cons name rest =>
      have hscan := scan_moved hf keyword.line 0 rest
      have hline : (keyword.moved f).line = f keyword.line := rfl
      rw [List.map_cons, named, named, hname, hline, hscan]
      split
      next => cases scan keyword.line 0 rest <;> rfl
      next => rfl

/-- Parameters are read without regard to lines. -/
theorem parameters_moved (f : Nat → Nat) (header : List Token) :
    parameters (header.map (Token.moved f)) = parameters header := by
  rw [parameters, List.foldl_map]
  rfl

/-- Bases are read without regard to lines. -/
theorem bases_moved (f : Nat → Nat) (header : List Token) :
    bases (header.map (Token.moved f)) = bases header := by
  rw [bases, List.foldl_map]
  rfl

end Header

/-! ## Methods and classes -/

theorem Method.read_moved (hf : f.Injective) (keyword : Token) (tokens : List Token) :
    read (keyword.moved f) (tokens.map (Token.moved f)) =
      movedResult f (fun found => (found.1.moved f, found.2)) (read keyword tokens) := by
  rw [read_eq, read_eq, Header.named_moved hf (fun _ => rfl)]
  cases Header.named isName .noMethodName keyword tokens with
  | error error => rfl
  | ok found =>
      simp only [movedResult, Except.map, Header.parameters_moved, List.length_map]
      rfl

theorem ClassBody.read_moved (hf : f.Injective) (tokens : List Token) :
    read (tokens.map (Token.moved f)) = (read tokens).moved f := by
  fun_induction read tokens with
  | case1 => rw [List.map_nil, read]; rfl
  | case2 token rest hclass =>
      rw [List.map_cons, read, if_pos (show (token.moved f).kind = .classKeyword from hclass)]
      rfl
  | case3 token rest hclass hdef error hread body ih =>
      have hmoved := Method.read_moved hf token rest
      rw [hread, movedResult] at hmoved
      rw [List.map_cons, read, if_neg (show (token.moved f).kind ≠ .classKeyword from hclass),
        if_pos (show (token.moved f).kind = .defKeyword from hdef), hmoved]
      simp only [ih]
      rfl
  | case4 token rest hclass hdef method n hread body ih =>
      have hmoved := Method.read_moved hf token rest
      rw [hread, movedResult] at hmoved
      rw [List.map_cons, read, if_neg (show (token.moved f).kind ≠ .classKeyword from hclass),
        if_pos (show (token.moved f).kind = .defKeyword from hdef), hmoved]
      simp only [← List.map_drop, ih]
      rfl
  | case5 token rest hclass hdef body ih =>
      rw [List.map_cons, read, if_neg (show (token.moved f).kind ≠ .classKeyword from hclass),
        if_neg (show (token.moved f).kind ≠ .defKeyword from hdef), ih]
      rfl

/-- The methods of a class by name are moved one by one. -/
theorem Method.ofList_moved (f : Nat → Nat) (methods : List Method) :
    Entries.ofList ((methods.map (Method.moved f)).map fun m => (m.name, m)) =
      (Entries.ofList (methods.map fun m => (m.name, m))).map
        fun entry => (entry.1, entry.2.moved f) := by
  rw [Entries.ofList, Entries.ofList, ← Entries.putAll_mapValues, List.map_map, List.map_map]
  rfl

theorem Class.heading_moved (hf : f.Injective) (keyword : Token) (tokens : List Token) :
    heading (keyword.moved f) (tokens.map (Token.moved f)) =
      movedResult f (fun found => (found.1, found.2.map (Token.moved f)))
        (heading keyword tokens) := by
  rw [heading_eq, heading_eq, Header.named_moved hf (fun _ => rfl)]
  cases Header.named (·.kind = .identifier) .noClassName keyword tokens <;> rfl

theorem Class.withBody_moved (hf : f.Injective) (keyword : Token) (name : Text)
    (header tail : List Token) :
    withBody (keyword.moved f) name (header.map (Token.moved f)) (tail.map (Token.moved f)) =
      (withBody keyword name header tail).moved f := by
  simp only [withBody, ClassBody.read_moved hf, ClassBody.moved, ClassReading.moved, Class.moved,
    Header.bases_moved, Method.ofList_moved, List.length_map, ← List.map_drop]
  congr 1
  cases tail.drop (ClassBody.read tail).length with
  | nil => rfl
  | cons next rest =>
      change (if keyword.column < next.column then _ else _) =
        List.map _ (if keyword.column < next.column then _ else _)
      split <;> rfl

theorem Class.read_moved (hf : f.Injective) (keyword : Token) (tokens : List Token) :
    read (keyword.moved f) (tokens.map (Token.moved f)) =
      movedResult f (ClassReading.moved f) (read keyword tokens) := by
  rw [read_eq, read_eq, heading_moved hf]
  cases heading keyword tokens with
  | error error => rfl
  | ok found =>
      simp only [movedResult, Except.map, List.length_map, ← List.map_drop, withBody_moved hf]

/-! ## Outlines -/

/-- The outline of tokens moved to other lines is the outline moved to these lines. -/
theorem Outline.ofTokens_moved (hf : f.Injective) (tokens : List Token) :
    ofTokens (tokens.map (Token.moved f)) = (ofTokens tokens).moved f := by
  fun_induction ofTokens tokens with
  | case1 => rw [List.map_nil, ofTokens]; rfl
  | case2 token rest hclass error hread outline ih =>
      have hmoved := Class.read_moved hf token rest
      rw [hread, movedResult] at hmoved
      rw [List.map_cons, ofTokens, if_pos (show (token.moved f).kind = .classKeyword from hclass),
        hmoved]
      simp only [ih]
      rfl
  | case3 token rest hclass reading hread outline ih =>
      have hmoved := Class.read_moved hf token rest
      rw [hread, movedResult] at hmoved
      rw [List.map_cons, ofTokens, if_pos (show (token.moved f).kind = .classKeyword from hclass),
        hmoved]
      have hdrop : (rest.map (Token.moved f)).drop (reading.moved f).length =
          (rest.drop reading.length).map (Token.moved f) := List.map_drop.symm
      simp only [hdrop, ih]
      simp only [Outline.moved, ClassReading.moved, List.map_cons, List.map_append]
      rfl
  | case4 token rest hclass ih =>
      rw [List.map_cons, ofTokens, if_neg (show (token.moved f).kind ≠ .classKeyword from hclass),
        ih]

end Almanac.Source
