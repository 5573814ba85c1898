import Almanac.Data.Json.Printer

/-!
# Shapes of JSON values

Records are written by hand as well as by this library, so a member may hold a value of another
shape than is due. Some shapes are taken for others: a list of pairs for an object, and an object
or a text for a list. What cannot be taken that way is a fault, which tells the shape that was
found.
-/

namespace Almanac.Data.Json

def shapeName : Json → Text
  | null => "NoneType"
  | bool _ => "bool"
  | int _ => "int"
  | real _ => "float"
  | str _ => "str"
  | arr _ => "list"
  | obj _ => "dict"

/-- Why a value does not have the shape that is due. -/
inductive ShapeFault where
  /-- The value cannot do what is asked of it. -/
  | lacks (value : Json) (ability : Text)
  | notIterable (value : Json)
  /-- The item at the index is no sequence. -/
  | notPair (index : Nat)
  /-- The item at the index is a sequence of another length than two. -/
  | pairLength (index length : Nat)
  /-- A list or object stands where a key is due. -/
  | noKey (value : Json)
deriving Repr

def ShapeFault.kind : ShapeFault → Text
  | lacks _ _ => "AttributeError"
  | pairLength _ _ => "ValueError"
  | _ => "TypeError"

def ShapeFault.message : ShapeFault → Text
  | lacks value ability =>
      "'" ++ value.shapeName ++ "' object has no attribute '" ++ ability ++ "'"
  | notIterable value => "'" ++ value.shapeName ++ "' object is not iterable"
  | notPair index =>
      "cannot convert dictionary update sequence element #" ++ Text.ofNat index
        ++ " to a sequence"
  | pairLength index length =>
      "dictionary update sequence element #" ++ Text.ofNat index ++ " has length "
        ++ Text.ofNat length ++ "; 2 is required"
  | noKey value => "unhashable type: '" ++ value.shapeName ++ "'"

/-- The items of a list, the names of an object's members, or the code points of a text. -/
def sequence? : Json → Option (List Json)
  | arr items => some items
  | obj members => some (members.map fun member => str member.1)
  | str t => some (t.map fun p => str [p])
  | _ => none

/-- The name under which a member is kept whose key is the value. -/
def memberName : Json → Except ShapeFault WideText
  | str t => .ok t
  | null => .ok "null"
  | bool b => .ok (if b then "true" else "false")
  | int n => .ok (Text.ofInt n)
  | real x => .ok (writtenReal x)
  | value => .error (.noKey value)

def pair (index : Nat) (item : Json) : Except ShapeFault (WideText × Json) :=
  match item.sequence? with
  | none => .error (.notPair index)
  | some [key, value] => (memberName key).map fun name => (name, value)
  | some other => .error (.pairLength index other.length)

/-- The members that a list of pairs stands for, the first pair having the index. -/
def pairs (index : Nat) (known : List (WideText × Json)) :
    List Json → Except ShapeFault (List (WideText × Json))
  | [] => .ok known
  | item :: rest =>
      match pair index item with
      | .error e => .error e
      | .ok (name, value) => pairs (index + 1) (Entries.put known name value) rest

/-- The members of an object, or those that a sequence of pairs stands for. -/
def asMembers : Json → Except ShapeFault (List (WideText × Json))
  | obj members => .ok members
  | value =>
      match value.sequence? with
      | some items => pairs 0 [] items
      | none => .error (.notIterable value)

def asItems (value : Json) : Except ShapeFault (List Json) :=
  match value.sequence? with
  | some items => .ok items
  | none => .error (.notIterable value)

/-- The value, or the default in place of one that is not truthy. -/
def orElse (value default : Json) : Json :=
  if value.isTruthy then value else default

end Almanac.Data.Json
