import Almanac.Data.Binary64
import Almanac.Data.Entries
import Almanac.Text.Wide

/-!
# JSON values

A value of the data format in which records, settings and answers of the remote host are kept. An
object keeps the order of its members. Texts and names are wide, since they can be escaped by
number. Integers have no bound; any other number is a floating-point number. Two values can be alike
without being equal: the order of members does not matter to likeness, and the two truth values are
alike to the integers one and zero, as are whole floating-point numbers to integers.
-/

namespace Almanac.Data

/-- A JSON value. -/
inductive Json where
  | null
  | bool (value : Bool)
  | int (value : Int)
  | real (value : Binary64)
  | str (value : WideText)
  | arr (items : List Json)
  | obj (members : List (WideText × Json))
deriving Inhabited, Repr

namespace Json

/-- The member of an object, or nothing if there is none or the value is no object. -/
def member? : Json → WideText → Option Json
  | obj members, name => Entries.get? members name
  | _, _ => none

/-- Is the value anything but null, false, zero, or an empty text, list or object? -/
def isTruthy : Json → Bool
  | null => false
  | bool b => b
  | int n => n ≠ 0
  | real x => !x.isZero
  | str t => !t.isEmpty
  | arr items => !items.isEmpty
  | obj members => !members.isEmpty

def isNull : Json → Bool
  | null => true
  | _ => false

def count? : Json → Option Int
  | bool b => some (if b then 1 else 0)
  | int n => some n
  | _ => none

mutual

/-- How many lists and objects stand within each other in the value. -/
def depth : Json → Nat
  | arr items => depthOfItems items + 1
  | obj members => depthOfMembers members + 1
  | _ => 0

def depthOfItems : List Json → Nat
  | [] => 0
  | item :: rest => max (depth item) (depthOfItems rest)

def depthOfMembers : List (WideText × Json) → Nat
  | [] => 0
  | (_, value) :: rest => max (depth value) (depthOfMembers rest)

end

mutual

def alike : Json → Json → Bool
  | null, null => true
  | str s, str t => s = t
  | arr xs, arr ys => alikeItems xs ys
  | obj xs, obj ys => xs.length = ys.length && alikeMembers xs ys
  | real x, real y => x.sameValue y
  | real x, y => match y.count? with
      | some n => x.compareInt? n = some .eq
      | none => false
  | x, real y => match x.count? with
      | some n => y.compareInt? n = some .eq
      | none => false
  | bool a, bool b => a = b
  | bool a, int n => (if a then 1 else 0) = n
  | int n, bool a => (if a then 1 else 0) = n
  | int m, int n => m = n
  | _, _ => false

def alikeItems : List Json → List Json → Bool
  | [], [] => true
  | x :: xs, y :: ys => alike x y && alikeItems xs ys
  | _, _ => false

/-- Has every member of the first object an alike member in the second? -/
def alikeMembers : List (WideText × Json) → List (WideText × Json) → Bool
  | [], _ => true
  | (name, x) :: xs, ys =>
      (match Entries.get? ys name with
      | some y => alike x y
      | none => false) && alikeMembers xs ys

end

end Json
end Almanac.Data
