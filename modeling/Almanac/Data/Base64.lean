import Almanac.Text.Basic

/-!
# Base 64

Three bytes are written as four digits of six bits. One or two bytes at the end are written as two
or three digits, and `=` signs fill the group of four. Reading is strict: a character that is no
digit, a group that is not filled, or anything behind the filling is refused. The bits of the last
digit that belong to no byte are not looked at.
-/

namespace Almanac.Data.Base64

/-- Why a text is no base 64. The count is that of the digits read. -/
inductive Problem where
  /-- Something that is neither a digit nor filling, or filling behind the end. -/
  | nonDigit
  /-- Filling where a group of four begins. -/
  | leadingFilling
  /-- Filling within the text. -/
  | discontinuousFilling
  /-- Text behind the filling that completes the last group. -/
  | excess
  /-- One digit more than whole groups; the count of all digits. -/
  | loneDigit (digits : Nat)
  /-- The last group is not filled. -/
  | missingFilling
deriving DecidableEq, Repr

def alphabet : Text :=
  "ABCDEFGHIJKLMNOPQRSTUVWXYZabcdefghijklmnopqrstuvwxyz0123456789+/"

def digit (value : Nat) : Char :=
  alphabet.getD value 'A'

def value? (c : Char) : Option Nat :=
  if 'A' ≤ c ∧ c ≤ 'Z' then some (c.toNat - 'A'.toNat)
  else if 'a' ≤ c ∧ c ≤ 'z' then some (c.toNat - 'a'.toNat + 26)
  else if '0' ≤ c ∧ c ≤ '9' then some (c.toNat - '0'.toNat + 52)
  else if c = '+' then some 62
  else if c = '/' then some 63
  else none

def encode : List UInt8 → Text
  | [] => []
  | [a] =>
      let n := a.toNat * 16
      [digit (n / 64), digit (n % 64), '=', '=']
  | [a, b] =>
      let n := (a.toNat * 256 + b.toNat) * 4
      [digit (n / 4096), digit (n / 64 % 64), digit (n % 64), '=']
  | a :: b :: c :: rest =>
      let n := (a.toNat * 256 + b.toNat) * 256 + c.toNat
      digit (n / 262144) :: digit (n / 4096 % 64) :: digit (n / 64 % 64) :: digit (n % 64)
        :: encode rest

/-- The bytes of the digits with the given values. Digits that fill no byte give none. -/
def bytes : List Nat → List UInt8
  | a :: b :: c :: d :: rest =>
      let n := ((a * 64 + b) * 64 + c) * 64 + d
      (n / 65536).toUInt8 :: (n / 256 % 256).toUInt8 :: (n % 256).toUInt8 :: bytes rest
  | [a, b, c] =>
      let n := (a * 64 + b) * 64 + c
      [(n / 1024).toUInt8, (n / 4 % 256).toUInt8]
  | [a, b] => [((a * 64 + b) / 16).toUInt8]
  | _ => []

/-- What is wrong with the text behind a run of digits, if anything is. The filling must complete
the last group; behind whole groups any number of signs is let pass. -/
def tailProblem? (digits : Nat) (tail : Text) : Option Problem :=
  let loose := digits % 4
  let signs := (tail.takeWhile (· = '=')).length
  match tail with
  | [] =>
      if loose = 0 then none
      else if loose = 1 then some (.loneDigit digits)
      else some .missingFilling
  | c :: _ =>
      if c ≠ '=' then some .nonDigit
      else if digits = 0 then some .leadingFilling
      else if 2 ≤ loose ∧ 4 - loose ≤ signs then
        if tail.length = 4 - loose then none else some .excess
      else match tail.dropWhile (· = '=') with
        | d :: _ => some (if (value? d).isSome then .discontinuousFilling else .nonDigit)
        | [] =>
            if loose = 0 then none
            else if loose = 1 then some (.loneDigit digits)
            else some .missingFilling

/-- The values of the digits at the start of the text, and the rest. -/
def digitValues : Text → List Nat × Text
  | [] => ([], [])
  | c :: rest =>
      match value? c with
      | none => ([], c :: rest)
      | some v =>
          let (more, tail) := digitValues rest
          (v :: more, tail)

def decode (t : Text) : Except Problem (List UInt8) :=
  let (values, tail) := digitValues t
  match tailProblem? values.length tail with
  | some problem => .error problem
  | none => .ok (bytes values)

def Problem.description : Problem → Text
  | nonDigit => "Only base64 data is allowed"
  | leadingFilling => "Leading padding not allowed"
  | discontinuousFilling => "Discontinuous padding not allowed"
  | excess => "Excess data after padding"
  | loneDigit digits =>
      "Invalid base64-encoded string: number of data characters (" ++ Text.ofNat digits
        ++ ") cannot be 1 more than a multiple of 4"
  | missingFilling => "Incorrect padding"

end Almanac.Data.Base64
