import Almanac.Text.Numeral
import Almanac.Text.Quoted

/-!
# Integers written in texts

An integer may be written with the decimal digits of any script, mixed at will. Two things keep a
text from being read as one: a character that is no decimal digit, and more than 4300 digits,
leading zeros included, since reading takes time that grows with the square of their number.
-/

namespace Almanac.Text

/-- Why a text was not read as an integer. -/
inductive NumberFault where
  /-- The text holds something other than decimal digits. -/
  | notDecimal (text : Text)
  /-- The text holds too many digits; their number. -/
  | oversized (digits : Nat)
deriving DecidableEq, Repr

/-- The largest number of digits that are read. -/
def maxDigits : Nat := 4300

/-- The number that decimal digits stand for; any other character counts as zero. -/
def digitsValue (digits : Text) : Nat :=
  digits.foldl (fun n c => 10 * n + (decimalValue? c).getD 0) 0

/-- The number that a text stands for. Too many digits are blamed before a character that is
none. -/
def readNat (t : Text) : Except NumberFault Nat :=
  let digits := t.takeWhile isDecimal
  if maxDigits < digits.length then .error (.oversized digits.length)
  else if digits.length < t.length ∨ t.isEmpty then .error (.notDecimal t)
  else .ok (digitsValue digits)

/-- The integer that a sign, if there is one, and the digits behind it stand for. -/
def readInt (t : Text) : Except NumberFault Int :=
  let (negative, digits) := match t with
    | '-' :: rest => (true, rest)
    | '+' :: rest => (false, rest)
    | _ => (false, t)
  match readNat digits with
  | .ok n => .ok (if negative then -(n : Int) else n)
  | .error (.oversized count) => .error (.oversized count)
  | .error (.notDecimal _) => .error (.notDecimal t)

/-- The description of the fault. The text is shown quoted, and no more than the first 200
characters of that. -/
def NumberFault.message : NumberFault → Text
  | notDecimal t => "invalid literal for int() with base 10: " ++ (WideText.quoted t).take 200
  | oversized digits =>
      "Exceeds the limit (4300 digits) for integer string conversion: value has "
        ++ ofNat digits ++ " digits; use sys.set_int_max_str_digits() to increase the limit"

end Almanac.Text
