import Almanac.Data.Binary64
import Almanac.Text.Blank
import Almanac.Text.Case
import Almanac.Text.Numeral

/-!
# Decimal numbers written by hand

A number that someone types may have a sign, digits with a point among them, and an exponent; the
digits may be those of any script, with single underscores between them. Infinity and an undefined
number are written as words. White space around the number does not matter.
-/

namespace Almanac.Data.Decimal

open Almanac.Text

/-- The text with every decimal digit turned into the ASCII one of its value. -/
def plain (t : Text) : Text :=
  t.map fun c =>
    match decimalValue? c with
    | some n => Char.ofNat ('0'.toNat + n)
    | none => c

/-- The text without its underscores, if each of them stands between two digits. -/
def joined? (before : Bool) : Text → Option Text
  | [] => some []
  | '_' :: c :: rest =>
      if before && isPlainDigit c then (joined? true rest).map (c :: ·) else none
  | c :: rest =>
      if c = '_' then none else (joined? (isPlainDigit c) rest).map (c :: ·)

def unsigned : Text → Bool × Text
  | '-' :: rest => (true, rest)
  | '+' :: rest => (false, rest)
  | t => (false, t)

/-- The exponent that a text stands for; without a text it is zero. Beyond a size that no number
needs only the size counts. -/
def exponent? : Text → Option Int
  | [] => some 0
  | e :: rest =>
      let (negative, digits) := unsigned rest
      if (e = 'e' ∨ e = 'E') ∧ !digits.isEmpty ∧ digits.all isPlainDigit then
        let significant := digits.dropWhile (· = '0')
        let size : Nat := if 7 < significant.length then 10000000 else plainNumber significant
        some (if negative then -(size : Int) else size)
      else none

def ofWord? (negative : Bool) (word : Text) : Option Binary64 :=
  if word = ("inf" : Text) ∨ word = ("infinity" : Text) then some (.infinite negative)
  else if word = ("nan" : Text) then some .undefined
  else none

def ofDigits? (negative : Bool) (t : Text) : Option Binary64 :=
  let whole := t.takeWhile isPlainDigit
  let behind := t.drop whole.length
  let (fraction, behind) := match behind with
    | '.' :: rest => (rest.takeWhile isPlainDigit, rest.dropWhile isPlainDigit)
    | other => ([], other)
  if whole.isEmpty && fraction.isEmpty then none
  else (exponent? behind).map fun exponent =>
    Binary64.ofDecimal negative (plainNumber (whole ++ fraction)) (exponent - fraction.length)

def read? (t : Text) : Option Binary64 :=
  match joined? false (plain (strip t)) with
  | none => none
  | some t =>
      let (negative, rest) := unsigned t
      match ofWord? negative (lower rest) with
      | some x => some x
      | none => ofDigits? negative rest

end Almanac.Data.Decimal
