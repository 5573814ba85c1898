import Almanac.Text.Basic

/-!
# Binary floating-point numbers

Numbers with a fraction or an exponent are rounded to 53 significant bits when they are read. A
finite number is kept as `mantissa * 2 ^ exponent`, with the mantissa below `2 ^ 53` and as large
as the exponent's lower bound `-1074` allows, so equal numbers of one sign have one form. A number
is written with the fewest digits that read back as the same number.
-/

namespace Almanac.Data

/-- A floating-point number. -/
inductive Binary64 where
  | finite (negative : Bool) (mantissa : Nat) (exponent : Int)
  | infinite (negative : Bool)
  | undefined
deriving DecidableEq, Repr

namespace Binary64

/-- The quotient rounded to the nearest integer, a tie going to the even neighbour. -/
def roundedQuotient (numerator denominator : Nat) : Nat :=
  let quotient := numerator / denominator
  let twice := 2 * (numerator % denominator)
  if twice < denominator then quotient
  else if denominator < twice then quotient + 1
  else if quotient % 2 = 0 then quotient else quotient + 1

def mantissaAt (numerator denominator : Nat) (exponent : Int) : Nat :=
  match exponent with
  | .ofNat e => roundedQuotient numerator (denominator * Nat.pow 2 e)
  | .negSucc e => roundedQuotient (numerator * Nat.pow 2 (e + 1)) denominator

def ofQuotient (negative : Bool) (numerator denominator : Nat) : Binary64 :=
  if numerator = 0 then finite negative 0 (-1074)
  else
    let guess : Int := (Nat.log2 numerator : Int) - (Nat.log2 denominator : Int) - 53
    let exponents := [guess, guess + 1, guess + 2].map (max · (-1074))
    match exponents.find? fun e => mantissaAt numerator denominator e ≤ Nat.pow 2 53 with
    | none => infinite negative
    | some e =>
        let m := mantissaAt numerator denominator e
        let (m, e) := if m = Nat.pow 2 53 then (Nat.pow 2 52, e + 1) else (m, e)
        if 971 < e then infinite negative else finite negative m e

/-- The number nearest to `digits * 10 ^ exponent`. Exponents far outside the range are settled
without computing the power. -/
def ofDecimal (negative : Bool) (digits : Nat) (exponent : Int) : Binary64 :=
  let magnitude : Int := (Text.ofNat digits).length + exponent
  if digits = 0 ∨ magnitude < -400 then finite negative 0 (-1074)
  else if 400 < magnitude then infinite negative
  else match exponent with
    | .ofNat e => ofQuotient negative (digits * Nat.pow 10 e) 1
    | .negSucc e => ofQuotient negative digits (Nat.pow 10 (e + 1))

def isZero : Binary64 → Bool
  | finite _ mantissa _ => mantissa = 0
  | _ => false

def quotient (mantissa : Nat) (exponent : Int) : Nat × Nat :=
  match exponent with
  | .ofNat e => (mantissa * Nat.pow 2 e, 1)
  | .negSucc e => (mantissa, Nat.pow 2 (e + 1))

/-- Comparison with an integer: less, equal or greater, and nothing for an undefined number. -/
def compareInt? (x : Binary64) (n : Int) : Option Ordering :=
  match x with
  | undefined => none
  | infinite negative => some (if negative then .lt else .gt)
  | finite negative mantissa exponent =>
      let (p, q) := quotient mantissa exponent
      let signed : Int := if negative then -(p : Int) else p
      some (compare signed (n * q))

/-- Do two numbers have the same value? The zeros of both signs do; an undefined number equals
nothing. -/
def sameValue : Binary64 → Binary64 → Bool
  | undefined, _ => false
  | x, y => x = y || (x.isZero && y.isZero)

/-- The digits and the decimal exponent of the shortest decimal that reads back as the number, of
those the one nearest to it. The number is `0.digits * 10 ^ exponent`. -/
def shortest (mantissa : Nat) (exponent : Int) : Text × Int :=
  let (p, q) := quotient mantissa exponent
  let target := finite false mantissa exponent
  -- the power of ten that is the least above the number
  let guess : Int := ((Nat.log2 p : Int) - (Nat.log2 q : Int)) * 30103 / 100000
  let above (k : Int) : Bool :=
    match k with
    | .ofNat e => p < q * Nat.pow 10 e
    | .negSucc e => p * Nat.pow 10 (e + 1) < q
  let point := ([guess - 1, guess, guess + 1, guess + 2].find? above).getD (guess + 2)
  let candidate (count : Nat) : Option (Nat × Int) :=
    let unit : Int := point - count
    let (n, d) := match unit with
      | .ofNat e => (p, q * Nat.pow 10 e)
      | .negSucc e => (p * Nat.pow 10 (e + 1), q)
    let low := n / d
    let near := roundedQuotient n d
    let far := if near = low then low + 1 else low
    [near, far].findSome? fun digits =>
      if ofDecimal false digits unit = target then some (digits, unit) else none
  match (List.range 17).findSome? fun i => candidate (i + 1) with
  | none => ("0", 1)
  | some (digits, unit) =>
      let written := Text.ofNat digits
      (Text.trimEnd (· = '0') written, written.length + unit)

/-- The written form: positional from `0.0001` up to sixteen digits before the point, with at
least one digit after it, and otherwise with an exponent of at least two digits. -/
def toText : Binary64 → Text
  | undefined => "nan"
  | infinite negative => if negative then "-inf" else "inf"
  | finite negative mantissa exponent =>
      let sign : Text := if negative then "-" else ""
      if mantissa = 0 then sign ++ "0.0"
      else
        let (digits, point) := shortest mantissa exponent
        if point < -3 ∨ 16 < point then
          let fraction : Text := match digits.drop 1 with
            | [] => []
            | more => '.' :: more
          let power := point - 1
          let size := Text.ofNat power.natAbs
          let padded := if size.length < 2 then '0' :: size else size
          sign ++ digits.take 1 ++ fraction ++ ['e', if power < 0 then '-' else '+'] ++ padded
        else if point ≤ 0 then
          sign ++ "0." ++ List.replicate point.natAbs '0' ++ digits
        else
          let whole := point.toNat
          let padded := digits ++ List.replicate (whole - digits.length) '0'
          let fraction := padded.drop whole
          sign ++ padded.take whole ++ "." ++ (if fraction.isEmpty then ("0" : Text) else fraction)

end Binary64
end Almanac.Data
