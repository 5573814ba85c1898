import Almanac.Text.Numeral
import Almanac.Text.Quoted
import Almanac.Time.Date

/-!
# Timestamps

A timestamp is a date, a time of day in microseconds, and, unless it is a local time, an offset
from universal time of less than a day in either direction. It has one written form, such as
`2024-01-02T03:04:05.123456+05:30`, from which the fraction and the seconds of the offset are left
out if they are zero. Reading accepts more: dates of weeks, the basic forms without dashes or
colons, any one character between date and time, missing minutes and seconds, a decimal comma,
fractions of any length, and `Z` for universal time. Behind a fraction, or before an offset, some
leftovers are passed over.
-/

namespace Almanac.Time

def isTime (hour minute second microsecond : Nat) : Bool :=
  hour < 24 && minute < 60 && second < 60 && microsecond < 1000000

/-- A time of day. -/
structure TimeOfDay where
  hour : Nat
  minute : Nat
  second : Nat
  microsecond : Nat
  in_range : isTime hour minute second microsecond = true
deriving DecidableEq

/-- The number of microseconds in a day. -/
def microsecondsInDay : Nat := 86400000000

/-- An offset from universal time in microseconds, positive in the east. -/
structure Offset where
  microseconds : Int
  within_day : microseconds.natAbs < microsecondsInDay
deriving DecidableEq

def Offset.utc : Offset := ⟨0, by decide⟩

/-- A moment as records note it. -/
structure Timestamp where
  date : Date
  time : TimeOfDay
  offset : Option Offset
deriving DecidableEq

namespace Timestamp

/-- Why a text is no timestamp. -/
inductive Problem where
  | malformed
  | date (problem : DateProblem)
  | hour
  | minute
  | second
  /-- An offset of a day or more. -/
  | offset (microseconds : Int)
deriving DecidableEq, Repr

/-! ## Writing -/

/-- The decimal digits of a number with zeros in front up to a width. -/
def padded (width n : Nat) : Text :=
  let digits := Text.ofNat n
  List.replicate (width - digits.length) '0' ++ digits

def writtenOffset (offset : Offset) : Text :=
  let size := offset.microseconds.natAbs
  let seconds := size / 1000000
  let fraction := size % 1000000
  let tail : Text := if fraction = 0 then [] else '.' :: padded 6 fraction
  [if offset.microseconds < 0 then '-' else '+'] ++ padded 2 (seconds / 3600) ++ [':']
    ++ padded 2 (seconds / 60 % 60)
    ++ (if seconds % 60 = 0 ∧ fraction = 0 then [] else ':' :: padded 2 (seconds % 60) ++ tail)

def toText (t : Timestamp) : Text :=
  padded 4 t.date.year ++ ['-'] ++ padded 2 t.date.month ++ ['-'] ++ padded 2 t.date.day ++ ['T']
    ++ padded 2 t.time.hour ++ [':'] ++ padded 2 t.time.minute ++ [':'] ++ padded 2 t.time.second
    ++ (if t.time.microsecond = 0 then [] else '.' :: padded 6 t.time.microsecond)
    ++ (match t.offset with
      | none => []
      | some offset => writtenOffset offset)

/-! ## Reading -/

/-- The number that exactly so many digits at the start of the text stand for, and the rest. -/
def digits? : (count : Nat) → (value : Nat) → Text → Option (Nat × Text)
  | 0, value, t => some (value, t)
  | _ + 1, _, [] => none
  | count + 1, value, c :: rest =>
      match Text.plainValue? c with
      | none => none
      | some d => digits? count (10 * value + d) rest

/-- How many characters before the separator belong to the date. Whether a week is followed by a
weekday is told from the number of digits that follow it. -/
def dateLength (t : Text) : Nat :=
  let isDigitAt (i : Nat) : Bool := ((t[i]?).bind Text.plainValue?).isSome
  if t.length = 7 then 7
  else if t[4]? = some '-' then
    if t[5]? = some 'W' then
      if t[8]? = some '-' then if isDigitAt 10 then 8 else 10
      else 8
    else 10
  else if t[4]? = some 'W' then
    let stop := 7 + ((t.drop 7).takeWhile fun c => (Text.plainValue? c).isSome).length
    if stop < 9 then stop else if stop % 2 = 0 then 7 else 8
  else 8

/-- The year, month and day that a date text gives, whether or not there is such a date. -/
def readDate? (t : Text) : Option (Nat × Nat × Nat) := do
  let (year, rest) ← digits? 4 0 t
  let (dashed, rest) := match rest with
    | '-' :: more => (true, more)
    | _ => (false, rest)
  let afterDash? (u : Text) : Option Text := if dashed then Text.after? "-" u else some u
  match rest with
  | 'W' :: more =>
      let (week, rest) ← digits? 2 0 more
      if rest.isEmpty then weekDate? year week 1
      else
        let (weekday, _) ← digits? 1 0 (← afterDash? rest)
        weekDate? year week weekday
  | _ =>
      let (month, rest) ← digits? 2 0 rest
      let (day, rest) ← digits? 2 0 (← afterDash? rest)
      if rest.isEmpty then some (year, month, day) else none

/-- The parts of a time or an offset as they were read, and whether the text held nothing else. -/
structure Clock where
  hour : Nat
  minute : Nat
  second : Nat
  microsecond : Nat
  complete : Bool
deriving Repr

/-- Up to six digits of a fraction, as microseconds; further digits do not count. -/
def readFraction? (t : Text) : Option (Nat × Bool) := do
  let count := min 6 t.length
  let (value, rest) ← digits? count 0 t
  let left := rest.dropWhile fun c => (Text.plainValue? c).isSome
  some (value * Nat.pow 10 (6 - count), left.isEmpty || left.head? = some '\x00')

/-- The hours, minutes and seconds from the first part that is due, and the fraction. -/
def readParts? (colons : Bool) (parts : List Nat) : (due : Nat) → Text → Option Clock
  | due, t => do
    let clock (parts : List Nat) (microsecond : Nat) (complete : Bool) : Clock :=
      ⟨parts.getD 0 0, parts.getD 1 0, parts.getD 2 0, microsecond, complete⟩
    let (value, rest) ← digits? 2 0 t
    let parts := parts ++ [value]
    match rest with
    | [] => some (clock parts 0 true)
    -- a single leftover character is passed over if it is the null
    | [c] => some (clock parts 0 (c = '\x00'))
    | c :: more =>
        let colons := if parts.length = 1 then c = ':' else colons
        let fraction (u : Text) : Option Clock := do
          let (microsecond, complete) ← readFraction? u
          some (clock parts microsecond complete)
        if c = '.' ∨ c = ',' then fraction more
        else if colons ∧ c ≠ ':' then none
        else
          let next := if colons then more else rest
          match due with
          | 0 | 1 => fraction next
          | due + 1 => readParts? colons parts due next

def readTime? (t : Text) : Option (Clock × Option Int) := do
  let isMark (c : Char) : Bool := c = '+' || c = '-' || c = 'Z'
  let clock ← readParts? false [] 3 (t.takeWhile fun c => !isMark c)
  match t.dropWhile fun c => !isMark c with
  | [] => if clock.complete then some (clock, none) else none
  | 'Z' :: rest => if rest.isEmpty || rest.head? = some '\x00' then some (clock, some 0) else none
  | sign :: rest =>
      let offset ← readParts? false [] 3 rest
      let seconds := offset.hour * 3600 + offset.minute * 60 + offset.second
      -- an offset of no whole second counts as none at all
      let size : Int := if seconds = 0 then 0 else (seconds * 1000000 + offset.microsecond : Nat)
      if offset.complete then some (clock, some (if sign = '-' then -size else size)) else none

/-- The parts that a text gives, whether or not they make a timestamp. -/
def readShape? (t : Text) : Option ((Nat × Nat × Nat) × Clock × Option Int) := do
  if t.length < 7 then none
  else
    let length := dateLength t
    let date ← readDate? (t.take length)
    match t.drop length with
    | [] => some (date, ⟨0, 0, 0, 0, true⟩, none)
    | _ :: time =>
        let (clock, offset) ← readTime? time
        some (date, clock, offset)

/-- The timestamp that a text stands for. Of several parts out of range the offset is blamed
first, then the date, then the time. -/
def read (t : Text) : Except Problem Timestamp :=
  match readShape? t with
  | none => .error .malformed
  | some ((year, month, day), clock, shift) =>
      let offset : Except Problem (Option Offset) := match shift with
        | none => .ok none
        | some n =>
            if h : n.natAbs < microsecondsInDay then .ok (some ⟨n, h⟩) else .error (.offset n)
      match offset with
      | .error e => .error e
      | .ok offset =>
          match Date.of year month day with
          | .error e => .error (.date e)
          | .ok date =>
              if h : isTime clock.hour clock.minute clock.second clock.microsecond = true then
                .ok ⟨date, ⟨clock.hour, clock.minute, clock.second, clock.microsecond, h⟩, offset⟩
              else if 24 ≤ clock.hour then .error .hour
              else if 60 ≤ clock.minute then .error .minute
              else .error .second

/-- The wide text with a `T` in the place of a half that separates date and time. -/
def withSeparator (t : WideText) : WideText :=
  let isHalfAt (i : Nat) : Bool := (t[i]?).any fun p => p.char?.isNone
  match [7, 8, 10].find? isHalfAt with
  | some i => t.set i (.char 'T')
  | none => t

/-- The timestamp that a wide text stands for. A half of a surrogate pair can only be the one
character between date and time. -/
def readWide (t : WideText) : Except Problem Timestamp :=
  match (withSeparator t).text? with
  | some s => read s
  | none => .error .malformed

/-! ## Messages -/

/-- A span of time as a message shows it: whole days, and seconds and microseconds that are not
negative, each only if it is not zero. -/
def shownSpan (microseconds : Int) : Text :=
  let days := microseconds.fdiv microsecondsInDay
  let rest := (microseconds.fmod microsecondsInDay).toNat
  let part (name : Text) (n : Int) : List Text :=
    if n = 0 then [] else [name ++ "=" ++ Text.ofInt n]
  let parts := part "days" days ++ part "seconds" (rest / 1000000 : Nat)
    ++ part "microseconds" (rest % 1000000 : Nat)
  "datetime.timedelta(" ++ (if parts.isEmpty then ("0" : Text) else Text.join ", " parts) ++ ")"

def Problem.message (t : WideText) : Problem → Text
  | malformed => "Invalid isoformat string: " ++ t.quoted
  | date (.year year) => "year " ++ Text.ofNat year ++ " is out of range"
  | date .month => "month must be in 1..12"
  | date .day => "day is out of range for month"
  | hour => "hour must be in 0..23"
  | minute => "minute must be in 0..59"
  | second => "second must be in 0..59"
  | offset microseconds =>
      "offset must be a timedelta strictly between -timedelta(hours=24) and timedelta(hours=24), "
        ++ "not " ++ shownSpan microseconds ++ "."

end Timestamp
end Almanac.Time
