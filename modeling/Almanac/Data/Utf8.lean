import Almanac.Text.Quoted

/-!
# UTF-8

Files and answers of the remote host are bytes. Decoding is strict: overlong forms, halves of
surrogate pairs and numbers beyond the last character are refused. The first wrong byte is reported
with the bytes that belong to it. Every text has an encoding; a wide text with halves has none.
-/

namespace Almanac.Data.Utf8

/-- Why bytes are no UTF-8. -/
inductive Problem where
  | startByte
  | continuationByte
  | endOfData
deriving DecidableEq, Repr

/-- Where decoding stopped: the position of the first byte, the bytes of the broken form, and what
is wrong with them. -/
structure DecodeError where
  position : Nat
  bytes : List UInt8
  problem : Problem
deriving DecidableEq, Repr

def encodeChar (c : Char) : List UInt8 :=
  let n := c.toNat
  if n < 0x80 then [n.toUInt8]
  else if n < 0x800 then [(0xC0 + n / 64).toUInt8, (0x80 + n % 64).toUInt8]
  else if n < 0x10000 then
    [(0xE0 + n / 4096).toUInt8, (0x80 + n / 64 % 64).toUInt8, (0x80 + n % 64).toUInt8]
  else
    [(0xF0 + n / 262144).toUInt8, (0x80 + n / 4096 % 64).toUInt8, (0x80 + n / 64 % 64).toUInt8,
     (0x80 + n % 64).toUInt8]

def encode (t : Text) : List UInt8 :=
  t.flatMap encodeChar

/-- Why a wide text has no encoding: halves of surrogate pairs stand at the position. -/
structure EncodeError where
  position : Nat
  /-- The halves that stand there together. -/
  halves : WideText
deriving DecidableEq, Repr

/-- The first halves in a wide text that is no text. -/
def EncodeError.ofWide (t : WideText) : EncodeError :=
  let before := t.takeWhile fun p => p.char?.isSome
  ⟨before.length, (t.drop before.length).takeWhile fun p => p.char?.isNone⟩

/-- The bytes of a wide text, which may hold no halves of surrogate pairs. -/
def encodeWide (t : WideText) : Except EncodeError (List UInt8) :=
  match t.text? with
  | some s => .ok (encode s)
  | none => .error (.ofWide t)

@[simp]
theorem encodeWide_wide (t : Text) : encodeWide t = .ok (encode t) := by
  rw [encodeWide, Text.text?_wide]

/-- The continuation bytes that a first byte calls for, as intervals; nothing for a byte that
opens no character. The first continuation byte is bounded so that no form is overlong, none is
half of a surrogate pair and none is beyond the last character. -/
def continuation? (b : UInt8) : Option (List (UInt8 × UInt8)) :=
  if b < 0x80 then some []
  else if b < 0xC2 then none
  else if b < 0xE0 then some [(0x80, 0xBF)]
  else if b = 0xE0 then some [(0xA0, 0xBF), (0x80, 0xBF)]
  else if b = 0xED then some [(0x80, 0x9F), (0x80, 0xBF)]
  else if b < 0xF0 then some [(0x80, 0xBF), (0x80, 0xBF)]
  else if b = 0xF0 then some [(0x90, 0xBF), (0x80, 0xBF), (0x80, 0xBF)]
  else if b < 0xF4 then some [(0x80, 0xBF), (0x80, 0xBF), (0x80, 0xBF)]
  else if b = 0xF4 then some [(0x80, 0x8F), (0x80, 0xBF), (0x80, 0xBF)]
  else none

/-- The bytes at the start of the rest that fill the intervals, and the problem that comes before
all are filled, if one does. -/
def fill : List (UInt8 × UInt8) → List UInt8 → List UInt8 × Option Problem
  | [], _ => ([], none)
  | _ :: _, [] => ([], some .endOfData)
  | (low, high) :: intervals, b :: rest =>
      if low ≤ b ∧ b ≤ high then
        let (bytes, problem) := fill intervals rest
        (b :: bytes, problem)
      else ([], some .continuationByte)

/-- The number that a first byte and its continuation bytes stand for. -/
def codePoint (first : UInt8) (more : List UInt8) : Nat :=
  let lead := match more.length with
    | 0 => first.toNat
    | 1 => first.toNat - 0xC0
    | 2 => first.toNat - 0xE0
    | _ => first.toNat - 0xF0
  more.foldl (fun n b => 64 * n + (b.toNat - 0x80)) lead

/-- The characters of the rest of the bytes that begins at the position. -/
def decodeFrom (position : Nat) : List UInt8 → Except DecodeError Text
  | [] => .ok []
  | b :: rest =>
      match continuation? b with
      | none => .error ⟨position, [b], .startByte⟩
      | some intervals =>
          match fill intervals rest with
          | (more, some problem) => .error ⟨position, b :: more, problem⟩
          | (more, none) =>
              match decodeFrom (position + 1 + more.length) (rest.drop more.length) with
              | .error e => .error e
              | .ok t => .ok (Char.ofNat (codePoint b more) :: t)
termination_by bytes => bytes.length
decreasing_by
  simp only [List.length_cons, List.length_drop]
  omega

def decode (bytes : List UInt8) : Except DecodeError Text :=
  decodeFrom 0 bytes

def replacement : Char := '\uFFFD'

/-- The text that the bytes are the encoding of, with the replacement character in place of every
run of bytes that is none. -/
def decodeLossy : List UInt8 → Text
  | [] => []
  | b :: rest =>
      match continuation? b with
      | none => replacement :: decodeLossy rest
      | some intervals =>
          match fill intervals rest with
          -- the bytes that did fill their intervals are taken together with the first one
          | (more, some _) => replacement :: decodeLossy (rest.drop more.length)
          | (more, none) => Char.ofNat (codePoint b more) :: decodeLossy (rest.drop more.length)
termination_by bytes => bytes.length
decreasing_by
  all_goals simp only [List.length_cons, List.length_drop]
  all_goals omega

def Problem.description : Problem → Text
  | startByte => "invalid start byte"
  | continuationByte => "invalid continuation byte"
  | endOfData => "unexpected end of data"

def DecodeError.message (error : DecodeError) : Text :=
  let place : Text := match error.bytes with
    | [b] => "byte 0x" ++ Text.hexDigits 2 b.toNat ++ " in position " ++ Text.ofNat error.position
    | bytes =>
        "bytes in position " ++ Text.ofNat error.position ++ "-"
          ++ Text.ofNat (error.position + bytes.length - 1)
  "'utf-8' codec can't decode " ++ place ++ ": " ++ error.problem.description

def EncodeError.message (error : EncodeError) : Text :=
  let place : Text := match error.halves with
    | [half] => " " ++ WideText.quoted [half] ++ " in position " ++ Text.ofNat error.position
    | halves =>
        "s in position " ++ Text.ofNat error.position ++ "-"
          ++ Text.ofNat (error.position + halves.length - 1)
  "'utf-8' codec can't encode character" ++ place ++ ": surrogates not allowed"

end Almanac.Data.Utf8
