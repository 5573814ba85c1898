import Almanac.Data.Utf8
import Almanac.Failure
import Almanac.Text.Numeral

/-!
# The remote host

The host answers a request for a path with a status and a body, or the request comes to nothing on
its way. The answers are kept in a table by path, and every request that was sent is logged in
order. A path without an answer is not found.
-/

namespace Almanac.Remote

open Almanac.Text Almanac.Data

/-- What becomes of a request. -/
inductive Answer where
  | response (status : Int) (body : Text)
  /-- The request did not reach the host, or the answer did not come back. -/
  | lost (mishap : Mishap)
  /-- The request was cancelled on its way. -/
  | cancelled
deriving DecidableEq, Repr

/-- A request: the path that is asked for, and the headers. -/
structure Request where
  path : Text
  headers : Entries Text WideText
deriving DecidableEq, Repr

/-- The host with the answers that it gives, and the requests that came so far. -/
structure Host where
  answers : Entries Text Answer := []
  log : List Request := []
deriving DecidableEq, Repr

namespace Host

/-- The answer to a request for a path that is not there. -/
def notFound : Answer :=
  .response 404 "Not Found"

def ask (host : Host) (request : Request) : Answer × Host :=
  ((host.answers.get? request.path).getD notFound,
    { host with log := host.log ++ [request] })

end Host

/-! ## Paths of requests -/

namespace Target

def withoutQuery (target : Text) : Text :=
  target.takeWhile fun c => c ≠ '?' && c ≠ '#'

/-- The steps of a path with those led back that two dots take back, the kept ones in reverse. -/
def straight : (kept : List Text) → List Text → List Text
  | kept, [] => kept.reverse
  | kept, step :: rest =>
      if step = ['.'] then straight kept rest
      else if step = ['.', '.'] then
        straight (if kept = [[]] then kept else kept.drop 1) rest
      else straight (step :: kept) rest

def byte? (high low : Char) : Option UInt8 :=
  (hexNumber? [high, low]).map Nat.toUInt8

/-- The bytes of a path in which a percent sign with two hexadecimal digits is a byte. -/
def bytes : Text → List UInt8
  | '%' :: high :: low :: rest =>
      match byte? high low with
      | some byte => byte :: bytes rest
      | none => Utf8.encodeChar '%' ++ bytes (high :: low :: rest)
  | c :: rest => Utf8.encodeChar c ++ bytes rest
  | [] => []

def path (target : Text) : Text :=
  Utf8.decodeLossy (bytes (join "/" (straight [] (pieces '/' (withoutQuery target)))))

def isControl (c : Char) : Bool :=
  c.toNat < 32 || c.toNat = 127

/-- How many characters a target may have. -/
def maxLength : Nat := 65536

/-- Why no request can be made for the target, if none can. -/
def mishap? (target : Text) : Option Mishap :=
  if maxLength < target.length then some ⟨"InvalidURL", "URL too long"⟩
  else match target.dropWhile fun c => !isControl c with
    | [] => none
    | c :: _ => some ⟨"InvalidURL",
        "Invalid non-printable ASCII character in URL, " ++ WideText.quoted [.char c]
          ++ " at position " ++ Text.ofNat (target.takeWhile fun c => !isControl c).length ++ "."⟩

end Target
end Almanac.Remote
