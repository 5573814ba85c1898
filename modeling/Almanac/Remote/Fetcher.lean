import Almanac.Remote.Answer
import Almanac.Remote.Content
import Almanac.Remote.Limiter

/-!
# Fetching

A fetcher asks the remote host for directories and files of one repository. Each request names the
program, and carries the token if there is one. A request that was cancelled beforehand is never
sent. Fetching the source of a country starts with its code, so an unknown code is refused before
anything is sent or cancelled.
-/

namespace Almanac.Remote

open Almanac.Text Almanac.Data

/-- Work that asks the host, and may stop without a result. -/
abbrev Exchange := ExceptT Stop (StateM Host)

/-- What a fetcher asks for, and as whom. -/
structure Fetcher where
  owner : Text := "vacanza"
  repository : Text := "holidays"
  countriesPath : Text := "holidays/countries"
  /-- Empty for requests without a token. -/
  token : WideText := []
  /-- Was the work cancelled beforehand? -/
  cancelled : Bool := false
  /-- How deep the values in answers may be nested. -/
  room : Nat := Json.usualRoom
deriving DecidableEq, Repr

namespace Fetcher

def authorization (token : WideText) : WideText :=
  "Bearer " ++ token

def headers (fetcher : Fetcher) : Entries Text WideText :=
  let always : List (Text × WideText) :=
    [("accept", "application/vnd.github.v3+json"), ("user-agent", "holidaysync/0.1.0")]
  if fetcher.token.isEmpty then always
  else Entries.put always "authorization" (authorization fetcher.token)

def isForeign (p : CodePoint) : Bool :=
  127 < p.number

/-- A code point by its number, as mishaps show it. -/
def numbered (p : CodePoint) : Text :=
  if p.number < 0x100 then "\\x" ++ hexDigits 2 p.number
  else if p.number < 0x10000 then "\\u" ++ hexDigits 4 p.number
  else "\\U" ++ hexDigits 8 p.number

/-- Why a text can be no header, if it cannot: it holds characters outside of ASCII. The first run
of them is told. -/
def headerMishap? (t : WideText) : Option Mishap :=
  let start := (t.takeWhile fun p => !isForeign p).length
  let told (place : Text) : Mishap :=
    ⟨"UnicodeEncodeError",
      "'ascii' codec can't encode character" ++ place ++ ": ordinal not in range(128)"⟩
  match (t.drop start).takeWhile isForeign with
  | [] => none
  | [p] => some (told (" '" ++ numbered p ++ "' in position " ++ Text.ofNat start))
  | run => some (told ("s in position " ++ Text.ofNat start ++ "-"
      ++ Text.ofNat (start + run.length - 1)))

def mishap? (fetcher : Fetcher) : Option Mishap :=
  if fetcher.token.isEmpty then none else headerMishap? (authorization fetcher.token)

/-- The target of requests for a path of the repository; the directory of the countries if the
path is empty. -/
def contentsTarget (fetcher : Fetcher) (path : Text) : Text :=
  "/repos/" ++ fetcher.owner ++ "/" ++ fetcher.repository ++ "/contents/"
    ++ (if path.isEmpty then fetcher.countriesPath else path)

/-- The target of the request that tells whom the token belongs to. -/
def userTarget : Text := "/user"

def get (fetcher : Fetcher) (target : Text) : Exchange Json := do
  if fetcher.cancelled then throw Stop.cancelled
  match Target.mishap? target with
  | some mishap => throw (Stop.mishap mishap)
  | none =>
      let answer ← modifyGet fun host => host.ask ⟨Target.path target, fetcher.headers⟩
      MonadExcept.ofExcept (answer.json fetcher.room target)

def list (fetcher : Fetcher) (path : Text) : Exchange (List ListedFile) := do
  MonadExcept.ofExcept (ListedFile.listOfJson (← fetcher.get (fetcher.contentsTarget path)))

def file (fetcher : Fetcher) (path : Text) : Exchange FileContent := do
  MonadExcept.ofExcept (FileContent.ofJson path (← fetcher.get (fetcher.contentsTarget path)))

/-- The name of the user whom the token belongs to, as the host tells it. -/
def login (fetcher : Fetcher) : Exchange Json := do
  return loginOfJson (← fetcher.get userTarget)

/-- The codes of the countries that have a source file, in order. -/
def codes (fetcher : Fetcher) : Exchange (List Text) := do
  MonadExcept.ofExcept (ListedFile.codes (← fetcher.list []))

def source (fetcher : Fetcher) (code : Text) : Exchange Text :=
  match Country.sourceFile? code with
  | none => throw (Stop.failure (Failure.unknownCountry code))
  | some name => do
      let found ← fetcher.file (fetcher.countriesPath ++ "/" ++ name)
      MonadExcept.ofExcept (Content.decode found.content found.encoding)

end Fetcher

/-! ## Connections -/

/-- The connection of a fetcher to the host: its own, or one that it was lent. -/
structure Connection where
  base : Text := "https://api.github.com"
  lent : Bool
deriving DecidableEq, Repr

/-- Does the connection stay open after the fetcher is done? Only its own one is closed. -/
def Connection.staysOpen (connection : Connection) : Bool :=
  connection.lent

/-- The base of all targets; one that has a path ends in a slash. -/
def Connection.baseText (connection : Connection) : Text :=
  match (pieces '/' connection.base).drop 3 with
  | [] | [[]] => connection.base
  | steps => if steps.getLast? = some [] then connection.base else connection.base ++ "/"

end Almanac.Remote
