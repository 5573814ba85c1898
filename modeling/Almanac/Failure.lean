import Almanac.Country.Relevance
import Almanac.Country.Table
import Almanac.Data.Utf8

/-!
# Failures

Work on a country can end without a result in two ways. A failure is one of the cases that this
library tells apart: it has a kind, a message for the reader, and a mishap as its cause if there
was one. A mishap is anything that went wrong beneath the library or against its expectations, of
which nothing but a name and a description is known. Failures that belong to one file are
recorded, and the work goes on with the next file; a cancelled request or a bare mishap ends the
whole work.
-/

namespace Almanac

open Almanac.Text Almanac.Data

/-- Something that went wrong beneath the library: the name of its kind and its description. -/
structure Mishap where
  kind : Text
  details : WideText
deriving DecidableEq, Repr

namespace Mishap

def missingKey (key : WideText) : Mishap :=
  ⟨"KeyError", key.quoted⟩

def systemKinds : List Text :=
  ["FileNotFoundError", "FileExistsError", "NotADirectoryError", "IsADirectoryError",
   "UnsupportedOperation"]

def isSystem (mishap : Mishap) : Bool :=
  mishap.kind ∈ systemKinds

def badValue (details : WideText) : Mishap :=
  ⟨"ValueError", details⟩

/-- The mishap of a wide text that has to be encoded and holds halves of surrogate pairs. -/
def unencodable (t : WideText) : Mishap :=
  ⟨"UnicodeEncodeError", (Utf8.EncodeError.ofWide t).message⟩

end Mishap

namespace Failure

/-- The kinds of failures, with what is known about each. -/
inductive Kind where
  /-- Any failure of no other kind. -/
  | general
  /-- A request to the remote host came to nothing. -/
  | fetch
  /-- The remote host refused a request. -/
  | refused (status : Int) (body : Text)
  | cancelled
  /-- The content of a fetched file could not be decoded. -/
  | decoding
  /-- A source file is not worth reading. -/
  | content (reason : Text)
  /-- No sense could be made of a registration call. -/
  | call (line : Int) (reason : Text)
  /-- No sense could be made of the outline of a file. -/
  | outline (line : Int) (reason : Text)
  /-- Two different definitions have one key. -/
  | collision (key : Text)
  /-- A code or a file name that is not in the table of countries. -/
  | unknownCountry (value : Text)
  /-- Any failure with a file. -/
  | file (path : Option Text)
  /-- There is no file at the path, and none can be made. -/
  | filePath (path : Option Text)
  | fileReading (path : Option Text)
  | fileWriting (path : Option Text)
deriving DecidableEq, Repr

namespace Kind

def message : Kind → Text
  | general => "An error occurred while syncing holiday definitions"
  | fetch => "Failed to fetch data from the remote code host"
  | refused status body => "Remote API error " ++ ofInt status ++ ": " ++ body
  | cancelled => "Fetch cancelled by caller"
  | decoding => "Failed to decode file content"
  | content reason => "Invalid source content: " ++ reason
  | call line reason => "Line " ++ ofInt line ++ ": " ++ reason
  | outline line reason => "Line " ++ ofInt line ++ ": " ++ reason
  | collision key => "Conflicting holiday definitions for key '" ++ key ++ "'"
  | unknownCountry value => Country.unknownMessage value
  | file _ | filePath _ | fileReading _ | fileWriting _ => "A file I/O error occurred"

/-- Did the failure come from the remote host or on the way to it? -/
def isFetch : Kind → Bool
  | fetch | refused _ _ => true
  | _ => false

def isFile : Kind → Bool
  | file _ | filePath _ | fileReading _ | fileWriting _ => true
  | _ => false

/-- Does the failure belong to one file, so that work on other files can go on? -/
def isFileLevel : Kind → Bool
  | decoding | content _ | unknownCountry _ => true
  | kind => kind.isFetch || kind.isFile

def path? : Kind → Option Text
  | file path | filePath path | fileReading path | fileWriting path => path
  | _ => none

end Kind
end Failure

/-- A failure. If the wording is empty, the message is that of the kind. -/
structure Failure where
  kind : Failure.Kind
  wording : WideText := []
  cause : Option Mishap := none
deriving DecidableEq, Repr

namespace Failure

def message (failure : Failure) : WideText :=
  if failure.wording.isEmpty then failure.kind.message else failure.wording

/-- What a report of a failure tells about its origin. -/
structure Diagnosis where
  kind : Text
  details : WideText
  system : Text
deriving DecidableEq, Repr

/-- The diagnosis of a failure: its cause, if it has one, and the family of operating systems. -/
def diagnosis (failure : Failure) : Diagnosis :=
  match failure.cause with
  | some mishap => ⟨mishap.kind, mishap.details, "posix"⟩
  | none => ⟨"Unknown", "No details", "posix"⟩

def unknownCountry (value : Text) : Failure :=
  { kind := .unknownCountry value }

def irrelevant (why : Country.Irrelevance) : Failure :=
  { kind := .content why.reason }

end Failure

/-- How work ends without a result. -/
inductive Stop where
  | failure (failure : Failure)
  | mishap (mishap : Mishap)
deriving DecidableEq, Repr

namespace Stop

def cancelled : Stop :=
  failure { kind := .cancelled }

def lacking (shape ability : Text) : Stop :=
  mishap ⟨"AttributeError", "'" ++ shape ++ "' object has no attribute '" ++ ability ++ "'"⟩

end Stop
end Almanac
