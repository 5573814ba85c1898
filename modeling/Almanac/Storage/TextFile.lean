import Almanac.Data.Utf8
import Almanac.Storage.FileTree

/-!
# Text files

A text file holds the UTF-8 bytes of a text. Whatever ends a line in a file is read as a line
feed, and lines are written as they are. A file is opened for writing in a mode, which is one
letter for what is to happen to a file that is there already, with a plus sign for reading and
writing at once.
-/

namespace Almanac.Storage

open Almanac.Text Almanac.Data

namespace TextFile

def withLineFeeds : Text → Text
  | '\r' :: '\n' :: rest => '\n' :: withLineFeeds rest
  | '\r' :: rest => '\n' :: withLineFeeds rest
  | c :: rest => c :: withLineFeeds rest
  | [] => []

def readingFailure (path : Path) (cause : Mishap) : Stop :=
  .failure ⟨.fileReading (some path.toText), "Failed to read file: " ++ path.toText, some cause⟩

def decodingMishap (error : Utf8.DecodeError) : Mishap :=
  ⟨"UnicodeDecodeError", error.message⟩

def read (tree : FileTree) (path : Path) : Except Stop Text :=
  match tree.bytes path with
  | .error problem => .error (readingFailure path (problem.mishap path))
  | .ok bytes =>
      match Utf8.decode bytes with
      | .error error => .error (readingFailure path (decodingMishap error))
      | .ok t => .ok (withLineFeeds t)

/-! ## Modes -/

/-- What is to happen when a file is opened for writing. -/
inductive Mode where
  /-- The file must be there, and cannot be written. -/
  | keep
  /-- The file must be there, and is written from its start on. -/
  | overlay
  /-- The file is emptied. -/
  | replace
  /-- What is written goes to the end of the file. -/
  | extend
  /-- No file may be there. -/
  | create
deriving DecidableEq, Repr

/-- Why a text is no mode for a text file. -/
inductive ModeProblem where
  | unknown (mode : Text)
  | textAndBytes
  | manyWays
  | bytes
  | noWay
deriving DecidableEq, Repr

def ModeProblem.message : ModeProblem → Text
  | unknown mode => "invalid mode: '" ++ mode ++ "'"
  | textAndBytes => "can't have text and binary mode at once"
  | manyWays => "must have exactly one of create/read/write/append mode"
  | bytes => "binary mode doesn't take an encoding argument"
  | noWay => "Must have exactly one of create/read/write/append mode and at most one plus"

/-- Is every letter one that a mode may have, and none of them repeated? -/
def areLetters : Text → Bool
  | [] => true
  | c :: rest => c ∈ ("xrwabt+" : Text) && c ∉ rest && areLetters rest

def Mode.ofText (t : Text) : Except ModeProblem Mode :=
  if !areLetters t then .error (.unknown t)
  else if 't' ∈ t ∧ 'b' ∈ t then .error .textAndBytes
  else
    let ways := t.filter fun c => c ∈ ("xrwa" : Text)
    if 1 < ways.length then .error .manyWays
    else if 'b' ∈ t then .error .bytes
    else if ways = ['x'] then .ok .create
    else if ways = ['w'] then .ok .replace
    else if ways = ['a'] then .ok .extend
    else if ways = ['r'] then .ok (if '+' ∈ t then .overlay else .keep)
    else .error .noWay

def notWritable : Mishap := ⟨"UnsupportedOperation", "not writable"⟩

/-- The tree after the bytes were written to a file in a mode. -/
def store (tree : FileTree) (path : Path) (mode : Mode) (added : List UInt8) :
    Except Mishap FileTree :=
  let stored (content : List UInt8) : Except Mishap FileTree :=
    (tree.put path content).mapError (PathProblem.mishap path)
  match tree.bytes path, mode with
  | .ok _, .create | .error .isDirectory, .create =>
      .error (PathProblem.mishap path .occupied)
  | .ok _, .keep => .error notWritable
  | .ok old, .overlay => stored (added ++ old.drop added.length)
  | .ok old, .extend => stored (old ++ added)
  | .ok _, .replace => stored added
  | .error .missing, .create | .error .missing, .extend | .error .missing, .replace => stored added
  | .error problem, _ => .error (problem.mishap path)

/-! ## Writers -/

/-- What text is written to: a file, or nothing as long as there is no path. -/
structure Writer where
  path : Option Path
deriving DecidableEq, Repr

def Writer.ofPath (tree : FileTree) (path : Path) : Except Stop Writer :=
  if tree.contains path.parent then .ok ⟨some path⟩
  else .error (.failure {
    kind := .filePath (some path.toText)
    wording := "Parent directory does not exist: " ++ path.parent.toText })

/-- The tree after a text was written, or why it was not. The file is opened before the text is
encoded, so a text that has no encoding leaves what a mode does to a file when it is opened. -/
def Writer.write (tree : FileTree) (writer : Writer) (t : WideText) (mode : Text) :
    Except Stop Unit × FileTree :=
  match writer.path with
  | none => (.error (.failure {
      kind := .filePath none
      wording := "No file path set. Use a factory method first." }), tree)
  | some path =>
      match Mode.ofText mode with
      | .error problem => (.error (.mishap (.badValue problem.message)), tree)
      | .ok mode =>
          match store tree path mode ((Utf8.encodeWide t).toOption.getD []) with
          | .error cause => (.error (.failure ⟨.fileWriting (some path.toText),
              "Failed to write to file: " ++ path.toText, some cause⟩), tree)
          | .ok written =>
              (if t.text?.isSome then .ok () else .error (.mishap (.unencodable t)), written)

/-- The tree after a text has replaced what was in the file, or why it has not. -/
def Writer.replace (tree : FileTree) (writer : Writer) (t : WideText) :
    Except Stop Unit × FileTree :=
  writer.write tree t "w"

end TextFile
end Almanac.Storage
