import Almanac.Data.Base64
import Almanac.Data.Json.Printer
import Almanac.Data.Json.Shape
import Almanac.Failure
import Almanac.Storage.TextFile

/-!
# Content of fetched files

The remote host hands out a file as a text in base 64 with line breaks, next to the name of this
encoding. Line breaks, tabs and spaces are dropped; everything else must be as the encoding wants
it, and the bytes must be UTF-8. Nothing is ever decoded in part.
-/

namespace Almanac.Remote.Content

open Almanac.Text Almanac.Data

/-- Is the character one that breaks up the encoded text? -/
def isFiller (c : Char) : Bool :=
  c = '\n' || c = '\r' || c = '\t' || c = ' '

def failure (cause : Mishap) : Stop :=
  .failure ⟨.decoding, "Failed to decode base64 content", some cause⟩

def notAscii : Stop :=
  failure (.badValue "string argument should contain only ASCII characters")

def ofBase64 (t : WideText) : Except Stop Text :=
  match WideText.text? (t.filter fun p => !p.char?.any isFiller) with
  | none => .error notAscii
  | some compact =>
      if compact.any fun c => 127 < c.toNat then .error notAscii
      else match Base64.decode compact with
        | .error problem => .error (failure ⟨"Error", problem.description⟩)
        | .ok bytes => (Utf8.decode bytes).mapError fun error =>
            failure (Storage.TextFile.decodingMishap error)

/-- The text of a file whose content and encoding are given as the host gave them. -/
def decode (body encoding : Json) : Except Stop Text :=
  if encoding.alike (.str "base64") then
    match body with
    | .str t => ofBase64 t
    | value => .error (.mishap ⟨"TypeError",
        "expected string or bytes-like object, got '" ++ value.shapeName ++ "'"⟩)
  else .error (.failure {
    kind := .decoding
    wording := "Unexpected encoding: " ++ encoding.asText })

end Almanac.Remote.Content
