import Aavishield.Dlp.Libraries

/-!
# Multipart bodies

A body of several parts, each with headers and data, between lines with a boundary.
-/

namespace Aavishield.Dlp

open Text

/-- A part with the headers that are read. -/
structure FormPart where
  name : List Char
  filename : Option (List Char)
  contentType : List Char
  data : Bytes

/-- `str::trim_matches` of quotes. -/
def trimQuotes (text : List Char) : List Char :=
  (((text.dropWhile (· = '"')).reverse).dropWhile (· = '"')).reverse

def parameterOf (key : String) (value : List Char) : Option (List Char) :=
  ((value.splitOn ';').drop 1).findSome? fun parameter => do
    let (name, value) ← splitOnce '=' parameter
    if (trimSpace name).map Char.toLower = key.toList then some (trimQuotes (trimSpace value))
    else none

def multipartBoundary (contentType : List Char) : Option (List Char) :=
  parameterOf "boundary" contentType

def dispositionParam (value : List Char) (key : String) : Option (List Char) :=
  parameterOf key value

def splitBytes (delim : Bytes) : ℕ → Bytes → List Bytes
  | 0, body => [body]
  | count + 1, body =>
    match findBytes body delim with
    | none => [body]
    | some start => body.take start :: splitBytes delim count (body.drop (start + delim.length))

def FormPart.header (part : FormPart) (line : List Char) : FormPart :=
  match splitOnce ':' line with
  | none => part
  | some (key, value) =>
    if (trimSpace key).map Char.toLower = "content-disposition".toList then
      { part with
        name := (dispositionParam value "name").getD []
        filename := dispositionParam value "filename" }
    else if (trimSpace key).map Char.toLower = "content-type".toList then
      { part with contentType := trimSpace value }
    else part

def lineBreak : Bytes := [13, 10]

variable (libs : Libraries)

def formPart (text : Bytes) : Option FormPart := do
  let text := if lineBreak.isPrefixOf text then text.drop 2 else text
  let text := if lineBreak.isSuffixOf text then text.take (text.length - 2) else text
  let headersEnd ← findBytes text (lineBreak ++ lineBreak)
  let headers := libs.fromUtf8Lossy (text.take headersEnd)
  let lines := (headers.splitOn '\n').map (trimSuffix ['\r'])
  return lines.foldl FormPart.header ⟨[], none, [], text.drop (headersEnd + 4)⟩

def multipartParts (body : Bytes) (boundary : List Char) : List FormPart :=
  let delim : Bytes := ("--".toList ++ boundary).flatMap String.utf8EncodeChar
  ((splitBytes delim body.length body).drop 1).dropLast.filterMap (formPart libs)

end Aavishield.Dlp
