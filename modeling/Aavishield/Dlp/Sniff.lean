import Aavishield.Dlp.Walk

/-!
# Kinds of content

The family of a file, by its first bytes, by its declared type, by its name and last by its
shape.
-/

namespace Aavishield.Dlp

open Text

def bytesOf (text : String) : Bytes :=
  text.toList.map fun letter => UInt8.ofNat letter.toNat

def signatures : List (Bytes × String) := [
  (bytesOf "PK" ++ [3, 4], "zip"),
  (bytesOf "PK" ++ [5, 6], "zip"),
  ([0x1f, 0x8b], "gzip"),
  (bytesOf "%PDF-", "pdf"),
  (bytesOf "Rar!" ++ [0x1a, 0x07], "rar"),
  (bytesOf "7z" ++ [0xbc, 0xaf, 0x27, 0x1c], "7z"),
  ([0xd0, 0xcf, 0x11, 0xe0, 0xa1, 0xb1, 0x1a, 0xe1], "ole"),
  ([0x89] ++ bytesOf "PNG" ++ [0x0d, 0x0a, 0x1a, 0x0a], "png"),
  ([0xff, 0xd8, 0xff], "jpeg"),
  (bytesOf "GIF87a", "gif"),
  (bytesOf "GIF89a", "gif"),
  (bytesOf "BM", "bmp"),
  (bytesOf "RIFF", "riff"),
  (bytesOf "II*" ++ [0], "tiff"),
  (bytesOf "MM" ++ [0] ++ bytesOf "*", "tiff"),
  (bytesOf "\x7b\\rtf1", "rtf"),
  (bytesOf "From ", "eml_mbox")]

def lookupText (table : List (List String × String)) (text : List Char) : Option String :=
  (table.find? fun row => row.1.any fun name => name.toList = text).map Prod.snd

def byContentType (ct : List Char) : Option String :=
  lookupText [
    (["application/json", "text/json", "application/x-ndjson"], "json"),
    (["application/x-www-form-urlencoded"], "urlencoded"),
    (["text/csv", "text/tab-separated-values"], "csv"),
    (["application/xml", "text/xml"], "xml"),
    (["text/html"], "html"),
    (["text/plain"], "text"),
    (["message/rfc822"], "eml")] ct

def extension (filename : List Char) : Option (List Char) :=
  if '.' ∈ filename then some (afterLast '.' filename) else none

def byExtension (filename : List Char) : Option String := do
  let ext ← extension filename
  lookupText [
    (["txt", "log", "md", "ini", "conf", "yaml", "yml"], "text"),
    (["csv", "tsv"], "csv"),
    (["json", "ndjson", "jsonl"], "json"),
    (["xml"], "xml"),
    (["html", "htm"], "html"),
    (["eml"], "eml"),
    (["msg", "doc", "xls", "ppt"], "ole"),
    (["docx", "xlsx", "pptx", "zip"], "zip"),
    (["tar"], "tar"),
    (["gz", "tgz"], "gzip"),
    (["rar"], "rar"),
    (["7z"], "7z"),
    (["rtf"], "rtf"),
    (["png"], "png"),
    (["jpg", "jpeg"], "jpeg"),
    (["gif"], "gif"),
    (["bmp"], "bmp"),
    (["webp"], "webp"),
    (["tif", "tiff"], "tiff"),
    (["pdf"], "pdf")] (ext.map Char.toLower)

def mimeOf (contentType : List Char) : List Char :=
  (trimSpace (contentType.takeWhile (· ≠ ';'))).map Char.toLower

def decodeUtf8 (data : Bytes) : Option (List Char) :=
  (ByteArray.mk data.toArray).utf8Decode?.map Array.toList

def isSecondByte (first second : UInt8) : Bool :=
  if first = 0xe0 then 0xa0 ≤ second && second ≤ 0xbf
  else if first = 0xed then 0x80 ≤ second && second ≤ 0x9f
  else if first = 0xf0 then 0x90 ≤ second && second ≤ 0xbf
  else if first = 0xf4 then 0x80 ≤ second && second ≤ 0x8f
  else 0x80 ≤ second && second ≤ 0xbf

def isCutOff : Bytes → Bool
  | [first] => 0xc2 ≤ first && first ≤ 0xf4
  | [first, second] => 0xe0 ≤ first && first ≤ 0xf4 && isSecondByte first second
  | [first, second, third] =>
    0xf0 ≤ first && first ≤ 0xf4 && isSecondByte first second && 0x80 ≤ third && third ≤ 0xbf
  | _ => false

/-- `std::str::from_utf8` succeeds, or fails at a last character that is cut off. -/
def decodesCleanly (head : Bytes) : Bool :=
  (decodeUtf8 head).isSome || [1, 2, 3].any fun cut =>
    isCutOff (head.drop (head.length - cut)) &&
      (decodeUtf8 (head.take (head.length - cut))).isSome

def isAsciiWhitespace (byte : UInt8) : Bool :=
  byte ∈ ([0x20, 0x09, 0x0a, 0x0c, 0x0d] : Bytes)

def byShape (head : Bytes) : String :=
  let trimmed := head.dropWhile isAsciiWhitespace
  if (bytesOf "\x7b").isPrefixOf trimmed || (bytesOf "[").isPrefixOf trimmed then "json"
  else if (bytesOf "<").isPrefixOf trimmed then "xml"
  else if 0 ∉ head ∧ decodesCleanly head then "text"
  else "binary"

def sniffFamily (head : Bytes) (filename contentType : List Char) : String :=
  match signatures.find? fun signature => signature.1.isPrefixOf head with
  | some (_, family) =>
    if family = "riff" then
      if (head.drop 8).take 4 = bytesOf "WEBP" then "webp" else "riff"
    else family
  | none =>
    if head.length > 262 ∧ (head.drop 257).take 5 = bytesOf "ustar" then "tar"
    else
      match byContentType (mimeOf contentType) with
      | some family => family
      | none => (byExtension filename).getD (byShape head)

end Aavishield.Dlp
