import Aavishield.Dlp.Sniff

/-!
# What extraction takes from libraries

The crates that read archives, documents and images, by what they say about the bytes of a
file.
-/

namespace Aavishield.Dlp

/-- A value of `serde_json`. -/
inductive Json where
  | null
  | bool (value : Bool)
  | number (text : List Char)
  | string (text : List Char)
  | array (items : List Json)
  | object (fields : List (List Char × Json))

structure XmlAttribute where
  key : List Char
  raw : List Char
  unescaped : Option (List Char)

/-- An event of a `quick_xml` reader. -/
inductive XmlEvent where
  | start (name : List Char) (attributes : List XmlAttribute)
  | empty (name : List Char) (attributes : List XmlAttribute)
  | finish (name : List Char)
  | text (unescaped : Option (List Char))
  | cdata (text : List Char)
  | other

structure XmlReading where
  events : List XmlEvent
  complete : Bool

/-- An entry of a `zip::ZipArchive`. -/
structure ZipMember where
  name : List Char
  size : ℕ
  isDir : Bool
  encrypted : Bool
  /-- Of `by_index_raw`. -/
  rawError : Option String
  /-- Of `by_index` and `by_name`. -/
  openError : Option String
  /-- Of `read_to_end`. -/
  contents : Except String Bytes

structure TarEntry where
  name : List Char
  size : ℕ
  isFile : Bool
  contents : Except String Bytes

structure SevenZipEntry where
  name : List Char
  size : ℕ
  isDirectory : Bool

structure SevenZip where
  files : List SevenZipEntry
  contents : Except String (List (List Char × Bytes))

structure Picture where
  w : ℕ
  h : ℕ
  jpeg : Bytes
  recognised : List Char

structure PdfPage where
  text : List Char
  rendered : Except String Picture

inductive MailBody where
  | multipart
  | text (text : List Char)
  | html (text : List Char)
  | message
  | binary

structure MailPart where
  attachmentName : Option (List Char)
  mime : List Char
  body : MailBody
  contents : Bytes

structure CfbStream where
  name : List Char
  data : Option Bytes

/-- Everything that reads bytes, images or archives for the service. -/
structure Libraries where
  fromUtf8Lossy : Bytes → List Char
  decodeUtf16 : Bool → Bytes → List Char
  /-- `String::from_utf16_lossy` of bytes in little endian. -/
  fromUtf16Lossy : Bytes → List Char
  /-- The guess of `chardetng`. -/
  decodeGuessed : Bytes → List Char
  parseJson : List Char → Option Json
  /-- `form_urlencoded::parse`. -/
  parseForm : Bytes → List (List Char × List Char)
  readXml : Bytes → XmlReading
  rtfToText : List Char → List Char
  userTextOfField : List Char → List Char → List Char
  debugText : List Char → String
  printableRuns : Bytes → List Char
  zip : Bytes → Option (List ZipMember)
  gunzip : Bytes → List Bytes × Option String
  tar : Bytes → Except String (List TarEntry × Option String)
  sevenZip : Bytes → Except String SevenZip
  loadImage : Bytes → Option Picture
  pdfium : Option (Bytes → Except String (List PdfPage))
  parseMail : Bytes → Option (List MailPart)
  openCfb : Bytes → Except String (List CfbStream)

def asciiLibraries : Libraries where
  fromUtf8Lossy data := data.map fun byte => Char.ofNat byte.toNat
  decodeUtf16 _ _ := []
  fromUtf16Lossy _ := []
  decodeGuessed data := data.map fun byte => Char.ofNat byte.toNat
  parseJson _ := none
  parseForm _ := []
  readXml _ := ⟨[], false⟩
  rtfToText text := text
  userTextOfField _ text := text
  debugText := String.ofList
  printableRuns _ := []
  zip _ := none
  gunzip _ := ([], some "invalid gzip header")
  tar _ := .ok ([], none)
  sevenZip _ := .error "Bad signature"
  loadImage _ := none
  pdfium := none
  parseMail _ := none
  openCfb _ := .error "Invalid CFB file"

end Aavishield.Dlp
