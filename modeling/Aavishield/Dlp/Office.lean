import Aavishield.Dlp.Pictures
import Aavishield.Dlp.TextFiles
import Mathlib.Data.Char
import Mathlib.Data.List.Lex
import Mathlib.Data.List.Sort

/-!
# Office documents

The documents of today, which are archives of XML parts, and those of yesterday, which are
compound files.  Of both, only the parts that hold text, and the images, are looked at.
-/

namespace Aavishield.Dlp

open Effects Text Walk

inductive OfficeKind where
  | docx
  | xlsx
  | pptx

def OfficeKind.mime : OfficeKind → List Char
  | .docx => "application/vnd.openxmlformats-officedocument.wordprocessingml.document".toList
  | .xlsx => "application/vnd.openxmlformats-officedocument.spreadsheetml.sheet".toList
  | .pptx => "application/vnd.openxmlformats-officedocument.presentationml.presentation".toList

def zipKind (members : List ZipMember) : Option OfficeKind :=
  let names := members.map ZipMember.name
  if "word/document.xml".toList ∈ names then some .docx
  else if "xl/workbook.xml".toList ∈ names then some .xlsx
  else if "ppt/presentation.xml".toList ∈ names then some .pptx
  else none

def localName (name : List Char) : List Char := afterLast ':' name

def textsOf (tag : List Char) : ℕ → List XmlEvent → List (List Char)
  | _, [] => []
  | inside, event :: rest =>
    match event with
    | .start name _ => textsOf tag (if localName name = tag then inside + 1 else inside) rest
    | .finish name => textsOf tag (if localName name = tag then inside - 1 else inside) rest
    | .text (some text) =>
      if inside > 0 then text :: textsOf tag inside rest else textsOf tag inside rest
    | _ => textsOf tag inside rest

structure SharedReader where
  current : Option (List Char)
  inText : Bool
  out : List (List Char)

def SharedReader.read (reader : SharedReader) : XmlEvent → SharedReader
  | .start name _ =>
    if localName name = "si".toList then { reader with current := some [] }
    else if localName name = "t".toList then { reader with inText := true }
    else reader
  | .empty name _ =>
    if localName name = "si".toList then { reader with out := reader.out ++ [[]] } else reader
  | .finish name =>
    if localName name = "si".toList then
      { reader with out := reader.out ++ [reader.current.getD []], current := none }
    else if localName name = "t".toList then { reader with inText := false }
    else reader
  | .text (some text) =>
    if reader.inText then { reader with current := reader.current.map (· ++ text) } else reader
  | _ => reader

def sharedStrings (events : List XmlEvent) : List (List Char) :=
  (events.foldl SharedReader.read ⟨none, false, []⟩).out

/-- `str::parse` of a number, which may have a plus sign. -/
def parseIndex (text : List Char) : Option ℕ :=
  let digits := if text.head? = some '+' then text.drop 1 else text
  if digits ≠ [] ∧ digits.all Char.isDigit then
    let number := digits.foldl (fun number digit => 10 * number + (digit.toNat - '0'.toNat)) 0
    if number < 2 ^ 64 then some number else none
  else none

structure CellReader where
  cellType : Option (List Char)
  inValue : Bool
  inInline : Bool
  inText : Bool
  out : List (List Char)

def CellReader.start (reader : CellReader) (name : List Char) (attributes : List XmlAttribute) :
    CellReader :=
  if name = "c".toList then
    { reader with
      cellType := (attributes.find? fun found => found.key = "t".toList).map (·.raw) }
  else if name = "v".toList then { reader with inValue := true }
  else if name = "is".toList then { reader with inInline := true }
  else if name = "t".toList ∧ reader.inInline then { reader with inText := true }
  else reader

def CellReader.finish (reader : CellReader) (name : List Char) : CellReader :=
  if name = "v".toList then { reader with inValue := false }
  else if name = "is".toList then { reader with inInline := false }
  else if name = "t".toList then { reader with inText := false }
  else if name = "c".toList then { reader with cellType := none }
  else reader

def CellReader.text (reader : CellReader) (shared : List (List Char)) (text : List Char) :
    CellReader :=
  if reader.inValue then
    if reader.cellType = some "s".toList then
      { reader with out := reader.out ++ ((parseIndex (trimSpace text)).bind (shared[·]?)).toList }
    else { reader with out := reader.out ++ [text] }
  else if reader.inText then { reader with out := reader.out ++ [text] }
  else reader

def sheetCells (shared : List (List Char)) (events : List XmlEvent) : List (List Char) :=
  (events.foldl (fun reader event =>
    match event with
    | .start name attributes => reader.start (localName name) attributes
    | .finish name => reader.finish (localName name)
    | .text text => reader.text shared (text.getD [])
    | _ => reader) (CellReader.mk none false false false [])).out

/-- The number that the digits of a name make, so that `sheet10` comes after `sheet9`. -/
def numberOf (name : List Char) : ℕ := (parseIndex (name.filter Char.isDigit)).getD 0

def sortsBefore (first second : List Char) : Prop :=
  numberOf first < numberOf second ∨ (numberOf first = numberOf second ∧ first ≤ second)

instance : DecidableRel sortsBefore := fun _ _ => inferInstanceAs (Decidable (_ ∨ _))

def sortedNames (members : List ZipMember) (keep : List Char → Bool) : List (List Char) :=
  ((members.map ZipMember.name).filter keep).insertionSort sortsBefore

def isPartOf (starts : List String) (name : List Char) : Bool :=
  starts.any (fun start => start.toList.isPrefixOf name) && ".xml".toList.isSuffixOf name

def isDocxText : List Char → Bool :=
  isPartOf ["word/document", "word/header", "word/footer", "word/footnotes", "word/endnotes"]

def isSheet : List Char → Bool := isPartOf ["xl/worksheets/sheet"]

def isSlide : List Char → Bool := isPartOf ["ppt/slides/slide"]

def imageExts : List String :=
  [".png", ".jpg", ".jpeg", ".gif", ".bmp", ".tiff", ".tif", ".webp"]

def isMedia (name : List Char) : Bool :=
  contains name "/media/".toList &&
    imageExts.any fun ext => ext.toList.isSuffixOf (name.map Char.toLower)

def partLabel (name : List Char) : List Char := trimEndMatches ".xml".toList (afterLast '/' name)

def memberNamed (members : List ZipMember) (name : List Char) : Option ZipMember :=
  members.find? fun member => member.name = name

def readEntry (members : List ZipMember) (name : List Char) : Walk (Option Bytes) :=
  match memberNamed members name with
  | none => return none
  | some member =>
    if member.openError.isSome then return none
    else do
      checkBudget member.size
      return member.contents.toOption

variable (libs : Libraries) (piece : Piece) (members : List ZipMember)

def docxTexts (name : List Char) : Walk (List (List Char)) := do
  match ← readEntry members name with
  | none => return []
  | some xml => return textsOf "t".toList 0 (libs.readXml xml).events

def extractDocx : Walk Unit := do
  let texts ← collect (docxTexts libs members) (sortedNames members isDocxText)
  segment piece.part piece.filename OfficeKind.docx.mime "docx" (joinLines texts)

def visitOfficePart (kind : OfficeKind) (source : String)
    (texts : List XmlEvent → List (List Char)) (name : List Char) : Walk Unit := do
  match ← readEntry members name with
  | none => pure ()
  | some xml =>
    segment (subPart piece.part (partLabel name)) piece.filename kind.mime source
      (joinLines (texts (libs.readXml xml).events))

def sharedPart : List Char := "xl/sharedStrings.xml".toList

def readShared : Walk (List (List Char)) := do
  match ← readEntry members sharedPart with
  | none => return []
  | some xml => return sharedStrings (libs.readXml xml).events

def extractXlsx : Walk Unit := do
  let shared ← readShared libs members
  forEach
    (fun name => unlessStopped
      (visitOfficePart libs piece members .xlsx "xlsx" (sheetCells shared) name))
    (sortedNames members isSheet)

def extractPptx : Walk Unit :=
  forEach
    (fun name => unlessStopped
      (visitOfficePart libs piece members .pptx "pptx" (textsOf "t".toList 0) name))
    (sortedNames members isSlide)

def visitMedia (name : List Char) : Walk Unit := do
  let imagePart := subPart piece.part name
  if (← get).imagesBudgetRemaining then
    match ← readEntry members name with
    | none => pure ()
    | some data =>
      match ← toImageItem libs data imagePart with
      | none => pure ()
      | some image => emitImage image name "image".toList
  else pure ()

def extractOfficeText : OfficeKind → Walk Unit
  | .docx => extractDocx libs piece members
  | .xlsx => extractXlsx libs piece members
  | .pptx => extractPptx libs piece members

def extractOffice (kind : OfficeKind) : Walk Unit := do
  extractOfficeText libs piece members kind
  forEach (fun name => unlessStopped (visitMedia libs piece members name))
    (sortedNames members isMedia)

def msgUnicodeBody : List Char := "__substg1.0_1000001F".toList

def msgAsciiBody : List Char := "__substg1.0_1000001E".toList

def isSubject (name : List Char) : Bool := "__substg1.0_0037".toList.isPrefixOf name

def utf16le (data : Bytes) : List Char :=
  ((libs.fromUtf16Lossy data).reverse.dropWhile (· = '\x00')).reverse

/-- Property streams ending in `001F` are UTF-16; the rest are 8-bit. -/
def decodeProperty (name : List Char) (data : Bytes) : List Char :=
  if "001F".toList.isSuffixOf name then utf16le libs data else libs.fromUtf8Lossy data

variable (streams : List CfbStream)

def readStream (stream : CfbStream) : Walk (Option Bytes) :=
  match stream.data with
  | none => return none
  | some data => do
    checkBudget data.length
    return some data

def msgStreams : List CfbStream :=
  ((streams.find? fun stream => stream.name = msgUnicodeBody).or
    (streams.find? fun stream => stream.name = msgAsciiBody)).toList ++
      streams.filter fun stream => isSubject stream.name

def streamTexts (decode : CfbStream → Bytes → List Char) (stream : CfbStream) :
    Walk (List (List Char)) := do
  match ← readStream stream with
  | none => return []
  | some data => return [decode stream data]

def extractMsg : Walk Unit := do
  let texts ← collect
    (streamTexts fun stream data => decodeProperty libs stream.name data)
    (msgStreams streams)
  segment piece.part piece.filename "application/vnd.ms-outlook".toList "msg"
    (joinLines (texts.filter (· ≠ [])))

def extractLegacy : Walk Unit := do
  let chunks ← collect (streamTexts fun _ data => libs.printableRuns data) streams
  segment piece.part piece.filename "application/x-ole-storage".toList "legacy_office"
    (joinLines chunks)

def isEncryption (stream : CfbStream) : Bool :=
  stream.name = "EncryptionInfo".toList ∨ stream.name = "EncryptedPackage".toList

def extractOle : Walk Unit :=
  match libs.openCfb piece.data with
  | .error message => unscannable piece.part "corrupt" message
  | .ok streams =>
    if streams.any isEncryption then
      unscannable piece.part "encrypted_document" "OLE-wrapped encrypted Office package"
    else if streams.any fun stream => "__substg1.0_".toList.isPrefixOf stream.name then
      extractMsg libs piece streams
    else extractLegacy libs piece streams

end Aavishield.Dlp
