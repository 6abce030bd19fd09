import Aavishield.Dlp.Containers
import Aavishield.Dlp.Forms
import Aavishield.Dlp.Office

/-!
# Extraction

The dispatcher, through which all nested content comes back, and the top of an extraction.
Depth is counted down: it is the number of levels that are still allowed.
-/

namespace Aavishield.Dlp

open Effects Text Walk

variable (libs : Libraries)

def extractOfficeOrZip (inner : Piece → Walk Unit) (piece : Piece) : Walk Unit :=
  match libs.zip piece.data with
  | none => extractZip libs inner piece
  | some members =>
    match zipKind members with
    | some kind => extractOffice libs piece members kind
    | none => extractZip libs inner piece

def runFamily (inner : Piece → Walk Unit) (piece : Piece) (family : String) : Walk Unit :=
  match family with
  | "zip" => extractOfficeOrZip libs inner piece
  | "gzip" => extractGzip libs inner piece
  | "tar" => extractTar libs inner piece
  | "rar" => unscannable piece.part "unsupported_archive" "RAR archives are not supported"
  | "7z" => extractSevenZip libs inner piece
  | "pdf" => extractPdf libs piece
  | "ole" => extractOle libs piece
  | "png" | "jpeg" | "gif" | "bmp" | "webp" | "tiff" => extractImage libs piece family
  | "rtf" => extractRtf libs piece
  | "eml" | "eml_mbox" => extractMail libs inner piece
  | "csv" => extractCsv libs piece
  | "json" => extractJson libs piece
  | "urlencoded" => extractUrlencoded libs piece
  | "xml" | "html" => extractXmlOrHtml libs piece
  | "text" => extractText libs piece
  | other => unscannable piece.part "unsupported_format" s!"family={other}"

def Piece.family (piece : Piece) : String :=
  sniffFamily (piece.data.take 8192) piece.filename piece.contentType

def dispatchWith (inner : Piece → Walk Unit) (opening : Option Opening) (piece : Piece) :
    Walk Unit :=
  unlessStopped (reporting piece.part (do
    checkBudget 0
    opens opening
    runFamily libs inner piece piece.family))

def nestedDispatch : ℕ → Option Opening → Piece → Walk Unit
  | 0, _, piece => do
    let ctx ← get
    unscannable piece.part "too_deep" s!"> {ctx.limits.maxDepth} levels of nesting"
  | depth + 1, opening, piece => dispatchWith libs (nestedDispatch depth none) opening piece

def dispatch (opening : Option Opening) (piece : Piece) : Walk Unit := do
  let ctx ← get
  dispatchWith libs (nestedDispatch libs ctx.limits.maxDepth none) opening piece

def FormPart.piece (part : FormPart) (root name : List Char) : Piece :=
  let name := if name = [] then "blob".toList else name
  ⟨part.data, subPart root name, name, mimeOf part.contentType⟩

def visitFormPart (root : List Char) (part : FormPart) (index : ℕ) : Walk Unit := do
  checkBudget part.data.length
  match part.filename with
  | some name =>
    let ctx ← get
    nestedDispatch libs ctx.limits.maxDepth (some (.part index part.data))
      (part.piece root name)
  | none =>
    let field := if part.name = [] then s!"field{index}".toList else part.name
    segmentUnlessBlank (subPart root field) field "text/plain".toList "multipart_field"
      (libs.userTextOfField field (decodeBestEffort libs part.data))

def visitFormParts (root : List Char) (parts : List (FormPart × ℕ)) : Walk Unit :=
  forEach (fun (part, index) => unlessStopped (visitFormPart libs root part index)) parts

def extractMultipart (data : Bytes) (root contentType : List Char) : Walk Unit :=
  match multipartBoundary contentType with
  | none => unscannable root "corrupt" "multipart boundary missing"
  | some boundary =>
    match multipartParts libs data boundary with
    | [] => unscannable root "corrupt" "multipart boundary parse failed"
    | parts => reporting root (visitFormParts libs root parts.zipIdx)

def extract (data : Bytes) (filename contentType : List Char) : Walk Unit :=
  let root := if filename = [] then "content".toList else filename
  if mimeOf contentType = "multipart/form-data".toList then
    extractMultipart libs data root contentType
  else dispatch libs (some (.whole data)) ⟨data, root, filename, contentType⟩

end Aavishield.Dlp
