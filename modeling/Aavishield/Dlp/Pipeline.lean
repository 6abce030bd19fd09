import Aavishield.Dlp.Extraction
import Aavishield.Dlp.Windows

/-!
# The scan of an upload

A request is told to carry a file by its type, its first bytes or its name.  What is found
inside an uploaded file is scanned piece by piece.  The strongest verdict on a piece is that
on the upload, and one that blocks ends the scan.
-/

namespace Aavishield.Dlp

open ByteText Text

/-- A type that is a document, media or an archive, as opposed to an API payload. -/
def isFileMime (ct : List Char) : Bool :=
  let startsWith := fun start : String => start.toList.isPrefixOf ct
  if ["json", "xml", "protobuf", "grpc"].any fun word => contains ct word.toList then false
  else
    (startsWith "image/" && decide (ct ≠ "image/svg+xml".toList)) ||
      startsWith "audio/" || startsWith "video/" ||
      (["application/pdf", "application/msword", "application/rtf", "application/zip",
        "application/x-zip-compressed", "application/x-7z-compressed",
        "application/x-rar-compressed", "application/vnd.rar", "application/x-tar", "text/csv",
        "text/tab-separated-values", "application/vnd.ms-excel", "application/vnd.ms-powerpoint",
        "application/vnd.ms-outlook"].any fun known => decide (known.toList = ct)) ||
      startsWith "application/vnd.openxmlformats-officedocument." ||
      startsWith "application/vnd.oasis.opendocument." ||
      startsWith "application/vnd.ms-" || startsWith "application/vnd.apple."

def magicFileType (head : Bytes) : Option String :=
  let starts := fun signature : Bytes => signature.isPrefixOf head
  let at8 := (head.drop 8).take 4
  if starts (bytesOf "%PDF-") then some "pdf"
  else if starts (bytesOf "PK" ++ [3, 4]) then some "zip"
  else if starts [0xd0, 0xcf, 0x11, 0xe0, 0xa1, 0xb1, 0x1a, 0xe1] then some "ole"
  else if starts ([0x89] ++ bytesOf "PNG" ++ [0x0d, 0x0a, 0x1a, 0x0a]) then some "png"
  else if starts [0xff, 0xd8, 0xff] then some "jpeg"
  else if starts (bytesOf "GIF87a") || starts (bytesOf "GIF89a") then some "gif"
  else if starts (bytesOf "7z" ++ [0xbc, 0xaf, 0x27, 0x1c]) then some "7z"
  else if starts (bytesOf "Rar!" ++ [0x1a, 0x07]) then some "rar"
  else if starts (bytesOf "\x7b\\rtf") then some "rtf"
  else if starts (bytesOf "RIFF") && at8 ∈ [bytesOf "WEBP", bytesOf "WAVE", bytesOf "AVI "] then
    some "riff"
  else if (head.drop 4).take 4 = bytesOf "ftyp" ∧ 12 ≤ head.length then some "mp4/heic"
  else if starts (bytesOf "ID3") then some "mp3"
  else none

def fileExtensions : List String :=
  ["pdf", "doc", "docx", "docm", "xls", "xlsx", "xlsm", "csv", "tsv", "ppt", "pptx", "pptm", "odt",
    "ods", "odp", "rtf", "txt", "md", "json", "xml", "yaml", "yml", "zip", "rar", "7z", "tar", "gz",
    "tgz", "png", "jpg", "jpeg", "gif", "webp", "heic", "bmp", "tif", "tiff", "mp3", "m4a", "wav",
    "mp4", "mov", "webm", "eml", "msg", "pages", "numbers", "key", "sql", "py", "js", "ts", "go",
    "rs", "java", "c", "cpp", "h", "cs", "rb", "php", "swift", "kt", "sh", "env", "pem", "key",
    "p12", "pfx"]

def documentExtensions : List String :=
  ["pdf", "doc", "docx", "xls", "xlsx", "csv", "tsv", "ppt", "pptx", "odt", "ods", "odp", "rtf",
    "txt", "md", "sql", "env", "pem", "key", "zip", "7z", "rar", "tar", "tgz"]

def hasExtensionOf (extensions : List String) (name : List Char) : Bool :=
  decide ('.' ∈ name) && decide (beforeLast '.' name ≠ []) &&
    extensions.any fun ext => decide (ext.toList = (afterLast '.' name).map Char.toLower)

def hasFileExtension (name : List Char) : Bool := hasExtensionOf fileExtensions name

def isDocumentName (name : List Char) : Bool := hasExtensionOf documentExtensions name

def FormPart.fileName (part : FormPart) : Option (List Char) := do
  let name ← part.filename
  let named := name ≠ [] ∧ name ≠ "blob".toList ∧ hasFileExtension name = true
  if named ∨ isFileMime (mimeOf part.contentType) = true ∨
      (magicFileType part.data).isSome = true then
    some (if name = [] then "blob".toList else name)
  else none

def isMultipart (ct : List Char) : Bool := "multipart/".toList.isPrefixOf ct

variable (libs : Libraries)

def findFile (ct rawCt hint : List Char) (body : Bytes) : Option (List Char) :=
  if isMultipart ct then do
    let boundary ← multipartBoundary rawCt
    (multipartParts libs body boundary).findSome? FormPart.fileName
  else
    let name := trimSpace hint
    if isFileMime ct || (magicFileType body).isSome then
      some (if hasFileExtension name then name else [])
    else if ct ∈ [[], "application/octet-stream".toList, "binary/octet-stream".toList] ∧
        isDocumentName name = true then
      some name
    else none

variable (env : Primitives) (libs : Libraries) (scanner : Scanner)

def defaultPolicyName : String := "Automatic DLP (default)"

def Scanner.enabled (detector : String) : Bool :=
  scanner.policies.any fun policy => decide (detector ∈ policy.detectors)

def Scanner.aiFor (detector : String) : Option Ai :=
  if scanner.enabled detector then scanner.ai else none

def Scanner.classified (ai : Ai) (detector heading : String) (text filename mime : List Char)
    (detected : Verdict) : Verdict :=
  let verdict := ai.classifyText text
  if verdict.sensitive then
    let label := heading ++ ": " ++ ", ".intercalate verdict.categories
    let start := slice text 0 (floorCharBoundary text (min window (byteLength text)))
    detected.max (scanner.detect env filename mime start
      [⟨detector, label, verdict.confidence, verdict.evidence⟩])
  else detected

def Scanner.scanText (text filename mime : List Char) : Verdict :=
  let detected := scanner.detectWindowed env filename mime text
  if detected.isBlock || decide (trimSpace text = []) then detected
  else
    match scanner.aiFor "ai_text" with
    | none => detected
    | some ai =>
      scanner.classified env ai "ai_text" "AI Content Classification" text filename mime
        detected

def Scanner.scanImage (image : ImageItem) : Verdict :=
  match scanner.aiFor "ai_visual" with
  | none => .default
  | some ai =>
    let verdict := ai.classifyImage image.jpeg
    if verdict.sensitive then
      scanner.detect env image.part "image/jpeg".toList []
        [⟨"ai_visual", "AI Image Classification: " ++ verdict.docType, verdict.confidence,
          verdict.docType.toList⟩]
    else .default

def unscannableSeverity : String → ℕ
  | "block" => 2
  | "alert" => 1
  | _ => 0

/-- The strongest setting of the policies for a reason. -/
def Scanner.unscannableAction (reason : String) : String :=
  scanner.policies.foldl
    (fun action policy =>
      match (scanner.onUnscannable.lookup policy.name).bind (List.lookup reason) with
      | none => action
      | some other =>
        if unscannableSeverity other > unscannableSeverity action then
          if other = "block" then "block" else "alert"
        else action)
    "allow"

def Scanner.scanUnscannable (part : Unscannable) : Verdict :=
  let action := scanner.unscannableAction part.reason
  if action = "allow" then .default
  else
    { matched := true
      score := 0
      band := action
      action := action
      policyName := defaultPolicyName
      detectors := ["unscannable:" ++ part.reason]
      previews := [part.part ++ ": ".toList ++ part.detail.toList]
      reason := "Content at " ++ libs.debugText part.part ++
        " could not be fully inspected (" ++ part.reason ++ ") — organization policy requires " ++
        libs.debugText action.toList ++ " for this content" }

def Scanner.scanSpeech (ai : Ai) (data : Bytes) (filename mime : List Char) : Verdict :=
  if data.length > ai.audioMaxBytes then
    scanner.scanUnscannable libs
      ⟨filename, "media_too_large", s!"{data.length} bytes exceeds DLP_AUDIO_MAX_BYTES"⟩
  else
    match ai.transcribe data mime with
    | none =>
      scanner.scanUnscannable libs
        ⟨filename, "media_no_transcript", "speech-to-text produced no usable transcript"⟩
    | some transcript =>
      let detected :=
        scanner.detectWindowed env filename "text/plain".toList transcript
      if detected.isBlock then detected
      else
        scanner.classified env ai "ai_audio" "AI Audio Classification" transcript
          filename "text/plain".toList detected

def Scanner.scanMedia (data : Bytes) (filename mime : List Char) : Option Verdict :=
  (scanner.aiFor "ai_audio").map fun ai =>
    scanner.scanSpeech env libs ai data filename mime

def Scanner.scanItem : Item → Verdict
  | .segment segment => scanner.scanText env segment.text segment.filename segment.mime
  | .image image => scanner.scanImage env image
  | .unscannable part => scanner.scanUnscannable libs part

def Scanner.scanItems : Verdict → List Item → Verdict
  | worst, [] => worst
  | worst, item :: rest =>
    let worst := worst.max (scanner.scanItem env libs item)
    if worst.isBlock then worst else scanItems worst rest

def mediaExts : List String :=
  [".mp3", ".m4a", ".aac", ".wav", ".flac", ".ogg", ".opus", ".oga", ".wma", ".mp4", ".m4v", ".mov",
    ".webm", ".mkv", ".avi", ".flv", ".3gp"]

def looksLikeMedia (filename contentType : List Char) : Bool :=
  "audio/".toList.isPrefixOf (mimeOf contentType) ||
    "video/".toList.isPrefixOf (mimeOf contentType) ||
    mediaExts.any fun ext => ext.toList.isSuffixOf (filename.map Char.toLower)

def Scanner.mediaVerdict (data : Bytes) (filename contentType : List Char) : Option Verdict :=
  if looksLikeMedia filename contentType then
    scanner.scanMedia env libs data filename contentType
  else none

variable (limits : Limits) (late : ℕ → Bool)

/-- The walk through a file whose items are taken as long as it is said. -/
def extraction (accepts : ℕ → Bool) (data : Bytes) (filename contentType : List Char) : Ctx :=
  (extract libs data filename contentType (.new limits data.length late accepts)).2

/-- Everything inside an uploaded file.  What a walk still sends after a verdict that blocks
is not looked at. -/
def Scanner.scanFile (data : Bytes) (filename contentType : List Char) : Verdict :=
  match scanner.mediaVerdict env libs data filename contentType with
  | some verdict => verdict
  | none =>
    scanner.scanItems env libs .default
      (extraction libs limits late (fun _ => true) data filename contentType).items

def uploadName (contentType inspected : List Char) : List Char :=
  if isMultipart (mimeOf contentType) then [] else inspected

end Aavishield.Dlp
