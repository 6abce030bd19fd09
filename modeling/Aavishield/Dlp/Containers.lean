import Aavishield.Dlp.Libraries
import Aavishield.Lib.ByteText

/-!
# Archives and mails

Every entry is checked against the bounds before it is read.  Its bytes go back to the
dispatcher, one level deeper, as a piece of their own.
-/

namespace Aavishield.Dlp

open Effects Text Walk

variable (libs : Libraries) (inner : Piece → Walk Unit) (piece : Piece)

def Piece.entry (name : List Char) (data : Bytes) : Piece :=
  ⟨data, subPart piece.part name, name, []⟩

def visitZipMember (member : ZipMember) : Walk Unit :=
  let entryPart := subPart piece.part member.name
  match member.rawError with
  | some message => unscannable piece.part "corrupt" message
  | none =>
    -- A name that ends in a slash is not read, whatever it holds.
    if member.isDir then pure ()
    else do
      checkBudget member.size
      if member.encrypted then
        unscannable entryPart "encrypted_archive" "password-protected zip entry"
      else
        match member.openError, member.contents with
        | some message, _ => unscannable entryPart "corrupt" message
        | none, .error message => unscannable entryPart "corrupt" message
        | none, .ok payload => inner (piece.entry member.name payload)

def extractZip : Walk Unit :=
  match libs.zip piece.data with
  | none => unscannable piece.part "corrupt" "not a valid zip"
  | some members => forEach (fun member => unlessStopped (visitZipMember inner piece member)) members

def gzipName (filename : List Char) : List Char :=
  if ".gz".toList.isSuffixOf (filename.map Char.toLower) then filename.take (filename.length - 3)
  else if filename = [] then "content".toList
  else filename

def extractGzip : Walk Unit := do
  let (chunks, failure) := libs.gunzip piece.data
  forEach (fun chunk => checkBudget chunk.length) chunks
  match failure with
  | some message => unscannable piece.part "corrupt" message
  | none => inner (piece.entry (gzipName piece.filename) chunks.flatten)

def visitTarEntry (entry : TarEntry) : Walk Unit :=
  let entryPart := subPart piece.part entry.name
  -- Links, but sparse and contiguous files as well.
  if !entry.isFile then pure ()
  else do
    checkBudget entry.size
    match entry.contents with
    | .error message => unscannable entryPart "corrupt" message
    | .ok payload => inner (piece.entry entry.name payload)

def extractTar : Walk Unit :=
  match libs.tar piece.data with
  | .error message => unscannable piece.part "corrupt" message
  | .ok (entries, failure) => do
    forEach (fun entry => unlessStopped (visitTarEntry inner piece entry)) entries
    match failure with
    | some message => unlessStopped (unscannable piece.part "corrupt" message)
    | none => pure ()

def isPasswordError (message : String) : Bool :=
  let text := message.toList.map Char.toLower
  contains text "password".toList || contains text "encrypt".toList

def sevenZipReason (message : String) : String :=
  if isPasswordError message then "encrypted_archive" else "corrupt"

def extractSevenZip : Walk Unit :=
  match libs.sevenZip piece.data with
  | .error message => unscannable piece.part (sevenZipReason message) message
  | .ok archive => do
    forEach (fun entry => if entry.isDirectory then pure () else checkBudget entry.size)
      archive.files
    match archive.contents with
    | .error message => unscannable piece.part (sevenZipReason message) message
    | .ok files =>
      forEach (fun file => unlessStopped (inner (piece.entry file.1 file.2))) files

def headerEnd (data : Bytes) : ℕ :=
  ((findBytes data [13, 10, 13, 10]).or (findBytes data [10, 10])).getD data.length

def mailPartName (part : MailPart) (seq : ℕ) : List Char :=
  part.attachmentName.getD s!"part{seq + 1}".toList

def Piece.attachment (part : MailPart) (seq : ℕ) : Piece where
  data := part.contents
  part := subPart piece.part (mailPartName part seq)
  filename := mailPartName part seq
  contentType :=
    match part.body with
    | .message => "message/rfc822".toList
    | _ => part.mime

def MailPart.inlineText (part : MailPart) : Option (List Char) :=
  match part.attachmentName, part.body with
  | none, .text text => some text
  | none, .html text => some text
  | _, _ => none

def visitMailPart (part : MailPart) (seq : ℕ) : Walk Unit :=
  match part.body, part.inlineText with
  | .multipart, _ => pure ()
  | _, some text => do
    checkBudget (ByteText.byteLength text)
    segment (subPart piece.part (mailPartName part seq)) piece.filename part.mime "eml_body" text
  | _, none => do
    checkBudget part.contents.length
    inner (piece.attachment part seq)

def extractMail : Walk Unit := do
  checkBudget piece.data.length
  match libs.parseMail piece.data with
  | none => unscannable piece.part "corrupt" "not a parseable email"
  | some parts => do
    segment (subPart piece.part "headers".toList) piece.filename "message/rfc822".toList
      "eml_headers" (libs.fromUtf8Lossy (piece.data.take (headerEnd piece.data)))
    forEach (fun (part, seq) => unlessStopped (visitMailPart inner piece part seq)) parts.zipIdx

end Aavishield.Dlp
