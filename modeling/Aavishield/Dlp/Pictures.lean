import Aavishield.Dlp.Libraries

/-!
# Images and pages

Images, alone or embedded, and the pages of a PDF.  What is big enough to be a document is
recognised and handed to the classifier, within bounds on their number.
-/

namespace Aavishield.Dlp

open Effects Text Walk

/-- Images and scanned pages are counted apart, so that one cannot starve the other. -/
inductive OcrBudget where
  | image
  | page

def Ctx.ocrRemaining (ctx : Ctx) : OcrBudget → Bool
  | .image => ctx.ocrImages < ctx.limits.ocrMaxImages
  | .page => ctx.ocrPages < ctx.limits.ocrMaxPages

def countOcr : OcrBudget → Walk Unit
  | .image => modify fun ctx => { ctx with ocrImages := ctx.ocrImages + 1 }
  | .page => modify fun ctx => { ctx with ocrPages := ctx.ocrPages + 1 }

def countImage : Walk Unit :=
  modify fun ctx => { ctx with imagesEmitted := ctx.imagesEmitted + 1 }

def Limits.isBigEnough (limits : Limits) (picture : Picture) : Bool :=
  limits.minImageDimension ≤ picture.w && limits.minImageDimension ≤ picture.h

def prepare (picture : Picture) (part : List Char) (budget : OcrBudget) : Walk ImageItem := do
  let ctx ← get
  if ctx.limits.isBigEnough picture && ctx.limits.ocrEnabled && ctx.ocrRemaining budget then
    countOcr budget
    return ⟨part, picture.jpeg, picture.w, picture.h, picture.recognised⟩
  else return ⟨part, picture.jpeg, picture.w, picture.h, []⟩

variable (libs : Libraries) (piece : Piece)

def toImageItem (data : Bytes) (part : List Char) : Walk (Option ImageItem) := do
  let ctx ← get
  match libs.loadImage data with
  | none => return none
  | some picture =>
    if ctx.limits.isBigEnough picture then
      let image ← prepare picture part .image
      return some image
    else return none

def emitImage (image : ImageItem) (filename mime : List Char) : Walk Unit := do
  countImage
  emit (.image image)
  if image.ocrText = [] then pure ()
  else segment image.part filename mime "ocr" image.ocrText

def extractImage (family : String) : Walk Unit := do
  checkBudget piece.data.length
  if (← get).imagesBudgetRemaining then
    match ← toImageItem libs piece.data piece.part with
    | none => unscannable piece.part "corrupt" s!"unreadable {family} image"
    | some image => emitImage image piece.filename s!"image/{family}".toList
  else pure ()

def pageName (index : ℕ) : List Char := s!"page{index + 1}".toList

def scanPage (page : PdfPage) (pagePart : List Char) : Walk Unit := do
  let ctx ← get
  if ctx.limits.ocrTextThreshold ≤ (trimSpace page.text).length then pure ()
  else if !ctx.limits.ocrEnabled || !ctx.ocrRemaining .page then pure ()
  else
    match page.rendered with
    | .error message => unscannable pagePart "corrupt" s!"page render failed: {message}"
    | .ok picture =>
      let image ← prepare picture pagePart .page
      if (← get).imagesBudgetRemaining then
        emitImage image piece.filename "application/pdf".toList
      else if image.ocrText = [] then pure ()
      else segment pagePart piece.filename "application/pdf".toList "ocr" image.ocrText

def visitPage (page : PdfPage) (index : ℕ) : Walk Unit := do
  checkBudget 0
  let pagePart := subPart piece.part (pageName index)
  segmentUnlessBlank pagePart piece.filename "application/pdf".toList "pdf" page.text
  unlessStopped (scanPage piece page pagePart)

def extractPdf : Walk Unit := do
  checkBudget piece.data.length
  match libs.pdfium with
  | none => unscannable piece.part "unsupported_format" "PDF engine unavailable"
  | some load =>
    match load piece.data with
    | .error message =>
      if contains message.toList "Password".toList then
        unscannable piece.part "encrypted_document" message
      else do
        -- A PDF too broken to open still gets its readable text scanned.
        unscannable piece.part "corrupt" message
        segmentUnlessBlank piece.part piece.filename "application/pdf".toList "pdf_raw"
          (libs.printableRuns piece.data)
    | .ok pages =>
      forEach (fun (page, index) => unlessStopped (visitPage piece page index)) pages.zipIdx

end Aavishield.Dlp
