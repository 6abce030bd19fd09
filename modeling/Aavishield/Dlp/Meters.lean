import Aavishield.Dlp.Extraction

/-!
# What an extraction decompresses

The extractors once more, with the bytes that come out of archives and documents on the way.
-/

namespace Aavishield.Dlp

open Effects Text Walk

/-- How much comes of an entry, also when it then fails. -/
structure Readings where
  zip : ZipMember → ℕ
  tar : TarEntry → ℕ
  sevenZip : SevenZip → ℕ
  zip_of_ok : ∀ member payload, member.contents = .ok payload → zip member = payload.length
  tar_of_ok : ∀ entry payload, entry.contents = .ok payload → tar entry = payload.length
  sevenZip_of_ok : ∀ archive files, archive.contents = .ok files →
    sevenZip archive = (files.map fun file => file.2.length).sum

abbrev MeteredWalk (Value : Type) := Metered Ctx BudgetExceeded Value

namespace Walk

def charging (size amount : ℕ) : MeteredWalk Unit where
  effect := checkBudget size
  meter ctx :=
    match checkBudget size ctx with
    | (.ok _, _) => amount
    | (.error _, _) => 0

def readThenCharge (amount : ℕ) : MeteredWalk Unit := ⟨checkBudget amount, fun _ => amount⟩

def meteredUnlessStopped (metered : MeteredWalk Unit) : MeteredWalk Unit where
  effect := unlessStopped metered.effect
  meter ctx := if ctx.stopped then 0 else metered.meter ctx

def meteredReporting (part : List Char) (metered : MeteredWalk Unit) : MeteredWalk Unit where
  effect := reporting part metered.effect
  meter := metered.meter

end Walk

open Metered (plainly)

variable (libs : Libraries) (readings : Readings) (inner : Piece → MeteredWalk Unit)
  (piece : Piece) (members : List ZipMember)

def zipAmount (member : ZipMember) : ℕ :=
  if member.encrypted || member.openError.isSome then 0 else readings.zip member

def meteredZipMember (member : ZipMember) : MeteredWalk Unit :=
  let entryPart := subPart piece.part member.name
  match member.rawError with
  | some message => plainly (unscannable piece.part "corrupt" message)
  | none =>
    if member.isDir then
      plainly (pure ())
    else
      (charging member.size (zipAmount readings member)).andThen fun _ =>
        if member.encrypted then
          plainly (unscannable entryPart "encrypted_archive" "password-protected zip entry")
        else
          match member.openError, member.contents with
          | some message, _ => plainly (unscannable entryPart "corrupt" message)
          | none, .error message => plainly (unscannable entryPart "corrupt" message)
          | none, .ok payload => inner (piece.entry member.name payload)

def meteredZip : MeteredWalk Unit :=
  match libs.zip piece.data with
  | none => plainly (unscannable piece.part "corrupt" "not a valid zip")
  | some members =>
    Metered.forEach
      (fun member => meteredUnlessStopped (meteredZipMember readings inner piece member)) members

def meteredGzip : MeteredWalk Unit :=
  let (chunks, failure) := libs.gunzip piece.data
  (Metered.forEach (fun chunk => readThenCharge chunk.length) chunks).andThen fun _ =>
    match failure with
    | some message => plainly (unscannable piece.part "corrupt" message)
    | none => inner (piece.entry (gzipName piece.filename) chunks.flatten)

def meteredTarEntry (entry : TarEntry) : MeteredWalk Unit :=
  let entryPart := subPart piece.part entry.name
  if !entry.isFile then
    plainly (pure ())
  else
    (charging entry.size (readings.tar entry)).andThen fun _ =>
      match entry.contents with
      | .error message => plainly (unscannable entryPart "corrupt" message)
      | .ok payload => inner (piece.entry entry.name payload)

def meteredTar : MeteredWalk Unit :=
  match libs.tar piece.data with
  | .error message => plainly (unscannable piece.part "corrupt" message)
  | .ok (entries, failure) =>
    (Metered.forEach
      (fun entry => meteredUnlessStopped (meteredTarEntry readings inner piece entry))
      entries).andThen fun _ =>
    match failure with
    | some message => plainly (unlessStopped (unscannable piece.part "corrupt" message))
    | none => plainly (pure ())

def chargingListing (archive : SevenZip) (amount : ℕ) : MeteredWalk Unit :=
  let checks := forEach
    (fun entry : SevenZipEntry => if entry.isDirectory then pure () else checkBudget entry.size)
    archive.files
  { effect := checks
    meter := fun ctx =>
      match checks ctx with
      | (.ok _, _) => amount
      | (.error _, _) => 0 }

def meteredSevenZip : MeteredWalk Unit :=
  match libs.sevenZip piece.data with
  | .error message => plainly (unscannable piece.part (sevenZipReason message) message)
  | .ok archive =>
    (chargingListing archive (readings.sevenZip archive)).andThen fun _ =>
      match archive.contents with
      | .error message => plainly (unscannable piece.part (sevenZipReason message) message)
      | .ok files =>
        Metered.forEach
          (fun file => meteredUnlessStopped (inner (piece.entry file.1 file.2))) files

def meteredMailPart (part : MailPart) (seq : ℕ) : MeteredWalk Unit :=
  match part.body, part.inlineText with
  | .multipart, _ => plainly (pure ())
  | _, some text =>
    plainly do
      checkBudget (ByteText.byteLength text)
      segment (subPart piece.part (mailPartName part seq)) piece.filename part.mime "eml_body" text
  | _, none =>
    (plainly (checkBudget part.contents.length)).andThen fun _ =>
      inner (piece.attachment part seq)

def meteredMail : MeteredWalk Unit :=
  (plainly (checkBudget piece.data.length)).andThen fun _ =>
    match libs.parseMail piece.data with
    | none => plainly (unscannable piece.part "corrupt" "not a parseable email")
    | some parts =>
      (plainly (segment (subPart piece.part "headers".toList) piece.filename
        "message/rfc822".toList "eml_headers"
        (libs.fromUtf8Lossy (piece.data.take (headerEnd piece.data))))).andThen fun _ =>
      Metered.forEach
        (fun (part, seq) => meteredUnlessStopped (meteredMailPart inner piece part seq))
        parts.zipIdx

def meteredEntry (name : List Char) : MeteredWalk (Option Bytes) :=
  match memberNamed members name with
  | none => plainly (return none)
  | some member =>
    if member.openError.isSome then plainly (return none)
    else (charging member.size (readings.zip member)).andThen fun _ =>
      plainly (return member.contents.toOption)

def meteredDocxTexts (name : List Char) : MeteredWalk (List (List Char)) :=
  (meteredEntry readings members name).andThen fun found =>
    plainly (match found with
      | none => return []
      | some xml => return textsOf "t".toList 0 (libs.readXml xml).events)

def meteredOfficePart (kind : OfficeKind) (source : String)
    (texts : List XmlEvent → List (List Char)) (name : List Char) : MeteredWalk Unit :=
  (meteredEntry readings members name).andThen fun found =>
    plainly (match found with
      | none => pure ()
      | some xml => segment (subPart piece.part (partLabel name)) piece.filename kind.mime source
          (joinLines (texts (libs.readXml xml).events)))

def meteredShared : MeteredWalk (List (List Char)) :=
  (meteredEntry readings members sharedPart).andThen fun found =>
    plainly (match found with
      | none => return []
      | some xml => return sharedStrings (libs.readXml xml).events)

def meteredOfficeText : OfficeKind → MeteredWalk Unit
  | .docx =>
    (Metered.collect (meteredDocxTexts libs readings members)
      (sortedNames members isDocxText)).andThen fun texts =>
    plainly (segment piece.part piece.filename OfficeKind.docx.mime "docx" (joinLines texts))
  | .xlsx =>
    (meteredShared libs readings members).andThen fun shared =>
    Metered.forEach
      (fun name => meteredUnlessStopped
        (meteredOfficePart libs readings piece members .xlsx "xlsx" (sheetCells shared) name))
      (sortedNames members isSheet)
  | .pptx =>
    Metered.forEach
      (fun name => meteredUnlessStopped
        (meteredOfficePart libs readings piece members .pptx "pptx"
          (textsOf "t".toList 0) name))
      (sortedNames members isSlide)

def meteredMedia (name : List Char) : MeteredWalk Unit :=
  let imagePart := subPart piece.part name
  (plainly get).andThen fun ctx =>
    if ctx.imagesBudgetRemaining then
      (meteredEntry readings members name).andThen fun found =>
        plainly (match found with
          | none => pure ()
          | some data => do
            match ← toImageItem libs data imagePart with
            | none => pure ()
            | some image => emitImage image name "image".toList)
    else plainly (pure ())

def meteredOffice (kind : OfficeKind) : MeteredWalk Unit :=
  (meteredOfficeText libs readings piece members kind).andThen fun _ =>
  Metered.forEach
    (fun name => meteredUnlessStopped (meteredMedia libs readings piece members name))
    (sortedNames members isMedia)

def meteredOfficeOrZip : MeteredWalk Unit :=
  match libs.zip piece.data with
  | none => meteredZip libs readings inner piece
  | some members =>
    match zipKind members with
    | some kind => meteredOffice libs readings piece members kind
    | none => meteredZip libs readings inner piece

def meteredFamily (family : String) : MeteredWalk Unit :=
  match family with
  | "zip" => meteredOfficeOrZip libs readings inner piece
  | "gzip" => meteredGzip libs inner piece
  | "tar" => meteredTar libs readings inner piece
  | "7z" => meteredSevenZip libs readings inner piece
  | "eml" | "eml_mbox" => meteredMail libs inner piece
  | other => plainly (runFamily libs (fun child => (inner child).effect) piece other)

def meteredDispatchWith (opening : Option Opening) : MeteredWalk Unit :=
  meteredUnlessStopped (meteredReporting piece.part
    ((charging 0 0).andThen fun _ =>
      (plainly (opens opening)).andThen fun _ =>
        meteredFamily libs readings inner piece piece.family))

def meteredNested : ℕ → Piece → MeteredWalk Unit
  | 0, piece => plainly do
      let ctx ← get
      unscannable piece.part "too_deep" s!"> {ctx.limits.maxDepth} levels of nesting"
  | depth + 1, piece =>
    meteredDispatchWith libs readings (meteredNested depth) piece none

def meteredDispatch (opening : Option Opening) : MeteredWalk Unit :=
  (plainly get).andThen fun ctx =>
    meteredDispatchWith libs readings (meteredNested libs readings ctx.limits.maxDepth)
      piece opening

variable {libs readings inner piece members}

@[simp]
theorem effect_charging (size amount : ℕ) : (charging size amount).effect = checkBudget size := rfl

@[simp]
theorem effect_meteredUnlessStopped (metered : MeteredWalk Unit) :
    (meteredUnlessStopped metered).effect = unlessStopped metered.effect := rfl

theorem effect_meteredZipMember (member : ZipMember) :
    (meteredZipMember readings inner piece member).effect =
      visitZipMember (fun child => (inner child).effect) piece member := by
  unfold meteredZipMember visitZipMember
  cases member.rawError with
  | some message => rfl
  | none =>
    by_cases isDir : member.isDir = true
    · simp only [isDir, if_true]
      rfl
    · simp only [isDir]
      cases member.encrypted <;> cases member.openError <;> cases member.contents <;> rfl

theorem effect_meteredZip : (meteredZip libs readings inner piece).effect =
    extractZip libs (fun child => (inner child).effect) piece := by
  unfold meteredZip extractZip
  split
  · simp_all
  · simp_all [effect_meteredZipMember]

theorem effect_meteredGzip : (meteredGzip libs inner piece).effect =
    extractGzip libs (fun child => (inner child).effect) piece := by
  unfold meteredGzip extractGzip
  simp only [Metered.effect_andThen, Metered.effect_forEach]
  congr 1
  funext _
  split <;> simp_all

theorem effect_meteredTarEntry (entry : TarEntry) :
    (meteredTarEntry readings inner piece entry).effect =
      visitTarEntry (fun child => (inner child).effect) piece entry := by
  unfold meteredTarEntry visitTarEntry
  cases entry.isFile with
  | false => rfl
  | true => cases entry.contents <;> rfl

theorem effect_meteredTar : (meteredTar libs readings inner piece).effect =
    extractTar libs (fun child => (inner child).effect) piece := by
  unfold meteredTar extractTar
  split
  · simp_all
  · simp only [Metered.effect_andThen, Metered.effect_forEach, effect_meteredUnlessStopped,
      effect_meteredTarEntry]
    split <;> simp_all

theorem effect_meteredSevenZip : (meteredSevenZip libs readings inner piece).effect =
    extractSevenZip libs (fun child => (inner child).effect) piece := by
  unfold meteredSevenZip extractSevenZip
  cases libs.sevenZip piece.data with
  | error message => rfl
  | ok archive =>
    simp only [Metered.effect_andThen, chargingListing]
    cases archive.contents with
    | error message => rfl
    | ok files => simp

theorem effect_meteredMailPart (part : MailPart) (seq : ℕ) :
    (meteredMailPart inner piece part seq).effect =
      visitMailPart (fun child => (inner child).effect) piece part seq := by
  unfold meteredMailPart visitMailPart
  split <;> simp_all

theorem effect_meteredMail : (meteredMail libs inner piece).effect =
    extractMail libs (fun child => (inner child).effect) piece := by
  unfold meteredMail extractMail
  simp only [Metered.effect_andThen, Metered.effect_plainly]
  congr 1
  funext _
  split
  · simp_all
  · simp_all [effect_meteredMailPart]

theorem effect_meteredEntry (name : List Char) :
    (meteredEntry readings members name).effect = readEntry members name := by
  unfold meteredEntry readEntry
  split
  · simp_all
  · split <;> simp_all

theorem effect_meteredOffice (kind : OfficeKind) :
    (meteredOffice libs readings piece members kind).effect =
      extractOffice libs piece members kind := by
  have part : ∀ kind source texts name,
      (meteredOfficePart libs readings piece members kind source texts name).effect =
        visitOfficePart libs piece members kind source texts name := by
    intro kind source texts name
    simp only [meteredOfficePart, visitOfficePart, Metered.effect_andThen, effect_meteredEntry]
    rfl
  have docx : ∀ name, (meteredDocxTexts libs readings members name).effect =
      docxTexts libs members name := by
    intro name
    simp only [meteredDocxTexts, docxTexts, Metered.effect_andThen, effect_meteredEntry]
    rfl
  have shared : (meteredShared libs readings members).effect =
      readShared libs members := by
    simp only [meteredShared, readShared, Metered.effect_andThen, effect_meteredEntry]
    rfl
  have media : ∀ name, (meteredMedia libs readings piece members name).effect =
      visitMedia libs piece members name := by
    intro name
    simp only [meteredMedia, visitMedia, Metered.effect_andThen, Metered.effect_plainly]
    congr 1
    funext ctx
    split
    · simp only [Metered.effect_andThen, effect_meteredEntry]
      rfl
    · rfl
  have text : (meteredOfficeText libs readings piece members kind).effect =
      extractOfficeText libs piece members kind := by
    cases kind with
    | docx =>
      simp only [meteredOfficeText, extractOfficeText, extractDocx, Metered.effect_andThen,
        Metered.effect_collect, docx]
      rfl
    | xlsx =>
      simp only [meteredOfficeText, extractOfficeText, extractXlsx, Metered.effect_andThen,
        Metered.effect_forEach, effect_meteredUnlessStopped, shared, part]
    | pptx =>
      simp only [meteredOfficeText, extractOfficeText, extractPptx, Metered.effect_forEach,
        effect_meteredUnlessStopped, part]
  simp only [meteredOffice, extractOffice, Metered.effect_andThen, Metered.effect_forEach,
    effect_meteredUnlessStopped, text, media]

theorem effect_meteredFamily (family : String) :
    (meteredFamily libs readings inner piece family).effect =
      runFamily libs (fun child => (inner child).effect) piece family := by
  unfold meteredFamily
  split
  · simp only [meteredOfficeOrZip, runFamily, extractOfficeOrZip]
    cases libs.zip piece.data with
    | none => exact effect_meteredZip
    | some members =>
      cases kind : zipKind members with
      | some kind => simp only [kind, effect_meteredOffice]
      | none => simp only [kind, effect_meteredZip]
  · exact effect_meteredGzip
  · exact effect_meteredTar
  · exact effect_meteredSevenZip
  · exact effect_meteredMail
  · exact effect_meteredMail
  · rfl

theorem effect_meteredDispatchWith (opening : Option Opening) :
    (meteredDispatchWith libs readings inner piece opening).effect =
      dispatchWith libs (fun child => (inner child).effect) opening piece := by
  simp only [meteredDispatchWith, dispatchWith, effect_meteredUnlessStopped, meteredReporting,
    Metered.effect_andThen, effect_charging, Metered.effect_plainly, effect_meteredFamily]

theorem effect_meteredNested (depth : ℕ) (piece : Piece) :
    (meteredNested libs readings depth piece).effect =
      nestedDispatch libs depth none piece := by
  induction depth generalizing piece with
  | zero => rfl
  | succ depth others =>
    simp only [meteredNested, nestedDispatch, effect_meteredDispatchWith]
    congr 1
    funext child
    exact others child

theorem effect_meteredDispatch (opening : Option Opening) :
    (meteredDispatch libs readings piece opening).effect =
      dispatch libs opening piece := by
  simp only [meteredDispatch, dispatch, Metered.effect_andThen, Metered.effect_plainly,
    effect_meteredDispatchWith, effect_meteredNested]

end Aavishield.Dlp
