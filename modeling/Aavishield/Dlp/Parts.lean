import Aavishield.Dlp.Extraction
import Mathlib.Algebra.Order.Group.Nat
import Mathlib.Algebra.Order.Monoid.Prod

/-!
# The parts of a file

What a file holds, by what the libraries say of its bytes: parts that are not made of parts,
the leaves, and contents that are files of their own.  Some leaves are not looked at; pictures
and scanned pages are counted.
-/

namespace Aavishield.Dlp

open Text

/-- What a leaf holds, as far as the extractors can tell. -/
inductive Content where
  | text (text : List Char)
  | picture
  /-- A page without a text of its own, which becomes a picture as well. -/
  | scan
  /-- Bytes that cannot be read. -/
  | unread
  /--
  What no extractor looks at: members of an Office document that are not on its list or not
  read to their end, strings that no cell shows, embedded images that are too small or are none,
  streams that are not read, and what an archive does not call a file.
  -/
  | overlooked
  deriving DecidableEq

/-- A part that is not made of parts. -/
structure Leaf where
  part : List Char
  content : Content
  deriving DecidableEq

/-- How many pictures may be shown, and how many scanned pages read. -/
def Limits.room (limits : Limits) : ℕ × ℕ := (limits.maxImagesReturned, limits.ocrMaxPages)

/-- What a leaf takes of that room. -/
def Content.cost : Content → ℕ × ℕ
  | .picture => (1, 0)
  | .scan => (1, 1)
  | _ => 0

/-- What one file holds. -/
structure Parts where
  leaves : List Leaf
  pieces : List Piece
  deriving DecidableEq

namespace Parts

def none : Parts := ⟨[], []⟩

def leaf (part : List Char) (content : Content) : Parts := ⟨[⟨part, content⟩], []⟩

def piece (piece : Piece) : Parts := ⟨[], [piece]⟩

def both (first second : Parts) : Parts :=
  ⟨first.leaves ++ second.leaves, first.pieces ++ second.pieces⟩

def all {Element : Type} (parts : Element → Parts) (elements : List Element) : Parts :=
  ⟨elements.flatMap fun element => (parts element).leaves,
    elements.flatMap fun element => (parts element).pieces⟩

/-- What the leaves take of the room, and what the pieces do by their own count. -/
def cost (count : Piece → ℕ × ℕ) (parts : Parts) : ℕ × ℕ :=
  (parts.leaves.map fun leaf => leaf.content.cost).sum + (parts.pieces.map count).sum

end Parts

variable (libs : Libraries) (limits : Limits) (whole : Piece)

def zipMemberParts (member : ZipMember) : Parts :=
  let entryPart := subPart whole.part member.name
  match member.rawError with
  | some _ => .leaf whole.part .unread
  | none =>
    if member.isDir then if member.size = 0 then .none else .leaf entryPart .overlooked
    else if member.encrypted then .leaf entryPart .unread
    else
      match member.openError, member.contents with
      | some _, _ => .leaf entryPart .unread
      | none, .error _ => .leaf entryPart .unread
      | none, .ok payload => .piece (whole.entry member.name payload)

def zipParts : Parts :=
  match libs.zip whole.data with
  | none => .leaf whole.part .unread
  | some members => .all (zipMemberParts whole) members

def gzipParts : Parts :=
  let (chunks, failure) := libs.gunzip whole.data
  match failure with
  | some _ => .leaf whole.part .unread
  | none => .piece (whole.entry (gzipName whole.filename) chunks.flatten)

def tarEntryParts (entry : TarEntry) : Parts :=
  let entryPart := subPart whole.part entry.name
  if !entry.isFile then if entry.size = 0 then .none else .leaf entryPart .overlooked
  else
    match entry.contents with
    | .error _ => .leaf entryPart .unread
    | .ok payload => .piece (whole.entry entry.name payload)

def tarParts : Parts :=
  match libs.tar whole.data with
  | .error _ => .leaf whole.part .unread
  | .ok (entries, failure) =>
    .both (.all (tarEntryParts whole) entries)
      (match failure with
      | some _ => .leaf whole.part .unread
      | none => .none)

def sevenZipParts : Parts :=
  match libs.sevenZip whole.data with
  | .error _ => .leaf whole.part .unread
  | .ok archive =>
    match archive.contents with
    | .error _ => .leaf whole.part .unread
    | .ok files => .all (fun file => .piece (whole.entry file.1 file.2)) files

def mailPartParts (part : MailPart) (seq : ℕ) : Parts :=
  match part.body, part.inlineText with
  | .multipart, _ => .none
  | _, some text => .leaf (subPart whole.part (mailPartName part seq)) (.text text)
  | _, none => .piece (whole.attachment part seq)

def mailParts : Parts :=
  match libs.parseMail whole.data with
  | none => .leaf whole.part .unread
  | some parts =>
    .both
      (.leaf (subPart whole.part "headers".toList)
        (.text (libs.fromUtf8Lossy (whole.data.take (headerEnd whole.data)))))
      (.all (fun (part, seq) => mailPartParts whole part seq) parts.zipIdx)

def PdfPage.isScanned (page : PdfPage) : Prop :=
  ¬limits.ocrTextThreshold ≤ (trimSpace page.text).length

instance (page : PdfPage) : Decidable (page.isScanned limits) :=
  inferInstanceAs (Decidable (¬_))

def scanParts (page : PdfPage) (pagePart : List Char) : Parts :=
  if page.isScanned limits then
    .leaf pagePart (if limits.ocrEnabled then .scan else .overlooked)
  else .none

def pageParts (page : PdfPage) (index : ℕ) : Parts :=
  let pagePart := subPart whole.part (pageName index)
  .both
    (if trimSpace page.text = [] then .none else .leaf pagePart (.text page.text))
    (scanParts limits page pagePart)

def pdfParts : Parts :=
  match libs.pdfium with
  | none => .leaf whole.part .unread
  | some load =>
    match load whole.data with
    | .error _ => .leaf whole.part .unread
    | .ok pages => .all (fun (page, index) => pageParts limits whole page index) pages.zipIdx

variable (members : List ZipMember)

def readMember (name : List Char) : Option Bytes := do
  let member ← memberNamed members name
  if member.openError.isSome then none else member.contents.toOption

/-- The part is read to its end, and every text of it. -/
def XmlReading.isSound (reading : XmlReading) : Bool :=
  reading.complete && reading.events.all fun event =>
    match event with
    | .text none => false
    | _ => true

def lostParts (part : List Char) (reading : XmlReading) : Parts :=
  if reading.isSound then .none else .leaf part .overlooked

def xmlPartParts (part name : List Char) (texts : List XmlEvent → List (List Char)) : Parts :=
  match readMember members name with
  | none => .leaf part .overlooked
  | some xml =>
    let reading := libs.readXml xml
    .both (lostParts part reading) (.leaf part (.text (joinLines (texts reading.events))))

def docxParts : Parts :=
  .all
    (fun name => xmlPartParts libs members (subPart whole.part name) name
      (textsOf "t".toList 0))
    (sortedNames members isDocxText)

def sharedTexts : List (List Char) :=
  match readMember members sharedPart with
  | none => []
  | some xml => sharedStrings (libs.readXml xml).events

/-- Some cell of a sheet shows the text. -/
def isShown (text : List Char) : Bool :=
  (sortedNames members isSheet).any fun name =>
    match readMember members name with
    | none => false
    | some xml =>
      decide (text ∈ sheetCells (sharedTexts libs members) (libs.readXml xml).events)

/-- What the cells show of the shared strings is part of the sheets. -/
def sharedParts : Parts :=
  let part := subPart whole.part sharedPart
  match readMember members sharedPart, memberNamed members sharedPart with
  | none, none => .none
  | none, some _ => .leaf part .overlooked
  | some xml, _ =>
    .both (lostParts part (libs.readXml xml))
      (.all
        (fun text =>
          if text = [] || isShown libs members text then .none else .leaf part .overlooked)
        (sharedTexts libs members))

def namedParts (texts : List XmlEvent → List (List Char)) (keep : List Char → Bool) : Parts :=
  .all
    (fun name => xmlPartParts libs members (subPart whole.part (partLabel name)) name texts)
    (sortedNames members keep)

def officeTextParts : OfficeKind → Parts
  | .docx => docxParts libs whole members
  | .xlsx =>
    .both (sharedParts libs whole members)
      (namedParts libs whole members (sheetCells (sharedTexts libs members)) isSheet)
  | .pptx => namedParts libs whole members (textsOf "t".toList 0) isSlide

def mediaContent (name : List Char) : Content :=
  match ((readMember members name).bind libs.loadImage).filter limits.isBigEnough with
  | none => .overlooked
  | some _ => .picture

def mediaParts : Parts :=
  .all (fun name => .leaf (subPart whole.part name) (mediaContent libs limits members name))
    (sortedNames members isMedia)

def OfficeKind.isListed (kind : OfficeKind) (name : List Char) : Bool :=
  isMedia name ||
    match kind with
    | .docx => isDocxText name
    | .xlsx => isSheet name || decide (name = sharedPart)
    | .pptx => isSlide name

def unlistedParts (kind : OfficeKind) : Parts :=
  .all
    (fun member =>
      if kind.isListed member.name || (member.isDir && member.size == 0) then .none
      else .leaf (subPart whole.part member.name) .overlooked)
    members

def officeParts (kind : OfficeKind) : Parts :=
  .both (officeTextParts libs whole members kind)
    (.both (mediaParts libs limits whole members) (unlistedParts whole members kind))

def streamParts (decode : CfbStream → Bytes → List Char) (stream : CfbStream) : Parts :=
  match stream.data with
  | none => .leaf (subPart whole.part stream.name) .overlooked
  | some data => .leaf (subPart whole.part stream.name) (.text (decode stream data))

variable (streams : List CfbStream)

def isReadOfMsg (stream : CfbStream) : Bool :=
  isSubject stream.name || decide (stream.name = msgUnicodeBody) ||
    (decide (stream.name = msgAsciiBody) &&
      !streams.any fun other => decide (other.name = msgUnicodeBody))

def msgParts : Parts :=
  .both
    (.all (streamParts whole fun stream data => decodeProperty libs stream.name data)
      (msgStreams streams))
    (.all
      (fun stream =>
        if isReadOfMsg streams stream then .none
        else .leaf (subPart whole.part stream.name) .overlooked)
      streams)

def oleParts : Parts :=
  match libs.openCfb whole.data with
  | .error _ => .leaf whole.part .unread
  | .ok streams =>
    if streams.any isEncryption then .leaf whole.part .unread
    else if streams.any fun stream => "__substg1.0_".toList.isPrefixOf stream.name then
      msgParts libs whole streams
    else .all (streamParts whole fun _ data => libs.printableRuns data) streams

def officeOrZipParts : Parts :=
  match libs.zip whole.data with
  | none => zipParts libs whole
  | some members =>
    match zipKind members with
    | some kind => officeParts libs limits whole members kind
    | none => zipParts libs whole

def textParts (text : List Char) : Parts := .leaf whole.part (.text text)

def familyParts (family : String) : Parts :=
  match family with
  | "zip" => officeOrZipParts libs limits whole
  | "gzip" => gzipParts libs whole
  | "tar" => tarParts libs whole
  | "rar" => .leaf whole.part .unread
  | "7z" => sevenZipParts libs whole
  | "pdf" => pdfParts libs limits whole
  | "ole" => oleParts libs whole
  | "png" | "jpeg" | "gif" | "bmp" | "webp" | "tiff" => .leaf whole.part .picture
  | "rtf" => textParts whole (libs.rtfToText (decodeBestEffort libs whole.data))
  | "eml" | "eml_mbox" => mailParts libs whole
  | "csv" => textParts whole (decodeBestEffort libs whole.data)
  | "json" => textParts whole (jsonText libs (decodeBestEffort libs whole.data)).2
  | "urlencoded" => textParts whole (urlencodedText libs whole.data)
  | "xml" | "html" => textParts whole (markupText libs whole.data)
  | "text" => textParts whole (decodeBestEffort libs whole.data)
  | _ => .leaf whole.part .unread

def partsOf : Parts := familyParts libs limits whole whole.family

/-- What a piece holds, however deep. -/
inductive LeafOf : Piece → Leaf → Prop
  | own {piece : Piece} {leaf : Leaf} :
      leaf ∈ (partsOf libs limits piece).leaves → LeafOf piece leaf
  | nested {piece inside : Piece} {leaf : Leaf} :
      inside ∈ (partsOf libs limits piece).pieces → LeafOf inside leaf → LeafOf piece leaf

/-- The room that a file takes, to a depth of nesting. -/
def Piece.cost : ℕ → Piece → ℕ × ℕ
  | 0, _ => 0
  | depth + 1, piece => (partsOf libs limits piece).cost (Piece.cost depth)

def Names (name part : List Char) : Prop := name = part ∨ name ++ ['!'] <+: part

/-- An item shows what a leaf holds, or says that it could not be inspected. -/
def Item.Tells (leaf : Leaf) : Item → Prop
  | .unscannable report => Names report.part leaf.part
  | .image shown => (leaf.content = .picture ∨ leaf.content = .scan) ∧ shown.part = leaf.part
  | .segment shown =>
    match leaf.content with
    | .text text => Names shown.part leaf.part ∧ text <:+: shown.text
    | .scan => shown.part = leaf.part ∧ shown.source = "ocr"
    | _ => False

/-- An item tells of the leaf. -/
def Told (items : List Item) (leaf : Leaf) : Prop := ∃ item ∈ items, item.Tells leaf

theorem Names.refl (part : List Char) : Names part part := Or.inl rfl

theorem names_subPart (part name : List Char) : Names part (subPart part name) := by
  right
  exact ⟨name, by simp [subPart]⟩

theorem Names.trans {first second third : List Char} (names : Names first second)
    (others : Names second third) : Names first third := by
  rcases names with rfl | isPrefix
  · exact others
  · right
    rcases others with rfl | other
    · exact isPrefix
    · exact isPrefix.trans ((List.prefix_append _ _).trans other)

variable {libs limits whole members}

structure Parts.Within (part : List Char) (parts : Parts) : Prop where
  leaves : ∀ leaf ∈ parts.leaves, Names part leaf.part
  pieces : ∀ inside ∈ parts.pieces, Names part inside.part

namespace Parts.Within

variable {part : List Char} {first second : Parts}

theorem none : Parts.Within part .none := by
  constructor <;> simp [Parts.none]

theorem leaf {inside : List Char} (names : Names part inside) (content : Content) :
    Parts.Within part (.leaf inside content) := by
  constructor <;> simp [Parts.leaf, names]

theorem piece {inside : Piece} (names : Names part inside.part) :
    Parts.Within part (.piece inside) := by
  constructor <;> simp [Parts.piece, names]

theorem both (left : first.Within part) (right : second.Within part) :
    (first.both second).Within part := by
  constructor
  · intro leaf leafMem
    rcases List.mem_append.mp leafMem with leafMem | leafMem
    · exact left.leaves leaf leafMem
    · exact right.leaves leaf leafMem
  · intro inside insideMem
    rcases List.mem_append.mp insideMem with insideMem | insideMem
    · exact left.pieces inside insideMem
    · exact right.pieces inside insideMem

theorem all {Element : Type} {parts : Element → Parts} {elements : List Element}
    (each : ∀ element ∈ elements, (parts element).Within part) :
    (Parts.all parts elements).Within part := by
  constructor
  · intro leaf leafMem
    rcases List.mem_flatMap.mp leafMem with ⟨element, elementMem, leafMem⟩
    exact (each element elementMem).leaves leaf leafMem
  · intro inside insideMem
    rcases List.mem_flatMap.mp insideMem with ⟨element, elementMem, insideMem⟩
    exact (each element elementMem).pieces inside insideMem

theorem sub (name : List Char) (content : Content) :
    Parts.Within part (.leaf (subPart part name) content) :=
  leaf (names_subPart part name) content

end Parts.Within

open Parts

theorem within_zipParts : (zipParts libs whole).Within whole.part := by
  rw [zipParts]
  split
  · exact .leaf (.refl _) _
  · apply Within.all
    intro member _
    rw [zipMemberParts]
    split
    · exact .leaf (.refl _) _
    · split_ifs
      · exact .none
      · exact .sub _ _
      · exact .sub _ _
      · split
        · exact .sub _ _
        · exact .sub _ _
        · exact .piece (names_subPart _ _)

theorem within_tarParts : (tarParts libs whole).Within whole.part := by
  rw [tarParts]
  split
  · exact .leaf (.refl _) _
  · apply Within.both
    · apply Within.all
      intro entry _
      rw [tarEntryParts]
      split_ifs
      · exact .none
      · exact .sub _ _
      · split
        · exact .sub _ _
        · exact .piece (names_subPart _ _)
    · split
      · exact .leaf (.refl _) _
      · exact .none

theorem within_mailParts : (mailParts libs whole).Within whole.part := by
  rw [mailParts]
  split
  · exact .leaf (.refl _) _
  · apply Within.both (.sub _ _)
    apply Within.all
    rintro ⟨part, seq⟩ _
    dsimp only
    rw [mailPartParts]
    split
    · exact .none
    · exact .sub _ _
    · exact .piece (names_subPart _ _)

theorem within_pdfParts : (pdfParts libs limits whole).Within whole.part := by
  rw [pdfParts]
  split
  · exact .leaf (.refl _) _
  · split
    · exact .leaf (.refl _) _
    · apply Within.all
      intro page _
      apply Within.both
      · split_ifs
        · exact .none
        · exact .sub _ _
      · rw [scanParts]
        split
        · exact .sub _ _
        · exact .none

theorem within_lostParts {part : List Char} (name : List Char) (reading : XmlReading) :
    (lostParts (subPart part name) reading).Within part := by
  rw [lostParts]
  split_ifs
  · exact .none
  · exact .sub _ _

theorem within_xmlPartParts {part : List Char} (label name : List Char)
    (texts : List XmlEvent → List (List Char)) :
    (xmlPartParts libs members (subPart part label) name texts).Within part := by
  rw [xmlPartParts]
  split
  · exact .sub _ _
  · exact .both (within_lostParts _ _) (.sub _ _)

theorem within_officeParts (kind : OfficeKind) :
    (officeParts libs limits whole members kind).Within whole.part := by
  apply Within.both
  · cases kind with
    | docx | pptx => exact .all fun _ _ => within_xmlPartParts _ _ _
    | xlsx =>
      apply Within.both
      · rw [sharedParts]
        split
        · exact .none
        · exact .sub _ _
        · refine .both (within_lostParts _ _) (.all fun text _ => ?_)
          split
          · exact .none
          · exact .sub _ _
      · exact .all fun _ _ => within_xmlPartParts _ _ _
  · apply Within.both (.all fun _ _ => .sub _ _)
    apply Within.all
    intro member _
    split_ifs
    · exact .none
    · exact .sub _ _

theorem within_streamParts (decode : CfbStream → Bytes → List Char) (stream : CfbStream) :
    (streamParts whole decode stream).Within whole.part := by
  rw [streamParts]
  split <;> exact .sub _ _

theorem within_oleParts : (oleParts libs whole).Within whole.part := by
  rw [oleParts]
  split
  · exact .leaf (.refl _) _
  · split_ifs
    · exact .leaf (.refl _) _
    · apply Within.both (.all fun _ _ => within_streamParts _ _)
      apply Within.all
      intro stream _
      split_ifs
      · exact .none
      · exact .sub _ _
    · exact .all fun _ _ => within_streamParts _ _

theorem within_partsOf : (partsOf libs limits whole).Within whole.part := by
  rw [partsOf]
  unfold familyParts
  split
  · rw [officeOrZipParts]
    split
    · exact within_zipParts
    · split
      · exact within_officeParts _
      · exact within_zipParts
  · rw [gzipParts]
    rcases libs.gunzip whole.data with ⟨chunks, failure⟩
    dsimp only
    split
    · exact .leaf (.refl _) _
    · exact .piece (names_subPart _ _)
  · exact within_tarParts
  · exact .leaf (.refl _) _
  · rw [sevenZipParts]
    split
    · exact .leaf (.refl _) _
    · split
      · exact .leaf (.refl _) _
      · exact .all fun _ _ => .piece (names_subPart _ _)
  · exact within_pdfParts
  · exact within_oleParts
  iterate 6 · exact .leaf (.refl _) _
  · exact .leaf (.refl _) _
  iterate 2 · exact within_mailParts
  iterate 6 · exact .leaf (.refl _) _
  · exact .leaf (.refl _) _

theorem LeafOf.names {piece : Piece} {leaf : Leaf} (leafOf : LeafOf libs limits piece leaf) :
    Names piece.part leaf.part := by
  induction leafOf with
  | own leafMem => exact within_partsOf.leaves _ leafMem
  | nested insideMem _ ih => exact (within_partsOf.pieces _ insideMem).trans ih

end Aavishield.Dlp
