import Aavishield.Dlp.Accounts
import Aavishield.Dlp.Uploads

/-!
# Nothing is skipped without a word

Every extractor accounts for the parts of its piece, and for the nesting this follows by
induction on the depth that is left.
-/

namespace Aavishield.Dlp

open Effects Text Walk

variable {libs : Libraries} {limits : Limits} {inner : Piece → Walk Unit}

def Parts.Holds (libs : Libraries) (limits : Limits) (parts : Parts) (leaf : Leaf) : Prop :=
  leaf ∈ parts.leaves ∨ ∃ inside ∈ parts.pieces, LeafOf libs limits inside leaf

section Holds

variable {leaf : Leaf}

@[simp]
theorem not_holds_none : ¬Parts.none.Holds libs limits leaf := by
  simp [Parts.Holds, Parts.none]

@[simp]
theorem holds_leaf {part : List Char} {content : Content} :
    (Parts.leaf part content).Holds libs limits leaf ↔ leaf = ⟨part, content⟩ := by
  simp [Parts.Holds, Parts.leaf]

@[simp]
theorem holds_piece {inside : Piece} :
    (Parts.piece inside).Holds libs limits leaf ↔ LeafOf libs limits inside leaf := by
  simp [Parts.Holds, Parts.piece]

@[simp]
theorem holds_both {first second : Parts} :
    (first.both second).Holds libs limits leaf ↔
      first.Holds libs limits leaf ∨ second.Holds libs limits leaf := by
  simp only [Parts.Holds, Parts.both, List.mem_append]
  grind

@[simp]
theorem holds_all {Element : Type} {parts : Element → Parts} {elements : List Element} :
    (Parts.all parts elements).Holds libs limits leaf ↔
      ∃ element ∈ elements, (parts element).Holds libs limits leaf := by
  simp only [Parts.Holds, Parts.all, List.mem_flatMap]
  grind

theorem leafOf_iff {piece : Piece} : LeafOf libs limits piece leaf ↔
    (partsOf libs limits piece).Holds libs limits leaf := by
  constructor
  · intro leafOf
    cases leafOf with
    | own leafMem => exact Or.inl leafMem
    | nested insideMem leafOf => exact Or.inr ⟨_, insideMem, leafOf⟩
  · rintro (leafMem | ⟨inside, insideMem, leafOf⟩)
    · exact .own leafMem
    · exact .nested insideMem leafOf

end Holds

/-- All that the parts hold is overlooked. -/
def Parts.Overlooked (libs : Libraries) (limits : Limits) (parts : Parts) : Prop :=
  ∀ leaf, parts.Holds libs limits leaf → leaf.content = .overlooked

namespace Parts.Overlooked

variable {first second : Parts} {Element : Type}

theorem none : Parts.none.Overlooked libs limits := by
  simp [Parts.Overlooked]

theorem leaf (part : List Char) : (Parts.leaf part .overlooked).Overlooked libs limits := by
  simp [Parts.Overlooked]

theorem both (left : first.Overlooked libs limits)
    (right : second.Overlooked libs limits) :
    (first.both second).Overlooked libs limits := by
  intro leaf holds
  exact (holds_both.mp holds).elim (left leaf) (right leaf)

theorem all {parts : Element → Parts} {elements : List Element}
    (each : ∀ element ∈ elements, (parts element).Overlooked libs limits) :
    (Parts.all parts elements).Overlooked libs limits := by
  intro leaf holds
  rcases holds_all.mp holds with ⟨element, elementMem, holds⟩
  exact each element elementMem leaf holds

end Parts.Overlooked

section Cost

variable {count : Piece → ℕ × ℕ}

@[simp]
theorem cost_none : Parts.none.cost count = 0 := rfl

@[simp]
theorem cost_leaf {part : List Char} {content : Content} :
    (Parts.leaf part content).cost count = content.cost := by
  simp [Parts.cost, Parts.leaf]

@[simp]
theorem cost_piece {inside : Piece} : (Parts.piece inside).cost count = count inside := by
  simp [Parts.cost, Parts.piece]

@[simp]
theorem cost_both {first second : Parts} :
    (first.both second).cost count = first.cost count + second.cost count := by
  simp only [Parts.cost, Parts.both, List.map_append, List.sum_append]
  exact add_add_add_comm _ _ _ _

@[simp]
theorem cost_all {Element : Type} {parts : Element → Parts} {elements : List Element} :
    (Parts.all parts elements).cost count =
      (elements.map fun element => (parts element).cost count).sum := by
  induction elements with
  | nil => rfl
  | cons element rest ih =>
    rw [List.map_cons, List.sum_cons, ← ih, ← cost_both]
    rfl

end Cost

/-- The walk accounts for what the parts hold, at the cost of their count. -/
abbrev Covers (libs : Libraries) (limits : Limits) (count : Piece → ℕ × ℕ) (parts : Parts)
    (walk : Walk Unit) : Prop :=
  Silent limits (parts.Holds libs limits) (parts.cost count) walk

variable {count : Piece → ℕ × ℕ}

theorem silent_unscannable (leaf : Leaf) (reason detail : String) (cost : ℕ × ℕ) :
    Silent limits (· = leaf) cost (unscannable leaf.part reason detail) := by
  refine Accounts.congr ?_ (fun _ _ => id) zero_le fun _ => id
  apply Accounts.unscannable
  rintro leaf rfl
  exact .refl _

theorem silent_done (cost : ℕ × ℕ) : Silent limits (fun _ => False) cost (pure ()) :=
  Accounts.done.congr (fun _ _ => id) zero_le fun _ => id

namespace Covers

variable {walk : Walk Unit} {part : List Char} {parts first second : Parts} {Element : Type}

theorem nothing (overlooked : parts.Overlooked libs limits)
    (quiet : Silent limits (fun _ => False) 0 walk) : Covers libs limits count parts walk :=
  quiet.congr (fun leaf looked holds => looked (overlooked leaf holds)) zero_le fun _ => id

theorem none (quiet : Silent limits (fun _ => False) 0 walk) :
    Covers libs limits count .none walk :=
  nothing .none quiet

theorem leaf {content : Content} (silent : Silent limits (· = ⟨part, content⟩) content.cost walk) :
    Covers libs limits count (.leaf part content) walk :=
  silent.congr (fun _ _ => holds_leaf.mp) cost_leaf.ge fun _ => id

theorem report (content : Content) (reason detail : String) :
    Covers libs limits count (.leaf part content) (unscannable part reason detail) :=
  leaf (silent_unscannable ⟨part, content⟩ reason detail content.cost)

theorem text {name shown text : List Char} (filename mime : List Char) (source : String)
    (names : Names name part) (contained : text <:+: shown) :
    Covers libs limits count (.leaf part (.text text))
      (segment name filename mime source shown) := by
  apply leaf
  apply Accounts.emit
  rintro leaf rfl
  exact ⟨names, contained⟩

theorem piece {inside : Piece}
    (nested : ∀ piece, Silent limits (LeafOf libs limits piece) (count piece) (inner piece)) :
    Covers libs limits count (.piece inside) (inner inside) :=
  (nested inside).congr (fun _ _ => holds_piece.mp) cost_piece.ge fun _ => id

theorem both {walk : Walk Unit} {next : Unit → Walk Unit}
    (left : Covers libs limits count first walk)
    (right : Covers libs limits count second (next ())) :
    Covers libs limits count (first.both second) (walk >>= next) :=
  (left.bind fun _ _ => right).congr (fun _ _ => holds_both.mp) cost_both.ge fun _ => id

theorem all {parts : Element → Parts} {visit : Element → Walk Unit} {elements : List Element}
    (each : ∀ element ∈ elements, Covers libs limits count (parts element) (visit element)) :
    Covers libs limits count (.all parts elements) (forEach visit elements) :=
  (Accounts.forEach each).congr (fun _ _ => holds_all.mp) cost_all.ge fun _ => id

theorem butFirst (overlooked : first.Overlooked libs limits)
    (covers : Covers libs limits count second walk) :
    Covers libs limits count (first.both second) walk := by
  refine covers.congr (fun leaf looked holds => ?_) ?_ fun _ => id
  · exact (holds_both.mp holds).resolve_left fun isFirst => looked (overlooked leaf isFirst)
  · rw [cost_both]
    exact le_add_self

theorem butSecond (overlooked : second.Overlooked libs limits)
    (covers : Covers libs limits count first walk) :
    Covers libs limits count (first.both second) walk := by
  refine covers.congr (fun leaf looked holds => ?_) ?_ fun _ => id
  · exact (holds_both.mp holds).resolve_right fun isSecond => looked (overlooked leaf isSecond)
  · rw [cost_both]
    exact le_self_add

end Covers

variable {whole : Piece}

/-- What the recognition of a picture takes of the room. -/
def OcrBudget.cost : OcrBudget → ℕ × ℕ
  | .image => 0
  | .page => (0, 1)

theorem accounts_countOcr (budget : OcrBudget) :
    Silent limits (fun _ => False) budget.cost (countOcr budget) := by
  apply Accounts.quiet
  · intro ctx
    cases budget <;> exact ⟨⟨rfl, List.prefix_rfl, id⟩, le_rfl⟩
  · intros
    trivial

theorem accounts_prepare (picture : Picture) (part : List Char) (budget : OcrBudget) :
    Accounts limits (fun _ => False) budget.cost (fun image => image.part = part)
      (prepare picture part budget) := by
  refine Accounts.get.after fun ctx _ => ?_
  split
  · refine Accounts.congr ((accounts_countOcr budget).bind fun _ _ => .pure _)
      (fun _ _ => Or.inl) (add_zero _).le fun image same => ?_
    rw [same]
  · exact (Accounts.pure _).congr (fun _ _ => id) zero_le fun image same => by rw [same]

/-- There is an image where the bytes are a picture that is big enough. -/
def IsImageOf (libs : Libraries) (limits : Limits) (data : Bytes) (part : List Char)
    (found : Option ImageItem) : Prop :=
  found.map ImageItem.part =
    ((libs.loadImage data).filter limits.isBigEnough).map fun _ => part

theorem accounts_toImageItem (data : Bytes) (part : List Char) :
    Accounts limits (fun _ => False) 0 (IsImageOf libs limits data part)
      (toImageItem libs data part) := by
  refine Accounts.get.after fun ctx limited => ?_
  unfold IsImageOf
  rw [limited]
  split
  · rename_i unreadable
    exact (Accounts.pure _).congr (fun _ _ => id) le_rfl fun found same => by simp [same, unreadable]
  · rename_i picture readable
    split
    · rename_i big
      refine (accounts_prepare _ _ .image).after fun image named => ?_
      exact (Accounts.pure _).congr (fun _ _ => id) le_rfl fun found same => by
        simp [same, named, readable, Option.filter, big]
    · rename_i small
      exact (Accounts.pure _).congr (fun _ _ => id) le_rfl fun found same => by
        simp [same, readable, Option.filter, small]

theorem accounts_emitImage {image : ImageItem} {part : List Char} {content : Content}
    (filename mime : List Char) (named : image.part = part)
    (isPicture : content = .picture ∨ content = .scan) :
    Silent limits (· = ⟨part, content⟩) (1, 0) (emitImage image filename mime) := by
  have shown : Silent limits (· = ⟨part, content⟩) 0 (emit (.image image)) := by
    apply Accounts.emit
    rintro leaf rfl
    exact ⟨isPicture, named⟩
  refine Accounts.congr (Accounts.countImage.bind fun _ _ => shown.quietly fun _ _ => ?_)
    (fun _ _ => Or.inr) (add_zero _).le fun _ => id
  split
  · exact .done
  · exact .emit fun _ isLeaf => absurd isLeaf id

theorem remaining_of_room {ctx : Ctx} {pages : ℕ} (limited : ctx.limits = limits)
    (room : ctx.spent + (1, pages) ≤ limits.room) : ctx.imagesBudgetRemaining = true := by
  have images : ctx.imagesEmitted + 1 ≤ limits.maxImagesReturned := room.1
  rw [Ctx.imagesBudgetRemaining, limited]
  exact decide_eq_true images

theorem ocrRemaining_of_room {ctx : Ctx} (limited : ctx.limits = limits)
    (room : ctx.spent + (1, 1) ≤ limits.room) : ctx.ocrRemaining .page = true := by
  have pages : ctx.ocrPages + 1 ≤ limits.ocrMaxPages := room.2
  rw [Ctx.ocrRemaining, limited]
  exact decide_eq_true pages

/-- `extractImage` as long as an image may be given. -/
def readPicture (libs : Libraries) (whole : Piece) (family : String) : Walk Unit := do
  match ← toImageItem libs whole.data whole.part with
  | none => unscannable whole.part "corrupt" s!"unreadable {family} image"
  | some image => emitImage image whole.filename s!"image/{family}".toList

theorem silent_readPicture (family : String) :
    Silent limits (· = ⟨whole.part, .picture⟩) (1, 0) (readPicture libs whole family) := by
  refine (accounts_toImageItem _ _).after fun found isImage => ?_
  rcases found with _ | image
  · exact silent_unscannable ⟨whole.part, .picture⟩ _ _ _
  · refine accounts_emitImage _ _ ?_ (.inl rfl)
    rcases big : (libs.loadImage whole.data).filter limits.isBigEnough with _ | picture
    · simp [IsImageOf, big] at isImage
    · simpa [IsImageOf, big] using isImage

theorem accounts_extractImage (family : String) :
    Covers libs limits count (.leaf whole.part .picture)
      (extractImage libs whole family) := by
  have inside := @silent_readPicture libs limits whole family
  refine Covers.leaf (Accounts.after (.checkBudget _) fun _ _ => ?_)
  apply Accounts.roomy
  · intro ctx _
    split
    · exact inside.quietened
    · exact silent_done _
  · intro ctx limited room
    rw [if_pos (remaining_of_room limited room)]
    exact inside

theorem accounts_showScan {picture : Picture} (pagePart : List Char) :
    Silent limits (· = ⟨pagePart, .scan⟩) (1, 1) (do
      let image ← prepare picture pagePart .page
      if (← get).imagesBudgetRemaining then
        emitImage image whole.filename "application/pdf".toList
      else if image.ocrText = [] then pure ()
      else segment pagePart whole.filename "application/pdf".toList "ocr" image.ocrText) := by
  have next : ∀ image : ImageItem, image.part = pagePart →
      Silent limits (· = ⟨pagePart, .scan⟩) (1, 0) (do
        if (← get).imagesBudgetRemaining then
          emitImage image whole.filename "application/pdf".toList
        else if image.ocrText = [] then pure ()
        else segment pagePart whole.filename "application/pdf".toList "ocr" image.ocrText) := by
    intro image named
    have emitted : Silent limits (· = ⟨pagePart, .scan⟩) (1, 0)
        (emitImage image whole.filename "application/pdf".toList) :=
      accounts_emitImage _ _ named (.inr rfl)
    apply Accounts.roomy
    · intro ctx _
      split
      · exact emitted.quietened
      · refine Accounts.congr ?_ (fun _ _ => id) zero_le fun _ => id
        split
        · exact .done
        · exact .emit fun _ isLeaf => absurd isLeaf id
    · intro ctx limited room
      rw [if_pos (remaining_of_room limited room)]
      exact emitted
  exact Accounts.congr ((accounts_prepare _ _ .page).bind next) (fun _ _ => Or.inr) (by decide)
    fun _ => id

/-- `scanPage` once a page is to be read as an image. -/
def readScan (whole : Piece) (page : PdfPage) (pagePart : List Char) : Walk Unit :=
  match page.rendered with
  | .error message => unscannable pagePart "corrupt" s!"page render failed: {message}"
  | .ok picture => do
    let image ← prepare picture pagePart .page
    if (← get).imagesBudgetRemaining then
      emitImage image whole.filename "application/pdf".toList
    else if image.ocrText = [] then pure ()
    else segment pagePart whole.filename "application/pdf".toList "ocr" image.ocrText

theorem silent_readScan (page : PdfPage) (pagePart : List Char) :
    Silent limits (· = ⟨pagePart, .scan⟩) (1, 1) (readScan whole page pagePart) := by
  rw [readScan]
  split
  · exact silent_unscannable ⟨pagePart, .scan⟩ _ _ _
  · exact accounts_showScan _

theorem covers_scanPage (page : PdfPage) (pagePart : List Char) :
    Covers libs limits count (scanParts limits page pagePart)
      (scanPage whole page pagePart) := by
  rw [scanParts]
  by_cases hasText : limits.ocrTextThreshold ≤ (trimSpace page.text).length
  · rw [if_neg fun scanned : page.isScanned limits => scanned hasText]
    refine Accounts.get.after fun ctx limited => ?_
    rw [limited, if_pos hasText]
    exact Covers.none .done
  · rw [if_pos (show page.isScanned limits from hasText)]
    rcases enabled : limits.ocrEnabled with _ | _
    · rw [if_neg (by decide)]
      refine Accounts.get.after fun ctx limited => ?_
      rw [limited, if_neg hasText, enabled]
      exact Covers.nothing (.leaf _) .done
    · rw [if_pos rfl]
      apply Covers.leaf
      have scanned := @silent_readScan limits whole page pagePart
      apply Accounts.roomy
      · intro ctx limited
        rw [limited, if_neg hasText]
        split
        · exact silent_done _
        · exact scanned.quietened
      · intro ctx limited room
        rw [ocrRemaining_of_room limited room, limited, if_neg hasText, enabled]
        exact scanned

theorem accounts_segmentUnlessBlank {part shown : List Char} (filename mime : List Char)
    (source : String) :
    Covers libs limits count (if trimSpace shown = [] then .none else .leaf part (.text shown))
      (segmentUnlessBlank part filename mime source shown) := by
  rw [segmentUnlessBlank]
  split
  · exact Covers.none .done
  · exact Covers.text _ _ _ (.refl _) List.infix_rfl

theorem covers_extractPdf :
    Covers libs limits count (pdfParts libs limits whole) (extractPdf libs whole) := by
  refine Accounts.after (.checkBudget _) fun _ _ => ?_
  rcases engine : libs.pdfium with _ | load
  · simp only [pdfParts, engine]
    exact Covers.report _ _ _
  · simp only [pdfParts, engine]
    rcases load whole.data with message | pages
    · dsimp only
      split
      · exact Covers.report _ _ _
      · apply Accounts.quietly (Covers.report _ _ _)
        intro _ _
        rw [segmentUnlessBlank]
        split
        · exact .done
        · exact .emit fun _ isLeaf => absurd isLeaf id
    · apply Covers.all
      rintro ⟨page, index⟩ _
      apply Accounts.unlessStopped
      refine Accounts.after (.checkBudget _) fun _ _ => ?_
      exact Covers.both (accounts_segmentUnlessBlank _ _ _) (.unlessStopped (covers_scanPage _ _))

section Nested

variable (nested : ∀ piece, Silent limits (LeafOf libs limits piece) (count piece) (inner piece))
include nested

theorem covers_visitZipMember (member : ZipMember) :
    Covers libs limits count (zipMemberParts whole member) (visitZipMember inner whole member) := by
  rw [zipMemberParts, visitZipMember]
  rcases member.rawError with _ | message
  · dsimp only
    split
    · split
      · exact Covers.none .done
      · exact Covers.nothing (.leaf _) .done
    · refine Accounts.after (.checkBudget _) fun _ _ => ?_
      split
      · exact Covers.report _ _ _
      · rcases member.openError with _ | message
        · rcases member.contents with message | payload
          · exact Covers.report _ _ _
          · exact Covers.piece nested
        · exact Covers.report _ _ _
  · exact Covers.report _ _ _

theorem covers_extractZip :
    Covers libs limits count (zipParts libs whole) (extractZip libs inner whole) := by
  rw [zipParts, extractZip]
  rcases libs.zip whole.data with _ | members
  · exact Covers.report _ _ _
  · apply Covers.all
    intro member _
    exact .unlessStopped (covers_visitZipMember nested member)

theorem covers_extractGzip :
    Covers libs limits count (gzipParts libs whole) (extractGzip libs inner whole) := by
  rw [gzipParts, extractGzip]
  rcases libs.gunzip whole.data with ⟨chunks, failure⟩
  have budgets : Silent limits (fun _ => False) 0
      (forEach (fun chunk => checkBudget chunk.length) chunks) :=
    Accounts.forEachQuietly fun chunk _ => .checkBudget chunk.length
  refine budgets.after fun _ _ => ?_
  rcases failure with _ | message
  · exact Covers.piece nested
  · exact Covers.report _ _ _

theorem covers_visitTarEntry (entry : TarEntry) :
    Covers libs limits count (tarEntryParts whole entry) (visitTarEntry inner whole entry) := by
  rw [tarEntryParts, visitTarEntry]
  split
  · split
    · exact Covers.none .done
    · exact Covers.nothing (.leaf _) .done
  · refine Accounts.after (.checkBudget _) fun _ _ => ?_
    rcases entry.contents with message | payload
    · exact Covers.report _ _ _
    · exact Covers.piece nested

theorem covers_extractTar :
    Covers libs limits count (tarParts libs whole) (extractTar libs inner whole) := by
  rw [tarParts, extractTar]
  rcases libs.tar whole.data with message | ⟨entries, failure⟩
  · exact Covers.report _ _ _
  · apply Covers.both
    · apply Covers.all
      intro entry _
      exact .unlessStopped (covers_visitTarEntry nested entry)
    · rcases failure with _ | message
      · exact Covers.none .done
      · exact .unlessStopped (Covers.report _ _ _)

theorem covers_extractSevenZip :
    Covers libs limits count (sevenZipParts libs whole)
      (extractSevenZip libs inner whole) := by
  rw [sevenZipParts, extractSevenZip]
  rcases libs.sevenZip whole.data with message | archive
  · exact Covers.report _ _ _
  · have budgets : Silent limits (fun _ => False) 0
        (forEach (fun entry => if entry.isDirectory then pure () else checkBudget entry.size)
          archive.files) := by
      apply Accounts.forEachQuietly
      intro entry _
      split
      · exact .done
      · exact .checkBudget _
    dsimp only
    refine budgets.after fun _ _ => ?_
    rcases archive.contents with message | files
    · exact Covers.report _ _ _
    · apply Covers.all
      intro file _
      exact .unlessStopped (Covers.piece nested)

theorem covers_visitMailPart (part : MailPart) (seq : ℕ) :
    Covers libs limits count (mailPartParts whole part seq) (visitMailPart inner whole part seq) := by
  rw [mailPartParts, visitMailPart]
  cases part.body with
  | multipart => exact Covers.none .done
  | _ =>
    cases part.inlineText with
    | some text =>
      refine Accounts.after (.checkBudget _) fun _ _ => ?_
      exact Covers.text _ _ _ (.refl _) List.infix_rfl
    | none =>
      refine Accounts.after (.checkBudget _) fun _ _ => ?_
      exact Covers.piece nested

theorem covers_extractMail :
    Covers libs limits count (mailParts libs whole) (extractMail libs inner whole) := by
  refine Accounts.after (.checkBudget _) fun _ _ => ?_
  rw [mailParts]
  rcases libs.parseMail whole.data with _ | parts
  · exact Covers.report _ _ _
  · apply Covers.both (Covers.text _ _ _ (.refl _) List.infix_rfl)
    apply Covers.all
    rintro ⟨part, seq⟩ _
    exact .unlessStopped (covers_visitMailPart nested part seq)

end Nested

variable {members : List ZipMember}

theorem accounts_readEntry (name : List Char) :
    Accounts limits (fun _ => False) 0 (· = readMember members name) (readEntry members name) := by
  rw [readEntry, readMember]
  rcases memberNamed members name with _ | member
  · exact .pure _
  · dsimp only [Option.bind_eq_bind, Option.bind_some]
    split
    · exact .pure _
    · exact Accounts.after (.checkBudget _) fun _ _ => .pure _

theorem overlooked_lostParts (part : List Char) (reading : XmlReading) :
    (lostParts part reading).Overlooked libs limits := by
  rw [lostParts]
  split
  · exact .none
  · exact .leaf _

variable (libs members)

def textsIn (texts : List XmlEvent → List (List Char)) (name : List Char) : List (List Char) :=
  (readMember members name).elim [] fun xml => texts (libs.readXml xml).events

variable {libs members}

/-- What of a part of a document is not overlooked is its text. -/
theorem eq_text_of_holds {part name : List Char} {texts : List XmlEvent → List (List Char)}
    {leaf : Leaf} (looked : leaf.content ≠ .overlooked)
    (holds : (xmlPartParts libs members part name texts).Holds libs limits leaf) :
    leaf = ⟨part, .text (joinLines (textsIn libs members texts name))⟩ := by
  unfold xmlPartParts at holds
  unfold textsIn
  rcases read : readMember members name with _ | xml
  · rw [read] at holds
    rw [holds_leaf.mp holds] at looked
    exact absurd rfl looked
  · rw [read] at holds
    rcases holds_both.mp holds with lost | isText
    · exact absurd (overlooked_lostParts _ _ leaf lost) looked
    · exact holds_leaf.mp isText

theorem accounts_docxTexts (name : List Char) :
    Accounts limits (fun _ => False) 0 (· = textsIn libs members (textsOf "t".toList 0) name)
      (docxTexts libs members name) := by
  refine (accounts_readEntry name).after fun found isFound => ?_
  rw [isFound, textsIn]
  rcases readMember members name with _ | xml
  · exact .pure _
  · exact .pure _

theorem covers_extractDocx :
    Covers libs limits count (docxParts libs whole members)
      (extractDocx libs whole members) := by
  have collected : Accounts limits _ 0 _
      (collect (docxTexts libs members) (sortedNames members isDocxText)) :=
    Accounts.collect fun name _ => accounts_docxTexts name
  have shown : Silent limits
      (fun leaf => ∃ name ∈ sortedNames members isDocxText, leaf = ⟨subPart whole.part name,
        .text (joinLines (textsIn libs members (textsOf "t".toList 0) name))⟩) 0
      (segment whole.part whole.filename OfficeKind.docx.mime "docx"
        (joinLines ((sortedNames members isDocxText).flatMap
          (textsIn libs members (textsOf "t".toList 0))))) := by
    apply Accounts.emit
    rintro leaf ⟨name, nameMem, rfl⟩
    exact ⟨names_subPart _ _, joinLines_infix_flatMap _ nameMem⟩
  refine (collected.bringing shown).congr (fun leaf looked holds => ?_) zero_le fun _ => id
  rcases holds_all.mp holds with ⟨name, nameMem, holds⟩
  exact Or.inr ⟨name, nameMem, eq_text_of_holds looked holds⟩

theorem covers_visitOfficePart (kind : OfficeKind) (source : String)
    (texts : List XmlEvent → List (List Char)) (name : List Char) :
    Covers libs limits count
      (xmlPartParts libs members (subPart whole.part (partLabel name)) name texts)
      (visitOfficePart libs whole members kind source texts name) := by
  refine (accounts_readEntry name).after fun found isFound => ?_
  rw [isFound, xmlPartParts]
  rcases readMember members name with _ | xml
  · exact Covers.nothing (.leaf _) .done
  · exact Covers.butFirst (overlooked_lostParts _ _) (Covers.text _ _ _ (.refl _) List.infix_rfl)

theorem covers_namedParts (kind : OfficeKind) (source : String)
    (texts : List XmlEvent → List (List Char)) (keep : List Char → Bool) :
    Covers libs limits count (namedParts libs whole members texts keep)
      (forEach
        (fun name => unlessStopped
          (visitOfficePart libs whole members kind source texts name))
        (sortedNames members keep)) := by
  apply Covers.all
  intro name _
  exact .unlessStopped (covers_visitOfficePart _ _ _ _)

theorem accounts_readShared :
    Accounts limits (fun _ => False) 0 (· = sharedTexts libs members)
      (readShared libs members) := by
  refine (accounts_readEntry sharedPart).after fun found isFound => ?_
  rw [isFound, sharedTexts]
  rcases readMember members sharedPart with _ | xml
  · exact .pure _
  · exact .pure _

theorem overlooked_sharedParts :
    (sharedParts libs whole members).Overlooked libs limits := by
  rw [sharedParts]
  split
  · exact .none
  · exact .leaf _
  · refine .both (overlooked_lostParts _ _) (.all fun text _ => ?_)
    split
    · exact .none
    · exact .leaf _

theorem covers_extractOfficeText (kind : OfficeKind) :
    Covers libs limits count (officeTextParts libs whole members kind)
      (extractOfficeText libs whole members kind) := by
  cases kind with
  | docx => exact covers_extractDocx
  | xlsx =>
    apply Covers.butFirst overlooked_sharedParts
    refine accounts_readShared.after fun shared isShared => ?_
    rw [isShared]
    exact covers_namedParts _ _ _ _
  | pptx => exact covers_namedParts _ _ _ _

variable (libs limits members) in
theorem mediaContent_cases (name : List Char) :
    mediaContent libs limits members name = .overlooked ∨
      mediaContent libs limits members name = .picture := by
  unfold mediaContent
  split
  · exact .inl rfl
  · exact .inr rfl

/-- `visitMedia` as long as an image may be given. -/
def readMedia (libs : Libraries) (whole : Piece) (members : List ZipMember) (name : List Char) :
    Walk Unit := do
  match ← readEntry members name with
  | none => pure ()
  | some data =>
    match ← toImageItem libs data (subPart whole.part name) with
    | none => pure ()
    | some image => emitImage image name "image".toList

theorem covers_readMedia (name : List Char) :
    Covers libs limits count
      (.leaf (subPart whole.part name) (mediaContent libs limits members name))
      (readMedia libs whole members name) := by
  refine (accounts_readEntry name).after fun data isData => ?_
  rw [isData, mediaContent]
  rcases readMember members name with _ | data
  · exact Covers.nothing (.leaf _) .done
  · refine (accounts_toImageItem data _).after fun found isImage => ?_
    rw [Option.bind_some]
    rcases big : (libs.loadImage data).filter limits.isBigEnough with _ | picture
    · rcases found with _ | image
      · exact Covers.nothing (.leaf _) .done
      · simp [IsImageOf, big] at isImage
    · rcases found with _ | image
      · simp [IsImageOf, big] at isImage
      · exact Covers.leaf (accounts_emitImage _ _ (by simpa [IsImageOf, big] using isImage)
          (.inl rfl))

theorem covers_visitMedia (name : List Char) :
    Covers libs limits count
      (.leaf (subPart whole.part name) (mediaContent libs limits members name))
      (visitMedia libs whole members name) := by
  have inside := @covers_readMedia libs limits count whole members name
  have nothing : Silent limits (fun _ => False)
      (Parts.cost count (.leaf (subPart whole.part name) (mediaContent libs limits members name)))
      (pure ()) :=
    silent_done _
  apply Accounts.roomy
  · intro ctx _
    split
    · exact inside.quietened
    · exact nothing
  · intro ctx limited room
    split
    · exact inside
    · rename_i full
      refine nothing.congr (fun leaf looked holds => ?_) le_rfl fun _ => id
      rw [holds_leaf.mp holds] at looked
      rw [cost_leaf] at room
      rcases mediaContent_cases libs limits members name with isContent | isContent
      · exact looked isContent
      · rw [isContent] at room
        exact full (remaining_of_room limited room)

theorem overlooked_unlistedParts (kind : OfficeKind) :
    (unlistedParts whole members kind).Overlooked libs limits := by
  refine .all fun member _ => ?_
  split
  · exact .none
  · exact .leaf _

theorem covers_extractOffice (kind : OfficeKind) :
    Covers libs limits count (officeParts libs limits whole members kind)
      (extractOffice libs whole members kind) := by
  apply Covers.both (covers_extractOfficeText kind)
  apply Covers.butSecond (overlooked_unlistedParts kind)
  apply Covers.all
  intro name _
  exact .unlessStopped (covers_visitMedia name)

theorem accounts_streamTexts (decode : CfbStream → Bytes → List Char) (stream : CfbStream) :
    Accounts limits (fun _ => False) 0 (· = (stream.data.map (decode stream)).toList)
      (streamTexts decode stream) := by
  rw [streamTexts, readStream]
  rcases stream.data with _ | data
  · refine (Accounts.pure none).after fun found isFound => ?_
    rw [isFound]
    exact .pure _
  · have read : Accounts limits (fun _ => False) 0 (· = some data)
        (checkBudget data.length >>= fun _ => pure (some data) : Walk (Option Bytes)) :=
      Accounts.after (.checkBudget _) fun _ _ => .pure _
    refine read.after fun found isFound => ?_
    rw [isFound]
    exact .pure _

variable {decode : CfbStream → Bytes → List Char}

theorem eq_text_of_holds_stream {stream : CfbStream} {leaf : Leaf}
    (looked : leaf.content ≠ .overlooked)
    (holds : (streamParts whole decode stream).Holds libs limits leaf) :
    ∃ text ∈ (stream.data.map (decode stream)).toList,
      leaf = ⟨subPart whole.part stream.name, .text text⟩ := by
  unfold streamParts at holds
  rcases read : stream.data with _ | data
  · rw [read] at holds
    rw [holds_leaf.mp holds] at looked
    exact absurd rfl looked
  · rw [read] at holds
    exact ⟨_, List.mem_singleton.mpr rfl, holds_leaf.mp holds⟩

variable {streams : List CfbStream}

theorem covers_streams {next : List (List Char) → Walk Unit}
    {filename mime shown : List Char} {source : String}
    (shows : ∀ stream ∈ streams, ∀ text ∈ (stream.data.map (decode stream)).toList,
      text <:+: shown)
    (last : next (streams.flatMap fun stream => (stream.data.map (decode stream)).toList) =
      segment whole.part filename mime source shown) :
    Covers libs limits count (.all (streamParts whole decode) streams)
      (collect (streamTexts decode) streams >>= next) := by
  have collected : Accounts limits _ 0 _ (collect (streamTexts decode) streams) :=
    Accounts.collect fun stream _ => accounts_streamTexts decode stream
  have segment : Silent limits
      (fun leaf => ∃ stream ∈ streams, ∃ text ∈ (stream.data.map (decode stream)).toList,
        leaf = ⟨subPart whole.part stream.name, .text text⟩) 0
      (next (streams.flatMap fun stream => (stream.data.map (decode stream)).toList)) := by
    rw [last]
    apply Accounts.emit
    rintro leaf ⟨stream, streamMem, text, textMem, rfl⟩
    exact ⟨names_subPart _ _, shows stream streamMem text textMem⟩
  refine (collected.bringing segment).congr (fun leaf looked holds => ?_) zero_le fun _ => id
  rcases holds_all.mp holds with ⟨stream, streamMem, holds⟩
  exact Or.inr ⟨stream, streamMem, eq_text_of_holds_stream looked holds⟩

theorem covers_extractLegacy :
    Covers libs limits count
      (.all (streamParts whole fun _ data => libs.printableRuns data) streams)
      (extractLegacy libs whole streams) := by
  refine covers_streams (fun stream streamMem text textMem => ?_) rfl
  exact infix_joinLines (List.mem_flatMap.mpr ⟨stream, streamMem, textMem⟩)

theorem covers_extractMsg :
    Covers libs limits count (msgParts libs whole streams)
      (extractMsg libs whole streams) := by
  apply Covers.butSecond
  · refine .all fun stream _ => ?_
    split
    · exact .none
    · exact .leaf _
  · refine covers_streams (fun stream streamMem text textMem => ?_) rfl
    rcases text with _ | ⟨letter, text⟩
    · exact List.nil_infix
    · apply infix_joinLines
      apply List.mem_filter.mpr
      exact ⟨List.mem_flatMap.mpr ⟨stream, streamMem, textMem⟩, by simp⟩

theorem covers_extractOle :
    Covers libs limits count (oleParts libs whole) (extractOle libs whole) := by
  rw [oleParts, extractOle]
  rcases libs.openCfb whole.data with message | streams
  · exact Covers.report _ _ _
  · dsimp only
    split
    · exact Covers.report _ _ _
    · split
      · exact covers_extractMsg
      · exact covers_extractLegacy

theorem covers_wholeText (filename mime text : List Char) (source : String) (added : ℕ) :
    Covers libs limits count (textParts whole text) (checkBudget added >>= fun _ =>
      segment whole.part filename mime source text) :=
  Accounts.after (.checkBudget _) fun _ _ => Covers.text _ _ _ (.refl _) List.infix_rfl

section Nested

variable (nested : ∀ piece, Silent limits (LeafOf libs limits piece) (count piece) (inner piece))
include nested

theorem covers_extractOfficeOrZip :
    Covers libs limits count (officeOrZipParts libs limits whole)
      (extractOfficeOrZip libs inner whole) := by
  rw [officeOrZipParts, extractOfficeOrZip]
  rcases libs.zip whole.data with _ | members
  · exact covers_extractZip nested
  · dsimp only
    rcases zipKind members with _ | kind
    · exact covers_extractZip nested
    · exact covers_extractOffice kind

theorem covers_runFamily (family : String) :
    Covers libs limits count (familyParts libs limits whole family)
      (runFamily libs inner whole family) := by
  unfold runFamily
  split
  · exact covers_extractOfficeOrZip nested
  · exact covers_extractGzip nested
  · exact covers_extractTar nested
  · exact Covers.report _ _ _
  · exact covers_extractSevenZip nested
  · exact covers_extractPdf
  · exact covers_extractOle
  · exact accounts_extractImage _
  · exact accounts_extractImage _
  · exact accounts_extractImage _
  · exact accounts_extractImage _
  · exact accounts_extractImage _
  · exact accounts_extractImage _
  · exact covers_wholeText _ _ _ _ _
  · exact covers_extractMail nested
  · exact covers_extractMail nested
  · exact covers_wholeText _ _ _ _ _
  · exact covers_wholeText _ _ _ _ _
  · exact covers_wholeText _ _ _ _ _
  · exact covers_wholeText _ _ _ _ _
  · exact covers_wholeText _ _ _ _ _
  · exact covers_wholeText _ _ _ _ _
  · unfold familyParts
    split
    all_goals first | contradiction | exact Covers.report _ _ _

theorem silent_dispatchWith (opening : Option Opening) (piece : Piece) :
    Silent limits (LeafOf libs limits piece) ((partsOf libs limits piece).cost count)
      (dispatchWith libs inner opening piece) := by
  apply Accounts.unlessStopped
  apply Accounts.reporting
  · refine Accounts.after (.checkBudget _) fun _ _ => ?_
    refine Accounts.after (.opens _) fun _ _ => ?_
    exact (covers_runFamily nested piece.family).congr (fun _ _ => leafOf_iff.mp) le_rfl fun _ => id
  · intro leaf leafOf
    exact leafOf.names

end Nested

theorem silent_nestedDispatch (depth : ℕ) (opening : Option Opening) (piece : Piece) :
    Silent limits (LeafOf libs limits piece) (piece.cost libs limits depth)
      (nestedDispatch libs depth opening piece) := by
  induction depth generalizing opening piece with
  | zero =>
    refine Accounts.get.after fun ctx _ => ?_
    apply Accounts.unscannable
    intro leaf leafOf
    exact leafOf.names
  | succ depth ih => exact silent_dispatchWith (fun inside => ih none inside) opening piece

theorem silent_dispatch (opening : Option Opening) (piece : Piece) :
    Silent limits (LeafOf libs limits piece)
      (piece.cost libs limits (limits.maxDepth + 1)) (dispatch libs opening piece) := by
  refine Accounts.get.after fun ctx limited => ?_
  rw [limited]
  exact silent_dispatchWith (fun inside => silent_nestedDispatch _ none inside) opening piece

/-- The extraction of a file for a caller that takes every item. -/
def extracted (libs : Libraries) (limits : Limits) (late : ℕ → Bool)
    (opening : Option Opening) (piece : Piece) : Ctx :=
  (dispatch libs opening piece (Ctx.new limits piece.data.length late fun _ => true)).2

theorem dispatch_ok (opening : Option Opening) (piece : Piece) (ctx : Ctx) :
    (dispatch libs opening piece ctx).1 = .ok () := by
  exact unlessStopped_ok (reporting_ok _ _) ctx

/-- A caller that takes every item has none withheld. -/
def StaysOpen (ctx after : Ctx) : Prop :=
  (∀ count, ctx.accepts count = true) → after.accepts = ctx.accepts ∧ after.stopped = ctx.stopped

instance : KeptBySteps StaysOpen where
  refl _ _ := ⟨rfl, rfl⟩
  trans _ _ _ first second accepts := by
    have kept := first accepts
    have later := second (by rwa [kept.1])
    exact ⟨later.1.trans kept.1, later.2.trans kept.2⟩
  keeps_emit item ctx accepts := by
    rw [emit]
    split_ifs with stopped accepted
    · exact ⟨rfl, rfl⟩
    · exact ⟨rfl, rfl⟩
    · exact absurd (accepts _) accepted
  keeps_checkBudget added ctx _ := by
    simp only [checkBudget]
    split_ifs <;> exact ⟨rfl, rfl⟩
  keeps_countOcr budget ctx _ := by cases budget <;> exact ⟨rfl, rfl⟩
  keeps_countImage _ _ := ⟨rfl, rfl⟩

/-- A file in an archive that is not compressed. -/
structure StoredFile where
  name : String
  content : String
  checksum : Bytes

def littleEndian (number : ℕ) : Bytes :=
  [UInt8.ofNat (number % 256), UInt8.ofNat (number / 256), 0, 0]

namespace StoredFile

def header (file : StoredFile) : Bytes :=
  [20, 0, 0, 0, 0, 0, 0, 0, 33, 0] ++ file.checksum ++ littleEndian file.content.length ++
    littleEndian file.content.length ++ littleEndian file.name.length

def entry (file : StoredFile) : Bytes :=
  bytesOf "PK" ++ [3, 4] ++ file.header ++ bytesOf file.name ++ bytesOf file.content

/-- The directory of the files from an offset on. -/
def directory : ℕ → List StoredFile → Bytes
  | _, [] => []
  | offset, file :: files =>
    bytesOf "PK" ++ [1, 2, 20, 0] ++ file.header ++ List.replicate 10 0 ++ littleEndian offset ++
      bytesOf file.name ++ directory (offset + file.entry.length) files

def archive (files : List StoredFile) : Bytes :=
  let entries := files.flatMap entry
  let count := (littleEndian files.length).take 2
  entries ++ directory 0 files ++ bytesOf "PK" ++ [5, 6, 0, 0, 0, 0] ++ count ++ count ++
    littleEndian (directory 0 files).length ++ littleEndian entries.length ++ [0, 0]

def member (file : StoredFile) : ZipMember where
  name := file.name.toList
  rawError := none
  isDir := false
  size := file.content.length
  encrypted := false
  openError := none
  contents := .ok (bytesOf file.content)

end StoredFile

def salaries : StoredFile := ⟨"a.txt", "Salaries", [0x1d, 0xda, 0x98, 0x1f]⟩

def document : List StoredFile :=
  [⟨"word/document.xml", "<t>a</t>", [0xde, 0xb2, 0x9b, 0x36]⟩,
    ⟨"word/comments.xml", "<t>b</t>", [0x0e, 0xc8, 0x3b, 0x71]⟩]

/-- The answers of the libraries on these archives. -/
def storedLibraries : Libraries :=
  { asciiLibraries with
    zip := fun data =>
      if data = StoredFile.archive [salaries] then some [salaries.member]
      else if data = StoredFile.archive document then some (document.map StoredFile.member)
      else none
    readXml := fun data =>
      ⟨[.start ['t'] [], .text (some (((data.drop 3).take 1).map fun byte => Char.ofNat byte.toNat)),
        .finish ['t']], true⟩ }

def archived : Piece := ⟨StoredFile.archive [salaries], "a.zip".toList, "a.zip".toList, []⟩

theorem leafOf_archived_iff {leaf : Leaf} : LeafOf storedLibraries .default archived leaf ↔
    leaf = ⟨"a.zip!a.txt".toList, .text "Salaries".toList⟩ := by
  have parts : partsOf storedLibraries .default archived =
      .piece ⟨bytesOf "Salaries", "a.zip!a.txt".toList, "a.txt".toList, []⟩ := by
    decide +kernel
  have inside : partsOf storedLibraries .default
      ⟨bytesOf "Salaries", "a.zip!a.txt".toList, "a.txt".toList, []⟩ =
        .leaf "a.zip!a.txt".toList (.text "Salaries".toList) := by
    decide +kernel
  rw [leafOf_iff, parts, holds_piece, leafOf_iff, inside, holds_leaf]

/-- Every leaf is emitted or reported. -/
def AlwaysTells : Prop :=
  ∀ (libs : Libraries) (limits : Limits) (late : ℕ → Bool) (opening : Option Opening)
    (piece : Piece) (leaf : Leaf), LeafOf libs limits piece leaf →
      Told (extracted libs limits late opening piece).items leaf

def commented : Piece := ⟨StoredFile.archive document, "a.docx".toList, "a.docx".toList, []⟩

def Item.isReport : Item → Bool
  | .unscannable _ => true
  | _ => false

theorem Item.isReport_of_tells {item : Item} {part : List Char}
    (tells : item.Tells ⟨part, .overlooked⟩) : item.isReport = true := by
  cases item with
  | segment shown => exact absurd tells id
  | image shown => exact absurd tells.1 (by simp)
  | unscannable report => rfl

end Aavishield.Dlp
