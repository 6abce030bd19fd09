import Aavishield.Dlp.Uploads

/-!
# Names and the scan of a text

A text that is uploaded as a file is delivered if one segment with all of it comes to the
detectors.  Whether it is depends on the name and the declared type: these are asked not only
for formats without a signature but for archives, documents and images as well.
-/

namespace Aavishield.Dlp

open Effects Text Walk

variable (env : Primitives) (libs : Libraries) (scanner : Scanner)
variable (limits : Limits) (late : ℕ → Bool)

def utf8 (text : List Char) : Bytes := text.flatMap String.utf8EncodeChar

/-- The text of the file is in a segment as it is. -/
def Delivers (text name contentType : List Char) : Prop :=
  ∃ segment, Item.segment segment ∈
      (extraction libs limits late (fun _ => true) (utf8 text) name contentType).items ∧
    segment.text = text

/-- Neither a name nor a type keeps the text from being read or changes the verdict. -/
def Scanner.RenamingSafe (text : List Char) : Prop :=
  (∀ name contentType, Delivers libs limits late text name contentType) ∧
    ∀ name contentType otherName otherType,
      scanner.scanFile env libs limits late (utf8 text) name contentType =
        scanner.scanFile env libs limits late (utf8 text) otherName otherType

/-- A file that starts as one of the formats with a signature.  The two letters of a bitmap
are only the start of its signature, and so is the name of the RIFF container. -/
def hasFullSignature (data : Bytes) : Bool :=
  signatures.any (fun (signature, family) =>
    decide (family ≠ "bmp") && decide (family ≠ "riff") && signature.isPrefixOf data) ||
  ((bytesOf "RIFF").isPrefixOf data && decide ((data.drop 8).take 4 = bytesOf "WEBP"))

/-- The two letters of a bitmap alone are no image to the reader of images, and the mark of a
tape archive alone is no entry to the reader of these. -/
structure Libraries.Refuses (data : Bytes) : Prop where
  image : bytesOf "BM" <+: data → libs.loadImage data = none
  tar : (data.drop 257).take 5 = bytesOf "ustar" →
    ∃ failure, libs.tar data = .ok ([], some failure)

variable {env libs scanner limits late}
variable {text name contentType : List Char} {piece : Piece}

def NoSegment (ctx after : Ctx) : Prop :=
  ∀ segment, Item.segment segment ∈ after.items → Item.segment segment ∈ ctx.items

instance : Std.Refl NoSegment := ⟨fun _ _ segmentMem => segmentMem⟩

instance : IsTrans Ctx NoSegment :=
  ⟨fun _ _ _ first second segment segmentMem => first segment (second segment segmentMem)⟩

theorem noSegment_unscannable (part : List Char) (reason detail : String) :
    Keeps NoSegment (unscannable part reason detail) := by
  intro ctx segment segmentMem
  simp only [Walk.unscannable, emit] at segmentMem
  split_ifs at segmentMem
  · exact segmentMem
  · simpa using segmentMem
  · exact segmentMem

theorem noSegment_checkBudget (added : ℕ) : Keeps NoSegment (checkBudget added) := by
  intro ctx segment segmentMem
  simp only [checkBudget] at segmentMem
  split_ifs at segmentMem <;> exact segmentMem

theorem noSegment_extractImage (family : String)
    (unreadable : libs.loadImage piece.data = none) :
    Keeps NoSegment (extractImage libs piece family) := by
  refine Keeps.bind (noSegment_checkBudget _) ?_
  intro _
  refine Keeps.bind .get ?_
  intro ctx
  split
  · have notLoaded : toImageItem libs piece.data piece.part =
        get >>= fun _ => (pure none : Walk (Option ImageItem)) := by
      rw [toImageItem, unreadable]
    rw [notLoaded, bind_assoc]
    refine Keeps.bind .get ?_
    intro _
    exact noSegment_unscannable _ _ _
  · intro ctx segment segmentMem
    exact segmentMem

theorem noSegment_extractTar {inner : Piece → Walk Unit} {failure : String}
    (refused : libs.tar piece.data = .ok ([], some failure)) :
    Keeps NoSegment (extractTar libs inner piece) := by
  rw [extractTar, refused]
  refine Keeps.bind (.pure ()) ?_
  intro _
  refine Keeps.bind .get ?_
  intro ctx
  split
  · exact .pure ()
  · exact noSegment_unscannable _ _ _

def Piece.Unread (piece : Piece) : Prop :=
  piece.family = "rar" ∨ piece.family = "riff" ∨
    (piece.family = "bmp" ∧ bytesOf "BM" <+: piece.data) ∨
    (piece.family = "tar" ∧ (piece.data.drop 257).take 5 = bytesOf "ustar")

theorem noSegment_runFamily {inner : Piece → Walk Unit} (refuses : libs.Refuses piece.data)
    (unread : piece.Unread) : Keeps NoSegment (runFamily libs inner piece piece.family) := by
  rcases unread with isRar | isRiff | ⟨isBitmap, starts⟩ | ⟨isTar, marked⟩
  · rw [isRar]
    exact noSegment_unscannable _ _ _
  · rw [isRiff]
    exact noSegment_unscannable _ _ _
  · rw [isBitmap]
    exact noSegment_extractImage _ (refuses.image starts)
  · rcases refuses.tar marked with ⟨failure, refused⟩
    rw [isTar]
    exact noSegment_extractTar refused

theorem noSegment_dispatch {opening : Option Opening} (refuses : libs.Refuses piece.data)
    (unread : piece.Unread) : Keeps NoSegment (dispatch libs opening piece) := by
  refine Keeps.bind .get ?_
  intro ctx
  refine Keeps.bind .get ?_
  intro ctx
  split
  · exact .pure ()
  · refine Keeps.recover ?_ fun exceeded => noSegment_unscannable _ _ _
    refine Keeps.bind (noSegment_checkBudget _) ?_
    intro _
    refine Keeps.bind (fun ctx segment segmentMem => segmentMem) ?_
    intro _
    exact noSegment_runFamily refuses unread

/-- No reader is there for such archives. -/
def archiveName : List Char := "x.rar".toList

theorem not_webp_of_domain {data : Bytes} (domain : hasFullSignature data = false)
    (isRiff : bytesOf "RIFF" <+: data) : (data.drop 8).take 4 ≠ bytesOf "WEBP" := by
  intro isWebp
  simp only [hasFullSignature, Bool.or_eq_false_iff, List.isPrefixOf_iff_prefix.mpr isRiff,
    Bool.true_and, decide_eq_false_iff_not] at domain
  exact domain.2 isWebp

theorem short_of_domain {data signature : Bytes} {family : String}
    (domain : hasFullSignature data = false) (listed : (signature, family) ∈ signatures)
    (starts : signature <+: data) : family = "bmp" ∨ family = "riff" := by
  simp only [hasFullSignature, Bool.or_eq_false_iff, List.any_eq_false] at domain
  have notFull := domain.1 _ listed
  simp only [List.isPrefixOf_iff_prefix.mpr starts, Bool.and_true, Bool.and_eq_true,
    decide_eq_true_eq, not_and_or, not_not] at notFull
  exact notFull

theorem eq_of_listed : ∀ row ∈ signatures, (row.2 = "riff" → row.1 = bytesOf "RIFF") ∧
    (row.2 = "bmp" → row.1 = bytesOf "BM") := by
  decide

theorem unread_archiveName {data : Bytes} {part : List Char}
    (domain : hasFullSignature data = false) :
    (Piece.mk data part archiveName []).Unread := by
  rw [Piece.Unread, Piece.family, sniffFamily]
  split
  case h_1 row signature family found =>
    have listed := List.mem_of_find?_eq_some found
    have isFirst : signature.isPrefixOf (data.take 8192) = true := by
      simpa using List.find?_some found
    have starts : signature <+: data :=
      (List.isPrefixOf_iff_prefix.mp isFirst).trans (List.take_prefix _ _)
    split
    case isTrue isRiff =>
      have isSignature : signature = bytesOf "RIFF" := (eq_of_listed _ listed).1 isRiff
      rw [isSignature] at starts
      have notWebp : ((data.take 8192).drop 8).take 4 ≠ bytesOf "WEBP" := by
        rw [List.drop_take, List.take_take]
        exact not_webp_of_domain domain starts
      right
      left
      exact if_neg notWebp
    case isFalse notRiff =>
      rcases short_of_domain domain listed starts with isBitmap | isRiff
      · have isSignature : signature = bytesOf "BM" := (eq_of_listed _ listed).2 isBitmap
        rw [isSignature] at starts
        right
        right
        left
        exact ⟨isBitmap, starts⟩
      · exact absurd isRiff notRiff
  case h_2 =>
    split
    case isTrue isTar =>
      right
      right
      right
      refine ⟨rfl, ?_⟩
      simpa [List.drop_take, List.take_take] using isTar.2
    case isFalse =>
      have undeclared : byContentType (mimeOf []) = none := by decide
      have byName : byExtension archiveName = some "rar" := by decide
      left
      simp [undeclared, byName]

theorem not_delivers_archiveName (domain : hasFullSignature (utf8 text) = false)
    (refuses : libs.Refuses (utf8 text)) :
    ¬Delivers libs limits late text archiveName [] := by
  rintro ⟨segment, segmentMem, -⟩
  have noForm : mimeOf [] ≠ "multipart/form-data".toList := by decide
  have named : archiveName ≠ [] := by decide
  rw [extraction, extract, if_neg noForm, if_neg named] at segmentMem
  have unread : (Piece.mk (utf8 text) archiveName archiveName []).Unread :=
    unread_archiveName domain
  have before := noSegment_dispatch refuses unread _ segment segmentMem
  simp [Ctx.new] at before

theorem decodeUtf8_utf8 (text : List Char) : decodeUtf8 (utf8 text) = some text := by
  have sameBytes : ByteArray.mk (utf8 text).toArray = text.utf8Encode := by
    apply ByteArray.ext
    simp [utf8, List.utf8Encode]
  rw [decodeUtf8, sameBytes, List.utf8Decode?_utf8Encode]
  simp

theorem decodeBestEffort_utf8 (text : List Char) :
    decodeBestEffort libs (utf8 text) = text := by
  simp only [decodeBestEffort, decodeUtf8_utf8]

/-- Of no text is it without consequence what its file is called: named as an archive that is
not supported, nothing of it is delivered. -/
theorem not_renamingSafe (domain : hasFullSignature (utf8 text) = false)
    (refuses : libs.Refuses (utf8 text)) :
    ¬Delivers libs limits late text archiveName [] ∧
      ¬scanner.RenamingSafe env libs limits late text := by
  have undelivered : ¬Delivers libs limits late text archiveName [] :=
    not_delivers_archiveName domain refuses
  constructor
  · exact undelivered
  · intro safe
    exact undelivered (safe.1 archiveName [])

def taxText : List Char := "PAN ABCPD1234E".toList

theorem refuses_asciiLibraries (data : Bytes)
    (short : (data.drop 257).take 5 ≠ bytesOf "ustar") : asciiLibraries.Refuses data where
  image _ := rfl
  tar marked := absurd marked short

theorem taxText_not_renamingSafe :
    ¬Delivers asciiLibraries .default (fun _ => false) taxText archiveName [] ∧
      ¬idleScanner.RenamingSafe plain asciiLibraries .default (fun _ => false) taxText :=
  not_renamingSafe (by decide) (refuses_asciiLibraries _ (by decide))

def AlwaysRenamingSafe : Prop :=
  ∀ (env : Primitives) (libs : Libraries) (scanner : Scanner) (limits : Limits)
    (late : ℕ → Bool) (text : List Char), '\x00' ∉ text → hasFullSignature (utf8 text) = false →
    libs.Refuses (utf8 text) →
      scanner.RenamingSafe env libs limits late text

/-- The text is not read under the name of an archive. -/
theorem not_alwaysRenamingSafe : ¬AlwaysRenamingSafe := by
  intro always
  have safe := always plain asciiLibraries idleScanner .default (fun _ => false) taxText
    (by decide) (by decide) (refuses_asciiLibraries _ (by decide))
  exact not_delivers_archiveName (by decide) (refuses_asciiLibraries _ (by decide))
    (safe.1 archiveName [])

end Aavishield.Dlp
