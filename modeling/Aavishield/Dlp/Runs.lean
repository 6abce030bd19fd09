import Aavishield.Dlp.Parts
import Aavishield.Dlp.Pipeline
import Aavishield.Lib.Joining

/-!
# Paragraphs and their runs

An editor writes the characters of a paragraph in one run of text or in many: a mark of the
spelling or of a revision splits a run without changing what the paragraph says.  The
extraction puts every run on a line of its own.
-/

namespace Aavishield.Dlp

open ByteText Effects Joining Text Walk

/-- No start and no end of an element that holds text.  Outside of these elements a text, such
as the indentation of the markup, is not of a run. -/
def XmlEvent.isMarkup : XmlEvent → Bool
  | .start name _ => localName name ≠ "t".toList
  | .finish name => localName name ≠ "t".toList
  | _ => true

abbrev Markup := {event : XmlEvent // event.isMarkup = true}

inductive Inline where
  | markup (event : Markup)
  | run (attributes : List XmlAttribute) (text : List Char)

/-- The runs of a paragraph, with what stands between them. -/
structure Paragraph where
  inlines : List Inline

inductive Block where
  | markup (event : Markup)
  | paragraph (written : Paragraph)

def textTag (space : List Char) : List Char := space ++ ':' :: "t".toList

def Inline.events (space : List Char) : Inline → List XmlEvent
  | .markup event => [event.val]
  | .run attributes text =>
    .start (textTag space) attributes ::
      (if text = [] then [] else [.text (some text)]) ++ [.finish (textTag space)]

def Paragraph.events (space : List Char) (paragraph : Paragraph) : List XmlEvent :=
  paragraph.inlines.flatMap (Inline.events space)

def Block.events (space : List Char) : Block → List XmlEvent
  | .markup event => [event.val]
  | .paragraph written => written.events space

def partEvents (space : List Char) (blocks : List Block) : List XmlEvent :=
  blocks.flatMap (Block.events space)

def Inline.runs : Inline → List (List Char)
  | .markup _ => []
  | .run _ text => [text]

def Paragraph.runs (paragraph : Paragraph) : List (List Char) :=
  paragraph.inlines.flatMap Inline.runs

/-- What the paragraph shows, however it is split. -/
def Paragraph.characters (paragraph : Paragraph) : List Char := paragraph.runs.flatten

def Block.runs : Block → List (List Char)
  | .markup _ => []
  | .paragraph written => written.runs

def lettered (runs : List (List Char)) : List (List Char) := runs.filter (· ≠ [])

def documentText (parts : List (List XmlEvent)) : List Char :=
  joinLines (parts.flatMap (textsOf "t".toList 0))

def Paragraph.within (paragraph : Paragraph) (space : List Char)
    (partsBefore partsAfter : List (List XmlEvent)) (before after : List Block) : List Char :=
  documentText (partsBefore ++ partEvents space (before ++ .paragraph paragraph :: after) :: partsAfter)

/-- In every document its characters stand together. -/
def Paragraph.StaysWhole (paragraph : Paragraph) (space : List Char) : Prop :=
  ∀ partsBefore partsAfter before after,
    paragraph.characters <:+: paragraph.within space partsBefore partsAfter before after

/-- No more than one run has a character. -/
def Paragraph.Unsplit (paragraph : Paragraph) : Prop :=
  (lettered paragraph.runs).length ≤ 1

/-- No more than one run has a character beside line breaks. -/
def Paragraph.InkedOnce (paragraph : Paragraph) : Prop :=
  paragraph.runs.countP (inked '\n') ≤ 1

/-- The other paragraph in its place changes no detection. -/
def Paragraph.DetectedLike (env : Primitives) (scanner : Scanner)
    (paragraph other : Paragraph) (space : List Char) : Prop :=
  ∀ filename mime partsBefore partsAfter before after,
    scanner.detectWindowed env filename mime
        (paragraph.within space partsBefore partsAfter before after) =
      scanner.detectWindowed env filename mime
        (other.within space partsBefore partsAfter before after)

section Reading

variable {space : List Char}

@[simp]
theorem lettered_nil : lettered [] = [] := rfl

theorem lettered_append (first second : List (List Char)) :
    lettered (first ++ second) = lettered first ++ lettered second :=
  List.filter_append ..

theorem localName_textTag : localName (textTag space) = "t".toList :=
  afterLast_append (by decide) space

theorem textsOf_markup (markup : Markup) (rest : List XmlEvent) :
    textsOf "t".toList 0 (markup.val :: rest) = textsOf "t".toList 0 rest := by
  rcases markup with ⟨event, isMarkup⟩
  cases event with
  | start name attributes =>
    have other : localName name ≠ "t".toList := by simpa [XmlEvent.isMarkup] using isMarkup
    simp only [textsOf, if_neg other]
  | finish name | empty name attributes | cdata text | other => simp [textsOf]
  | text unescaped => cases unescaped <;> simp [textsOf]

theorem textsOf_inline (inline : Inline) (rest : List XmlEvent) :
    textsOf "t".toList 0 (inline.events space ++ rest) =
      lettered inline.runs ++ textsOf "t".toList 0 rest := by
  cases inline with
  | markup event => simpa [Inline.events, Inline.runs, lettered] using textsOf_markup event rest
  | run attributes text =>
    by_cases isEmpty : text = []
    · simp [Inline.events, Inline.runs, lettered, textsOf, isEmpty, localName_textTag]
    · simp [Inline.events, Inline.runs, lettered, textsOf, isEmpty, localName_textTag]

theorem textsOf_paragraph (paragraph : Paragraph) (rest : List XmlEvent) :
    textsOf "t".toList 0 (paragraph.events space ++ rest) =
      lettered paragraph.runs ++ textsOf "t".toList 0 rest := by
  rcases paragraph with ⟨inlines⟩
  simp only [Paragraph.events, Paragraph.runs]
  induction inlines with
  | nil => rfl
  | cons inline inlines ih =>
    simp only [List.flatMap_cons, List.append_assoc, lettered_append]
    rw [textsOf_inline, ih]

variable (space) in
theorem textsOf_block (block : Block) (rest : List XmlEvent) :
    textsOf "t".toList 0 (block.events space ++ rest) =
      lettered block.runs ++ textsOf "t".toList 0 rest := by
  cases block with
  | markup event => simpa [Block.events, Block.runs, lettered] using textsOf_markup event rest
  | paragraph written => exact textsOf_paragraph written rest

theorem textsOf_partEvents (blocks : List Block) :
    textsOf "t".toList 0 (partEvents space blocks) =
      lettered (blocks.flatMap Block.runs) := by
  induction blocks with
  | nil => rfl
  | cons block blocks ih =>
    have step := textsOf_block space block (partEvents space blocks)
    simp only [partEvents, List.flatMap_cons, lettered_append] at step ih ⊢
    rw [step, ih]

theorem within_eq (paragraph : Paragraph) (partsBefore partsAfter : List (List XmlEvent))
    (before after : List Block) :
    paragraph.within space partsBefore partsAfter before after =
      joinLines (partsBefore.flatMap (textsOf "t".toList 0) ++
        lettered (before.flatMap Block.runs) ++ lettered paragraph.runs ++
        (lettered (after.flatMap Block.runs) ++
          partsAfter.flatMap (textsOf "t".toList 0))) := by
  rw [Paragraph.within, documentText, List.flatMap_append, List.flatMap_cons, textsOf_partEvents,
    List.flatMap_append, List.flatMap_cons, lettered_append, lettered_append]
  simp [Block.runs]

end Reading

section Walks

variable {libs : Libraries} {piece : Piece} {members : List ZipMember} {ctx after : Ctx}

def partReadings (libs : Libraries) (members : List ZipMember) (name : List Char) :
    List (List XmlEvent) :=
  ((readMember members name).map fun xml => (libs.readXml xml).events).toList

theorem readEntry_eq {name : List Char} {read : Option Bytes}
    (ran : readEntry members name ctx = (.ok read, after)) : read = readMember members name := by
  simp only [readEntry, readMember] at ran ⊢
  cases found : memberNamed members name with
  | none =>
    rw [found] at ran
    cases ran
    rfl
  | some member =>
    simp only [found] at ran
    by_cases closed : member.openError.isSome
    · rw [if_pos closed] at ran
      cases ran
      simp [closed]
    · rw [if_neg closed] at ran
      rcases charged : checkBudget member.size ctx with ⟨failure | _, spent⟩
      · rw [bind_of_error charged] at ran
        cases ran
      · rw [bind_of_ok charged] at ran
        cases ran
        simp [closed]

theorem docxTexts_eq {name : List Char} {texts : List (List Char)}
    (ran : docxTexts libs members name ctx = (.ok texts, after)) :
    texts = (partReadings libs members name).flatMap (textsOf "t".toList 0) := by
  rw [docxTexts] at ran
  rcases entry : readEntry members name ctx with ⟨failure | read, spent⟩
  · rw [bind_of_error entry] at ran
    cases ran
  · rw [bind_of_ok entry] at ran
    rw [partReadings, ← readEntry_eq entry]
    cases read with
    | none =>
      cases ran
      rfl
    | some xml =>
      cases ran
      simp

theorem extractDocx_eq {texts : List (List Char)}
    (ran : collect (docxTexts libs members) (sortedNames members isDocxText) ctx =
      (.ok texts, after)) :
    extractDocx libs piece members ctx =
      segment piece.part piece.filename OfficeKind.docx.mime "docx"
        (documentText ((sortedNames members isDocxText).flatMap (partReadings libs members)))
        after := by
  have isRead : texts = ((sortedNames members isDocxText).flatMap
      (partReadings libs members)).flatMap (textsOf "t".toList 0) := by
    rw [List.flatMap_assoc]
    exact collect_eq (fun _ _ _ _ _ ran => docxTexts_eq ran) ran
  rw [extractDocx, bind_of_ok ran, documentText, isRead]

end Walks

section Splits

variable {space : List Char} {paragraph other : Paragraph}

theorem mem_lettered {run : List Char} {runs : List (List Char)} :
    run ∈ lettered runs ↔ run ∈ runs ∧ run ≠ [] := by
  simp [lettered]

theorem lettered_cons (run : List Char) (runs : List (List Char)) :
    lettered (run :: runs) = if run = [] then lettered runs else run :: lettered runs := by
  by_cases isEmpty : run = []
  · simp [lettered, isEmpty]
  · simp [lettered, isEmpty]

theorem flatten_lettered (runs : List (List Char)) : (lettered runs).flatten = runs.flatten := by
  induction runs with
  | nil => rfl
  | cons run runs ih =>
    rw [lettered_cons]
    split
    · rename_i isEmpty
      simp [isEmpty, ih]
    · simp [ih]

theorem countP_lettered (runs : List (List Char)) :
    (lettered runs).countP (inked '\n') = runs.countP (inked '\n') := by
  rw [lettered, List.countP_filter]
  apply List.countP_congr
  intro run _
  cases run with
  | nil => simp [inked]
  | cons letter run => simp

theorem staysWhole_iff : paragraph.StaysWhole space ↔ paragraph.InkedOnce := by
  rw [Paragraph.InkedOnce, ← countP_lettered, ← flatten_infix_intercalate_iff, flatten_lettered,
    ← Paragraph.characters]
  constructor
  · intro whole
    have alone := whole [] [] [] []
    rw [within_eq] at alone
    simpa [joinLines, lettered_nil] using alone
  · intro together partsBefore partsAfter before after
    rw [within_eq]
    apply together.trans
    exact (joinLines_suffix_append _ _).isInfix.trans (joinLines_prefix_append _ _).isInfix

theorem lettered_of_unsplit (unsplit : paragraph.Unsplit) :
    lettered paragraph.runs = lettered [paragraph.characters] := by
  have nonempty : ∀ run ∈ lettered paragraph.runs, run ≠ [] :=
    fun run runMem => (mem_lettered.mp runMem).2
  rw [Paragraph.Unsplit] at unsplit
  rw [Paragraph.characters, ← flatten_lettered]
  revert nonempty unsplit
  generalize lettered paragraph.runs = runs
  intro unsplit nonempty
  rcases runs with _ | ⟨run, _ | ⟨next, rest⟩⟩
  · rfl
  · have isLettered := nonempty run List.mem_cons_self
    simp [lettered_cons, isLettered]
  · simp at unsplit

theorem detectedLike_of_unsplit (env : Primitives) (scanner : Scanner)
    (unsplit : paragraph.Unsplit) (otherUnsplit : other.Unsplit)
    (same : paragraph.characters = other.characters) :
    paragraph.DetectedLike env scanner other space := by
  intro filename mime partsBefore partsAfter before after
  rw [within_eq, within_eq, lettered_of_unsplit unsplit, lettered_of_unsplit otherUnsplit,
    same]

/--
The characters of a paragraph stand together in every document exactly when an editor has
not split them, line breaks aside; and when neither of two paragraphs that say the same is
split, they are detected alike.
-/
theorem runsKeep_iff (env : Primitives) (paragraph other : Paragraph) (space : List Char) :
    (paragraph.StaysWhole space ↔ paragraph.InkedOnce) ∧
      (paragraph.Unsplit → other.Unsplit → paragraph.characters = other.characters →
        ∀ scanner, paragraph.DetectedLike env scanner other space) := by
  constructor
  · exact staysWhole_iff
  · intro unsplit otherUnsplit same scanner
    exact detectedLike_of_unsplit env scanner unsplit otherUnsplit same

end Splits

def writtenIn (runs : List String) : Paragraph := ⟨runs.map fun run => .run [] run.toList⟩

def salaryScanner : Scanner where
  policies := [{
    name := "Keywords", action := "block", detectors := [], keywords := ["salary".toList],
    customPatterns := [], bypassFileTypes := [], detectorWeights := [("keyword", 90)],
    blockThreshold := none, alertThreshold := none, priority := 100 }]
  onUnscannable := []
  cfg := ⟨80, 50⟩
  ai := none

theorem detectWindowed_of_short {env : Primitives} {scanner : Scanner}
    {filename mime text : List Char} (short : byteLength text ≤ 1000) :
    scanner.detectWindowed env filename mime text =
      scanner.detect env filename mime text [] := by
  rw [Scanner.detectWindowed, if_pos]
  rw [window]
  omega

/-- The spelling of `salary` is marked in the middle of the word. -/
theorem not_splitsDoNotMatter :
    ¬(∀ paragraph : Paragraph, paragraph.StaysWhole "w".toList) ∧
      ¬∀ paragraph other : Paragraph, paragraph.characters = other.characters →
        ∀ scanner, paragraph.DetectedLike plain scanner other "w".toList := by
  constructor
  · intro stays
    have once := staysWhole_iff.mp (stays (writtenIn ["sal", "ary"]))
    exact absurd once (by unfold Paragraph.InkedOnce; decide)
  · intro alike
    have same := alike (writtenIn ["sal", "ary"]) (writtenIn ["salary"]) (by decide) salaryScanner
      [] [] [] [] [] []
    rw [within_eq, within_eq, detectWindowed_of_short (by decide),
      detectWindowed_of_short (by decide)] at same
    have ranks := congrArg Verdict.rank same
    exact absurd ranks (by decide)

end Aavishield.Dlp
