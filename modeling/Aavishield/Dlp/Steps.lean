import Aavishield.Dlp.Extraction

/-!
# What every extractor keeps

All an extractor does is done by a few steps.  A relation that these keep is kept by every
extractor, whatever the content.
-/

namespace Aavishield.Dlp

open Effects Text Walk

/-- A relation that is kept by the steps that extractors are made of. -/
class KeptBySteps (relation : Ctx → Ctx → Prop) : Prop extends
    Std.Refl relation, IsTrans Ctx relation where
  keeps_emit : ∀ item, Keeps relation (emit item)
  keeps_checkBudget : ∀ added, Keeps relation (checkBudget added)
  keeps_countOcr : ∀ budget, Keeps relation (countOcr budget)
  keeps_countImage : Keeps relation countImage

open KeptBySteps

theorem KeptBySteps.of_weaker (strong : Ctx → Ctx → Prop) {weak : Ctx → Ctx → Prop}
    [KeptBySteps strong] [Std.Refl weak] [IsTrans Ctx weak]
    (implies : ∀ ctx after, strong ctx after → weak ctx after) : KeptBySteps weak where
  keeps_emit item := (keeps_emit item).mono implies
  keeps_checkBudget added := (keeps_checkBudget added).mono implies
  keeps_countOcr budget := (keeps_countOcr budget).mono implies
  keeps_countImage := keeps_countImage.mono implies

variable {relation : Ctx → Ctx → Prop} [KeptBySteps relation]
variable {libs : Libraries} {inner : Piece → Walk Unit} {piece : Piece}

theorem keeps_segmentUnlessBlank (part filename mime : List Char) (source : String)
    (text : List Char) :
    Keeps relation (segmentUnlessBlank part filename mime source text) := by
  rw [Walk.segmentUnlessBlank]
  split
  · exact .pure ()
  · exact keeps_emit _

theorem keeps_reporting {part : List Char} {walk : Walk Unit} (inside : Keeps relation walk) :
    Keeps relation (reporting part walk) := by
  apply Keeps.recover inside
  intro exceeded
  exact keeps_emit _

theorem keeps_unlessStopped {walk : Walk Unit} (inside : Keeps relation walk) :
    Keeps relation (unlessStopped walk) := by
  refine Keeps.bind .get ?_
  intro ctx
  split
  · exact .pure ()
  · exact inside

theorem keeps_checkThenSegment (added : ℕ) (part filename mime : List Char) (source : String)
    (text : List Char) :
    Keeps relation (do checkBudget added; segment part filename mime source text) := by
  refine Keeps.bind (keeps_checkBudget _) ?_
  intro _
  exact keeps_emit _

theorem keeps_prepare (picture : Picture) (part : List Char) (budget : OcrBudget) :
    Keeps relation (prepare picture part budget) := by
  refine Keeps.bind .get ?_
  intro ctx
  split
  · refine Keeps.bind (keeps_countOcr budget) ?_
    intro _
    exact .pure _
  · exact .pure _

theorem keeps_toImageItem (data : Bytes) (part : List Char) :
    Keeps relation (toImageItem libs data part) := by
  refine Keeps.bind .get ?_
  intro ctx
  split
  · exact .pure _
  · split
    · refine Keeps.bind (keeps_prepare _ _ _) ?_
      intro _
      exact .pure _
    · exact .pure _

theorem keeps_emitImage (image : ImageItem) (filename mime : List Char) :
    Keeps relation (emitImage image filename mime) := by
  refine Keeps.bind keeps_countImage ?_
  intro _
  refine Keeps.bind (keeps_emit _) ?_
  intro _
  split
  · exact .pure ()
  · exact keeps_emit _

theorem keeps_extractImage (family : String) : Keeps relation (extractImage libs piece family) := by
  refine Keeps.bind (keeps_checkBudget _) ?_
  intro _
  refine Keeps.bind .get ?_
  intro ctx
  split
  · refine Keeps.bind (keeps_toImageItem _ _) ?_
    rintro (_ | image)
    · exact keeps_emit _
    · exact keeps_emitImage _ _ _
  · exact .pure ()

theorem keeps_scanPage (page : PdfPage) (pagePart : List Char) :
    Keeps relation (scanPage piece page pagePart) := by
  refine Keeps.bind .get ?_
  intro ctx
  split
  · exact .pure ()
  · split
    · exact .pure ()
    · split
      · exact keeps_emit _
      · refine Keeps.bind (keeps_prepare _ _ _) ?_
        intro image
        refine Keeps.bind .get ?_
        intro ctx
        split
        · exact keeps_emitImage _ _ _
        · split
          · exact .pure ()
          · exact keeps_emit _

theorem keeps_visitPage (page : PdfPage) (index : ℕ) :
    Keeps relation (visitPage piece page index) := by
  refine Keeps.bind (keeps_checkBudget _) ?_
  intro _
  refine Keeps.bind (keeps_segmentUnlessBlank _ _ _ _ _) ?_
  intro _
  exact keeps_unlessStopped (keeps_scanPage _ _)

theorem keeps_extractPdf : Keeps relation (extractPdf libs piece) := by
  refine Keeps.bind (keeps_checkBudget _) ?_
  intro _
  split
  · exact keeps_emit _
  · split
    · split
      · exact keeps_emit _
      · refine Keeps.bind (keeps_emit _) ?_
        intro _
        exact keeps_segmentUnlessBlank _ _ _ _ _
    · apply Keeps.forEach
      intro page _
      exact keeps_unlessStopped (keeps_visitPage _ _)

variable {members : List ZipMember}

theorem keeps_readEntry (name : List Char) : Keeps relation (readEntry members name) := by
  rw [readEntry]
  split
  · exact .pure _
  · split
    · exact .pure _
    · refine Keeps.bind (keeps_checkBudget _) ?_
      intro _
      exact .pure _

theorem keeps_docxTexts (name : List Char) :
    Keeps relation (docxTexts libs members name) := by
  refine Keeps.bind (keeps_readEntry _) ?_
  rintro (_ | xml)
  · exact .pure _
  · exact .pure _

theorem keeps_visitOfficePart (kind : OfficeKind) (source : String)
    (texts : List XmlEvent → List (List Char)) (name : List Char) :
    Keeps relation (visitOfficePart libs piece members kind source texts name) := by
  refine Keeps.bind (keeps_readEntry _) ?_
  rintro (_ | xml)
  · exact .pure ()
  · exact keeps_emit _

theorem keeps_readShared : Keeps relation (readShared libs members) := by
  refine Keeps.bind (keeps_readEntry _) ?_
  rintro (_ | xml)
  · exact .pure _
  · exact .pure _

theorem keeps_extractOfficeText (kind : OfficeKind) :
    Keeps relation (extractOfficeText libs piece members kind) := by
  cases kind with
  | docx =>
    refine Keeps.bind (.collect fun _ _ => keeps_docxTexts _) ?_
    intro _
    exact keeps_emit _
  | xlsx =>
    refine Keeps.bind keeps_readShared ?_
    intro _
    exact .forEach fun _ _ => keeps_unlessStopped (keeps_visitOfficePart _ _ _ _)
  | pptx => exact .forEach fun _ _ => keeps_unlessStopped (keeps_visitOfficePart _ _ _ _)

theorem keeps_visitMedia (name : List Char) :
    Keeps relation (visitMedia libs piece members name) := by
  refine Keeps.bind .get ?_
  intro ctx
  split
  · refine Keeps.bind (keeps_readEntry _) ?_
    rintro (_ | data)
    · exact .pure ()
    · refine Keeps.bind (keeps_toImageItem _ _) ?_
      rintro (_ | image)
      · exact .pure ()
      · exact keeps_emitImage _ _ _
  · exact .pure ()

theorem keeps_extractOffice (kind : OfficeKind) :
    Keeps relation (extractOffice libs piece members kind) := by
  refine Keeps.bind (keeps_extractOfficeText kind) ?_
  intro _
  exact .forEach fun _ _ => keeps_unlessStopped (keeps_visitMedia _)

theorem keeps_streamTexts (decode : CfbStream → Bytes → List Char) (stream : CfbStream) :
    Keeps relation (streamTexts decode stream) := by
  have read : Keeps relation (readStream stream) := by
    rw [readStream]
    split
    · exact .pure _
    · refine Keeps.bind (keeps_checkBudget _) ?_
      intro _
      exact .pure _
  refine Keeps.bind read ?_
  rintro (_ | data)
  · exact .pure _
  · exact .pure _

theorem keeps_extractOle : Keeps relation (extractOle libs piece) := by
  rw [extractOle]
  split
  · exact keeps_emit _
  · split
    · exact keeps_emit _
    · split
      · refine Keeps.bind (.collect fun _ _ => keeps_streamTexts _ _) ?_
        intro _
        exact keeps_emit _
      · refine Keeps.bind (.collect fun _ _ => keeps_streamTexts _ _) ?_
        intro _
        exact keeps_emit _

section Inner

variable (nested : ∀ piece, Keeps relation (inner piece))

include nested

theorem keeps_extractZip : Keeps relation (extractZip libs inner piece) := by
  rw [extractZip]
  split
  · exact keeps_emit _
  · apply Keeps.forEach
    intro member _
    apply keeps_unlessStopped
    rw [visitZipMember]
    split
    · exact keeps_emit _
    · split
      · exact .pure ()
      · refine Keeps.bind (keeps_checkBudget _) ?_
        intro _
        split
        · exact keeps_emit _
        · split
          · exact keeps_emit _
          · exact keeps_emit _
          · exact nested _

theorem keeps_extractGzip : Keeps relation (extractGzip libs inner piece) := by
  refine Keeps.bind (.forEach fun _ _ => keeps_checkBudget _) ?_
  intro _
  split
  · exact keeps_emit _
  · exact nested _

theorem keeps_extractTar : Keeps relation (extractTar libs inner piece) := by
  rw [extractTar]
  split
  · exact keeps_emit _
  · refine Keeps.bind (.forEach ?_) ?_
    · intro entry _
      apply keeps_unlessStopped
      rw [visitTarEntry]
      split
      · exact .pure ()
      · refine Keeps.bind (keeps_checkBudget _) ?_
        intro _
        split
        · exact keeps_emit _
        · exact nested _
    · intro _
      split
      · exact keeps_unlessStopped (keeps_emit _)
      · exact .pure ()

theorem keeps_extractSevenZip : Keeps relation (extractSevenZip libs inner piece) := by
  rw [extractSevenZip]
  split
  · exact keeps_emit _
  · refine Keeps.bind (.forEach ?_) ?_
    · intro entry _
      split
      · exact .pure ()
      · exact keeps_checkBudget _
    · intro _
      split
      · exact keeps_emit _
      · exact .forEach fun _ _ => keeps_unlessStopped (nested _)

theorem keeps_extractMail : Keeps relation (extractMail libs inner piece) := by
  refine Keeps.bind (keeps_checkBudget _) ?_
  intro _
  split
  · exact keeps_emit _
  · refine Keeps.bind (keeps_emit _) ?_
    intro _
    apply Keeps.forEach
    intro part _
    apply keeps_unlessStopped
    rw [visitMailPart]
    split
    · exact .pure ()
    · exact keeps_checkThenSegment _ _ _ _ _ _
    · refine Keeps.bind (keeps_checkBudget _) ?_
      intro _
      exact nested _

theorem keeps_runFamily (family : String) :
    Keeps relation (runFamily libs inner piece family) := by
  unfold runFamily
  split
  · rw [extractOfficeOrZip]
    split
    · exact keeps_extractZip nested
    · split
      · exact keeps_extractOffice _
      · exact keeps_extractZip nested
  · exact keeps_extractGzip nested
  · exact keeps_extractTar nested
  · exact keeps_emit _
  · exact keeps_extractSevenZip nested
  · exact keeps_extractPdf
  · exact keeps_extractOle
  iterate 6 · exact keeps_extractImage _
  · exact keeps_checkThenSegment _ _ _ _ _ _
  iterate 2 · exact keeps_extractMail nested
  iterate 3 · exact keeps_checkThenSegment _ _ _ _ _ _
  iterate 2 · exact keeps_checkThenSegment _ _ _ _ _ _
  · exact keeps_checkThenSegment _ _ _ _ _ _
  · exact keeps_emit _

theorem keeps_dispatchWith {opening : Option Opening} (noted : Keeps relation (opens opening)) :
    Keeps relation (dispatchWith libs inner opening piece) := by
  apply keeps_unlessStopped
  apply keeps_reporting
  refine Keeps.bind (keeps_checkBudget _) ?_
  intro _
  refine Keeps.bind noted ?_
  intro _
  exact keeps_runFamily nested _

end Inner

theorem keeps_opens_none : Keeps relation (opens none) := by
  intro ctx
  have same : ((opens none) ctx).2 = ctx := by simp [opens, Effects.modify]
  rw [same]
  exact refl_of relation ctx

theorem keeps_nestedDispatch_zero {opening : Option Opening} :
    Keeps relation (nestedDispatch libs 0 opening piece) := by
  refine Keeps.bind .get ?_
  intro ctx
  exact keeps_emit _

theorem keeps_nestedDispatch (depth : ℕ) :
    ∀ {opening : Option Opening} {piece : Piece}, Keeps relation (opens opening) →
      Keeps relation (nestedDispatch libs depth opening piece) := by
  induction depth with
  | zero =>
    intro opening piece _
    exact keeps_nestedDispatch_zero
  | succ depth ih =>
    intro opening piece noted
    exact keeps_dispatchWith (fun _ => ih keeps_opens_none) noted

theorem keeps_dispatch {opening : Option Opening} (noted : Keeps relation (opens opening)) :
    Keeps relation (dispatch libs opening piece) := by
  refine Keeps.bind .get ?_
  intro ctx
  exact keeps_dispatchWith (fun _ => keeps_nestedDispatch _ keeps_opens_none) noted

theorem keeps_visitFormPart {root : List Char} {part : FormPart} {index : ℕ}
    (noted : ∀ data, Keeps relation (opens (some (.part index data)))) :
    Keeps relation (visitFormPart libs root part index) := by
  refine Keeps.bind (keeps_checkBudget _) ?_
  intro _
  split
  · refine Keeps.bind .get ?_
    intro ctx
    exact keeps_nestedDispatch _ (noted _)
  · exact keeps_segmentUnlessBlank _ _ _ _ _

theorem keeps_visitFormParts {root : List Char} {parts : List (FormPart × ℕ)}
    (noted : ∀ part ∈ parts, ∀ data, Keeps relation (opens (some (.part part.2 data)))) :
    Keeps relation (visitFormParts libs root parts) := by
  apply Keeps.forEach
  intro part partMem
  exact keeps_unlessStopped (keeps_visitFormPart (noted part partMem))

def SameLimits (ctx after : Ctx) : Prop := after.limits = ctx.limits

instance : KeptBySteps SameLimits where
  refl _ := rfl
  trans _ _ _ first second := second.trans first
  keeps_emit item := by
    intro ctx
    simp only [SameLimits, emit]
    split_ifs <;> rfl
  keeps_checkBudget added := by
    intro ctx
    simp only [SameLimits, checkBudget]
    split_ifs <;> rfl
  keeps_countOcr budget := by
    intro ctx
    cases budget <;> rfl
  keeps_countImage _ := rfl

end Aavishield.Dlp
