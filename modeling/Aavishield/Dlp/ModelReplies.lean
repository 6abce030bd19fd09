import Aavishield.Dlp.Classifier

/-!
# What a reply can do

The scanned content has a say in the reply of a model, so that a reply is any text.  A verdict
that is read from one stays within the schema; but a fence is taken off by cutting at the
fourth byte.
-/

namespace Aavishield.Classifier

open ByteText Text

def TextVerdict.WithinSchema (verdict : TextVerdict) : Prop :=
  verdict.sensitive = true →
    (∀ category ∈ verdict.categories, category ∈ textCategories) ∧
      (∃ category ∈ verdict.categories, category ≠ "none") ∧
        0 ≤ verdict.confidence ∧ verdict.confidence ≤ 100

def VisionVerdict.WithinSchema (verdict : VisionVerdict) : Prop :=
  verdict.sensitive = true →
    verdict.docType ∈ docTypes ∧ verdict.docType ≠ "none" ∧
      0 ≤ verdict.confidence ∧ verdict.confidence ≤ 100

/-- A reply is read without a panic, and to a verdict within the schema. -/
structure ReadsSafely (env : Primitives) (text : List Char) : Prop where
  textReturns : parseTextOutput env text ≠ .panics
  textVerdict : ∀ verdict, parseTextOutput env text = .usable verdict → verdict.WithinSchema
  visionReturns : parseVisionOutput env text ≠ .panics
  visionVerdict : ∀ verdict, parseVisionOutput env text = .usable verdict →
    verdict.WithinSchema

/-- What is behind a fence can be cut after four bytes, if it has as many. -/
def Sliceable (text : List Char) : Prop :=
  "```".toList <+: trimSpace text → 4 ≤ byteLength (trimMatches '`' (trimSpace text)) →
    isCharBoundary (trimMatches '`' (trimSpace text)) 4 = true

variable {env : Primitives} {text : List Char} {fields : Fields}

theorem confidenceOf_percent (fields : Fields) :
    0 ≤ confidenceOf env fields ∧ confidenceOf env fields ≤ 100 := by
  simp only [confidenceOf]
  omega

theorem known_of_mem_categoriesOf {category : String} (isOne : category ∈ categoriesOf fields) :
    category ∈ textCategories := by
  simpa using (List.mem_filter.mp isOne).2

theorem withinSchema_of_parseTextOutput {verdict : TextVerdict}
    (parsed : parseTextOutput env text = .usable verdict) : verdict.WithinSchema := by
  rw [parseTextOutput] at parsed
  cases read : modelJson env text with
  | panics | unusable => simp [read, Reading.map] at parsed
  | usable fields =>
    simp only [read, Reading.map, Reading.usable.injEq] at parsed
    subst parsed
    intro sensitive
    dsimp only at sensitive ⊢
    rw [if_pos sensitive]
    refine ⟨fun category isOne => known_of_mem_categoriesOf isOne, ?_, confidenceOf_percent fields⟩
    rcases List.any_eq_true.mp (Bool.and_eq_true_iff.mp sensitive).2 with ⟨category, isOne, real⟩
    exact ⟨category, isOne, by simpa using real⟩

theorem withinSchema_of_parseVisionOutput {verdict : VisionVerdict}
    (parsed : parseVisionOutput env text = .usable verdict) : verdict.WithinSchema := by
  unfold parseVisionOutput at parsed
  split at parsed
  · cases parsed
  · cases parsed
  · split at parsed
    · cases parsed
    · dsimp only at parsed
      split_ifs at parsed with known
      cases parsed
      intro sensitive
      refine ⟨known, ?_, confidenceOf_percent _⟩
      simpa using (Bool.and_eq_true_iff.mp sensitive).2

theorem parseObject_ne_panics (text : List Char) : parseObject env text ≠ .panics := by
  unfold parseObject
  split <;> simp

theorem modelJson_ne_panics_iff : modelJson env text ≠ .panics ↔ Sliceable text := by
  simp only [modelJson, Sliceable, ← List.isPrefixOf_iff_prefix]
  cases "```".toList.isPrefixOf (trimSpace text) with
  | false => simp [parseObject_ne_panics]
  | true =>
    by_cases long : 4 ≤ byteLength (trimMatches '`' (trimSpace text))
    · cases isCharBoundary (trimMatches '`' (trimSpace text)) 4 with
      | false => simp [long]
      | true => simp [long, parseObject_ne_panics]
    · simp [long, parseObject_ne_panics]

theorem parseTextOutput_ne_panics_iff :
    parseTextOutput env text ≠ .panics ↔ Sliceable text := by
  rw [← @modelJson_ne_panics_iff env, parseTextOutput]
  cases modelJson env text <;> simp [Reading.map]

theorem parseVisionOutput_ne_panics_iff :
    parseVisionOutput env text ≠ .panics ↔ Sliceable text := by
  rw [← @modelJson_ne_panics_iff env, parseVisionOutput]
  cases modelJson env text with
  | panics => simp
  | unusable => simp
  | usable fields =>
    dsimp only
    split
    · simp
    · split_ifs <;> simp

/-- Every reply whose fence can be cut off is read safely, and no other. -/
theorem readsSafely_iff (env : Primitives) (text : List Char) :
    ReadsSafely env text ↔ Sliceable text := by
  constructor
  · intro safe
    apply parseTextOutput_ne_panics_iff.mp safe.textReturns
  · intro sliceable
    constructor
    · exact parseTextOutput_ne_panics_iff.mpr sliceable
    · exact fun verdict => withinSchema_of_parseTextOutput
    · exact parseVisionOutput_ne_panics_iff.mpr sliceable
    · exact fun verdict => withinSchema_of_parseVisionOutput

/-- Two euro signs in a fence: the fourth byte is inside the second. -/
theorem not_readsSafely : ¬∀ env text, ReadsSafely env text := by
  intro always
  apply (always ⟨fun _ => .replicate 32 0, fun _ => none, fun _ => 0⟩ "```€€```".toList).textReturns
  rfl

end Aavishield.Classifier
