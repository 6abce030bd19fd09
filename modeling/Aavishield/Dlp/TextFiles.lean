import Aavishield.Dlp.Libraries

/-!
# Text files

Plain text, tables, JSON, markup and forms: one segment of text for each, without parts.
-/

namespace Aavishield.Dlp

open Effects Text Walk

variable (libs : Libraries)

def joinLines (texts : List (List Char)) : List Char :=
  ['\n'].intercalate texts

def decodeBestEffort (raw : Bytes) : List Char :=
  match decodeUtf8 raw with
  | some text => text
  | none =>
    match raw with
    | 0xff :: 0xfe :: rest => libs.decodeUtf16 false rest
    | 0xfe :: 0xff :: rest => libs.decodeUtf16 true rest
    | _ => libs.decodeGuessed raw

def mimeOr (mime : List Char) (usual : String) : List Char :=
  if mime = [] then usual.toList else mime

def extractText (piece : Piece) : Walk Unit := do
  checkBudget piece.data.length
  segment piece.part piece.filename (mimeOr piece.contentType "text/plain") "text"
    (decodeBestEffort libs piece.data)

def extractCsv (piece : Piece) : Walk Unit := do
  checkBudget piece.data.length
  segment piece.part piece.filename (mimeOr piece.contentType "text/csv") "csv"
    (decodeBestEffort libs piece.data)

mutual

def walkJson : Json → List (List Char)
  | .null => []
  | .bool _ => []
  | .number text => [text]
  | .string text => [text]
  | .array items => walkItems items
  | .object fields => walkFields fields

def walkItems : List Json → List (List Char)
  | [] => []
  | item :: rest => walkJson item ++ walkItems rest

def walkFields : List (List Char × Json) → List (List Char)
  | [] => []
  | (key, child) :: rest => key :: walkJson child ++ walkFields rest

end

def jsonValues (text : List Char) : List Json :=
  let lines := ((text.splitOn '\n').map trimSpace).filter (· ≠ [])
  match lines.filterMap libs.parseJson with
  | [] => (libs.parseJson text).toList
  | values => values

def jsonText (text : List Char) : String × List Char :=
  match (jsonValues libs text).flatMap walkJson with
  | [] => ("json_raw", text)
  | strings => ("json", joinLines strings)

def extractJson (piece : Piece) : Walk Unit := do
  checkBudget piece.data.length
  let (source, text) := jsonText libs (decodeBestEffort libs piece.data)
  segment piece.part piece.filename (mimeOr piece.contentType "application/json") source text

def urlencodedText (data : Bytes) : List Char :=
  match libs.parseForm data with
  | [] => decodeBestEffort libs data
  | pairs => joinLines (pairs.map fun (key, value) => key ++ '=' :: value)

def extractUrlencoded (piece : Piece) : Walk Unit := do
  checkBudget piece.data.length
  segment piece.part piece.filename "application/x-www-form-urlencoded".toList "urlencoded"
    (urlencodedText libs piece.data)

def trimmedTexts (texts : List (List Char)) : List (List Char) :=
  (texts.map trimSpace).filter (· ≠ [])

def attributeTexts (attributes : List XmlAttribute) : List (List Char) :=
  trimmedTexts (attributes.filterMap XmlAttribute.unescaped)

def xmlEventTexts : XmlEvent → List (List Char)
  | .start _ attributes => attributeTexts attributes
  | .empty _ attributes => attributeTexts attributes
  | .text (some text) => trimmedTexts [text]
  | .cdata text => trimmedTexts [text]
  | _ => []

def xmlEventDepth : XmlEvent → ℤ
  | .start .. => 1
  | .finish _ => -1
  | _ => 0

def xmlText (data : Bytes) : Option (List Char) :=
  let reading := libs.readXml data
  let depth := (reading.events.map xmlEventDepth).foldl (· + ·) 0
  let out := reading.events.flatMap xmlEventTexts
  if !reading.complete || depth ≠ 0 || out = [] then none else some (joinLines out)

def stripTags : Bool → List Char → List Char
  | _, [] => []
  | inTag, letter :: rest =>
    if letter = '<' then stripTags true rest
    else if letter = '>' then stripTags false rest
    else if inTag then stripTags inTag rest
    else letter :: stripTags inTag rest

def markupText (data : Bytes) : List Char :=
  (xmlText libs data).getD (stripTags false (decodeBestEffort libs data))

def extractXmlOrHtml (piece : Piece) : Walk Unit := do
  checkBudget piece.data.length
  segment piece.part piece.filename (mimeOr piece.contentType "text/html") "xml"
    (markupText libs piece.data)

def extractRtf (piece : Piece) : Walk Unit := do
  checkBudget piece.data.length
  segment piece.part piece.filename "application/rtf".toList "rtf"
    (libs.rtfToText (decodeBestEffort libs piece.data))

theorem joinLines_cons {text : List Char} {rest : List (List Char)} (more : rest ≠ []) :
    joinLines (text :: rest) = text ++ '\n' :: joinLines rest := by
  rw [joinLines, List.intercalate_cons_of_ne_nil more]
  simp [joinLines]

theorem joinLines_prefix_append (first second : List (List Char)) :
    joinLines first <+: joinLines (first ++ second) := by
  induction first with
  | nil => exact List.nil_prefix
  | cons text rest ih =>
    rcases rest with _ | ⟨other, rest⟩
    · rcases second with _ | ⟨other, second⟩
      · exact List.prefix_rfl
      · rw [List.singleton_append, joinLines_cons (List.cons_ne_nil _ _)]
        exact ⟨_, by rw [joinLines, List.intercalate_singleton]⟩
    · rw [List.cons_append, joinLines_cons (List.cons_ne_nil other rest),
        joinLines_cons (List.append_ne_nil_of_left_ne_nil (List.cons_ne_nil other rest) second)]
      apply (List.prefix_append_right_inj _).mpr
      exact List.cons_prefix_cons.mpr ⟨rfl, ih⟩

theorem joinLines_suffix_append (first second : List (List Char)) :
    joinLines second <:+ joinLines (first ++ second) := by
  induction first with
  | nil => exact List.suffix_rfl
  | cons text rest ih =>
    apply ih.trans
    rw [List.cons_append]
    rcases rest ++ second with _ | ⟨other, more⟩
    · exact List.nil_suffix
    · rw [joinLines_cons (List.cons_ne_nil _ _)]
      exact (List.suffix_cons _ _).trans (List.suffix_append _ _)

theorem joinLines_infix_flatMap {Element : Type} {element : Element} {elements : List Element}
    (read : Element → List (List Char)) (elementMem : element ∈ elements) :
    joinLines (read element) <:+: joinLines (elements.flatMap read) := by
  rcases List.append_of_mem elementMem with ⟨before, rest, rfl⟩
  rw [List.flatMap_append, List.flatMap_cons]
  exact (joinLines_prefix_append _ _).isInfix.trans (joinLines_suffix_append _ _).isInfix

theorem infix_joinLines {text : List Char} {texts : List (List Char)} (textMem : text ∈ texts) :
    text <:+: joinLines texts := by
  have contained := joinLines_infix_flatMap (fun text => [text]) textMem
  rwa [List.flatMap_singleton', joinLines, List.intercalate_singleton] at contained

end Aavishield.Dlp
