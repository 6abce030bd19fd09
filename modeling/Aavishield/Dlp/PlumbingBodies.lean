import Aavishield.Dlp.FormWriting
import Aavishield.Dlp.JsonLayout
import Aavishield.Dlp.Plumbing

/-!
# Plumbing of bodies

A body of a request is JSON or a form.  Its user text is the same whatever stands under plumbing
keys, and has every string under a content key, if the body is no larger than the user text may be.
-/

namespace Aavishield.UserText

open Dlp Text ByteText Multipart
open LossyText (utf8 utf8_cons)

variable {libs : Libraries} {text : List Char} {out : List Char} {data : Bytes}

theorem byteLength_eq_length_utf8 (text : List Char) : byteLength text = (utf8 text).length := by
  induction text with
  | nil => rfl
  | cons letter text ih =>
    rw [utf8_cons, List.length_append, String.length_utf8EncodeChar, byteLength, ih]

theorem decodeUtf8_eq_some_iff : decodeUtf8 data = some text ↔ data = utf8 text := by
  constructor
  · intro decoded
    obtain ⟨letters, isDecoded, rfl⟩ := Option.map_eq_some_iff.mp decoded
    have encoded := @ByteArray.utf8Encode_get_utf8Decode? (ByteArray.mk data.toArray)
      (by rw [isDecoded]; rfl)
    simp only [isDecoded, Option.get_some] at encoded
    have listed := congrArg (fun array => array.data.toList) encoded
    simpa [List.utf8Encode, utf8] using listed.symm
  · rintro rfl
    have sameBytes : ByteArray.mk (utf8 text).toArray = text.utf8Encode := by
      apply ByteArray.ext
      simp [utf8, List.utf8Encode]
    rw [decodeUtf8, sameBytes, List.utf8Decode?_utf8Encode]
    simp

theorem byteLength_of_decodeUtf8 (decoded : decodeUtf8 data = some text) :
    byteLength text = data.length := by
  rw [byteLength_eq_length_utf8, ← decodeUtf8_eq_some_iff.mp decoded]

theorem sum_filterMap_le {Item Piece : Type} {read : Item → Option Piece} {size : Item → ℕ}
    {pieceSize : Piece → ℕ} {items all : List Item} (within : items.Sublist all)
    (smaller : ∀ item ∈ items, ∀ piece, read item = some piece → pieceSize piece ≤ size item) :
    ((items.filterMap read).map pieceSize).sum ≤ (all.map size).sum := by
  induction within with
  | slnil => exact Nat.le_refl _
  | @cons items all item within ih =>
    have rest := ih smaller
    rw [List.map_cons, List.sum_cons]
    omega
  | @cons_cons items all item within ih =>
    rw [List.forall_mem_cons] at smaller
    have rest := ih smaller.2
    rw [List.map_cons, List.sum_cons, List.filterMap_cons]
    cases readItem : read item with
    | none =>
      dsimp only
      omega
    | some piece =>
      have small := smaller.1 piece readItem
      rw [List.map_cons, List.sum_cons]
      omega

def formFields (libs : Libraries) (ct rawCt : List Char) (body : Bytes) :
    Option (List (List Char × List Char)) :=
  if (bodyJson libs ct body).isSome then none
  else if ct = "application/x-www-form-urlencoded".toList then some (libs.parseForm body)
  else if "multipart/".toList.isPrefixOf ct then
    match multipartBoundary rawCt with
    | none => some []
    | some boundary => some ((multipartParts libs body boundary).filterMap fun part =>
      if part.filename.isSome then none
      else some (part.name, libs.fromUtf8Lossy part.data))
  else none

def collectField (libs : Libraries) (out : List Char) (field : List Char × List Char) :
    List Char :=
  collectValue libs field.2 (some field.1) false out

variable {ct rawCt : List Char} {body : Bytes} {value : Json}

theorem userText_of_bodyJson (read : bodyJson libs ct body = some value) :
    userText libs ct rawCt body =
      cap (collectJson libs (value.weight + 1) value none false []) := by
  rw [userText, read]

variable {fields : List (List Char × List Char)}

theorem userText_of_formFields (read : formFields libs ct rawCt body = some fields) :
    userText libs ct rawCt body = cap (fields.foldl (collectField libs) []) := by
  unfold formFields at read
  split at read
  next => cases read
  next noJson =>
    rw [Bool.not_eq_true, Option.isSome_eq_false_iff, Option.isNone_iff_eq_none] at noJson
    rw [userText, noJson]
    dsimp only
    split at read
    next isForm =>
      cases read
      rw [if_pos isForm]
      rfl
    next notForm =>
      rw [if_neg notForm]
      split at read
      next isMultipart =>
        rw [if_pos isMultipart]
        cases given : multipartBoundary rawCt with
        | none =>
          rw [given] at read
          cases read
          rfl
        | some boundary =>
          rw [given] at read
          cases read
          dsimp only
          rw [List.foldl_filterMap]
          congr 2
          funext out part
          cases part.filename <;> rfl
      next => cases read

def SameField (libs : Libraries) (field other : List Char × List Char) : Prop :=
  field.1 = other.1 ∧ (isPlumbingKey field.1 = true ∨ field.2 = other.2 ∨
    ∃ value otherValue, fieldJson libs field.2 = some value ∧
      fieldJson libs other.2 = some otherValue ∧ SameBut libs value otherValue)

variable {field : List Char × List Char}

theorem collectField_of_plumbing
    (isPlumbing : isPlumbingKey field.1 = true) : collectField libs out field = out := by
  rw [collectField, collectValue, Option.any_some, if_pos isPlumbing]

theorem collectField_of_json
    (outside : isPlumbingKey field.1 = false) (read : fieldJson libs field.2 = some value) :
    collectField libs out field =
      collectJson libs (value.weight + 1) value (some field.1) false out := by
  rw [collectField, collectValue, Option.any_some, outside, if_neg Bool.false_ne_true, read]

theorem collectField_of_text
    (outside : isPlumbingKey field.1 = false) (noJson : fieldJson libs field.2 = none) :
    collectField libs out field = pushString field.2 (some field.1) false out := by
  rw [collectField, collectValue, Option.any_some, outside, if_neg Bool.false_ne_true, noJson]

theorem weight_fieldJson (reads : ReadsByWeight libs)
    (read : fieldJson libs text = some value) : value.weight ≤ byteLength text := by
  unfold fieldJson at read
  split_ifs at read
  exact reads text value read

theorem collectField_same (reads : ReadsByWeight libs)
    {field other : List Char × List Char} (same : SameField libs field other) :
    collectField libs out field = collectField libs out other := by
  obtain ⟨key, text⟩ := field
  obtain ⟨otherKey, otherText⟩ := other
  obtain ⟨sameKey, alike⟩ := same
  dsimp only at sameKey
  subst sameKey
  cases isPlumbing : isPlumbingKey key with
  | true => rw [collectField_of_plumbing isPlumbing, collectField_of_plumbing isPlumbing]
  | false =>
    rcases alike with plumbing | sameText | ⟨value, otherValue, read, otherRead, alike⟩
    · rw [isPlumbing] at plumbing
      cases plumbing
    · dsimp only at sameText
      rw [sameText]
    · rw [collectField_of_json isPlumbing read, collectField_of_json isPlumbing otherRead]
      exact alike_collectJson reads _ _ _ _ _ _ _ alike (Nat.lt_succ_self _) (Nat.lt_succ_self _)

theorem prefix_collectField :
    out <+: collectField libs out field := by
  unfold collectField collectValue
  split
  · exact List.prefix_rfl
  · split
    · exact prefix_collectJson
    · exact prefix_pushString

theorem byteLength_collectField (reads : ReadsByWeight libs)
    (field : List Char × List Char) (out : List Char) :
    byteLength (collectField libs out field) ≤ byteLength out + (byteLength field.2 + 1) := by
  unfold collectField collectValue
  split
  · omega
  · split
    next value read =>
      have light := weight_fieldJson reads read
      have walked :=
        @byteLength_collectJson _ value (value.weight + 1) (some field.1) false out reads
      omega
    next =>
      have pushed := @byteLength_pushString field.2 (some field.1) false out
      omega

theorem byteLength_collectFields (reads : ReadsByWeight libs)
    (fields : List (List Char × List Char)) (out : List Char) :
    byteLength (fields.foldl (collectField libs) out) ≤
      byteLength out + (fields.map fun field => byteLength field.2 + 1).sum := by
  induction fields generalizing out with
  | nil => exact Nat.le_refl _
  | cons field fields ih =>
    have first := byteLength_collectField reads field out
    have rest := ih (collectField libs out field)
    rw [List.foldl_cons, List.map_cons, List.sum_cons]
    omega

def FieldHolds (libs : Libraries) (field : List Char × List Char)
    (path : List (List Char)) (text : List Char) : Prop :=
  (fieldJson libs field.2 = none ∧ path = [] ∧ text = field.2) ∨
    ∃ value, fieldJson libs field.2 = some value ∧ Holds libs value path text

theorem infix_collectField (reads : ReadsByWeight libs)
    {path : List (List Char)} (holds : FieldHolds libs field path text)
    (outside : ∀ name ∈ field.1 :: path, isPlumbingKey name = false)
    (seen : Seen (some field.1) false path text) (written : trimSpace text ≠ [])
    (room : byteLength out + (byteLength field.2 + 1) ≤ maxUserText) :
    text <:+: collectField libs out field := by
  rw [List.forall_mem_cons] at outside
  rcases holds with ⟨noJson, rfl, rfl⟩ | ⟨value, read, holds⟩
  · rw [collectField_of_text outside.1 noJson]
    exact infix_pushString seen written
  · have light := weight_fieldJson reads read
    rw [collectField_of_json outside.1 read]
    exact infix_collectJson reads holds outside.2 seen written (Nat.lt_succ_self _) (by omega)

theorem infix_collectFields (reads : ReadsByWeight libs)
    (fieldMem : field ∈ fields) {path : List (List Char)}
    (holds : FieldHolds libs field path text)
    (outside : ∀ name ∈ field.1 :: path, isPlumbingKey name = false)
    (seen : Seen (some field.1) false path text) (written : trimSpace text ≠ [])
    (room : (fields.map fun field => byteLength field.2 + 1).sum ≤ maxUserText) :
    text <:+: fields.foldl (collectField libs) [] := by
  obtain ⟨before, after, rfl⟩ := List.append_of_mem fieldMem
  have walked := byteLength_collectFields reads before []
  rw [List.map_append, List.sum_append, List.map_cons, List.sum_cons] at room
  rw [List.foldl_append, List.foldl_cons]
  refine List.IsInfix.trans ?_ (prefix_foldl (fun _ _ => prefix_collectField) after _).isInfix
  have empty : byteLength [] = 0 := rfl
  exact infix_collectField reads holds outside seen written (by omega)

/-- What is documented of `form_urlencoded::parse`: each field is a piece of the form of its own,
and decoding makes no value longer, so the values with the marks before them fit in the form. -/
def ReadsForms (libs : Libraries) : Prop :=
  ∀ body, (decodeUtf8 body).isSome = true →
    ((libs.parseForm body).map fun field => byteLength field.2 + 1).sum ≤ body.length

def IsTextForm (libs : Libraries) (ct rawCt : List Char) (body : Bytes) : Prop :=
  if ct = "application/x-www-form-urlencoded".toList then (decodeUtf8 body).isSome = true
  else ∀ boundary ∈ multipartBoundary rawCt, ∀ part ∈ multipartParts libs body boundary,
    part.filename = none → (decodeUtf8 part.data).isSome = true

theorem length_data_of_formPart {part : FormPart} (formed : formPart libs data = some part) :
    part.data.length + 1 ≤ data.length := by
  rw [formPart_eq, Option.map_eq_some_iff] at formed
  obtain ⟨headersEnd, found, rfl⟩ := formed
  have marked := (Splitting.infix_of_find found).length_le
  have within := (strip_within data).length_le
  have four : (lineBreak ++ lineBreak).length = 4 := rfl
  rw [data_readHeaders, List.length_drop]
  omega

theorem sum_length_multipartParts (body : Bytes) (boundary : List Char) :
    ((multipartParts libs body boundary).map fun part => part.data.length + 1).sum ≤
      body.length := by
  unfold multipartParts
  dsimp only
  rw [splitBytes_eq]
  refine (sum_filterMap_le ((List.dropLast_sublist _).trans (List.drop_sublist 1 _))
    fun _ _ _ formed => length_data_of_formPart formed).trans ?_
  exact Splitting.sum_length_split

theorem sum_formFields (utf8s : ReadsUtf8 libs) (forms : ReadsForms libs)
    (read : formFields libs ct rawCt body = some fields)
    (isText : IsTextForm libs ct rawCt body) :
    (fields.map fun field => byteLength field.2 + 1).sum ≤ body.length := by
  unfold formFields at read
  unfold IsTextForm at isText
  split at read
  next => cases read
  split at read
  next isForm =>
    rw [if_pos isForm] at isText
    cases read
    exact forms body isText
  next notForm =>
    rw [if_neg notForm] at isText
    split at read
    next =>
      cases given : multipartBoundary rawCt with
      | none =>
        rw [given] at read
        cases read
        exact Nat.zero_le _
      | some boundary =>
        rw [given] at read
        cases read
        refine (sum_filterMap_le (List.Sublist.refl _) ?_).trans
          (@sum_length_multipartParts libs body boundary)
        intro part partMem field isField
        split_ifs at isField with isFile
        cases isField
        rw [Bool.not_eq_true, Option.isSome_eq_false_iff, Option.isNone_iff_eq_none] at isFile
        obtain ⟨text, decoded⟩ :=
          Option.isSome_iff_exists.mp (isText boundary given part partMem isFile)
        dsimp only
        rw [decodeUtf8_eq_some_iff.mp decoded, utf8s.valid, byteLength_eq_length_utf8]
    next => cases read

theorem cap_of_le (fits : byteLength text ≤ maxUserText) : cap text = text :=
  if_neg (by omega)

theorem weight_bodyJson (reads : ReadsByWeight libs) {ct : List Char}
    (read : bodyJson libs ct body = some value) :
    value.weight ≤ body.length := by
  unfold bodyJson at read
  dsimp only at read
  split_ifs at read
  obtain ⟨text, decoded, parsed⟩ := Option.bind_eq_some_iff.mp read
  have light := reads text value parsed
  rw [← byteLength_of_decodeUtf8 decoded]
  exact light

/-- What a body says under plumbing keys neither adds to its user text nor takes away from it. -/
structure IgnoresPlumbing (libs : Libraries) (ct rawCt : List Char) : Prop where
  json : ∀ (body other : Bytes) (value otherValue : Json),
    bodyJson libs ct body = some value → bodyJson libs ct other = some otherValue →
      SameBut libs value otherValue →
        userText libs ct rawCt body = userText libs ct rawCt other
  form : ∀ (body other : Bytes) (fields others : List (List Char × List Char)),
    formFields libs ct rawCt body = some fields →
      formFields libs ct rawCt other = some others →
        List.Forall₂ (SameField libs) fields others →
          userText libs ct rawCt body = userText libs ct rawCt other

/-- Text under a content key and no plumbing key is kept, of JSON and of forms. -/
structure KeepsContent (libs : Libraries) (ct rawCt : List Char) : Prop where
  json : ∀ (body : Bytes) (value : Json) (path : List (List Char)) (text : List Char),
    bodyJson libs ct body = some value → body.length ≤ maxUserText →
      Holds libs value path text → (∀ name ∈ path, isPlumbingKey name = false) →
        (∃ name ∈ path, isContentKey name = true) → trimSpace text ≠ [] →
          text <:+: userText libs ct rawCt body
  /-- The key of a field counts for what stands in no object in it, and else for prose. -/
  form : ∀ (body : Bytes) (fields : List (List Char × List Char)) (field : List Char × List Char)
      (path : List (List Char)) (text : List Char),
    formFields libs ct rawCt body = some fields → body.length ≤ maxUserText →
      IsTextForm libs ct rawCt body → field ∈ fields →
        FieldHolds libs field path text →
          (∀ name ∈ field.1 :: path, isPlumbingKey name = false) →
            ((∃ name ∈ path, isContentKey name = true) ∨ isContentKey field.1 = true ∧
              (path = [] ∨ looksLikeOpaqueBlob text = false)) → trimSpace text ≠ [] →
                text <:+: userText libs ct rawCt body

theorem ignoresPlumbing (reads : ReadsByWeight libs) (ct rawCt : List Char) :
    IgnoresPlumbing libs ct rawCt where
  json body other value otherValue read otherRead same := by
    rw [userText_of_bodyJson read, userText_of_bodyJson otherRead,
      alike_collectJson reads _ _ _ _ _ _ _ same (Nat.lt_succ_self _) (Nat.lt_succ_self _)]
  form body other fields others read otherRead same := by
    have walked (out : List Char) : fields.foldl (collectField libs) out =
        others.foldl (collectField libs) out := by
      clear read otherRead
      induction same generalizing out with
      | nil => rfl
      | cons first rest ih =>
        rw [List.foldl_cons, List.foldl_cons, collectField_same reads first, ih]
    rw [userText_of_formFields read, userText_of_formFields otherRead, walked]

theorem keepsContent (reads : ReadsByWeight libs) (utf8s : ReadsUtf8 libs)
    (forms : ReadsForms libs) (ct rawCt : List Char) : KeepsContent libs ct rawCt where
  json body value path text read small holds outside content written := by
    have light := weight_bodyJson reads read
    have empty : byteLength [] = 0 := rfl
    have walked := @byteLength_collectJson _ value (value.weight + 1) none false [] reads
    rw [userText_of_bodyJson read, cap_of_le (by omega)]
    exact infix_collectJson reads holds outside (Or.inr (Or.inr (Or.inl content))) written
      (Nat.lt_succ_self _) (by omega)
  form body fields field path text read small isText fieldMem holds outside content written := by
    have fits := sum_formFields utf8s forms read isText
    have empty : byteLength [] = 0 := rfl
    have walked := byteLength_collectFields reads fields []
    have seen : Seen (some field.1) false path text := by
      rcases content with inPath | ⟨isKey, whole | prose⟩
      · exact Or.inr (Or.inr (Or.inl inPath))
      · exact Or.inr (Or.inl ⟨whole, isKey⟩)
      · exact Or.inr (Or.inr (Or.inr prose))
    rw [userText_of_formFields read, cap_of_le (by omega)]
    exact infix_collectFields reads fieldMem holds outside seen written (by omega)

/-- The user text ignores plumbing and keeps content, with the JSON reader of the crate. -/
theorem userText_plumbing (serde : SerdeJson) (utf8s : ReadsUtf8 libs)
    (forms : ReadsForms libs) (ct rawCt : List Char) :
    IgnoresPlumbing (serde.reads libs) ct rawCt ∧
      KeepsContent (serde.reads libs) ct rawCt := by
  have reads : ReadsByWeight (serde.reads libs) := fun _ _ => weight_parse
  have sameUtf8 : ReadsUtf8 (serde.reads libs) := ⟨utf8s.valid, utf8s.kept⟩
  exact ⟨ignoresPlumbing reads ct rawCt, keepsContent reads sameUtf8 forms ct rawCt⟩

def chatText (id : String) : List Char :=
  ("\x7b\"id\":\"" ++ id ++ "\",\"text\":\"call me\"\x7d").toList

def chatValue (id : String) : Json :=
  .object [("id".toList, .string id.toList), ("text".toList, .string "call me".toList)]

def isChatValue (id : String) : Json → Bool
  | .object [(first, .string given), (second, .string text)] =>
    first = "id".toList ∧ given = id.toList ∧ second = "text".toList ∧ text = "call me".toList
  | _ => false

theorem eq_chatValue {id : String} (isChat : isChatValue id value = true) :
    value = chatValue id := by
  unfold isChatValue at isChat
  split at isChat
  next =>
    obtain ⟨rfl, rfl, rfl, rfl⟩ := of_decide_eq_true isChat
    rfl
  next => cases isChat

theorem bodyJson_chatText {id : String}
    (parses : (literalSerde.parse (chatText id)).any (isChatValue id) = true) :
    bodyJson (literalSerde.reads utf8Libraries) "application/json".toList (utf8 (chatText id)) =
      some (chatValue id) := by
  obtain ⟨value, parsed, isChat⟩ := (Option.any_eq_true _ _).mp parses
  unfold bodyJson fromSlice
  dsimp only
  rw [if_pos (Or.inl (by decide)), decodeUtf8_eq_some_iff.mpr rfl, Option.bind_some]
  exact parsed.trans (congrArg some (eq_chatValue isChat))

theorem readsForms_utf8Libraries : ReadsForms utf8Libraries := fun _ _ => Nat.zero_le _

theorem nestedJson_typed :
    nestedJson (literalSerde.reads utf8Libraries) "call me".toList = none := by
  unfold nestedJson
  dsimp only
  rw [if_neg (by decide)]

theorem holds_chatValue (id : String) :
    Holds (literalSerde.reads utf8Libraries) (chatValue id) ["text".toList] "call me".toList :=
  .field (List.mem_cons_of_mem _ List.mem_cons_self) (.text nestedJson_typed)

/-- The id neither adds to the message nor hides it. -/
theorem userText_chatText :
    userText (literalSerde.reads utf8Libraries) "application/json".toList []
        (utf8 (chatText "a1")) =
      userText (literalSerde.reads utf8Libraries) "application/json".toList []
        (utf8 (chatText "b2")) ∧
    "call me".toList <:+: userText (literalSerde.reads utf8Libraries) "application/json".toList []
      (utf8 (chatText "a1")) := by
  have read := @bodyJson_chatText "a1" (by decide +kernel)
  have otherRead := @bodyJson_chatText "b2" (by decide +kernel)
  have same : SameBut (literalSerde.reads utf8Libraries) (chatValue "a1") (chatValue "b2") :=
    .object (.plumbing (by decide) _ _ (.cons _ (.same _) .nil))
  obtain ⟨ignores, keeps⟩ := userText_plumbing literalSerde readsUtf8_utf8Libraries
    readsForms_utf8Libraries "application/json".toList []
  refine ⟨ignores.json _ _ _ _ read otherRead same, ?_⟩
  exact keeps.json _ _ _ _ read (by decide +kernel) (holds_chatValue "a1") (by decide) (by decide)
    (by decide)

def stateText : List Char := "\x7b\"state\":\x7b\"text\":\"call me\"\x7d\x7d".toList

def stateValue : Json :=
  .object [("state".toList, .object [("text".toList, .string "call me".toList)])]

def isStateValue : Json → Bool
  | .object [(first, .object [(second, .string text)])] =>
    first = "state".toList ∧ second = "text".toList ∧ text = "call me".toList
  | _ => false

theorem bodyJson_stateText :
    bodyJson (literalSerde.reads utf8Libraries) "application/json".toList (utf8 stateText) =
      some stateValue := by
  have parses : (literalSerde.parse stateText).any isStateValue = true := by decide +kernel
  obtain ⟨value, parsed, isState⟩ := (Option.any_eq_true _ _).mp parses
  have same : value = stateValue := by
    unfold isStateValue at isState
    split at isState
    next =>
      obtain ⟨rfl, rfl, rfl⟩ := of_decide_eq_true isState
      rfl
    next => cases isState
  unfold bodyJson fromSlice
  dsimp only
  rw [if_pos (Or.inl (by decide)), decodeUtf8_eq_some_iff.mpr rfl, Option.bind_some]
  exact parsed.trans (congrArg some same)

/-- What stands under a content key inside of plumbing is left out. -/
theorem not_userText_stateText :
    ¬∀ (body : Bytes) (value : Json) (path : List (List Char)) (text : List Char),
      bodyJson (literalSerde.reads utf8Libraries) "application/json".toList body = some value →
        body.length ≤ maxUserText → Holds (literalSerde.reads utf8Libraries) value path text →
          (∃ name ∈ path, isContentKey name = true) →
            text <:+: userText (literalSerde.reads utf8Libraries) "application/json".toList []
              body := by
  intro keeps
  have holds : Holds (literalSerde.reads utf8Libraries) stateValue ["state".toList, "text".toList]
      "call me".toList :=
    .field List.mem_cons_self (.field List.mem_cons_self (.text nestedJson_typed))
  have kept := keeps _ _ _ _ bodyJson_stateText (by decide +kernel) holds (by decide)
  have skipped : collectJson (literalSerde.reads utf8Libraries) (stateValue.weight + 1) stateValue
      none false [] = [] := by
    have isPlumbing : isPlumbingKey "state".toList = true := by decide
    unfold stateValue
    rw [collectJson_object _ (Nat.zero_le _), List.foldl_cons, List.foldl_nil]
    dsimp only
    rw [isPlumbing, if_pos rfl]
  rw [userText_of_bodyJson bodyJson_stateText, skipped, cap_of_le (Nat.zero_le _),
    List.infix_nil] at kept
  exact absurd kept (by decide)

end Aavishield.UserText
