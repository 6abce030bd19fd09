import Aavishield.Dlp.JsonText

/-!
# JSON on lines

The extraction of JSON looks at the lines first.  When one of them is JSON on its own, only
such lines are read, whether or not they are the whole document.
-/

namespace Aavishield.Dlp

open Text

variable (serde : SerdeJson) (libs : Libraries)

def jsonLines (text : List Char) : List (List Char) :=
  ((text.splitOn '\n').map trimSpace).filter (· ≠ [])

/-- The values of a document: the whole of it, or else one on each line. -/
def documentValues (text : List Char) : Option (List Json) :=
  match readJson text with
  | some value => some [value]
  | none => if jsonLines text = [] then none else (jsonLines text).mapM readJson

/-- Every string, key and number of a document, as it is written. -/
def documentTokens (text : List Char) : List (List Char) :=
  ((documentValues text).getD []).flatMap walkJson

/-- The extraction of a document loses none of its strings, keys and numbers. -/
def KeepsTokens (text : List Char) : Prop :=
  ∀ token ∈ documentTokens text, token <:+: (jsonText (serde.reads libs) text).2

/--
What the crate keeps of a value: all strings and keys, of the fields with one key the last,
and a number as the crate prints it.
-/
inductive SerdeJson.Shows (serde : SerdeJson) : Json → List Char → Prop where
  | string (text : List Char) : Shows serde (.string text) text
  | number (literal printed : List Char) (isPrinted : serde.printed literal = some printed) :
      Shows serde (.number literal) printed
  | item (items : List Json) (item : Json) (token : List Char) (itemMem : item ∈ items)
      (shows : Shows serde item token) : Shows serde (.array items) token
  | key (fields : List (List Char × Json)) (key : List Char) (keyMem : key ∈ fields.map Prod.fst) :
      Shows serde (.object fields) key
  | field (before after : List (List Char × Json)) (key : List Char) (child : Json)
      (token : List Char) (last : key ∉ after.map Prod.fst) (shows : Shows serde child token) :
      Shows serde (.object (before ++ (key, child) :: after)) token

/-- A text is JSON that the crate reads, and the token is one that the crate keeps of it. -/
def SerdeJson.Holds (text token : List Char) : Prop :=
  ∃ value, readJson text = some value ∧ (serde.parse text).isSome ∧ serde.Shows value token

/--
Where a string, a key or a number of a document has to stand: on a line that is JSON on its
own; where no line is, in the document as the crate reads it; and where nothing is to be had
from either, in the text without escapes.
-/
inductive Legible (text token : List Char) : Prop where
  | onLine (line : List Char) (lineMem : line ∈ jsonLines text) (holds : serde.Holds line token)
  | inWhole (noLine : ∀ line ∈ jsonLines text, serde.parse line = none)
      (holds : serde.Holds text token)
  | asWritten (bare : ∀ line ∈ jsonLines text, ∀ shown, ¬serde.Holds line shown)
      (blank : (∀ line ∈ jsonLines text, serde.parse line = none) →
        ∀ shown, ¬serde.Holds text shown)
      (stands : token <:+: text)

/-- No string, key or number of the document happens to stand inside others of it. -/
def SetApart (text : List Char) : Prop :=
  ∀ token ∈ documentTokens text, ∀ others : List (List Char),
    (∀ other ∈ others, ∃ part ∈ text :: jsonLines text, serde.Holds part other) →
      token <:+: joinLines others → token ∈ others

variable {serde libs} {text : List Char}

section Fields

variable {held : List (List Char × Json)} {key : List Char} {value : Json}

/-- The fields of a map, in the order of their keys. -/
def SortedFields (fields : List (List Char × Json)) : Prop :=
  fields.Pairwise fun first second => first.1 < second.1

theorem mem_insertField {field : List Char × Json}
    (fieldMem : field ∈ insertField key value held) : field = (key, value) ∨ field ∈ held := by
  induction held with
  | nil => exact Or.inl (List.mem_singleton.mp fieldMem)
  | cons first rest ih =>
    rw [insertField] at fieldMem
    split_ifs at fieldMem
    · exact (List.mem_cons.mp fieldMem).imp_right (List.mem_cons_of_mem _)
    · exact List.mem_cons.mp fieldMem
    · rcases List.mem_cons.mp fieldMem with rfl | inRest
      · exact Or.inr List.mem_cons_self
      · exact (ih inRest).imp_right (List.mem_cons_of_mem _)

theorem lt_of_not_lt {first second : List Char} (ne : first ≠ second) (notLess : ¬first < second) :
    second < first := by
  by_contra notMore
  exact ne (List.le_antisymm (List.not_lt.mp notMore) (List.not_lt.mp notLess))

theorem SortedFields.insertField (sorted : SortedFields held) :
    SortedFields (insertField key value held) := by
  induction held with
  | nil => exact List.pairwise_singleton _ _
  | cons first rest ih =>
    rcases List.pairwise_cons.mp sorted with ⟨least, sortedRest⟩
    rw [Dlp.insertField]
    split_ifs with same less
    · exact List.pairwise_cons.mpr ⟨fun field fieldMem => same ▸ least field fieldMem, sortedRest⟩
    · refine List.pairwise_cons.mpr ⟨?_, sorted⟩
      intro field fieldMem
      rcases List.mem_cons.mp fieldMem with rfl | inRest
      · exact less
      · exact List.lt_trans less (least field inRest)
    · refine List.pairwise_cons.mpr ⟨?_, ih sortedRest⟩
      intro field fieldMem
      rcases mem_insertField fieldMem with rfl | inRest
      · exact lt_of_not_lt same less
      · exact least field inRest

/-- The last field with a key takes the place of those before it. -/
theorem mem_insertField_iff {field : List Char × Json} (sorted : SortedFields held) :
    field ∈ insertField key value held ↔ field = (key, value) ∨ field ∈ held ∧ field.1 ≠ key := by
  induction held with
  | nil => simp [insertField]
  | cons first rest ih =>
    rcases List.pairwise_cons.mp sorted with ⟨least, sortedRest⟩
    rw [insertField]
    split_ifs with same less
    · have others : ∀ other ∈ rest, other.1 ≠ key := by
        intro other otherMem isKey
        exact List.lt_irrefl _ (same ▸ isKey ▸ least other otherMem)
      rw [List.mem_cons, List.mem_cons]
      constructor
      · exact Or.imp_right fun inRest => ⟨Or.inr inRest, others field inRest⟩
      · rintro (isNew | ⟨rfl | inRest, ne⟩)
        · exact Or.inl isNew
        · exact absurd same.symm ne
        · exact Or.inr inRest
    · rw [List.mem_cons]
      refine or_congr_right ⟨fun fieldMem => ⟨fieldMem, ?_⟩, And.left⟩
      rintro rfl
      rcases List.mem_cons.mp fieldMem with rfl | inRest
      · exact List.lt_irrefl _ less
      · exact List.lt_irrefl _ (List.lt_trans less (least field inRest))
    · rw [List.mem_cons, ih sortedRest, List.mem_cons]
      constructor
      · rintro (rfl | isNew | ⟨inRest, ne⟩)
        · exact Or.inr ⟨Or.inl rfl, Ne.symm same⟩
        · exact Or.inl isNew
        · exact Or.inr ⟨Or.inr inRest, ne⟩
      · rintro (isNew | ⟨isFirst | inRest, ne⟩)
        · exact Or.inr (Or.inl isNew)
        · exact Or.inl isFirst
        · exact Or.inr (Or.inr ⟨inRest, ne⟩)

/-- What a map holds in the end: of every key the last value, and what was there before. -/
theorem mem_keptFields_iff {fields all : List (List Char × Json)} {field : List Char × Json}
    (isKept : serde.keptFields held fields = some all) (sorted : SortedFields held) :
    field ∈ all ↔ (field ∈ held ∧ field.1 ∉ fields.map Prod.fst) ∨
      ∃ before child after, fields = before ++ (field.1, child) :: after ∧
        field.1 ∉ after.map Prod.fst ∧ serde.kept child = some field.2 := by
  induction fields generalizing held with
  | nil =>
    cases isKept
    simp
  | cons first rest ih =>
    rcases first with ⟨key, child⟩
    rw [SerdeJson.keptFields] at isKept
    rcases Option.bind_eq_some_iff.mp isKept with ⟨value, isValue, isKept⟩
    rw [ih isKept sorted.insertField, mem_insertField_iff sorted, List.map_cons, List.mem_cons]
    constructor
    · rintro (⟨rfl | ⟨inHeld, ne⟩, notLater⟩ | ⟨before, other, after, rfl, last, isOther⟩)
      · exact Or.inr ⟨[], child, rest, rfl, notLater, isValue⟩
      · exact Or.inl ⟨inHeld, not_or.mpr ⟨ne, notLater⟩⟩
      · exact Or.inr ⟨(key, child) :: before, other, after, rfl, last, isOther⟩
    · rintro (⟨inHeld, notThere⟩ | ⟨before, other, after, split, last, isOther⟩)
      · exact Or.inl ⟨Or.inr ⟨inHeld, (not_or.mp notThere).1⟩, (not_or.mp notThere).2⟩
      · cases before with
        | nil =>
          rcases List.cons.inj split with ⟨same, rfl⟩
          rcases Prod.mk.inj same with ⟨rfl, rfl⟩
          have isField : value = field.2 := Option.some.inj (isValue.symm.trans isOther)
          exact Or.inl ⟨Or.inl (Prod.ext rfl isField.symm), last⟩
        | cons first before =>
          rcases List.cons.inj split with ⟨-, rfl⟩
          exact Or.inr ⟨before, other, after, rfl, last, isOther⟩

theorem exists_kept_of_keptFields {fields all : List (List Char × Json)}
    (isKept : serde.keptFields held fields = some all) :
    ∀ field ∈ fields, ∃ value, serde.kept field.2 = some value := by
  induction fields generalizing held with
  | nil => simp
  | cons first rest ih =>
    rcases first with ⟨key, child⟩
    rw [SerdeJson.keptFields] at isKept
    rcases Option.bind_eq_some_iff.mp isKept with ⟨value, isValue, isKept⟩
    exact List.forall_mem_cons.mpr ⟨⟨value, isValue⟩, ih isKept⟩

theorem exists_last_field {fields : List (List Char × Json)} (keyMem : key ∈ fields.map Prod.fst) :
    ∃ before child after, fields = before ++ (key, child) :: after ∧
      key ∉ after.map Prod.fst := by
  induction fields with
  | nil => cases keyMem
  | cons first rest ih =>
    by_cases later : key ∈ rest.map Prod.fst
    · rcases ih later with ⟨before, child, after, rfl, last⟩
      exact ⟨first :: before, child, after, rfl, last⟩
    · rcases List.mem_cons.mp keyMem with rfl | inRest
      · exact ⟨[], first.2, rest, rfl, later⟩
      · exact absurd inRest later

theorem exists_of_keptItems {items all : List Json} (isKept : serde.keptItems items = some all) :
    (∀ held ∈ all, ∃ item ∈ items, serde.kept item = some held) ∧
      ∀ item ∈ items, ∃ held ∈ all, serde.kept item = some held := by
  induction items generalizing all with
  | nil =>
    cases isKept
    simp
  | cons item rest ih =>
    rw [SerdeJson.keptItems] at isKept
    rcases Option.bind_eq_some_iff.mp isKept with ⟨first, isFirst, isKept⟩
    rcases Option.bind_eq_some_iff.mp isKept with ⟨others, areOthers, isKept⟩
    cases isKept
    rcases ih areOthers with ⟨ofHeld, ofItem⟩
    constructor
    · refine List.forall_mem_cons.mpr ⟨⟨item, List.mem_cons_self, isFirst⟩, ?_⟩
      intro held heldMem
      rcases ofHeld held heldMem with ⟨other, otherMem, isOther⟩
      exact ⟨other, List.mem_cons_of_mem _ otherMem, isOther⟩
    · refine List.forall_mem_cons.mpr ⟨⟨first, List.mem_cons_self, isFirst⟩, ?_⟩
      intro other otherMem
      rcases ofItem other otherMem with ⟨held, heldMem, isOther⟩
      exact ⟨held, List.mem_cons_of_mem _ heldMem, isOther⟩

end Fields

theorem mem_walkItems {token : List Char} {items : List Json} :
    token ∈ walkItems items ↔ ∃ item ∈ items, token ∈ walkJson item := by
  induction items with
  | nil => simp [walkItems]
  | cons item rest ih => simp [walkItems, ih]

theorem mem_walkFields {token : List Char} {fields : List (List Char × Json)} :
    token ∈ walkFields fields ↔ ∃ field ∈ fields, token = field.1 ∨ token ∈ walkJson field.2 := by
  induction fields with
  | nil => simp [walkFields]
  | cons field rest ih => simp [walkFields, ih, or_assoc]

theorem shows_of_mem_walkJson : ∀ (value held : Json), serde.kept value = some held →
    ∀ token ∈ walkJson held, serde.Shows value token
  | .null, _, isKept, token, tokenMem => by
    cases isKept
    cases tokenMem
  | .bool _, _, isKept, token, tokenMem => by
    cases isKept
    cases tokenMem
  | .string text, _, isKept, token, tokenMem => by
    cases isKept
    rw [List.mem_singleton.mp tokenMem]
    exact .string text
  | .number literal, _, isKept, token, tokenMem => by
    rcases Option.map_eq_some_iff.mp isKept with ⟨printed, isPrinted, rfl⟩
    rw [List.mem_singleton.mp tokenMem]
    exact .number literal printed isPrinted
  | .array items, _, isKept, token, tokenMem => by
    rcases Option.map_eq_some_iff.mp isKept with ⟨all, isAll, rfl⟩
    rcases mem_walkItems.mp tokenMem with ⟨held, heldMem, tokenMem⟩
    rcases (exists_of_keptItems isAll).1 held heldMem with ⟨item, itemMem, isItem⟩
    exact .item items item token itemMem (shows_of_mem_walkJson item held isItem token tokenMem)
  | .object fields, _, isKept, token, tokenMem => by
    rcases Option.map_eq_some_iff.mp isKept with ⟨all, isAll, rfl⟩
    rcases mem_walkFields.mp tokenMem with ⟨⟨key, held⟩, fieldMem, ofField⟩
    rcases (mem_keptFields_iff isAll List.Pairwise.nil).mp fieldMem with
      ⟨fromNone, -⟩ | ⟨before, child, after, parted, last, isChild⟩
    · cases fromNone
    have childMem : (key, child) ∈ fields := by simp [parted]
    rcases ofField with rfl | inChild
    · exact .key _ _ (List.mem_map_of_mem childMem)
    · have shows := shows_of_mem_walkJson child held isChild token inChild
      rw [parted]
      exact .field before after key child token last shows
termination_by value => sizeOf value
decreasing_by
  · have := List.sizeOf_lt_of_mem itemMem
    simp only [Json.array.sizeOf_spec]
    omega
  · have := List.sizeOf_lt_of_mem childMem
    simp only [Json.object.sizeOf_spec, Prod.mk.sizeOf_spec] at this ⊢
    omega

theorem mem_walkJson_of_shows {value : Json} {token : List Char} (shows : serde.Shows value token) :
    ∀ held, serde.kept value = some held → token ∈ walkJson held := by
  induction shows with
  | string text =>
    rintro _ ⟨⟩
    exact List.mem_singleton_self text
  | number literal printed isPrinted =>
    intro held isKept
    rcases Option.map_eq_some_iff.mp isKept with ⟨other, isOther, rfl⟩
    cases isPrinted.symm.trans isOther
    exact List.mem_singleton_self printed
  | item items item token itemMem shows ih =>
    intro held isKept
    rcases Option.map_eq_some_iff.mp isKept with ⟨all, isAll, rfl⟩
    rcases (exists_of_keptItems isAll).2 item itemMem with ⟨held, heldMem, isHeld⟩
    exact mem_walkItems.mpr ⟨held, heldMem, ih held isHeld⟩
  | key fields key keyMem =>
    intro held isKept
    rcases Option.map_eq_some_iff.mp isKept with ⟨all, isAll, rfl⟩
    rcases exists_last_field keyMem with ⟨before, child, after, rfl, last⟩
    rcases exists_kept_of_keptFields isAll (key, child) (by simp) with ⟨value, isValue⟩
    apply mem_walkFields.mpr
    refine ⟨(key, value), ?_, Or.inl rfl⟩
    apply (mem_keptFields_iff isAll List.Pairwise.nil).mpr
    exact Or.inr ⟨before, child, after, rfl, last, isValue⟩
  | field before after key child token last shows ih =>
    intro held isKept
    rcases Option.map_eq_some_iff.mp isKept with ⟨all, isAll, rfl⟩
    rcases exists_kept_of_keptFields isAll (key, child) (by simp) with ⟨value, isValue⟩
    apply mem_walkFields.mpr
    refine ⟨(key, value), ?_, Or.inr (ih value isValue)⟩
    apply (mem_keptFields_iff isAll List.Pairwise.nil).mpr
    exact Or.inr ⟨before, child, after, rfl, last, isValue⟩

theorem mem_parse_iff {token : List Char} :
    token ∈ (serde.parse text).toList.flatMap walkJson ↔ serde.Holds text token := by
  constructor
  · intro tokenMem
    rcases List.mem_flatMap.mp tokenMem with ⟨held, heldMem, tokenMem⟩
    have isParsed : serde.parse text = some held := Option.mem_toList.mp heldMem
    rcases Option.bind_eq_some_iff.mp isParsed with ⟨value, isRead, isKept⟩
    rcases Option.ite_none_right_eq_some.mp isKept with ⟨-, isKept⟩
    exact ⟨value, isRead, by simp [isParsed], shows_of_mem_walkJson value held isKept token tokenMem⟩
  · rintro ⟨value, isRead, isSome, shows⟩
    rcases Option.isSome_iff_exists.mp isSome with ⟨held, isParsed⟩
    refine List.mem_flatMap.mpr ⟨held, Option.mem_toList.mpr isParsed, ?_⟩
    rcases Option.bind_eq_some_iff.mp isParsed with ⟨other, isOther, isKept⟩
    rcases Option.ite_none_right_eq_some.mp isKept with ⟨-, isKept⟩
    cases isRead.symm.trans isOther
    exact mem_walkJson_of_shows shows held isKept

theorem mem_lines_iff {token : List Char} :
    token ∈ ((jsonLines text).filterMap serde.parse).flatMap walkJson ↔
      ∃ line ∈ jsonLines text, serde.Holds line token := by
  simp only [← mem_parse_iff, List.mem_flatMap, List.mem_filterMap, Option.mem_toList]
  constructor
  · rintro ⟨held, ⟨line, lineMem, isParsed⟩, tokenMem⟩
    exact ⟨line, lineMem, held, isParsed, tokenMem⟩
  · rintro ⟨line, lineMem, held, isParsed, tokenMem⟩
    exact ⟨held, ⟨line, lineMem, isParsed⟩, tokenMem⟩

theorem jsonValues_reads : jsonValues (serde.reads libs) text =
    if (jsonLines text).filterMap serde.parse = [] then (serde.parse text).toList
    else (jsonLines text).filterMap serde.parse := by
  have own : (jsonLines text).filterMap (serde.reads libs).parseJson =
      (jsonLines text).filterMap serde.parse := rfl
  rw [jsonValues, ← jsonLines, own]
  cases (jsonLines text).filterMap serde.parse with
  | nil => rfl
  | cons value rest => rfl

/-- What is taken of a document. -/
theorem mem_jsonValues_iff {token : List Char} :
    token ∈ (jsonValues (serde.reads libs) text).flatMap walkJson ↔
      (∃ line ∈ jsonLines text, serde.Holds line token) ∨
        (∀ line ∈ jsonLines text, serde.parse line = none) ∧ serde.Holds text token := by
  rw [jsonValues_reads]
  split_ifs with noLine
  · rw [mem_parse_iff]
    rw [List.filterMap_eq_nil_iff] at noLine
    constructor
    · exact fun holds => Or.inr ⟨noLine, holds⟩
    · rintro (⟨line, lineMem, -, -, isParsed, -⟩ | ⟨-, holds⟩)
      · rw [noLine line lineMem] at isParsed
        cases isParsed
      · exact holds
  · rw [mem_lines_iff]
    rw [List.filterMap_eq_nil_iff] at noLine
    constructor
    · exact Or.inl
    · rintro (onLine | ⟨none, -⟩)
      · exact onLine
      · exact absurd none noLine

theorem jsonText_of_empty
    (empty : (jsonValues (serde.reads libs) text).flatMap walkJson = []) :
    jsonText (serde.reads libs) text = ("json_raw", text) := by
  rw [jsonText, empty]

theorem jsonText_of_nonempty
    (nonempty : (jsonValues (serde.reads libs) text).flatMap walkJson ≠ []) :
    jsonText (serde.reads libs) text =
      ("json", joinLines ((jsonValues (serde.reads libs) text).flatMap walkJson)) := by
  rw [jsonText]
  split
  · rename_i empty
    exact absurd empty nonempty
  · rfl

theorem infix_jsonText_of_legible {token : List Char} (legible : Legible serde text token) :
    token <:+: (jsonText (serde.reads libs) text).2 := by
  have taken : token ∈ (jsonValues (serde.reads libs) text).flatMap walkJson →
      token <:+: (jsonText (serde.reads libs) text).2 := by
    intro tokenMem
    rw [jsonText_of_nonempty (List.ne_nil_of_mem tokenMem)]
    exact infix_joinLines tokenMem
  cases legible with
  | onLine line lineMem holds =>
    exact taken (mem_jsonValues_iff.mpr (Or.inl ⟨line, lineMem, holds⟩))
  | inWhole noLine holds => exact taken (mem_jsonValues_iff.mpr (Or.inr ⟨noLine, holds⟩))
  | asWritten bare blank stands =>
    have nothing : (jsonValues (serde.reads libs) text).flatMap walkJson = [] := by
      apply List.eq_nil_iff_forall_not_mem.mpr
      intro shown shownMem
      rcases mem_jsonValues_iff.mp shownMem with ⟨line, lineMem, holds⟩ | ⟨noLine, holds⟩
      · exact bare line lineMem shown holds
      · exact blank noLine shown holds
    rwa [jsonText_of_empty nothing]

theorem legible_of_infix {token : List Char} (apart : SetApart serde text)
    (tokenMem : token ∈ documentTokens text)
    (kept : token <:+: (jsonText (serde.reads libs) text).2) : Legible serde text token := by
  by_cases nothing : (jsonValues (serde.reads libs) text).flatMap walkJson = []
  · rw [jsonText_of_empty nothing] at kept
    have notTaken := fun shown => List.eq_nil_iff_forall_not_mem.mp nothing shown
    refine .asWritten ?_ ?_ kept
    · exact fun line lineMem shown holds =>
        notTaken shown (mem_jsonValues_iff.mpr (Or.inl ⟨line, lineMem, holds⟩))
    · exact fun noLine shown holds =>
        notTaken shown (mem_jsonValues_iff.mpr (Or.inr ⟨noLine, holds⟩))
  · rw [jsonText_of_nonempty nothing] at kept
    have taken := apart token tokenMem _ (fun other otherMem => ?_) kept
    · rcases mem_jsonValues_iff.mp taken with ⟨line, lineMem, holds⟩ | ⟨noLine, holds⟩
      · exact .onLine line lineMem holds
      · exact .inWhole noLine holds
    · rcases mem_jsonValues_iff.mp otherMem with ⟨line, lineMem, holds⟩ | ⟨-, holds⟩
      · exact ⟨line, List.mem_cons_of_mem _ lineMem, holds⟩
      · exact ⟨text, List.mem_cons_self, holds⟩

/--
A document loses nothing when it is extracted if all its strings, keys and numbers stand where
the extraction looks; and, unless one of them happens to stand inside others, only if they do.
-/
theorem keepsTokens_iff (serde : SerdeJson) (libs : Libraries) (text : List Char) :
    ((∀ token ∈ documentTokens text, Legible serde text token) →
        KeepsTokens serde libs text) ∧
      (SetApart serde text →
        (KeepsTokens serde libs text ↔
          ∀ token ∈ documentTokens text, Legible serde text token)) := by
  have enough : (∀ token ∈ documentTokens text, Legible serde text token) →
      KeepsTokens serde libs text :=
    fun legible token tokenMem => infix_jsonText_of_legible (legible token tokenMem)
  refine ⟨enough, fun apart => ⟨fun keeps token tokenMem => ?_, enough⟩⟩
  exact legible_of_infix apart tokenMem (keeps token tokenMem)

def literalSerde : SerdeJson := ⟨some, 127⟩

/-- A list with one element a line. -/
def listedCards : List Char := "[\n\"4111111111111111\",\n\"x\"\n]".toList

/-- The last value of the list has no comma behind it, so that its line is JSON on its own. -/
theorem not_alwaysKeepsTokens :
    ¬∀ (serde : SerdeJson) (libs : Libraries) (text : List Char),
      KeepsTokens serde libs text := by
  intro keeps
  have isToken : "4111111111111111".toList ∈ documentTokens listedCards := by decide +kernel
  have isRead : (jsonText (literalSerde.reads asciiLibraries) listedCards).2 = "x".toList := by
    decide +kernel
  have found := keeps literalSerde asciiLibraries listedCards _ isToken
  rw [isRead] at found
  exact absurd found.length_le (by decide)

end Aavishield.Dlp
