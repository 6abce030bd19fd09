import Aavishield.Dlp.Renaming

/-!
# The texts of a marked-up document

An HTML page or an XML document is a text with tags in it.  The file compares the runs of
characters between the tags with what the extraction makes of the whole.
-/

namespace Aavishield.Dlp.Tagged

open Text

/-- What references such as `&eacute;` stand for. -/
structure References where
  /-- The five names of XML and the numbers of characters, which `unescape` resolves. -/
  xml : List Char → Option (List Char)
  html : List Char → Option (List Char)
  extends_ : ∀ name value, xml name = some value → html name = some value
  named : ∀ name value, html name = some value → '<' ∉ name

/-- `unescape`, after the start of a name or outside of one; it fails on any other `&`. -/
def unescape (resolve : List Char → Option (List Char)) :
    Option (List Char) → List Char → Option (List Char)
  | none, [] => some []
  | some _, [] => none
  | none, letter :: rest =>
    if letter = '&' then unescape resolve (some []) rest
    else (unescape resolve none rest).map (letter :: ·)
  | some name, letter :: rest =>
    if letter = ';' then
      (resolve name.reverse).bind fun value => (unescape resolve none rest).map (value ++ ·)
    else if letter = '&' then none
    else unescape resolve (some (letter :: name)) rest

def decode (resolve : List Char → Option (List Char)) : Option (List Char) → List Char → List Char
  | none, [] => []
  | some name, [] => '&' :: name.reverse
  | none, letter :: rest =>
    if letter = '&' then decode resolve (some []) rest else letter :: decode resolve none rest
  | some name, letter :: rest =>
    if letter = ';' then
      match resolve name.reverse with
      | some value => value ++ decode resolve none rest
      | none => '&' :: name.reverse ++ ';' :: decode resolve none rest
    else if letter = '&' then '&' :: name.reverse ++ decode resolve (some []) rest
    else decode resolve (some (letter :: name)) rest

/-- What may stand between two texts. -/
inductive Tag where
  /-- After the name come blanks and attributes, in which the reader finds `attributes`. -/
  | start (name layout : List Char) (attributes : List XmlAttribute)
  | empty (name layout : List Char) (attributes : List XmlAttribute)
  | finish (name blanks : List Char)
  | cdata (text : List Char)
  | comment (text : List Char)
  /-- The type of the document, with the entities it declares. -/
  | declaration (text : List Char)
  | instruction (text : List Char)

/-- A tag as it stands in the document. -/
def Tag.written : Tag → List Char
  | .start name layout _ => '<' :: name ++ layout ++ ['>']
  | .empty name layout _ => '<' :: name ++ layout ++ "/>".toList
  | .finish name blanks => "</".toList ++ name ++ blanks ++ ['>']
  | .cdata text => "<![CDATA[".toList ++ text ++ "]]>".toList
  | .comment text => "<!--".toList ++ text ++ "-->".toList
  | .declaration text => "<!".toList ++ text ++ ['>']
  | .instruction text => "<?".toList ++ text ++ "?>".toList

def IsNameStart (letter : Char) : Prop :=
  letter.isAlpha = true ∨ letter = '_' ∨ letter = ':' ∨ 128 ≤ letter.toNat

/-- A name starts with a letter and ends at a blank, a slash or a bracket. -/
def IsName (name : List Char) : Prop :=
  (∃ first rest, name = first :: rest ∧ IsNameStart first) ∧
    ∀ letter ∈ name, isSpace letter = false ∧ letter ∉ ['<', '>', '/', '=', '"', '\'', '&']

/-- No `>` stands outside of quotation marks, and what they open they close. -/
inductive Quoted : List Char → Prop where
  | nil : Quoted []
  | plain (letter : Char) (rest : List Char) (isPlain : letter ∉ ['>', '"', '\''])
      (quoted : Quoted rest) : Quoted (letter :: rest)
  | value (mark : Char) (value rest : List Char) (isMark : mark ∈ ['"', '\''])
      (ends : mark ∉ value) (quoted : Quoted rest) : Quoted (mark :: value ++ mark :: rest)

/-- What stands after a name begins with a blank. -/
def IsLayout (layout : List Char) : Prop :=
  (∀ first rest, layout = first :: rest → isSpace first = true) ∧ Quoted layout

/-- Brackets inside a declaration come in pairs. -/
def Balanced : ℕ → List Char → Prop
  | depth, [] => depth = 0
  | depth, '<' :: rest => Balanced (depth + 1) rest
  | depth, '>' :: rest => 0 < depth ∧ Balanced (depth - 1) rest
  | depth, _ :: rest => Balanced depth rest

/-- A tag ends where it is written to end. -/
def Tag.Lawful : Tag → Prop
  | .start name layout _ => IsName name ∧ IsLayout layout ∧ layout.getLast? ≠ some '/'
  | .empty name layout _ => IsName name ∧ IsLayout layout
  | .finish name blanks => IsName name ∧ ∀ letter ∈ blanks, isSpace letter = true
  | .cdata text => ¬"]]>".toList <:+: text ++ "]]".toList
  | .comment text => ¬"-->".toList <:+: text ++ "--".toList ∧
      text.head? ≠ some '>' ∧ ¬"->".toList <+: text
  | .declaration text => (text.take 7).map Char.toUpper = "DOCTYPE".toList ∧ Balanced 0 text
  | .instruction text => ¬"?>".toList <:+: text ++ ['?'] ∧ text.head? ≠ some '>'

/-- A `<` of a text begins no tag: what follows it starts no name and is not `/`, `!` or `?`. -/
def IsText (text : List Char) : Prop :=
  ∀ before after next, text = before ++ '<' :: next :: after →
    ¬IsNameStart next ∧ next ∉ ['/', '!', '?']

/-- An XML or HTML document: a text, and tags with a text after each. -/
structure Document where
  lead : List Char
  rest : List (Tag × List Char)
  texts : ∀ text ∈ lead :: rest.map Prod.snd, IsText text
  tags : ∀ tag ∈ rest.map Prod.fst, tag.Lawful

def Document.written (document : Document) : List Char :=
  document.lead ++ document.rest.flatMap fun entry => entry.1.written ++ entry.2

def Document.between (document : Document) : List (List Char) :=
  document.lead :: document.rest.map Prod.snd

def Tag.content : Tag → List (List Char)
  | .cdata text => [text]
  | _ => []

def Document.sections (document : Document) : List (List Char) :=
  document.rest.flatMap fun entry => entry.1.content

variable (references : References)

def Document.runs (document : Document) : List (List Char) :=
  trimmedTexts (document.between.map (decode references.html none)) ++
    trimmedTexts document.sections

/-- What the reader delivers at a tag. -/
def Tag.event : Tag → XmlEvent
  | .start name _ attributes => .start name attributes
  | .empty name _ attributes => .empty name attributes
  | .finish name _ => .finish name
  | .cdata text => .cdata text
  | _ => .other

def textEvents (text : List Char) : List XmlEvent :=
  if text = [] then [] else [.text (unescape references.xml none text)]

def Tag.opened : Tag → List (List Char) → Option (List (List Char))
  | .start name _ _, names => some (name :: names)
  | .finish name _, last :: names => if name = last then some names else none
  | .finish _ _, [] => none
  | _, names => some names

def readFrom : List (List Char) → List (Tag × List Char) → XmlReading
  | _, [] => ⟨[], true⟩
  | names, (tag, text) :: rest =>
    match tag.opened names with
    | none => ⟨[], false⟩
    | some names =>
      let reading := readFrom names rest
      ⟨tag.event :: textEvents references text ++ reading.events, reading.complete⟩

def Document.reading (document : Document) : XmlReading :=
  let reading := readFrom references [] document.rest
  ⟨textEvents references document.lead ++ reading.events, reading.complete⟩

/-- No `<` stands for itself. -/
def Document.StrayFree (document : Document) : Prop := ∀ text ∈ document.between, '<' ∉ text

def closing : List (List Char) → List (Tag × List Char) → Option (List (List Char))
  | names, [] => some names
  | names, (tag, _) :: rest => (tag.opened names).bind fun names => closing names rest

def Document.delivered (document : Document) : List (List Char) :=
  (textEvents references document.lead ++ document.rest.flatMap fun entry =>
    entry.1.event :: textEvents references entry.2).flatMap xmlEventTexts

def Document.WellFormed (document : Document) : Prop :=
  closing [] document.rest = some [] ∧ document.delivered references ≠ []

def runOf (text : List Char) : List Char := trimSpace (decode references.html none text)

/-- The runs with a reference that the reader does not know. -/
def Document.refusedRuns (document : Document) : List (List Char) :=
  trimmedTexts ((document.between.filter fun text =>
    (unescape references.xml none text).isNone).map (decode references.html none))

/-- The runs that do not stand in the document as they read, or stand in it as a tag. -/
def Document.maskedRuns (document : Document) : List (List Char) :=
  trimmedTexts ((document.between.filter fun text =>
    ¬('>' ∉ runOf references text ∧ runOf references text <:+: text)).map
      (decode references.html none)) ++
    trimmedTexts document.sections

/-- What taking the tags away may leave of one. -/
def Tag.remainder : Tag → List Char
  | .cdata text => text.dropWhile (· ≠ '>') ++ "]]>".toList
  | tag => tag.written

def Document.leftOver (document : Document) : List Char :=
  (document.lead ++ document.rest.flatMap fun entry => entry.1.remainder ++ entry.2).filter
    (· ∉ ['<', '>'])

/-- Every run of text of the document is in its text. -/
def KeepsRuns (libs : Libraries) (document : Document) : Prop :=
  ∀ run ∈ document.runs references, run <:+: markupText libs (utf8 document.written)

variable {references} {document : Document}

theorem decode_of_unescape {pending : Option (List Char)} {text said : List Char}
    (unescaped : unescape references.xml pending text = some said) :
    decode references.html pending text = said := by
  induction text generalizing pending said with
  | nil =>
    cases pending with
    | none => exact Option.some.inj unescaped
    | some name => cases unescaped
  | cons letter rest ih =>
    cases pending with
    | none =>
      unfold unescape at unescaped
      unfold decode
      split_ifs at unescaped ⊢
      · exact ih unescaped
      · obtain ⟨later, laterSaid, rfl⟩ := Option.map_eq_some_iff.mp unescaped
        rw [ih laterSaid]
    | some name =>
      unfold unescape at unescaped
      unfold decode
      split_ifs at unescaped ⊢
      · obtain ⟨value, resolved, rest⟩ := Option.bind_eq_some_iff.mp unescaped
        obtain ⟨later, laterSaid, rfl⟩ := Option.map_eq_some_iff.mp rest
        simp [references.extends_ _ _ resolved, ih laterSaid]
      · exact ih unescaped

variable {text : List Char}

theorem bracket_mem_decode {pending : Option (List Char)}
    (mem : '<' ∈ text ∨ '<' ∈ pending.getD []) : '<' ∈ decode references.html pending text := by
  induction text generalizing pending with
  | nil =>
    cases pending with
    | none => simp at mem
    | some name => simpa [decode] using mem
  | cons letter rest ih =>
    cases pending with
    | none =>
      simp only [Option.getD_none, List.not_mem_nil, or_false, List.mem_cons] at mem
      unfold decode
      split_ifs with reference
      · rcases mem with rfl | mem
        · simp at reference
        · exact ih (.inl mem)
      · rcases mem with rfl | mem
        · exact List.mem_cons_self
        · exact List.mem_cons_of_mem _ (ih (.inl mem))
    | some name =>
      simp only [Option.getD_some, List.mem_cons] at mem
      unfold decode
      split_ifs with ends another
      · subst ends
        have cases : '<' ∈ rest ∨ '<' ∈ name := by simpa using mem
        split
        · rename_i value resolved
          have outside := references.named _ _ resolved
          rw [List.mem_reverse] at outside
          exact List.mem_append_right _ (ih (.inl (cases.resolve_right outside)))
        · rcases cases with later | inName
          · have kept : '<' ∈ decode references.html none rest := ih (.inl later)
            simp [kept]
          · simp [inName]
      · subst another
        have cases : '<' ∈ rest ∨ '<' ∈ name := by simpa using mem
        rcases cases with later | inName
        · have kept : '<' ∈ decode references.html (some []) rest := ih (.inl later)
          simp [kept]
        · simp [inName]
      · apply ih
        rcases mem with (rfl | mem) | mem
        · right
          simp
        · exact .inl mem
        · right
          simp [mem]

theorem bracket_notMem_stripTags {inTag : Bool} :
    '<' ∉ stripTags inTag text := by
  induction text generalizing inTag with
  | nil => simp [stripTags]
  | cons letter rest ih =>
    unfold stripTags
    split_ifs with opens closes inside
    · exact ih
    · exact ih
    · exact ih
    · rintro mem
      rcases List.mem_cons.mp mem with rfl | mem
      · exact opens rfl
      · exact ih mem

theorem stripTags_append_closed {inTag : Bool} {front back : List Char} :
    stripTags inTag (front ++ '>' :: back) =
      stripTags inTag (front ++ ['>']) ++ stripTags false back := by
  induction front generalizing inTag with
  | nil => simp [stripTags]
  | cons letter rest ih =>
    simp only [List.cons_append, stripTags]
    split_ifs
    · exact ih
    · exact ih
    · exact ih
    · rw [ih, List.cons_append]

theorem stripTags_append_text {text back : List Char} (opens : '<' ∉ text) :
    stripTags false (text ++ back) = text.filter (· ≠ '>') ++ stripTags false back := by
  induction text with
  | nil => rfl
  | cons letter rest ih =>
    simp only [List.mem_cons, not_or] at opens
    rw [List.cons_append, stripTags, if_neg (Ne.symm opens.1), ih opens.2]
    by_cases closes : letter = '>'
    · simp [closes]
    · simp [closes]

theorem written_tag (tag : Tag) : ∃ front, tag.written = front ++ ['>'] := by
  unfold Tag.written
  cases tag with
  | start name layout attributes | finish name blanks | declaration text => exact ⟨_, rfl⟩
  | empty name layout attributes =>
    have ending : "/>".toList = "/".toList ++ ['>'] := by decide
    simp only [ending, ← List.append_assoc]
    exact ⟨_, rfl⟩
  | cdata text =>
    have ending : "]]>".toList = "]]".toList ++ ['>'] := by decide
    simp only [ending, ← List.append_assoc]
    exact ⟨_, rfl⟩
  | comment text =>
    have ending : "-->".toList = "--".toList ++ ['>'] := by decide
    simp only [ending, ← List.append_assoc]
    exact ⟨_, rfl⟩
  | instruction text =>
    have ending : "?>".toList = "?".toList ++ ['>'] := by decide
    simp only [ending, ← List.append_assoc]
    exact ⟨_, rfl⟩

theorem filter_infix_stripTags (mem : text ∈ document.between) (opens : '<' ∉ text) :
    text.filter (· ≠ '>') <:+: stripTags false document.written := by
  unfold Document.between at mem
  unfold Document.written
  rcases List.mem_cons.mp mem with rfl | later
  · rw [stripTags_append_text opens]
    exact (List.prefix_append _ _).isInfix
  · obtain ⟨⟨tag, text⟩, pairMem, rfl⟩ := List.mem_map.mp later
    obtain ⟨before, after, split⟩ := List.append_of_mem pairMem
    obtain ⟨front, ends⟩ := written_tag tag
    have bracket : document.lead ++ document.rest.flatMap (fun entry => entry.1.written ++ entry.2) =
        (document.lead ++ before.flatMap (fun entry => entry.1.written ++ entry.2) ++ front) ++
          '>' :: (text ++ after.flatMap fun entry => entry.1.written ++ entry.2) := by
      rw [split, List.flatMap_append, List.flatMap_cons, ends]
      simp
    rw [bracket, stripTags_append_closed, stripTags_append_text opens]
    exact ⟨_, _, (List.append_assoc _ _ _)⟩

/-- What stands in a text as it reads, and without a bracket, is not taken away. -/
theorem infix_stripTags {run : List Char} (mem : text ∈ document.between) (opens : '<' ∉ text)
    (closes : '>' ∉ run) (stands : run <:+: text) : run <:+: stripTags false document.written := by
  refine List.IsInfix.trans ?_ (filter_infix_stripTags mem opens)
  have kept : run.filter (· ≠ '>') = run := by
    apply List.filter_eq_self.mpr
    rintro letter letterMem
    simpa using ne_of_mem_of_not_mem letterMem closes
  rw [← kept]
  exact stands.filter _

theorem notMem_stripTags {inTag : Bool} : '>' ∉ stripTags inTag text := by
  induction text generalizing inTag with
  | nil => simp [stripTags]
  | cons letter rest ih =>
    unfold stripTags
    split_ifs with opens closes inside
    · exact ih
    · exact ih
    · exact ih
    · exact List.not_mem_cons_of_ne_of_not_mem (Ne.symm closes) ih

theorem stripTags_sublist {inTag : Bool} : (stripTags inTag text).Sublist text := by
  induction text generalizing inTag with
  | nil => exact List.Sublist.refl _
  | cons letter rest ih =>
    unfold stripTags
    split_ifs
    · exact ih.cons _
    · exact ih.cons _
    · exact ih.cons _
    · exact ih.cons_cons _

theorem stripTags_sublist_dropWhile :
    (stripTags true text).Sublist (text.dropWhile (· ≠ '>')) := by
  induction text with
  | nil => exact List.Sublist.refl _
  | cons letter rest ih =>
    by_cases closes : letter = '>'
    · rw [stripTags, if_neg (by simp [closes]), if_pos closes, List.dropWhile_cons_of_neg]
      · exact stripTags_sublist.cons _
      · simp [closes]
    · rw [List.dropWhile_cons_of_pos (by simp [closes])]
      have inside : stripTags true (letter :: rest) = stripTags true rest := by
        simp [stripTags, closes]
      rwa [inside]

theorem exists_stripTags_append (inTag : Bool) (front back : List Char) :
    ∃ inside, stripTags inTag (front ++ back) = stripTags inTag front ++ stripTags inside back := by
  induction front generalizing inTag with
  | nil => exact ⟨inTag, rfl⟩
  | cons letter rest ih =>
    simp only [List.cons_append, stripTags]
    split_ifs
    · exact ih _
    · exact ih _
    · exact ih _
    · obtain ⟨inside, split⟩ := ih inTag
      exact ⟨inside, by rw [split, List.cons_append]⟩

theorem stripTags_shut_sublist (inTag : Bool) {opening : List Char} (text closing : List Char)
    (passes : opening.dropWhile (· ≠ '>') = []) :
    (stripTags inTag ('<' :: opening ++ text ++ closing)).Sublist
      (text.dropWhile (· ≠ '>') ++ closing) := by
  rw [List.append_assoc, List.cons_append, stripTags, if_pos rfl]
  refine stripTags_sublist_dropWhile.trans ?_
  rw [List.dropWhile_append, passes, List.dropWhile_append]
  simp only [List.isEmpty_nil, if_true]
  split_ifs with ends
  · rw [List.isEmpty_iff.mp ends, List.nil_append]
    exact List.dropWhile_sublist _
  · exact List.Sublist.refl _

theorem stripTags_written_sublist {inTag : Bool} (tag : Tag) :
    (stripTags inTag tag.written).Sublist tag.remainder := by
  cases tag with
  | cdata text =>
    have opening : "<![CDATA[".toList = '<' :: "![CDATA[".toList := by decide
    have passes : "![CDATA[".toList.dropWhile (· ≠ '>') = [] := by decide
    have sublist := stripTags_shut_sublist inTag text "]]>".toList passes
    rw [← opening] at sublist
    exact sublist
  | _ => exact stripTags_sublist

theorem stripTags_rest_sublist {inTag : Bool} (rest : List (Tag × List Char)) :
    (stripTags inTag (rest.flatMap fun entry => entry.1.written ++ entry.2)).Sublist
      (rest.flatMap fun entry => entry.1.remainder ++ entry.2) := by
  induction rest generalizing inTag with
  | nil => exact List.Sublist.refl _
  | cons entry rest ih =>
    rw [List.flatMap_cons, List.flatMap_cons, List.append_assoc, List.append_assoc]
    obtain ⟨inside, tag⟩ := exists_stripTags_append inTag entry.1.written
      (entry.2 ++ rest.flatMap fun entry => entry.1.written ++ entry.2)
    obtain ⟨inRest, text⟩ := exists_stripTags_append inside entry.2
      (rest.flatMap fun entry => entry.1.written ++ entry.2)
    rw [tag, text]
    exact (stripTags_written_sublist _).append (stripTags_sublist.append ih)

theorem mem_leftOver {letter : Char} (mem : letter ∈ stripTags false document.written) :
    letter ∈ document.leftOver := by
  have outside : letter ∉ ['<', '>'] := by
    simp only [List.mem_cons, List.not_mem_nil, or_false, not_or]
    exact ⟨fun same => bracket_notMem_stripTags (same ▸ mem), fun same => notMem_stripTags (same ▸ mem)⟩
  refine List.mem_filter.mpr ⟨?_, decide_eq_true outside⟩
  obtain ⟨inside, split⟩ := exists_stripTags_append false document.lead
    (document.rest.flatMap fun entry => entry.1.written ++ entry.2)
  rw [Document.written, split] at mem
  exact (stripTags_sublist.append (stripTags_rest_sublist _)).subset mem

theorem textEvents_depth (text : List Char) :
    ((textEvents references text).map xmlEventDepth).sum = 0 := by
  unfold textEvents
  split_ifs <;> simp [xmlEventDepth]

theorem depth_of_opened {tag : Tag} {names after : List (List Char)}
    (opened : tag.opened names = some after) :
    xmlEventDepth tag.event = after.length - names.length := by
  cases tag with
  | start name layout attributes =>
    cases opened
    simp [Tag.event, xmlEventDepth]
  | finish name blanks =>
    cases names with
    | nil => cases opened
    | cons last names =>
      simp only [Tag.opened, Option.ite_none_right_eq_some] at opened
      cases opened.2
      simp [Tag.event, xmlEventDepth]
  | _ =>
    cases opened
    simp [Tag.event, xmlEventDepth]

theorem complete_readFrom (names : List (List Char)) (rest : List (Tag × List Char)) :
    (readFrom references names rest).complete = (closing names rest).isSome := by
  induction rest generalizing names with
  | nil => rfl
  | cons entry rest ih =>
    obtain ⟨tag, text⟩ := entry
    unfold readFrom closing
    cases tag.opened names with
    | none => rfl
    | some after => exact ih after

variable (references) in
theorem events_readFrom {names final : List (List Char)} {rest : List (Tag × List Char)}
    (closes : closing names rest = some final) :
    (readFrom references names rest).events = (rest.flatMap fun entry =>
        entry.1.event :: textEvents references entry.2) ∧
      ((readFrom references names rest).events.map xmlEventDepth).sum =
        final.length - names.length := by
  induction rest generalizing names with
  | nil =>
    cases closes
    simp [readFrom]
  | cons entry rest ih =>
    obtain ⟨tag, text⟩ := entry
    obtain ⟨after, opened, closes⟩ := Option.bind_eq_some_iff.mp closes
    obtain ⟨events, depth⟩ := ih closes
    unfold readFrom
    simp only [opened]
    refine ⟨?_, ?_⟩
    · rw [events, List.flatMap_cons]
    · rw [List.map_append, List.map_cons, List.sum_append, List.sum_cons, depth,
        textEvents_depth, depth_of_opened opened]
      omega

variable {libs : Libraries}

/-- The reader gives the events that its documentation says. -/
def Document.Documented (references : References) (libs : Libraries) (document : Document) :
    Prop :=
  document.StrayFree →
    libs.readXml (utf8 document.written) = document.reading references

theorem xmlText_eq_ite (data : Bytes) :
    xmlText libs data =
      if (libs.readXml data).complete = true ∧
          ((libs.readXml data).events.map xmlEventDepth).sum = 0 ∧
            (libs.readXml data).events.flatMap xmlEventTexts ≠ [] then
        some (joinLines ((libs.readXml data).events.flatMap xmlEventTexts))
      else none := by
  unfold xmlText
  simp only [← List.sum_eq_foldl]
  by_cases accepted : (libs.readXml data).complete = true ∧
      ((libs.readXml data).events.map xmlEventDepth).sum = 0 ∧
        (libs.readXml data).events.flatMap xmlEventTexts ≠ []
  · rw [if_pos accepted, if_neg (by simpa [and_assoc] using accepted)]
  · rw [if_neg accepted, if_pos]
    by_contra notRefused
    exact accepted (by simpa [and_assoc] using notRefused)

theorem depth_reading {document : Document} {final : List (List Char)}
    (closes : closing [] document.rest = some final) :
    ((document.reading references).events.map xmlEventDepth).sum = final.length := by
  have depth := (events_readFrom references closes).2
  simp only [Document.reading, List.map_append, List.sum_append, textEvents_depth, depth]
  simp

theorem texts_reading {document : Document} {final : List (List Char)}
    (closes : closing [] document.rest = some final) :
    (document.reading references).events.flatMap xmlEventTexts = document.delivered references := by
  have events := (events_readFrom references closes).1
  simp only [Document.reading, events]
  rfl

theorem xmlText_eq (documented : document.Documented references libs)
    (strayFree : document.StrayFree) :
    (document.WellFormed references →
      xmlText libs (utf8 document.written) = some (joinLines (document.delivered references))) ∧
    (¬document.WellFormed references → xmlText libs (utf8 document.written) = none) := by
  rw [xmlText_eq_ite, documented strayFree]
  have complete : (document.reading references).complete = (closing [] document.rest).isSome :=
    complete_readFrom [] document.rest
  constructor
  · rintro ⟨closes, nonempty⟩
    rw [texts_reading closes, depth_reading closes, complete, closes]
    simp [nonempty]
  · intro notWellFormed
    rw [if_neg]
    rintro ⟨isComplete, balanced, nonempty⟩
    rw [complete] at isComplete
    obtain ⟨final, closes⟩ := Option.isSome_iff_exists.mp isComplete
    rw [texts_reading closes] at nonempty
    rw [depth_reading closes] at balanced
    have closed : final = [] := List.eq_nil_of_length_eq_zero (by omega)
    exact notWellFormed ⟨closed ▸ closes, nonempty⟩

variable {run : List Char}

theorem mem_trimmedTexts {texts : List (List Char)} :
    run ∈ trimmedTexts texts ↔ run ≠ [] ∧ ∃ text ∈ texts, trimSpace text = run := by
  simp [trimmedTexts, and_comm]

theorem mem_refusedRuns :
    run ∈ document.refusedRuns references ↔ run ≠ [] ∧ ∃ text ∈ document.between,
      unescape references.xml none text = none ∧
        trimSpace (decode references.html none text) = run := by
  simp [Document.refusedRuns, mem_trimmedTexts, and_assoc]

theorem mem_joinLines {letter : Char} {texts : List (List Char)} (mem : letter ∈ joinLines texts) :
    letter = '\n' ∨ ∃ text ∈ texts, letter ∈ text := by
  induction texts with
  | nil => exact absurd mem List.not_mem_nil
  | cons text rest ih =>
    by_cases more : rest = []
    · subst more
      exact .inr ⟨text, List.mem_cons_self, by simpa [joinLines] using mem⟩
    · rw [joinLines_cons more] at mem
      rcases List.mem_append.mp mem with inText | later
      · exact .inr ⟨text, List.mem_cons_self, inText⟩
      · rcases List.mem_cons.mp later with isBreak | later
        · exact .inl isBreak
        · refine (ih later).imp_right ?_
          rintro ⟨other, otherMem, inOther⟩
          exact ⟨other, List.mem_cons_of_mem _ otherMem, inOther⟩

theorem mem_runs :
    run ∈ document.runs references ↔ run ≠ [] ∧
      ((∃ text ∈ document.between, trimSpace (decode references.html none text) = run) ∨
        ∃ text ∈ document.sections, trimSpace text = run) := by
  simp only [Document.runs, List.mem_append, mem_trimmedTexts, ← and_or_left]
  simp

theorem mem_maskedRuns :
    run ∈ document.maskedRuns references ↔ run ≠ [] ∧
      ((∃ text ∈ document.between, ('>' ∈ run ∨ ¬run <:+: text) ∧ runOf references text = run) ∨
          ∃ text ∈ document.sections, trimSpace text = run) := by
  simp only [Document.maskedRuns, List.mem_append, mem_trimmedTexts, ← and_or_left]
  refine and_congr_right fun _ => or_congr_left ?_
  constructor
  · rintro ⟨said, saidMem, rfl⟩
    obtain ⟨text, textMem, rfl⟩ := List.mem_map.mp saidMem
    obtain ⟨mem, masked⟩ := List.mem_filter.mp textMem
    refine ⟨text, mem, ?_, rfl⟩
    by_contra notMasked
    exact of_decide_eq_true masked (not_or.mp notMasked |>.imp_right not_not.mp)
  · rintro ⟨text, mem, masked, rfl⟩
    refine ⟨_, List.mem_map_of_mem (List.mem_filter.mpr ⟨mem, ?_⟩), rfl⟩
    apply decide_eq_true
    rintro ⟨closes, stands⟩
    exact masked.elim closes fun apart => apart stands

theorem mem_delivered_of_unescape {text said : List Char} (mem : text ∈ document.between)
    (unescaped : unescape references.xml none text = some said) (nonempty : trimSpace said ≠ []) :
    trimSpace said ∈ document.delivered references := by
  have written : text ≠ [] := by
    rintro rfl
    cases unescaped
    exact nonempty rfl
  have inEvents : trimSpace said ∈ (textEvents references text).flatMap xmlEventTexts := by
    simp [textEvents, written, unescaped, xmlEventTexts, trimmedTexts, nonempty]
  unfold Document.delivered
  rw [List.flatMap_append, List.mem_append]
  unfold Document.between at mem
  rcases List.mem_cons.mp mem with rfl | later
  · exact .inl inEvents
  · obtain ⟨entry, entryMem, rfl⟩ := List.mem_map.mp later
    right
    rw [List.flatMap_assoc]
    refine List.mem_flatMap.mpr ⟨entry, entryMem, ?_⟩
    rw [List.flatMap_cons]
    exact List.mem_append_right _ inEvents

theorem mem_delivered_of_section (mem : text ∈ document.sections)
    (nonempty : trimSpace text ≠ []) : trimSpace text ∈ document.delivered references := by
  obtain ⟨⟨tag, after⟩, entryMem, inTag⟩ := List.mem_flatMap.mp mem
  unfold Document.delivered
  rw [List.flatMap_append, List.mem_append, List.flatMap_assoc]
  right
  refine List.mem_flatMap.mpr ⟨_, entryMem, ?_⟩
  cases tag with
  | cdata said =>
    cases List.mem_singleton.mp inTag
    simp [Tag.event, xmlEventTexts, trimmedTexts, nonempty]
  | _ => cases inTag

theorem keepsRuns_of_wellFormed (documented : document.Documented references libs)
    (strayFree : document.StrayFree) (wellFormed : document.WellFormed references) :
    KeepsRuns references libs document ↔
      ∀ run ∈ document.refusedRuns references, run <:+: joinLines (document.delivered references) := by
  have extracted : markupText libs (utf8 document.written) =
      joinLines (document.delivered references) := by
    rw [markupText, (xmlText_eq documented strayFree).1 wellFormed]
    rfl
  unfold KeepsRuns
  rw [extracted]
  constructor
  · intro kept run mem
    obtain ⟨nonempty, text, textMem, -, said⟩ := mem_refusedRuns.mp mem
    exact kept run (mem_runs.mpr ⟨nonempty, .inl ⟨text, textMem, said⟩⟩)
  · intro spared run mem
    obtain ⟨nonempty, ⟨text, textMem, said⟩ | ⟨text, textMem, said⟩⟩ := mem_runs.mp mem
    · cases unescaped : unescape references.xml none text with
      | none => exact spared run (mem_refusedRuns.mpr ⟨nonempty, text, textMem, unescaped, said⟩)
      | some value =>
        rw [decode_of_unescape unescaped] at said
        subst said
        exact infix_joinLines (mem_delivered_of_unescape textMem unescaped nonempty)
    · subst said
      exact infix_joinLines (mem_delivered_of_section textMem nonempty)

theorem keepsRuns_of_malformed (documented : document.Documented references libs)
    (strayFree : document.StrayFree) (malformed : ¬document.WellFormed references) :
    KeepsRuns references libs document ↔
      ∀ run ∈ document.maskedRuns references, run <:+: stripTags false document.written := by
  have extracted : markupText libs (utf8 document.written) =
      stripTags false document.written := by
    rw [markupText, (xmlText_eq documented strayFree).2 malformed, decodeBestEffort_utf8]
    rfl
  unfold KeepsRuns
  rw [extracted]
  constructor
  · intro kept run mem
    obtain ⟨nonempty, ⟨text, textMem, -, said⟩ | inSection⟩ := mem_maskedRuns.mp mem
    · exact kept run (mem_runs.mpr ⟨nonempty, .inl ⟨text, textMem, said⟩⟩)
    · exact kept run (mem_runs.mpr ⟨nonempty, .inr inSection⟩)
  · intro spared run mem
    obtain ⟨nonempty, ⟨text, textMem, said⟩ | inSection⟩ := mem_runs.mp mem
    · by_cases masked : '>' ∈ run ∨ ¬run <:+: text
      · exact spared run (mem_maskedRuns.mpr ⟨nonempty, .inl ⟨text, textMem, masked, said⟩⟩)
      · obtain ⟨closes, stands⟩ := not_or.mp masked
        exact infix_stripTags textMem (strayFree text textMem) closes (not_not.mp stands)
    · exact spared run (mem_maskedRuns.mpr ⟨nonempty, .inr inSection⟩)

theorem mem_dropWhile_isSpace {letter : Char} (mem : letter ∈ text)
    (visible : isSpace letter = false) : letter ∈ text.dropWhile isSpace := by
  induction text with
  | nil => simp at mem
  | cons first rest ih =>
    rw [List.dropWhile_cons]
    split_ifs with space
    · rcases List.mem_cons.mp mem with rfl | mem
      · simp [visible] at space
      · exact ih mem
    · exact mem

theorem mem_trimSpace {letter : Char} (mem : letter ∈ text)
    (visible : isSpace letter = false) : letter ∈ trimSpace text := by
  unfold trimSpace
  rw [List.mem_reverse]
  apply mem_dropWhile_isSpace _ visible
  rw [List.mem_reverse]
  exact mem_dropWhile_isSpace mem visible

/--
No text has a `<` that begins no tag.  If the document is well formed, the reader knows every
reference in a text that shows anything; otherwise every such text reads as it is written,
without `>`, and no CDATA section shows anything.
-/
structure Document.Clean (references : References) (document : Document) : Prop where
  strayFree : document.StrayFree
  known : document.WellFormed references → document.refusedRuns references = []
  plain : ¬document.WellFormed references → document.maskedRuns references = []

/--
No run that is lost happens to stand elsewhere: it has a letter that the rest of the document
lacks.  Of a document with a stray `<` the reader delivers no text with that letter.
-/
structure Document.SetApart (references : References) (libs : Libraries)
    (document : Document) : Prop where
  stray : ¬document.StrayFree → ∀ said ∈
    (libs.readXml (utf8 document.written)).events.flatMap xmlEventTexts, '<' ∉ said
  refused : document.WellFormed references → ∀ run ∈ document.refusedRuns references,
    ∃ letter ∈ run, isSpace letter = false ∧ ∀ said ∈ document.delivered references, letter ∉ said
  masked : ¬document.WellFormed references → ∀ run ∈ document.maskedRuns references,
    ∃ letter ∈ run, letter ∉ document.leftOver

theorem keepsRuns_of_clean (documented : document.Documented references libs)
    (clean : document.Clean references) : KeepsRuns references libs document := by
  by_cases wellFormed : document.WellFormed references
  · apply (keepsRuns_of_wellFormed documented clean.strayFree wellFormed).mpr
    simp [clean.known wellFormed]
  · apply (keepsRuns_of_malformed documented clean.strayFree wellFormed).mpr
    simp [clean.plain wellFormed]

theorem strayFree_of_keepsRuns (apart : document.SetApart references libs)
    (kept : KeepsRuns references libs document) : document.StrayFree := by
  by_contra stray
  have outside := apart.stray stray
  unfold Document.StrayFree at stray
  push Not at stray
  obtain ⟨text, textMem, bracket⟩ := stray
  have inRun : '<' ∈ trimSpace (decode references.html none text) :=
    mem_trimSpace (bracket_mem_decode (.inl bracket)) (by decide)
  have stands := kept _ (mem_runs.mpr ⟨List.ne_nil_of_mem inRun, .inl ⟨text, textMem, rfl⟩⟩)
  rw [markupText, xmlText_eq_ite] at stands
  split_ifs at stands
  · rcases mem_joinLines (stands.subset inRun) with isBreak | ⟨said, saidMem, inSaid⟩
    · exact absurd isBreak (by decide)
    · exact outside said saidMem inSaid
  · exact bracket_notMem_stripTags (stands.subset inRun)

theorem clean_of_keepsRuns (documented : document.Documented references libs)
    (apart : document.SetApart references libs)
    (kept : KeepsRuns references libs document) : document.Clean references where
  strayFree := strayFree_of_keepsRuns apart kept
  known wellFormed := by
    have strayFree := strayFree_of_keepsRuns apart kept
    apply List.eq_nil_iff_forall_not_mem.mpr
    intro run runMem
    obtain ⟨letter, inRun, visible, nowhere⟩ := apart.refused wellFormed run runMem
    have stands := (keepsRuns_of_wellFormed documented strayFree wellFormed).mp kept run runMem
    rcases mem_joinLines (stands.subset inRun) with rfl | ⟨said, saidMem, inSaid⟩
    · exact absurd visible (by decide)
    · exact nowhere said saidMem inSaid
  plain malformed := by
    have strayFree := strayFree_of_keepsRuns apart kept
    apply List.eq_nil_iff_forall_not_mem.mpr
    intro run runMem
    obtain ⟨letter, inRun, nowhere⟩ := apart.masked malformed run runMem
    have stands := (keepsRuns_of_malformed documented strayFree malformed).mp kept run runMem
    exact nowhere (mem_leftOver (stands.subset inRun))

/--
Every run of a clean document stands in what is extracted; and unless a run that is lost happens
to stand elsewhere, the runs of no other document do.
-/
theorem keepsRuns_iff (references : References) (libs : Libraries) (document : Document)
    (documented : document.Documented references libs) :
    (document.Clean references → KeepsRuns references libs document) ∧
      (document.SetApart references libs →
        (KeepsRuns references libs document ↔ document.Clean references)) := by
  refine ⟨keepsRuns_of_clean documented, fun apart => ⟨?_, keepsRuns_of_clean documented⟩⟩
  exact clean_of_keepsRuns documented apart

def xmlNames : List (List Char × List Char) :=
  [("lt".toList, ['<']), ("gt".toList, ['>']), ("amp".toList, ['&']), ("apos".toList, ['\'']),
    ("quot".toList, ['"'])]

def htmlNames : List (List Char × List Char) := xmlNames ++ [("eacute".toList, ['é'])]

def someReferences : References where
  xml name := xmlNames.lookup name
  html name := htmlNames.lookup name
  extends_ name value known := by
    simp [htmlNames, List.lookup_append, known]
  named name value known := by
    obtain ⟨before, after, split, -⟩ := List.lookup_eq_some_iff.mp known
    have all : ∀ entry ∈ htmlNames, '<' ∉ entry.1 := by decide
    exact all (name, value) (by simp [split])

theorem isText_of_notMem (opens : '<' ∉ text) : IsText text := by
  rintro before after next rfl
  simp at opens

theorem Quoted.plainly {front rest : List Char} (plain : ∀ letter ∈ front, letter ∉ ['>', '"', '\''])
    (quoted : Quoted rest) : Quoted (front ++ rest) := by
  induction front with
  | nil => exact quoted
  | cons letter front ih =>
    exact .plain letter _ (plain letter List.mem_cons_self)
      (ih fun other otherMem => plain other (List.mem_cons_of_mem _ otherMem))

theorem isName_p : IsName ['p'] := ⟨⟨'p', [], rfl, .inl (by decide)⟩, by simp [isSpace]⟩

theorem isName_br : IsName ['b', 'r'] := ⟨⟨'b', ['r'], rfl, .inl (by decide)⟩, by simp [isSpace]⟩

/-- A page with a reference that only HTML knows. -/
def cafe : Document where
  lead := []
  rest := [(.start ['p'] [] [], ['x']), (.empty ['b', 'r'] [' '] [],
    "caf&eacute; 4111111111111111".toList), (.finish ['p'] [], [])]
  texts := by
    intro text mem
    apply isText_of_notMem
    revert text
    decide
  tags := by
    have blank : IsLayout [' '] := ⟨by simp [isSpace], .plain _ _ (by decide) .nil⟩
    have none : IsLayout [] := ⟨nofun, .nil⟩
    simp [Tag.Lawful, isName_p, isName_br, blank, none]

/-- An XML document with all that the reader knows. -/
def tidy : Document where
  lead := []
  rest := [(.instruction "xml version='1.0'".toList, ['\n']),
    (.start ['p'] " title='a > b'".toList [⟨"title".toList, "a > b".toList, some "a > b".toList⟩],
      "1 &lt; 2".toList), (.finish ['p'] [], [])]
  texts := by
    intro text mem
    apply isText_of_notMem
    revert text
    decide
  tags := by
    have value : Quoted "'a > b'".toList :=
      .value '\'' "a > b".toList [] (by decide) (by decide) .nil
    have layout : IsLayout " title='a > b'".toList :=
      ⟨by simp [isSpace], @Quoted.plainly " title=".toList _ (by simp) value⟩
    have none : IsLayout [] := ⟨nofun, .nil⟩
    have instruction : (Tag.instruction "xml version='1.0'".toList).Lawful := by
      unfold Tag.Lawful
      decide
    simp only [List.map_cons, List.map_nil, List.forall_mem_cons, List.not_mem_nil]
    exact ⟨instruction, ⟨isName_p, layout, by decide⟩, ⟨isName_p, by simp⟩, by simp⟩

def readingLibraries (document : Document) : Libraries :=
  { asciiLibraries with readXml := fun _ => document.reading someReferences }

theorem keepsRuns_iff_tidy :
    KeepsRuns someReferences (readingLibraries tidy) tidy ∧
      ¬KeepsRuns someReferences (readingLibraries cafe) cafe := by
  have wellFormed : tidy.WellFormed someReferences := by
    unfold Document.WellFormed
    decide
  have clean : tidy.Clean someReferences :=
    ⟨by unfold Document.StrayFree; decide, fun _ => by decide, fun malformed => absurd wellFormed malformed⟩
  have cafeWellFormed : cafe.WellFormed someReferences := by
    unfold Document.WellFormed
    decide
  have apart : cafe.SetApart someReferences (readingLibraries cafe) := by
    refine ⟨fun stray => absurd ?_ stray, fun _ run runMem => ⟨'é', ?_⟩,
      fun malformed => absurd cafeWellFormed malformed⟩
    · unfold Document.StrayFree
      decide
    · have isRun : run = "café 4111111111111111".toList := by
        have runs : cafe.refusedRuns someReferences = ["café 4111111111111111".toList] := by decide
        simpa [runs] using runMem
      rw [isRun]
      decide
  refine ⟨(keepsRuns_iff _ _ tidy fun _ => rfl).1 clean, fun kept => ?_⟩
  have isClean := ((keepsRuns_iff _ _ cafe fun _ => rfl).2 apart).mp kept
  exact absurd (isClean.known cafeWellFormed) (by decide)

/-- An entity of HTML is not known to the reader. -/
theorem not_alwaysKeepsRuns :
    ¬∀ (references : References) (libs : Libraries) (document : Document),
      document.Documented references libs → KeepsRuns references libs document := by
  intro always
  have said : "café 4111111111111111".toList ∈ cafe.runs someReferences := by decide +kernel
  have lost : ¬"café 4111111111111111".toList <:+:
      markupText (readingLibraries cafe) (utf8 cafe.written) := by
    decide +kernel
  exact lost (always someReferences (readingLibraries cafe) cafe (fun _ => rfl) _ said)

end Aavishield.Dlp.Tagged
