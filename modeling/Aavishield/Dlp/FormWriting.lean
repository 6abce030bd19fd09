import Aavishield.Dlp.FormHeaders

/-!
# Multipart bodies that were written

What a writer puts down for several parts with a boundary between them, and what is read of the
first bytes of it.  The boundary is looked for everywhere, not only at the start of a line, and a
part counts only when another delimiter follows it.
-/

namespace Aavishield.Multipart

open Dlp Text Splitting
open LossyText (utf8 utf8_append replacementChar infix_of_utf8 prefix_of_utf8)

/-- `bchars` of RFC 2046. -/
def isBoundaryLetter (letter : Char) : Bool :=
  letter.isAlphanum || letter ∈ "'()+_,-./:=? ".toList

/-- A boundary that the standard allows. -/
structure IsBoundary (boundary : List Char) : Prop where
  nonempty : boundary ≠ []
  short : boundary.length ≤ 70
  letters : ∀ letter ∈ boundary, isBoundaryLetter letter = true
  ended : boundary.getLast? ≠ some ' '

def mark (boundary : List Char) : List Char := '-' :: '-' :: boundary

def delimiter (boundary : List Char) : Bytes := utf8 (mark boundary)

def writeRest (boundary : List Char) : List FormPart → Bytes
  | [] => utf8 "--\r\n".toList
  | part :: parts => writePart part ++ delimiter boundary ++ writeRest boundary parts

/-- The parts as a body is made of them. -/
def write (boundary : List Char) (parts : List FormPart) : Bytes :=
  delimiter boundary ++ writeRest boundary parts

def restReceived (boundary : List Char) : ℕ → List FormPart → List FormPart
  | _, [] => []
  | cut, part :: parts =>
    if (writePart part ++ delimiter boundary).length ≤ cut then
      part :: restReceived boundary (cut - (writePart part ++ delimiter boundary).length) parts
    else if (writeHead part).length ≤ cut then
      [{ part with data := part.data.take (cut - (writeHead part).length) }]
    else []

/-- The parts that are whole in a body that was cut. -/
def received (boundary : List Char) (cut : ℕ) (parts : List FormPart) : List FormPart :=
  restReceived boundary (cut - (delimiter boundary).length) parts

/-- The boundary stands nowhere inside the part. -/
structure Free (boundary : List Char) (part : FormPart) : Prop where
  name : ¬mark boundary <:+: part.name
  filename : ∀ filename ∈ part.filename, ¬mark boundary <:+: filename
  contentType : ¬mark boundary <:+: part.contentType
  data : ¬delimiter boundary <:+: part.data

def RestRecoverable (boundary : List Char) : ℕ → List FormPart → Prop
  | _, [] => True
  | cut, part :: parts =>
    if (writePart part ++ delimiter boundary).length ≤ cut then
      (PlainNames part ∧ Free boundary part) ∧
        RestRecoverable boundary (cut - (writePart part ++ delimiter boundary).length) parts
    else cut < (writeHead part).length

def Recoverable (boundary : List Char) (cut : ℕ) (parts : List FormPart) : Prop :=
  RestRecoverable boundary (cut - (delimiter boundary).length) parts

variable {boundary text needle : List Char} {part : FormPart} {parts : List FormPart}
  {bytes front rest : Bytes} {libs : Libraries}

theorem not_mem_mark (isBoundary : IsBoundary boundary) {letter : Char}
    (foreign : isBoundaryLetter letter = false) : letter ∉ mark boundary := by
  unfold mark
  rw [List.mem_cons, List.mem_cons]
  rintro (rfl | rfl | inBoundary)
  · exact absurd foreign (by decide)
  · exact absurd foreign (by decide)
  · rw [isBoundary.letters letter inBoundary] at foreign
    cases foreign

theorem delimiter_ne_nil : delimiter boundary ≠ [] := by
  intro empty
  have short := @LossyText.length_le_utf8 (mark boundary)
  rw [show utf8 (mark boundary) = [] from empty] at short
  simp [mark] at short

theorem not_mem_delimiter (isBoundary : IsBoundary boundary) {letter : Char} {byte : UInt8}
    (foreign : isBoundaryLetter letter = false) (encoded : utf8 [letter] = [byte]) :
    byte ∉ delimiter boundary := by
  rw [← List.singleton_infix_iff, ← encoded]
  intro isInfix
  exact not_mem_mark isBoundary foreign ((infix_of_utf8 isInfix).subset List.mem_cons_self)

theorem infix_of_lineBreak (isBoundary : IsBoundary boundary)
    (isInfix : delimiter boundary <:+: front ++ (lineBreak ++ rest)) :
    delimiter boundary <:+: front ∨ delimiter boundary <:+: rest := by
  have noReturn : 13 ∉ delimiter boundary :=
    @not_mem_delimiter _ isBoundary '\r' 13 (by decide) (by decide)
  have noNewline : 10 ∉ delimiter boundary :=
    @not_mem_delimiter _ isBoundary '\n' 10 (by decide) (by decide)
  rcases infix_of_infix_append_cons noReturn isInfix with inFront | isInfix
  · exact Or.inl inFront
  rcases @infix_of_infix_append_cons _ _ [] rest _ noNewline isInfix with inEmpty | inRest
  · exact absurd (List.infix_nil.mp inEmpty) delimiter_ne_nil
  · exact Or.inr inRest

theorem prefix_of_escape (unquoted : ∀ letter ∈ needle, isQuoted letter = false)
    (isPrefix : needle <+: text.flatMap escape) : needle <+: text := by
  induction text generalizing needle with
  | nil => exact isPrefix
  | cons letter text ih =>
    cases needle with
    | nil => exact List.nil_prefix
    | cons first needle =>
      rw [List.forall_mem_cons] at unquoted
      rw [List.flatMap_cons] at isPrefix
      cases quoted : isQuoted letter with
      | true =>
        rw [escape_of_isQuoted quoted, List.cons_append, List.cons_prefix_cons] at isPrefix
        rw [isPrefix.1] at unquoted
        exact absurd unquoted.1 (by decide)
      | false =>
        rw [escape_of_not_isQuoted quoted, List.singleton_append,
          List.cons_prefix_cons] at isPrefix
        rw [List.cons_prefix_cons]
        exact ⟨isPrefix.1, ih unquoted.2 isPrefix.2⟩

theorem infix_of_escape (unquoted : ∀ letter ∈ needle, isQuoted letter = false)
    (isInfix : needle <:+: text.flatMap escape) : needle <:+: text := by
  induction text with
  | nil => exact isInfix
  | cons letter text ih =>
    have inText (inRest : needle <:+: text.flatMap escape) : needle <:+: letter :: text :=
      (ih inRest).trans (List.suffix_cons letter text).isInfix
    have absent (quoted : isQuoted letter = true) : letter ∉ needle := by
      intro letterMem
      rw [unquoted letter letterMem] at quoted
      cases quoted
    rw [List.flatMap_cons] at isInfix
    cases quoted : isQuoted letter with
    | true =>
      have noBackslash : '\\' ∉ needle := fun there => absurd (unquoted _ there) (by decide)
      rw [escape_of_isQuoted quoted] at isInfix
      rcases @infix_of_infix_append_cons _ _ [] _ _ noBackslash isInfix with inEmpty | inRest
      · exact inEmpty.trans List.nil_infix
      rcases @infix_of_infix_append_cons _ _ [] _ _ (absent quoted) inRest with
        inEmpty | inRest
      · exact inEmpty.trans List.nil_infix
      · exact inText inRest
    | false =>
      rw [escape_of_not_isQuoted quoted, List.singleton_append, List.infix_cons_iff] at isInfix
      rcases isInfix with isPrefix | inRest
      · have written : needle <+: (letter :: text).flatMap escape := by
          rw [List.flatMap_cons, escape_of_not_isQuoted quoted]
          exact isPrefix
        exact (prefix_of_escape unquoted written).isInfix
      · exact inText inRest

theorem infix_of_label {label : List Char} (noDashes : ¬['-', '-'] <:+: label ++ ['-'])
    (isInfix : mark boundary <:+: label ++ text) : mark boundary <:+: text := by
  induction label with
  | nil => exact isInfix
  | cons letter label ih =>
    rw [List.cons_append, List.infix_cons_iff, not_or] at noDashes
    rw [List.cons_append, List.infix_cons_iff] at isInfix
    rcases isInfix with isPrefix | inRest
    · rw [mark, List.cons_prefix_cons] at isPrefix
      obtain ⟨rfl, isPrefix⟩ := isPrefix
      refine absurd ?_ noDashes.1
      rw [List.cons_prefix_cons]
      cases label with
      | nil => exact ⟨rfl, List.prefix_rfl⟩
      | cons next label =>
        rw [List.cons_append, List.cons_prefix_cons] at isPrefix
        rw [← isPrefix.1, List.cons_append]
        exact ⟨rfl, List.prefix_append ['-'] _⟩
    · exact ih noDashes.2 inRest

theorem not_infix_writeHeaders (isBoundary : IsBoundary boundary) (free : Free boundary part) :
    ¬mark boundary <:+: writeHeaders part := by
  have noDashes {text : List Char} (without : ¬['-', '-'] <:+: text) : ¬mark boundary <:+: text :=
    fun isInfix => without ((List.prefix_append ['-', '-'] boundary).isInfix.trans isInfix)
  have unquoted : ∀ letter ∈ mark boundary, isQuoted letter = false := by
    intro letter letterMem
    rw [Bool.eq_false_iff]
    intro quoted
    refine not_mem_mark isBoundary ?_ letterMem
    have special : letter ∈ ['"', '\\', '\r', '\n'] := of_decide_eq_true quoted
    exact @forall_mem_of_all _ (isBoundaryLetter · = false) _ rfl letter special
  intro isInfix
  rw [← List.append_nil (writeHeaders part)] at isInfix
  rcases within_writeHeaders (not_mem_mark isBoundary (by decide)) isInfix with
    inStart | inName | ⟨filename, given, inMiddle | inFilename⟩ | inEnd
  · exact noDashes (by decide) inStart
  · exact free.name (infix_of_escape unquoted inName)
  · exact noDashes (by decide) inMiddle
  · exact free.filename filename given (infix_of_escape unquoted inFilename)
  · rw [List.append_nil] at inEnd
    unfold typeLine at inEnd
    split at inEnd
    · exact noDashes (by decide) inEnd
    · have shape : "\r\nContent-Type: ".toList ++ part.contentType =
          ['\r'] ++ '\n' :: ("Content-Type: ".toList ++ part.contentType) := by
        have start : "\r\nContent-Type: ".toList = ['\r', '\n'] ++ "Content-Type: ".toList := by
          decide
        rw [start, List.append_assoc]
        rfl
      rw [shape] at inEnd
      rcases infix_of_infix_append_cons (not_mem_mark isBoundary (by decide)) inEnd with
        inReturn | inLine
      · exact noDashes (by decide) inReturn
      · exact free.contentType (infix_of_label (by decide) inLine)

theorem not_infix_writePart (isBoundary : IsBoundary boundary) (free : Free boundary part) :
    ¬delimiter boundary <:+: (writePart part ++ delimiter boundary).dropLast := by
  have shape : (writePart part ++ delimiter boundary).dropLast =
      [] ++ (lineBreak ++ (utf8 (writeHeaders part) ++ (lineBreak ++ ([] ++ (lineBreak ++
        (part.data ++ (lineBreak ++ (delimiter boundary).dropLast))))))) := by
    rw [List.dropLast_append_of_ne_nil delimiter_ne_nil, writePart, writeHead]
    simp
  have noEmpty : ¬delimiter boundary <:+: [] :=
    fun inEmpty => delimiter_ne_nil (List.infix_nil.mp inEmpty)
  rw [shape]
  intro isInfix
  rcases infix_of_lineBreak isBoundary isInfix with inEmpty | isInfix
  · exact noEmpty inEmpty
  rcases infix_of_lineBreak isBoundary isInfix with inHeaders | isInfix
  · exact not_infix_writeHeaders isBoundary free (infix_of_utf8 inHeaders)
  rcases infix_of_lineBreak isBoundary isInfix with inEmpty | isInfix
  · exact noEmpty inEmpty
  rcases infix_of_lineBreak isBoundary isInfix with inData | inEnd
  · exact free.data inData
  · have shorter := inEnd.length_le
    have positive := List.length_pos_of_ne_nil (@delimiter_ne_nil boundary)
    rw [List.length_dropLast] at shorter
    omega

variable {count : ℕ}

theorem splitBytes_eq {delim body : Bytes} :
    splitBytes delim count body = split delim count body := by
  induction count generalizing body with
  | zero => rfl
  | succ count ih =>
    have same : findBytes body delim = find body delim := rfl
    rw [splitBytes, split, same]
    cases find body delim with
    | none => rfl
    | some start => exact congrArg _ ih

def ended (libs : Libraries) (boundary : List Char) (count : ℕ) (bytes : Bytes) :
    List FormPart :=
  (splitBytes (delimiter boundary) count bytes).dropLast.filterMap (formPart libs)

theorem ended_of_absent (absent : ¬delimiter boundary <:+: bytes) :
    ended libs boundary count bytes = [] := by
  rw [ended, splitBytes_eq, split_of_absent absent]
  rfl

theorem ended_append (unmarked : ¬delimiter boundary <:+: (front ++ delimiter boundary).dropLast) :
    ended libs boundary (count + 1) (front ++ delimiter boundary ++ rest) =
      (formPart libs front).toList ++ ended libs boundary count rest := by
  rw [ended, splitBytes_eq, split_append unmarked, List.dropLast_cons_of_ne_nil split_ne_nil,
    ended, splitBytes_eq]
  cases formed : formPart libs front with
  | none => simp [formed]
  | some part => simp [formed]

theorem segment_of_mem_ended (partMem : part ∈ ended libs boundary count bytes) :
    ∃ segment, segment <:+: bytes ∧ ¬delimiter boundary <:+: segment ∧
      formPart libs segment = some part := by
  obtain ⟨segment, segmentMem, formed⟩ := List.mem_filterMap.mp partMem
  rw [splitBytes_eq] at segmentMem
  obtain ⟨within, unmarked⟩ := ended_of_mem_split delimiter_ne_nil segmentMem
  exact ⟨segment, within, unmarked, formed⟩

theorem free_of_mem_ended (reads : ReadsUtf8 libs) (isBoundary : IsBoundary boundary)
    (partMem : part ∈ ended libs boundary count bytes) : Free boundary part := by
  obtain ⟨segment, -, unmarked, formed⟩ := segment_of_mem_ended partMem
  obtain ⟨inData, head, inHead, read⟩ := readFrom_of_formPart formed
  have unreplaced : replacementChar ∉ mark boundary := not_mem_mark isBoundary (by decide)
  have free {text : List Char} (within : text <:+: libs.fromUtf8Lossy head) :
      ¬mark boundary <:+: text := fun isInfix =>
    unmarked ((reads.kept head _ unreplaced (isInfix.trans within)).trans inHead)
  exact ⟨free read.name.1, fun filename given => free (read.filename filename given).1,
    free read.contentType, fun isInfix => unmarked (isInfix.trans inData)⟩

theorem writeHeaders_begins (part : FormPart) : ∃ rest, writeHeaders part = 'C' :: rest :=
  ⟨"ontent-Disposition: form-data; name=".toList ++ quote part.name ++
    (part.filename.elim [] fun filename => "; filename=".toList ++ quote filename) ++
    typeLine part, rfl⟩

theorem no_emptyLine_in_writeHead (typed : IsHeaderValue part.contentType) :
    ¬lineBreak ++ lineBreak <:+: (writeHead part).dropLast := by
  have shape : (writeHead part).dropLast =
      utf8 ('\r' :: '\n' :: (writeHeaders part ++ "\r\n\r".toList)) := by
    rw [writeHead, List.dropLast_append_of_ne_nil (by decide), LossyText.utf8_cons,
      LossyText.utf8_cons, utf8_append]
    simp only [List.append_assoc]
    rfl
  have noEmptyLine := no_emptyLine typed
  obtain ⟨rest, begins⟩ := writeHeaders_begins part
  rw [shape]
  intro isInfix
  have inText : "\r\n\r\n".toList <:+: '\r' :: '\n' :: (writeHeaders part ++ "\r\n\r".toList) :=
    infix_of_utf8 isInfix
  rw [List.infix_cons_iff, List.infix_cons_iff] at inText
  rcases inText with isPrefix | isPrefix | inHeaders
  · rw [begins] at isPrefix
    have second := (List.cons_prefix_cons.mp isPrefix).2
    have third := (List.cons_prefix_cons.mp second).2
    exact absurd (List.cons_prefix_cons.mp third).1 (by decide)
  · exact absurd (List.cons_prefix_cons.mp isPrefix).1 (by decide)
  · exact noEmptyLine inHeaders

theorem ended_of_short (typed : IsHeaderValue part.contentType) {count : ℕ}
    (isPrefix : bytes <+: writeHead part) (short : bytes.length < (writeHead part).length) :
    ended libs boundary count bytes = [] := by
  have inHead : bytes <+: (writeHead part).dropLast := by
    apply List.prefix_of_prefix_length_le isPrefix (List.dropLast_prefix _)
    rw [List.length_dropLast]
    omega
  rw [List.eq_nil_iff_forall_not_mem]
  intro read readMem
  obtain ⟨segment, within, -, formed⟩ := segment_of_mem_ended readMem
  have absent : ¬lineBreak ++ lineBreak <:+: strip segment := fun isInfix =>
    no_emptyLine_in_writeHead typed
      (isInfix.trans ((strip_within segment).trans (within.trans inHead.isInfix)))
  rw [formPart_eq, find_eq_none absent] at formed
  cases formed

theorem ended_of_open (reads : ReadsUtf8 libs) (isBoundary : IsBoundary boundary)
    {count cut : ℕ} (headed : (writeHead part).length ≤ cut)
    (short : cut < (writePart part ++ delimiter boundary).length) :
    ended libs boundary count ((writePart part ++ delimiter boundary).take cut) ≠
      [{ part with data := part.data.take (cut - (writeHead part).length) }] := by
  intro same
  have free := free_of_mem_ended reads isBoundary (same ▸ List.mem_singleton_self _)
  have unmarked := not_infix_writePart isBoundary free
  generalize received : cut - (writeHead part).length = count at same free unmarked
  have within : (writePart part ++ delimiter boundary).take cut <+:
      (writePart { part with data := part.data.take count } ++ delimiter boundary).dropLast := by
    by_cases dataLeft : count ≤ part.data.length
    · have shape : (writePart part ++ delimiter boundary).take cut =
          writeHead part ++ part.data.take count := by
        rw [writePart, List.append_assoc, List.append_assoc, List.take_append,
          List.take_of_length_le headed, received, List.take_append_of_le_length dataLeft]
      rw [shape, List.dropLast_append_of_ne_nil delimiter_ne_nil, writePart, List.append_assoc]
      exact List.prefix_append _ _
    · have allData : part.data.take count = part.data := List.take_of_length_le (by omega)
      rw [allData]
      change _ <+: (writePart part ++ delimiter boundary).dropLast
      rw [List.dropLast_eq_take]
      exact List.take_prefix_take_left (by omega)
  rw [ended_of_absent fun isInfix => unmarked (isInfix.trans within.isInfix)] at same
  cases same

theorem ended_writeRest_iff (reads : ReadsUtf8 libs) (isBoundary : IsBoundary boundary)
    (typed : ∀ part ∈ parts, IsHeaderValue part.contentType) {count cut : ℕ}
    (enough : ((writeRest boundary parts).take cut).length ≤ count) :
    ended libs boundary count ((writeRest boundary parts).take cut) =
      restReceived boundary cut parts ↔ RestRecoverable boundary cut parts := by
  induction parts generalizing count cut with
  | nil =>
    have absent : ¬delimiter boundary <:+: (writeRest boundary []).take cut := by
      intro isInfix
      have inEnd : delimiter boundary <:+: [45, 45] ++ (lineBreak ++ []) :=
        isInfix.trans (List.take_prefix _ _).isInfix
      have long := @LossyText.length_le_utf8 (mark boundary)
      have positive := List.length_pos_of_ne_nil isBoundary.nonempty
      rcases infix_of_lineBreak isBoundary inEnd with inDashes | inEmpty
      · have short : (utf8 (mark boundary)).length ≤ 2 := inDashes.length_le
        simp only [mark, List.length_cons] at long short
        omega
      · exact delimiter_ne_nil (List.infix_nil.mp inEmpty)
    rw [ended_of_absent absent]
    exact ⟨fun _ => trivial, fun _ => rfl⟩
  | cons part parts ih =>
    rw [List.forall_mem_cons] at typed
    rw [writeRest] at enough
    rw [writeRest, restReceived, RestRecoverable]
    by_cases whole : (writePart part ++ delimiter boundary).length ≤ cut
    · have taken : (writePart part ++ delimiter boundary ++ writeRest boundary parts).take cut =
          writePart part ++ delimiter boundary ++ (writeRest boundary parts).take
            (cut - (writePart part ++ delimiter boundary).length) := by
        rw [List.take_append, List.take_of_length_le whole]
      have plain := formPart_writePart_iff reads typed.1
      rw [taken] at enough
      rw [if_pos whole, if_pos whole, taken]
      have positive : 0 < (writePart part ++ delimiter boundary).length := by
        apply List.length_pos_of_ne_nil
        simp [delimiter_ne_nil]
      rw [List.length_append] at enough
      obtain ⟨count, rfl⟩ := Nat.exists_eq_add_one_of_ne_zero (show count ≠ 0 by omega)
      have rest := @ih typed.2 count (cut - (writePart part ++ delimiter boundary).length)
        (by omega)
      constructor
      · intro same
        have free : Free boundary part :=
          free_of_mem_ended reads isBoundary (same ▸ List.mem_cons_self)
        rw [ended_append (not_infix_writePart isBoundary free),
          formPart_writePart reads typed.1, Option.toList_some, List.singleton_append,
          List.cons.injEq] at same
        exact ⟨⟨plain.mp ((formPart_writePart reads typed.1).trans (congrArg some same.1)), free⟩,
          rest.mp same.2⟩
      · rintro ⟨⟨plainNames, free⟩, recoverable⟩
        rw [ended_append (not_infix_writePart isBoundary free), plain.mpr plainNames,
          rest.mpr recoverable]
        rfl
    · rw [if_neg whole, if_neg whole]
      have taken : (writePart part ++ delimiter boundary ++ writeRest boundary parts).take cut =
          (writePart part ++ delimiter boundary).take cut := by
        rw [List.take_append_of_le_length (by omega)]
      rw [taken]
      by_cases headed : (writeHead part).length ≤ cut
      · rw [if_pos headed]
        have noPart := @ended_of_open _ _ _ reads isBoundary count cut headed (by omega)
        exact ⟨fun same => absurd same noPart, fun early => absurd early (by omega)⟩
      · rw [if_neg headed]
        have isPrefix : (writePart part ++ delimiter boundary).take cut <+: writeHead part := by
          rw [writePart, List.append_assoc, List.append_assoc,
            List.take_append_of_le_length (by omega)]
          exact List.take_prefix _ _
        have none := @ended_of_short boundary _ _ libs typed.1 count isPrefix (by
          rw [List.length_take]
          omega)
        exact ⟨fun _ => by omega, fun _ => none⟩

theorem not_infix_of_short (short : bytes.length < (delimiter boundary).length) :
    ¬delimiter boundary <:+: bytes := fun isInfix => by
  have fits := isInfix.length_le
  omega

theorem multipartParts_take (libs : Libraries) (boundary : List Char) (parts : List FormPart)
    (cut : ℕ) :
    ∃ count, ((writeRest boundary parts).take (cut - (delimiter boundary).length)).length ≤ count ∧
      multipartParts libs ((write boundary parts).take cut) boundary =
        ended libs boundary count
          ((writeRest boundary parts).take (cut - (delimiter boundary).length)) := by
  have read (body : Bytes) : multipartParts libs body boundary =
      (((split (delimiter boundary) body.length body).drop 1).dropLast.filterMap
        (formPart libs)) := by
    rw [← splitBytes_eq]
    rfl
  by_cases started : (delimiter boundary).length ≤ cut
  · have positive := List.length_pos_of_ne_nil (@delimiter_ne_nil boundary)
    have unmarked : ¬delimiter boundary <:+: ([] ++ delimiter boundary).dropLast := by
      apply not_infix_of_short
      rw [List.nil_append, List.length_dropLast]
      omega
    have taken : (write boundary parts).take cut = [] ++ delimiter boundary ++
        (writeRest boundary parts).take (cut - (delimiter boundary).length) := by
      rw [write, List.take_append, List.take_of_length_le started, List.nil_append]
    rw [taken]
    generalize (writeRest boundary parts).take (cut - (delimiter boundary).length) = rest
    refine ⟨(delimiter boundary).length - 1 + rest.length, by omega, ?_⟩
    have length : ([] ++ delimiter boundary ++ rest).length =
        (delimiter boundary).length - 1 + rest.length + 1 := by
      rw [List.nil_append, List.length_append]
      omega
    rw [read, length, split_append unmarked, List.drop_one, List.tail_cons, ended, splitBytes_eq]
  · have none : cut - (delimiter boundary).length = 0 := by omega
    have absent : ¬delimiter boundary <:+: (write boundary parts).take cut := by
      apply not_infix_of_short
      rw [List.length_take]
      omega
    refine ⟨0, by simp [none], ?_⟩
    rw [read, split_of_absent absent, none, List.take_zero, ended_of_absent]
    · rfl
    · exact fun isInfix => delimiter_ne_nil (List.infix_nil.mp isInfix)

theorem multipartParts_take_iff (reads : ReadsUtf8 libs) (isBoundary : IsBoundary boundary)
    (typed : ∀ part ∈ parts, IsHeaderValue part.contentType) (cut : ℕ) :
    multipartParts libs ((write boundary parts).take cut) boundary =
      received boundary cut parts ↔ Recoverable boundary cut parts := by
  obtain ⟨count, enough, read⟩ := multipartParts_take libs boundary parts cut
  rw [read]
  exact ended_writeRest_iff reads isBoundary typed enough

theorem restReceived_of_length_le {cut : ℕ} (whole : (writeRest boundary parts).length ≤ cut) :
    restReceived boundary cut parts = parts := by
  induction parts generalizing cut with
  | nil => rfl
  | cons part parts ih =>
    rw [writeRest, List.length_append] at whole
    rw [restReceived, if_pos (by omega), ih (by omega)]

theorem restRecoverable_of_length_le {cut : ℕ} (whole : (writeRest boundary parts).length ≤ cut) :
    RestRecoverable boundary cut parts ↔ ∀ part ∈ parts, PlainNames part ∧ Free boundary part := by
  induction parts generalizing cut with
  | nil => exact ⟨fun _ => by simp, fun _ => trivial⟩
  | cons part parts ih =>
    rw [writeRest, List.length_append] at whole
    rw [RestRecoverable, if_pos (by omega), ih (by omega), List.forall_mem_cons]

theorem multipartParts_whole_iff (reads : ReadsUtf8 libs) (isBoundary : IsBoundary boundary)
    (typed : ∀ part ∈ parts, IsHeaderValue part.contentType) :
    multipartParts libs (write boundary parts) boundary = parts ↔
      ∀ part ∈ parts, PlainNames part ∧ Free boundary part := by
  have cutNowhere := multipartParts_take_iff reads isBoundary typed (write boundary parts).length
  have whole : (writeRest boundary parts).length ≤
      (write boundary parts).length - (delimiter boundary).length := by
    rw [write, List.length_append]
    omega
  rw [List.take_length, received, restReceived_of_length_le whole, Recoverable,
    restRecoverable_of_length_le whole] at cutNowhere
  exact cutNowhere

/-- Of the whole body every part is read as it was written just if it is plain and free of the
delimiter, and of the first bytes of one just what is recoverable. -/
theorem multipartParts_write_iff (reads : ReadsUtf8 libs) (isBoundary : IsBoundary boundary)
    (typed : ∀ part ∈ parts, IsHeaderValue part.contentType) :
    (multipartParts libs (write boundary parts) boundary = parts ↔
      ∀ part ∈ parts, PlainNames part ∧ Free boundary part) ∧
    ∀ cut, multipartParts libs ((write boundary parts).take cut) boundary =
      received boundary cut parts ↔ Recoverable boundary cut parts :=
  ⟨multipartParts_whole_iff reads isBoundary typed, multipartParts_take_iff reads isBoundary typed⟩

theorem isBoundary_sample : IsBoundary "----WebKitFormBoundary7MA4".toList where
  nonempty := by decide
  short := by decide
  letters := forall_mem_of_all rfl
  ended := by decide

def sampleForm : List FormPart :=
  [⟨"note".toList, none, [], utf8 "for review".toList⟩,
    ⟨"file".toList, some "report.pdf".toList, "application/pdf".toList, [37, 80, 68, 70, 13, 10]⟩]

theorem typed_sampleForm : ∀ part ∈ sampleForm, IsHeaderValue part.contentType := by
  rw [sampleForm, List.forall_mem_cons, List.forall_mem_singleton]
  exact ⟨⟨by decide, by decide, by decide⟩, ⟨by decide, by decide, by decide⟩⟩

theorem free_sampleForm :
    ∀ part ∈ sampleForm, PlainNames part ∧ Free "----WebKitFormBoundary7MA4".toList part := by
  rw [sampleForm, List.forall_mem_cons, List.forall_mem_singleton]
  constructor
  · exact ⟨⟨by decide, by simp⟩, ⟨by decide, by simp, by decide, by decide⟩⟩
  · refine ⟨⟨by decide, ?_⟩, ⟨by decide, ?_, by decide, by decide⟩⟩
    · rintro filename ⟨⟩
      decide
    · rintro filename ⟨⟩
      decide

theorem multipartParts_sampleForm :
    multipartParts utf8Libraries (write "----WebKitFormBoundary7MA4".toList sampleForm)
      "----WebKitFormBoundary7MA4".toList = sampleForm :=
  (multipartParts_write_iff readsUtf8_utf8Libraries isBoundary_sample typed_sampleForm).1.mpr
    free_sampleForm

def semicolonForm : List FormPart :=
  [⟨"file".toList, some "a;b.pdf".toList, "application/pdf".toList, [37, 80, 68, 70]⟩]

/-- The name of a file has a semicolon. -/
theorem not_multipartParts_semicolonForm :
    IsBoundary "----WebKitFormBoundary7MA4".toList ∧
      (∀ part ∈ semicolonForm, IsHeaderValue part.contentType ∧
        ¬lineBreak ++ delimiter "----WebKitFormBoundary7MA4".toList <:+: part.data) ∧
      multipartParts utf8Libraries (write "----WebKitFormBoundary7MA4".toList semicolonForm)
        "----WebKitFormBoundary7MA4".toList ≠ semicolonForm := by
  have typed : ∀ part ∈ semicolonForm, IsHeaderValue part.contentType := by
    rw [semicolonForm, List.forall_mem_singleton]
    exact ⟨by decide, by decide, by decide⟩
  refine ⟨isBoundary_sample, fun part partMem => ⟨typed part partMem, ?_⟩, ?_⟩
  · rw [semicolonForm, List.mem_singleton] at partMem
    rw [partMem]
    decide
  · rw [ne_eq, multipartParts_whole_iff readsUtf8_utf8Libraries isBoundary_sample typed]
    intro plain
    have filename := (plain _ List.mem_cons_self).1.2 _ rfl
    exact absurd filename (by decide)

end Aavishield.Multipart
