import Aavishield.Dlp.Forms
import Aavishield.Lib.LossyText
import Aavishield.Lib.Splitting

/-!
# Parts of a multipart body

What a writer puts down for a part, and what is read of it: the names between quotes, with a
backslash before what would end them or the line.  The parameters of a header are cut at every
semicolon and quotes are only taken off at the ends, so a part is read as it was written if its
names have nothing that is quoted and no semicolon.
-/

namespace Aavishield.Multipart

open Dlp Text Splitting
open LossyText (utf8 utf8_append replacementChar infix_of_utf8)

/-- What is documented of `String::from_utf8_lossy`: a text is read as it is, and what is read
without a replacement was there. -/
structure ReadsUtf8 (libs : Libraries) : Prop where
  valid : ∀ text, libs.fromUtf8Lossy (utf8 text) = text
  kept : ∀ (bytes : Bytes) (text : List Char), replacementChar ∉ text →
    text <:+: libs.fromUtf8Lossy bytes → utf8 text <:+: bytes

def utf8Libraries : Libraries := { asciiLibraries with fromUtf8Lossy := LossyText.lossy }

theorem readsUtf8_utf8Libraries : ReadsUtf8 utf8Libraries :=
  ⟨LossyText.lossy_utf8, fun _ _ => LossyText.utf8_infix_of_lossy⟩

def isQuoted (letter : Char) : Bool := letter ∈ ['"', '\\', '\r', '\n']

def escape (letter : Char) : List Char := if isQuoted letter then ['\\', letter] else [letter]

def quote (text : List Char) : List Char := '"' :: (text.flatMap escape ++ ['"'])

def disposition (part : FormPart) : List Char :=
  "Content-Disposition: form-data; name=".toList ++ quote part.name ++
    part.filename.elim [] fun filename => "; filename=".toList ++ quote filename

def typeLine (part : FormPart) : List Char :=
  if part.contentType = [] then [] else "\r\nContent-Type: ".toList ++ part.contentType

def writeHeaders (part : FormPart) : List Char := disposition part ++ typeLine part

def writeHead (part : FormPart) : Bytes :=
  lineBreak ++ utf8 (writeHeaders part) ++ (lineBreak ++ lineBreak)

def writePart (part : FormPart) : Bytes := writeHead part ++ part.data ++ lineBreak

/-- A value that stands on one line of its own. -/
structure IsHeaderValue (text : List Char) : Prop where
  trimmed : trimSpace text = text
  noReturn : '\r' ∉ text
  noNewline : '\n' ∉ text

def Plain (text : List Char) : Prop := ∀ letter ∈ text, isQuoted letter = false ∧ letter ≠ ';'

instance (text : List Char) : Decidable (Plain text) :=
  decidable_of_iff (text.all fun letter => !isQuoted letter && decide (letter ≠ ';'))
    (by simp [Plain])

/-- Names that need no escape in a header. -/
def PlainNames (part : FormPart) : Prop :=
  Plain part.name ∧ ∀ filename ∈ part.filename, Plain filename

variable {text value : List Char} {part : FormPart} {key : String} {letter : Char}

theorem escape_of_isQuoted (quoted : isQuoted letter = true) :
    escape letter = ['\\', letter] := if_pos quoted

theorem escape_of_not_isQuoted (unquoted : isQuoted letter = false) :
    escape letter = [letter] := by
  rw [escape, unquoted]
  rfl

theorem flatMap_escape_of_unquoted (unquoted : ∀ letter ∈ text, isQuoted letter = false) :
    text.flatMap escape = text := by
  induction text with
  | nil => rfl
  | cons letter text ih =>
    rw [List.forall_mem_cons] at unquoted
    rw [List.flatMap_cons, escape_of_not_isQuoted unquoted.1, ih unquoted.2]
    rfl

theorem count_flatMap_escape (text : List Char) :
    (text.flatMap escape).count '\\' =
      text.count '\\' + text.countP (fun letter => isQuoted letter) := by
  induction text with
  | nil => rfl
  | cons letter text ih =>
    rw [List.flatMap_cons, List.count_append, ih, List.count_cons, List.countP_cons]
    cases quoted : isQuoted letter with
    | true =>
      rw [escape_of_isQuoted quoted, List.count_cons_self, List.count_cons, List.count_nil]
      simp only [if_true]
      omega
    | false =>
      rw [escape_of_not_isQuoted quoted, List.count_cons, List.count_nil]
      simp only [Bool.false_eq_true, if_false]
      omega

theorem count_trimQuotes (text : List Char) : (trimQuotes text).count '\\' = text.count '\\' := by
  have dropped (letters : List Char) :
      (letters.dropWhile (· = '"')).count '\\' = letters.count '\\' := by
    induction letters with
    | nil => rfl
    | cons letter letters ih =>
      rw [List.dropWhile_cons]
      split
      next isQuote =>
        cases of_decide_eq_true isQuote
        rw [ih, List.count_cons_of_ne (by decide)]
      next => rfl
  rw [trimQuotes, List.count_reverse, dropped, List.count_reverse, dropped]

theorem trimSpace_quote (text : List Char) : trimSpace (quote text) = quote text := by
  rw [trimSpace, quote, List.dropWhile_cons_of_neg (by decide), List.reverse_cons,
    List.reverse_append, List.reverse_singleton, List.singleton_append, List.cons_append,
    List.dropWhile_cons_of_neg (by decide)]
  simp

theorem dropWhile_quotes (unquoted : ∀ letter ∈ text, isQuoted letter = false) :
    text.dropWhile (· = '"') = text := by
  cases text with
  | nil => rfl
  | cons letter text =>
    apply List.dropWhile_cons_of_neg
    intro isQuote
    cases of_decide_eq_true isQuote
    exact absurd ((List.forall_mem_cons.mp unquoted).1) (by decide)

theorem trimQuotes_quote (unquoted : ∀ letter ∈ text, isQuoted letter = false) :
    trimQuotes (quote text) = text := by
  have reversed : ∀ letter ∈ text.reverse, isQuoted letter = false := by simpa using unquoted
  rw [trimQuotes, quote, flatMap_escape_of_unquoted unquoted,
    List.dropWhile_cons_of_pos (by decide), List.dropWhile_append, dropWhile_quotes unquoted]
  cases text with
  | nil => rfl
  | cons letter text =>
    rw [if_neg (by simp), List.reverse_append, List.reverse_singleton, List.singleton_append,
      List.dropWhile_cons_of_pos (by decide), dropWhile_quotes reversed, List.reverse_reverse]

theorem trimQuotes_quote_iff :
    trimQuotes (quote text) = text ↔ ∀ letter ∈ text, isQuoted letter = false := by
  constructor
  · intro same
    have counted := congrArg (List.count '\\') same
    rw [count_trimQuotes, quote, List.count_cons_of_ne (by decide), List.count_append,
      count_flatMap_escape] at counted
    have none : text.countP (fun letter => isQuoted letter) = 0 := by omega
    simpa using none
  · exact trimQuotes_quote

variable {libs : Libraries} {headers line : List Char} {bytes : Bytes}

def strip (bytes : Bytes) : Bytes :=
  let bytes := if lineBreak.isPrefixOf bytes then bytes.drop 2 else bytes
  if lineBreak.isSuffixOf bytes then bytes.take (bytes.length - 2) else bytes

def readHeaders (headers : List Char) (data : Bytes) : FormPart :=
  ((headers.splitOn '\n').map (trimSuffix ['\r'])).foldl FormPart.header ⟨[], none, [], data⟩

theorem formPart_eq (libs : Libraries) (bytes : Bytes) :
    formPart libs bytes = (find (strip bytes) (lineBreak ++ lineBreak)).map fun headersEnd =>
      readHeaders (libs.fromUtf8Lossy ((strip bytes).take headersEnd))
        ((strip bytes).drop (headersEnd + 4)) := by
  change (find (strip bytes) (lineBreak ++ lineBreak)).bind _ = _
  cases find (strip bytes) (lineBreak ++ lineBreak) <;> rfl

theorem strip_within (bytes : Bytes) : strip bytes <:+: bytes := by
  have front : (if lineBreak.isPrefixOf bytes then bytes.drop 2 else bytes) <:+ bytes := by
    split
    · exact List.drop_suffix _ _
    · exact List.suffix_rfl
  dsimp only [strip]
  generalize (if lineBreak.isPrefixOf bytes then bytes.drop 2 else bytes) = rest at front ⊢
  split
  next => exact (List.take_prefix _ _).isInfix.trans front.isInfix
  next => exact front.isInfix

structure ReadFrom (headers : List Char) (part : FormPart) : Prop where
  name : part.name <:+: headers ∧ ';' ∉ part.name ∧ '\n' ∉ part.name
  filename : ∀ filename ∈ part.filename,
    filename <:+: headers ∧ ';' ∉ filename ∧ '\n' ∉ filename
  contentType : part.contentType <:+: headers

theorem parameterOf_within {read : List Char} (found : parameterOf key value = some read) :
    read <:+: value ∧ ';' ∉ read := by
  obtain ⟨parameter, parameterMem, chosen⟩ := List.exists_of_findSome?_eq_some found
  obtain ⟨inValue, unmarked⟩ := of_mem_splitOn (List.mem_of_mem_drop parameterMem)
  rw [Option.bind_eq_bind, Option.bind_eq_some_iff] at chosen
  obtain ⟨⟨name, given⟩, parted, chosen⟩ := chosen
  dsimp only at chosen
  split_ifs at chosen
  cases chosen
  have inParameter : trimQuotes (trimSpace given) <:+: parameter :=
    (trimEnds_within _ _).trans ((trimEnds_within _ _).trans (splitOnce_within parted).2)
  exact ⟨inParameter.trans inValue, fun there => unmarked (inParameter.subset there)⟩

theorem ReadFrom.header (read : ReadFrom headers part) (lineMem : line <:+: headers)
    (oneLine : '\n' ∉ line) : ReadFrom headers (part.header line) := by
  unfold FormPart.header
  split
  next => exact read
  next key value parted =>
    have inLine := (splitOnce_within parted).2
    have parameter {key : String} {text : List Char} (found : parameterOf key value = some text) :
        text <:+: headers ∧ ';' ∉ text ∧ '\n' ∉ text := by
      obtain ⟨inValue, unmarked⟩ := parameterOf_within found
      have within := inValue.trans inLine
      exact ⟨within.trans lineMem, unmarked, fun there => oneLine (within.subset there)⟩
    split_ifs
    · refine ⟨?_, fun filename given => parameter given, read.contentType⟩
      cases found : dispositionParam value "name" with
      | none => exact ⟨List.nil_infix, by simp, by simp⟩
      | some name => exact parameter found
    · exact ⟨read.name, read.filename, (trimEnds_within _ _).trans (inLine.trans lineMem)⟩
    · exact read

theorem readFrom_readHeaders (headers : List Char) (data : Bytes) :
    ReadFrom headers (readHeaders headers data) := by
  have start : ReadFrom headers ⟨[], none, [], data⟩ :=
    ⟨⟨List.nil_infix, by simp, by simp⟩, by simp, List.nil_infix⟩
  have lines : ∀ line ∈ (headers.splitOn '\n').map (trimSuffix ['\r']),
      line <:+: headers ∧ '\n' ∉ line := by
    intro line lineMem
    obtain ⟨whole, wholeMem, rfl⟩ := List.mem_map.mp lineMem
    obtain ⟨inHeaders, oneLine⟩ := of_mem_splitOn wholeMem
    have isPrefix : trimSuffix ['\r'] whole <+: whole := by
      unfold trimSuffix
      split
      · exact List.take_prefix _ _
      · exact List.prefix_rfl
    exact ⟨isPrefix.isInfix.trans inHeaders, fun there => oneLine (isPrefix.subset there)⟩
  unfold readHeaders
  generalize (headers.splitOn '\n').map (trimSuffix ['\r']) = remaining at lines
  generalize (⟨[], none, [], data⟩ : FormPart) = part at start
  induction remaining generalizing part with
  | nil => exact start
  | cons line remaining ih =>
    rw [List.forall_mem_cons] at lines
    exact ih lines.2 _ (start.header lines.1.1 lines.1.2)

@[simp]
theorem data_header : (part.header line).data = part.data := by
  unfold FormPart.header
  split
  · rfl
  · split_ifs <;> rfl

@[simp]
theorem data_readHeaders (headers : List Char) (data : Bytes) :
    (readHeaders headers data).data = data := by
  unfold readHeaders
  generalize (headers.splitOn '\n').map (trimSuffix ['\r']) = remaining
  have kept : ∀ part : FormPart, (remaining.foldl FormPart.header part).data = part.data := by
    induction remaining with
    | nil => exact fun _ => rfl
    | cons line remaining ih => exact fun part => (ih _).trans data_header
  exact kept _

theorem readFrom_of_formPart (formed : formPart libs bytes = some part) :
    part.data <:+: bytes ∧
      ∃ head, head <:+: bytes ∧ ReadFrom (libs.fromUtf8Lossy head) part := by
  rw [formPart_eq, Option.map_eq_some_iff] at formed
  obtain ⟨headersEnd, -, rfl⟩ := formed
  constructor
  · rw [data_readHeaders]
    exact (List.drop_suffix _ _).isInfix.trans (strip_within bytes)
  · exact ⟨_, (List.take_prefix _ _).isInfix.trans (strip_within bytes),
      readFrom_readHeaders _ _⟩

variable {needle tail : List Char}

theorem within_writeHeaders (foreign : '"' ∉ needle)
    (isInfix : needle <:+: writeHeaders part ++ tail) :
    needle <:+: "Content-Disposition: form-data; name=".toList ∨
      needle <:+: part.name.flatMap escape ∨
      (∃ filename ∈ part.filename,
        needle <:+: "; filename=".toList ∨ needle <:+: filename.flatMap escape) ∨
      needle <:+: typeLine part ++ tail := by
  cases given : part.filename with
  | none =>
    have shape : writeHeaders part ++ tail = "Content-Disposition: form-data; name=".toList ++
        '"' :: (part.name.flatMap escape ++ '"' :: (typeLine part ++ tail)) := by
      unfold writeHeaders disposition quote
      rw [given]
      generalize "Content-Disposition: form-data; name=".toList = start
      simp
    rw [shape] at isInfix
    rcases infix_of_infix_append_cons foreign isInfix with inStart | isInfix
    · exact Or.inl inStart
    rcases infix_of_infix_append_cons foreign isInfix with inName | inEnd
    · exact Or.inr (Or.inl inName)
    · exact Or.inr (Or.inr (Or.inr inEnd))
  | some filename =>
    have shape : writeHeaders part ++ tail = "Content-Disposition: form-data; name=".toList ++
        '"' :: (part.name.flatMap escape ++ '"' :: ("; filename=".toList ++
          '"' :: (filename.flatMap escape ++ '"' :: (typeLine part ++ tail)))) := by
      unfold writeHeaders disposition quote
      rw [given]
      generalize "Content-Disposition: form-data; name=".toList = start
      generalize "; filename=".toList = middle
      simp
    rw [shape] at isInfix
    rcases infix_of_infix_append_cons foreign isInfix with inStart | isInfix
    · exact Or.inl inStart
    rcases infix_of_infix_append_cons foreign isInfix with inName | isInfix
    · exact Or.inr (Or.inl inName)
    rcases infix_of_infix_append_cons foreign isInfix with inMiddle | isInfix
    · exact Or.inr (Or.inr (Or.inl ⟨filename, rfl, Or.inl inMiddle⟩))
    rcases infix_of_infix_append_cons foreign isInfix with inFilename | inEnd
    · exact Or.inr (Or.inr (Or.inl ⟨filename, rfl, Or.inr inFilename⟩))
    · exact Or.inr (Or.inr (Or.inr inEnd))

theorem no_return_of_escape (text : List Char) : ¬['\n', '\r'] <:+: text.flatMap escape := by
  have noStart (text : List Char) : ¬['\r'] <+: text.flatMap escape := by
    intro isPrefix
    cases text with
    | nil => simp at isPrefix
    | cons letter text =>
      rw [List.flatMap_cons] at isPrefix
      cases quoted : isQuoted letter with
      | true =>
        rw [escape_of_isQuoted quoted, List.cons_append, List.cons_prefix_cons] at isPrefix
        exact absurd isPrefix.1 (by decide)
      | false =>
        rw [escape_of_not_isQuoted quoted, List.cons_append, List.cons_prefix_cons] at isPrefix
        rw [← isPrefix.1] at quoted
        exact absurd quoted (by decide)
  induction text with
  | nil => decide
  | cons letter text ih =>
    have after (isInfix : ['\n', '\r'] <:+: letter :: text.flatMap escape) : False := by
      rcases List.infix_cons_iff.mp isInfix with isPrefix | inRest
      · exact noStart text (List.cons_prefix_cons.mp isPrefix).2
      · exact ih inRest
    intro isInfix
    rw [List.flatMap_cons] at isInfix
    cases quoted : isQuoted letter with
    | true =>
      rw [escape_of_isQuoted quoted, List.cons_append, List.infix_cons_iff,
        List.cons_prefix_cons] at isInfix
      rcases isInfix with ⟨isBackslash, -⟩ | inRest
      · exact absurd isBackslash (by decide)
      · exact after inRest
    | false =>
      rw [escape_of_not_isQuoted quoted] at isInfix
      exact after isInfix

theorem no_return_in_writeHeaders (typed : IsHeaderValue part.contentType) :
    ¬['\n', '\r'] <:+: writeHeaders part ++ ['\r'] := by
  intro isInfix
  rcases within_writeHeaders (by decide) isInfix with
    inStart | inName | ⟨filename, -, inMiddle | inFilename⟩ | inEnd
  · exact absurd inStart (by decide)
  · exact no_return_of_escape _ inName
  · exact absurd inMiddle (by decide)
  · exact no_return_of_escape _ inFilename
  · unfold typeLine at inEnd
    split at inEnd
    · exact absurd inEnd (by decide)
    · have shape : "\r\nContent-Type: ".toList ++ part.contentType ++ ['\r'] =
          "\r\nContent-Type:".toList ++ ' ' :: (part.contentType ++ ['\r']) := by simp
      rw [shape] at inEnd
      rcases infix_of_infix_append_cons (by decide) inEnd with inName | inValue
      · exact absurd inName (by decide)
      · have newline := inValue.subset List.mem_cons_self
        simp [typed.noNewline] at newline

theorem no_emptyLine (typed : IsHeaderValue part.contentType) :
    ¬"\r\n\r\n".toList <:+: writeHeaders part ++ "\r\n\r".toList := by
  have noReturn := no_return_in_writeHeaders typed
  have shape : writeHeaders part ++ "\r\n\r".toList =
      writeHeaders part ++ ['\r'] ++ ['\n'] ++ ['\r'] := by
    simp only [List.append_assoc]
    rfl
  intro isInfix
  have early : ['\n', '\r'] ++ ['\n'] <:+: writeHeaders part ++ ['\r'] ++ ['\n'] ++ ['\r'] := by
    rw [← shape]
    exact (List.suffix_cons '\r' ['\n', '\r', '\n']).isInfix.trans isInfix
  rw [List.infix_concat_iff, List.suffix_concat_iff] at early
  rcases early with (empty | ⟨_, ended, -⟩) | early
  · exact absurd empty (by simp)
  · exact absurd (List.append_inj_right' ended rfl) (by decide)
  rw [List.infix_concat_iff, List.suffix_concat_iff] at early
  rcases early with (empty | ⟨front, ended, isSuffix⟩) | early
  · exact absurd empty (by simp)
  · cases List.append_inj_left' ended rfl
    exact noReturn isSuffix.isInfix
  · exact noReturn ((List.prefix_append _ _).isInfix.trans early)

theorem no_emptyLine_of_utf8 (typed : IsHeaderValue part.contentType) :
    ¬lineBreak ++ lineBreak <:+:
      (utf8 (writeHeaders part) ++ (lineBreak ++ lineBreak)).dropLast := by
  have shape : (utf8 (writeHeaders part) ++ (lineBreak ++ lineBreak)).dropLast =
      utf8 (writeHeaders part ++ "\r\n\r".toList) := by
    rw [utf8_append, List.dropLast_append_of_ne_nil (by decide)]
    rfl
  rw [shape]
  intro isInfix
  exact no_emptyLine typed (@infix_of_utf8 _ "\r\n\r\n".toList isInfix)

theorem strip_writePart (part : FormPart) :
    strip (writePart part) = utf8 (writeHeaders part) ++ (lineBreak ++ lineBreak) ++ part.data := by
  have front : lineBreak.isPrefixOf (writePart part) = true := by
    rw [List.isPrefixOf_iff_prefix, writePart, writeHead, List.append_assoc, List.append_assoc,
      List.append_assoc]
    exact List.prefix_append _ _
  have rest : (writePart part).drop 2 =
      utf8 (writeHeaders part) ++ (lineBreak ++ lineBreak) ++ part.data ++ lineBreak := by
    simp [writePart, writeHead, lineBreak]
  have back : lineBreak.isSuffixOf ((writePart part).drop 2) = true := by
    rw [List.isSuffixOf_iff_suffix, rest]
    exact List.suffix_append _ _
  dsimp only [strip]
  rw [if_pos front, if_pos back, rest, List.length_append]
  exact List.take_left

theorem formPart_writePart (reads : ReadsUtf8 libs) (typed : IsHeaderValue part.contentType) :
    formPart libs (writePart part) = some (readHeaders (writeHeaders part) part.data) := by
  have found := find_append (no_emptyLine_of_utf8 typed) part.data
  rw [formPart_eq, strip_writePart, found, Option.map_some]
  have before : (utf8 (writeHeaders part) ++ (lineBreak ++ lineBreak) ++ part.data).take
      (utf8 (writeHeaders part)).length = utf8 (writeHeaders part) := by
    rw [List.append_assoc, List.take_left]
  have after : (utf8 (writeHeaders part) ++ (lineBreak ++ lineBreak) ++ part.data).drop
      ((utf8 (writeHeaders part)).length + 4) = part.data := by
    rw [← List.drop_drop, List.append_assoc, List.drop_left]
    rfl
  rw [before, after, reads.valid]

def readParameter (key : String) (parameter : List Char) : Option (List Char) := do
  let (name, value) ← splitOnce '=' parameter
  if (trimSpace name).map Char.toLower = key.toList then some (trimQuotes (trimSpace value))
  else none

theorem readParameter_quote {name : List Char} (unmarked : '=' ∉ name) :
    readParameter key (name ++ '=' :: quote text) =
      if (trimSpace name).map Char.toLower = key.toList then some (trimQuotes (quote text))
      else none := by
  rw [readParameter, splitOnce_append unmarked, Option.bind_eq_bind, Option.bind_some]
  dsimp only
  rw [trimSpace_quote]

theorem not_mem_quote (absent : letter ∉ text)
    (other : letter ≠ '"' ∧ letter ≠ '\\') : letter ∉ quote text := by
  have noEscape : letter ∉ text.flatMap escape := by
    intro there
    obtain ⟨written, writtenMem, inEscape⟩ := List.mem_flatMap.mp there
    unfold escape at inEscape
    split at inEscape
    · rcases List.mem_pair.mp inEscape with rfl | rfl
      · exact other.2 rfl
      · exact absent writtenMem
    · cases List.mem_singleton.mp inEscape
      exact absent writtenMem
  simp [quote, other.1, noEscape]

structure InLine (part : FormPart) : Prop where
  name : ';' ∉ part.name ∧ '\n' ∉ part.name
  filename : ∀ filename ∈ part.filename, ';' ∉ filename ∧ '\n' ∉ filename

def dispositionValue (part : FormPart) : List Char :=
  " form-data".toList ++ ';' :: (" name".toList ++ '=' :: quote part.name ++
    part.filename.elim [] fun filename => ';' :: (" filename".toList ++ '=' :: quote filename))

theorem disposition_eq (part : FormPart) :
    disposition part = "Content-Disposition".toList ++ ':' :: dispositionValue part := by
  have start : "Content-Disposition: form-data; name=".toList =
      "Content-Disposition".toList ++ ':' :: (" form-data".toList ++ ';' ::
        (" name".toList ++ ['='])) := by decide
  have middle : "; filename=".toList = ';' :: (" filename".toList ++ ['=']) := by decide
  unfold disposition dispositionValue
  rw [start, middle]
  generalize "Content-Disposition".toList = field
  generalize " form-data".toList = kind
  generalize " name".toList = name
  generalize " filename".toList = filename
  cases part.filename <;> simp

theorem splitOn_dispositionValue (inLine : InLine part) :
    (dispositionValue part).splitOn ';' = " form-data".toList ::
      (" name".toList ++ '=' :: quote part.name) ::
      part.filename.elim [] fun filename => [" filename".toList ++ '=' :: quote filename] := by
  have noMark {name text : List Char} (unmarked : ';' ∉ name) (absent : ';' ∉ text) :
      ';' ∉ name ++ '=' :: quote text := by
    rw [List.mem_append, List.mem_cons]
    rintro (inName | isEquals | inQuote)
    · exact unmarked inName
    · exact absurd isEquals (by decide)
    · exact not_mem_quote absent (by decide) inQuote
  have name := @noMark " name".toList _ (by decide) inLine.name.1
  unfold dispositionValue
  rw [List.splitOn_append_cons_self_of_not_mem (by decide)]
  cases given : part.filename with
  | none =>
    rw [Option.elim, List.append_nil, List.splitOn_eq_singleton name]
    rfl
  | some filename =>
    have other := @noMark " filename".toList _ (by decide) (inLine.filename filename given).1
    rw [Option.elim, List.splitOn_append_cons_self_of_not_mem name,
      List.splitOn_eq_singleton other]
    rfl

theorem dispositionParam_name (inLine : InLine part) :
    dispositionParam (dispositionValue part) "name" = some (trimQuotes (quote part.name)) := by
  change ((((dispositionValue part).splitOn ';').drop 1).findSome? (readParameter "name")) = _
  rw [splitOn_dispositionValue inLine, List.drop_one, List.tail_cons, List.findSome?_cons,
    readParameter_quote (by decide), if_pos (by decide)]

theorem dispositionParam_filename (inLine : InLine part) :
    dispositionParam (dispositionValue part) "filename" =
      part.filename.map fun filename => trimQuotes (quote filename) := by
  change ((((dispositionValue part).splitOn ';').drop 1).findSome? (readParameter "filename")) = _
  rw [splitOn_dispositionValue inLine, List.drop_one, List.tail_cons, List.findSome?_cons,
    readParameter_quote (by decide), if_neg (by decide)]
  cases part.filename with
  | none => rfl
  | some filename =>
    dsimp only [Option.elim]
    rw [List.findSome?_cons, readParameter_quote (by decide), if_pos (by decide)]
    rfl

theorem header_disposition (inLine : InLine part) (data : Bytes) :
    FormPart.header ⟨[], none, [], data⟩ (disposition part) =
      ⟨trimQuotes (quote part.name),
        part.filename.map fun filename => trimQuotes (quote filename), [], data⟩ := by
  unfold FormPart.header
  rw [disposition_eq, splitOnce_append (by decide)]
  dsimp only
  rw [if_pos (by decide), dispositionParam_name inLine, dispositionParam_filename inLine,
    Option.getD_some]

theorem header_contentType (typed : IsHeaderValue value) :
    part.header ("Content-Type: ".toList ++ value) = { part with contentType := value } := by
  have shape : "Content-Type: ".toList ++ value =
      "Content-Type".toList ++ ':' :: (' ' :: value) := by
    have start : "Content-Type: ".toList = "Content-Type".toList ++ [':', ' '] := by decide
    rw [start, List.append_assoc]
    rfl
  have trimmed : trimSpace (' ' :: value) = value := by
    rw [trimSpace, List.dropWhile_cons_of_pos (by decide)]
    exact typed.trimmed
  unfold FormPart.header
  rw [shape, splitOnce_append (by decide)]
  dsimp only
  rw [if_neg (by decide), if_pos (by decide), trimmed]

theorem no_newline_in_disposition (inLine : InLine part) : '\n' ∉ disposition part := by
  unfold disposition
  rw [List.mem_append, List.mem_append]
  rintro ((inStart | inName) | inFilename)
  · exact absurd inStart (by decide)
  · exact not_mem_quote inLine.name.2 (by decide) inName
  · cases given : part.filename with
    | none => simp [given] at inFilename
    | some filename =>
      rw [given, Option.elim, List.mem_append] at inFilename
      rcases inFilename with inMiddle | inQuote
      · exact absurd inMiddle (by decide)
      · exact not_mem_quote (inLine.filename filename given).2 (by decide) inQuote

theorem getLast?_disposition (part : FormPart) : (disposition part).getLast? = some '"' := by
  have last (text : List Char) : (quote text).getLast? = some '"' := by
    rw [quote, ← List.cons_append, List.getLast?_concat]
  unfold disposition
  cases part.filename with
  | none => rw [Option.elim, List.append_nil, List.getLast?_append, last, Option.some_or]
  | some filename =>
    rw [Option.elim, List.getLast?_append, List.getLast?_append, last, Option.some_or,
      Option.some_or]

theorem readHeaders_writeHeaders (inLine : InLine part) (typed : IsHeaderValue part.contentType)
    (data : Bytes) :
    readHeaders (writeHeaders part) data =
      ⟨trimQuotes (quote part.name),
        part.filename.map fun filename => trimQuotes (quote filename), part.contentType, data⟩ := by
  have unbroken := no_newline_in_disposition inLine
  unfold readHeaders writeHeaders typeLine
  split
  next untyped =>
    have noReturn : ¬['\r'] <:+ disposition part := by
      rintro ⟨front, ended⟩
      have last := getLast?_disposition part
      rw [← ended, List.getLast?_concat] at last
      exact absurd last (by decide)
    rw [List.append_nil, List.splitOn_eq_singleton unbroken, List.map_singleton,
      trimSuffix_of_not_suffix noReturn, List.foldl_cons, List.foldl_nil,
      header_disposition inLine, untyped]
  next =>
    have shape : disposition part ++ ("\r\nContent-Type: ".toList ++ part.contentType) =
        (disposition part ++ ['\r']) ++ '\n' :: ("Content-Type: ".toList ++ part.contentType) := by
      have start : "\r\nContent-Type: ".toList = '\r' :: '\n' :: "Content-Type: ".toList := by
        decide
      rw [start, List.append_assoc]
      rfl
    have first : '\n' ∉ disposition part ++ ['\r'] := by simp [unbroken]
    have second : '\n' ∉ "Content-Type: ".toList ++ part.contentType := by
      rw [List.mem_append]
      rintro (inStart | inValue)
      · exact absurd inStart (by decide)
      · exact typed.noNewline inValue
    have noReturn : ¬['\r'] <:+ "Content-Type: ".toList ++ part.contentType := by
      intro isSuffix
      rcases List.mem_append.mp (isSuffix.subset List.mem_cons_self) with inStart | inValue
      · exact absurd inStart (by decide)
      · exact typed.noReturn inValue
    rw [shape, List.splitOn_append_cons_self_of_not_mem first, List.splitOn_eq_singleton second,
      List.map_cons, List.map_singleton, trimSuffix_append, trimSuffix_of_not_suffix noReturn,
      List.foldl_cons, List.foldl_cons, List.foldl_nil, header_disposition inLine,
      header_contentType typed]

theorem formPart_writePart_iff (reads : ReadsUtf8 libs)
    (typed : IsHeaderValue part.contentType) :
    formPart libs (writePart part) = some part ↔ PlainNames part := by
  rw [formPart_writePart reads typed, Option.some_inj]
  constructor
  · intro same
    have read := readFrom_readHeaders (writeHeaders part) part.data
    rw [same] at read
    have inLine : InLine part :=
      ⟨read.name.2, fun filename given => (read.filename filename given).2⟩
    rw [readHeaders_writeHeaders inLine typed] at same
    have name := trimQuotes_quote_iff.mp (congrArg FormPart.name same)
    have filenames := congrArg FormPart.filename same
    refine ⟨fun letter letterMem => ⟨name letter letterMem, ?_⟩, ?_⟩
    · rintro rfl
      exact inLine.name.1 letterMem
    · intro filename given letter letterMem
      rw [given] at filenames
      have plain := trimQuotes_quote_iff.mp (Option.some_inj.mp filenames)
      refine ⟨plain letter letterMem, ?_⟩
      rintro rfl
      exact (inLine.filename filename given).1 letterMem
  · rintro ⟨name, filenames⟩
    have absent {text : List Char} (plain : Plain text) : ';' ∉ text ∧ '\n' ∉ text :=
      ⟨fun there => (plain _ there).2 rfl, fun there => absurd (plain _ there).1 (by decide)⟩
    have unquoted {text : List Char} (plain : Plain text) : trimQuotes (quote text) = text :=
      trimQuotes_quote fun letter letterMem => (plain letter letterMem).1
    have inLine : InLine part :=
      ⟨absent name, fun filename given => absent (filenames filename given)⟩
    rw [readHeaders_writeHeaders inLine typed, unquoted name]
    cases given : part.filename with
    | none => rw [Option.map_none, ← given]
    | some filename => rw [Option.map_some, unquoted (filenames filename given), ← given]

end Aavishield.Multipart
