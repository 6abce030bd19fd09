import Mathlib.Data.List.Basic

/-!
# Bytes read as text

Bytes that are no UTF-8 are read as U+FFFD, one for each byte that begins no character.
-/

namespace LossyText

abbrev Bytes := List UInt8

def utf8 (text : List Char) : Bytes := text.flatMap String.utf8EncodeChar

/-- The character that the bytes begin with (`utf8.DecodeRune`). -/
def firstChar (bytes : Bytes) : Option Char := bytes.toByteArray.utf8DecodeChar? 0

def replacementChar : Char := '\uFFFD'

def readChars : ℕ → Bytes → List Char
  | 0, _ | _ + 1, [] => []
  | count + 1, byte :: rest =>
    match firstChar (byte :: rest) with
    | some letter => letter :: readChars count ((byte :: rest).drop letter.utf8Size)
    | none => replacementChar :: readChars count rest

def lossy (bytes : Bytes) : List Char := readChars bytes.length bytes

/-- Whether the bytes are those of a text (`utf8.Valid`). -/
def Valid (bytes : Bytes) : Prop := utf8 (lossy bytes) = bytes

instance (bytes : Bytes) : Decidable (Valid bytes) := inferInstanceAs (Decidable (_ = _))

variable {letter : Char} {text : List Char} {rest : Bytes}

theorem firstChar_append : firstChar (String.utf8EncodeChar letter ++ rest) = some letter := by
  rw [firstChar, List.toByteArray_append, ByteArray.utf8DecodeChar?_utf8EncodeChar_append]

theorem utf8_cons : utf8 (letter :: text) = String.utf8EncodeChar letter ++ utf8 text := by
  simp [utf8]

theorem readChars_utf8 {count : ℕ} (enough : text.length ≤ count) :
    readChars count (utf8 text) = text := by
  induction text generalizing count with
  | nil => cases count <;> rfl
  | cons letter rest ih =>
    cases count with
    | zero => simp at enough
    | succ count =>
      have size := String.length_utf8EncodeChar letter
      have positive := letter.utf8Size_pos
      have first : firstChar (utf8 (letter :: rest)) = some letter := by
        rw [utf8_cons, firstChar_append]
      have dropped : (utf8 (letter :: rest)).drop letter.utf8Size = utf8 rest := by
        rw [utf8_cons, ← size, List.drop_left]
      cases shape : utf8 (letter :: rest) with
      | nil =>
        have empty := congrArg List.length shape
        simp [utf8_cons, size] at empty
        omega
      | cons byte bytes =>
        rw [shape] at first dropped
        simp only [readChars, first, dropped]
        rw [ih (by simpa using enough)]

theorem length_le_utf8 : text.length ≤ (utf8 text).length := by
  induction text with
  | nil => simp
  | cons letter rest ih =>
    have positive := letter.utf8Size_pos
    simp only [utf8_cons, List.length_append, String.length_utf8EncodeChar, List.length_cons]
    omega

@[simp]
theorem lossy_utf8 (text : List Char) : lossy (utf8 text) = text := readChars_utf8 length_le_utf8

@[simp]
theorem utf8_append (front back : List Char) : utf8 (front ++ back) = utf8 front ++ utf8 back :=
  List.flatMap_append

theorem utf8EncodeChar_ne_nil (letter : Char) : String.utf8EncodeChar letter ≠ [] := by
  intro empty
  have size := String.length_utf8EncodeChar letter
  have positive := letter.utf8Size_pos
  rw [empty, List.length_nil] at size
  omega

/-! ## Texts inside others

A character never begins inside the bytes of another one, so bytes that are a text stand in the
bytes of a text only where the text itself stands.
-/

variable {bytes : Bytes} {part : List Char}

theorem prefix_of_utf8 (isPrefix : utf8 part <+: utf8 text) : part <+: text := by
  induction part generalizing text with
  | nil => exact List.nil_prefix
  | cons letter part ih =>
    obtain ⟨rest, shape⟩ := isPrefix
    rw [utf8_cons, List.append_assoc] at shape
    have first : firstChar (utf8 text) = some letter := by rw [← shape, firstChar_append]
    cases text with
    | nil =>
      have empty := (List.append_eq_nil_iff.mp shape).1
      exact absurd empty (utf8EncodeChar_ne_nil letter)
    | cons other text =>
      rw [utf8_cons, firstChar_append] at first
      cases first
      rw [utf8_cons, List.append_cancel_left_eq] at shape
      exact List.prefix_cons_inj letter |>.mpr (ih ⟨rest, shape⟩)

theorem isFirstByte_iff {before after : Bytes} {byte : UInt8}
    (encoded : String.utf8EncodeChar letter = before ++ byte :: after) :
    byte.IsUTF8FirstByte ↔ before = [] := by
  have within : before.length < (String.utf8EncodeChar letter).length := by
    rw [encoded, List.length_append, List.length_cons]
    omega
  have there : (String.utf8EncodeChar letter)[before.length] = byte := by
    simp [encoded]
  rw [← there, UInt8.isUTF8FirstByte_getElem_utf8EncodeChar, List.length_eq_zero_iff]

theorem infix_of_utf8 (isInfix : utf8 part <:+: utf8 text) : part <:+: text := by
  cases part with
  | nil => exact List.nil_infix
  | cons first part =>
    induction text with
    | nil =>
      have empty := List.infix_nil.mp isInfix
      rw [utf8_cons, List.append_eq_nil_iff] at empty
      exact absurd empty.1 (utf8EncodeChar_ne_nil first)
    | cons letter text ih =>
      obtain ⟨before, after, shape⟩ := isInfix
      rw [@utf8_cons letter, List.append_assoc] at shape
      rcases List.append_eq_append_iff.mp shape with
        ⟨skipped, encoded, rest⟩ | ⟨skipped, -, rest⟩
      · cases skipped with
        | nil =>
          have isPrefix : utf8 (first :: part) <+: utf8 text := ⟨after, rest⟩
          exact (prefix_of_utf8 isPrefix).isInfix.trans (List.suffix_cons letter text).isInfix
        | cons byte skipped =>
          -- The part begins at a byte of the letter, so at its first one.
          obtain ⟨head, others, firstBytes⟩ :=
            List.exists_cons_of_ne_nil (utf8EncodeChar_ne_nil first)
          rw [utf8_cons, firstBytes, List.cons_append, List.cons_append] at rest
          have same : head = byte := (List.cons.inj rest).1
          have begins : byte.IsUTF8FirstByte := by
            rw [← same]
            exact (@isFirstByte_iff first [] others head firstBytes).mpr rfl
          cases (isFirstByte_iff encoded).mp begins
          have isPrefix : utf8 (first :: part) <+: utf8 (letter :: text) :=
            ⟨after, by rw [@utf8_cons letter, ← shape, List.nil_append]⟩
          exact (prefix_of_utf8 isPrefix).isInfix
      · have inText : utf8 (first :: part) <:+: utf8 text := ⟨skipped, after, by
          rw [List.append_assoc, rest]⟩
        exact (ih inText).trans (List.suffix_cons letter text).isInfix

theorem eq_append_of_firstChar (first : firstChar bytes = some letter) :
    ∃ rest, bytes = String.utf8EncodeChar letter ++ rest := by
  obtain ⟨rest, shape⟩ := ByteArray.exists_of_utf8DecodeChar?_eq_some first
  have listed := congrArg (fun array => array.data.toList) shape
  rw [List.toList_data_toByteArray, ByteArray.toList_data_append,
    List.toList_data_toByteArray] at listed
  exact ⟨rest.data.toList, listed⟩

theorem utf8_prefix_of_readChars {count : ℕ} (unreplaced : replacementChar ∉ part)
    (isPrefix : part <+: readChars count bytes) : utf8 part <+: bytes := by
  induction part generalizing count bytes with
  | nil => exact List.nil_prefix
  | cons letter part ih =>
    rw [List.mem_cons, not_or] at unreplaced
    cases count with
    | zero => simp [readChars] at isPrefix
    | succ count =>
      cases bytes with
      | nil => simp [readChars] at isPrefix
      | cons byte bytes =>
        cases first : firstChar (byte :: bytes) with
        | none =>
          simp only [readChars, first, List.cons_prefix_cons] at isPrefix
          exact absurd isPrefix.1.symm unreplaced.1
        | some read =>
          simp only [readChars, first, List.cons_prefix_cons] at isPrefix
          obtain ⟨rfl, isPrefix⟩ := isPrefix
          obtain ⟨rest, shape⟩ := eq_append_of_firstChar first
          rw [shape, ← String.length_utf8EncodeChar, List.drop_left] at isPrefix
          rw [shape, utf8_cons, List.prefix_append_right_inj]
          exact ih unreplaced.2 isPrefix

theorem utf8_infix_of_readChars {count : ℕ} (unreplaced : replacementChar ∉ part)
    (isInfix : part <:+: readChars count bytes) : utf8 part <:+: bytes := by
  induction count generalizing bytes with
  | zero =>
    rw [readChars, List.infix_nil] at isInfix
    rw [isInfix]
    exact List.nil_infix
  | succ count ih =>
    cases bytes with
    | nil =>
      rw [readChars, List.infix_nil] at isInfix
      rw [isInfix]
      exact List.nil_infix
    | cons byte bytes =>
      cases first : firstChar (byte :: bytes) with
      | none =>
        have read : readChars (count + 1) (byte :: bytes) =
            replacementChar :: readChars count bytes := by simp only [readChars, first]
        rw [read, List.infix_cons_iff, ← read] at isInfix
        rcases isInfix with isPrefix | inRest
        · exact (utf8_prefix_of_readChars unreplaced isPrefix).isInfix
        · exact (ih inRest).trans (List.suffix_cons byte bytes).isInfix
      | some letter =>
        have read : readChars (count + 1) (byte :: bytes) =
            letter :: readChars count ((byte :: bytes).drop letter.utf8Size) := by
          simp only [readChars, first]
        rw [read, List.infix_cons_iff, ← read] at isInfix
        rcases isInfix with isPrefix | inRest
        · exact (utf8_prefix_of_readChars unreplaced isPrefix).isInfix
        · exact (ih inRest).trans (List.drop_suffix _ _).isInfix

theorem utf8_infix_of_lossy (unreplaced : replacementChar ∉ part)
    (isInfix : part <:+: lossy bytes) : utf8 part <:+: bytes :=
  utf8_infix_of_readChars unreplaced isInfix

end LossyText
