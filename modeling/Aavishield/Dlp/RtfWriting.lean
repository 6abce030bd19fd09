import Aavishield.Dlp.Rtf
import Aavishield.Lib.Text
import Mathlib

/-!
# Writing RTF

What a writer of RTF puts down for a text: characters as such, as hexadecimal escapes, as
Unicode escapes with characters for older readers, and by control words, in groups of which some
hold no text.  A brace ends the characters for older readers early.
-/

namespace Aavishield.Rtf

open Digits

/-- A character for readers that know no `\u`. -/
inductive Fallback where
  | plain (letter : Char)
  | hex (high low : Char)

structure Escape where
  /-- Above `\u32767`, or anyway, 65536 is subtracted. -/
  negative : Bool
  spaced : Bool
  fallback : List Fallback

/-- The pieces that a document is written in. -/
inductive Piece where
  | opening
  | closing
  | lineEnd (letter : Char)
  | plain (letter : Char)
  | mark (letter : Char)
  /-- Any control word but `\u`. -/
  | word (name : List Char) (param : Option ℤ) (spaced : Bool)
  | hex (high low : Char)
  | unicode (letter : Char) (escape : Escape)
  | pair (letter : Char) (first second : Escape)

def writeNumber (number : ℤ) : List Char :=
  if number < 0 then '-' :: Nat.toDigits 10 number.natAbs else Nat.toDigits 10 number.natAbs

def writeSpace (spaced : Bool) : List Char := if spaced then [' '] else []

def Fallback.write : Fallback → List Char
  | .plain letter => [letter]
  | .hex high low => ['\\', '\'', high, low]

/-- `\uN` for a unit of UTF-16. -/
def Escape.write (escape : Escape) (unit : ℕ) : List Char :=
  '\\' :: 'u' :: (writeNumber (if escape.negative then (unit : ℤ) - 65536 else unit) ++
    (writeSpace escape.spaced ++ escape.fallback.flatMap Fallback.write))

def highSurrogate (letter : Char) : ℕ := 0xd800 + (letter.toNat - 0x10000) / 0x400

def lowSurrogate (letter : Char) : ℕ := 0xdc00 + (letter.toNat - 0x10000) % 0x400

def Piece.write : Piece → List Char
  | .opening => ['\x7b']
  | .closing => ['\x7d']
  | .lineEnd letter | .plain letter => [letter]
  | .mark letter => ['\\', letter]
  | .word name param spaced =>
    '\\' :: (name ++ (param.elim [] writeNumber ++ writeSpace spaced))
  | .hex high low => ['\\', '\'', high, low]
  | .unicode letter escape => escape.write letter.toNat
  | .pair letter first second =>
    first.write (highSurrogate letter) ++ second.write (lowSurrogate letter)

/-- Where in a document a piece stands: its groups, what readers that know `\u` are still to skip,
and the hexadecimal escapes directly before. -/
structure Place where
  stack : List Group
  owed : ℕ
  run : Bytes

def Place.start : Place := ⟨[⟨false, 1⟩], 0, []⟩

def Place.ignorable (place : Place) : Bool := place.stack.head?.any Group.ignorable

def Place.uc (place : Place) : ℕ := place.stack.head?.elim 0 Group.uc

def Place.change (place : Place) (change : Group → Group) : Place :=
  match place.stack with
  | [] => place
  | top :: below => { place with stack := change top :: below }

def byteOf (high low : Char) : UInt8 := UInt8.ofNat ((readNumber 16 [high, low]).getD 0)

namespace Place

variable (place : Place)

def afterWord (name : String) (param : Option ℤ) : Place :=
  if ignoredDestinations.contains name then
    place.change fun group => { group with ignorable := true }
  else if name = "uc" ∧ place.ignorable = false then
    place.change fun group => { group with uc := (param.getD 1).toNat }
  else place

/-- After `\u` with so many characters; a group without text knows no `\u`. -/
def afterUnicode (first second : ℕ) : Place :=
  { place with
    owed := if place.ignorable then place.owed - (first + second) else place.uc - second
    run := [] }

def afterLetter : Place :=
  if 0 < place.owed then { place with owed := place.owed - 1 } else { place with run := [] }

def afterHex (byte : UInt8) : Place :=
  if 0 < place.owed then { place with owed := place.owed - 1 }
  else if place.ignorable then place
  else { place with run := place.run ++ [byte] }

def after : Piece → Place
  | .opening => { place with stack := place.stack.head?.toList ++ place.stack, run := [] }
  | .closing => { place with stack := place.stack.tail, run := [] }
  | .lineEnd _ => place
  | .plain _ => place.afterLetter
  | .mark letter =>
    if letter = '*' then
      { place with run := [] }.change fun group => { group with ignorable := true }
    else { place with run := [] }
  | .word name param _ => { place with run := [] }.afterWord (String.ofList name) param
  | .hex high low => place.afterHex (byteOf high low)
  | .unicode _ escape => place.afterUnicode 0 escape.fallback.length
  | .pair _ first second => place.afterUnicode first.fallback.length second.fallback.length

end Place

/-- The next character does not belong to a control word, or to its number. -/
def Separated (hasParam : Bool) (following : List Char) : Prop :=
  ∀ letter ∈ following.head?, letter.isDigit = false ∧ letter ≠ ' ' ∧
    (hasParam = false → letter.isAlpha = false ∧ letter ≠ '-')

def isSpecial (letter : Char) : Prop :=
  letter = '\\' ∨ letter = '\x7b' ∨ letter = '\x7d' ∨ letter = '\r' ∨ letter = '\n'

def isHexDigit (letter : Char) : Prop := (digitValue letter).isSome = true

def Fallback.Valid : Fallback → Prop
  | .plain letter => ¬isSpecial letter
  | .hex high low => isHexDigit high ∧ isHexDigit low

def Escape.Valid (escape : Escape) (place : Place) (following : List Char) : Prop :=
  (∀ fallback ∈ escape.fallback, fallback.Valid) ∧
    (escape.spaced = false →
      Separated true (escape.fallback.flatMap Fallback.write ++ following)) ∧
    (place.ignorable = false → escape.fallback.length = place.uc ∨
      escape.fallback.length < place.uc ∧
        ∀ letter ∈ following.head?, letter = '\x7b' ∨ letter = '\x7d')

def Piece.Valid (place : Place) (following : List Char) : Piece → Prop
  | .opening => True
  | .closing => 1 < place.stack.length
  | .lineEnd letter => letter = '\r' ∨ letter = '\n'
  | .plain letter => ¬isSpecial letter
  | .mark letter => letter.isAlpha = false ∧ letter ≠ '\''
  | .word name param spaced =>
    name ≠ [] ∧ (∀ letter ∈ name, letter.isLower = true) ∧ name ≠ "u".toList ∧
      name ≠ "bin".toList ∧ (∀ number ∈ param, FitsI64 number) ∧
      (spaced = false → Separated param.isSome following)
  | .hex high low => isHexDigit high ∧ isHexDigit low
  | .unicode letter escape => letter.toNat < 0x10000 ∧ escape.Valid place following
  | .pair letter first second =>
    0x10000 ≤ letter.toNat ∧
      first.Valid place (second.write (lowSurrogate letter) ++ following) ∧
      second.Valid place following

def writeAll (pieces : List Piece) : List Char := pieces.flatMap Piece.write

/-- Every piece is valid where it stands. -/
def WellFormed : Place → List Piece → Prop
  | _, [] => True
  | place, piece :: rest =>
    piece.Valid place (writeAll rest) ∧ WellFormed (place.after piece) rest

def markText (letter : Char) : List Char :=
  if letter = '\\' ∨ letter = '\x7b' ∨ letter = '\x7d' then [letter]
  else if letter = '~' then ['\u00a0']
  else if letter = '_' then ['-']
  else if letter = '\n' ∨ letter = '\r' then ['\n']
  else []

/-- The text of a piece, line breaks as `\n`. -/
def Piece.text (place : Place) (piece : Piece) : List Char :=
  if place.ignorable then []
  else
    match piece with
    | .plain letter | .unicode letter _ | .pair letter _ _ => [letter]
    | .mark letter => markText letter
    | .word name _ _ =>
      if ignoredDestinations.contains (String.ofList name) then []
      else (symbols.lookup (String.ofList name)).toList
    | .hex high low => [windows1252 (byteOf high low)]
    | .opening | .closing | .lineEnd _ => []

/-- What the pieces show. -/
def text : Place → List Piece → List Char
  | _, [] => []
  | place, piece :: rest => piece.text place ++ text (place.after piece) rest

/-- Outside of the groups without text, no character is written as two units, and none is written
as such or as an escape where a reader is still to skip some. -/
def Piece.Kept (place : Place) (piece : Piece) : Prop :=
  place.ignorable = false →
    match piece with
    | .plain _ | .hex _ _ => place.owed = 0
    | .pair _ _ _ => False
    | _ => True

/-- Besides, no run of escapes looks like a byte order mark. -/
def Kept : Place → List Piece → Prop
  | _, [] => True
  | place, piece :: rest =>
    piece.Kept place ∧ ¬Marked (place.after piece).run ∧ Kept (place.after piece) rest

variable {decoder : Windows1252} {place : Place} {piece : Piece} {out following : List Char}
  {reader : Reader} {top : Group} {below : List Group}

def Place.state (place : Place) (out : List Char) : Reader :=
  ⟨out, place.stack, place.owed, place.run⟩

theorem decode_nil : decoder.decode [] = [] := decoder.unmarked [] (by decide)

theorem flush_eq : reader.flush decoder =
    { reader with out := reader.out ++ decoder.decode reader.pendingBytes, pendingBytes := [] } := by
  unfold Reader.flush
  split_ifs with empty
  · rw [empty, decode_nil, List.append_nil, ← empty]
  · rfl

def Piece.own (place : Place) (piece : Piece) : List Char :=
  if place.ignorable then []
  else
    match piece with
    | .plain letter => if 0 < place.owed then [] else [letter]
    | .mark letter => markText letter
    | .word name _ _ =>
      if ignoredDestinations.contains (String.ofList name) then []
      else (symbols.lookup (String.ofList name)).toList
    | .unicode letter _ => [letter]
    | _ => []

def Piece.flushed (place : Place) : Piece → Bytes
  | .lineEnd _ | .hex _ _ => []
  | .plain _ => if 0 < place.owed then [] else place.run
  | _ => place.run

def Piece.shown (decoder : Windows1252) (place : Place) (piece : Piece) : List Char :=
  decoder.decode (piece.flushed place) ++ piece.own place

def Reads (decoder : Windows1252) (place : Place) (piece : Piece) (following : List Char) : Prop :=
  ∀ out, (place.state out).scan decoder (piece.write ++ following) =
    ((place.after piece).state (out ++ piece.shown decoder place)).scan decoder following

theorem reads_opening (inGroup : place.stack = top :: below) :
    Reads decoder place .opening following := by
  intro out
  apply Reader.scan_cons
  simp [Reader.turn, Place.state, inGroup, Reader.openGroup, flush_eq, Place.after, Piece.shown,
    Piece.flushed, Piece.own]

theorem reads_closing (inGroup : place.stack = top :: below) (nested : 1 < place.stack.length) :
    Reads decoder place .closing following := by
  intro out
  apply Reader.scan_cons
  have outer : below ≠ [] := by
    rintro rfl
    simp [inGroup] at nested
  simp [Reader.turn, Place.state, inGroup, Reader.closeGroup, flush_eq, Place.after, Piece.shown,
    Piece.flushed, Piece.own, outer]

variable {letter : Char}

theorem reads_lineEnd (isEnd : letter = '\r' ∨ letter = '\n')
    (inGroup : place.stack = top :: below) :
    Reads decoder place (.lineEnd letter) following := by
  intro out
  apply Reader.scan_cons
  rcases isEnd with rfl | rfl <;>
    simp [Reader.turn, Place.state, inGroup, Place.after, Piece.shown, Piece.flushed, Piece.own,
      decode_nil]

theorem turn_plain (notSpecial : ¬isSpecial letter) (inGroup : reader.stack = top :: below) :
    reader.turn decoder letter following = some (reader.plain decoder top letter, following) := by
  simp only [isSpecial, not_or] at notSpecial
  simp [Reader.turn, inGroup, notSpecial]

theorem reads_plain (notSpecial : ¬isSpecial letter) (inGroup : place.stack = top :: below) :
    Reads decoder place (.plain letter) following := by
  intro out
  apply Reader.scan_cons
  rw [turn_plain notSpecial inGroup]
  by_cases owing : 0 < place.owed
  · simp [Reader.plain, Place.state, Place.after, Place.afterLetter, Piece.shown, Piece.flushed,
      Piece.own, owing, decode_nil]
  · by_cases silent : top.ignorable = true <;>
      simp [Reader.plain, Place.state, Place.after, Place.afterLetter, Piece.shown, Piece.flushed,
        Piece.own, owing, silent, inGroup, Place.ignorable, flush_eq, Reader.push]

theorem reads_mark (notWord : letter.isAlpha = false) (notHex : letter ≠ '\'')
    (inGroup : place.stack = top :: below) :
    Reads decoder place (.mark letter) following := by
  intro out
  apply Reader.scan_cons
  by_cases isStar : letter = '*'
  · subst isStar
    simp [Reader.turn, Reader.escape, Reader.mark, Place.state, inGroup, Place.after,
      Place.change, Piece.shown, Piece.flushed, Piece.own, flush_eq, markText]
  · by_cases silent : top.ignorable = true
    · simp [Reader.turn, Reader.escape, Reader.mark, Place.state, inGroup, Place.after,
        Piece.shown, Piece.flushed, Piece.own, flush_eq, isStar, notWord, notHex, silent,
        Place.ignorable]
    · simp [Reader.turn, Reader.escape, Reader.mark, Place.state, inGroup, Place.after,
        Piece.shown, Piece.flushed, Piece.own, flush_eq, markText, isStar, notWord, notHex, silent,
        Place.ignorable, Reader.push]
      split_ifs <;> simp

theorem digitValue_lt {digit : ℕ} (isDigit : digitValue letter = some digit) :
    digit < 16 := by
  have code : letter.toNat = letter.val.toNat := rfl
  have upper : '9'.val.toNat = 57 ∧ 'f'.val.toNat = 102 ∧ 'F'.val.toNat = 70 := by decide
  unfold digitValue at isDigit
  simp only [Char.le_def, UInt32.le_iff_toNat_le] at isDigit
  split_ifs at isDigit <;> cases isDigit <;> omega

theorem fromStrRadix_hex {high low : Char} (isHigh : isHexDigit high) (isLow : isHexDigit low) :
    fromStrRadix [high, low] = some (byteOf high low) := by
  obtain ⟨first, isFirst⟩ := Option.isSome_iff_exists.1 isHigh
  obtain ⟨second, isSecond⟩ := Option.isSome_iff_exists.1 isLow
  have smallFirst := digitValue_lt isFirst
  have smallSecond := digitValue_lt isSecond
  have notPlus : high ≠ '+' := by
    rintro rfl
    cases isFirst
  have value : readNumber 16 [high, low] = some (first * 16 + second) := by
    simp [readNumber, addDigit, isFirst, isSecond, Option.filter, smallFirst, smallSecond]
  rw [byteOf, value]
  unfold fromStrRadix
  split <;> simp_all

theorem reads_hex {high low : Char} (isHigh : isHexDigit high) (isLow : isHexDigit low)
    (inGroup : place.stack = top :: below) :
    Reads decoder place (.hex high low) following := by
  intro out
  apply Reader.scan_cons
  by_cases owing : 0 < place.owed
  · simp [Reader.turn, Reader.escape, Reader.hex, Place.state, inGroup, Place.after,
      Place.afterHex, Piece.shown, Piece.flushed, Piece.own, owing, decode_nil]
  · by_cases silent : top.ignorable = true <;>
      simp [Reader.turn, Reader.escape, Reader.hex, Place.state, inGroup, Place.after,
        Place.afterHex, Piece.shown, Piece.flushed, Piece.own, owing, decode_nil, silent,
        fromStrRadix_hex isHigh isLow, Place.ignorable]

theorem readParam_none (noSign : ∀ letter ∈ following.head?, letter.isDigit = false ∧ letter ≠ '-') :
    readParam following = (none, following) := by
  cases following with
  | nil => rfl
  | cons letter rest =>
    obtain ⟨notDigit, notSign⟩ := noSign letter rfl
    simp [readParam, notDigit, notSign]

theorem takeWhile_dropWhile_of_head {keeps : Char → Bool} {text : List Char}
    (stops : ∀ letter ∈ text.head?, keeps letter = false) :
    text.takeWhile keeps = [] ∧ text.dropWhile keeps = text := by
  cases text with
  | nil => exact ⟨rfl, rfl⟩
  | cons letter rest => simp [stops letter rfl]

theorem isDigit_of_mem_writeNumber {number : ℤ}
    (isNext : letter ∈ (writeNumber number).head?) : letter = '-' ∨ letter.isDigit = true := by
  unfold writeNumber at isNext
  split_ifs at isNext
  · exact .inl (Option.some.inj isNext).symm
  · exact .inr (Nat.isDigit_of_mem_toDigits (by decide) (by decide) (List.mem_of_head? isNext))

theorem isAlpha_eq_false_of_isDigit (isDigit : letter.isDigit = true) :
    letter.isAlpha = false := by
  have code : 'A'.val.toNat = 65 ∧ 'a'.val.toNat = 97 ∧ '9'.val.toNat = 57 := by decide
  simp only [Char.isDigit, Char.isAlpha, Char.isUpper, Char.isLower, Bool.and_eq_true,
    Bool.or_eq_false_iff, Bool.and_eq_false_iff, decide_eq_true_eq, decide_eq_false_iff_not,
    ge_iff_le, UInt32.le_iff_toNat_le] at isDigit ⊢
  omega

theorem toLower_of_isLower (isLower : letter.isLower = true) :
    letter.toLower = letter := by
  have code : 'a'.val.toNat = 97 := rfl
  simp only [Char.isLower, Bool.and_eq_true, decide_eq_true_eq, ge_iff_le,
    UInt32.le_iff_toNat_le] at isLower
  rcases Text.toLower_cases letter with ⟨-, isLast, -⟩ | same
  · have value : letter.toNat = letter.val.toNat := rfl
    omega
  · exact same

theorem writeNumber_ne_nil {number : ℤ} : writeNumber number ≠ [] := by
  unfold writeNumber
  split_ifs
  · exact List.cons_ne_nil _ _
  · exact Nat.toDigits_ne_nil

theorem readParam_writeNumber {number : ℤ} (small : FitsI64 number)
    (ends : ∀ letter ∈ following.head?, letter.isDigit = false) :
    readParam (writeNumber number ++ following) = (some number, following) := by
  have digits : ∀ letter ∈ Nat.toDigits 10 number.natAbs, letter.isDigit = true :=
    fun letter => Nat.isDigit_of_mem_toDigits (by decide) (by decide)
  have notEmpty : Nat.toDigits 10 number.natAbs ≠ [] := Nat.toDigits_ne_nil
  have noMore := takeWhile_dropWhile_of_head ends
  have value := readNumber_toDigits (by decide : 1 < 10) (by decide) number.natAbs
  by_cases negative : number < 0
  · have isNumber : -(number.natAbs : ℤ) = number := by omega
    rw [writeNumber, if_pos negative]
    generalize number.natAbs = size at *
    simp [readParam, List.takeWhile_append_of_pos digits,
      List.dropWhile_append_of_pos digits, noMore, notEmpty, value, isNumber, small]
  · have isNumber : (number.natAbs : ℤ) = number := by omega
    have notSign : (Nat.toDigits 10 number.natAbs).head? ≠ some '-' :=
      fun isSign => absurd (digits '-' (List.mem_of_head? isSign)) (by decide)
    rw [writeNumber, if_neg negative]
    generalize number.natAbs = size at *
    simp [readParam, List.takeWhile_append_of_pos digits,
      List.dropWhile_append_of_pos digits, noMore, notEmpty, value, isNumber, notSign, small]

theorem readWord_write {name : List Char} {param : Option ℤ} {spaced : Bool}
    (lower : ∀ letter ∈ name, letter.isLower = true) (small : ∀ number ∈ param, FitsI64 number)
    (separated : spaced = false → Separated param.isSome following) :
    readWord (name ++ (param.elim [] writeNumber ++ (writeSpace spaced ++ following))) =
      (String.ofList name, param, following) := by
  have alpha : ∀ letter ∈ name, letter.isAlpha = true := fun letter mem => by
    simp [Char.isAlpha, lower letter mem]
  have same : name.map Char.toLower = name :=
    (List.map_congr_left fun letter mem => toLower_of_isLower (lower letter mem)).trans
      (List.map_id name)
  have ends : ∀ letter ∈ (writeSpace spaced ++ following).head?, letter.isDigit = false ∧
      (param = none → letter.isAlpha = false ∧ letter ≠ '-') := by
    intro letter isNext
    cases spaced with
    | true =>
      cases isNext
      exact ⟨by decide, fun _ => by decide⟩
    | false =>
      obtain ⟨notDigit, -, bare⟩ := separated rfl letter isNext
      exact ⟨notDigit, fun isNone => bare (by rw [isNone]; rfl)⟩
  have noMore : ∀ letter ∈ (param.elim [] writeNumber ++ (writeSpace spaced ++ following)).head?,
      letter.isAlpha = false := by
    intro letter isNext
    cases param with
    | none => exact ((ends letter isNext).2 rfl).1
    | some number =>
      obtain ⟨first, rest, written⟩ := List.exists_cons_of_ne_nil (@writeNumber_ne_nil number)
      have isFirst : letter ∈ (writeNumber number).head? := by
        rw [Option.elim_some, written] at isNext
        rw [written]
        exact isNext
      rcases isDigit_of_mem_writeNumber isFirst with rfl | isDigit
      · decide
      · exact isAlpha_eq_false_of_isDigit isDigit
  obtain ⟨nothing, everything⟩ := takeWhile_dropWhile_of_head noMore
  have number : readParam (param.elim [] writeNumber ++ (writeSpace spaced ++ following)) =
      (param, writeSpace spaced ++ following) := by
    cases param with
    | none => exact readParam_none fun letter isNext =>
      ⟨(ends letter isNext).1, ((ends letter isNext).2 rfl).2⟩
    | some number => exact readParam_writeNumber (small number rfl) fun letter isNext =>
      (ends letter isNext).1
  unfold readWord
  rw [List.takeWhile_append_of_pos alpha, List.dropWhile_append_of_pos alpha, nothing, everything,
    number, List.append_nil, same]
  cases spaced with
  | true => rfl
  | false =>
    have noSpace : following.head? ≠ some ' ' :=
      fun isSpace => (separated rfl ' ' isSpace).2.1 rfl
    simp [writeSpace, noSpace]

variable {param : Option ℤ}

theorem turn_word {rest remaining : List Char} {name : String}
    (isLetter : letter.isAlpha = true) (read : readWord (letter :: rest) = (name, param, remaining))
    (inGroup : reader.stack = top :: below) :
    reader.turn decoder '\\' (letter :: rest) =
      some ((reader.flush decoder).control top below name param, remaining) := by
  have notQuote : letter ≠ '\'' := by
    rintro rfl
    cases isLetter
  simp [Reader.turn, inGroup, Reader.escape, notQuote, isLetter, read]

theorem control_eq {word : String} (notUnicode : word ≠ "u")
    (inGroup : place.stack = top :: below) :
    (place.state out).control top below word param =
      (place.afterWord word param).state (out ++ if place.ignorable then []
        else if ignoredDestinations.contains word then [] else (symbols.lookup word).toList) := by
  have isTop : place.ignorable = top.ignorable := by simp [Place.ignorable, inGroup]
  rw [isTop]
  unfold Reader.control Place.afterWord Place.change
  rw [isTop, inGroup]
  by_cases isDestination : word ∈ ignoredDestinations
  · simp [isDestination, Place.state]
  by_cases silent : top.ignorable = true
  · simp [isDestination, silent, Place.state]
  cases found : symbols.lookup word with
  | some letter =>
    have notUc : word ≠ "uc" := by
      rintro rfl
      cases found
    simp [isDestination, silent, notUc, Reader.push, Place.state]
  | none =>
    by_cases isUc : word = "uc"
    · subst isUc
      simp [isDestination, silent, Place.state]
    · simp [isDestination, silent, isUc, notUnicode, Place.state]

theorem reads_word {name : List Char} {spaced : Bool}
    (valid : (Piece.word name param spaced).Valid place following)
    (inGroup : place.stack = top :: below) :
    Reads decoder place (.word name param spaced) following := by
  obtain ⟨notEmpty, lower, notUnicode, -, small, separated⟩ := valid
  obtain ⟨letter, rest, rfl⟩ := List.exists_cons_of_ne_nil notEmpty
  have isLetter : letter.isAlpha = true := by
    simp [Char.isAlpha, lower letter List.mem_cons_self]
  have read := readWord_write lower small separated
  have isOther : String.ofList (letter :: rest) ≠ "u" :=
    fun same => notUnicode (String.ofList_injective same)
  intro out
  have written : (Piece.word (letter :: rest) param spaced).write ++ following =
      '\\' :: letter :: (rest ++ (param.elim [] writeNumber ++ (writeSpace spaced ++ following))) := by
    simp [Piece.write]
  rw [written]
  apply Reader.scan_cons
  refine (turn_word isLetter read (inGroup : (place.state out).stack = top :: below)).trans ?_
  have flushed : (place.state out).flush decoder =
      ({ place with run := [] } : Place).state (out ++ decoder.decode place.run) := flush_eq
  have inside : ({ place with run := [] } : Place).stack = top :: below := inGroup
  rw [flushed, control_eq isOther inside, List.append_assoc]
  rfl

def Fallback.asPiece : Fallback → Piece
  | .plain letter => .plain letter
  | .hex high low => .hex high low

/-- Characters that are to be skipped, or that stand in a group without text, show nothing. -/
theorem scan_fallback {fallbacks : List Fallback} (valid : ∀ fallback ∈ fallbacks, fallback.Valid)
    (inGroup : place.stack = top :: below) (noRun : place.run = [])
    (silent : place.ignorable = true ∨ fallbacks.length ≤ place.owed) :
    (place.state out).scan decoder (fallbacks.flatMap Fallback.write ++ following) =
      (({ place with owed := place.owed - fallbacks.length } : Place).state out).scan decoder
        following := by
  induction fallbacks generalizing place with
  | nil => rfl
  | cons fallback rest ih =>
    have isValid := valid fallback List.mem_cons_self
    have reads : ∀ after, Reads decoder place fallback.asPiece after := by
      intro after
      cases fallback with
      | plain letter => exact reads_plain isValid inGroup
      | hex high low => exact reads_hex isValid.1 isValid.2 inGroup
    have written : fallback.asPiece.write = fallback.write := by cases fallback <;> rfl
    have quiet : place.ignorable = true ∨ 0 < place.owed :=
      silent.imp_right fun enough => Nat.zero_lt_of_lt enough
    have shown : fallback.asPiece.shown decoder place = [] := by
      rcases quiet with ignored | owing <;> cases fallback <;>
        simp [Fallback.asPiece, Piece.shown, Piece.flushed, Piece.own, decode_nil, *]
    have later : place.after fallback.asPiece = { place with owed := place.owed - 1 } := by
      by_cases owing : 0 < place.owed
      · cases fallback <;>
          simp [Fallback.asPiece, Place.after, Place.afterLetter, Place.afterHex, owing]
      · have ignored := quiet.resolve_right owing
        obtain ⟨stack, owed, run⟩ := place
        have nothing : owed = 0 := Nat.eq_zero_of_not_pos owing
        subst nothing noRun
        cases fallback <;>
          simp [Fallback.asPiece, Place.after, Place.afterLetter, Place.afterHex, ignored]
    rw [List.flatMap_cons, List.append_assoc, ← written, reads, shown, later, List.append_nil, ih]
    · rw [List.length_cons, Nat.sub_sub, Nat.add_comm 1]
    · exact fun other mem => valid other (List.mem_cons_of_mem _ mem)
    · exact inGroup
    · exact noRun
    · rw [List.length_cons] at silent
      exact silent.imp_right fun enough => by dsimp only; omega

theorem unicodeChar_unit {unit : ℕ} (small : unit < 0x10000) (negative : Bool) :
    unicodeChar (if negative then (unit : ℤ) - 65536 else unit) =
      if unit.isValidChar then some (Char.ofNat unit) else none := by
  have code : ((if (if negative then (unit : ℤ) - 65536 else unit) < 0 then
      (if negative then (unit : ℤ) - 65536 else unit) + 65536
      else if negative then (unit : ℤ) - 65536 else unit) % 2 ^ 32).toNat = unit := by
    cases negative <;> split_ifs <;> simp_all <;> omega
  simp only [unicodeChar, code]

theorem control_unicode (param : ℤ) (inGroup : place.stack = top :: below) :
    (place.state out).control top below "u" (some param) =
      ({ place with owed := if place.ignorable then place.owed else place.uc } : Place).state
        (out ++ if place.ignorable then [] else (unicodeChar param).toList) := by
  have notDestination : "u" ∉ ignoredDestinations := by decide
  have notSymbol : symbols.lookup "u" = none := by decide
  have isTop : place.ignorable = top.ignorable := by simp [Place.ignorable, inGroup]
  have isUc : place.uc = top.uc := by simp [Place.uc, inGroup]
  by_cases silent : top.ignorable = true
  · simp [Reader.control, notDestination, isTop, silent, Place.state]
  · simp [Reader.control, notDestination, notSymbol, isTop, isUc, silent, Place.state]

def Place.afterEscape (place : Place) (escape : Escape) : Place :=
  { place with
    owed := if place.ignorable then place.owed - escape.fallback.length
      else place.uc - escape.fallback.length
    run := [] }

theorem scan_escape {escape : Escape} {unit : ℕ} (small : unit < 0x10000)
    (valid : escape.Valid place following) (inGroup : place.stack = top :: below) :
    (place.state out).scan decoder (escape.write unit ++ following) =
      ((place.afterEscape escape).state (out ++ (decoder.decode place.run ++
        if place.ignorable then [] else
          if unit.isValidChar then [Char.ofNat unit] else []))).scan decoder following := by
  obtain ⟨validFallback, separated, counted⟩ := valid
  have fits : FitsI64 (if escape.negative then (unit : ℤ) - 65536 else unit) := by
    unfold FitsI64
    split_ifs <;> omega
  have read : readWord ('u' ::
      (writeNumber (if escape.negative then (unit : ℤ) - 65536 else unit) ++
        (writeSpace escape.spaced ++ (escape.fallback.flatMap Fallback.write ++ following)))) =
      ("u", some (if escape.negative then (unit : ℤ) - 65536 else unit),
        escape.fallback.flatMap Fallback.write ++ following) :=
    @readWord_write (escape.fallback.flatMap Fallback.write ++ following) ['u'] (some _)
      escape.spaced (List.all_eq_true.1 rfl) (by rintro _ ⟨⟩; exact fits) separated
  have written : escape.write unit ++ following = '\\' :: 'u' ::
      (writeNumber (if escape.negative then (unit : ℤ) - 65536 else unit) ++
        (writeSpace escape.spaced ++ (escape.fallback.flatMap Fallback.write ++ following))) := by
    simp [Escape.write]
  have flushed : (place.state out).flush decoder =
      ({ place with run := [] } : Place).state (out ++ decoder.decode place.run) := flush_eq
  have inside : ({ place with run := [] } : Place).stack = top :: below := inGroup
  have enough : place.ignorable = true ∨
      escape.fallback.length ≤ if place.ignorable then place.owed else place.uc := by
    cases silent : place.ignorable with
    | true => exact .inl rfl
    | false => exact .inr ((counted silent).elim (·.le) (·.1.le))
  have asList : (if unit.isValidChar then some (Char.ofNat unit) else none).toList =
      if unit.isValidChar then [Char.ofNat unit] else [] := by
    split_ifs <;> rfl
  have skipped : ∀ shown,
      ((⟨place.stack, if place.ignorable then place.owed else place.uc, []⟩ : Place).state
        shown).scan decoder (escape.fallback.flatMap Fallback.write ++ following) =
        ((place.afterEscape escape).state shown).scan decoder following := by
    intro shown
    rw [@scan_fallback decoder ⟨place.stack, if place.ignorable then place.owed else place.uc, []⟩
      shown following top below escape.fallback validFallback inGroup rfl enough]
    cases silent : place.ignorable <;> simp [Place.afterEscape, silent]
  rw [written, Reader.scan_cons
    (turn_word (by decide) read (inGroup : (place.state out).stack = top :: below)), flushed,
    control_unicode _ inside, unicodeChar_unit small, List.append_assoc, asList]
  exact skipped _

theorem isValidChar_of_char (letter : Char) : letter.toNat.isValidChar := letter.valid

theorem reads_unicode {escape : Escape}
    (valid : (Piece.unicode letter escape).Valid place following)
    (inGroup : place.stack = top :: below) :
    Reads decoder place (.unicode letter escape) following := by
  intro out
  rw [Piece.write, scan_escape valid.1 valid.2 inGroup, if_pos (isValidChar_of_char letter),
    Char.ofNat_toNat]
  simp [Place.after, Place.afterUnicode, Place.afterEscape, Piece.shown, Piece.flushed, Piece.own]

theorem surrogate_not_isValidChar (wide : 0x10000 ≤ letter.toNat) :
    highSurrogate letter < 0x10000 ∧ ¬(highSurrogate letter).isValidChar ∧
      lowSurrogate letter < 0x10000 ∧ ¬(lowSurrogate letter).isValidChar := by
  have limit : letter.toNat < 0x110000 := by
    rcases isValidChar_of_char letter with small | large
    · omega
    · exact large.2
  unfold highSurrogate lowSurrogate Nat.isValidChar
  omega

theorem reads_pair {first second : Escape}
    (valid : (Piece.pair letter first second).Valid place following)
    (inGroup : place.stack = top :: below) :
    Reads decoder place (.pair letter first second) following := by
  obtain ⟨wide, validFirst, validSecond⟩ := valid
  obtain ⟨smallHigh, noHigh, smallLow, noLow⟩ := surrogate_not_isValidChar wide
  intro out
  rw [Piece.write, List.append_assoc, scan_escape smallHigh validFirst inGroup, if_neg noHigh,
    ite_self, List.append_nil]
  have inside : (place.afterEscape first).stack = top :: below := inGroup
  have again : second.Valid (place.afterEscape first) following := validSecond
  rw [scan_escape smallLow again inside, if_neg noLow, ite_self, List.append_nil]
  have later : (place.afterEscape first).afterEscape second =
      place.after (.pair letter first second) := by
    have sameGroup : (place.afterEscape first).ignorable = place.ignorable := rfl
    have sameUc : (place.afterEscape first).uc = place.uc := rfl
    rw [Place.afterEscape, sameGroup, sameUc]
    cases silent : place.ignorable <;>
      simp [Place.after, Place.afterUnicode, Place.afterEscape, silent, Nat.sub_sub]
  have noRun : (place.afterEscape first).run = [] := rfl
  rw [later, noRun, decode_nil]
  simp [Piece.shown, Piece.flushed, Piece.own]

theorem reads_of_valid (valid : piece.Valid place following) (grouped : place.stack ≠ []) :
    Reads decoder place piece following := by
  obtain ⟨top, below, inGroup⟩ := List.exists_cons_of_ne_nil grouped
  cases piece with
  | opening => exact reads_opening inGroup
  | closing => exact reads_closing inGroup valid
  | lineEnd letter => exact reads_lineEnd valid inGroup
  | plain letter => exact reads_plain valid inGroup
  | mark letter => exact reads_mark valid.1 valid.2 inGroup
  | word name param spaced => exact reads_word valid inGroup
  | hex high low => exact reads_hex valid.1 valid.2 inGroup
  | unicode letter escape => exact reads_unicode valid inGroup
  | pair letter first second => exact reads_pair valid inGroup

theorem stack_change_ne_nil {change : Group → Group} (grouped : place.stack ≠ []) :
    (place.change change).stack ≠ [] := by
  unfold Place.change
  split
  · contradiction
  · exact List.cons_ne_nil _ _

theorem stack_after_ne_nil (valid : piece.Valid place following) (grouped : place.stack ≠ []) :
    (place.after piece).stack ≠ [] := by
  cases piece with
  | opening => simp [Place.after, grouped]
  | closing =>
    intro none
    have outermost := congrArg List.length none
    simp only [Place.after, List.length_tail, List.length_nil] at outermost
    have nested : 1 < place.stack.length := valid
    omega
  | lineEnd letter => exact grouped
  | plain letter =>
    simp only [Place.after, Place.afterLetter]
    split_ifs <;> exact grouped
  | mark letter =>
    simp only [Place.after]
    split_ifs
    · exact stack_change_ne_nil grouped
    · exact grouped
  | word name param spaced =>
    simp only [Place.after, Place.afterWord]
    split_ifs
    · exact stack_change_ne_nil grouped
    · exact stack_change_ne_nil grouped
    · exact grouped
  | hex high low =>
    simp only [Place.after, Place.afterHex]
    split_ifs <;> exact grouped
  | unicode letter escape => exact grouped
  | pair letter first second => exact grouped

def shownAll (decoder : Windows1252) : Place → List Piece → List Char
  | place, [] => decoder.decode place.run
  | place, piece :: rest => piece.shown decoder place ++ shownAll decoder (place.after piece) rest

variable {pieces : List Piece}

theorem scan_writeAll (wellFormed : WellFormed place pieces) (grouped : place.stack ≠ []) :
    ((place.state out).scan decoder (writeAll pieces)).map (fun reader => (reader.flush decoder).out) =
      some (out ++ shownAll decoder place pieces) := by
  induction pieces generalizing place out with
  | nil =>
    rw [writeAll, List.flatMap_nil, Reader.scan_nil, Option.map_some, flush_eq]
    rfl
  | cons piece rest ih =>
    have reads : Reads decoder place piece (writeAll rest) :=
      reads_of_valid wellFormed.1 grouped
    rw [writeAll, List.flatMap_cons, ← writeAll, reads,
      ih wellFormed.2 (stack_after_ne_nil wellFormed.1 grouped), shownAll, List.append_assoc]

theorem rtfToText_writeAll (wellFormed : WellFormed Place.start pieces) :
    rtfToText decoder (writeAll pieces) = some (shownAll decoder Place.start pieces) :=
  scan_writeAll wellFormed (List.cons_ne_nil _ _)

def Gives (place : Place) (piece : Piece) (new : Bytes) : Prop :=
  (piece.Kept place → piece.own place ++ new.map windows1252 = piece.text place) ∧
    (¬piece.Kept place → (piece.own place).length + new.length < (piece.text place).length)

@[simp]
theorem run_change {change : Group → Group} : (place.change change).run = place.run := by
  unfold Place.change
  split <;> rfl

@[simp]
theorem run_afterWord {name : String} :
    (place.afterWord name param).run = place.run := by
  unfold Place.afterWord
  split_ifs <;> simp

theorem flushes_or_adds (place : Place) (piece : Piece) :
    piece.flushed place = place.run ∧ (place.after piece).run = [] ∧ Gives place piece [] ∨
      ∃ new, piece.flushed place = [] ∧ (place.after piece).run = place.run ++ new ∧
        piece.own place = [] ∧ Gives place piece new := by
  cases piece with
  | opening | closing => exact .inl ⟨rfl, rfl, by simp [Gives, Piece.Kept, Piece.own, Piece.text]⟩
  | lineEnd letter =>
    refine .inr ⟨[], rfl, (List.append_nil _).symm, ?_, ?_⟩
    · simp [Piece.own]
    · simp [Gives, Piece.Kept, Piece.own, Piece.text]
  | plain letter =>
    by_cases owing : 0 < place.owed
    · refine .inr ⟨[], if_pos owing, ?_, ?_, ?_⟩
      · simp [Place.after, Place.afterLetter, owing]
      · simp [Piece.own, owing]
      · cases silent : place.ignorable <;>
          simp [Gives, Piece.Kept, Piece.own, Piece.text, owing, silent, owing.ne']
    · refine .inl ⟨if_neg owing, ?_, ?_⟩
      · simp [Place.after, Place.afterLetter, owing]
      · have nothing : place.owed = 0 := Nat.eq_zero_of_not_pos owing
        cases silent : place.ignorable <;>
          simp [Gives, Piece.Kept, Piece.own, Piece.text, silent, nothing]
  | mark letter =>
    refine .inl ⟨rfl, ?_, ?_⟩
    · simp only [Place.after]
      split_ifs <;> simp
    · simp [Gives, Piece.Kept, Piece.own, Piece.text]
  | word name param spaced =>
    refine .inl ⟨rfl, ?_, ?_⟩
    · simp [Place.after]
    · simp [Gives, Piece.Kept, Piece.own, Piece.text]
  | hex high low =>
    by_cases owing : 0 < place.owed
    · refine .inr ⟨[], rfl, ?_, ?_, ?_⟩
      · simp [Place.after, Place.afterHex, owing]
      · simp [Piece.own]
      · cases silent : place.ignorable <;>
          simp [Gives, Piece.Kept, Piece.own, Piece.text, silent, owing.ne']
    · have nothing : place.owed = 0 := Nat.eq_zero_of_not_pos owing
      refine .inr ⟨if place.ignorable then [] else [byteOf high low], rfl, ?_, ?_, ?_⟩
      · cases silent : place.ignorable <;> simp [Place.after, Place.afterHex, owing, silent]
      · simp [Piece.own]
      · cases silent : place.ignorable <;>
          simp [Gives, Piece.Kept, Piece.own, Piece.text, silent, nothing]
  | unicode letter escape =>
    exact .inl ⟨rfl, rfl, by simp [Gives, Piece.Kept, Piece.own, Piece.text]⟩
  | pair letter first second =>
    refine .inl ⟨rfl, rfl, ?_⟩
    cases silent : place.ignorable <;>
      simp [Gives, Piece.Kept, Piece.own, Piece.text, silent]

theorem shownAll_eq (kept : Kept place pieces) (unmarked : ¬Marked place.run) :
    shownAll decoder place pieces = place.run.map windows1252 ++ text place pieces := by
  induction pieces generalizing place with
  | nil => rw [shownAll, text, List.append_nil, decoder.unmarked _ unmarked]
  | cons piece rest ih =>
    obtain ⟨keptPiece, stillUnmarked, keptRest⟩ := kept
    have later := ih keptRest stillUnmarked
    rw [shownAll, text, later, Piece.shown]
    rcases flushes_or_adds place piece with
      ⟨flushed, noRun, gives, -⟩ | ⟨new, flushed, run, own, gives, -⟩
    · have given := gives keptPiece
      rw [List.map_nil, List.append_nil] at given
      rw [flushed, noRun, given, decoder.unmarked _ unmarked]
      simp
    · have given := gives keptPiece
      rw [own, List.nil_append] at given
      rw [flushed, run, own, decode_nil, ← given]
      simp

theorem length_decode_le (bytes : Bytes) : (decoder.decode bytes).length ≤ bytes.length := by
  by_cases isMarked : Marked bytes
  · exact (decoder.marked bytes isMarked).le
  · rw [decoder.unmarked bytes isMarked, List.length_map]

theorem Marked.append {bytes new : Bytes} (isMarked : Marked bytes) : Marked (bytes ++ new) :=
  isMarked.imp (·.trans (List.prefix_append _ _))
    (Or.imp (·.trans (List.prefix_append _ _)) (·.trans (List.prefix_append _ _)))

theorem length_own_le {new : Bytes} (gives : Gives place piece new) :
    (piece.own place).length + new.length ≤ (piece.text place).length := by
  by_cases kept : piece.Kept place
  · have given := congrArg List.length (gives.1 kept)
    rw [List.length_append, List.length_map] at given
    exact given.le
  · exact (gives.2 kept).le

theorem length_shownAll_lt {pieces : List Piece} (lost : Marked place.run ∨ ¬Kept place pieces) :
    (shownAll decoder place pieces).length < place.run.length + (text place pieces).length := by
  induction pieces generalizing place with
  | nil =>
    rw [text, List.length_nil, Nat.add_zero]
    exact decoder.marked _ (lost.resolve_right fun notKept => notKept trivial)
  | cons piece rest ih =>
    have atMost : (shownAll decoder (place.after piece) rest).length ≤
        (place.after piece).run.length + (text (place.after piece) rest).length := by
      by_cases later : Marked (place.after piece).run ∨ ¬Kept (place.after piece) rest
      · exact (ih later).le
      · rw [not_or, not_not] at later
        rw [shownAll_eq later.2 later.1, List.length_append, List.length_map]
    have decoded := @length_decode_le decoder place.run
    rcases flushes_or_adds place piece with
      ⟨flushed, noRun, gives⟩ | ⟨new, flushed, run, own, gives⟩
    · have ownLe := length_own_le gives
      simp only [shownAll, text, Piece.shown, List.length_append, flushed, noRun,
        List.length_nil] at atMost ownLe ih ⊢
      rcases lost with isMarked | notKept
      · have shorter := decoder.marked _ isMarked
        omega
      · by_cases keptPiece : piece.Kept place
        · have notKeptRest : ¬Kept (place.after piece) rest := fun keptRest =>
            notKept ⟨keptPiece, by rw [noRun]; decide, keptRest⟩
          have shorter := ih (.inr notKeptRest)
          rw [noRun, List.length_nil] at shorter
          omega
        · have shorter := gives.2 keptPiece
          rw [List.length_nil] at shorter
          omega
    · have ownLe := length_own_le gives
      simp only [shownAll, text, Piece.shown, List.length_append, flushed, run, own, decode_nil,
        List.length_nil] at atMost ownLe ⊢
      by_cases keptPiece : piece.Kept place
      · have lostLater : Marked (place.after piece).run ∨ ¬Kept (place.after piece) rest := by
          by_contra none
          rw [not_or, not_not] at none
          rcases lost with isMarked | notKept
          · exact none.1 (run ▸ isMarked.append)
          · exact notKept ⟨keptPiece, none⟩
        have shorter := ih lostLater
        rw [run, List.length_append] at shorter
        omega
      · have shorter := gives.2 keptPiece
        rw [own, List.length_nil] at shorter
        omega

/-- The reader does not panic; and it recovers the text of a document exactly when the document
keeps it. -/
theorem rtfToText_spec (decoder : Windows1252) :
    (∀ rtf, (rtfToText decoder rtf).isSome = true) ∧
      ∀ pieces, WellFormed Place.start pieces →
        (rtfToText decoder (writeAll pieces) = some (text Place.start pieces) ↔
          Kept Place.start pieces) := by
  refine ⟨rtfToText_isSome decoder, fun pieces wellFormed => ?_⟩
  rw [rtfToText_writeAll wellFormed]
  constructor
  · intro same
    by_contra notKept
    have shorter := @length_shownAll_lt decoder _ _ (.inr notKept)
    rw [Option.some.inj same] at shorter
    simp [Place.start] at shorter
  · intro kept
    rw [shownAll_eq kept (by decide)]
    rfl

/-- `\u`, a number, a space and a question mark. -/
def asking (negative : Bool) : Escape := ⟨negative, true, [.plain '?']⟩

def pieceFor (letter : Char) : Piece :=
  if letter.toNat < 0x10000 then .unicode letter (asking false)
  else .pair letter (asking true) (asking true)

theorem start_after_pieceFor (letter : Char) : Place.start.after (pieceFor letter) = Place.start := by
  unfold pieceFor
  split_ifs <;> rfl

theorem wellFormed_map_pieceFor (letters : List Char) :
    WellFormed Place.start (letters.map pieceFor) ∧
      text Place.start (letters.map pieceFor) = letters := by
  induction letters with
  | nil => exact ⟨trivial, rfl⟩
  | cons letter rest ih =>
    have valid : ∀ negative following, (asking negative).Valid Place.start following := by
      intro negative following
      refine ⟨?_, fun notSpaced => (nomatch (notSpaced : true = false)), fun _ => .inl rfl⟩
      intro fallback mem
      cases List.mem_singleton.1 mem
      simp [Fallback.Valid, isSpecial]
    rw [List.map_cons, WellFormed, text, start_after_pieceFor, ih.2]
    refine ⟨⟨?_, ih.1⟩, ?_⟩
    · unfold pieceFor
      split_ifs with small
      · exact ⟨small, valid _ _⟩
      · exact ⟨Nat.le_of_not_lt small, valid _ _, valid _ _⟩
    · unfold pieceFor
      split_ifs <;> rfl

def plainDecoder : Windows1252 where
  decode bytes := if Marked bytes then [] else bytes.map windows1252
  unmarked _ unmarked := if_neg unmarked
  marked bytes isMarked := by
    rw [if_pos isMarked]
    rcases isMarked with ⟨rest, rfl⟩ | ⟨rest, rfl⟩ | ⟨rest, rfl⟩ <;> simp

/-- `caf\'e9 \u9992?` in a group. -/
def sampleDocument : List Piece :=
  [.opening, .word "rtf".toList (some 1) true, .plain 'c', .plain 'a', .plain 'f', .hex 'e' '9',
    .plain ' ', .unicode '✈' ⟨false, false, [.plain '?']⟩, .closing]

theorem wellFormed_sampleDocument : WellFormed Place.start sampleDocument := by
  have lower : ∀ letter ∈ "rtf".toList, letter.isLower = true := List.all_eq_true.1 rfl
  have plain : ∀ letter ∈ "caf ?".toList, ¬isSpecial letter := by
    simp [isSpecial]
  have question : ∀ following, Separated true ('?' :: following) := by
    rintro following letter ⟨⟩
    exact ⟨by decide, by decide, fun same => by cases same⟩
  refine ⟨trivial, ⟨by decide, lower, by decide, by decide, ?_, fun same => absurd same (by decide)⟩,
    plain _ (by decide), plain _ (by decide), plain _ (by decide), ⟨rfl, rfl⟩, plain _ (by decide),
    ⟨by decide, ?_, fun _ => question _, fun _ => .inl rfl⟩, Nat.lt_succ_self 1, trivial⟩
  · rintro number ⟨⟩
    decide
  · intro fallback mem
    cases List.mem_singleton.1 mem
    exact plain _ (by decide)

theorem rtfToText_sampleDocument :
    rtfToText plainDecoder (writeAll sampleDocument) = some "café ✈".toList := by
  have kept : Kept Place.start sampleDocument :=
    ⟨fun _ => trivial, by decide, fun _ => trivial, by decide, fun _ => rfl, by decide, fun _ => rfl,
      by decide, fun _ => rfl, by decide, fun _ => rfl, by decide, fun _ => rfl, by decide,
      fun _ => trivial, by decide, fun _ => trivial, by decide, trivial⟩
  have said : text Place.start sampleDocument = "café ✈".toList := by decide +kernel
  rw [← said]
  exact ((rtfToText_spec plainDecoder).2 _ wellFormed_sampleDocument).2 kept

/-- A character that is written as two escapes is lost. -/
theorem not_rtfToText_writeAll :
    ¬∀ decoder pieces, WellFormed Place.start pieces →
      rtfToText decoder (writeAll pieces) = some (text Place.start pieces) := by
  intro recovers
  have document := wellFormed_map_pieceFor ['😀']
  have recovered := recovers plainDecoder _ document.1
  rw [document.2, rtfToText_writeAll document.1] at recovered
  exact absurd (Option.some.inj recovered) (by decide)

end Aavishield.Rtf
