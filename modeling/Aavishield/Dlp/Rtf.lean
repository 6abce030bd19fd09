import Aavishield.Lib.Digits
import Mathlib.Algebra.Group.Int.Defs
import Mathlib.Algebra.Order.Group.Nat
import Mathlib.Data.Option.Basic

/-!
# Text of RTF

Control words and groups without text are dropped; escapes, Unicode characters and paragraph
breaks are kept.
-/

namespace Aavishield.Rtf

open Digits

abbrev Bytes := List UInt8

def upperControls : List ℕ :=
  [0x20ac, 0x81, 0x201a, 0x192, 0x201e, 0x2026, 0x2020, 0x2021, 0x2c6, 0x2030, 0x160, 0x2039,
    0x152, 0x8d, 0x17d, 0x8f, 0x90, 0x2018, 0x2019, 0x201c, 0x201d, 0x2022, 0x2013, 0x2014, 0x2dc,
    0x2122, 0x161, 0x203a, 0x153, 0x9d, 0x17e, 0x178]

def windows1252 (byte : UInt8) : Char :=
  if byte < 0x80 then Char.ofNat byte.toNat
  else Char.ofNat (upperControls.getD (byte.toNat - 0x80) byte.toNat)

def Marked (bytes : Bytes) : Prop :=
  [0xef, 0xbb, 0xbf] <+: bytes ∨ [0xff, 0xfe] <+: bytes ∨ [0xfe, 0xff] <+: bytes

instance (bytes : Bytes) : Decidable (Marked bytes) := inferInstanceAs (Decidable (_ ∨ _))

/-- `WINDOWS_1252.decode` looks for a byte order mark first; bytes with one are read without it
in its encoding, in which no byte makes more than one character. -/
structure Windows1252 where
  decode : Bytes → List Char
  unmarked : ∀ bytes, ¬Marked bytes → decode bytes = bytes.map windows1252
  marked : ∀ bytes, Marked bytes → (decode bytes).length < bytes.length

def ignoredDestinations : List String :=
  ["fonttbl", "colortbl", "stylesheet", "info", "pict", "object", "themedata", "colorschememapping",
    "latentstyles", "datastore", "xmlnstbl", "listtable", "listoverridetable", "rsidtbl",
    "generator", "filetbl", "revtbl", "mmathpr", "pgdsctbl", "bkmkstart", "bkmkend", "fldinst",
    "docvar", "listtext", "pnseclvl", "wgrffmtfilter", "passwordhash", "blipuid", "shppict",
    "nonshppict"]

def symbols : List (String × Char) :=
  [("par", '\n'), ("line", '\n'), ("sect", '\n'), ("page", '\n'), ("row", '\n'), ("tab", '\t'),
    ("cell", '\t'), ("emdash", '—'), ("endash", '–'), ("bullet", '•'), ("lquote", '‘'),
    ("rquote", '’'), ("ldblquote", '“'), ("rdblquote", '”')]

structure Group where
  ignorable : Bool
  uc : ℕ

structure Reader where
  out : List Char
  stack : List Group
  skipAfterUnicode : ℕ
  pendingBytes : Bytes

def FitsI64 (number : ℤ) : Prop :=
  -9223372036854775808 ≤ number ∧ number ≤ 9223372036854775807

instance (number : ℤ) : Decidable (FitsI64 number) := inferInstanceAs (Decidable (_ ∧ _))

def readParam (text : List Char) : Option ℤ × List Char :=
  let negative := text.head? = some '-'
  let unsigned := if negative then text.tail else text
  let digits := unsigned.takeWhile Char.isDigit
  let param := if digits = [] then none else (readNumber 10 digits).bind fun value =>
    let number : ℤ := if negative then -value else value
    if FitsI64 number then some number else none
  (param, unsigned.dropWhile Char.isDigit)

def readWord (text : List Char) : String × Option ℤ × List Char :=
  let word := String.ofList ((text.takeWhile Char.isAlpha).map Char.toLower)
  let (param, rest) := readParam (text.dropWhile Char.isAlpha)
  (word, param, if rest.head? = some ' ' then rest.tail else rest)

/-- `u8::from_str_radix`, of two characters at most. -/
def fromStrRadix : List Char → Option UInt8
  | [] | ['+'] => none
  | '+' :: digits => (readNumber 16 digits).map UInt8.ofNat
  | digits => (readNumber 16 digits).map UInt8.ofNat

/-- `char::from_u32`, after a cast to 32 bits. -/
def unicodeChar (param : ℤ) : Option Char :=
  let code := ((if param < 0 then param + 65536 else param) % 2 ^ 32).toNat
  if code.isValidChar then some (Char.ofNat code) else none

namespace Reader

variable (decoder : Windows1252) (reader : Reader)

def flush : Reader :=
  if reader.pendingBytes = [] then reader
  else { reader with
    out := reader.out ++ decoder.decode reader.pendingBytes
    pendingBytes := [] }

def push (letter : Char) : Reader := { reader with out := reader.out ++ [letter] }

def control (top : Group) (below : List Group) (word : String) (param : Option ℤ) : Reader :=
  if ignoredDestinations.contains word then
    { reader with stack := { top with ignorable := true } :: below }
  else if top.ignorable then reader
  else
    match symbols.lookup word with
    | some letter => reader.push letter
    | none =>
      if word = "uc" then
        { reader with stack := { top with uc := (param.getD 1).toNat } :: below }
      else if word = "u" then
        match param with
        | none => reader
        | some param =>
          { reader with
            out := reader.out ++ (unicodeChar param).toList
            skipAfterUnicode := top.uc }
      else reader

def mark (top : Group) (below : List Group) (letter : Char) : Reader :=
  if letter = '*' then { reader with stack := { top with ignorable := true } :: below }
  else if top.ignorable then reader
  else if letter = '\\' ∨ letter = '\x7b' ∨ letter = '\x7d' then reader.push letter
  else if letter = '~' then reader.push '\u00a0'
  else if letter = '_' then reader.push '-'
  else if letter = '\n' ∨ letter = '\r' then reader.push '\n'
  else reader

/-- `\'hh`. -/
def hex (top : Group) (digits : List Char) : Reader :=
  if 0 < reader.skipAfterUnicode then
    { reader with skipAfterUnicode := reader.skipAfterUnicode - 1 }
  else
    match fromStrRadix digits with
    | none => reader
    | some byte =>
      if top.ignorable then reader
      else { reader with pendingBytes := reader.pendingBytes ++ [byte] }

def plain (top : Group) (letter : Char) : Reader :=
  if 0 < reader.skipAfterUnicode then
    { reader with skipAfterUnicode := reader.skipAfterUnicode - 1 }
  else if top.ignorable then reader.flush decoder
  else (reader.flush decoder).push letter

def openGroup (top : Group) (below : List Group) : Reader :=
  { reader.flush decoder with stack := top :: top :: below }

def closeGroup (top : Group) (below : List Group) : Reader :=
  { reader.flush decoder with stack := if below = [] then [top] else below }

def escape (top : Group) (below : List Group) : List Char → Reader × List Char
  | [] => (reader, [])
  | next :: after =>
    if next = '\'' then (reader.hex top (after.take 2), after.drop 2)
    else if next.isAlpha then
      let (word, param, remaining) := readWord (next :: after)
      ((reader.flush decoder).control top below word param, remaining)
    else ((reader.flush decoder).mark top below next, after)

def turn (letter : Char) (rest : List Char) : Option (Reader × List Char) :=
  match reader.stack with
  | [] => none
  | top :: below =>
    if letter = '\x7b' then some (reader.openGroup decoder top below, rest)
    else if letter = '\x7d' then some (reader.closeGroup decoder top below, rest)
    else if letter = '\\' then some (reader.escape decoder top below rest)
    else if letter = '\r' ∨ letter = '\n' then some (reader, rest)
    else some (reader.plain decoder top letter, rest)

theorem length_readParam_le (text : List Char) : (readParam text).2.length ≤ text.length := by
  have dropped : ∀ unsigned : List Char, (unsigned.dropWhile Char.isDigit).length ≤ unsigned.length :=
    fun unsigned => (List.dropWhile_suffix _).length_le
  unfold readParam
  dsimp only
  split_ifs
  · exact (dropped _).trans (List.tail_suffix _).length_le
  · exact dropped _

theorem length_readWord_le {text : List Char} {letter : Char} (isLetter : letter.isAlpha = true) :
    (readWord (letter :: text)).2.2.length ≤ text.length := by
  have afterWord : ((letter :: text).dropWhile Char.isAlpha).length ≤ text.length := by
    rw [List.dropWhile_cons_of_pos isLetter]
    exact (List.dropWhile_suffix _).length_le
  have afterParam := (length_readParam_le ((letter :: text).dropWhile Char.isAlpha)).trans afterWord
  unfold readWord
  dsimp only
  split_ifs
  · exact (List.tail_suffix _).length_le.trans afterParam
  · exact afterParam

theorem length_escape_le (top : Group) (below : List Group) (rest : List Char) :
    (reader.escape decoder top below rest).2.length ≤ rest.length := by
  unfold escape
  split
  · exact le_rfl
  · split_ifs with _ isLetter
    · simp only [List.length_drop, List.length_cons]
      omega
    · exact (length_readWord_le isLetter).trans (Nat.le_succ _)
    · exact Nat.le_succ _

theorem length_of_turn {letter : Char} {rest remaining : List Char} {next : Reader}
    (turned : reader.turn decoder letter rest = some (next, remaining)) :
    remaining.length ≤ rest.length := by
  unfold turn at turned
  split at turned
  · cases turned
  · next top below _ =>
      have escaped := length_escape_le decoder reader top below rest
      split_ifs at turned
      · cases turned
        exact le_rfl
      · cases turned
        exact le_rfl
      · rw [Option.some.inj turned] at escaped
        exact escaped
      · cases turned
        exact le_rfl
      · cases turned
        exact le_rfl

def scan (reader : Reader) (text : List Char) : Option Reader :=
  match text with
  | [] => some reader
  | letter :: rest =>
    match _turned : reader.turn decoder letter rest with
    | none => none
    | some (next, remaining) => next.scan remaining
termination_by text.length
decreasing_by
  have shorter := length_of_turn decoder reader _turned
  rw [List.length_cons]
  omega

variable {decoder reader} {letter : Char} {rest remaining : List Char} {next : Reader}

@[simp]
theorem scan_nil : reader.scan decoder [] = some reader := by
  rw [scan]

theorem scan_cons (turned : reader.turn decoder letter rest = some (next, remaining)) :
    reader.scan decoder (letter :: rest) = next.scan decoder remaining := by
  rw [scan]
  split
  · next stopped => cases turned.symm.trans stopped
  · next _ _ went => cases turned.symm.trans went; rfl

@[simp]
theorem stack_flush : (reader.flush decoder).stack = reader.stack := by
  unfold flush
  split_ifs <;> rfl

variable {top : Group} {below : List Group}

theorem stack_hex (digits : List Char) : (reader.hex top digits).stack = reader.stack := by
  unfold hex
  split_ifs
  · rfl
  · split <;> rfl
  · split <;> rfl

theorem stack_plain : (reader.plain decoder top letter).stack = reader.stack := by
  unfold plain
  split_ifs
  · rfl
  · exact stack_flush
  · exact stack_flush

theorem stack_mark_ne_nil (grouped : reader.stack ≠ []) :
    (reader.mark top below letter).stack ≠ [] := by
  unfold mark
  split_ifs
  · exact List.cons_ne_nil _ _
  all_goals exact grouped

theorem stack_control_ne_nil (grouped : reader.stack ≠ []) (word : String) (param : Option ℤ) :
    (reader.control top below word param).stack ≠ [] := by
  unfold control
  cases symbols.lookup word with
  | none =>
    split_ifs
    · exact List.cons_ne_nil _ _
    · exact grouped
    · exact List.cons_ne_nil _ _
    · cases param <;> exact grouped
    · exact grouped
  | some letter =>
    dsimp only
    split_ifs
    · exact List.cons_ne_nil _ _
    · exact grouped
    · exact grouped

theorem stack_escape_ne_nil (grouped : reader.stack ≠ []) :
    (reader.escape decoder top below rest).1.stack ≠ [] := by
  have flushed : (reader.flush decoder).stack ≠ [] := by rwa [stack_flush]
  unfold escape
  split
  · exact grouped
  · split_ifs
    · rwa [stack_hex]
    · exact stack_control_ne_nil flushed _ _
    · exact stack_mark_ne_nil flushed

theorem exists_turn (decoder : Windows1252) (letter : Char) (rest : List Char) (grouped : reader.stack ≠ []) :
    ∃ next remaining, reader.turn decoder letter rest = some (next, remaining) ∧
      next.stack ≠ [] := by
  unfold turn
  split
  · contradiction
  · next top below inGroup =>
      split_ifs
      · exact ⟨_, _, rfl, List.cons_ne_nil _ _⟩
      · refine ⟨_, _, rfl, ?_⟩
        unfold closeGroup
        split_ifs with outermost
        · exact List.cons_ne_nil _ _
        · exact outermost
      · exact ⟨_, _, rfl, stack_escape_ne_nil grouped⟩
      · exact ⟨_, _, rfl, grouped⟩
      · exact ⟨_, _, rfl, by rwa [stack_plain]⟩

theorem exists_scan (decoder : Windows1252) (text : List Char) (grouped : reader.stack ≠ []) :
    ∃ final, reader.scan decoder text = some final := by
  induction size : text.length using Nat.strongRecOn generalizing reader text with
  | ind size ih =>
    cases text with
    | nil => exact ⟨reader, scan_nil⟩
    | cons letter rest =>
      obtain ⟨next, remaining, turned, inGroup⟩ := exists_turn decoder letter rest grouped
      have shorter := length_of_turn decoder reader turned
      rw [List.length_cons] at size
      obtain ⟨final, scanned⟩ := ih remaining.length (by omega) remaining inGroup rfl
      exact ⟨final, (scan_cons turned).trans scanned⟩

end Reader

def initial : Reader := ⟨[], [⟨false, 1⟩], 0, []⟩

def rtfToText (decoder : Windows1252) (rtf : List Char) : Option (List Char) :=
  (initial.scan decoder rtf).map fun reader => (reader.flush decoder).out

theorem rtfToText_isSome (decoder : Windows1252) (rtf : List Char) :
    (rtfToText decoder rtf).isSome = true := by
  have grouped : initial.stack ≠ [] := List.cons_ne_nil _ _
  obtain ⟨final, scanned⟩ := Reader.exists_scan decoder rtf grouped
  rw [rtfToText, scanned]
  rfl

end Aavishield.Rtf
