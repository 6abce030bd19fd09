import Aavishield.Lib.Digits
import Mathlib.Data.List.Basic

/-!
# Strings of JSON

How Go's `encoding/json` writes a text between quotes and reads it again.  A letter that would
end the string, that is no printable one, or that means something to HTML is written by its
number.
-/

namespace JsonStrings

open Digits

def writeUnit (unit : ℕ) : List Char :=
  '\\' :: 'u' :: (digits 16 4 unit).map Nat.digitChar

def byNumber (letter : Char) : Prop :=
  letter.toNat < 0x20 ∨ letter ∈ ['<', '>', '&'] ∨ letter.toNat = 0x2028 ∨ letter.toNat = 0x2029

instance (letter : Char) : Decidable (byNumber letter) := inferInstanceAs (Decidable (_ ∨ _))

def named : List (Char × Char) :=
  [('"', '"'), ('\\', '\\'), ('\x08', 'b'), ('\x0c', 'f'), ('\n', 'n'), ('\r', 'r'), ('\t', 't')]

def escape (letter : Char) : List Char :=
  match named.lookup letter with
  | some name => ['\\', name]
  | none => if byNumber letter then writeUnit letter.toNat else [letter]

/-- `json.Marshal` of a string. -/
def write (text : List Char) : List Char := '"' :: (text.flatMap escape ++ ['"'])

def readUnit : List Char → Option (ℕ × List Char)
  | a :: b :: c :: d :: rest =>
    ([a, b, c, d].mapM digitValue).map fun digits => (value 16 digits, rest)
  | _ => none

def isSurrogate (unit : ℕ) : Prop := 0xd800 ≤ unit ∧ unit < 0xe000

instance (unit : ℕ) : Decidable (isSurrogate unit) := inferInstanceAs (Decidable (_ ∧ _))

def isPair (high low : ℕ) : Prop := 0xd800 ≤ high ∧ high < 0xdc00 ∧ 0xdc00 ≤ low ∧ low < 0xe000

instance (high low : ℕ) : Decidable (isPair high low) :=
  inferInstanceAs (Decidable (_ ∧ _ ∧ _ ∧ _))

/-- A unit after `\u`, or two that make one letter; a lone half of a pair is read as U+FFFD. -/
def readLetter (text : List Char) : Option (Char × List Char) :=
  match readUnit text with
  | none => none
  | some (unit, rest) =>
    if isSurrogate unit then
      match rest with
      | '\\' :: 'u' :: more =>
        match readUnit more with
        | some (low, after) =>
          if isPair unit low then
            some (Char.ofNat (0x10000 + 0x400 * (unit - 0xd800) + (low - 0xdc00)), after)
          else some ('\uFFFD', rest)
        | none => some ('\uFFFD', rest)
      | _ => some ('\uFFFD', rest)
    else some (Char.ofNat unit, rest)

def readEscape : List Char → Option (Char × List Char)
  | '"' :: rest => some ('"', rest)
  | '\\' :: rest => some ('\\', rest)
  | '/' :: rest => some ('/', rest)
  | 'b' :: rest => some ('\x08', rest)
  | 'f' :: rest => some ('\x0c', rest)
  | 'n' :: rest => some ('\n', rest)
  | 'r' :: rest => some ('\r', rest)
  | 't' :: rest => some ('\t', rest)
  | 'u' :: rest => readLetter rest
  | _ => none

def readInside : ℕ → List Char → Option (List Char)
  | 0, _ => none
  | _ + 1, [] => none
  | fuel + 1, letter :: rest =>
    if letter = '"' then if rest = [] then some [] else none
    else if letter = '\\' then
      match readEscape rest with
      | none => none
      | some (escaped, rest) => (readInside fuel rest).map (escaped :: ·)
    else if letter.toNat < 0x20 then none
    else (readInside fuel rest).map (letter :: ·)

/-- `json.Unmarshal` of a string. -/
def read : List Char → Option (List Char)
  | '"' :: rest => readInside rest.length rest
  | _ => none

variable {letter : Char} {text rest : List Char} {fuel : ℕ}

theorem readUnit_writeUnit {unit : ℕ} (small : unit < 16 ^ 4) :
    readUnit ((digits 16 4 unit).map Nat.digitChar ++ rest) = some (unit, rest) := by
  have read : ((digits 16 4 unit).map Nat.digitChar).mapM digitValue = some (digits 16 4 unit) := by
    apply mapM_map_eq_some
    intro digit isDigit
    exact digitValue_digitChar digit (lt_of_mem_digits (by omega) digit isDigit)
  have isValue := value_digits small
  have four : ((digits 16 4 unit).map Nat.digitChar).length = 4 := by simp
  rcases List.length_eq_four.mp four with ⟨a, b, c, d, shape⟩
  rw [shape] at read ⊢
  simp [readUnit, read, isValue]

theorem readLetter_toNat (notWide : letter.toNat < 0x10000) :
    readLetter ((digits 16 4 letter.toNat).map Nat.digitChar ++ rest) = some (letter, rest) := by
  have isScalar : ¬isSurrogate letter.toNat := by
    have valid := letter.valid
    unfold isSurrogate Char.toNat at *
    rcases valid with low | high
    · omega
    · omega
  simp [readLetter, readUnit_writeUnit (show letter.toNat < 16 ^ 4 by omega), isScalar]

theorem readEscape_named {name : Char} (isNamed : named.lookup letter = some name) :
    readEscape (name :: rest) = some (letter, rest) := by
  have pairMem : (letter, name) ∈ named := by
    rcases List.lookup_eq_some_iff.mp isNamed with ⟨before, after, split, -⟩
    simp [split]
  simp only [named, List.mem_cons, Prod.mk.injEq, List.not_mem_nil, or_false] at pairMem
  rcases pairMem with ⟨rfl, rfl⟩ | ⟨rfl, rfl⟩ | ⟨rfl, rfl⟩ | ⟨rfl, rfl⟩ | ⟨rfl, rfl⟩ |
    ⟨rfl, rfl⟩ | ⟨rfl, rfl⟩ <;> rfl

theorem readInside_escape :
    readInside (fuel + 1) (escape letter ++ rest) = (readInside fuel rest).map (letter :: ·) := by
  unfold escape
  cases isNamed : named.lookup letter with
  | some name =>
    simp only [List.cons_append, List.nil_append, readInside]
    simp [readEscape_named isNamed]
  | none =>
    split_ifs with numbered
    · have notWide : letter.toNat < 0x10000 := by
        rcases numbered with low | html | line
        · omega
        · simp only [List.mem_cons, List.not_mem_nil, or_false] at html
          rcases html with rfl | rfl | rfl <;> decide
        · omega
      simp only [writeUnit, List.cons_append, readInside, readEscape]
      simp [readLetter_toNat notWide]
    · have notQuote : letter ≠ '"' := by
        rintro rfl
        exact absurd isNamed (by decide)
      have notBackslash : letter ≠ '\\' := by
        rintro rfl
        exact absurd isNamed (by decide)
      have printable : ¬letter.toNat < 0x20 := fun low => numbered (.inl low)
      simp [readInside, notQuote, notBackslash, printable]

theorem length_le_flatMap_escape (text : List Char) : text.length ≤ (text.flatMap escape).length := by
  induction text with
  | nil => simp
  | cons letter text ih =>
    have positive : 0 < (escape letter).length := by
      unfold escape writeUnit
      split
      · simp
      · split_ifs <;> simp
    simp only [List.flatMap_cons, List.length_append, List.length_cons]
    omega

theorem readInside_flatMap (enough : text.length < fuel) :
    readInside fuel (text.flatMap escape ++ ['"']) = some text := by
  induction text generalizing fuel with
  | nil =>
    rcases Nat.exists_eq_add_one_of_ne_zero (by omega : fuel ≠ 0) with ⟨fuel, rfl⟩
    simp [readInside]
  | cons letter text ih =>
    simp only [List.length_cons] at enough
    rcases Nat.exists_eq_add_one_of_ne_zero (by omega : fuel ≠ 0) with ⟨fuel, rfl⟩
    rw [List.flatMap_cons, List.append_assoc, readInside_escape, ih (by omega)]
    rfl

/-- A text is read as it was written. -/
@[simp]
theorem read_write (text : List Char) : read (write text) = some text := by
  rw [write, read]
  apply readInside_flatMap
  have := length_le_flatMap_escape text
  simp only [List.length_append, List.length_singleton]
  omega

end JsonStrings
