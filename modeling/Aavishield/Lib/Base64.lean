import Aavishield.Lib.Digits

/-!
# Base 64

The standard encoding of bytes with padding (`base64.StdEncoding`).
-/

namespace Base64

open Digits

def alphabet : List Char :=
  "ABCDEFGHIJKLMNOPQRSTUVWXYZabcdefghijklmnopqrstuvwxyz0123456789+/".toList

def letterOf (sextet : ℕ) : Char := alphabet.getD sextet 'A'

def sextetOf (letter : Char) : Option ℕ := alphabet.idxOf? letter

def padded (bytes : List UInt8) : List ℕ :=
  bytes.map UInt8.toNat ++ List.replicate (3 - bytes.length) 0

def lettersOf (bytes : List UInt8) : List Char :=
  (digits 64 4 (value 256 (padded bytes))).map letterOf

/-- `EncodeToString`. -/
def encode : List UInt8 → List Char
  | first :: second :: third :: rest => lettersOf [first, second, third] ++ encode rest
  | [first, second] => (lettersOf [first, second]).take 3 ++ ['=']
  | [first] => (lettersOf [first]).take 2 ++ ['=', '=']
  | [] => []

def bytesOf (count : ℕ) (letters : List Char) : Option (List UInt8) :=
  (letters.mapM sextetOf).map fun sextets =>
    ((digits 256 3 (value 64 (sextets ++ List.replicate (4 - letters.length) 0))).take count).map
      UInt8.ofNat

def decodeGroups : List Char → Option (List UInt8)
  | [] => some []
  | first :: second :: third :: fourth :: rest =>
    if fourth = '=' then
      if rest ≠ [] then none
      else if third = '=' then bytesOf 1 [first, second]
      else bytesOf 2 [first, second, third]
    else
      (bytesOf 3 [first, second, third, fourth]).bind fun front =>
        (decodeGroups rest).map fun back => front ++ back
  | _ => none

/-- `DecodeString`, which passes over the ends of lines. -/
def decode (text : List Char) : Option (List UInt8) :=
  decodeGroups (text.filter fun letter => letter ≠ '\r' ∧ letter ≠ '\n')

theorem sextetOf_letterOf : ∀ sextet < 64, sextetOf (letterOf sextet) = some sextet := by
  decide +kernel

theorem letterOf_ne : ∀ sextet < 64, letterOf sextet ∉ ['=', '\r', '\n'] := by
  decide +kernel

variable {bytes : List UInt8}

theorem lt_of_mem_padded : ∀ byte ∈ padded bytes, byte < 256 := by
  intro byte mem
  simp only [padded, List.mem_append, List.mem_map, List.mem_replicate] at mem
  rcases mem with ⟨original, -, rfl⟩ | ⟨-, rfl⟩
  · exact original.toNat_lt
  · omega

theorem length_padded (short : bytes.length ≤ 3) : (padded bytes).length = 3 := by
  simp only [padded, List.length_append, List.length_map, List.length_replicate]
  omega

theorem take_padded : ((padded bytes).take bytes.length).map UInt8.ofNat = bytes := by
  simp [padded, Function.comp_def]

theorem take_sextets (short : bytes.length ≤ 3) :
    (digits 64 4 (value 256 (padded bytes))).take (bytes.length + 1) ++
        List.replicate (3 - bytes.length) 0 = digits 64 4 (value 256 (padded bytes)) := by
  match bytes with
  | [] => rfl
  | [first] =>
    simp [padded, value, digits]
    omega
  | [first, second] =>
    simp [padded, value, digits]
    omega
  | [first, second, third] => simp [List.take_of_length_le]
  | _ :: _ :: _ :: _ :: _ =>
    simp only [List.length_cons] at short
    omega

theorem bytesOf_lettersOf (short : bytes.length ≤ 3) :
    bytesOf bytes.length ((lettersOf bytes).take (bytes.length + 1)) = some bytes := by
  have bytewise : ∀ byte ∈ padded bytes, byte < 256 := lt_of_mem_padded
  have back := digits_value bytewise
  have fits := value_lt bytewise
  simp only [length_padded short] at back fits
  have whole : value 64 (digits 64 4 (value 256 (padded bytes))) = value 256 (padded bytes) :=
    value_digits fits
  have small : ∀ sextet ∈ (digits 64 4 (value 256 (padded bytes))).take (bytes.length + 1),
      sextet < 64 := by
    intro sextet mem
    exact lt_of_mem_digits (by omega) sextet (List.mem_of_mem_take mem)
  have read : ((lettersOf bytes).take (bytes.length + 1)).mapM sextetOf =
      some ((digits 64 4 (value 256 (padded bytes))).take (bytes.length + 1)) := by
    simp only [lettersOf, ← List.map_take]
    apply mapM_map_eq_some
    intro sextet mem
    exact sextetOf_letterOf sextet (small sextet mem)
  have missing : 4 - ((lettersOf bytes).take (bytes.length + 1)).length = 3 - bytes.length := by
    simp [lettersOf]
    omega
  simp only [bytesOf, read, Option.map_some, missing, take_sextets short, whole, back, take_padded]

theorem exists_lettersOf (bytes : List UInt8) : ∃ first second third fourth,
    lettersOf bytes = [first, second, third, fourth] ∧
      ∀ letter ∈ [first, second, third, fourth], letter ∉ ['=', '\r', '\n'] := by
  refine ⟨_, _, _, _, rfl, ?_⟩
  intro letter mem
  have written : letter ∈ lettersOf bytes := mem
  rcases List.mem_map.mp written with ⟨sextet, digit, rfl⟩
  exact letterOf_ne sextet (lt_of_mem_digits (by omega) sextet digit)

theorem decodeGroups_encode (bytes : List UInt8) : decodeGroups (encode bytes) = some bytes := by
  induction bytes using encode.induct with
  | case1 a b c rest ih =>
    rcases exists_lettersOf [a, b, c] with ⟨first, second, third, fourth, letters, plain⟩
    have read : bytesOf 3 ((lettersOf [a, b, c]).take 4) = some [a, b, c] :=
      bytesOf_lettersOf (by simp)
    have noPadding : fourth ≠ '=' := by
      have := plain fourth (by simp)
      simp_all
    simp [letters] at read
    simp [encode, letters, decodeGroups, noPadding, read, ih]
  | case2 a b =>
    rcases exists_lettersOf [a, b] with ⟨first, second, third, fourth, letters, plain⟩
    have read : bytesOf 2 ((lettersOf [a, b]).take 3) = some [a, b] := bytesOf_lettersOf (by simp)
    have noPadding : third ≠ '=' := by
      have := plain third (by simp)
      simp_all
    simp [letters] at read
    simp [encode, letters, decodeGroups, noPadding, read]
  | case3 a =>
    rcases exists_lettersOf [a] with ⟨first, second, third, fourth, letters, -⟩
    have read : bytesOf 1 ((lettersOf [a]).take 2) = some [a] := bytesOf_lettersOf (by simp)
    simp [letters] at read
    simp [encode, letters, decodeGroups, read]
  | case4 => rfl

theorem mem_encode {letter : Char} (mem : letter ∈ encode bytes) : letter ∉ ['\r', '\n'] := by
  have groups : ∀ group : List UInt8, letter ∈ lettersOf group → letter ∉ ['\r', '\n'] := by
    intro group written
    rcases List.mem_map.mp written with ⟨sextet, digit, rfl⟩
    have plain := letterOf_ne sextet (lt_of_mem_digits (by omega) sextet digit)
    simp_all
  induction bytes using encode.induct with
  | case1 a b c rest ih =>
    rcases List.mem_append.mp mem with front | back
    · exact groups _ front
    · exact ih back
  | case2 a b | case3 a =>
    rcases List.mem_append.mp mem with front | padding
    · exact groups _ (List.mem_of_mem_take front)
    · simp_all
  | case4 => simp [encode] at mem

theorem decode_encode (bytes : List UInt8) : decode (encode bytes) = some bytes := by
  have kept : (encode bytes).filter (fun letter => letter ≠ '\r' ∧ letter ≠ '\n') = encode bytes := by
    apply List.filter_eq_self.mpr
    intro letter mem
    simpa using mem_encode mem
  simp only [decode, kept, decodeGroups_encode]

end Base64
