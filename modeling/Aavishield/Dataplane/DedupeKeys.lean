import Aavishield.Dataplane.PayloadDelivery
import Aavishield.Lib.JsonStrings

/-!
# Keys of repeated reports

A key is kept in an indexed column and, while a company's database is away, in the JSON of the
spool.  A long key is replaced by its beginning and its digest.
-/

namespace Aavishield.Dataplane.DedupeKeys

open LossyText Payload

/-- `hex.EncodeToString`. -/
def hex (bytes : List UInt8) : List Char :=
  bytes.flatMap fun byte => [Nat.digitChar (byte.toNat / 16), Nat.digitChar (byte.toNat % 16)]

section Model

variable (sha256 : Bytes → Vector UInt8 32)

def digest (key : Bytes) : Bytes := utf8 (hex (sha256 key).toList)

def normalizeDedupeKey (key : Bytes) : Bytes := Payload.normalizeDedupeKey (digest sha256) key

/-- What `flushOrg` reads of a key that `spoolEvents` wrote, if it can read it. -/
def throughSpool (key : Bytes) : Option Bytes :=
  (JsonStrings.read (JsonStrings.write (lossy key))).map utf8

structure SurvivesStorage (key other : Bytes) : Prop where
  valid : Valid (normalizeDedupeKey sha256 key)
  bounded : (normalizeDedupeKey sha256 key).length ≤ maxDedupeKey
  fixed : normalizeDedupeKey sha256 (normalizeDedupeKey sha256 key) = normalizeDedupeKey sha256 key
  reread : throughSpool (normalizeDedupeKey sha256 key) = some (normalizeDedupeKey sha256 key)
  apart : normalizeDedupeKey sha256 key = normalizeDedupeKey sha256 other →
    key = other ∨ sha256 key = sha256 other

/-- A key is short, or its beginning ends with a whole letter. -/
def CutsBetweenLetters (key : Bytes) : Prop := key.length ≤ maxDedupeKey ∨ Valid (key.take 40)

/-- A key that is written like what a long one is shortened to. -/
def IsShortForm (key other : Bytes) : Prop :=
  key.length ≤ maxDedupeKey ∧ maxDedupeKey < other.length ∧ key = normalizeDedupeKey sha256 other

end Model

variable {sha256 : Bytes → Vector UInt8 32} {key other : Bytes}

theorem valid_utf8 (text : List Char) : Valid (utf8 text) := by
  rw [Valid, lossy_utf8]

theorem Valid.append {first second : Bytes} (validFirst : Valid first) (validSecond : Valid second) :
    Valid (first ++ second) := by
  have whole : first ++ second = utf8 (lossy first ++ lossy second) := by
    unfold utf8 at *
    rw [List.flatMap_append]
    exact (congrArg₂ (· ++ ·) validFirst validSecond).symm
  rw [whole]
  exact valid_utf8 _

theorem throughSpool_eq_some_iff : throughSpool key = some key ↔ Valid key := by
  rw [throughSpool, JsonStrings.read_write, Option.map_some, Option.some.injEq, Valid]

theorem hex_injective {first second : List UInt8} (same : hex first = hex second) :
    first = second := by
  induction first generalizing second with
  | nil =>
    cases second with
    | nil => rfl
    | cons byte rest => simp [hex] at same
  | cons byte rest ih =>
    cases second with
    | nil => simp [hex] at same
    | cons otherByte others =>
      simp only [hex, List.flatMap_cons, List.cons_append, List.nil_append,
        List.cons.injEq] at same
      rcases same with ⟨sameHigh, sameLow, sameRest⟩
      have high := congrArg Digits.digitValue sameHigh
      have low := congrArg Digits.digitValue sameLow
      have small := byte.toNat_lt
      have otherSmall := otherByte.toNat_lt
      rw [Digits.digitValue_digitChar _ (by omega), Digits.digitValue_digitChar _ (by omega),
        Option.some.injEq] at high low
      have sameByte : byte = otherByte := by
        apply UInt8.toNat_inj.mp
        omega
      rw [sameByte, ih sameRest]

theorem digest_injective (same : digest sha256 key = digest sha256 other) :
    sha256 key = sha256 other := by
  have sameLetters := congrArg lossy same
  rw [digest, digest, lossy_utf8, lossy_utf8] at sameLetters
  exact Vector.toList_inj.mp (hex_injective sameLetters)

theorem utf8Size_digitChar (digit : ℕ) (small : digit < 16) : (Nat.digitChar digit).utf8Size = 1 := by
  have single : ∀ digit < 16, (Nat.digitChar digit).utf8Size = 1 := by decide
  exact single digit small

theorem length_digest (key : Bytes) : (digest sha256 key).length = 64 := by
  have plain : ∀ bytes : List UInt8, (utf8 (hex bytes)).length = 2 * bytes.length := by
    intro bytes
    induction bytes with
    | nil => rfl
    | cons byte rest ih =>
      have small := byte.toNat_lt
      simp only [hex, utf8, List.flatMap_cons, List.flatMap_append, List.flatMap_nil,
        List.length_append, String.length_utf8EncodeChar, List.length_nil, List.length_cons] at ih ⊢
      rw [utf8Size_digitChar _ (by omega), utf8Size_digitChar _ (by omega), ih]
      omega
  rw [digest, plain]
  simp

theorem normalize_of_short (short : key.length ≤ maxDedupeKey) : normalizeDedupeKey sha256 key = key :=
  if_pos short

theorem normalize_of_long (long : maxDedupeKey < key.length) :
    normalizeDedupeKey sha256 key = key.take 40 ++ "#".toUTF8.toList ++ digest sha256 key :=
  if_neg (Nat.not_le_of_lt long)

theorem mark_eq : "#".toUTF8.toList = [35] := by decide +kernel

theorem length_normalize_of_long (long : maxDedupeKey < key.length) :
    (normalizeDedupeKey sha256 key).length = 105 := by
  rw [normalize_of_long long, List.length_append, List.length_append, length_digest, mark_eq,
    List.length_take]
  unfold maxDedupeKey at long
  simp only [List.length_singleton]
  omega

theorem length_normalize_le : (normalizeDedupeKey sha256 key).length ≤ maxDedupeKey := by
  rcases Nat.lt_or_ge maxDedupeKey key.length with long | short
  · rw [length_normalize_of_long long]
    decide
  · rw [normalize_of_short short]
    exact short

theorem valid_normalize (valid : Valid key) (cut : CutsBetweenLetters key) :
    Valid (normalizeDedupeKey sha256 key) := by
  rcases Nat.lt_or_ge maxDedupeKey key.length with long | short
  · have validStart : Valid (key.take 40) := cut.resolve_left (Nat.not_le_of_lt long)
    rw [normalize_of_long long]
    rw [mark_eq]
    apply Valid.append (Valid.append validStart ?_) (valid_utf8 _)
    exact valid_utf8 ['#']
  · rw [normalize_of_short short]
    exact valid

theorem normalize_eq (same : normalizeDedupeKey sha256 key = normalizeDedupeKey sha256 other) :
    key = other ∨ sha256 key = sha256 other ∨ IsShortForm sha256 key other ∨
      IsShortForm sha256 other key := by
  rcases Nat.lt_or_ge maxDedupeKey key.length with long | short
  · rcases Nat.lt_or_ge maxDedupeKey other.length with otherLong | otherShort
    · rw [normalize_of_long long, normalize_of_long otherLong] at same
      have sameLength : (digest sha256 key).length = (digest sha256 other).length := by
        rw [length_digest, length_digest]
      exact .inr (.inl (digest_injective (List.append_inj_right' same sameLength)))
    · rw [normalize_of_short otherShort] at same
      exact .inr (.inr (.inr ⟨otherShort, long, same.symm⟩))
  · rcases Nat.lt_or_ge maxDedupeKey other.length with otherLong | otherShort
    · rw [normalize_of_short short] at same
      exact .inr (.inr (.inl ⟨short, otherLong, same⟩))
    · rw [normalize_of_short short, normalize_of_short otherShort] at same
      exact .inl same

/--
The normal form of a key fits the column and stays as it is; it is a text and comes back from
the spool if no letter was cut; and two keys have one normal form only if they are the same,
their hashes collide, or one is the short form of the other.
-/
theorem normalize_survives (sha256 : Bytes → Vector UInt8 32) (key : Bytes) (valid : Valid key) :
    (normalizeDedupeKey sha256 key).length ≤ maxDedupeKey ∧
      normalizeDedupeKey sha256 (normalizeDedupeKey sha256 key) = normalizeDedupeKey sha256 key ∧
      (CutsBetweenLetters key →
        Valid (normalizeDedupeKey sha256 key) ∧
          throughSpool (normalizeDedupeKey sha256 key) = some (normalizeDedupeKey sha256 key)) ∧
      ∀ other, normalizeDedupeKey sha256 key = normalizeDedupeKey sha256 other →
        key = other ∨ sha256 key = sha256 other ∨ IsShortForm sha256 key other ∨
          IsShortForm sha256 other key := by
  refine ⟨length_normalize_le, normalize_of_short length_normalize_le, ?_, ?_⟩
  · intro cut
    have validForm : Valid (normalizeDedupeKey sha256 key) := valid_normalize valid cut
    exact ⟨validForm, throughSpool_eq_some_iff.mpr validForm⟩
  · intro other same
    exact normalize_eq same

def lengthHash (key : Bytes) : Vector UInt8 32 := .replicate 32 (UInt8.ofNat key.length)

/-- So many letters `a`. -/
def letters (count : ℕ) : Bytes := List.replicate count 97

theorem length_letters (count : ℕ) : (letters count).length = count := List.length_replicate

theorem valid_letters (count : ℕ) : Valid (letters count) := by
  have isText : letters count = utf8 (List.replicate count 'a') := by
    induction count with
    | zero => rfl
    | succ count ih =>
      rw [letters, List.replicate_succ, List.replicate_succ, utf8_cons]
      exact congrArg (97 :: ·) ih
  rw [isText]
  exact valid_utf8 _

theorem cutsBetweenLetters_letters : CutsBetweenLetters (letters 201) := by
  right
  have start : (letters 201).take 40 = letters 40 := List.take_replicate
  rw [start]
  exact valid_letters 40

theorem normalize_survives_letters :
    (normalizeDedupeKey lengthHash (letters 201)).length ≤ maxDedupeKey ∧
      normalizeDedupeKey lengthHash (normalizeDedupeKey lengthHash (letters 201)) =
        normalizeDedupeKey lengthHash (letters 201) ∧
      throughSpool (normalizeDedupeKey lengthHash (letters 201)) =
        some (normalizeDedupeKey lengthHash (letters 201)) := by
  have survives := normalize_survives lengthHash (letters 201) (valid_letters 201)
  exact ⟨survives.1, survives.2.1, (survives.2.2.1 cutsBetweenLetters_letters).2⟩

/-- A long key and its short form have one normal form, though they are different. -/
theorem not_survivesStorage :
    ¬∀ sha256 key other, Valid key → Valid other → SurvivesStorage sha256 key other := by
  intro always
  have long : maxDedupeKey < (letters 201).length := by
    rw [length_letters]
    decide
  have validForm : Valid (normalizeDedupeKey lengthHash (letters 201)) :=
    valid_normalize (valid_letters 201) cutsBetweenLetters_letters
  have fixed : normalizeDedupeKey lengthHash (normalizeDedupeKey lengthHash (letters 201)) =
      normalizeDedupeKey lengthHash (letters 201) := normalize_of_short length_normalize_le
  have shorter := @length_normalize_of_long lengthHash (letters 201) long
  rcases (always lengthHash (letters 201) _ (valid_letters 201) validForm).apart fixed.symm
    with same | sameHash
  · have sameLength := congrArg List.length same
    rw [shorter, length_letters] at sameLength
    omega
  · rw [lengthHash, lengthHash, shorter, length_letters] at sameHash
    exact absurd sameHash (by decide)

end Aavishield.Dataplane.DedupeKeys
