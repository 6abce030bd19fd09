import Aavishield.Lib.Percent
import Mathlib.Data.List.Sort
import Mathlib.Data.List.DropRight
import Mathlib.Data.List.Infix

/-!
# Canonical requests

Signature Version 4 signs a request through its canonical form, which the receiver derives from
what arrives: the path encoded anew, the query sorted without its signature, the signed headers
under small names with their values trimmed, and the hash of what is carried.
-/

namespace SigV4

open Percent

structure Request where
  method : Bytes
  host : Bytes
  path : Bytes
  query : Bytes
  headers : List (Bytes × Bytes)
  body : Bytes

def isUnreserved (byte : UInt8) : Bool :=
  (65 ≤ byte.toNat && byte.toNat ≤ 90) || (97 ≤ byte.toNat && byte.toNat ≤ 122) ||
    (48 ≤ byte.toNat && byte.toNat ≤ 57) || [45, 95, 46, 126].contains byte.toNat

def slash : UInt8 := 47

def newline : UInt8 := 10

/-- `UriEncode`, with the slashes of an object's name kept. -/
def uriEncodePath : Bytes → Bytes := escape fun byte => isUnreserved byte || byte == slash

def canonicalUri (path : Bytes) : Bytes := (unescape path).elim path uriEncodePath

def ampersand : UInt8 := 38

def equalsSign : UInt8 := 61

def decoded (text : Bytes) : Bytes := (unescape text).getD text

def readPair (piece : Bytes) : Bytes × Bytes :=
  (decoded (piece.takeWhile (· ≠ equalsSign)), decoded (piece.dropWhile (· ≠ equalsSign)).tail)

def pairs (query : Bytes) : List (Bytes × Bytes) :=
  if query = [] then [] else (query.splitOn ampersand).map readPair

def signatureName : Bytes := ascii "X-Amz-Signature"

def writePair (pair : Bytes × Bytes) : Bytes := pair.1 ++ equalsSign :: pair.2

def encodePair (pair : Bytes × Bytes) : Bytes × Bytes :=
  (escape isUnreserved pair.1, escape isUnreserved pair.2)

def comesFirst (first second : Bytes × Bytes) : Prop :=
  first.1 < second.1 ∨ first.1 = second.1 ∧ first.2 ≤ second.2

instance : DecidableRel comesFirst := fun _ _ => inferInstanceAs (Decidable (_ ∨ _))

def canonicalQuery (query : Bytes) : Bytes :=
  let signed := (pairs query).filter fun pair => pair.1 ≠ signatureName
  [ampersand].intercalate (((signed.map encodePair).insertionSort comesFirst).map writePair)

def writeQuery (query : List (Bytes × Bytes)) : Bytes :=
  [ampersand].intercalate (query.map fun pair => writePair (encodePair pair))

theorem isUnreserved_hexDigit {value : ℕ} (small : value < 16) :
    isUnreserved (hexDigit value) = true := by
  interval_cases value <;> decide

theorem not_mem_escape {byte : UInt8} (reserved : isUnreserved byte = false)
    (other : byte ≠ percent) (text : Bytes) : byte ∉ escape isUnreserved text := by
  intro mem
  apply @forall_mem_escape isUnreserved (· ≠ byte) _ _ _ text byte mem rfl
  · rintro plainByte isPlain rfl
    simp [isPlain] at reserved
  · exact other.symm
  · rintro value small rfl
    simp [isUnreserved_hexDigit small] at reserved

theorem decoded_escape (text : Bytes) : decoded (escape isUnreserved text) = text := by
  simp [decoded, unescape_escape (by decide : isUnreserved percent = false)]

theorem readPair_writePair (pair : Bytes × Bytes) : readPair (writePair (encodePair pair)) = pair := by
  have apart := not_mem_escape (by decide : isUnreserved equalsSign = false) (by decide) pair.1
  have stops : ∀ byte ∈ escape isUnreserved pair.1, decide (byte ≠ equalsSign) = true := by
    intro byte mem
    exact decide_eq_true (ne_of_mem_of_not_mem mem apart)
  simp only [readPair, writePair, encodePair]
  rw [List.takeWhile_append_of_pos stops, List.dropWhile_append_of_pos stops]
  simp [decoded_escape]

variable {query : List (Bytes × Bytes)}

theorem pairs_writeQuery (some : query ≠ []) :
    pairs (writeQuery query) = query := by
  have apart : ∀ piece ∈ query.map fun pair => writePair (encodePair pair), ampersand ∉ piece := by
    intro piece mem inside
    obtain ⟨pair, -, rfl⟩ := List.mem_map.mp mem
    have reserved : isUnreserved ampersand = false := by decide
    have notPercent : ampersand ≠ percent := by decide
    rcases List.mem_append.mp inside with inName | inValue
    · exact not_mem_escape reserved notPercent _ inName
    · rcases List.mem_cons.mp inValue with same | inValue
      · exact absurd same (by decide)
      · exact not_mem_escape reserved notPercent _ inValue
  have written : writeQuery query ≠ [] := by
    cases query with
    | nil => exact absurd rfl some
    | cons pair rest => cases rest <;> simp [writeQuery, writePair]
  rw [pairs, if_neg written, writeQuery,
    List.splitOn_intercalate ampersand apart (by simpa using some), List.map_map]
  simp [Function.comp_def, readPair_writePair]

theorem canonicalQuery_writeQuery (some : query ≠ [])
    (plain : ∀ pair ∈ query, ∀ byte ∈ pair.1, isUnreserved byte = true)
    (ordered : query.Pairwise fun first second => first.1 < second.1) :
    canonicalQuery (writeQuery query) =
      writeQuery (query.filter fun pair => pair.1 ≠ signatureName) := by
  have sorted : ((query.filter fun pair => pair.1 ≠ signatureName).map encodePair).Pairwise
      comesFirst := by
    rw [List.pairwise_map]
    apply (ordered.sublist List.filter_sublist).imp_of_mem
    intro first second firstMem secondMem less
    left
    simp only [encodePair]
    rwa [escape_eq_self (plain first (List.mem_of_mem_filter firstMem)),
      escape_eq_self (plain second (List.mem_of_mem_filter secondMem))]
  rw [canonicalQuery, pairs_writeQuery some, sorted.insertionSort_eq, List.map_map]
  rfl

def space : UInt8 := 32

def isSpace (byte : UInt8) : Bool := [32, 9].contains byte.toNat

def trim (value : Bytes) : Bytes := (value.dropWhile isSpace).rdropWhile isSpace

def collapse : Bytes → Bytes
  | [] => []
  | byte :: rest =>
    if byte = space ∧ rest.head? = some space then collapse rest else byte :: collapse rest

def trimAll (value : Bytes) : Bytes := collapse (trim value)

def toLower (byte : UInt8) : UInt8 :=
  if 65 ≤ byte.toNat ∧ byte.toNat ≤ 90 then byte + 32 else byte

def isSigned (name : Bytes) : Bool :=
  name == ascii "host" || name == ascii "content-type" || (ascii "x-amz-").isPrefixOf name

def signedHeaders (request : Request) : List (Bytes × Bytes) :=
  let named := (ascii "host", request.host) ::
    request.headers.map fun header => (header.1.map toLower, header.2)
  (named.filter fun header => isSigned header.1).insertionSort fun first second =>
    first.1 ≤ second.1

def writeHeader (header : Bytes × Bytes) : Bytes :=
  header.1 ++ ascii ":" ++ trimAll header.2 ++ [newline]

/-- No white space at either end, and no two spaces in a row. -/
structure Tidy (value : Bytes) : Prop where
  starts : ∀ byte, value.head? = some byte → isSpace byte = false
  ends : ∀ byte, value.getLast? = some byte → isSpace byte = false
  apart : ¬[space, space] <:+: value

theorem dropWhile_eq_self (value : Bytes) :
    value.dropWhile isSpace = value ↔ ∀ byte, value.head? = some byte → isSpace byte = false := by
  rw [List.dropWhile_eq_self_iff]
  cases value <;> simp

theorem rdropWhile_eq_self (value : Bytes) :
    value.rdropWhile isSpace = value ↔
      ∀ byte, value.getLast? = some byte → isSpace byte = false := by
  rw [List.rdropWhile_eq_self_iff]
  constructor
  · intro never byte last
    obtain ⟨ne, same⟩ := List.mem_getLast?_eq_getLast last
    simpa [same] using never ne
  · intro never ne
    simp [never _ (List.getLast?_eq_getLast_of_ne_nil ne)]

theorem trim_sublist (value : Bytes) : (trim value).Sublist value := by
  apply List.Sublist.trans (List.rdropWhile_prefix isSpace _).sublist
  exact List.dropWhile_sublist isSpace

theorem head?_of_prefix {front value : Bytes} {byte : UInt8} (isPrefix : front <+: value)
    (first : front.head? = some byte) : value.head? = some byte := by
  obtain ⟨rest, rfl⟩ := isPrefix
  rw [List.head?_append, first, Option.some_or]

theorem trim_idempotent (value : Bytes) : trim (trim value) = trim value := by
  have front : (trim value).dropWhile isSpace = trim value := by
    rw [dropWhile_eq_self]
    intro byte first
    have before := head?_of_prefix (List.rdropWhile_prefix isSpace _) first
    exact (dropWhile_eq_self _).mp (List.dropWhile_idempotent isSpace value) byte before
  have back : (trim value).rdropWhile isSpace = trim value :=
    List.rdropWhile_idempotent isSpace _
  rw [trim, front, back]

theorem collapse_sublist (value : Bytes) : (collapse value).Sublist value := by
  induction value with
  | nil => simp [collapse]
  | cons byte rest ih =>
    rw [collapse]
    split
    · exact ih.cons byte
    · exact ih.cons_cons byte

theorem collapse_eq_self_iff (value : Bytes) :
    collapse value = value ↔ ¬[space, space] <:+: value := by
  induction value with
  | nil => simp [collapse]
  | cons byte rest ih =>
    rw [collapse, List.infix_cons_iff]
    split
    · rename_i twice
      obtain ⟨first, second⟩ := twice
      obtain ⟨tail, rfl⟩ := List.head?_eq_some_iff.mp second
      constructor
      · intro same
        have shorter := (collapse_sublist (space :: tail)).length_le
        rw [same] at shorter
        simp at shorter
      · intro none
        exact absurd (Or.inl ⟨tail, by simp [first]⟩) none
    · rename_i notTwice
      rw [List.cons_inj_right, ih]
      constructor
      · rintro apart (starts | inside)
        · obtain ⟨tail, same⟩ := starts
          injection same with first second
          apply notTwice
          simp [← first, ← second]
        · exact apart inside
      · intro apart inside
        exact apart (Or.inr inside)

theorem trimAll_trim (value : Bytes) : trimAll (trim value) = trimAll value := by
  rw [trimAll, trim_idempotent, trimAll]

theorem trimAll_eq_self_iff (value : Bytes) : trimAll value = value ↔ Tidy value := by
  constructor
  · intro same
    have whole : trim value = value := by
      apply (trim_sublist value).eq_of_length_le
      have shorter := (collapse_sublist (trim value)).length_le
      rwa [← trimAll, same] at shorter
    have front : value.dropWhile isSpace = value := by
      apply (List.dropWhile_sublist isSpace).eq_of_length_le
      have shorter := (List.rdropWhile_prefix isSpace (value.dropWhile isSpace)).length_le
      rwa [← trim, whole] at shorter
    have back : value.rdropWhile isSpace = value := by rwa [trim, front] at whole
    have single : collapse value = value := by rwa [trimAll, whole] at same
    exact ⟨(dropWhile_eq_self value).mp front, (rdropWhile_eq_self value).mp back,
      (collapse_eq_self_iff value).mp single⟩
  · intro tidy
    rw [trimAll, trim, (dropWhile_eq_self value).mpr tidy.starts,
      (rdropWhile_eq_self value).mpr tidy.ends, (collapse_eq_self_iff value).mpr tidy.apart]

theorem tidy_of_unspaced {value : Bytes} (unspaced : ∀ byte ∈ value, isSpace byte = false) :
    Tidy value := by
  constructor
  · exact fun byte first => unspaced byte (List.mem_of_mem_head? first)
  · exact fun byte last => unspaced byte (List.mem_of_mem_getLast? last)
  · intro inside
    have blank := unspaced space (inside.subset (by simp))
    exact absurd blank (by decide)

def smallDigit (value : ℕ) : UInt8 := UInt8.ofNat (if value < 10 then 48 + value else 87 + value)

def hex (bytes : Bytes) : Bytes :=
  bytes.flatMap fun byte => [smallDigit (byte.toNat / 16), smallDigit (byte.toNat % 16)]

def isPresigned (request : Request) : Bool :=
  (pairs request.query).any fun pair => pair.1 == signatureName

def payloadHash (digest : Bytes → Bytes) (request : Request) : Bytes :=
  if isPresigned request then ascii "UNSIGNED-PAYLOAD" else hex (digest request.body)

def canonicalRequest (digest : Bytes → Bytes) (request : Request) : Bytes :=
  [newline].intercalate [
    request.method,
    canonicalUri request.path,
    canonicalQuery request.query,
    (signedHeaders request).flatMap writeHeader,
    (ascii ";").intercalate ((signedHeaders request).map Prod.fst),
    payloadHash digest request]

end SigV4
