import Aavishield.Lib.SigV4

/-!
# Addresses of requests

Go reads the text of an address into a scheme, a host, a path and a query, and writes the path
out again when the request is sent.  A path that was already escaped comes out as it went in.
-/

namespace Aavishield.Storage

open Percent SigV4

/-- `url.URL`, without its user and its fragment. -/
structure URL where
  scheme : Bytes := []
  host : Bytes := []
  path : Bytes := []
  rawPath : Bytes := []
  rawQuery : Bytes := []
deriving DecidableEq

def colon : UInt8 := 58

def hash : UInt8 := 35

def questionMark : UInt8 := 63

def isLetter (byte : UInt8) : Bool :=
  (97 ≤ byte.toNat && byte.toNat ≤ 122) || (65 ≤ byte.toNat && byte.toNat ≤ 90)

def isDigit (byte : UInt8) : Bool := 48 ≤ byte.toNat && byte.toNat ≤ 57

/-- `stringContainsCTLByte`. -/
def isCTL (byte : UInt8) : Bool := byte.toNat < 32 || byte.toNat == 127

def isSchemeByte (byte : UInt8) : Bool :=
  isLetter byte || isDigit byte || byte == 43 || byte == 45 || byte == 46

def getScheme (raw : Bytes) : Option (Bytes × Bytes) :=
  match raw.dropWhile isSchemeByte with
  | byte :: rest =>
    if byte ≠ colon then some ([], raw)
    else if (raw.takeWhile isSchemeByte).head?.all isLetter then
      if raw.takeWhile isSchemeByte = [] then none else some (raw.takeWhile isSchemeByte, rest)
    else some ([], raw)
  | [] => some ([], raw)

/-- `shouldEscape` of a path. -/
def isPathByte (byte : UInt8) : Bool :=
  isUnreserved byte || [36, 38, 43, 44, 47, 58, 59, 61, 64].contains byte.toNat

def escapePath : Bytes → Bytes := escape isPathByte

def validEncoded (path : Bytes) : Bool :=
  path.all fun byte =>
    [33, 36, 38, 39, 40, 41, 42, 43, 44, 59, 61, 58, 64, 91, 93, 37].contains byte.toNat ||
      isPathByte byte

def URL.setPath (u : URL) (path : Bytes) : Option URL := do
  let decoded ← unescape path
  return { u with path := decoded, rawPath := if escapePath decoded = path then [] else path }

/-- `shouldEscape` of a host. -/
def isHostByte (byte : UInt8) : Bool :=
  isUnreserved byte ||
    [33, 36, 38, 39, 40, 41, 42, 43, 44, 59, 61, 58, 91, 93, 60, 62, 34].contains byte.toNat

/-- `parseHost` of a name; an address in brackets and a host with escaped bytes are not read. -/
def parseHost (host : Bytes) : Option Bytes :=
  let port := (host.reverse.takeWhile (· ≠ colon)).reverse
  if colon ∈ host ∧ port.any (fun byte => !isDigit byte) then none
  else if host.all (fun byte => (isHostByte byte && byte ≠ 91) || 128 ≤ byte.toNat) then some host
  else none

def parse (raw : Bytes) : Option URL := do
  let text := raw.takeWhile (· ≠ hash)
  if text.any isCTL then none
  else if text = ascii "*" then some { path := text }
  else
    let (scheme, after) ← getScheme text
    let rest := after.takeWhile (· ≠ questionMark)
    let u : URL :=
      { scheme := scheme.map toLower, rawQuery := (after.dropWhile (· ≠ questionMark)).tail }
    if rest.head? ≠ some slash then
      if scheme ≠ [] then some u
      else if colon ∈ rest.takeWhile (· ≠ slash) then none
      else u.setPath rest
    else if (scheme ≠ [] ∨ ¬ascii "///" <+: rest) ∧ ascii "//" <+: rest then
      let authority := (rest.drop 2).takeWhile (· ≠ slash)
      let host ← parseHost authority
      { u with host }.setPath ((rest.drop 2).dropWhile (· ≠ slash))
    else u.setPath rest

def URL.escapedPath (u : URL) : Bytes :=
  if u.rawPath ≠ [] ∧ validEncoded u.rawPath ∧ unescape u.rawPath = some u.path then u.rawPath
  else if u.path = ascii "*" then u.path
  else escapePath u.path

variable {path : Bytes}

theorem setPath_host {u read : URL} (set : u.setPath path = some read) :
    read.host = u.host ∧ read.scheme = u.scheme := by
  unfold URL.setPath at set
  cases decoded : unescape path with
  | none => simp [decoded] at set
  | some text =>
    simp only [decoded, Option.bind_eq_bind, Option.bind_some, Option.pure_def,
      Option.some.injEq] at set
    simp [← set]

theorem subset_of_getScheme {raw scheme rest : Bytes} (parted : getScheme raw = some (scheme, rest)) :
    rest ⊆ raw := by
  have dropped := (List.dropWhile_sublist isSchemeByte (l := raw)).subset
  unfold getScheme at parted
  split at parted
  · rename_i byte after isRest
    rw [isRest] at dropped
    have after_subset : after ⊆ raw := fun byte mem => dropped (by simp [mem])
    split at parted
    · obtain ⟨-, rfl⟩ := Prod.mk.inj (Option.some.inj parted)
      exact List.Subset.refl _
    · split at parted
      · split at parted
        · cases parted
        · obtain ⟨-, rfl⟩ := Prod.mk.inj (Option.some.inj parted)
          exact after_subset
      · obtain ⟨-, rfl⟩ := Prod.mk.inj (Option.some.inj parted)
        exact List.Subset.refl _
  · obtain ⟨-, rfl⟩ := Prod.mk.inj (Option.some.inj parted)
    exact List.Subset.refl _

theorem host_of_parse {raw : Bytes} {u : URL} (plain : slash ∉ raw) (read : parse raw = some u) :
    u.host = [] := by
  unfold parse at read
  simp only [Option.bind_eq_bind] at read
  split at read
  · cases read
  · split at read
    · cases read
      rfl
    · obtain ⟨⟨scheme, after⟩, parted, read⟩ := Option.bind_eq_some_iff.mp read
      have noSlash : (after.takeWhile (· ≠ questionMark)).head? ≠ some slash := by
        intro first
        have mem := (List.takeWhile_sublist _).subset (List.mem_of_mem_head? first)
        exact plain ((List.takeWhile_sublist _).subset (subset_of_getScheme parted mem))
      rw [if_pos noSlash] at read
      split at read
      · cases read
        rfl
      · split at read
        · cases read
        · rw [(setPath_host read).1]

theorem takeWhile_append_stop {stops : UInt8 → Bool} {front rest : Bytes}
    (inside : ∀ byte ∈ front, stops byte = true)
    (stop : ∀ byte, rest.head? = some byte → stops byte = false) :
    (front ++ rest).takeWhile stops = front ∧ (front ++ rest).dropWhile stops = rest := by
  rw [List.takeWhile_append_of_pos inside, List.dropWhile_append_of_pos inside]
  cases rest with
  | nil => simp
  | cons byte rest => simp [stop byte rfl]

inductive Scheme
  | http
  | https
deriving DecidableEq

def Scheme.text : Scheme → Bytes
  | .http => ascii "http"
  | .https => ascii "https"

theorem getScheme_text (scheme : Scheme) (rest : Bytes) :
    getScheme (scheme.text ++ colon :: rest) = some (scheme.text, rest) := by
  have inside : ∀ byte ∈ scheme.text, isSchemeByte byte = true := by
    apply List.all_eq_true.mp
    cases scheme <;> rfl
  obtain ⟨front, back⟩ := @takeWhile_append_stop isSchemeByte scheme.text (colon :: rest) inside
    (by rintro byte ⟨⟩; decide)
  rw [getScheme, front, back]
  cases scheme <;> rfl

def isWritten (byte : UInt8) : Bool := isUnreserved byte || byte == slash || byte == percent

structure Host where
  name : Bytes
  port : Option Bytes
  named : name ≠ []
  isName : ∀ byte ∈ name, isUnreserved byte = true
  isPort : ∀ digits ∈ port, digits ≠ [] ∧ ∀ byte ∈ digits, isDigit byte = true

def Host.text (host : Host) : Bytes := host.name ++ host.port.elim [] (colon :: ·)

theorem isDigit_colon_free {digits : Bytes} (isDigits : ∀ byte ∈ digits, isDigit byte = true) :
    colon ∉ digits := fun mem => absurd (isDigits colon mem) (by decide)

theorem isUnreserved_colon_free {name : Bytes} (isName : ∀ byte ∈ name, isUnreserved byte = true) :
    colon ∉ name := fun mem => absurd (isName colon mem) (by decide)

variable {byte : UInt8}

theorem isUnreserved_of_isDigit (digit : isDigit byte = true) :
    isUnreserved byte = true := by
  simp only [isDigit, Bool.and_eq_true, decide_eq_true_eq] at digit
  simp [isUnreserved, digit]

theorem Host.mem_text {host : Host} (mem : byte ∈ host.text) :
    isUnreserved byte = true ∨ byte = colon := by
  rcases List.mem_append.mp mem with inName | inPort
  · exact Or.inl (host.isName byte inName)
  · cases given : host.port with
    | none => simp [given] at inPort
    | some digits =>
      rw [given] at inPort
      rcases List.mem_cons.mp inPort with same | inDigits
      · exact Or.inr same
      · exact Or.inl (isUnreserved_of_isDigit ((host.isPort digits given).2 byte inDigits))

theorem parseHost_text (host : Host) : parseHost host.text = some host.text := by
  have digitsLast : ¬(colon ∈ host.text ∧
      ((host.text.reverse.takeWhile (· ≠ colon)).reverse.any fun byte => !isDigit byte) = true) := by
    rintro ⟨marked, foreign⟩
    cases given : host.port with
    | none =>
      apply isUnreserved_colon_free host.isName
      simpa [Host.text, given] using marked
    | some digits =>
      have isDigits := (host.isPort digits given).2
      have backwards : host.text.reverse = digits.reverse ++ colon :: host.name.reverse := by
        simp [Host.text, given]
      have last := (@takeWhile_append_stop (· ≠ colon) digits.reverse (colon :: host.name.reverse)
        (fun byte mem => by
          have other := ne_of_mem_of_not_mem mem (by simpa using isDigit_colon_free isDigits)
          simpa using other)
        (by rintro byte ⟨⟩; simp)).1
      rw [backwards, last, List.reverse_reverse] at foreign
      obtain ⟨byte, mem, notDigit⟩ := List.any_eq_true.mp foreign
      simp [isDigits byte mem] at notDigit
  have allowed : (host.text.all fun byte => (isHostByte byte && byte ≠ 91) || 128 ≤ byte.toNat) =
      true := by
    apply List.all_eq_true.mpr
    intro byte mem
    rcases host.mem_text mem with plain | rfl
    · have other : byte ≠ 91 := by
        rintro rfl
        revert plain
        decide
      simp [isHostByte, plain, other]
    · decide
  rw [parseHost, if_neg digitsLast, if_pos allowed]

def isAddressByte (byte : UInt8) : Bool := isWritten byte || byte == colon

theorem seen_of_isAddressByte (isByte : isAddressByte byte = true) :
    isCTL byte = false ∧ byte ≠ hash := by
  constructor
  · simp only [isAddressByte, isWritten, Bool.or_eq_true, beq_iff_eq] at isByte
    rcases isByte with ((plain | rfl) | rfl) | rfl
    · simp only [isUnreserved, Bool.or_eq_true, Bool.and_eq_true, decide_eq_true_eq,
        List.contains_iff_mem, List.mem_cons, List.not_mem_nil, or_false] at plain
      simp only [isCTL, Bool.or_eq_false_iff, decide_eq_false_iff_not, beq_eq_false_iff_ne]
      omega
    · decide
    · decide
    · decide
  · rintro rfl
    revert isByte
    decide

theorem ne_questionMark_of_isAddressByte (isByte : isAddressByte byte = true) :
    byte ≠ questionMark := by
  rintro rfl
  revert isByte
  decide

theorem isAddressByte_of_mem (scheme : Scheme) (host : Host)
    (isPath : ∀ byte ∈ path, isWritten byte = true) :
    ∀ byte ∈ scheme.text ++ ascii "://" ++ host.text ++ path, isAddressByte byte = true := by
  intro byte mem
  simp only [List.mem_append] at mem
  rcases mem with ((inScheme | inMarks) | inHost) | inPath
  · revert byte
    apply List.all_eq_true.mp
    cases scheme <;> rfl
  · revert byte
    exact List.all_eq_true.mp rfl
  · rcases host.mem_text inHost with plain | rfl
    · simp [isAddressByte, isWritten, plain]
    · decide
  · simp [isAddressByte, isPath byte inPath]

theorem parse_address (scheme : Scheme) (host : Host) {path tail decoded : Bytes}
    (isPath : ∀ byte ∈ path, isWritten byte = true)
    (rooted : ∀ byte, path.head? = some byte → byte = slash)
    (queried : ∀ byte, tail.head? = some byte → byte = questionMark)
    (visible : ∀ byte ∈ tail, isCTL byte = false ∧ byte ≠ hash)
    (read : unescape path = some decoded) :
    parse (scheme.text ++ ascii "://" ++ host.text ++ path ++ tail) =
      some {
        scheme := scheme.text
        host := host.text
        path := decoded
        rawPath := if escapePath decoded = path then [] else path
        rawQuery := tail.tail } := by
  have shape : scheme.text ++ ascii "://" ++ host.text ++ path ++ tail =
      scheme.text ++ colon :: (ascii "//" ++ host.text ++ path ++ tail) := by
    have marks : ascii "://" = colon :: ascii "//" := rfl
    simp [marks]
  have front := isAddressByte_of_mem scheme host isPath
  have seen : ∀ byte ∈ scheme.text ++ ascii "://" ++ host.text ++ path ++ tail,
      isCTL byte = false ∧ byte ≠ hash := by
    intro byte mem
    rcases List.mem_append.mp mem with ahead | behind
    · exact seen_of_isAddressByte (front byte ahead)
    · exact visible byte behind
  have noFragment := List.takeWhile_eq_self_iff.mpr fun byte mem =>
    decide_eq_true (seen byte mem).2
  have noCTL : ¬(scheme.text ++ ascii "://" ++ host.text ++ path ++ tail).any isCTL = true := by
    intro found
    obtain ⟨byte, mem, isControl⟩ := List.any_eq_true.mp found
    simp [(seen byte mem).1] at isControl
  have notStar : scheme.text ++ ascii "://" ++ host.text ++ path ++ tail ≠ ascii "*" := by
    cases scheme <;> simp [Scheme.text, ascii]
  obtain ⟨rest, query⟩ := @takeWhile_append_stop (· ≠ questionMark)
    (ascii "//" ++ host.text ++ path) tail
    (fun byte mem => by
      have ahead := front byte (by simp only [List.mem_append] at mem ⊢; tauto)
      simpa using ne_questionMark_of_isAddressByte ahead)
    (fun byte first => by simpa using queried byte first)
  obtain ⟨authority, remaining⟩ := @takeWhile_append_stop (· ≠ slash) host.text path
    (fun byte mem => by
      rcases host.mem_text mem with plain | rfl
      · have other : byte ≠ slash := by
          rintro rfl
          revert plain
          decide
        simpa using other
      · decide)
    (fun byte first => by simpa using rooted byte first)
  have named : scheme.text ≠ [] := by cases scheme <;> decide
  have small : scheme.text.map toLower = scheme.text := by cases scheme <;> rfl
  unfold parse
  rw [noFragment]
  simp only [if_neg noCTL, if_neg notStar]
  rw [shape, getScheme_text]
  simp only [Option.bind_eq_bind, Option.bind_some]
  rw [rest, query]
  have begins : ¬(ascii "//" ++ host.text ++ path).head? ≠ some slash := by
    have marks : ascii "//" = [slash, slash] := rfl
    simp [marks]
  have doubled : (scheme.text ≠ [] ∨ ¬ascii "///" <+: ascii "//" ++ host.text ++ path) ∧
      ascii "//" <+: ascii "//" ++ host.text ++ path := by
    refine ⟨Or.inl named, ?_⟩
    rw [List.append_assoc]
    exact List.prefix_append _ _
  have dropped : (ascii "//" ++ host.text ++ path).drop 2 = host.text ++ path := by
    rw [List.append_assoc]
    rfl
  rw [if_neg begins, if_pos doubled, dropped, authority, remaining, parseHost_text, small]
  simp [URL.setPath, read]

theorem escapedPath_of_written {u : URL} (isPath : ∀ byte ∈ path, isWritten byte = true)
    (rooted : path.head? = some slash) (read : unescape path = some u.path)
    (raw : u.rawPath = if escapePath u.path = path then [] else path) :
    u.escapedPath = path := by
  have valid : validEncoded path = true := by
    apply List.all_eq_true.mpr
    intro byte mem
    have written := isPath byte mem
    simp only [isWritten, Bool.or_eq_true, beq_iff_eq] at written
    rcases written with (plain | rfl) | rfl
    · simp [isPathByte, plain]
    · decide
    · decide
  unfold URL.escapedPath
  by_cases same : escapePath u.path = path
  · rw [if_pos same] at raw
    have other : u.path ≠ ascii "*" := by
      intro star
      rw [star] at same
      rw [← same] at rooted
      revert rooted
      decide
    simp [raw, other, same]
  · rw [if_neg same] at raw
    have ne : path ≠ [] := by
      rintro rfl
      simp at rooted
    rw [raw, if_pos ⟨ne, valid, read⟩]

end Aavishield.Storage
