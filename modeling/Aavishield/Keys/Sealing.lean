import Aavishield.Lib.Base64
import Aavishield.Lib.Text

/-!
# Sealed values

Three packages seal values with AES-256-GCM under keys that they derive from the same secret,
each in its own way: the keys of the organisations' CAs, the secrets of second factors, and the
credentials and held events of data residency.
-/

namespace Aavishield.Sealing

open Base64 Text

abbrev Bytes := List UInt8

/-- Random bytes, as many as `gcm.NonceSize` says. -/
abbrev Nonce := {bytes : Bytes // bytes.length = 12}

/-- Authenticated encryption under keys that are hashes of texts. -/
structure Crypto (Key : Type) where
  sha256 : List Char → Key
  gcmSeal : Key → Nonce → Bytes → Bytes
  gcmOpen : Key → Nonce → Bytes → Option Bytes
  opens : ∀ key nonce plain, gcmOpen key nonce (gcmSeal key nonce plain) = some plain
  opensOnly : ∀ key other nonce sealed first second, gcmOpen key nonce sealed = some first →
    gcmOpen other nonce sealed = some second → key = other

variable {Key : Type} (crypto : Crypto Key)

def sealWith (key : Key) (nonce : Nonce) (plaintext : Bytes) : List Char :=
  encode (nonce.1 ++ crypto.gcmSeal key nonce plaintext)

def openWith (key : Key) (encoded : List Char) : Option Bytes :=
  match decode encoded with
  | none => none
  | some sealed =>
    if long : 12 ≤ sealed.length then
      crypto.gcmOpen key ⟨sealed.take 12, by simp [long]⟩ (sealed.drop 12)
    else none

def deriveKey (raw : List Char) : Key := crypto.sha256 raw

/-- The secret is what `CA_KEY_ENCRYPTION_KEY` is set to. -/
def encryptionKey (secret : List Char) : Option Key :=
  if secret = [] then none else some (deriveKey crypto secret)

def decryptKey (secret encoded : List Char) : Option Bytes :=
  (encryptionKey crypto secret).bind fun key => openWith crypto key encoded

def sealPrefix : List Char := "v1:".toList

def utf8 (text : List Char) : Bytes := text.flatMap String.utf8EncodeChar

def secretboxKey (secret label : List Char) : Option Key :=
  if secret = [] then none
  else some (crypto.sha256 ("aavishield/secretbox/v1\x00".toList ++ label ++ "\x00".toList ++ secret))

def secretboxSeal (secret label : List Char) (nonce : Nonce) (plaintext : List Char) :
    Option (List Char) :=
  (secretboxKey crypto secret label).map fun key =>
    sealPrefix ++ sealWith crypto key nonce (utf8 plaintext)

/-- `secretbox.Open`, which takes a value without the mark as it is. -/
def secretboxOpen (secret label stored : List Char) : Option Bytes :=
  if sealPrefix.isPrefixOf stored then
    (secretboxKey crypto secret label).bind fun key =>
      openWith crypto key (trimPrefix sealPrefix stored)
  else some (utf8 stored)

def sealKey (secret : List Char) : Option Key :=
  if secret = [] then none
  else some (crypto.sha256 ("aavishield/data-residency/v1\x00".toList ++ secret))

def dataplaneSeal (secret : List Char) (nonce : Nonce) (plaintext : Bytes) : Option (List Char) :=
  (sealKey crypto secret).map fun key => sealPrefix ++ sealWith crypto key nonce plaintext

def dataplaneOpen (secret stored : List Char) : Option Bytes :=
  if sealPrefix.isPrefixOf stored then
    (sealKey crypto secret).bind fun key => openWith crypto key (trimPrefix sealPrefix stored)
  else none

variable {crypto} {key other : Key} {encoded : List Char} {first second : Bytes}

@[simp]
theorem openWith_sealWith (key : Key) (nonce : Nonce) (plaintext : Bytes) :
    openWith crypto key (sealWith crypto key nonce plaintext) = some plaintext := by
  rcases nonce with ⟨nonce, twelve⟩
  simp [openWith, sealWith, decode_encode, twelve, crypto.opens]

theorem key_eq_of_openWith (opensFirst : openWith crypto key encoded = some first)
    (opensSecond : openWith crypto other encoded = some second) : key = other := by
  unfold openWith at opensFirst opensSecond
  split at opensFirst
  · simp at opensFirst
  · split at opensFirst
    · rename_i sealed decoded long
      simp only [decoded, long, dif_pos] at opensSecond
      exact crypto.opensOnly _ _ _ _ _ _ opensFirst opensSecond
    · simp at opensFirst

@[simp]
theorem secretboxOpen_seal {secret label : List Char} (filled : secret ≠ []) (nonce : Nonce)
    (plaintext : List Char) :
    (secretboxSeal crypto secret label nonce plaintext).bind (secretboxOpen crypto secret label) =
      some (utf8 plaintext) := by
  simp [secretboxSeal, secretboxOpen, secretboxKey, filled]

@[simp]
theorem dataplaneOpen_seal {secret : List Char} (filled : secret ≠ []) (nonce : Nonce)
    (plaintext : Bytes) :
    (dataplaneSeal crypto secret nonce plaintext).bind (dataplaneOpen crypto secret) =
      some plaintext := by
  simp [dataplaneSeal, dataplaneOpen, sealKey, filled]

end Aavishield.Sealing
