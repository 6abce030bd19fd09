import Aavishield.Basic
import Aavishield.Lib.Text

/-!
# Second factors

The codes that complete a sign-in: time-based ones of an authenticator app, recovery
codes and emailed ones; and the sealing of the secret that an authenticator shares.
-/

namespace Aavishield.Auth

open Text

/-- What signing in takes from libraries. -/
structure Primitives where
  /-- `unicode.ToUpper`. -/
  upper : Char → Char
  /-- `unicode.ToLower`. -/
  lower : Char → Char
  hmacSHA1 : List UInt8 → List UInt8 → Vector UInt8 20
  hashRefreshToken : String → String
  /-- `bcrypt.CompareHashAndPassword`, of a hash and a password. -/
  compareHashAndPassword : String → String → Bool
  /-- The text of a nonce and of what AES-GCM makes of a plaintext under it. -/
  encrypt : String → String → String
  decrypt : String → Option String

variable (env : Primitives)

def ungrouped (text : List Char) : List Char :=
  text.filter fun letter => letter ≠ ' ' ∧ letter ≠ '-'

def address (email : String) : String :=
  String.ofList ((trimSpace email.toList).map env.lower)

def normalizeOTP (code : String) : String := String.ofList (ungrouped (trimSpace code.toList))

def hashOTP (code : String) : String := env.hashRefreshToken (normalizeOTP code)

def normalizeRecoveryCode (code : String) : String :=
  String.ofList ((ungrouped (trimSpace code.toList)).map env.upper)

def hashRecoveryCode (code : String) : String :=
  env.hashRefreshToken (normalizeRecoveryCode env code)

def base32Alphabet : List Char := "ABCDEFGHIJKLMNOPQRSTUVWXYZ234567".toList

def bits (width number : ℕ) : List Bool :=
  (List.range width).reverse.map number.testBit

def ofBits (digits : List Bool) : ℕ :=
  digits.foldl (fun number digit => 2 * number + digit.toNat) 0

def bytesOfBits (digits : List Bool) : List UInt8 :=
  (List.range (digits.length / 8)).map fun index =>
    UInt8.ofNat (ofBits ((digits.drop (8 * index)).take 8))

/--
`base32.StdEncoding.DecodeString`: line breaks are skipped, and a last group of two, four, five
or seven letters is filled up to eight.
-/
def base32Decode (text : List Char) : Option (List UInt8) :=
  let text := text.filter fun letter => letter ≠ '\r' ∧ letter ≠ '\n'
  let letters := text.takeWhile (· ≠ '=')
  let padding := text.drop letters.length
  let group := letters.length % 8
  if (padding = [] ∧ group = 0 ∨ group ∈ [2, 4, 5, 7] ∧ padding.length ≤ 8 ∧
      (List.replicate (8 - group) '=').isPrefixOf padding) ∧ letters.all (· ∈ base32Alphabet) then
    some (bytesOfBits (letters.flatMap fun letter => bits 5 (base32Alphabet.idxOf letter)))
  else none

def totpDigits : ℕ := 6

def totpPeriod : ℤ := 30

def totpSkew : ℤ := 1

/-- The number with leading zeros (`%06d`). -/
def sixDigits (number : ℕ) : List Char :=
  let digits := (toString number).toList
  List.replicate (totpDigits - digits.length) '0' ++ digits

def totpKey (secret : String) : Option (List UInt8) :=
  let normalized := (ungrouped secret.toList).map env.upper
  let padding := if normalized.length % 8 = 0 then 0 else 8 - normalized.length % 8
  base32Decode (normalized ++ List.replicate padding '=')

def totpAt (secret : String) (counter : UInt64) : Option (List Char) :=
  (totpKey env secret).map fun key =>
    let message := (List.range 8).reverse.map fun index =>
      UInt8.ofNat (counter.toNat / 256 ^ index)
    let sum := (env.hmacSHA1 key message).toList
    let offset := (sum.getD 19 0 &&& 0x0f).toNat
    let octet := fun index => (sum.getD (offset + index) 0).toNat
    let code := (octet 0 % 128) * 2 ^ 24 + octet 1 * 2 ^ 16 + octet 2 * 2 ^ 8 + octet 3
    sixDigits (code % 10 ^ totpDigits)

def verifyTOTP (secret code : String) (now : ℤ) : Bool :=
  let digits := trimSpace (code.toList.filter (· ≠ ' '))
  let counter := (now / 10 ^ 9).tdiv totpPeriod
  (String.ofList digits).utf8ByteSize == totpDigits &&
    [-totpSkew, 0, totpSkew].any fun skew =>
      totpAt env secret (UInt64.ofInt (counter + skew)) == some digits

def sealedPrefix : String := "v1:"

/-- `secretbox.Seal` under the label of these secrets. -/
def sealSecret (nonce secret : String) : String := sealedPrefix ++ env.encrypt nonce secret

/-- `secretbox.Open`. -/
def openSealed (stored : String) : Option String :=
  if sealedPrefix.toList.isPrefixOf stored.toList then
    env.decrypt (String.ofList (stored.toList.drop sealedPrefix.length))
  else some stored

def mfaSecret (stored : String) : String :=
  if stored = "" then "" else (openSealed env stored).getD ""

end Aavishield.Auth
