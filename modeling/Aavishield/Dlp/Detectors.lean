import Aavishield.Lib.ByteText
import Aavishield.Lib.Text
import Mathlib.Algebra.Ring.Int.Defs
import Mathlib.Data.List.DropRight

/-!
# Detectors of sensitive data

What the DLP service finds in a text: numbers and tokens by their patterns and checksums,
and the words and patterns of an organization.  The engine of regular expressions is a
parameter.
-/

namespace Aavishield.Dlp

open ByteText Text

structure Found where
  front : List Char
  matched : List Char
  rest : List Char

structure Regex where
  findIter : List Char → List Found
  capturesIter : List Char → List (List Char × List Char)
  isMatch : List Char → Bool

/-- What is taken from the standard library, from the `regex` crate and from floating point. -/
structure Primitives where
  toLowercase : List Char → List Char
  toUppercase : List Char → List Char
  /-- `Regex::new`. -/
  regex : String → Option Regex
  /-- `shannon_entropy(s) < MIN_SECRET_ENTROPY`. -/
  lowEntropy : List Char → Bool
  /-- `((weight as f64) * (confidence as f64 / 100.0)).round()`. -/
  scaled : ℤ → ℤ → ℤ

def plain : Primitives where
  toLowercase := List.map Char.toLower
  toUppercase := List.map Char.toUpper
  regex _ := none
  lowEntropy _ := false
  scaled weight confidence := (2 * weight * confidence + 100) / 200

variable (env : Primitives)

def Primitives.builtin (pattern : String) : Regex :=
  (env.regex pattern).getD ⟨fun _ => [], fun _ => [], fun _ => false⟩

def builtinLabel : String → String
  | "credit_card" => "Credit Card Number"
  | "pan_india" => "PAN Card (India)"
  | "aadhaar" => "Aadhaar Number (India)"
  | "aws_key" => "AWS Access Key"
  | "github_token" => "GitHub Token"
  | "generic_api_key" => "Generic API Key / Secret"
  | "source_code" => "Source Code File"
  | "ai_visual" => "AI Image Classification"
  | "ai_text" => "AI Content Classification"
  | "ai_audio" => "AI Audio Classification"
  | _ => ""

def structuredDetectors : List String :=
  ["credit_card", "pan_india", "aadhaar", "aws_key", "github_token", "generic_api_key"]

def defaultWeight : String → ℤ
  | "aws_key" => 85
  | "github_token" => 80
  | "generic_api_key" => 70
  | "credit_card" => 55
  | "aadhaar" => 55
  | "pan_india" => 45
  | "source_code" => 40
  | "ai_visual" => 75
  | "ai_text" => 70
  | "ai_audio" => 60
  | "custom_regex" => 35
  | _ => 25

/-- What a detector found, as it is shown and as it is counted. -/
structure Match where
  detector : String
  label : String
  preview : List Char
  weight : ℤ
  key : List Char
  deriving DecidableEq

structure CustomPattern where
  name : List Char
  regex : String

/-- All but the last four digits are hidden. -/
def redactDigits (digits : List Char) : List Char :=
  if digits.length ≤ 4 then "****".toList
  else List.replicate (digits.length - 4) '*' ++ digits.drop (digits.length - 4)

def redactAlnum (text : List Char) : List Char :=
  if text.length ≤ 4 then "****".toList else text.take 4 ++ "****".toList

def stripSeparators (text : List Char) : List Char :=
  text.filter Char.isDigit

def toDigit (letter : Char) : Option ℕ :=
  if letter.isDigit then some (letter.toNat - '0'.toNat) else none

def luhnTotal : Bool → List Char → Option ℕ
  | _, [] => some 0
  | alt, letter :: rest => do
    let digit ← toDigit letter
    let digit := if alt then if 2 * digit > 9 then 2 * digit - 9 else 2 * digit else digit
    let total ← luhnTotal (!alt) rest
    return digit + total

def luhnValid (digits : List Char) : Bool :=
  (luhnTotal false digits.reverse).any (· % 10 == 0)

def verhoeffD : List (List ℕ) := [
  [0, 1, 2, 3, 4, 5, 6, 7, 8, 9],
  [1, 2, 3, 4, 0, 6, 7, 8, 9, 5],
  [2, 3, 4, 0, 1, 7, 8, 9, 5, 6],
  [3, 4, 0, 1, 2, 8, 9, 5, 6, 7],
  [4, 0, 1, 2, 3, 9, 5, 6, 7, 8],
  [5, 9, 8, 7, 6, 0, 4, 3, 2, 1],
  [6, 5, 9, 8, 7, 1, 0, 4, 3, 2],
  [7, 6, 5, 9, 8, 2, 1, 0, 4, 3],
  [8, 7, 6, 5, 9, 3, 2, 1, 0, 4],
  [9, 8, 7, 6, 5, 4, 3, 2, 1, 0]]

def verhoeffP : List (List ℕ) := [
  [0, 1, 2, 3, 4, 5, 6, 7, 8, 9],
  [1, 5, 7, 6, 2, 8, 3, 0, 9, 4],
  [5, 8, 0, 3, 7, 9, 6, 1, 4, 2],
  [8, 9, 1, 6, 0, 4, 3, 5, 2, 7],
  [9, 4, 5, 3, 1, 2, 6, 8, 7, 0],
  [4, 2, 8, 6, 5, 7, 3, 9, 0, 1],
  [2, 7, 9, 3, 8, 0, 6, 4, 1, 5],
  [7, 0, 4, 6, 9, 1, 3, 2, 5, 8]]

def entry (table : List (List ℕ)) (row column : ℕ) : ℕ :=
  (table.getD row []).getD column 0

def verhoeffCheck : ℕ → ℕ → List Char → Option ℕ
  | _, check, [] => some check
  | index, check, letter :: rest => do
    let digit ← toDigit letter
    verhoeffCheck (index + 1) (entry verhoeffD check (entry verhoeffP (index % 8) digit)) rest

def verhoeffValid (digits : List Char) : Bool :=
  verhoeffCheck 0 0 digits.reverse == some 0

def leading (digits : List Char) (count : ℕ) : ℕ :=
  if count ≤ digits.length then
    (digits.take count).foldl (fun number letter => 10 * number + (toDigit letter).getD 0) 0
  else 0

def cardNetworkValid (digits : List Char) : Bool :=
  let len := digits.length
  let p1 := leading digits 1
  let p2 := leading digits 2
  let p3 := leading digits 3
  let p4 := leading digits 4
  let p6 := leading digits 6
  let within := fun (low number high : ℕ) => low ≤ number ∧ number ≤ high
  decide <|
    -- Visa
    (p1 = 4 ∧ (len = 13 ∨ len = 16 ∨ len = 19)) ∨
    -- Mastercard
    ((within 51 p2 55 ∨ within 2221 p4 2720) ∧ len = 16) ∨
    -- American Express
    ((p2 = 34 ∨ p2 = 37) ∧ len = 15) ∨
    -- Discover
    ((p4 = 6011 ∨ within 644 p3 649 ∨ p2 = 65 ∨ within 622126 p6 622925) ∧ within 16 len 19) ∨
    -- JCB
    (within 3528 p4 3589 ∧ within 16 len 19) ∨
    -- Diners Club
    ((within 300 p3 305 ∨ p2 = 36 ∨ p2 = 38 ∨ p2 = 39) ∧ within 14 len 19) ∨
    -- UnionPay
    (p2 = 62 ∧ within 16 len 19) ∨
    -- RuPay
    ((p2 = 60 ∨ p2 = 81 ∨ p2 = 82 ∨ p3 = 508 ∨ p3 = 353 ∨ p3 = 356) ∧ len = 16) ∨
    -- Maestro
    ((p2 = 50 ∨ within 56 p2 58 ∨ p4 = 6304 ∨ p4 = 6759 ∨ p4 = 6761 ∨ p4 = 6762 ∨ p4 = 6763) ∧
      within 12 len 19)

/-- Whether the digits go on before or behind a decimal point. -/
def partOfDecimal (front rest : List Char) : Bool :=
  match front.reverse with
  | '.' :: _ => true
  | ',' :: digit :: _ => digit.isDigit || fraction
  | _ => fraction
where
  fraction : Bool :=
    match rest with
    | '.' :: digit :: _ => digit.isDigit
    | _ => false

def builtinMatch (detector : String) (preview key : List Char) (weight : ℤ) : Match where
  detector := detector
  label := builtinLabel detector
  preview := preview
  weight := weight
  key := key

def detectCreditCard (text : List Char) (weight : ℤ) : List Match :=
  let pattern := env.builtin "\\b(?:\\d[ -]?)\x7b13,19\x7d\\b"
  (pattern.findIter text).filterMap fun found =>
    let candidate := found.matched.rdropWhile (· ∈ [' ', '-'])
    let after := found.matched.drop candidate.length ++ found.rest
    let digits := stripSeparators candidate
    if ¬(13 ≤ digits.length ∧ digits.length ≤ 19) then none
    else if partOfDecimal found.front after then none
    else if !luhnValid digits || !cardNetworkValid digits then none
    else some (builtinMatch "credit_card" (redactDigits digits) digits weight)

def panHolderTypes : List Char := "PCHFATBLJG".toList

def detectPan (text : List Char) (weight : ℤ) : List Match :=
  let pattern := env.builtin "\\b[A-Z]\x7b5\x7d[0-9]\x7b4\x7d[A-Z]\\b"
  (pattern.findIter (env.toUppercase text)).filterMap fun found =>
    if found.matched.getD 3 ' ' ∈ panHolderTypes then
      some (builtinMatch "pan_india" (redactAlnum found.matched) found.matched weight)
    else none

def aadhaarContextWindow : ℕ := 120

def detectAadhaar (text : List Char) (weight : ℤ) : List Match :=
  let pattern := env.builtin "\\b\\d\x7b4\x7d[ -]?\\d\x7b4\x7d[ -]?\\d\x7b4\x7d\\b"
  let context := env.builtin "(?i)aadhaa?r|uidai|\\buid\\b|आधार|enrol?ment\\s*no"
  (pattern.findIter text).filterMap fun found =>
    let digits := stripSeparators found.matched
    let before := dropBytes found.front
      (floorCharBoundary found.front (byteLength found.front - aadhaarContextWindow))
    if digits.length ≠ 12 ∨ verhoeffValid digits = false then none
    else if digits.head? = some '0' ∨ digits.head? = some '1' ∨
        partOfDecimal found.front found.rest = true then none
    else if ¬(' ' ∈ found.matched ∨ '-' ∈ found.matched) ∧ context.isMatch before = false then none
    else some (builtinMatch "aadhaar" (redactDigits digits) digits weight)

def detectAwsKey (text : List Char) (weight : ℤ) : List Match :=
  let pattern := env.builtin "\\b(?:AKIA|ASIA)[0-9A-Z]\x7b16\x7d\\b"
  (pattern.findIter text).filterMap fun found =>
    if env.lowEntropy (found.matched.drop 4) then none
    else some (builtinMatch "aws_key" (redactAlnum found.matched) found.matched weight)

def detectGithubToken (text : List Char) (weight : ℤ) : List Match :=
  let pattern := env.builtin "\\bgh[pousr]_[A-Za-z0-9]\x7b36,255\x7d\\b"
  (pattern.findIter text).map fun found =>
    builtinMatch "github_token" (redactAlnum found.matched) found.matched weight

def detectGenericApiKey (text : List Char) (weight : ℤ) : List Match :=
  let pattern := env.builtin
    "(?i)(api[_-]?key|secret[_-]?key|access[_-]?token|auth[_-]?token|client[_-]?secret|private[_-]?key|password)\\s*[:=]\\s*['\"]?([A-Za-z0-9_\\-/+]\x7b12,\x7d)['\"]?"
  (pattern.capturesIter text).filterMap fun (keyName, value) =>
    if env.lowEntropy value then none
    else some (builtinMatch "generic_api_key" (keyName ++ '=' :: redactAlnum value) value weight)

def sourceCodeExts : List String :=
  [".go", ".py", ".js", ".ts", ".jsx", ".tsx", ".java", ".c", ".cpp", ".h", ".hpp", ".cs", ".rb",
    ".php", ".rs", ".swift", ".kt", ".scala", ".sql", ".sh", ".pl"]

def detectSourceCode (filename : List Char) (weight : ℤ) : List Match :=
  let lower := env.toLowercase filename
  if sourceCodeExts.any fun ext => ext.toList.isSuffixOf lower then
    [builtinMatch "source_code" filename filename weight]
  else []

def detectKeywords (text : List Char) (keywords : List (List Char)) (weight : ℤ) : List Match :=
  keywords.filterMap fun keyword =>
    let keyword := trimSpace keyword
    if keyword ≠ [] ∧ contains (env.toLowercase text) (env.toLowercase keyword) then
      some ⟨"keyword", "Keyword: " ++ String.ofList keyword, keyword, weight, keyword⟩
    else none

def detectCustomPatterns (text : List Char) (patterns : List CustomPattern) (weight : ℤ) :
    List Match :=
  patterns.filterMap fun pattern => do
    let regex ← env.regex pattern.regex
    if regex.isMatch text then
      some ⟨"custom_regex", "Custom: " ++ String.ofList pattern.name, pattern.name, weight,
        pattern.name⟩
    else none

def fileCategory (filename contentType : List Char) : String :=
  let ct := env.toLowercase contentType
  let name := env.toLowercase filename
  let ends := fun (exts : List String) => exts.any fun ext => ext.toList.isSuffixOf name
  if "image/".toList.isPrefixOf ct || ends [".png", ".jpg", ".jpeg", ".gif", ".webp", ".svg"] then
    "image"
  else if ct == "application/pdf".toList || ends [".pdf"] then "pdf"
  else if contains ct "zip".toList || contains ct "compressed".toList ||
      ends [".zip", ".rar", ".7z"] then "archive"
  else "document"

end Aavishield.Dlp
