import Aavishield.Dlp.Libraries
import Mathlib.Algebra.Order.Group.Nat

/-!
# Scoring a file for malware

The hash of a file, a test signature and ClamAV are looked at first, all of them over the whole
file.  What is left is judged by what its beginning looks like: its magic bytes, its entropy,
the names in an archive, the tokens of scripts.
-/

namespace Aavishield.Malware

open Dlp (Bytes ZipMember)
open Text

/-- What `clamd` says; a file that it has not scanned is unknown. -/
structure ClamResult where
  scanned : Bool
  infected : Bool
  signature : List Char
  reason : List Char

/-- Hashing, the crates that read archives and patterns, and the services that are asked. -/
structure Scanners where
  sha256 : Bytes → String
  zip : Bytes → Option (List ZipMember)
  clamav : Bytes → ClamResult
  toLowercase : List Char → List Char
  highEntropy : Bytes → Bool
  entropyText : Bytes → List Char
  /-- The status with which a sandbox answers a file, or an error. -/
  submit : Bytes → List Char → Except (List Char) ℕ

/-- The settings of the scorer. -/
structure Config where
  headBytes : ℕ
  defaultBlockThreshold : ℤ
  defaultAlertThreshold : ℤ
  sandboxBackend : String
  sandboxUrl : String
  knownBad : List String
  knownGood : List String

/-- The answer of the scorer. -/
structure Verdict where
  scanned : Bool
  score : ℤ
  band : String
  action : String
  verdict : String
  signature : List Char
  sha256 : String
  reasons : List (List Char)
  wouldSandbox : Bool

structure Analysis where
  score : ℤ
  reasons : List (List Char)
  signals : List String
  isExecutable : Bool
  isDocument : Bool

def Analysis.add (analysis : Analysis) (signal : String) (reason : List Char) (points : ℤ) : Analysis :=
  { analysis with
    signals := signal :: analysis.signals
    reasons := analysis.reasons ++ [reason]
    score := analysis.score + points }

/-- `haystack.windows(needle.len()).any(..)`, for a needle that is not empty. -/
def containsBytes (haystack needle : Bytes) : Bool := haystack.tails.any needle.isPrefixOf

def bytesOf (text : String) : Bytes := text.toList.map fun letter => UInt8.ofNat letter.toNat

def asciiLowercase (data : Bytes) : Bytes :=
  data.map fun byte => if 65 ≤ byte ∧ byte ≤ 90 then byte + 32 else byte

def executableExts : List String :=
  [".exe", ".dll", ".scr", ".com", ".msi", ".bat", ".cmd", ".ps1", ".sh"]

def dangerousExts : List String :=
  [".scr", ".vbs", ".js", ".jse", ".hta", ".jar", ".wsf", ".pif", ".ps1", ".cmd", ".bat"]

def documentExts : List String :=
  [".pdf", ".doc", ".docx", ".docm", ".xls", ".xlsx", ".xlsm", ".ppt", ".pptx", ".pptm", ".txt",
    ".csv", ".rtf", ".jpg", ".png"]

def eicar : Bytes :=
  bytesOf "X5O!P%@AP[4\\PZX54(P^)7CC)7\x7d$EICAR-STANDARD-ANTIVIRUS-TEST-FILE!$H+H*"

def scriptTokens : List Bytes :=
  ["invoke-expression", "iex ", "frombase64string", "-enc ", "-encodedcommand", "downloadstring",
    "webclient", "powershell -", "cmd /c", "wscript.shell", "eval(", "base64 -d", "curl http",
    "wget http", "chmod +x"].map bytesOf

def hasExecutableMagic (data : Bytes) : Bool :=
  [bytesOf "MZ", [0x7f] ++ bytesOf "ELF", [0xfe, 0xed, 0xfa, 0xce], [0xfe, 0xed, 0xfa, 0xcf],
    [0xcf, 0xfa, 0xed, 0xfe], [0xce, 0xfa, 0xed, 0xfe]].any (·.isPrefixOf data)

def zipMagic : Bytes := bytesOf "PK"

def oleMagic : Bytes := [0xd0, 0xcf, 0x11, 0xe0, 0xa1, 0xb1, 0x1a, 0xe1]

def macroReason : List Char := "Office document contains VBA macros".toList

section Model

variable (scanners : Scanners) (cfg : Config)

/-- The names in an archive tell of macros. -/
def listsMacros (data : Bytes) : Bool :=
  match scanners.zip data with
  | none => false
  | some members => members.any fun member =>
    member.openError.isNone && contains (scanners.toLowercase member.name) "vbaproject.bin".toList

def namesMacros (data : Bytes) : Bool :=
  containsBytes (asciiLowercase data) (bytesOf "vba") ||
    containsBytes (asciiLowercase data) (bytesOf "macros")

def hasOfficeMacros (data : Bytes) : Bool :=
  (zipMagic.isPrefixOf data && listsMacros scanners data) ||
    (oleMagic.isPrefixOf data && namesMacros data)

def extension (filename : List Char) : List Char :=
  let name := scanners.toLowercase filename
  if '.' ∈ name then '.' :: afterLast '.' name else []

def hasDoubleExtension (filename : List Char) : Bool :=
  ["pdf", "doc", "docx", "xls", "xlsx", "jpg", "jpeg", "png", "txt", "zip"].any fun first =>
    ["exe", "scr", "com", "bat", "cmd", "js", "vbs", "jar", "hta", "pif"].any fun second =>
      ("." ++ first ++ "." ++ second).toList.isSuffixOf (scanners.toLowercase filename)

namespace Analysis

variable (analysis : Analysis) (data : Bytes) (filename ext : List Char)

def addDoubleExtension : Analysis :=
  if hasDoubleExtension scanners filename then
    analysis.add "double_extension"
      ("double extension in filename (".toList ++ filename ++ ")".toList) 50
  else analysis

def addExecutable : Analysis :=
  if analysis.isExecutable then
    let analysis :=
      if (executableExts.map String.toList).contains ext then
        analysis.add "bare_executable" "unverified executable".toList 10
      else
        let shown := if ext = [] then "no extension".toList else ext
        analysis.add "masquerade_exe"
          ("executable code inside a non-executable file (".toList ++ shown ++ ")".toList) 55
    let sample := data.take (1024 * 1024)
    if scanners.highEntropy sample then
      analysis.add "packed_high_entropy" ("very high entropy (".toList ++
        scanners.entropyText sample ++ ") — likely packed/encrypted".toList) 25
    else analysis
  else analysis

def addMacros : Analysis :=
  if hasOfficeMacros scanners data then analysis.add "macro_office" macroReason 50 else analysis

def addDangerous : Analysis :=
  if (dangerousExts.map String.toList).contains ext ∧ "bare_executable" ∉ analysis.signals then
    analysis.add "dangerous_extension" ("dangerous file type (".toList ++ ext ++ ")".toList) 15
  else analysis

def addTokens : Analysis :=
  let low := asciiLowercase (data.take (512 * 1024))
  let hits := (scriptTokens.filter (containsBytes low)).length
  if 0 < hits then
    analysis.add "suspicious_script"
      (Nat.toDigits 10 hits ++ " obfuscation/download token(s) in content".toList)
      (min (hits * 20) 60)
  else analysis

def capped : Analysis := if 100 < analysis.score then { analysis with score := 100 } else analysis

end Analysis

/-- `data` is the head of the file. -/
def analyze (data : Bytes) (filename : List Char) : Analysis :=
  let ext := extension scanners filename
  let start : Analysis :=
    ⟨0, [], [], hasExecutableMagic data, (documentExts.map String.toList).contains ext⟩
  ((((start.addDoubleExtension scanners filename).addExecutable scanners data ext).addMacros
    scanners data).addDangerous ext).addTokens data |>.capped

def band (score blockT alertT : ℤ) : String :=
  if blockT ≤ score then "block" else if alertT ≤ score then "alert" else "allow"

def verdictLabel (band : String) : String :=
  if band = "block" then "malware" else if band = "alert" then "suspicious" else "clean"

def blocked (score : ℤ) (signature : List Char) (sha256 : String) (reason : List Char) : Verdict :=
  ⟨true, score, "block", "block", "malware", signature, sha256, [reason], false⟩

/-- What hashes, the test signature and ClamAV decide alone. -/
def settled (data : Bytes) : Option Verdict :=
  let sha := scanners.sha256 data
  let clam := scanners.clamav data
  if cfg.knownBad.contains sha then
    some (blocked 100 "known-bad-hash".toList sha "file hash on known-bad list".toList)
  else if cfg.knownGood.contains sha then
    some ⟨true, 0, "allow", "allow", "clean", [], sha, ["hash on known-good allowlist".toList], false⟩
  else if containsBytes data eicar then
    some (blocked 100 "EICAR-Test-File".toList sha
      "EICAR antivirus test signature present".toList)
  else if clam.scanned && clam.infected then
    some (blocked 95 clam.signature sha ("ClamAV signature match: ".toList ++ clam.signature))
  else none

structure SandboxVerdict where
  submitted : Bool
  score : ℤ
  signature : List Char
  reason : List Char

def isCandidate (score : ℤ) (isExecutable isDocument : Bool) : Bool :=
  (isExecutable || isDocument) && decide (30 ≤ score ∧ score < cfg.defaultBlockThreshold)

def detonate (data : Bytes) (filename : List Char) : SandboxVerdict :=
  if cfg.sandboxBackend = "cape" ∧ cfg.sandboxUrl ≠ "" then
    match scanners.submit data filename with
    | .ok status =>
      if 200 ≤ status ∧ status < 300 then
        ⟨true, 0, [], "submitted to CAPE sandbox for detonation".toList⟩
      else ⟨false, 0, [], "sandbox submit failed: HTTP ".toList ++ Nat.toDigits 10 status⟩
    | .error message => ⟨false, 0, [], "sandbox submit failed: ".toList ++ message⟩
  else ⟨false, 0, [], []⟩

def sandboxed (head : Bytes) (filename : List Char) (analysis : Analysis) (score : ℤ)
    (reasons : List (List Char)) : ℤ × List (List Char) :=
  if isCandidate cfg analysis.score analysis.isExecutable analysis.isDocument then
    let sv := detonate scanners cfg head filename
    if sv.submitted ∧ 0 < sv.score then
      (max score sv.score,
        if sv.signature = [] then reasons
        else reasons ++ ["sandbox verdict: ".toList ++ sv.signature])
    else (score, if sv.reason = [] then reasons else reasons ++ [sv.reason])
  else (score, reasons)

def scoreStream (data : Bytes) (filename : List Char) (blockThreshold alertThreshold : Option ℤ) :
    Verdict :=
  let blockT := blockThreshold.getD cfg.defaultBlockThreshold
  let asked := alertThreshold.getD cfg.defaultAlertThreshold
  let alertT := if blockT ≤ asked then max (blockT - 1) 0 else asked
  match settled scanners cfg data with
  | some verdict => verdict
  | none =>
    let clam := scanners.clamav data
    let head := data.take cfg.headBytes
    let analysis := analyze scanners head filename
    let reasons :=
      if clam.scanned = false ∧ clam.reason ≠ [] then
        analysis.reasons ++ ["signature scan skipped — ".toList ++ clam.reason]
      else analysis.reasons
    let (score, reasons) :=
      sandboxed scanners cfg head filename analysis analysis.score reasons
    let score := min score 100
    let bandS := band score blockT alertT
    { scanned := true
      score := score
      band := bandS
      action := bandS
      verdict := verdictLabel bandS
      signature := []
      sha256 := scanners.sha256 data
      reasons :=
        if reasons = [] ∧ score = 0 then ["no malware indicators found".toList] else reasons
      wouldSandbox :=
        isCandidate cfg analysis.score analysis.isExecutable analysis.isDocument }

/-- Macros are reported exactly when the check of the whole file finds them. -/
def DetectsMacros (data : Bytes) (filename : List Char) (blockThreshold alertThreshold : Option ℤ) :
    Prop :=
  macroReason ∈ (scoreStream scanners cfg data filename blockThreshold alertThreshold).reasons ↔
    hasOfficeMacros scanners data = true

/-- The head of a file shows the macros of the whole. -/
def ShownByHead (data : Bytes) : Prop :=
  data.length ≤ cfg.headBytes ∨
    (zipMagic <+: data →
      (zipMagic <+: data.take cfg.headBytes ∧ listsMacros scanners (data.take cfg.headBytes) = true ↔
        listsMacros scanners data = true)) ∧
    (oleMagic <+: data → namesMacros data = true →
      oleMagic <+: data.take cfg.headBytes ∧ namesMacros (data.take cfg.headBytes) = true)

/-- A settled file has no macros, and any other shows them by its head. -/
def Detectable (data : Bytes) : Prop :=
  ((settled scanners cfg data).isSome = true → hasOfficeMacros scanners data = false) ∧
    ((settled scanners cfg data).isSome = false → ShownByHead scanners cfg data)

end Model

variable {scanners : Scanners} {cfg : Config} {data : Bytes} {filename ext : List Char}
  {analysis : Analysis} {blockThreshold alertThreshold : Option ℤ}

variable {reason : List Char}

theorem ne_macroReason_of_head (letter : Char)
    (starts : reason.head? = some letter) (other : letter ≠ 'O') : reason ≠ macroReason := by
  rintro rfl
  cases starts
  exact other rfl

theorem ne_macroReason_of_getLast {front rest : List Char} (letter : Char)
    (ends : rest.getLast? = some letter) (other : letter ≠ 's') : front ++ rest ≠ macroReason := by
  intro same
  have last := congrArg List.getLast? same
  have ofMacros : macroReason.getLast? = some 's' := rfl
  rw [List.getLast?_append, ends, ofMacros, Option.some_or, Option.some.injEq] at last
  exact other last

@[simp]
theorem mem_reasons_add {signal : String} {reason other : List Char} {points : ℤ} :
    other ∈ (analysis.add signal reason points).reasons ↔ other ∈ analysis.reasons ∨ other = reason := by
  simp [Analysis.add]

theorem mem_reasons_add_of_ne {signal : String} {points : ℤ} (differs : reason ≠ macroReason) :
    macroReason ∈ (analysis.add signal reason points).reasons ↔ macroReason ∈ analysis.reasons := by
  rw [mem_reasons_add, or_iff_left differs.symm]

theorem macroReason_mem_addDoubleExtension :
    macroReason ∈ (analysis.addDoubleExtension scanners filename).reasons ↔
      macroReason ∈ analysis.reasons := by
  unfold Analysis.addDoubleExtension
  split_ifs
  · exact mem_reasons_add_of_ne (ne_macroReason_of_head 'd' rfl (by decide))
  · rfl

theorem macroReason_mem_addExecutable :
    macroReason ∈ (analysis.addExecutable scanners data ext).reasons ↔
      macroReason ∈ analysis.reasons := by
  have entropy : ∀ sample, "very high entropy (".toList ++ scanners.entropyText sample ++
      ") — likely packed/encrypted".toList ≠ macroReason :=
    fun sample => ne_macroReason_of_head 'v' rfl (by decide)
  have bare : "unverified executable".toList ≠ macroReason :=
    ne_macroReason_of_head 'u' rfl (by decide)
  have masked : ∀ shown, "executable code inside a non-executable file (".toList ++ shown ++
      ")".toList ≠ macroReason :=
    fun shown => ne_macroReason_of_head 'e' rfl (by decide)
  simp only [Analysis.addExecutable]
  split_ifs
  · rw [mem_reasons_add_of_ne (entropy _), mem_reasons_add_of_ne bare]
  · rw [mem_reasons_add_of_ne (entropy _), mem_reasons_add_of_ne (masked _)]
  · rw [mem_reasons_add_of_ne (entropy _), mem_reasons_add_of_ne (masked _)]
  · exact mem_reasons_add_of_ne bare
  · exact mem_reasons_add_of_ne (masked _)
  · exact mem_reasons_add_of_ne (masked _)
  · rfl

theorem macroReason_mem_addMacros :
    macroReason ∈ (analysis.addMacros scanners data).reasons ↔
      macroReason ∈ analysis.reasons ∨ hasOfficeMacros scanners data = true := by
  unfold Analysis.addMacros
  split_ifs with found
  · simp [found]
  · simp [found]

theorem macroReason_mem_addDangerous :
    macroReason ∈ (analysis.addDangerous ext).reasons ↔ macroReason ∈ analysis.reasons := by
  unfold Analysis.addDangerous
  split_ifs
  · exact mem_reasons_add_of_ne (ne_macroReason_of_head 'd' rfl (by decide))
  · rfl

theorem macroReason_mem_addTokens :
    macroReason ∈ (analysis.addTokens data).reasons ↔ macroReason ∈ analysis.reasons := by
  simp only [Analysis.addTokens]
  split_ifs
  · exact mem_reasons_add_of_ne (ne_macroReason_of_getLast 't' rfl (by decide))
  · rfl

@[simp]
theorem reasons_capped : analysis.capped.reasons = analysis.reasons := by
  unfold Analysis.capped
  split_ifs <;> rfl

theorem macroReason_mem_analyze :
    macroReason ∈ (analyze scanners data filename).reasons ↔ hasOfficeMacros scanners data = true := by
  simp only [analyze]
  rw [reasons_capped, macroReason_mem_addTokens, macroReason_mem_addDangerous,
    macroReason_mem_addMacros, macroReason_mem_addExecutable, macroReason_mem_addDoubleExtension]
  simp

theorem reason_detonate_ne (data : Bytes) (filename : List Char) :
    (detonate scanners cfg data filename).reason ≠ macroReason := by
  unfold detonate
  split_ifs
  · split
    · split_ifs
      · exact ne_macroReason_of_head 's' rfl (by decide)
      · exact ne_macroReason_of_head 's' rfl (by decide)
    · exact ne_macroReason_of_head 's' rfl (by decide)
  · decide

variable {reasons : List (List Char)}

theorem macroReason_mem_append
    (differs : reason ≠ macroReason) : macroReason ∈ reasons ++ [reason] ↔ macroReason ∈ reasons := by
  rw [List.mem_append, List.mem_singleton, or_iff_left differs.symm]

theorem macroReason_mem_sandboxed {score : ℤ} :
    macroReason ∈ (sandboxed scanners cfg data filename analysis score reasons).2 ↔
      macroReason ∈ reasons := by
  simp only [sandboxed]
  split_ifs
  · rfl
  · exact macroReason_mem_append (ne_macroReason_of_head 's' rfl (by decide))
  · rfl
  · exact macroReason_mem_append (reason_detonate_ne data filename)
  · rfl

theorem macroReason_not_mem_settled {verdict : Verdict}
    (isSettled : settled scanners cfg data = some verdict) : macroReason ∉ verdict.reasons := by
  simp only [settled, blocked] at isSettled
  have signature : macroReason ≠ "ClamAV signature match: ".toList ++ (scanners.clamav data).signature :=
    (ne_macroReason_of_head 'C' rfl (by decide)).symm
  split_ifs at isSettled
  all_goals
    cases isSettled
    rw [List.mem_singleton]
  · decide
  · decide
  · decide
  · exact signature

theorem macroReason_mem_final {score : ℤ} :
    macroReason ∈ (if reasons = [] ∧ score = 0 then ["no malware indicators found".toList]
      else reasons) ↔ macroReason ∈ reasons := by
  have nothing : macroReason ∉ ["no malware indicators found".toList] := by
    rw [List.mem_singleton]
    decide
  split_ifs with empty
  · rw [empty.1]
    exact iff_of_false nothing List.not_mem_nil
  · rfl

theorem macroReason_mem_scoreStream (unsettled : settled scanners cfg data = none) :
    macroReason ∈ (scoreStream scanners cfg data filename blockThreshold alertThreshold).reasons ↔
      hasOfficeMacros scanners (data.take cfg.headBytes) = true := by
  have skipped : ∀ reason, "signature scan skipped — ".toList ++ reason ≠ macroReason :=
    fun reason => ne_macroReason_of_head 's' rfl (by decide)
  simp only [scoreStream, unsettled]
  rw [macroReason_mem_final, macroReason_mem_sandboxed]
  split_ifs
  · exact (macroReason_mem_append (skipped _)).trans macroReason_mem_analyze
  · exact macroReason_mem_analyze

theorem macroReason_not_mem_scoreStream {verdict : Verdict}
    (isSettled : settled scanners cfg data = some verdict) :
    macroReason ∉
      (scoreStream scanners cfg data filename blockThreshold alertThreshold).reasons := by
  have absent := macroReason_not_mem_settled isSettled
  simpa only [scoreStream, isSettled] using absent

theorem containsBytes_iff {haystack needle : Bytes} :
    containsBytes haystack needle = true ↔ needle <:+: haystack := by
  simp only [containsBytes, List.any_eq_true, List.mem_tails, List.isPrefixOf_iff_prefix]
  constructor
  · rintro ⟨rest, isRest, starts⟩
    exact starts.isInfix.trans isRest.isInfix
  · rintro ⟨before, after, rfl⟩
    refine ⟨needle ++ after, ⟨before, ?_⟩, needle.prefix_append after⟩
    rw [List.append_assoc]

theorem namesMacros_of_prefix {front : Bytes} (isFront : front <+: data)
    (named : namesMacros front = true) : namesMacros data = true := by
  simp only [namesMacros, Bool.or_eq_true, containsBytes_iff] at named ⊢
  have lower : asciiLowercase front <:+: asciiLowercase data := (isFront.map _).isInfix
  exact named.imp (·.trans lower) (·.trans lower)

theorem not_zipMagic_of_oleMagic (ole : oleMagic <+: data) : ¬zipMagic <+: data := by
  rintro ⟨rest, rfl⟩
  obtain ⟨more, same⟩ := ole
  have first := congrArg List.head? same
  cases first

theorem hasOfficeMacros_of_ole (ole : oleMagic <+: data) :
    hasOfficeMacros scanners data = namesMacros data := by
  have notZip : zipMagic.isPrefixOf data = false :=
    Bool.eq_false_iff.2 fun zipped =>
      not_zipMagic_of_oleMagic ole (List.isPrefixOf_iff_prefix.1 zipped)
  rw [hasOfficeMacros, List.isPrefixOf_iff_prefix.2 ole, notZip]
  simp

theorem hasOfficeMacros_iff : hasOfficeMacros scanners data = true ↔
    zipMagic <+: data ∧ listsMacros scanners data = true ∨
      oleMagic <+: data ∧ namesMacros data = true := by
  simp [hasOfficeMacros]

theorem hasOfficeMacros_take :
    (hasOfficeMacros scanners (data.take cfg.headBytes) = true ↔
      hasOfficeMacros scanners data = true) ↔ ShownByHead scanners cfg data := by
  have front : data.take cfg.headBytes <+: data := List.take_prefix cfg.headBytes data
  unfold ShownByHead
  by_cases short : data.length ≤ cfg.headBytes
  · rw [List.take_of_length_le short]
    exact iff_of_true Iff.rfl (.inl short)
  rw [or_iff_right short]
  by_cases zipped : zipMagic <+: data
  · have notOle : ¬oleMagic <+: data := fun ole => not_zipMagic_of_oleMagic ole zipped
    have notOleHead : ¬oleMagic <+: data.take cfg.headBytes := fun ole => notOle (ole.trans front)
    simp [hasOfficeMacros_iff, zipped, notOle, notOleHead]
  · have notZipHead : ¬zipMagic <+: data.take cfg.headBytes :=
      fun head => zipped (head.trans front)
    simp only [hasOfficeMacros_iff, zipped, notZipHead, false_and, false_or, false_implies,
      true_and]
    constructor
    · intro agrees ole named
      exact agrees.2 ⟨ole, named⟩
    · intro shown
      constructor
      · rintro ⟨ole, named⟩
        exact ⟨ole.trans front, namesMacros_of_prefix front named⟩
      · rintro ⟨ole, named⟩
        exact shown ole named

theorem shownByHead_of_cut (zipped : zipMagic <+: data)
    (cut : cfg.headBytes < data.length → scanners.zip (data.take cfg.headBytes) = none) :
    ShownByHead scanners cfg data ↔
      data.length ≤ cfg.headBytes ∨ listsMacros scanners data = false := by
  have notOle : ¬oleMagic <+: data := fun ole => not_zipMagic_of_oleMagic ole zipped
  by_cases short : data.length ≤ cfg.headBytes
  · simp [ShownByHead, short]
  · have unlisted : listsMacros scanners (data.take cfg.headBytes) = false := by
      rw [listsMacros, cut (Nat.lt_of_not_le short)]
    simp [ShownByHead, short, zipped, notOle, unlisted]

theorem detectsMacros_iff_detectable :
    DetectsMacros scanners cfg data filename blockThreshold alertThreshold ↔
      Detectable scanners cfg data := by
  unfold DetectsMacros Detectable
  cases stage : settled scanners cfg data with
  | none =>
    rw [macroReason_mem_scoreStream stage, hasOfficeMacros_take]
    simp
  | some verdict =>
    rw [iff_false_left (macroReason_not_mem_scoreStream stage)]
    simp

/-- Scoring reports the macros of a file exactly when nothing settled it before and its head
shows what the file has; a settled file must have none.  As an archive that is cut does not open,
only one that fits into the head shows its macros. -/
theorem detectsMacros_iff (scanners : Scanners) (cfg : Config) (data : Bytes)
    (filename : List Char) (blockThreshold alertThreshold : Option ℤ) :
    (DetectsMacros scanners cfg data filename blockThreshold alertThreshold ↔
        Detectable scanners cfg data) ∧
      (settled scanners cfg data = none → zipMagic <+: data →
        (cfg.headBytes < data.length → scanners.zip (data.take cfg.headBytes) = none) →
          (DetectsMacros scanners cfg data filename blockThreshold alertThreshold ↔
            data.length ≤ cfg.headBytes ∨ listsMacros scanners data = false)) := by
  refine ⟨detectsMacros_iff_detectable, fun unsettled zipped cut => ?_⟩
  rw [detectsMacros_iff_detectable, Detectable, unsettled, ← shownByHead_of_cut zipped cut]
  simp

def paddedDocument (padding : ℕ) : Bytes :=
  oleMagic ++ List.replicate padding 0 ++ bytesOf "VBA"

def bareScanners : Scanners where
  sha256 := fun _ => ""
  zip := fun _ => none
  clamav := fun _ => ⟨false, false, [], []⟩
  toLowercase := id
  highEntropy := fun _ => false
  entropyText := fun _ => []
  submit := fun _ _ => .error []

def bareConfig (headBytes : ℕ) : Config := ⟨headBytes, 80, 50, "none", "", [], []⟩

theorem namesMacros_paddedDocument (padding : ℕ) : namesMacros (paddedDocument padding) = true := by
  have ends : bytesOf "vba" <:+: asciiLowercase (paddedDocument padding) := by
    refine ⟨asciiLowercase (oleMagic ++ List.replicate padding 0), [], ?_⟩
    have lower : bytesOf "vba" = asciiLowercase (bytesOf "VBA") := by decide
    rw [List.append_nil, lower, paddedDocument]
    exact List.map_append.symm
  rw [namesMacros, containsBytes_iff.2 ends, Bool.true_or]

theorem containsBytes_eq_false {haystack needle : Bytes} (byte : UInt8) (inNeedle : byte ∈ needle)
    (missing : byte ∉ haystack) : containsBytes haystack needle = false := by
  rw [Bool.eq_false_iff, Ne, containsBytes_iff]
  exact fun found => missing (found.subset inNeedle)

theorem namesMacros_take_paddedDocument {padding headBytes : ℕ} (fits : headBytes ≤ 8 + padding) :
    namesMacros ((paddedDocument padding).take headBytes) = false := by
  have seen : ∀ byte ∈ asciiLowercase ((paddedDocument padding).take headBytes),
      byte ∈ asciiLowercase oleMagic ∨ byte = 0 := by
    intro byte isByte
    have room : headBytes ≤ (oleMagic ++ List.replicate padding 0).length := by
      rw [List.length_append, List.length_replicate]
      exact fits
    rw [paddedDocument, List.take_append_of_le_length room] at isByte
    obtain ⟨original, isOriginal, rfl⟩ := List.mem_map.1 isByte
    rcases List.mem_append.1 (List.mem_of_mem_take isOriginal) with magic | zero
    · exact .inl (List.mem_map_of_mem magic)
    · rw [List.eq_of_mem_replicate zero]
      exact .inr rfl
  have noV : (118 : UInt8) ∉ asciiLowercase ((paddedDocument padding).take headBytes) :=
    fun inside => absurd (seen _ inside) (by decide)
  have noM : (109 : UInt8) ∉ asciiLowercase ((paddedDocument padding).take headBytes) :=
    fun inside => absurd (seen _ inside) (by decide)
  rw [namesMacros, containsBytes_eq_false 118 (by decide) noV,
    containsBytes_eq_false 109 (by decide) noM, Bool.false_or]

theorem settled_paddedDocument (padding headBytes : ℕ) :
    settled bareScanners (bareConfig headBytes) (paddedDocument padding) = none := by
  have noX : (88 : UInt8) ∉ paddedDocument padding := by
    intro inside
    rcases List.mem_append.1 inside with front | ends
    · rcases List.mem_append.1 front with magic | zero
      · exact absurd magic (by decide)
      · exact absurd (List.eq_of_mem_replicate zero) (by decide)
    · exact absurd ends (by decide)
  have noEicar := containsBytes_eq_false 88 (by decide : 88 ∈ eicar) noX
  simp [settled, bareScanners, bareConfig, noEicar]

/-- The macros stand behind the head of the file. -/
theorem not_detectsMacros_paddedDocument :
    ¬∀ scanners cfg data filename blockThreshold alertThreshold,
      DetectsMacros scanners cfg data filename blockThreshold alertThreshold := by
  intro detects
  have agrees := detects bareScanners (bareConfig (4 * 1024 * 1024))
    (paddedDocument (4 * 1024 * 1024)) "minutes.doc".toList none none
  have whole : oleMagic <+: paddedDocument (4 * 1024 * 1024) := by
    unfold paddedDocument
    rw [List.append_assoc]
    exact List.prefix_append _ _
  unfold DetectsMacros at agrees
  rw [macroReason_mem_scoreStream (settled_paddedDocument _ _), hasOfficeMacros_of_ole whole,
    namesMacros_paddedDocument, hasOfficeMacros_iff] at agrees
  rcases agrees.2 rfl with ⟨_, listed⟩ | ⟨_, named⟩
  · cases listed
  · have unseen := @namesMacros_take_paddedDocument (4 * 1024 * 1024) (4 * 1024 * 1024) (by omega)
    exact Bool.false_ne_true (unseen.symm.trans named)

end Aavishield.Malware
