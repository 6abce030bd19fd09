import Aavishield.Dataplane.Tables
import Aavishield.Policy.AccessExceptions

/-!
# Verdicts about downloads

A file that an employee downloads is known by its SHA-256.  A verdict of a scan is kept for
that hash and answers the later questions about it from every company; what a company has
approved for one of its employees is looked up anew each time and lifts the verdict for that
employee only.
-/

namespace Aavishield.Downloads

open Dataplane DomainRules

def isSHA256Hex (text : List Char) : Bool :=
  text.length == 64 &&
    text.all fun letter => decide ('0' ≤ letter ∧ letter ≤ '9' ∨ 'a' ≤ letter ∧ letter ≤ 'f')

structure SHA256 where
  text : List Char
  isHex : isSHA256Hex text = true
  deriving DecidableEq

inductive FileAction where
  | block
  | alert
  | allow
  deriving DecidableEq

inductive VerdictLabel where
  | malware
  | suspicious
  | clean
  | approved
  deriving DecidableEq

structure FileVerdict where
  scanned : Bool
  infected : Bool
  score : ℤ
  band : FileAction
  action : FileAction
  verdict : VerdictLabel
  signature : List Char
  sha256 : List Char
  reasons : List (List Char)
  wouldSandbox : Bool
  deriving DecidableEq

def fileVerdictReason (v : FileVerdict) : List Char :=
  if v.signature ≠ [] then "Malware detected in downloaded file: ".toList ++ v.signature
  else match v.reasons with
    | first :: _ => first
    | [] => if v.action = .block then "Malware detected in downloaded file".toList else []

structure ServiceAnswer (file : SHA256) where
  verdict : FileVerdict
  named : verdict.scanned = true → verdict.sha256 = file.text

structure ScanResult where
  scanned : Bool
  infected : Bool
  signature : List Char

/--
The service's verdict, or the one of ClamAV in the process when the service is not set up or
fails.  ClamAV names no hash.  Without `clamav` the spooled file could not be read again.
-/
def scanFileStream {file : SHA256} (service : Option (ServiceAnswer file))
    (clamav : Option ScanResult) : FileVerdict :=
  match service, clamav with
  | some answer, _ => answer.verdict
  | none, none => ⟨false, false, 0, .allow, .allow, .clean, [], [], [], false⟩
  | none, some r =>
    if r.infected then ⟨r.scanned, true, 100, .block, .block, .malware, r.signature, [], [], false⟩
    else ⟨r.scanned, false, 0, .allow, .allow, .clean, r.signature, [], [], false⟩

/-- A row of `models.FileVerdict`, without its primary key. -/
structure VerdictRow where
  action : FileAction
  band : FileAction
  verdict : VerdictLabel
  score : ℤ
  signature : List Char
  reason : List Char
  scannedAt : Time

structure AccessRequest extends DomainRules.AccessRequest where
  id : UUID
  orgID : UUID

instance : HasID AccessRequest := ⟨AccessRequest.id⟩

/-- `accessTarget`: what a row of the activity log can be granted for. -/
structure AccessTarget where
  kind : AccessRequestKind
  resource : List Char

inductive Resolution where
  | approve
  | deny
  | revoke

def Resolution.transition : Resolution → AccessRequestStatus × AccessRequestStatus
  | .approve => (.pending, .approved)
  | .deny => (.pending, .denied)
  | .revoke => (.approved, .revoked)

def AccessRequest.resolve (orgID id : UUID) (resolution : Resolution) (request : AccessRequest) :
    AccessRequest :=
  if request.id = id ∧ request.orgID = orgID ∧ request.status = resolution.transition.1 then
    { request with status := resolution.transition.2 }
  else request

/-- The query parameters of `ScanHash` that decide its answer. -/
structure HashQuery where
  sha256 : List Char
  detected : List Char
  unscanned : List Char

inductive HashAnswer where
  | badRequest
  | unknown
  | known (action : FileAction) (reason : List Char)
  deriving DecidableEq

def isEngineLetter (letter : Char) : Bool :=
  letter == ' ' || letter == '-' || letter == '.' || letter.isDigit || letter.isLower ||
    letter.isUpper

def sanitizeEngine (engine : List Char) : List Char :=
  match (engine.filter isEngineLetter).take 40 with
  | [] => "device antivirus".toList
  | kept => kept

def detectedVerdict (sha engine : List Char) : FileVerdict :=
  ⟨true, true, 100, .block, .block, .malware, "Blocked by ".toList ++ sanitizeEngine engine, sha,
    [], false⟩

structure Database where
  verdicts : List Char → Option VerdictRow
  requests : Table AccessRequest

def Database.empty : Database := ⟨fun _ => none, .empty⟩

variable (env : Primitives)

def toLower (text : List Char) : List Char := text.map env.lower

structure Reads where
  verdicts : Bool
  requests : Bool

def maxPendingPerEmployee : ℕ := 25

namespace Database

variable (db : Database)

/-- The database takes the row when `saved`; otherwise the failure is only logged. -/
def rememberFileVerdict (v : FileVerdict) (now : Time) (saved : Bool) : Database :=
  if !v.scanned || v.sha256 = [] || !saved then db
  else { db with
    verdicts := Function.update db.verdicts (toLower env v.sha256) (some
      ⟨v.action, v.band, v.verdict, v.score, v.signature, fileVerdictReason v, now⟩) }

def cleanVerdictTTL : ℤ := 7 * 24 * 60 * 60 * 10 ^ 9

def cachedFileVerdict (sha : List Char) (now : Time) : Option FileVerdict :=
  match db.verdicts sha with
  | none => none
  | some row =>
    if row.action ≠ .block ∧ now - row.scannedAt > cleanVerdictTTL then none
    else some {
      scanned := true
      infected := row.action = .block
      score := row.score
      band := row.band
      action := row.action
      verdict := row.verdict
      signature := row.signature
      sha256 := sha
      reasons := if row.reason ≠ [] ∧ row.signature = [] then [row.reason] else []
      wouldSandbox := false }

/-- The downloads among what `approvedGrants` gives. -/
def approvedDownloads : Option UUID → List (List Char)
  | none => []
  | some employeeID =>
    (db.requests.rows.filter fun request => request.employeeID = employeeID ∧
      request.status = .approved ∧ request.kind = .download).map
        fun request => toLower env request.resource

def settleFileVerdict (employeeID : Option UUID) (reads : Reads) (v : FileVerdict) : FileVerdict :=
  if (v.action = .block ∨ v.action = .alert) ∧ v.sha256 ≠ [] ∧ reads.requests = true ∧
      toLower env v.sha256 ∈ db.approvedDownloads env employeeID then
    { v with action := .allow, band := .allow, verdict := .approved, infected := false }
  else v

def settledAnswer (employeeID : Option UUID) (reads : Reads) (v : FileVerdict) : HashAnswer :=
  let settled := db.settleFileVerdict env employeeID reads v
  .known settled.action (fileVerdictReason settled)

def scanHash (employeeID : Option UUID) (query : HashQuery) (reads : Reads) (now : Time) :
    HashAnswer :=
  let sha := toLower env query.sha256
  if isSHA256Hex sha = false then .badRequest
  else match if reads.verdicts then db.cachedFileVerdict sha now else none with
    | some v => db.settledAnswer env employeeID reads v
    | none =>
      if query.detected ≠ [] then
        db.settledAnswer env employeeID reads (detectedVerdict sha query.detected)
      else if query.unscanned ≠ [] then .known .allow []
      else .unknown

/-- `Create`: the employee's open request for the same thing is returned if there is one. -/
def createRequest (orgID employeeID : UUID) (target : AccessTarget) (id : UUID) : Database :=
  let mine := db.requests.rows.filter fun request => request.employeeID = employeeID
  if ∃ request ∈ mine, request.kind = target.kind ∧ request.resource = target.resource ∧
      (request.status = .pending ∨ request.status = .approved) then db
  else if maxPendingPerEmployee ≤ mine.countP fun request => request.status = .pending then db
  else { db with
    requests := db.requests.insert {
      employeeID := employeeID
      kind := target.kind
      resource := target.resource
      domain := if target.kind = .website then target.resource else []
      status := .pending
      id := id
      orgID := orgID } }

/-- `Withdraw`: the employee's own request, as long as it is pending. -/
def withdrawRequest (employeeID id : UUID) : Database :=
  { db with requests := db.requests.delete fun request =>
      request.id = id ∧ request.employeeID = employeeID ∧ request.status = .pending }

def resolveRequest (orgID id : UUID) (resolution : Resolution) : Database :=
  { db with requests := db.requests.update (AccessRequest.resolve orgID id resolution) (by
      intro request
      unfold AccessRequest.resolve
      split
      · rfl
      · rfl) }

end Database

variable {env} {db : Database} {file : SHA256} {v : FileVerdict} {employeeID : Option UUID}
  {reads : Reads} {query : HashQuery} {now : Time}

namespace SHA256

theorem forall_letter (file : SHA256) {letter : Char} (mem : letter ∈ file.text) :
    '0' ≤ letter ∧ letter ≤ '9' ∨ 'a' ≤ letter ∧ letter ≤ 'f' := by
  have isHex := file.isHex
  simp only [isSHA256Hex, Bool.and_eq_true, List.all_eq_true, decide_eq_true_eq] at isHex
  exact isHex.2 letter mem

theorem toLower_text (file : SHA256) : toLower env file.text = file.text := by
  have kept : ∀ letter ∈ file.text, env.lower letter = letter := by
    intro letter mem
    have isHex := file.forall_letter mem
    simp only [Char.le_def, UInt32.le_iff_toNat_le] at isHex
    change 48 ≤ letter.toNat ∧ letter.toNat ≤ 57 ∨ 97 ≤ letter.toNat ∧ letter.toNat ≤ 102 at isHex
    rw [env.lower_ascii letter (by omega)]
    rcases Text.toLower_cases letter with ⟨isFirst, isLast, -⟩ | same
    · omega
    · exact same
  unfold toLower
  rw [List.map_congr_left kept, List.map_id']

theorem text_ne_nil (file : SHA256) : file.text ≠ [] := by
  intro isEmpty
  have isHex := file.isHex
  simp [isEmpty, isSHA256Hex] at isHex

end SHA256

namespace Database

theorem mem_approvedDownloads {sha : List Char} :
    sha ∈ db.approvedDownloads env employeeID ↔
      ∃ request ∈ db.requests.rows, employeeID = some request.employeeID ∧
        request.status = .approved ∧ request.kind = .download ∧
        toLower env request.resource = sha := by
  cases employeeID with
  | none => simp [approvedDownloads]
  | some id =>
    simp only [approvedDownloads, List.mem_map, List.mem_filter, decide_eq_true_eq,
      Option.some.injEq]
    constructor
    · rintro ⟨request, ⟨mem, rfl, isApproved, isDownload⟩, same⟩
      exact ⟨request, mem, rfl, isApproved, isDownload, same⟩
    · rintro ⟨request, mem, rfl, isApproved, isDownload, same⟩
      exact ⟨request, ⟨mem, rfl, isApproved, isDownload⟩, same⟩

theorem settledAnswer_of_block (blocks : v.action = .block) (named : v.sha256 = file.text) :
    (∃ reason, db.settledAnswer env employeeID reads v = .known .block reason) ∨
      file.text ∈ db.approvedDownloads env employeeID := by
  by_cases approved : file.text ∈ db.approvedDownloads env employeeID
  · right
    exact approved
  · left
    have kept : db.settleFileVerdict env employeeID reads v = v := by
      unfold settleFileVerdict
      rw [named, file.toLower_text, if_neg (fun lifted => approved lifted.2.2.2)]
    exact ⟨fileVerdictReason v, by simp [settledAnswer, kept, blocks]⟩

theorem action_eq_block_of_settledAnswer {reason : List Char}
    (answered : db.settledAnswer env employeeID reads v = .known .block reason) :
    v.action = .block := by
  simp only [settledAnswer, HashAnswer.known.injEq] at answered
  unfold settleFileVerdict at answered
  split at answered
  · cases answered.1
  · exact answered.1

theorem scanHash_of_file (asked : toLower env query.sha256 = file.text) :
    db.scanHash env employeeID query reads now =
      match if reads.verdicts then db.cachedFileVerdict file.text now else none with
      | some v => db.settledAnswer env employeeID reads v
      | none =>
        if query.detected ≠ [] then
          db.settledAnswer env employeeID reads
            (detectedVerdict file.text query.detected)
        else if query.unscanned ≠ [] then .known .allow []
        else .unknown := by
  simp [scanHash, asked, file.isHex]

def Blocks (db : Database) (file : SHA256) : Prop :=
  ∃ row, db.verdicts file.text = some row ∧ row.action = .block

theorem Blocks.cachedFileVerdict (blocks : db.Blocks file) (now : Time) :
    ∃ v, db.cachedFileVerdict file.text now = some v ∧ v.action = .block ∧
      v.sha256 = file.text := by
  rcases blocks with ⟨row, found, isBlock⟩
  simp [Database.cachedFileVerdict, found, isBlock]

theorem blocks_of_cachedFileVerdict (found : db.cachedFileVerdict file.text now = some v)
    (isBlock : v.action = .block) : db.Blocks file := by
  unfold Database.cachedFileVerdict at found
  split at found
  · cases found
  · next row stored =>
      split at found
      · cases found
      · cases found
        exact ⟨row, stored, isBlock⟩

def Kept (v : FileVerdict) (saved : Bool) : Prop :=
  v.scanned = true ∧ v.sha256 ≠ [] ∧ saved = true

instance (v : FileVerdict) (saved : Bool) : Decidable (Kept v saved) :=
  inferInstanceAs (Decidable (_ ∧ _))

theorem rememberFileVerdict_of_not_kept {saved : Bool} (lost : ¬Kept v saved) :
    db.rememberFileVerdict env v now saved = db := by
  unfold rememberFileVerdict
  rw [if_pos]
  simp only [Kept] at lost
  grind

theorem blocks_rememberFileVerdict {saved : Bool} {other : SHA256} (kept : Kept v saved)
    (named : v.sha256 = file.text) :
    (db.rememberFileVerdict env v now saved).Blocks other ↔
      if other = file then v.action = .block else db.Blocks other := by
  have stored : db.rememberFileVerdict env v now saved = { db with
      verdicts := Function.update db.verdicts file.text (some
        ⟨v.action, v.band, v.verdict, v.score, v.signature, fileVerdictReason v, now⟩) } := by
    rcases kept with ⟨scanned, -, saved⟩
    simp [rememberFileVerdict, scanned, saved, named, file.text_ne_nil, file.toLower_text]
  rw [stored]
  split
  · next same =>
      subst same
      simp [Blocks]
  · next differs =>
      have apart : other.text ≠ file.text := fun same => differs (by
        cases other
        cases file
        simpa using same)
      simp [Blocks, Function.update_of_ne apart]

end Database

end Aavishield.Downloads
