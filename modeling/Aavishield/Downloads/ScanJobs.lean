import Aavishield.Downloads.Verdicts

/-!
# Scan jobs

A download that is not known by its hash is uploaded in parts.  The parts of a job are
written one after the other, each at the offset that has been reached; a part that comes again
is acknowledged without being written.  When everything is there the agent completes the job,
the file is scanned in the background, and the agent asks for the verdict.
-/

namespace Aavishield.Downloads

open Dataplane

def maxScanJobBytes : ℕ := 4000 * 2 ^ 20

def scanJobPartBytes : ℕ := 32 * 2 ^ 20

def maxJobsPerDevice : ℕ := 4

def scanJobIdleTTL : ℤ := 30 * 60 * 10 ^ 9

def scanJobStallTTL : ℤ := 2 * 60 * 10 ^ 9

inductive JobState where
  | uploading
  | scanning
  | done
  deriving DecidableEq

/-- `scanJob`; the spool holds the bytes until it is closed. -/
structure ScanJob where
  deviceID : UUID
  size : ℕ
  spool : Option (List UInt8)
  received : ℕ
  state : JobState
  verdict : FileVerdict
  touched : Time

def unscannedVerdict : FileVerdict :=
  ⟨false, false, 0, .allow, .allow, .clean, [], [], [], false⟩

inductive PartAnswer where
  | received (count : ℕ)
  | outOfOrder (received : ℕ)
  | notAccepting (state : JobState)
  | notStored
  | notFound
  deriving DecidableEq

namespace ScanJob

variable (job : ScanJob)

def create (deviceID : UUID) (size : ℕ) (now : Time) : ScanJob :=
  ⟨deviceID, size, some [], 0, .uploading, unscannedVerdict, now⟩

/-- How much of a body is copied when reading or writing fails after `cut` bytes, if it does. -/
def copied (body : List UInt8) (cut : Option ℕ) : List UInt8 :=
  let limited := body.take (job.size - job.received + 1)
  (limited.take scanJobPartBytes).take (cut.getD limited.length)

def copyFails (body : List UInt8) (cut : Option ℕ) : Bool :=
  cut.isSome || scanJobPartBytes < (body.take (job.size - job.received + 1)).length

/-- `UploadScanJobPart`, with the job locked. -/
def uploadPart (offset : ℕ) (body : List UInt8) (cut : Option ℕ) (now : Time) :
    ScanJob × PartAnswer :=
  let touched := { job with touched := now }
  match job.state, job.spool with
  | .uploading, some bytes =>
    if offset < job.received then (touched, .received job.received)
    else if job.received < offset then (touched, .outOfOrder job.received)
    else
      let stored := job.copied body cut
      let received := job.received + stored.length
      if job.copyFails body cut = true ∨ job.size < received then
        ({ touched with
            received := received, spool := none, state := .done, verdict := unscannedVerdict },
          .notStored)
      else
        ({ touched with received := received, spool := some (bytes ++ stored) },
          .received received)
  | state, _ => (touched, .notAccepting state)

/-- `CompleteScanJob`: a job that is not uploading any more is left alone. -/
def complete (now : Time) : ScanJob :=
  let job := { job with touched := now }
  if job.state ≠ .uploading ∨ job.received ≠ job.size then job
  else { job with state := .scanning }

/-- The end of `runScanJob`. -/
def scanned (verdict : FileVerdict) (now : Time) : ScanJob :=
  { job with spool := none, verdict := verdict, state := .done, touched := now }

/-- `GetScanJob`. -/
def poll (now : Time) : ScanJob := { job with touched := now }

/-- Nobody has touched the job for long; `sweepScanJobs` drops it. -/
def isStale (now : Time) : Bool := job.state ≠ .scanning ∧ now - job.touched > scanJobIdleTTL

def inFlight (now : Time) : Bool :=
  job.state = .scanning ∨ (job.state = .uploading ∧ now - job.touched < scanJobStallTTL)

end ScanJob

variable {job : ScanJob} {offset : ℕ} {body bytes : List UInt8} {cut : Option ℕ} {now : Time}

namespace ScanJob

def Accepting (job : ScanJob) : Prop := job.state = .uploading ∧ job.spool.isSome = true

instance : Decidable job.Accepting := inferInstanceAs (Decidable (_ ∧ _))

inductive Uploaded (job : ScanJob) (offset : ℕ) (body : List UInt8) (cut : Option ℕ) (now : Time) :
    ScanJob × PartAnswer → Prop
  | refused (closed : ¬job.Accepting) :
      Uploaded job offset body cut now ({ job with touched := now }, .notAccepting job.state)
  | repeated (accepting : job.Accepting) (isRepeat : offset < job.received) :
      Uploaded job offset body cut now ({ job with touched := now }, .received job.received)
  | ahead (accepting : job.Accepting) (isAhead : job.received < offset) :
      Uploaded job offset body cut now ({ job with touched := now }, .outOfOrder job.received)
  | lost (accepting : job.Accepting) (count : ℕ) (grows : job.received ≤ count) :
      Uploaded job offset body cut now ({ job with
        touched := now, received := count, spool := none, state := .done,
        verdict := unscannedVerdict }, .notStored)
  | appended (spooled : List UInt8) (isUploading : job.state = .uploading)
      (isSpool : job.spool = some spooled) (inOrder : offset = job.received)
      (fits : job.received + body.length ≤ job.size) :
      Uploaded job offset body cut now ({ job with
        touched := now, received := job.received + body.length, spool := some (spooled ++ body) },
        .received (job.received + body.length))

theorem copied_eq (works : job.copyFails body cut = false)
    (fits : job.received + (job.copied body cut).length ≤ job.size) : job.copied body cut = body := by
  simp only [copyFails, Bool.or_eq_false_iff, decide_eq_false_iff_not, Option.isSome_eq_false_iff,
    Option.isNone_iff_eq_none] at works
  rcases works with ⟨rfl, small⟩
  have all : job.copied body none = body.take (job.size - job.received + 1) := by
    simp only [copied, Option.getD_none]
    rw [List.take_of_length_le (Nat.le_of_not_lt small), List.take_length]
  rw [all] at fits ⊢
  rw [List.length_take] at fits
  apply List.take_of_length_le
  omega

theorem uploaded_uploadPart :
    job.Uploaded offset body cut now (job.uploadPart offset body cut now) := by
  by_cases accepting : job.Accepting
  · rcases accepting with ⟨isUploading, isSome⟩
    rcases Option.isSome_iff_exists.mp isSome with ⟨spooled, isSpool⟩
    simp only [uploadPart, isUploading, isSpool]
    split_ifs with isRepeat isAhead fails
    · have answered := @Uploaded.repeated job offset body cut now ⟨isUploading, isSome⟩ isRepeat
      simpa only [isUploading, isSpool] using answered
    · have answered := @Uploaded.ahead job offset body cut now ⟨isUploading, isSome⟩ isAhead
      simpa only [isUploading, isSpool] using answered
    · exact @Uploaded.lost job offset body cut now ⟨isUploading, isSome⟩ _ (Nat.le_add_right _ _)
    · rw [not_or, Bool.not_eq_true, Nat.not_lt] at fails
      have whole : job.copied body cut = body := copied_eq fails.1 fails.2
      have inOrder : offset = job.received :=
        Nat.le_antisymm (Nat.le_of_not_lt isAhead) (Nat.le_of_not_lt isRepeat)
      have answered := @Uploaded.appended job offset body cut now spooled isUploading isSpool inOrder
        (whole ▸ fails.2)
      rw [← whole] at answered
      simpa only [whole, isUploading] using answered
  · have answered := @Uploaded.refused job offset body cut now accepting
    have closed : job.uploadPart offset body cut now =
        ({ job with touched := now }, .notAccepting job.state) := by
      simp only [uploadPart]
      split
      · next isUploading isSpool =>
          exact absurd ⟨isUploading, by simp [isSpool]⟩ accepting
      · rfl
    rw [closed]
    exact answered

end ScanJob

end Aavishield.Downloads
