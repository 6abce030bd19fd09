import Aavishield.Downloads.Verdicts
import Aavishield.Lib.TransitionSystem

/-!
# Files judged malicious

The row of a malicious file has no age limit, but it is not safe from the next scan of the same
bytes, which may come to another verdict and is stored over it.  A malicious verdict that the
row does not take is forgotten at once.  As long as neither happens every question about the
file is answered with a block, to all whom their company has not approved it for.
-/

namespace Aavishield.Downloads

open Dataplane DomainRules TransitionSystem

structure Caller (orgOf : UUID → UUID) where
  orgID : UUID
  employeeID : Option UUID
  belongs : ∀ id, employeeID = some id → orgOf id = orgID

def Caller.unassigned (orgOf : UUID → UUID) (orgID : UUID) : Caller orgOf :=
  ⟨orgID, none, fun _ absent => by cases absent⟩

/-- The tables, and the files that were judged to be blocked. -/
structure State extends Database where
  judged : List SHA256

inductive Action (orgOf : UUID → UUID) where
  /-- `ScanFile` and `runScanJob`. -/
  | scan (file : SHA256) (service : Option (ServiceAnswer file)) (clamav : Option ScanResult)
      (now : Time) (saved : Bool)
  | lookup (caller : Caller orgOf) (query : HashQuery) (reads : Reads) (now : Time)
  | request (employeeID : UUID) (target : AccessTarget) (id : UUID)
  | withdraw (employeeID id : UUID)
  | resolve (orgID id : UUID) (resolution : Resolution)

variable (env : Primitives) {orgOf : UUID → UUID}

def State.initial : State := ⟨.empty, []⟩

def State.step (state : State) : Action orgOf → Option State
  | .scan file service clamav now saved =>
    let v := scanFileStream service clamav
    some {
      toDatabase := state.rememberFileVerdict env v now saved
      judged := if v.action = .block then file :: state.judged else state.judged }
  | .lookup _ _ _ _ => some state
  | .request employeeID target id =>
    some { state with
      toDatabase := state.createRequest (orgOf employeeID) employeeID target id }
  | .withdraw employeeID id =>
    some { state with toDatabase := state.withdrawRequest employeeID id }
  | .resolve orgID id resolution =>
    some { state with toDatabase := state.resolveRequest orgID id resolution }

def Database.Approved (db : Database) (caller : Caller orgOf) (file : SHA256) : Prop :=
  ∃ request ∈ db.requests.rows, caller.employeeID = some request.employeeID ∧
    request.orgID = caller.orgID ∧ request.status = .approved ∧ request.kind = .download ∧
    toLower env request.resource = file.text

def State.Answers (state : State) (caller : Caller orgOf) (query : HashQuery) (reads : Reads)
    (now : Time) : Prop :=
  ∀ file ∈ state.judged, toLower env query.sha256 = file.text →
    (∃ reason, state.scanHash env caller.employeeID query reads now =
      .known .block reason) ∨ state.Approved env caller file

def State.StaysMalicious (orgOf : UUID → UUID) (state : State) : Prop :=
  ∀ (caller : Caller orgOf) (query : HashQuery) (now : Time),
    state.Answers env caller query ⟨true, true⟩ now

def State.Answered (state : State) : Action orgOf → Prop
  | .lookup caller query reads now => state.Answers env caller query reads now
  | _ => True

/-- What one organisation decides changes no answer that another one gets. -/
def State.Separate (state : State) : Action orgOf → Prop
  | .resolve orgID id resolution =>
    ∀ (caller : Caller orgOf), caller.orgID ≠ orgID → ∀ query reads now,
      (state.resolveRequest orgID id resolution).scanHash env caller.employeeID query
        reads now = state.scanHash env caller.employeeID query reads now
  | _ => True

/-- A malicious verdict finds its row, and no other verdict is written over it. -/
def State.Remembering (state : State) : Action orgOf → Prop
  | .scan file service clamav _ saved =>
    let v := scanFileStream service clamav
    (v.action = .block → Database.Kept v saved ∨ state.Blocks file) ∧
      (v.action ≠ .block → file ∈ state.judged → ¬Database.Kept v saved)
  | _ => True

/-- A lookup reads the verdicts, names a detection itself or is for files let through. -/
def State.Reading (state : State) : Action orgOf → Prop
  | .lookup caller query reads _ =>
    reads.verdicts = true ∨ query.detected ≠ [] ∨
      ∀ file ∈ state.judged, toLower env query.sha256 = file.text →
        state.Approved env caller file
  | _ => True

def Database.Consistent (orgOf : UUID → UUID) (db : Database) : Prop :=
  ∀ request ∈ db.requests.rows, request.orgID = orgOf request.employeeID

structure State.Sound (orgOf : UUID → UUID) (state : State) : Prop where
  blocks : ∀ file ∈ state.judged, state.Blocks file
  consistent : state.Consistent orgOf

variable {env} {db : Database} {state next : State} {action : Action orgOf}
  {caller : Caller orgOf} {file : SHA256} {query : HashQuery} {reads : Reads} {now : Time}

theorem sha256_of_kept {service : Option (ServiceAnswer file)} {clamav : Option ScanResult}
    {saved : Bool} (kept : Database.Kept (scanFileStream service clamav) saved) :
    (scanFileStream service clamav).sha256 = file.text := by
  rcases kept with ⟨scanned, named, -⟩
  cases service with
  | some answer => exact answer.named scanned
  | none =>
    cases clamav with
    | none => exact absurd rfl named
    | some r =>
      refine absurd ?_ named
      unfold scanFileStream
      split <;> grind

namespace AccessRequest

@[simp]
theorem orgID_resolve (orgID id : UUID) (resolution : Resolution)
    (request : AccessRequest) : (request.resolve orgID id resolution).orgID = request.orgID := by
  unfold resolve
  split
  · rfl
  · rfl

@[simp]
theorem employeeID_resolve (orgID id : UUID) (resolution : Resolution) (request : AccessRequest) :
    (request.resolve orgID id resolution).employeeID = request.employeeID := by
  unfold resolve
  split
  · rfl
  · rfl

end AccessRequest

namespace Database

theorem requests_rememberFileVerdict {v : FileVerdict} {saved : Bool} :
    (db.rememberFileVerdict env v now saved).requests = db.requests := by
  unfold rememberFileVerdict
  split
  · rfl
  · rfl

theorem verdicts_createRequest {orgID employeeID id : UUID} {target : AccessTarget} :
    (db.createRequest orgID employeeID target id).verdicts = db.verdicts := by
  unfold createRequest
  dsimp only
  split
  · rfl
  · split
    · rfl
    · rfl

section

variable (consistent : db.Consistent orgOf)

include consistent

theorem Consistent.createRequest (employeeID : UUID) (target : AccessTarget) (id : UUID) :
    (db.createRequest (orgOf employeeID) employeeID target id).Consistent orgOf := by
  unfold Database.createRequest
  dsimp only
  split
  · exact consistent
  · split
    · exact consistent
    · intro request mem
      rcases Table.mem_insert mem with ⟨rfl, -⟩ | mem
      · rfl
      · exact consistent request mem

theorem Consistent.withdrawRequest (employeeID id : UUID) :
    (db.withdrawRequest employeeID id).Consistent orgOf := by
  intro request mem
  exact consistent request (List.mem_of_mem_filter mem)

theorem Consistent.resolveRequest (orgID id : UUID)
    (resolution : Resolution) : (db.resolveRequest orgID id resolution).Consistent orgOf := by
  intro request mem
  rcases List.mem_map.mp mem with ⟨earlier, earlierMem, rfl⟩
  rw [AccessRequest.orgID_resolve, AccessRequest.employeeID_resolve]
  exact consistent earlier earlierMem

theorem Consistent.approved (mem : file.text ∈ db.approvedDownloads env caller.employeeID) :
    db.Approved env caller file := by
  rcases mem_approvedDownloads.mp mem with ⟨request, mem, isEmployee, approval⟩
  refine ⟨request, mem, isEmployee, ?_, approval⟩
  rw [consistent request mem]
  exact caller.belongs request.employeeID isEmployee

theorem Consistent.mem_approvedDownloads_resolveRequest
    {orgID id : UUID} {resolution : Resolution} (elsewhere : caller.orgID ≠ orgID)
    {sha : List Char} :
    sha ∈ (db.resolveRequest orgID id resolution).approvedDownloads env caller.employeeID ↔
      sha ∈ db.approvedDownloads env caller.employeeID := by
  have untouched : ∀ request ∈ db.requests.rows, caller.employeeID = some request.employeeID →
      request.resolve orgID id resolution = request := by
    intro request mem mine
    unfold AccessRequest.resolve
    rw [if_neg]
    rintro ⟨-, isOrg, -⟩
    apply elsewhere
    rw [← isOrg, consistent request mem]
    exact (caller.belongs request.employeeID mine).symm
  rw [mem_approvedDownloads, mem_approvedDownloads]
  constructor
  · rintro ⟨resolved, resolvedMem, mine, approval⟩
    rcases List.mem_map.mp resolvedMem with ⟨request, mem, rfl⟩
    rw [AccessRequest.employeeID_resolve] at mine
    rw [untouched request mem mine] at approval
    exact ⟨request, mem, mine, approval⟩
  · rintro ⟨request, mem, mine, approval⟩
    have resolvedMem := List.mem_map_of_mem (f := AccessRequest.resolve orgID id resolution) mem
    rw [untouched request mem mine] at resolvedMem
    exact ⟨request, resolvedMem, mine, approval⟩

end

theorem scanHash_congr {other : Database} {employeeID : Option UUID}
    (verdicts : other.verdicts = db.verdicts)
    (approved : ∀ sha, sha ∈ other.approvedDownloads env employeeID ↔
      sha ∈ db.approvedDownloads env employeeID) :
    other.scanHash env employeeID query reads now =
      db.scanHash env employeeID query reads now := by
  simp only [scanHash, settledAnswer, settleFileVerdict, cachedFileVerdict, verdicts, approved]

end Database

theorem State.StaysMalicious.blocks (stays : state.StaysMalicious env orgOf)
    (file : SHA256) (isJudged : file ∈ state.judged) : state.Blocks file := by
  let asker := Caller.unassigned orgOf ⟨0⟩
  let query : HashQuery := ⟨file.text, [], []⟩
  have asked : toLower env query.sha256 = file.text := file.toLower_text
  rcases stays asker query 0 file isJudged asked with ⟨reason, answered⟩ | approved
  · rw [Database.scanHash_of_file asked] at answered
    simp only [if_true] at answered
    split at answered
    · next v found =>
        exact Database.blocks_of_cachedFileVerdict found
          (Database.action_eq_block_of_settledAnswer answered)
    · simp [query] at answered
  · rcases approved with ⟨request, -, isEmployee, -⟩
    cases isEmployee

theorem State.Answers.reading (answers : state.Answers env caller query reads now) :
    reads.verdicts = true ∨ query.detected ≠ [] ∨
      ∀ file ∈ state.judged, toLower env query.sha256 = file.text →
        state.Approved env caller file := by
  by_cases isRead : reads.verdicts = true
  · left
    exact isRead
  · right
    by_cases detected : query.detected ≠ []
    · left
      exact detected
    · right
      intro file isJudged asked
      rcases answers file isJudged asked with ⟨reason, answered⟩ | approved
      · rw [Database.scanHash_of_file asked] at answered
        simp only [isRead, if_false, Bool.false_eq_true, if_neg detected] at answered
        split at answered
        · cases answered
        · cases answered
      · exact approved

theorem State.reading_of_answered (answered : state.Answered env action) :
    state.Reading env action := by
  cases action with
  | lookup caller query reads now => exact answered.reading
  | scan file service clamav now saved | request employeeID target id | withdraw employeeID id
  | resolve orgID id resolution => trivial

namespace State.Sound

variable (sound : state.Sound orgOf)
include sound

theorem answers (reading : reads.verdicts = true ∨ query.detected ≠ [] ∨
      ∀ file ∈ state.judged, toLower env query.sha256 = file.text →
        state.Approved env caller file) :
    state.Answers env caller query reads now := by
  intro file isJudged asked
  rw [Database.scanHash_of_file asked]
  rcases (sound.blocks file isJudged).cachedFileVerdict now with ⟨v, found, isBlock, named⟩
  by_cases isRead : reads.verdicts = true
  · simp only [isRead, if_true, found]
    rcases Database.settledAnswer_of_block isBlock named with answered | mem
    · left
      exact answered
    · right
      exact sound.consistent.approved mem
  · rcases reading with isRead' | detected | approved
    · exact absurd isRead' isRead
    · simp only [isRead, if_false, Bool.false_eq_true, if_pos detected]
      rcases Database.settledAnswer_of_block (v := detectedVerdict file.text query.detected) rfl rfl
        with answered | mem
      · left
        exact answered
      · right
        exact sound.consistent.approved mem
    · right
      exact approved file isJudged asked

theorem answered (reading : state.Reading env action) :
    state.Answered env action := by
  cases action with
  | lookup caller query reads now => exact sound.answers reading
  | scan file service clamav now saved => trivial
  | request employeeID target id => trivial
  | withdraw employeeID id => trivial
  | resolve orgID id resolution => trivial

theorem separate : state.Separate env action := by
  cases action with
  | scan file service clamav now saved => trivial
  | lookup caller query reads now => trivial
  | request employeeID target id => trivial
  | withdraw employeeID id => trivial
  | resolve orgID id resolution =>
    intro caller elsewhere query reads now
    apply Database.scanHash_congr
    · rfl
    · intro sha
      exact sound.consistent.mem_approvedDownloads_resolveRequest elsewhere

theorem scan {service : Option (ServiceAnswer file)} {clamav : Option ScanResult} {saved : Bool}
    (remembering : state.Remembering (.scan file service clamav now saved : Action orgOf))
    (stepped : state.step env (.scan file service clamav now saved : Action orgOf) =
      some next) : next.Sound orgOf := by
  cases stepped
  rcases remembering with ⟨finds, spares⟩
  constructor
  · intro other isJudged
    by_cases kept : Database.Kept (scanFileStream service clamav) saved
    · apply (Database.blocks_rememberFileVerdict kept (sha256_of_kept kept)).mpr
      split at isJudged
      · next blocks =>
          split
          · exact blocks
          · next differs =>
              exact sound.blocks other ((List.mem_cons.mp isJudged).resolve_left differs)
      · next harmless =>
          split
          · next same => exact absurd kept (spares harmless (same ▸ isJudged))
          · exact sound.blocks other isJudged
    · dsimp only
      rw [Database.rememberFileVerdict_of_not_kept kept]
      split at isJudged
      · next blocks =>
          rcases List.mem_cons.mp isJudged with rfl | earlier
          · exact (finds blocks).resolve_left kept
          · exact sound.blocks other earlier
      · exact sound.blocks other isJudged
  · intro request mem
    rw [Database.requests_rememberFileVerdict] at mem
    exact sound.consistent request mem

theorem step (remembering : state.Remembering action)
    (stepped : state.step env action = some next) : next.Sound orgOf := by
  cases action with
  | scan file service clamav now saved => exact sound.scan remembering stepped
  | lookup caller query reads now =>
    cases stepped
    exact sound
  | request employeeID target id =>
    cases stepped
    constructor
    · simpa only [Database.Blocks, Database.verdicts_createRequest] using sound.blocks
    · exact sound.consistent.createRequest employeeID target id
  | withdraw employeeID id =>
    cases stepped
    exact ⟨sound.blocks, sound.consistent.withdrawRequest employeeID id⟩
  | resolve orgID id resolution =>
    cases stepped
    exact ⟨sound.blocks, sound.consistent.resolveRequest orgID id resolution⟩

omit sound in
/-- A scan that is not careful leaves a malicious file without a blocking row. -/
theorem remembering_of_staysMalicious (stepped : state.step env action = some next)
    (stays : next.StaysMalicious env orgOf) : state.Remembering action := by
  cases action with
  | scan file service clamav now saved =>
    cases stepped
    constructor
    · intro blocks
      by_cases kept : Database.Kept (scanFileStream service clamav) saved
      · left
        exact kept
      · right
        have stored := stays.blocks file (by simp [blocks])
        dsimp only at stored
        rwa [Database.rememberFileVerdict_of_not_kept kept] at stored
    · intro harmless isJudged kept
      have stored := stays.blocks file (by simpa [harmless] using isJudged)
      rw [Database.blocks_rememberFileVerdict kept (sha256_of_kept kept), if_pos rfl] at stored
      exact harmless stored
  | lookup caller query reads now => trivial
  | request employeeID target id => trivial
  | withdraw employeeID id => trivial
  | resolve orgID id resolution => trivial

theorem staysMalicious : state.StaysMalicious env orgOf := by
  intro caller query now
  apply sound.answers
  left
  rfl

end State.Sound

theorem sound_initial : State.initial.Sound orgOf where
  blocks _ isJudged := by cases isJudged
  consistent _ mem := by cases mem

theorem exists_exec (trace : List (Action orgOf)) :
    ∃ final, exec (State.step env) state trace = some final := by
  apply exec_of_total
  intro state action
  cases action with
  | scan file service clamav now saved | lookup caller query reads now
  | request employeeID target id | withdraw employeeID id | resolve orgID id resolution => exact ⟨_, rfl⟩

/--
A malicious file does not become safe in a run: whoever asks at any moment is answered with a
block, as is whoever did ask, unless the caller's organisation has approved the file for the
caller; and no organisation's decision changes an answer to another one.
-/
def NeverSafeByItself (env : Primitives) (trace : List (Action orgOf)) : Prop :=
  (∀ reached, Visits (State.step env) .initial trace reached →
      reached.StaysMalicious env orgOf) ∧
    AllSteps (State.step env) (State.Answered env) .initial trace ∧
    AllSteps (State.step env) (State.Separate env) .initial trace

/--
A malicious file stays malicious in exactly the runs in which every malicious verdict finds its
row, no other verdict is stored over one, and the lookups of such a file read its row.
-/
theorem neverSafeByItself_iff (env : Primitives) (trace : List (Action orgOf)) :
    NeverSafeByItself env trace ↔
      AllSteps (State.step env)
        (fun state action => state.Remembering action ∧ state.Reading env action)
        .initial trace := by
  have total : ∃ final, exec (State.step env) State.initial trace = some final :=
    exists_exec trace
  rcases total with ⟨final, executed⟩
  have remembers : (∀ reached, Visits (State.step env) .initial trace reached →
      reached.StaysMalicious env orgOf) ↔
        AllSteps (State.step env) State.Remembering .initial trace :=
    forall_visits_iff_allSteps (fun _ sound => State.Sound.staysMalicious sound)
      (fun _ _ _ sound remembering stepped => State.Sound.step sound remembering stepped)
      (fun _ _ _ _ stepped stays => State.Sound.remembering_of_staysMalicious stepped stays)
      sound_initial executed
  rw [allSteps_and]
  constructor
  · rintro ⟨visited, answered, -⟩
    exact ⟨remembers.mp visited, answered.mono fun _ _ => State.reading_of_answered⟩
  · rintro ⟨remembering, reading⟩
    have preserved : ∀ (state : State) (action : Action orgOf) (next : State),
        state.Sound orgOf → (state.Remembering action ∧ state.Reading env action) →
          state.step env action = some next → next.Sound orgOf :=
      fun _ _ _ sound careful stepped => sound.step careful.1 stepped
    have careful := allSteps_and.mpr ⟨remembering, reading⟩
    refine ⟨remembers.mpr remembering, ?_, ?_⟩
    · exact allSteps_of_invariant preserved (fun _ _ sound careful => sound.answered careful.2)
        sound_initial careful
    · exact allSteps_of_invariant preserved (fun _ _ sound _ => sound.separate)
        sound_initial careful

/-- A file that one scan judges malicious and another one clean, for instance by its new name. -/
def renamedFile : SHA256 := ⟨List.replicate 64 'a', by decide⟩

def scored (score : ℤ) (action : FileAction) (verdict : VerdictLabel) : ServiceAnswer renamedFile where
  verdict := ⟨true, action = .block, score, action, action, verdict, [], renamedFile.text, [], false⟩
  named _ := rfl

theorem rescanned_allowed :
    ((Database.empty.rememberFileVerdict .ascii (scored 90 .block .malware).verdict 0 true
      ).rememberFileVerdict .ascii (scored 0 .allow .clean).verdict 1 true).scanHash .ascii none
        ⟨renamedFile.text, [], []⟩ ⟨true, true⟩ 2 = .known .allow [] := by
  decide +kernel

/-- The same bytes under another name are judged clean. -/
theorem not_alwaysNeverSafeByItself :
    ¬∀ (env : Primitives) (orgOf : UUID → UUID) (trace : List (Action orgOf)),
      NeverSafeByItself env trace := by
  intro always
  let orgOf : UUID → UUID := fun _ => ⟨1⟩
  let asker := Caller.unassigned orgOf ⟨1⟩
  let query : HashQuery := ⟨renamedFile.text, [], []⟩
  have answered := (always .ascii orgOf
    [.scan renamedFile (some (scored 90 .block .malware)) none 0 true,
      .scan renamedFile (some (scored 0 .allow .clean)) none 1 true,
      .lookup asker query ⟨true, true⟩ 2]).2.1
  have lookedUp := ((answered.2 _ rfl).2 _ rfl).1 renamedFile (by decide) (by decide)
  rcases lookedUp with ⟨reason, blocked⟩ | ⟨request, mem, -⟩
  · cases rescanned_allowed.symm.trans blocked
  · cases mem

end Aavishield.Downloads
