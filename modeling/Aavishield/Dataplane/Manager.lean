import Aavishield.Lib.TransitionSystem
import Mathlib.Algebra.Group.Nat.Defs

/-!
# The cached routing of an organization's data

The manager keeps one entry an organization: the data-residency row it last read,
and the connections opened from it.  `entry` reads the row again once the entry is
`rowTTL` old or was invalidated; `resolve` and `PutFile` then follow the entry's row.

Entries of different organizations never meet, so the model is one organization in
one process.  An entry is a pointer, so entries live in a heap: a request goes on
using the one it holds after another has taken its place in the map.  A step is one
section under the manager's lock, one read outside it or one query.
-/

namespace Aavishield.Dataplane.Manager

def rowTTL : ℕ := 30 * 10 ^ 9

def retryAfter : ℕ := 20 * 10 ^ 9

def residencyStatusNotConfigured : String := "not_configured"

/-- The fields of `models.OrgDataResidency` that routing reads. -/
structure OrgDataResidency where
  enabled : Bool
  dbProvider : String
  dbConfigSealed : String
  dbStatus : String
  filesProvider : String
  filesConfigSealed : String
  filesStatus : String
  deriving DecidableEq

def OrgDataResidency.dbActive (row : OrgDataResidency) : Bool :=
  row.enabled && row.dbProvider != "" && row.dbConfigSealed != "" &&
    row.dbStatus != residencyStatusNotConfigured

def OrgDataResidency.filesActive (row : OrgDataResidency) : Bool :=
  row.enabled && row.filesProvider != "" && row.filesConfigSealed != "" &&
    row.filesStatus != residencyStatusNotConfigured

structure TenantStore where
  id : ℕ
  openedFrom : String
  deriving DecidableEq

structure Bucket where
  openedFrom : String
  deriving DecidableEq

/--
An entry of the manager's map.  A zero `loadedAt` is `none`, and an error stands for
the instant it was recorded at; `version` counts the commits before the row was read.
-/
structure Entry where
  row : Option OrgDataResidency
  version : ℕ
  loadedAt : Option ℕ
  dbSealed : String
  store : Option TenantStore
  dbErr : Option ℕ
  filesSealed : String
  files : Option Bucket
  filesErr : Option ℕ

def Entry.ofRow (row : Option OrgDataResidency) (version : ℕ) (loadedAt : Option ℕ) : Entry where
  row := row
  version := version
  loadedAt := loadedAt
  dbSealed := ""
  store := none
  dbErr := none
  filesSealed := ""
  files := none
  filesErr := none

inductive Purpose where
  | resolve
  | putFile
  deriving DecidableEq

inductive Phase where
  | lookedUp (entry : Option ℕ)
  | loading (entry : Option ℕ)
  | loaded (row : Option OrgDataResidency) (version : ℕ)
  | holding (entry : ℕ)
  | opening (entry : ℕ) (sealed : String)

/-- A running call; `floor` is the last version that had been invalidated when it began. -/
structure Call where
  purpose : Purpose
  floor : ℕ
  phase : Phase

inductive Destination where
  | primary
  | store (store : TenantStore)
  | bucket (bucket : Bucket)
  | unavailable

/--
A call that returned: the version of the row it followed, and where that sent the
data.  Without a row to follow it returns the failure of the query.
-/
structure Answer where
  purpose : Purpose
  floor : ℕ
  result : Option (ℕ × Destination)

/--
The manager, the organization's row, and the record of its commits: `committed`
gives the row of every version, `invalidated` the version of the last `Invalidate`.
-/
structure State where
  now : ℕ
  version : ℕ
  committed : ℕ → Option OrgDataResidency
  invalidated : ℕ
  heap : ℕ → Entry
  allocated : ℕ
  current : Option ℕ
  calls : ℕ → Option Call
  opened : List TenantStore
  scheduled : List TenantStore
  answers : List Answer

/-- A step of a call, or a change of the settings. -/
inductive Action where
  | commit (row : Option OrgDataResidency)
  | invalidate
  | start (call : ℕ) (purpose : Purpose)
  | checkAge (call : ℕ)
  | readRow (call : ℕ) (succeeds : Bool)
  | publish (call : ℕ)
  | settle (call : ℕ) (opens : Bool)
  | install (call : ℕ) (opens : Bool)
  | guardCheck (store : TenantStore)
  | forgetErrors (purpose : Purpose)
  | tick (elapsed : ℕ)

def State.initial : State where
  now := 0
  version := 0
  committed := fun _ => none
  invalidated := 0
  heap := fun _ => Entry.ofRow none 0 none
  allocated := 0
  current := none
  calls := fun _ => none
  opened := []
  scheduled := []
  answers := []

def State.recent (state : State) (failure : Option ℕ) : Bool :=
  match failure with
  | some failedAt => decide (state.now - failedAt < retryAfter)
  | none => false

def State.trusts (state : State) (entry : Entry) : Bool :=
  match entry.loadedAt with
  | some loadedAt => decide (state.now - loadedAt < rowTTL)
  | none => false

def State.setEntry (state : State) (index : ℕ) (entry : Entry) : State :=
  { state with heap := Function.update state.heap index entry }

def State.modifyCurrent (state : State) (change : Entry → Entry) : State :=
  match state.current with
  | some current => state.setEntry current (change (state.heap current))
  | none => state

def State.commit (state : State) (row : Option OrgDataResidency) : State :=
  { state with
    version := state.version + 1
    committed := Function.update state.committed (state.version + 1) row }

def State.invalidate (state : State) : State :=
  { state.modifyCurrent fun entry =>
      { entry with loadedAt := none, dbErr := none, filesErr := none } with
    invalidated := state.version }

/-- `closeEntry`: the store of a replaced entry is closed once `closeGrace` has passed. -/
def State.closeEntry (state : State) (entry : Entry) : State :=
  { state with scheduled := entry.store.toList ++ state.scheduled }

def State.setCall (state : State) (id : ℕ) (call : Option Call) : State :=
  { state with calls := Function.update state.calls id call }

def State.proceed (state : State) (id : ℕ) (call : Call) (phase : Phase) : State :=
  state.setCall id (some { call with phase := phase })

def State.answer (state : State) (id : ℕ) (call : Call) (result : Option (ℕ × Destination)) :
    State :=
  { state.setCall id none with answers := ⟨call.purpose, call.floor, result⟩ :: state.answers }

/-- The first lock section of `entry`. -/
def State.start (state : State) (id : ℕ) (purpose : Purpose) : State :=
  state.setCall id (some ⟨purpose, state.invalidated, .lookedUp state.current⟩)

def State.checkAge (state : State) (id : ℕ) (call : Call) : Option ℕ → State
  | some entry =>
    if state.trusts (state.heap entry) then state.proceed id call (.holding entry)
    else state.proceed id call (.loading (some entry))
  | none => state.proceed id call (.loading none)

/-- The query for the row; when it fails, the last known configuration goes on being served. -/
def State.readRow (state : State) (id : ℕ) (call : Call) (entry : Option ℕ) (succeeds : Bool) :
    State :=
  if succeeds then
    state.proceed id call (.loaded (state.committed state.version) state.version)
  else
    match entry with
    | some entry => state.proceed id call (.holding entry)
    | none => state.answer id call none

def Entry.keepsStore (entry : Entry) (row : Option OrgDataResidency) : Bool :=
  match row with
  | some row => row.dbActive && entry.dbSealed == row.dbConfigSealed
  | none => false

def Entry.keepsFiles (entry : Entry) (row : Option OrgDataResidency) : Bool :=
  match row with
  | some row => row.filesActive && entry.filesSealed == row.filesConfigSealed
  | none => false

def Entry.inheritStore (next cur : Entry) : Entry :=
  if cur.keepsStore next.row then
    { next with dbSealed := cur.dbSealed, store := cur.store, dbErr := cur.dbErr }
  else next

def Entry.inheritFiles (next cur : Entry) : Entry :=
  if cur.keepsFiles next.row then
    { next with filesSealed := cur.filesSealed, files := cur.files, filesErr := cur.filesErr }
  else next

def Entry.inherit (next cur : Entry) : Entry :=
  (next.inheritStore cur).inheritFiles cur

def Entry.release (cur : Entry) (row : Option OrgDataResidency) : Entry :=
  if cur.keepsStore row then { cur with store := none } else cur

def State.replaceEntry (state : State) (next : Entry) : State :=
  match state.current with
  | some cur =>
    let released := (state.heap cur).release next.row
    { state.closeEntry released with
      heap := Function.update (Function.update state.heap cur released) state.allocated
        (next.inherit (state.heap cur))
      allocated := state.allocated + 1
      current := some state.allocated }
  | none =>
    { state with
      heap := Function.update state.heap state.allocated next
      allocated := state.allocated + 1
      current := some state.allocated }

/-- The last lock section of `entry`. -/
def State.publish (state : State) (id : ℕ) (call : Call) (row : Option OrgDataResidency)
    (version : ℕ) : State :=
  (state.replaceEntry (Entry.ofRow row version (some state.now))).proceed id call
    (.holding state.allocated)

/-- `resolve` with an entry in hand, up to the point where it has to open a connection. -/
def State.resolve (state : State) (id : ℕ) (call : Call) (entry : ℕ) : State :=
  let held := state.heap entry
  match held.row with
  | none => state.answer id call (some (held.version, .primary))
  | some row =>
    if row.dbActive then
      if state.recent held.dbErr then
        state.answer id call (some (held.version, .unavailable))
      else
        match held.store with
        | some store =>
          if held.dbSealed = row.dbConfigSealed then
            state.answer id call (some (held.version, .store store))
          else state.proceed id call (.opening entry row.dbConfigSealed)
        | none => state.proceed id call (.opening entry row.dbConfigSealed)
    else state.answer id call (some (held.version, .primary))

def State.openFiles (state : State) (id : ℕ) (call : Call) (entry : ℕ) (row : OrgDataResidency)
    (opens : Bool) : State :=
  let held := state.heap entry
  if opens then
    let bucket : Bucket := ⟨row.filesConfigSealed⟩
    let kept :=
      { held with files := some bucket, filesSealed := row.filesConfigSealed, filesErr := none }
    (state.setEntry entry kept).answer id call (some (held.version, .bucket bucket))
  else
    (state.setEntry entry { held with filesErr := some state.now }).answer id call
      (some (held.version, .unavailable))

/-- `tenantFiles` with an entry in hand; its one lock section also opens the bucket. -/
def State.putFile (state : State) (id : ℕ) (call : Call) (entry : ℕ) (opens : Bool) : State :=
  let held := state.heap entry
  match held.row with
  | none => state.answer id call (some (held.version, .primary))
  | some row =>
    if row.filesActive then
      match held.files with
      | some bucket =>
        if held.filesSealed = row.filesConfigSealed then
          state.answer id call (some (held.version, .bucket bucket))
        else if state.recent held.filesErr then
          state.answer id call (some (held.version, .unavailable))
        else state.openFiles id call entry row opens
      | none =>
        if state.recent held.filesErr then
          state.answer id call (some (held.version, .unavailable))
        else state.openFiles id call entry row opens
    else state.answer id call (some (held.version, .primary))

def State.target (state : State) (entry : ℕ) (sealed : String) : ℕ :=
  match state.current with
  | some current =>
    match (state.heap current).row with
    | some row => if row.dbConfigSealed = sealed then current else entry
    | none => entry
  | none => entry

/--
The last lock section of `resolve`.  Opening a connection reads nothing of the
manager, so the connection is counted as opened here, where `resolve` hands it over.
-/
def State.install (state : State) (id : ℕ) (call : Call) (entry : ℕ) (sealed : String)
    (opens : Bool) : State :=
  let version := (state.heap entry).version
  if opens then
    let store : TenantStore := ⟨state.opened.length, sealed⟩
    let target := state.target entry sealed
    let held := state.heap target
    let connected := { state with opened := store :: state.opened }
    match held.store with
    | some winner =>
      (connected.closeEntry { Entry.ofRow none 0 none with store := some store }).answer id call
        (some (version, .store winner))
    | none =>
      let kept := { held with store := some store, dbSealed := sealed, dbErr := none }
      (connected.setEntry target kept).answer id call (some (version, .store store))
  else
    (state.setEntry entry { state.heap entry with dbErr := some state.now }).answer id call
      (some (version, .unavailable))

def State.guardCheck (state : State) (store : TenantStore) : State :=
  state.modifyCurrent fun entry =>
    if entry.store = some store then { entry with dbErr := some state.now } else entry

def State.forgetErrors (state : State) : Purpose → State
  | .resolve => state.modifyCurrent fun entry => { entry with dbErr := none }
  | .putFile => state.modifyCurrent fun entry => { entry with filesErr := none }

/-- The steps of calls for one organization interleave. -/
def step (state : State) : Action → Option State
  | .commit row => some (state.commit row)
  | .invalidate => some state.invalidate
  | .start id purpose =>
    match state.calls id with
    | none => some (state.start id purpose)
    | some _ => none
  | .checkAge id =>
    match state.calls id with
    | some call =>
      match call.phase with
      | .lookedUp entry => some (state.checkAge id call entry)
      | _ => none
    | none => none
  | .readRow id succeeds =>
    match state.calls id with
    | some call =>
      match call.phase with
      | .loading entry => some (state.readRow id call entry succeeds)
      | _ => none
    | none => none
  | .publish id =>
    match state.calls id with
    | some call =>
      match call.phase with
      | .loaded row version => some (state.publish id call row version)
      | _ => none
    | none => none
  | .settle id opens =>
    match state.calls id with
    | some call =>
      match call.phase, call.purpose with
      | .holding entry, .resolve => some (state.resolve id call entry)
      | .holding entry, .putFile => some (state.putFile id call entry opens)
      | _, _ => none
    | none => none
  | .install id opens =>
    match state.calls id with
    | some call =>
      match call.phase with
      | .opening entry sealed => some (state.install id call entry sealed opens)
      | _ => none
    | none => none
  | .guardCheck store => some (state.guardCheck store)
  | .forgetErrors purpose => some (state.forgetErrors purpose)
  | .tick elapsed => some { state with now := state.now + elapsed }

end Aavishield.Dataplane.Manager
