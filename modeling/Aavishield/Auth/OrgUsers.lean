import Aavishield.Dataplane.Tables
import Aavishield.Lib.Text
import Aavishield.Lib.TransitionSystem

/-!
# Users of the dashboard

The endpoints that change and remove the people who can sign in to an organisation's
dashboard, by requests that overlap.  Every statement to the database is a step of its own, and
what a request writes goes by the row that it read first.
-/

namespace Aavishield.OrgUsers

open Dataplane (HasID Table)
open Text

inductive UserRole where
  | superAdmin
  | orgAdmin
  | manager
  | analyst
  | readOnly
  deriving DecidableEq

inductive UserStatus where
  | active
  | inactive
  | suspended
  | pending
  deriving DecidableEq

structure User where
  id : UUID
  orgID : Option UUID
  passwordHash : String
  firstName : String
  lastName : String
  jobTitle : String
  role : UserRole
  status : UserStatus
  deriving DecidableEq

instance : HasID User := ⟨User.id⟩

structure Team where
  id : UUID
  orgID : UUID

structure UserTeam where
  userID : UUID
  teamID : UUID
  orgID : UUID

structure RefreshToken where
  userID : UUID
  revoked : Bool

/-- The rows without `deleted_at`. -/
structure Database where
  users : Table User
  teams : List Team
  userTeams : List UserTeam
  refreshTokens : List RefreshToken

/-- The claims of an access token, which nobody takes back before it expires. -/
structure Actor where
  userID : UUID
  orgID : Option UUID
  role : UserRole

/-- `RoleHasPermission(role, "users:write")`. -/
def UserRole.mayWriteUsers : UserRole → Bool
  | .superAdmin | .orgAdmin => true
  | .manager | .analyst | .readOnly => false

def Actor.admitted (actor : Actor) : Bool := actor.orgID.isSome && actor.role.mayWriteUsers

structure OrgUserRequest where
  firstName : String
  lastName : String
  role : String
  jobTitle : String
  password : String
  status : String
  teamIDs : Option (List UUID)

structure Answer where
  status : ℕ
  /-- The `error` of the answer. -/
  error : Option String
  user : Option User

def Answer.rejected (status : ℕ) (error : String) : Answer := ⟨status, some error, none⟩

/-- `AssignableRoles`, by their names. -/
def assignableRole (text : List Char) : Option UserRole :=
  [("org_admin", UserRole.orgAdmin), ("manager", .manager), ("analyst", .analyst),
    ("read_only", .readOnly)].find? (fun named => named.1.toList == text) |>.map Prod.snd

def assignableStatus (text : List Char) : Option UserStatus :=
  [("active", UserStatus.active), ("inactive", .inactive), ("suspended", .suspended)].find?
    (fun named => named.1.toList == text) |>.map Prod.snd

structure Updates where
  firstName : Option String
  lastName : Option String
  jobTitle : Option String
  role : Option UserRole
  status : Option UserStatus
  passwordHash : Option String

def Updates.apply (updates : Updates) (user : User) : User :=
  { user with
    firstName := updates.firstName.getD user.firstName
    lastName := updates.lastName.getD user.lastName
    jobTitle := updates.jobTitle.getD user.jobTitle
    role := updates.role.getD user.role
    status := updates.status.getD user.status
    passwordHash := updates.passwordHash.getD user.passwordHash }

def trimmed (text : String) : String := String.ofList (trimSpace text.toList)

def given (text : String) : Option String := if text = "" then none else some (trimmed text)

section Checks

variable (actor : Actor) (user : User) (request : OrgUserRequest)

def requestedRole : Except Answer (Option UserRole) :=
  if request.role = "" then .ok none
  else
    match assignableRole (trimSpace request.role.toList) with
    | none => .error (.rejected 400 "Choose one of: org_admin, manager, analyst, read_only")
    | some role =>
      if actor.userID = user.id ∧ role ≠ .orgAdmin then
        .error (.rejected 400 "You cannot change your own role — ask another admin")
      else .ok (some role)

def requestedStatus : Except Answer (Option UserStatus) :=
  if request.status = "" then .ok none
  else
    match assignableStatus (trimSpace request.status.toList) with
    | none => .error (.rejected 400 "Status must be active, inactive or suspended")
    | some status =>
      if actor.userID = user.id ∧ status ≠ .active then
        .error (.rejected 400 "You cannot deactivate your own account")
      else .ok (some status)

/-- The hash of the password that is set; bcrypt is given as `generate`. -/
def requestedPassword (generate : String → Option String) : Except Answer (Option String) :=
  if trimmed request.password = "" then .ok none
  else if request.password.utf8ByteSize < 8 then
    .error (.rejected 400 "Password must be at least 8 characters")
  else
    match generate request.password with
    | none => .error (.rejected 500 "Failed to secure the password")
    | some hash => .ok (some hash)

def requestedUpdates (generate : String → Option String) (role : Option UserRole) :
    Except Answer Updates := do
  let status ← requestedStatus actor user request
  let passwordHash ← requestedPassword request generate
  return {
    firstName := given request.firstName
    lastName := given request.lastName
    jobTitle := given request.jobTitle
    role, status, passwordHash }

end Checks

/-- What `Update` does next. -/
inductive UpdatePhase where
  | finding
  | counting (user : User) (request : OrgUserRequest) (role : UserRole)
  | writing (user : User) (request : OrgUserRequest) (updates : Updates)
  /-- `replaceTeams`. -/
  | unlinking (user : User) (role : UserRole) (teamIDs : List UUID)
  | linking (user : User) (teamIDs : List UUID)
  | inserting (user : User) (team : Team) (teamIDs : List UUID)
  | reloading (user : User)

/-- What `Delete` does next. -/
inductive DeletePhase where
  | finding
  | counting (user : User)
  | unlinking (user : User)
  | revoking (user : User)
  | removing (user : User)

inductive Request where
  | update (actor : Actor) (id : UUID) (body : Except String OrgUserRequest) (phase : UpdatePhase)
  | delete (actor : Actor) (id : UUID) (phase : DeletePhase)
  | finished (answer : Answer)

def Request.isNew : Request → Bool
  | .update actor _ _ .finding | .delete actor _ .finding => actor.admitted
  | _ => false

namespace Database

variable (db : Database)

def find (id : UUID) (orgID : Option UUID) : Option User :=
  db.users.rows.find? fun user => user.id == id && user.orgID == orgID

/-- `lastAdmin`: nobody else is an active admin of the organisation. -/
def lastAdmin (orgID : Option UUID) (excluding : UUID) : Bool :=
  db.users.rows.all fun user =>
    !(user.orgID == orgID && user.role == .orgAdmin && user.status == .active &&
      user.id != excluding)

def updates (id : UUID) (updates : Updates) : Database :=
  { db with
    users := db.users.update
      (fun user => if user.id = id then updates.apply user else user)
      (fun user => by dsimp only [HasID.id]; split <;> rfl) }

def remove (id : UUID) : Database := { db with users := db.users.delete fun user => user.id == id }

def unlink (userID : UUID) : Database :=
  { db with userTeams := db.userTeams.filter fun link => link.userID != userID }

def revoke (userID : UUID) : Database :=
  { db with
    refreshTokens := db.refreshTokens.map fun token =>
      if token.userID = userID then { token with revoked := true } else token }

/-! ## Endpoints

Only the first statement's error is looked at; a count that fails is zero. -/

/-- `Update`, statement by statement. -/
def update (generate : String → Option String) (actor : Actor) (id : UUID)
    (body : Except String OrgUserRequest) (works : Bool) : UpdatePhase → Request × Database
  | .finding =>
    match if works then db.find id actor.orgID else none, body with
    | none, _ => (.finished (.rejected 404 "User not found"), db)
    | some _, .error error => (.finished (.rejected 400 error), db)
    | some user, .ok request =>
      match requestedRole actor user request with
      | .error answer => (.finished answer, db)
      | .ok (some role) =>
        if user.role = .orgAdmin ∧ role ≠ .orgAdmin then
          (.update actor id body (.counting user request role), db)
        else go user request (some role)
      | .ok none => go user request none
  | .counting user request role =>
    if !works || db.lastAdmin actor.orgID user.id then
      (.finished (.rejected 400 "This is the last admin — promote someone else first"), db)
    else go user request (some role)
  | .writing user request updates =>
    let role := updates.role.getD user.role
    (.update actor id body
      (if request.teamIDs.isSome ∨ role ≠ .manager then
        .unlinking user role (request.teamIDs.getD [])
      else .reloading user),
      if works then db.updates user.id updates else db)
  | .unlinking user role teamIDs =>
    (.update actor id body
      (if role = .manager then .linking user teamIDs else .reloading user),
      if works then db.unlink user.id else db)
  | .linking user [] => (.update actor id body (.reloading user), db)
  | .linking user (teamID :: teamIDs) =>
    match if works then db.teams.find? fun team => team.id == teamID && actor.orgID == some team.orgID
      else none with
    | none => (.update actor id body (.linking user teamIDs), db)
    | some team => (.update actor id body (.inserting user team teamIDs), db)
  | .inserting user team teamIDs =>
    (.update actor id body (.linking user teamIDs),
      if works then { db with userTeams := ⟨user.id, team.id, team.orgID⟩ :: db.userTeams } else db)
  | .reloading user =>
    let stored := if works then db.users.rows.find? fun other => other.id == user.id else none
    (.finished ⟨200, none, some (stored.getD user)⟩, db)
where
  go (user : User) (request : OrgUserRequest) (role : Option UserRole) : Request × Database :=
    match requestedUpdates actor user request generate role with
    | .error answer => (.finished answer, db)
    | .ok updates => (.update actor id body (.writing user request updates), db)

/-- `Delete`, statement by statement. -/
def delete (actor : Actor) (id : UUID) (works : Bool) : DeletePhase → Request × Database
  | .finding =>
    match if works then db.find id actor.orgID else none with
    | none => (.finished (.rejected 404 "User not found"), db)
    | some user =>
      if actor.userID = user.id then
        (.finished (.rejected 400 "You cannot remove your own account"), db)
      else if user.role = .orgAdmin then (.delete actor id (.counting user), db)
      else (.delete actor id (.unlinking user), db)
  | .counting user =>
    if !works || db.lastAdmin actor.orgID user.id then
      (.finished (.rejected 400 "This is the last admin — promote someone else first"), db)
    else (.delete actor id (.unlinking user), db)
  | .unlinking user =>
    (.delete actor id (.revoking user), if works then db.unlink user.id else db)
  | .revoking user =>
    (.delete actor id (.removing user), if works then db.revoke user.id else db)
  | .removing user =>
    (.finished ⟨200, none, none⟩, if works then db.remove user.id else db)

def advance (generate : String → Option String) (works : Bool) : Request → Request × Database
  | .update actor id body phase => db.update generate actor id body works phase
  | .delete actor id phase => db.delete actor id works phase
  | .finished answer => (.finished answer, db)

end Database

/-- The users, and the requests that are being handled. -/
structure World where
  db : Database
  requests : ℕ → Option Request

inductive Action where
  | begin (request : ℕ) (asked : Request)
  | advance (request : ℕ) (works : Bool)

/-- Each step of a request is one access to the database. -/
def World.step (generate : String → Option String) (world : World) : Action → Option World
  | .begin number asked =>
    if (world.requests number).isNone ∧ asked.isNew then
      some { world with requests := Function.update world.requests number (some asked) }
    else none
  | .advance number works =>
    (world.requests number).map fun request =>
      let (next, db) := world.db.advance generate works request
      ⟨db, Function.update world.requests number (some next)⟩

end Aavishield.OrgUsers
