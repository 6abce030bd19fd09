import Aavishield.Auth.SignIn

/-!
# Credentials

The endpoints that exchange a credential, set a password or refresh a session.  Every
statement to the database is a step of its own, and the steps of requests interleave.  The
condition of a `SELECT` is checked and its row is copied; what is written later goes by the
copy.
-/

namespace Aavishield.Credentials

open Auth (Rejection)
open Dataplane (HasID Table)
open Text

structure Primitives extends Auth.Primitives where
  generateFromPassword : String → Option String
  /-- `ValidatePassword`, of a password and an address. -/
  validatePassword : String → String → String
  agentKeyHash : String → String
  refreshExpiry : ℤ

inductive Surface where
  | dashboard
  | portal
  deriving DecidableEq

structure Owner where
  surface : Surface
  id : UUID
  deriving DecidableEq

/-- What these endpoints read of a row of `users` or of `employees`. -/
structure Person where
  owner : Owner
  orgID : Option UUID
  email : String
  passwordHash : String
  status : String

structure EnrollmentToken where
  id : UUID
  orgID : UUID
  employeeID : Option UUID
  token : String
  usedAt : Option ℤ
  expiresAt : ℤ

instance : HasID EnrollmentToken := ⟨EnrollmentToken.id⟩

/-- A row of `password_reset_tokens`, with a `user_id` or an `employee_id`. -/
structure PasswordResetToken where
  id : UUID
  owner : Owner
  tokenHash : String
  expiresAt : ℤ
  used : Bool

instance : HasID PasswordResetToken := ⟨PasswordResetToken.id⟩

structure ImpersonationToken where
  id : UUID
  code : String
  targetUserID : UUID
  expiresAt : ℤ
  consumedAt : Option ℤ

instance : HasID ImpersonationToken := ⟨ImpersonationToken.id⟩

/-- A row of `refresh_tokens` or of `employee_refresh_tokens`. -/
structure RefreshToken where
  id : UUID
  owner : Owner
  tokenHash : String
  expiresAt : ℤ
  revoked : Bool
  revokedAt : Option ℤ
  /-- History: the sign-in that the token goes back to. -/
  session : ℕ

instance : HasID RefreshToken := ⟨RefreshToken.id⟩

structure Device where
  id : UUID
  orgID : UUID
  employeeID : Option UUID
  hostname : String
  osType : String
  osVersion : String
  agentVersion : String
  macAddress : String
  machineID : String
  ipAddress : String
  status : String
  lastSeenAt : Option ℤ
  enrolledAt : ℤ

instance : HasID Device := ⟨Device.id⟩

structure AgentToken where
  deviceID : UUID
  orgID : UUID
  employeeID : Option UUID
  tokenHash : String

inductive Credential where
  | enrollmentToken (id : UUID)
  | resetToken (id : UUID)
  | impersonationToken (id : UUID)
  deriving DecidableEq

inductive Deed where
  | issued (credential : Credential)
  | enrolled (token device : UUID)
  | reset (token : UUID) (owner : Owner)
  | impersonated (token user : UUID)
  | signedIn (session : ℕ) (owner : Owner)
  | exchanged (session : ℕ) (owner : Owner)
  | passwordSet (request : ℕ) (owner : Owner) (session : Option ℕ)
  | passwordReturned (request : ℕ)
  deriving DecidableEq

structure Database where
  now : ℤ
  people : List Person
  enrollmentTokens : Table EnrollmentToken
  resetTokens : Table PasswordResetToken
  impersonationTokens : Table ImpersonationToken
  refreshTokens : Table RefreshToken
  devices : Table Device
  agentTokens : List AgentToken
  sessions : ℕ
  history : List Deed

structure Draw where
  id : UUID
  secret : String

structure EnrollRequest where
  token : String
  hostname : String
  osType : String
  osVersion : String
  macAddress : String
  machineID : String
  agentVersion : String
  ipAddress : String

/-- What `Enroll` does next. -/
inductive EnrollPhase where
  | checking
  | findingMachine (row : EnrollmentToken)
  | findingAddress (row : EnrollmentToken)
  | saving (row : EnrollmentToken) (device : Device) (isNewDevice : Bool)
  | replacing (row : EnrollmentToken) (device : Device)
  | keying (row : EnrollmentToken) (device : Device)
  | marking (row : EnrollmentToken)

inductive Setter where
  | changePassword (owner : Owner) (current : String) (session : Option ℕ)
  | resetPassword (surface : Surface) (token : String)
  | update (orgID userID : UUID)

def Setter.session : Setter → Option ℕ
  | .changePassword _ _ session => session
  | _ => none

def Setter.revokes : Setter → Bool
  | .changePassword owner _ _ => owner.surface == .dashboard
  | .resetPassword surface _ => surface == .dashboard
  | .update .. => false

inductive PasswordPhase where
  | checking
  | validating (row : PasswordResetToken)
  | changing (owner : Owner) (hash : String) (row : Option PasswordResetToken)
  | marking (owner : Owner) (row : PasswordResetToken) (changed : Bool)
  | revoking (owner : Owner)
  | returning

inductive ImpersonatePhase where
  | checking
  | marking (row : ImpersonationToken)
  | loading (row : ImpersonationToken)

inductive RefreshPhase where
  | checking
  | loading (row : RefreshToken)
  | rotating (row : RefreshToken)
  | minting (row : RefreshToken)

inductive Request where
  | enroll (request : EnrollRequest) (phase : EnrollPhase)
  | setPassword (setter : Setter) (password : String) (phase : PasswordPhase)
  | impersonateConsume (code : String) (phase : ImpersonatePhase)
  | refresh (surface : Surface) (token : String) (phase : RefreshPhase)
  | finished (answer : Except Rejection Unit) (spent : Option Credential)

def Request.isNew : Request → Bool
  | .enroll _ .checking | .setPassword _ _ .checking | .impersonateConsume _ .checking
  | .refresh _ _ .checking => true
  | _ => false

def Request.failed (status : ℕ) (error : String) : Request :=
  .finished (.error ⟨status, error, none⟩) none

def Request.done : Request := .finished (.ok ()) none

namespace Database

variable (env : Primitives) (db : Database)

def record (deed : Deed) : Database := { db with history := deed :: db.history }

def person (owner : Owner) : Option Person := db.people.find? fun person => person.owner = owner

def seenBefore : Option ℤ → Option ℤ → Bool
  | none, some _ => true
  | some first, some second => decide (first < second)
  | _, none => false

/-- `ORDER BY last_seen_at DESC NULLS LAST`, and by the primary key. -/
def lastSeen (devices : List Device) : Option Device :=
  devices.foldl (fun best device =>
    match best with
    | none => some device
    | some held => if seenBefore held.lastSeenAt device.lastSeenAt then some device else some held) none

def describe (device : Device) (row : EnrollmentToken) (request : EnrollRequest) : Device :=
  let machineID := String.ofList (trimSpace request.machineID.toList)
  { device with
    orgID := row.orgID
    employeeID := row.employeeID
    hostname := request.hostname
    osType := request.osType
    osVersion := request.osVersion
    agentVersion := request.agentVersion
    macAddress := request.macAddress
    machineID := if machineID = "" then device.machineID else machineID
    ipAddress := request.ipAddress
    status := "online"
    lastSeenAt := some db.now }

def freshDevice (id : UUID) (now : ℤ) : Device :=
  ⟨id, UUID.zero, none, "", "", "", "", "", "", "", "", none, now⟩

def isAddressOf (device : Device) (row : EnrollmentToken) (request : EnrollRequest) : Bool :=
  device.orgID == row.orgID &&
    if request.macAddress ≠ "" then device.macAddress == request.macAddress
    else device.macAddress == "" && device.hostname == request.hostname &&
      -- no employee equals `NULL`
      row.employeeID.isSome && device.employeeID == row.employeeID

/-- `Enroll`, statement by statement; those whose error is looked at may fail. -/
def enroll (request : EnrollRequest) (works : Bool) (draw : Draw) :
    EnrollPhase → Request × Database
  | .checking =>
    match db.enrollmentTokens.rows.find? fun row =>
      row.token = request.token ∧ row.usedAt = none ∧ db.now < row.expiresAt with
    | some row => (.enroll request (.findingMachine row), db)
    | none => (.failed 401 "Invalid or expired enrollment token", db)
  | .findingMachine row =>
    let machineID := String.ofList (trimSpace request.machineID.toList)
    let found := if machineID = "" then none else lastSeen (db.devices.rows.filter fun device =>
      device.orgID == row.orgID && device.machineID == machineID)
    match found with
    | some device => (.enroll request (.saving row (db.describe device row request) false), db)
    | none => (.enroll request (.findingAddress row), db)
  | .findingAddress row =>
    match db.devices.rows.find? fun device => isAddressOf device row request with
    | some device => (.enroll request (.saving row (db.describe device row request) false), db)
    | none =>
      let device := db.describe (freshDevice draw.id db.now) row request
      (.enroll request (.saving row device true), db)
  | .saving row device isNewDevice =>
    if isNewDevice then
      if works ∧ ¬db.devices.Holds device.id then
        (.enroll request (.keying row device), { db with devices := db.devices.insert device })
      else (.failed 500 "Failed to create device", db)
    else if works then
      (.enroll request (.replacing row device), { db with
        devices := db.devices.update
          (fun other => if other.id = device.id then device else other)
          (fun other => by
            split
            · rename_i same
              exact same.symm
            · rfl) })
    else (.failed 500 "Failed to update device", db)
  | .replacing row device =>
    -- The key of the previous installation goes.
    (.enroll request (.keying row device),
      if works then
        { db with agentTokens := db.agentTokens.filter fun token => token.deviceID ≠ device.id }
      else db)
  | .keying row device =>
    -- A device has one key at most, by a unique index.
    if works ∧ ∀ token ∈ db.agentTokens, token.deviceID ≠ device.id then
      (.enroll request (.marking row),
        { db with
          agentTokens := ⟨device.id, row.orgID, row.employeeID,
            env.agentKeyHash ("dsa_" ++ draw.secret)⟩ :: db.agentTokens }.record
          (.enrolled row.id device.id))
    else (.failed 500 "Failed to create agent token", db)
  | .marking row =>
    (.done,
      if works then
        { db with
          enrollmentTokens := db.enrollmentTokens.update
            (fun other => if other.id = row.id then { other with usedAt := some db.now } else other)
            (fun other => by split <;> rfl) }
      else db)

def impersonateConsume (code : String) (works : Bool) : ImpersonatePhase → Request × Database
  | .checking =>
    match db.impersonationTokens.rows.find? fun row => row.code = code with
    | none => (.failed 401 "This impersonation link is invalid or has already been used", db)
    | some row =>
      if row.consumedAt.isSome then
        (.failed 401 "This impersonation link has already been used", db)
      else if row.expiresAt < db.now then
        (.failed 401 "This impersonation link has expired", db)
      else (.impersonateConsume code (.marking row), db)
  | .marking row =>
    (.impersonateConsume code (.loading row),
      if works then
        { db with
          impersonationTokens := db.impersonationTokens.update
            (fun other =>
              if other.id = row.id then { other with consumedAt := some db.now } else other)
            (fun other => by split <;> rfl) }
      else db)
  | .loading row =>
    let spent := some (.impersonationToken row.id)
    match db.person ⟨.dashboard, row.targetUserID⟩ with
    | none =>
      (.finished (.error ⟨404, "The impersonated account no longer exists", none⟩) spent, db)
    | some user =>
      if user.status ≠ "active" then
        (.finished (.error ⟨403, "Account is " ++ user.status, none⟩) spent, db)
      else (.done, db.record (.impersonated row.id user.owner.id))

def checkChange (person : Person) (current password : String) : Except (ℕ × String) String :=
  if !env.compareHashAndPassword person.passwordHash current then
    .error (401, "Current password is incorrect")
  else if env.validatePassword password person.email ≠ "" then
    .error (400, env.validatePassword password person.email)
  else ((env.generateFromPassword password).map .ok).getD
    (.error (500, "Failed to hash password"))

def checkPortalChange (person : Person) (current password : String) :
    Except (ℕ × String) String :=
  if person.passwordHash = "" then
    .error (400, "This account signs in with Google or Apple — there's no password to change.")
  else if env.validatePassword password person.email ≠ "" then
    .error (400, env.validatePassword password person.email)
  else if !env.compareHashAndPassword person.passwordHash current then
    .error (401, "Current password is incorrect")
  else ((env.generateFromPassword password).map .ok).getD
    (.error (500, "Failed to hash password"))

def checkSetter (setter : Setter) (password : String) : Request :=
  match setter with
  | .changePassword owner current _ =>
    match db.person owner with
    | none =>
      match owner.surface with
      | .dashboard => .failed 404 "User not found"
      | .portal => .failed 401 "Employee not found"
    | some person =>
      let checked :=
        match owner.surface with
        | .dashboard => checkChange env person current password
        | .portal => checkPortalChange env person current password
      match checked with
      | .error (status, error) => .failed status error
      | .ok hash => .setPassword setter password (.changing owner hash none)
  | .resetPassword surface token =>
    match db.resetTokens.rows.find? fun row =>
      row.tokenHash = env.hashRefreshToken token ∧ row.used = false ∧
        db.now < row.expiresAt ∧ row.owner.surface = surface with
    | none => .failed 400 "Invalid or expired reset link"
    | some row => .setPassword setter password (.validating row)
  | .update orgID userID =>
    match db.people.find? fun person =>
      person.owner = ⟨.dashboard, userID⟩ ∧ person.orgID = some orgID with
    | none => .failed 404 "User not found"
    | some person =>
      if trimSpace password.toList = [] then .done
      else if password.utf8ByteSize < 8 then
        .failed 400 "Password must be at least 8 characters"
      else
        match env.generateFromPassword password with
        | none => .failed 500 "Failed to secure the password"
        | some hash => .setPassword setter password (.changing person.owner hash none)

def setPasswordHash (owner : Owner) (hash : String) : Database :=
  { db with
    people := db.people.map fun person =>
      if person.owner = owner then { person with passwordHash := hash } else person }

def setPassword (request : ℕ) (setter : Setter) (password : String) (works : Bool) :
    PasswordPhase → Request × Database
  | .checking => (db.checkSetter env setter password, db)
  | .validating row =>
    let email := ((db.person row.owner).map (·.email)).getD ""
    if env.validatePassword password email ≠ "" then
      (.failed 400 (env.validatePassword password email), db)
    else
      match env.generateFromPassword password with
      | none => (.failed 500 "Failed to hash password", db)
      | some hash => (.setPassword setter password (.changing row.owner hash (some row)), db)
  | .changing owner hash row =>
    let changed :=
      if works then
        (db.setPasswordHash owner hash).record (.passwordSet request owner setter.session)
      else db
    match row with
    | some row =>
      (.setPassword setter password (.marking owner row works),
        if works then changed.record (.reset row.id owner) else changed)
    | none =>
      (.setPassword setter password (if setter.revokes then .revoking owner else .returning),
        changed)
  | .marking owner row _ =>
    (.setPassword setter password (if setter.revokes then .revoking owner else .returning),
      if works then
        { db with
          resetTokens := db.resetTokens.update
            (fun other => if other.id = row.id then { other with used := true } else other)
            (fun other => by split <;> rfl) }
      else db)
  | .revoking owner =>
    (.setPassword setter password .returning,
      if works then
        { db with
          refreshTokens :=
            { rows := db.refreshTokens.rows.filter fun row => row.owner ≠ owner
              distinct := db.refreshTokens.distinct.sublist
                ((List.filter_sublist).map _) } }
      else db)
  | .returning => (.done, db.record (.passwordReturned request))

def rotationGrace : ℤ := 60 * 10 ^ 9

def withinRotationGrace (now : ℤ) (revokedAt : Option ℤ) : Bool :=
  revokedAt.any fun instant => decide (now - instant ≤ rotationGrace)

def addRefreshToken (owner : Owner) (session : ℕ) (draw : Draw) : Option Database :=
  let hash := env.hashRefreshToken draw.secret
  if (∀ row ∈ db.refreshTokens.rows, row.tokenHash ≠ hash) ∧ ¬db.refreshTokens.Holds draw.id then
    some { db with
      refreshTokens := db.refreshTokens.insert
        ⟨draw.id, owner, hash, db.now + env.refreshExpiry, false, none, session⟩ }
  else none

def refreshRefused (surface : Surface) (person : Option Person) : Option Request :=
  match surface, person with
  | .dashboard, none => some (.failed 401 "User not found")
  | .dashboard, some user =>
    if user.status = "active" then none else some (.failed 403 "Account suspended")
  | .portal, person =>
    if person.any fun employee => decide (employee.status = "active") then none
    else some (.failed 401 "Employee account is no longer active")

/-- `Refresh`, of the dashboard and of the portal. -/
def refresh (surface : Surface) (token : String) (works : Bool) (draw : Draw) :
    RefreshPhase → Request × Database
  | .checking =>
    match db.refreshTokens.rows.find? fun row =>
      row.owner.surface = surface ∧ row.tokenHash = env.hashRefreshToken token ∧
        db.now < row.expiresAt with
    | none => (.failed 401 "Invalid or expired refresh token", db)
    | some row =>
      if row.revoked && !withinRotationGrace db.now row.revokedAt then
        (.failed 401 "Invalid or expired refresh token", db)
      else (.refresh surface token (.loading row), db)
  | .loading row =>
    match refreshRefused surface (db.person row.owner) with
    | some refused => (refused, db)
    | none => (.refresh surface token (.rotating row), db)
  | .rotating row =>
    (.refresh surface token (.minting row),
      if works ∧ row.revoked = false then
        { db with
          refreshTokens := db.refreshTokens.update
            (fun other =>
              if other.id = row.id then { other with revoked := true, revokedAt := some db.now }
              else other)
            (fun other => by split <;> rfl) }
      else db)
  | .minting row =>
    let added := if works then db.addRefreshToken env row.owner row.session draw else none
    match surface, added with
    | _, some added => (.done, added.record (.exchanged row.session row.owner))
    -- The dashboard does not look at the error.
    | .dashboard, none => (.done, db.record (.exchanged row.session row.owner))
    | .portal, none => (.failed 500 "Failed to generate token", db)

end Database

/-- The database, and the requests that are being handled. -/
structure World where
  db : Database
  requests : ℕ → Option Request

/-- A step of a request, or something else that changes the tables. -/
inductive Action where
  | begin (request : ℕ) (asked : Request)
  | advance (request : ℕ) (works : Bool) (draw : Draw)
  | issueEnrollmentToken (row : EnrollmentToken)
  | issueResetToken (row : PasswordResetToken)
  | issueImpersonationToken (row : ImpersonationToken)
  | signIn (owner : Owner) (draw : Draw)
  | logout (token : String)
  | changePeople (people : List Person)
  | tick (elapsed : ℕ)

variable (env : Primitives)

def Database.advance (db : Database) (number : ℕ) (works : Bool) (draw : Draw) :
    Request → Request × Database
  | .enroll request phase => db.enroll env request works draw phase
  | .setPassword setter password phase =>
    db.setPassword env number setter password works phase
  | .impersonateConsume code phase => db.impersonateConsume code works phase
  | .refresh surface token phase => db.refresh env surface token works draw phase
  | .finished answer spent => (.finished answer spent, db)

namespace World

variable (world : World)

def issue (credential : Credential) (fresh : Bool) (db : Database) : Option World :=
  if fresh then some { world with db := db.record (.issued credential) } else none

def step : Action → Option World
  | .begin number asked =>
    if (world.requests number).isNone ∧ asked.isNew then
      some { world with requests := Function.update world.requests number (some asked) }
    else none
  | .advance number works draw =>
    (world.requests number).map fun request =>
      let (next, db) := world.db.advance env number works draw request
      ⟨db, Function.update world.requests number (some next)⟩
  | .issueEnrollmentToken row =>
    world.issue (.enrollmentToken row.id)
      (decide (¬world.db.enrollmentTokens.Holds row.id) && row.usedAt.isNone &&
        world.db.enrollmentTokens.rows.all fun other => other.token ≠ row.token)
      { world.db with enrollmentTokens := world.db.enrollmentTokens.insert row }
  | .issueResetToken row =>
    world.issue (.resetToken row.id)
      (decide (¬world.db.resetTokens.Holds row.id) && !row.used &&
        world.db.resetTokens.rows.all fun other => other.tokenHash ≠ row.tokenHash)
      { world.db with resetTokens := world.db.resetTokens.insert row }
  | .issueImpersonationToken row =>
    world.issue (.impersonationToken row.id)
      (decide (¬world.db.impersonationTokens.Holds row.id) && row.consumedAt.isNone &&
        world.db.impersonationTokens.rows.all fun other => other.code ≠ row.code)
      { world.db with impersonationTokens := world.db.impersonationTokens.insert row }
  | .signIn owner draw =>
    (world.db.addRefreshToken env owner world.db.sessions draw).map fun db =>
      { world with
        db := { db with sessions := db.sessions + 1 }.record
          (.signedIn world.db.sessions owner) }
  | .logout token =>
    some { world with
      db := { world.db with
        refreshTokens :=
          { rows := world.db.refreshTokens.rows.filter fun row =>
              row.tokenHash ≠ env.hashRefreshToken token
            distinct := world.db.refreshTokens.distinct.sublist
              ((List.filter_sublist).map _) } } }
  | .changePeople people => some { world with db := { world.db with people := people } }
  | .tick elapsed => some { world with db := { world.db with now := world.db.now + elapsed } }

end World

def World.initial (now : ℤ) (people : List Person) (devices : Table Device)
    (agentTokens : List AgentToken) : World where
  db :=
    { now, people, devices, agentTokens
      enrollmentTokens := .empty
      resetTokens := .empty
      impersonationTokens := .empty
      refreshTokens := .empty
      sessions := 0
      history := [] }
  requests := fun _ => none

end Aavishield.Credentials
