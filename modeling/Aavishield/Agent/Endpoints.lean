import Aavishield.Basic
import Mathlib.Data.List.Basic

/-!
# The endpoints that agents call

Every handler under `/internal/agent` first checks the credentials of the device and
then answers for reasons of its own.  Of a handler the model keeps how it chooses the
status of its answer, since the status is all that the agent's client looks at when it
decides whether it is still enrolled.

What a handler reads from Aavishield's database is a query that may fail.  What it learns
elsewhere (whether a body parses, the state of a scan job, the answer of another service)
is part of the request.
-/

namespace Aavishield.Agent

abbrev Status := ℕ

abbrev statusOK : Status := 200
abbrev statusCreated : Status := 201
abbrev statusAccepted : Status := 202
abbrev statusNoContent : Status := 204
abbrev statusNotModified : Status := 304
abbrev statusBadRequest : Status := 400
abbrev statusUnauthorized : Status := 401
abbrev statusForbidden : Status := 403
abbrev statusNotFound : Status := 404
abbrev statusConflict : Status := 409
abbrev statusRequestEntityTooLarge : Status := 413
abbrev statusTooManyRequests : Status := 429
abbrev statusInternalServerError : Status := 500
abbrev statusBadGateway : Status := 502
abbrev statusServiceUnavailable : Status := 503

structure AgentToken where
  deviceID : UUID
  orgID : UUID
  tokenHash : String
  revoked : Bool

structure CachedAgentToken where
  orgID : UUID

structure Device where
  id : UUID
  orgID : UUID

inductive UserRole where
  | superAdmin
  | orgAdmin
  | manager
  | analyst
  | readOnly
  deriving DecidableEq

structure User where
  orgID : UUID
  email : String
  active : Bool
  role : UserRole
  passwordHash : String

structure ScreenshotSettings where
  orgID : UUID
  enabled : Bool

def defaultScreenshotSettings (orgID : UUID) : ScreenshotSettings where
  orgID := orgID
  enabled := true

structure Database where
  agentTokens : List AgentToken
  devices : List Device
  users : List User
  screenshotSettings : List ScreenshotSettings
  organizations : List UUID

/-- The keys of `agentTokenCacheKey`: a device and the hash of an agent key. -/
abbrev TokenCache := List ((UUID × String) × CachedAgentToken)

/-- The database and the Redis cache, which is optional (`rdb`). -/
structure Server where
  db : Database
  rdb : Option TokenCache

/-- What the agent's endpoints take from libraries. -/
structure Primitives where
  agentKeyHash : String → String
  lower : String → String
  trimSpace : String → String
  compareHashAndPassword : String → String → Bool

inductive Table where
  | agentTokens
  | devices
  | users
  | screenshotSettings
  | organizations
  deriving DecidableEq

structure Faults where
  failed : Table → Bool
  cacheFailed : Bool

inductive QueryError where
  | recordNotFound
  | failure

def first {Row : Type} (faults : Faults) (table : Table) (rows : List Row)
    (condition : Row → Bool) : Except QueryError Row :=
  if faults.failed table then .error .failure
  else match rows.find? condition with
    | some row => .ok row
    | none => .error .recordNotFound

/-- The `Authorization` header, with the device and its key once it has the right form. -/
inductive Authorization where
  | absent
  | malformed
  | bearer (deviceID : UUID) (agentKey : String)

structure Identity where
  deviceID : UUID
  orgID : UUID

def AgentToken.admits (token : AgentToken) (deviceID : UUID) (keyHash : String) : Bool :=
  token.deviceID == deviceID && token.tokenHash == keyHash && !token.revoked

def cachedToken (faults : Faults) (rdb : Option TokenCache) (deviceID : UUID)
    (keyHash : String) : Option CachedAgentToken :=
  if faults.cacheFailed then none
  else rdb.bind fun cache => cache.lookup (deviceID, keyHash)

/--
`authAgent`, followed by the test `deviceID == uuid.Nil` with which every handler
begins: an error is the status already written.  A query that fails is answered
like a key that is not there.
-/
def authAgent (env : Primitives) (db : Database) (rdb : Option TokenCache)
    (faults : Faults) : Authorization → Except Status Identity
  | .absent => .error statusUnauthorized
  | .malformed => .error statusUnauthorized
  | .bearer deviceID agentKey =>
    let keyHash := env.agentKeyHash agentKey
    match cachedToken faults rdb deviceID keyHash with
    | some cached => identified deviceID cached.orgID
    | none =>
      match first faults .agentTokens db.agentTokens (·.admits deviceID keyHash) with
      | .error _ => .error statusUnauthorized
      | .ok token => identified deviceID token.orgID
where
  /-- Nothing is written for the zero device, which leaves the framework's 200. -/
  identified (deviceID orgID : UUID) : Except Status Identity :=
    if deviceID = UUID.zero then .error statusOK else .ok ⟨deviceID, orgID⟩

/-- The entry that `authAgent` leaves in Redis once it has read the token's row. -/
def rememberToken (env : Primitives) (faults : Faults) (server : Server) :
    Authorization → Server
  | .bearer deviceID agentKey =>
    let keyHash := env.agentKeyHash agentKey
    match server.rdb, cachedToken faults server.rdb deviceID keyHash,
        first faults .agentTokens server.db.agentTokens (·.admits deviceID keyHash) with
    | some cache, none, .ok token =>
      if faults.cacheFailed then server
      else { server with rdb := some (((deviceID, keyHash), ⟨token.orgID⟩) :: cache) }
    | _, _, _ => server
  | _ => server

/-- `revokeAgentToken`: all the device's tokens, and the cached entry of the first live one. -/
def revokeAgentToken (faults : Faults) (server : Server) (deviceID : UUID) : Server :=
  let live := first faults .agentTokens server.db.agentTokens
    fun token => token.deviceID == deviceID && !token.revoked
  let rows := if faults.failed .agentTokens then server.db.agentTokens
    else server.db.agentTokens.map fun token =>
      if token.deviceID = deviceID then { token with revoked := true } else token
  let rdb := match live with
    | .ok token => if faults.cacheFailed then server.rdb
        else server.rdb.map (·.filter (·.1 ≠ (deviceID, token.tokenHash)))
    | .error _ => server.rdb
  { db := { server.db with agentTokens := rows }, rdb }

inductive StoreError where
  | unavailable
  | other

def respondStoreError : StoreError → Status
  | .unavailable => statusServiceUnavailable
  | .other => statusInternalServerError

inductive ScanJobPart where
  | repeated
  | gap
  | next (stored : Bool)

/-- What `FindSessions` makes of the device's open session. -/
inductive OpenSession where
  | failed (error : StoreError)
  | resumed
  | absent (inserted : Except StoreError Unit)

inductive ScreenshotUpload where
  | tooLarge
  | empty
  | unresolved (error : StoreError)
  | fileFailed (unavailable : Bool)
  | stored (inserted : Except StoreError Unit)

/-- What casb-service answers to `casbclient.Post`, or nothing. -/
abbrev CASBAnswer := Option Status

/--
The requests to the agent endpoints that need the device's credentials.  The arguments
are what the handler finds in the request and outside Aavishield's database.
-/
inductive Request where
  | heartbeat
  | agentVersion (published : Bool)
  | getConfig
  | getRules (encoded unchanged : Bool)
  | policyPublicKey
  | reportActivity (bodyValid : Bool) (kept : ℕ) (recorded : Bool)
  | scanFile (read : Bool)
  | scanHash (hashValid : Bool)
  | reportMITMRefusal (bodyValid hostname : Bool)
  | createScanJob (sizeValid slotFree spooled : Bool)
  | uploadScanJobPart (found offsetValid accepting : Bool) (part : ScanJobPart)
  | completeScanJob (found uploading complete : Bool)
  | getScanJob (found : Bool)
  | getAppControl
  | reportAppBlock (bodyValid recorded : Bool)
  | reportBrowserExtension (bodyValid recorded : Bool)
  | reportInventory (bodyValid : Bool)
  | startSession (resolved : Except StoreError OpenSession)
  | endSession (bodyValid idValid : Bool) (resolved updated : Except StoreError Unit)
  | uploadScreenshot (upload : ScreenshotUpload)
  | scanDLP (read : Bool)
  | getMITMConfig
  | getBranding
  | getCACert (loaded : Bool)
  | signCert (bodyValid loaded issued : Bool)
  | threatLookup (domainGiven : Bool)
  | casbAppControl (domainGiven enabled reviewedBlock : Bool) (answer : CASBAnswer)
  | reportOffline
  | deviceConnected
  | deviceDisconnected
  | authorizeUninstall (rateLimited : Bool) (email password : String)

def storeStatus : Except StoreError Unit → Status
  | .ok () => statusOK
  | .error error => respondStoreError error

def reportActivity (bodyValid : Bool) (kept : ℕ) (recorded : Bool) : Status :=
  if !bodyValid then statusBadRequest
  else if kept = 0 then statusCreated
  else if recorded then statusCreated else statusInternalServerError

/-- `ReportAppBlock` and `ReportBrowserExtension`; a folded duplicate is a 200 as well. -/
def reportDeduped (bodyValid recorded : Bool) : Status :=
  if !bodyValid then statusBadRequest
  else if recorded then statusOK else statusInternalServerError

def createScanJob (sizeValid slotFree spooled : Bool) : Status :=
  if !sizeValid then statusRequestEntityTooLarge
  else if !slotFree then statusTooManyRequests
  else if spooled then statusCreated else statusInternalServerError

def uploadScanJobPart (found offsetValid accepting : Bool) (part : ScanJobPart) : Status :=
  if !found then statusNotFound
  else if !offsetValid then statusBadRequest
  else if !accepting then statusConflict
  else match part with
    | .repeated => statusOK
    | .gap => statusConflict
    | .next stored => if stored then statusOK else statusBadRequest

def completeScanJob (found uploading complete : Bool) : Status :=
  if !found then statusNotFound
  else if !uploading then statusAccepted
  else if complete then statusAccepted else statusConflict

def startSession : Except StoreError OpenSession → Status
  | .error error => respondStoreError error
  | .ok (.failed error) => respondStoreError error
  | .ok .resumed => statusOK
  | .ok (.absent inserted) => storeStatus inserted

def endSession (bodyValid idValid : Bool) (resolved updated : Except StoreError Unit) : Status :=
  if !bodyValid then statusBadRequest
  else if !idValid then statusBadRequest
  else match resolved with
    | .error error => respondStoreError error
    | .ok () => storeStatus updated

/--
`screenshotSettingsFor`: the defaults for a company without a row; a query that fails
leaves the zero value, in which everything is off.
-/
def screenshotSettingsFor (db : Database) (faults : Faults) (orgID : UUID) : ScreenshotSettings :=
  match first faults .screenshotSettings db.screenshotSettings (·.orgID == orgID) with
  | .ok settings => settings
  | .error .recordNotFound => defaultScreenshotSettings orgID
  | .error .failure => ⟨UUID.zero, false⟩

def uploadScreenshot (db : Database) (faults : Faults) (orgID : UUID)
    (upload : ScreenshotUpload) : Status :=
  if !(screenshotSettingsFor db faults orgID).enabled then statusForbidden
  else match upload with
    | .tooLarge => statusRequestEntityTooLarge
    | .empty => statusBadRequest
    | .unresolved error => respondStoreError error
    | .fileFailed unavailable => if unavailable then statusServiceUnavailable else statusBadGateway
    | .stored inserted => storeStatus inserted

def getMITMConfig (db : Database) (faults : Faults) (orgID : UUID) : Status :=
  match first faults .organizations db.organizations (· == orgID) with
  | .ok _ => statusOK
  | .error _ => statusNotFound

def signCert (bodyValid loaded issued : Bool) : Status :=
  if !bodyValid then statusBadRequest
  else if !loaded then statusInternalServerError
  else if issued then statusOK else statusBadRequest

/-- `CASBAppControl` relays the status of casb-service unless that is an outage. -/
def casbAppControl (domainGiven enabled reviewedBlock : Bool) (answer : CASBAnswer) : Status :=
  if !domainGiven then statusBadRequest
  else if !enabled then statusOK
  else if reviewedBlock then statusOK
  else match answer with
    | none => statusOK
    | some status => if 500 ≤ status then statusOK else status

/-- `loadDeviceLifecycleContext`, which takes any error for a device that is not there. -/
def deviceFound (db : Database) (faults : Faults) (identity : Identity) : Bool :=
  match first faults .devices db.devices
      fun device => device.id == identity.deviceID && device.orgID == identity.orgID with
  | .ok _ => true
  | .error _ => false

/-- `ReportDeviceConnected` and `ReportDeviceDisconnected`. -/
def reportLifecycle (db : Database) (faults : Faults) (identity : Identity) : Status :=
  if deviceFound db faults identity then statusOK else statusNotFound

def User.approves (env : Primitives) (orgID : UUID) (email : String) (user : User) : Bool :=
  env.lower user.email == env.lower (env.trimSpace email) &&
    user.orgID == orgID && user.active && user.role == .orgAdmin

def authorizeUninstall (env : Primitives) (db : Database) (faults : Faults)
    (identity : Identity) (email password : String) : Status :=
  if email = "" ∨ password = "" then statusBadRequest
  else if !deviceFound db faults identity then statusNotFound
  else match first faults .users db.users (·.approves env identity.orgID email) with
    | .error _ => statusUnauthorized
    | .ok admin =>
      if env.compareHashAndPassword admin.passwordHash password then statusOK
      else statusUnauthorized

def Request.respond (env : Primitives) (db : Database) (faults : Faults)
    (identity : Identity) : Request → Status
  | .heartbeat => statusOK
  | .agentVersion published => if published then statusOK else statusNoContent
  | .getConfig => statusOK
  | .getRules encoded unchanged =>
    if !encoded then statusInternalServerError
    else if unchanged then statusNotModified else statusOK
  | .policyPublicKey => statusOK
  | .reportActivity bodyValid kept recorded => Agent.reportActivity bodyValid kept recorded
  | .scanFile read => if read then statusOK else statusBadRequest
  | .scanHash hashValid => if hashValid then statusOK else statusBadRequest
  | .reportMITMRefusal bodyValid hostname =>
    if bodyValid && hostname then statusOK else statusBadRequest
  | .createScanJob sizeValid slotFree spooled => Agent.createScanJob sizeValid slotFree spooled
  | .uploadScanJobPart found offsetValid accepting part =>
    Agent.uploadScanJobPart found offsetValid accepting part
  | .completeScanJob found uploading complete => Agent.completeScanJob found uploading complete
  | .getScanJob found => if found then statusOK else statusNotFound
  | .getAppControl => statusOK
  | .reportAppBlock bodyValid recorded => reportDeduped bodyValid recorded
  | .reportBrowserExtension bodyValid recorded => reportDeduped bodyValid recorded
  | .reportInventory bodyValid => if bodyValid then statusOK else statusBadRequest
  | .startSession resolved => Agent.startSession resolved
  | .endSession bodyValid idValid resolved updated =>
    Agent.endSession bodyValid idValid resolved updated
  | .uploadScreenshot upload => Agent.uploadScreenshot db faults identity.orgID upload
  | .scanDLP read => if read then statusOK else statusBadRequest
  | .getMITMConfig => Agent.getMITMConfig db faults identity.orgID
  | .getBranding => statusOK
  | .getCACert loaded => if loaded then statusOK else statusInternalServerError
  | .signCert bodyValid loaded issued => Agent.signCert bodyValid loaded issued
  | .threatLookup domainGiven => if domainGiven then statusOK else statusBadRequest
  | .casbAppControl domainGiven enabled reviewedBlock answer =>
    Agent.casbAppControl domainGiven enabled reviewedBlock answer
  | .reportOffline => statusOK
  | .deviceConnected => reportLifecycle db faults identity
  | .deviceDisconnected => reportLifecycle db faults identity
  | .authorizeUninstall _ email password =>
    Agent.authorizeUninstall env db faults identity email password

/-- `ReportInventory` checks the credentials through a handler that has no Redis client. -/
def Request.cache (server : Server) : Request → Option TokenCache
  | .reportInventory _ => none
  | _ => server.rdb

def Request.limited : Request → Bool
  | .authorizeUninstall rateLimited _ _ => rateLimited
  | _ => false

def Request.status (env : Primitives) (server : Server) (faults : Faults)
    (header : Authorization) (request : Request) : Status :=
  if request.limited then statusTooManyRequests
  else match authAgent env server.db (request.cache server) faults header with
    | .error status => status
    | .ok identity => request.respond env server.db faults identity

def Request.effect (env : Primitives) (server : Server) (faults : Faults)
    (header : Authorization) (request : Request) : Server :=
  if request.limited then server
  else match authAgent env server.db (request.cache server) faults header, request with
    | .ok identity, .authorizeUninstall _ email password =>
      let remembered := rememberToken env faults server header
      if Agent.authorizeUninstall env server.db faults identity email password =
          statusOK then
        revokeAgentToken faults remembered identity.deviceID
      else remembered
    | _, .reportInventory _ => server
    | _, _ => rememberToken env faults server header

end Aavishield.Agent
