import Aavishield.Compliance.Schema

/-!
# The purge of an organisation

`Purge` deletes by a list of tables, in one transaction.  It looks neither at how a statement
ends nor at how the transaction does.  What the endpoints that take a credential look up
before they accept it is here as well.
-/

namespace Aavishield.Compliance

open Auth (Claims PortalIdentity Rejection Token)
open Credentials.Database (withinRotationGrace)
open Deletions (Deletion Ordered Store)
open Text
open TokenCache (CacheKey CachedAgentToken)

/-- What a purge takes from libraries. -/
structure Primitives where
  parseUUID : String → Option UUID
  readUUID : String → Option UUID
  hashRefreshToken : String → String
  agentKeyHash : String → String

/-- The tables, and the credentials that are checked without them. -/
structure World where
  db : Database
  now : ℤ
  issued : List Token
  agentCache : CacheKey → Option CachedAgentToken

def ofOrg (orgID : UUID) (table : TableName) : Deletion TableName Row where
  table := table
  selects _ row := row.uuid .orgID == some orgID
  reads := []
  readsOnly _ _ _ := rfl

def itself (orgID : UUID) (table : TableName) : Deletion TableName Row where
  table := table
  selects _ row := row.id == orgID
  reads := []
  readsOnly _ _ _ := rfl

def ofFlags (orgID : UUID) (table : TableName) : Deletion TableName Row where
  table := table
  selects store row :=
    (store .featureFlags).any (fun flag => row.uuid .flagID == some flag.id) &&
      row.uuid .orgID == some orgID
  reads := [.featureFlags]
  readsOnly _ _ same := by rw [same _ List.mem_cons_self]

def ofTickets (orgID : UUID) (table : TableName) : Deletion TableName Row where
  table := table
  selects store row := (store .supportTickets).any fun ticket =>
    ticket.uuid .orgID == some orgID && row.uuid .ticketID == some ticket.id
  reads := [.supportTickets]
  readsOnly _ _ same := by rw [same _ List.mem_cons_self]

/-- The statements of `Purge`. -/
def deletions (orgID : UUID) : List (Deletion TableName Row) :=
  [ofOrg orgID .users, ofOrg orgID .employees, ofOrg orgID .devices, ofOrg orgID .policies,
    ofOrg orgID .domainRules, ofOrg orgID .casbRules, ofOrg orgID .activityEvents,
    ofOrg orgID .screenshots, ofOrg orgID .workSessions, ofOrg orgID .orgDataResidency,
    ofOrg orgID .billingRecords, ofFlags orgID .featureFlagOrgs,
    ofTickets orgID .supportTicketAttachments, ofTickets orgID .supportTicketMessages,
    ofOrg orgID .supportTickets, itself orgID .organizations]

theorem ordered_deletions (orgID : UUID) : Ordered (deletions orgID) := by
  simp [deletions, Ordered, ofOrg, itself, ofFlags, ofTickets]

structure PurgeRequest where
  id : String
  /-- `currentUserID`. -/
  userID : Option UUID
  /-- What `ShouldBindJSON` makes of the body; the text must not be empty. -/
  confirm : Except String String
  clientIP : String
  userAgent : String

/-- `writeAudit`, of the purge. -/
def purgeEntry (request : PurgeRequest) (org : Row) (id : UUID) : Row where
  id := id
  cells :=
    (request.userID.map fun userID => (Column.userID, Value.id userID)).toList ++
      [(.action, .text "purge"), (.resource, .text "organization"), (.resourceID, .id org.id),
        (.changes, .object [("org_name", org.text .name), ("org_slug", org.text .slug)]),
        (.ipAddress, .text request.clientIP), (.userAgent, .text request.userAgent)]

theorem purgeEntry_fits (request : PurgeRequest) (org : Row) (id : UUID) :
    ∀ cell ∈ (purgeEntry request org id).cells, cell.1 ∈ TableName.auditLogs.columns := by
  cases actor : request.userID with
  | none | some userID => simp [purgeEntry, actor, TableName.columns]

/-- The organization of a request, if it may be purged. -/
def purgeable (env : Primitives) (request : PurgeRequest) (db : Database) :
    Except Rejection Row :=
  match env.parseUUID request.id with
  | none => .error ⟨400, "bad organization id", none⟩
  | some orgID =>
    match (db.rows .organizations).find? fun row => row.id = orgID with
    | none => .error ⟨404, "Organization not found", none⟩
    | some org =>
      if org.instant .deletedAt = none then
        .error ⟨409, "Deactivate this organization first (soft-delete) before " ++
          "permanently purging it", none⟩
      else
        match request.confirm with
        | .error text => .error ⟨400, text, none⟩
        | .ok confirm =>
          if confirm = org.text .slug then .ok org
          else .error ⟨400, "Confirmation text must exactly match the organization's slug: " ++
            org.text .slug, none⟩

/-- `Purge`, with an identifier for its audit entry, and the table whose deletion fails. -/
def purge (env : Primitives) (request : PurgeRequest) (db : Database) (entryID : UUID)
    (failing : Option TableName) : Database × Except Rejection String :=
  match purgeable env request db with
  | .error rejection => (db, .error rejection)
  | .ok org =>
    let audited := db.insert .auditLogs (purgeEntry request org entryID)
      (purgeEntry_fits request org entryID)
    let fails table := failing == some table
    -- The function of the transaction returns nil, whatever its statements did.
    let left := Deletions.transact fails (deletions org.id) audited.rows
    (audited.restrict left fun _ => Deletions.transact_sublist,
      .ok "Organization permanently purged")

namespace World

variable (world : World) (env : Primitives)

def findSession (table : TableName) (token : String) : Except Rejection Row :=
  match (world.db.rows table).find? fun row =>
    row.text .tokenHash = env.hashRefreshToken token ∧
      (row.instant .expiresAt).any fun expiresAt => world.now < expiresAt with
  | none => .error ⟨401, "Invalid or expired refresh token", none⟩
  | some row =>
    if row.flag .revoked && !withinRotationGrace world.now (row.instant .revokedAt) then
      .error ⟨401, "Invalid or expired refresh token", none⟩
    else .ok row

/-- `Refresh` of the dashboard, up to the user whom the new tokens are for. -/
def refresh (token : String) : Except Rejection Row := do
  let row ← world.findSession env .refreshTokens token
  match (world.db.rows .users).find? fun user =>
    row.uuid .userID = some user.id ∧ user.instant .deletedAt = none with
  | none => .error ⟨401, "User not found", none⟩
  | some user =>
    if user.text .status = "active" then .ok user else .error ⟨403, "Account suspended", none⟩

def portalRefresh (token : String) : Except Rejection Row := do
  let row ← world.findSession env .employeeRefreshTokens token
  match (world.db.rows .employees).find? fun employee =>
    row.uuid .employeeID = some employee.id ∧ employee.text .status = "active" ∧
      employee.instant .deletedAt = none with
  | none => .error ⟨401, "Employee account is no longer active", none⟩
  | some employee => .ok employee

/-- `ResetPassword` of the dashboard or the portal, up to the row of the token. -/
def resetPassword (owner : Column) (token : String) : Except Rejection Row :=
  match (world.db.rows .passwordResetTokens).find? fun row =>
    row.text .tokenHash = env.hashRefreshToken token ∧ row.flag .used = false ∧
      ((row.instant .expiresAt).any fun expiresAt => world.now < expiresAt) ∧
        (row.uuid owner).isSome with
  | none => .error ⟨400, "Invalid or expired reset link", none⟩
  | some row => .ok row

def enroll (token : String) : Except Rejection Row :=
  match (world.db.rows .enrollmentTokens).find? fun row =>
    row.text .token = token ∧ row.instant .usedAt = none ∧
      (row.instant .expiresAt).any fun expiresAt => world.now < expiresAt with
  | none => .error ⟨401, "Invalid or expired enrollment token", none⟩
  | some row => .ok row

/-- What the agent's key stands for, from the cache or from `agent_tokens`. -/
def agentToken (deviceID keyHash : String) : Option CachedAgentToken :=
  match world.agentCache (deviceID, keyHash) with
  | some cached => some cached
  | none =>
    let found := (world.db.rows .agentTokens).find? fun row =>
      (row.uuid .deviceID).isSome ∧ row.uuid .deviceID = env.readUUID deviceID ∧
        row.text .tokenHash = keyHash ∧ row.flag .revoked = false
    found.bind fun row => (row.uuid .orgID).map fun orgID => ⟨orgID, row.uuid .employeeID⟩

def authAgent (header : List Char) : Except Rejection (UUID × CachedAgentToken) :=
  if header = [] then .error ⟨401, "Authorization required", none⟩
  else
    match splitOnce ' ' header with
    | none => .error ⟨401, "Expected Bearer token", none⟩
    | some (scheme, creds) =>
      if scheme ≠ "Bearer".toList then .error ⟨401, "Expected Bearer token", none⟩
      else
        match splitOnce ':' creds with
        | none | some ([], _) => .error ⟨401, "Token format must be device_id:agent_key", none⟩
        | some (device, agentKey) =>
          let deviceID := String.ofList device
          let keyHash := env.agentKeyHash (String.ofList agentKey)
          match world.agentToken env deviceID keyHash with
          | none => .error ⟨401, "Invalid or revoked agent token", none⟩
          | some token => .ok ((env.parseUUID deviceID).getD UUID.zero, token)

section Lookups

variable {world env} {token : String} {row : Row} {agent : UUID × CachedAgentToken}

theorem mem_of_refresh (accepted : world.refresh env token = .ok row) :
    row ∈ world.db.rows .users := by
  unfold refresh at accepted
  cases session : world.findSession env .refreshTokens token with
  | error rejection =>
    rw [session] at accepted
    cases accepted
  | ok found =>
    simp only [session, bind, Except.bind] at accepted
    split at accepted
    · cases accepted
    · rename_i user look
      split_ifs at accepted
      cases accepted
      exact List.mem_of_find?_eq_some look

theorem mem_of_portalRefresh (accepted : world.portalRefresh env token = .ok row) :
    row ∈ world.db.rows .employees := by
  unfold portalRefresh at accepted
  cases session : world.findSession env .employeeRefreshTokens token with
  | error rejection =>
    rw [session] at accepted
    cases accepted
  | ok found =>
    simp only [session, bind, Except.bind] at accepted
    split at accepted
    · cases accepted
    · rename_i employee look
      cases accepted
      exact List.mem_of_find?_eq_some look

theorem mem_of_resetPassword {owner : Column}
    (accepted : world.resetPassword env owner token = .ok row) :
    row ∈ world.db.rows .passwordResetTokens := by
  unfold resetPassword at accepted
  split at accepted
  · cases accepted
  · rename_i found look
    cases accepted
    exact List.mem_of_find?_eq_some look

theorem mem_of_enroll (accepted : world.enroll token = .ok row) :
    row ∈ world.db.rows .enrollmentTokens := by
  unfold enroll at accepted
  split at accepted
  · cases accepted
  · rename_i found look
    cases accepted
    exact List.mem_of_find?_eq_some look

theorem agentToken_cases {deviceID keyHash : String} {found : CachedAgentToken}
    (look : world.agentToken env deviceID keyHash = some found) :
    world.agentCache (deviceID, keyHash) = some found ∨
      ∃ row ∈ world.db.rows .agentTokens, row.uuid .orgID = some found.orgID := by
  unfold agentToken at look
  split at look
  · rename_i cached hit
    cases look
    exact .inl hit
  · right
    rcases Option.bind_eq_some_iff.mp look with ⟨row, first, made⟩
    rcases Option.map_eq_some_iff.mp made with ⟨orgID, owner, rfl⟩
    exact ⟨row, List.mem_of_find?_eq_some first, owner⟩

theorem token_of_authAgent {header : List Char}
    (accepted : world.authAgent env header = .ok agent) :
    ∃ device agentKey, device ≠ [] ∧ ':' ∉ device ∧ world.agentToken env
      (String.ofList device) (env.agentKeyHash agentKey) = some agent.2 := by
  unfold authAgent at accepted
  split_ifs at accepted
  split at accepted
  · cases accepted
  · rename_i scheme creds _
    split_ifs at accepted
    split at accepted
    · cases accepted
    · cases accepted
    · rename_i device agentKey nonempty parted
      simp only at accepted
      split at accepted
      · cases accepted
      · rename_i token look
        cases accepted
        refine ⟨device, String.ofList agentKey, ?_, not_mem_of_splitOnce parted, look⟩
        rintro rfl
        exact nonempty rfl

theorem authAgent_of_token {device : List Char} {agentKey : String} {found : CachedAgentToken}
    (nonempty : device ≠ []) (noColon : ':' ∉ device)
    (look : world.agentToken env (String.ofList device)
      (env.agentKeyHash agentKey) = some found) :
    world.authAgent env ("Bearer".toList ++ ' ' :: (device ++ ':' :: agentKey.toList)) =
      .ok ((env.parseUUID (String.ofList device)).getD UUID.zero, found) := by
  rcases List.exists_cons_of_ne_nil nonempty with ⟨letter, rest, rfl⟩
  have scheme : splitOnce ' ' ("Bearer".toList ++ ' ' :: (letter :: rest ++ ':' :: agentKey.toList)) =
      some ("Bearer".toList, letter :: rest ++ ':' :: agentKey.toList) :=
    splitOnce_append (by decide) _
  have creds : splitOnce ':' (letter :: rest ++ ':' :: agentKey.toList) =
      some (letter :: rest, agentKey.toList) := splitOnce_append noColon _
  unfold authAgent
  rw [if_neg (by simp), scheme]
  simp only [ne_eq, not_true_eq_false, if_false, creds, String.ofList_toList, look]

end Lookups

end World

end Aavishield.Compliance
