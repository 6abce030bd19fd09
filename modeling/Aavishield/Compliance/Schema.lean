import Aavishield.Agent.TokenCache
import Aavishield.Auth.Credentials
import Aavishield.Lib.Deletions

/-!
# The tables of the control plane

What the tables that `AutoMigrate` keeps hold of identifiers, and of the columns by which an
organisation is purged and a credential is looked up.  There are no foreign keys: a row may go
on naming one that is gone.  `file_verdicts` has no identifiers and is left out.
-/

namespace Aavishield.Compliance

open Deletions (Store)

/-- The tables that `AutoMigrate` keeps. -/
inductive TableName where
  | organizations
  | users
  | userTeams
  | mfaRecoveryCodes
  | emailOTPs
  | refreshTokens
  | employeeRefreshTokens
  | passwordResetTokens
  | teams
  | employees
  | devices
  | policies
  | policyAssignments
  | domainRules
  | activityEvents
  | aiChatSessions
  | aiChatMessages
  | auditLogs
  | urlCategories
  | enrollmentTokens
  | agentTokens
  | threatIntelDomains
  | domainRiskAssessments
  | orgCACerts
  | categoryDomains
  | categoryDomainExclusions
  | categoryExclusions
  | casbRules
  | managedApplications
  | appControlRules
  | installedApplications
  | enforcementSchedules
  | workSessions
  | screenshots
  | screenshotSettings
  | accessRequests
  | platformSettings
  | billingRecords
  | impersonationTokens
  | announcements
  | featureFlags
  | featureFlagOrgs
  | supportTickets
  | supportTicketMessages
  | supportTicketAttachments
  | inboundEmails
  | demoRequests
  | waitlistEntries
  | orgDataResidency
  | employeeNotifications
  | employeeNotificationStates
  | contentPosts
  | mitmRefusals
  deriving DecidableEq

inductive Column where
  | orgID
  | userID
  | employeeID
  | deviceID
  | ticketID
  | flagID
  | createdBy
  | createdByID
  | updatedBy
  | updatedByID
  | reviewedBy
  | assignedToID
  | authorID
  | targetUserID
  | impersonatorID
  /-- With what `target_type` calls it. -/
  | targetID
  | targetType
  /-- With what `resource` calls it. -/
  | resourceID
  | resource
  | action
  | changes
  | ipAddress
  | userAgent
  | name
  | slug
  | status
  | token
  | tokenHash
  | expiresAt
  | usedAt
  | used
  | revoked
  | revokedAt
  | deletedAt
  deriving DecidableEq

def TableName.columns : TableName → List Column
  | organizations => [.name, .slug, .deletedAt]
  | users => [.orgID, .status, .deletedAt]
  | employees => [.orgID, .userID, .status, .deletedAt]
  | devices => [.orgID, .employeeID]
  | userTeams => [.userID, .orgID]
  | mfaRecoveryCodes | emailOTPs => [.userID]
  | refreshTokens => [.userID, .tokenHash, .expiresAt, .revoked, .revokedAt]
  | employeeRefreshTokens => [.employeeID, .tokenHash, .expiresAt, .revoked, .revokedAt]
  | passwordResetTokens => [.userID, .employeeID, .tokenHash, .expiresAt, .used]
  | enrollmentTokens => [.orgID, .employeeID, .token, .usedAt, .expiresAt, .createdBy]
  | agentTokens => [.deviceID, .orgID, .employeeID, .tokenHash, .revoked]
  | impersonationTokens => [.targetUserID, .impersonatorID]
  | teams | billingRecords => [.orgID, .createdBy]
  | policies => [.orgID, .createdBy, .updatedBy]
  | policyAssignments => [.orgID, .targetType, .targetID]
  | domainRules | categoryDomains | categoryDomainExclusions | categoryExclusions | casbRules
  | orgCACerts | managedApplications | screenshotSettings => [.orgID]
  | activityEvents | workSessions | screenshots => [.orgID, .employeeID, .deviceID]
  | installedApplications => [.orgID, .deviceID, .employeeID]
  | mitmRefusals | enforcementSchedules => [.orgID, .deviceID]
  | appControlRules | employeeNotifications => [.orgID, .employeeID]
  | employeeNotificationStates => [.employeeID]
  | accessRequests => [.orgID, .employeeID, .reviewedBy]
  | aiChatSessions => [.orgID, .userID]
  | orgDataResidency => [.orgID, .updatedByID]
  | auditLogs =>
    [.orgID, .userID, .action, .resource, .resourceID, .changes, .ipAddress, .userAgent]
  | featureFlagOrgs => [.flagID, .orgID]
  | supportTickets => [.orgID, .createdByID, .assignedToID]
  | supportTicketMessages => [.ticketID, .authorID]
  | supportTicketAttachments | inboundEmails => [.ticketID]
  | announcements => [.createdBy]
  | contentPosts => [.createdBy, .updatedBy]
  | platformSettings | demoRequests | waitlistEntries => [.updatedBy]
  | aiChatMessages | urlCategories | threatIntelDomains | domainRiskAssessments
  | featureFlags => []

inductive Value where
  | id (id : UUID)
  | text (text : String)
  | instant (instant : ℤ)
  | flag (set : Bool)
  | object (entries : List (String × String))
  deriving DecidableEq

/-- A row; a column that it has no value for is `NULL`. -/
structure Row where
  id : UUID
  cells : List (Column × Value)
  deriving DecidableEq

namespace Row

variable (row : Row) (column : Column)

def uuid : Option UUID :=
  match row.cells.lookup column with
  | some (.id id) => some id
  | _ => none

def text : String :=
  match row.cells.lookup column with
  | some (.text text) => text
  | _ => ""

def instant : Option ℤ :=
  match row.cells.lookup column with
  | some (.instant instant) => some instant
  | _ => none

def flag : Bool := row.cells.lookup column == some (.flag true)

end Row

structure Database where
  rows : Store TableName Row
  distinct : ∀ table, ((rows table).map Row.id).Nodup
  known : ∀ table, ∀ row ∈ rows table, ∀ cell ∈ row.cells, cell.1 ∈ table.columns

namespace Database

variable {db : Database} {table : TableName} {row : Row}

def insertRow (rows : Store TableName Row) (table : TableName) (row : Row) :
    Store TableName Row :=
  if row.id ∈ (rows table).map Row.id then rows else Function.update rows table (row :: rows table)

theorem mem_insertRow {rows : Store TableName Row} {name : TableName} {other : Row} :
    other ∈ insertRow rows table row name ↔
      other ∈ rows name ∨ name = table ∧ other = row ∧ row.id ∉ (rows table).map Row.id := by
  unfold insertRow
  split_ifs with held
  · simp [held]
  · rcases eq_or_ne name table with rfl | elsewhere
    · simp [held, or_comm]
    · simp [elsewhere]

def insert (db : Database) (table : TableName) (row : Row)
    (fits : ∀ cell ∈ row.cells, cell.1 ∈ table.columns) : Database where
  rows := insertRow db.rows table row
  distinct name := by
    unfold insertRow
    split_ifs with held
    · exact db.distinct name
    · rcases eq_or_ne name table with rfl | elsewhere
      · simpa using ⟨by simpa using held, db.distinct name⟩
      · simpa [elsewhere] using db.distinct name
  known name other mem := by
    rcases mem_insertRow.mp mem with before | ⟨rfl, rfl, -⟩
    · exact db.known name other before
    · exact fits

section Insert

variable {fits : ∀ cell ∈ row.cells, cell.1 ∈ table.columns} {name : TableName} {other : Row}

theorem mem_insert : other ∈ (db.insert table row fits).rows name ↔
    other ∈ db.rows name ∨ name = table ∧ other = row ∧ row.id ∉ (db.rows table).map Row.id :=
  mem_insertRow

theorem rows_insert_of_ne (elsewhere : name ≠ table) :
    (db.insert table row fits).rows name = db.rows name := by
  simp only [insert, insertRow]
  split_ifs
  · rfl
  · exact Function.update_of_ne elsewhere _ _

end Insert

def restrict (db : Database) (rows : Store TableName Row)
    (fewer : ∀ table, (rows table).Sublist (db.rows table)) : Database where
  rows := rows
  distinct table := (db.distinct table).sublist ((fewer table).map Row.id)
  known table row mem := db.known table row ((fewer table).subset mem)

theorem eq_of_id_eq {other : Row} (rowMem : row ∈ db.rows table) (otherMem : other ∈ db.rows table)
    (same : row.id = other.id) : row = other :=
  List.inj_on_of_nodup_map (db.distinct table) rowMem otherMem same

theorem uuid_eq_none {column : Column} (rowMem : row ∈ db.rows table)
    (absent : column ∉ table.columns) : row.uuid column = none := by
  have missing : row.cells.lookup column = none := by
    rw [List.lookup_eq_none_iff]
    rintro ⟨other, value⟩ cellMem
    have there : other ∈ table.columns := db.known table row rowMem _ cellMem
    simpa using (ne_of_mem_of_not_mem there absent).symm
  simp [Row.uuid, missing]

end Database

inductive Entity where
  | organization
  | user
  | employee
  | device
  deriving DecidableEq

def Entity.table : Entity → TableName
  | organization => .organizations
  | user => .users
  | employee => .employees
  | device => .devices

def Entity.ofResource : String → Option Entity
  | "organization" => some organization
  | "employee" => some employee
  | "superadmin_team" => some user
  | _ => none

def Row.names (row : Row) : Column → Option Entity
  | .orgID => some .organization
  | .userID | .createdBy | .createdByID | .updatedBy | .updatedByID | .reviewedBy | .assignedToID
  | .authorID | .targetUserID | .impersonatorID => some .user
  | .employeeID => some .employee
  | .deviceID => some .device
  | .targetID => if row.text .targetType = "employee" then some .employee else none
  | .resourceID => Entity.ofResource (row.text .resource)
  | _ => none

def Database.Belongs (db : Database) (orgID : UUID) (entity : Entity) (id : UUID) : Prop :=
  match entity with
  | .organization => id = orgID
  | entity => ∃ row ∈ db.rows entity.table, row.id = id ∧ row.uuid .orgID = some orgID

inductive Database.RefersTo (db : Database) (orgID : UUID) (table : TableName) (row : Row) : Prop where
  | itself (isOrganization : table = .organizations) (same : row.id = orgID)
  | naming (column : Column) (entity : Entity) (id : UUID) (names : row.names column = some entity)
      (value : row.uuid column = some id) (belongs : db.Belongs orgID entity id)

end Aavishield.Compliance
