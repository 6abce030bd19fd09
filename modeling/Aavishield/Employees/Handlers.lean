import Aavishield.Dataplane.Tables
import Aavishield.Lib.Text
import Mathlib.Data.List.Sort

/-!
# The employee endpoints

The endpoints under `/employees` that a manager may call.  Every query names the caller's
organisation; the list alone is narrowed to the teams that the caller is limited to.
-/

namespace Aavishield.Employees

open Dataplane (ActivityEvent HasID Table)
open Text

structure Team where
  id : UUID
  orgID : UUID
  name : String
  deleted : Bool
  deriving DecidableEq

/-- A row of `employees`; `BeforeCreate` gives each one an identifier. -/
structure Employee where
  id : UUID
  orgID : UUID
  firstName : String
  lastName : String
  email : String
  phone : String
  department : String
  jobTitle : String
  employeeID : Option UUID
  teamID : Option UUID
  status : String
  riskScore : ℤ
  avatarURL : String
  portalPasswordHash : String
  createdAt : Time
  deleted : Bool
  identified : id ≠ UUID.zero
  deriving DecidableEq

instance : HasID Employee := ⟨Employee.id⟩

structure Device where
  id : UUID
  employeeID : Option UUID
  hostname : String
  status : String
  deleted : Bool
  deriving DecidableEq

structure EnrollmentToken where
  id : UUID
  orgID : UUID
  employeeID : Option UUID
  token : String
  usedAt : Option Time
  expiresAt : Time
  createdAt : Time
  deriving DecidableEq

structure UserTeam where
  userID : UUID
  teamID : UUID

structure Updates where
  firstName : String
  lastName : String
  email : String
  phone : String
  department : String
  jobTitle : String
  teamID : Option UUID
  avatarURL : String
  employeeID : Option UUID
  status : Option String

structure AuditLog where
  orgID : UUID
  userID : UUID
  action : String
  resource : String
  resourceID : UUID
  changes : Option Updates

structure Database where
  now : Time
  teams : List Team
  userTeams : List UserTeam
  employees : Table Employee
  devices : List Device
  enrollmentTokens : List EnrollmentToken
  /-- The events of the caller's organisation and of others, in whichever store they are. -/
  events : List ActivityEvent
  auditLogs : List AuditLog

/-- Who asks. -/
structure Caller where
  userID : UUID
  orgID : UUID
  role : String

structure EmployeeRequest where
  firstName : String
  lastName : String
  email : String
  phone : String
  department : String
  jobTitle : String
  employeeID : String
  teamID : String
  status : String
  avatarURL : String

/-- The parameters of the list; `Atoi` has read the numbers. -/
structure ListQuery where
  page : ℤ
  limit : ℤ
  search : String
  teamID : String
  department : String
  status : String

/-- A body comes as `ShouldBindJSON` reads it, or with its error. -/
inductive Request where
  | list (query : ListQuery)
  | create (body : Except String EmployeeRequest)
  | departments
  | exportCSV
  | importCSV (records : Except (ℕ × String) (List (List String)))
  | bulkDelete (body : Except String (List UUID))
  | get (id : String)
  | update (id : String) (body : Except String EmployeeRequest)
  | delete (id : String)
  | getActivity (id : String) (page limit : ℤ)
  | setPortalPassword (id : String)
  | listEnrollmentTokens (id : String)

/-- What the handlers take from libraries. -/
structure Primitives where
  parseUUID : String → Option UUID
  readUUID : String → Option UUID
  toLower : String → String
  lower : String → String
  /-- `LIKE`, of a text and a pattern. -/
  like : String → String → Bool
  /-- `%.2f`. -/
  formatScore : ℤ → String
  /-- `time.RFC3339`. -/
  formatTime : Time → String
  /-- The order in which `DISTINCT` leaves values. -/
  arrange : List String → List String
  arrange_perm : ∀ values, (arrange values).Perm values

inductive StoreError where
  | unavailable
  | other

structure Surroundings where
  fresh : ℕ → { id : UUID // id ≠ UUID.zero }
  works : ℕ → Bool
  /-- `bcrypt`, of a password that is drawn. -/
  hash : Option String
  store : Except StoreError Unit
  counts : Except StoreError Unit
  finds : Except StoreError Unit

structure Shown where
  employee : Employee
  team : Option Team
  devices : List Device
  deriving DecidableEq

inductive Body where
  | error (text : String)
  | message (text : String)
  | page (data : Option (List Shown)) (total : ℕ) (page limit pages : ℤ)
  | employee (shown : Shown)
  | profile (shown : Shown) (activityCount : ℤ)
  | departments (names : List String)
  | csv (lines : List (List String))
  | imported (created skipped total : ℕ)
  | deleted (count : ℕ)
  | activity (events : List ActivityEvent) (total : ℕ) (page limit : ℤ)
  | passwordSent (employee email : String)
  | tokens (tokens : List EnrollmentToken)

structure Response where
  status : ℕ
  body : Body

def Response.failed (status : ℕ) (text : String) : Response := ⟨status, .error text⟩

namespace Database

variable (db : Database) (env : Primitives) (around : Surroundings) (caller : Caller)

/-- `scopedTeamIDs`: the teams that the caller is limited to, if to any. -/
def scopedTeamIDs : Option (List UUID) :=
  if caller.role ≠ "manager" then none
  else
    match db.userTeams.filter fun link => link.userID == caller.userID with
    | [] => none
    | links => some (links.map (·.teamID))

/-- `applyTeamScope`. -/
def inScope (employee : Employee) : Bool :=
  match db.scopedTeamIDs caller with
  | none => true
  | some ids => employee.teamID.any fun team => decide (team ∈ ids)

/-- `org_id = ?`, of rows that are not soft-deleted. -/
def ofOrg : List Employee :=
  db.employees.rows.filter fun employee => employee.orgID == caller.orgID && !employee.deleted

/-- `id = ? AND org_id = ?`, of the text of an identifier. -/
def findEmployee (id : String) : Option Employee :=
  (env.readUUID id).bind fun read =>
    (db.ofOrg caller).find? fun employee => employee.id == read

def preloadTeam (employee : Employee) : Shown where
  employee := { employee with portalPasswordHash := "" }
  team := employee.teamID.bind fun team => db.teams.find? fun row => row.id == team && !row.deleted
  devices := []

def emailInUse (email : String) : Bool :=
  (db.ofOrg caller).any fun employee => employee.email == email

def logAudit (action : String) (resourceID : UUID) (changes : Option Updates) : Database :=
  { db with
    auditLogs := ⟨caller.orgID, caller.userID, action, "employee", resourceID, changes⟩ ::
      db.auditLogs }

def rewrite (id : UUID) (set : Employee → Employee) (keeps : ∀ employee, (set employee).id = employee.id) :
    Database :=
  { db with
    employees := db.employees.update
      (fun employee => if employee.id = id then set employee else employee)
      (fun employee => by
        split
        · exact keeps employee
        · rfl) }

def userStatuses : List String := ["active", "inactive", "suspended", "pending"]

def listCondition (query : ListQuery) : Option (Employee → Bool) := do
  let pattern := "%" ++ env.toLower query.search ++ "%"
  let matchesSearch employee :=
    query.search == "" ||
      [employee.firstName ++ " " ++ employee.lastName, employee.email, employee.department,
        employee.jobTitle].any fun text => env.like (env.lower text) pattern
  let matchesTeam ←
    if query.teamID = "" then some fun _ : Employee => true
    else if query.teamID = "none" then some fun employee => employee.teamID.isNone
    else (env.readUUID query.teamID).map fun team employee => employee.teamID == some team
  let matchesStatus ←
    if query.status = "" then some fun _ : Employee => true
    else if query.status ∈ userStatuses then some fun employee => employee.status == query.status
    else none
  return fun employee =>
    matchesSearch employee && matchesTeam employee &&
      (query.department == "" || employee.department == query.department) && matchesStatus employee

def list (query : ListQuery) : Response :=
  let page := if query.page < 1 then 1 else query.page
  let limit := if query.limit < 1 ∨ 100 < query.limit then 20 else query.limit
  match listCondition env query with
  | none => ⟨200, .page none 0 page limit ((0 + limit - 1) / limit)⟩
  | some condition =>
    let found := ((db.ofOrg caller).filter (db.inScope caller)).filter condition
    let total := found.length
    let listed := ((found.insertionSort fun first second => second.createdAt ≤ first.createdAt).drop
      ((page - 1) * limit).toNat).take limit.toNat
    ⟨200, .page (some (listed.map db.preloadTeam)) total page limit ((total + limit - 1) / limit)⟩

/-- `provisionPortalPassword`, in the way of the write of that number. -/
def provisionPortalPassword (employee : Employee) (write : ℕ) : Option Database :=
  match around.hash with
  | none => none
  | some hash =>
    if around.works write then
      some (db.rewrite employee.id (fun row => { row with portalPasswordHash := hash })
        fun _ => rfl)
    else none

def optionalID (text : String) : Option UUID :=
  if text = "" then none else env.parseUUID text

/-- The row that `Create` makes; a badge that is no identifier is replaced by one that is drawn. -/
def newEmployee (request : EmployeeRequest) (team : UUID) : Employee where
  id := (around.fresh 0).val
  orgID := caller.orgID
  firstName := request.firstName
  lastName := request.lastName
  email := request.email
  phone := request.phone
  department := request.department
  jobTitle := request.jobTitle
  employeeID := some ((optionalID env request.employeeID).getD (around.fresh 1).val)
  teamID := some team
  status := if request.status = "" then "active" else request.status
  riskScore := 0
  avatarURL := request.avatarURL
  portalPasswordHash := ""
  createdAt := db.now
  deleted := false
  identified := (around.fresh 0).property

/-- `db.Create`; the database refuses a key that is there, and a status that it does not know. -/
def createEmployee (employee : Employee) (write : ℕ) : Option Database :=
  if around.works write ∧ ¬db.employees.Holds employee.id ∧ employee.status ∈ userStatuses then
    some { db with employees := db.employees.insert employee }
  else none

def create (body : Except String EmployeeRequest) : Database × Response :=
  match body with
  | .error text => (db, .failed 400 text)
  | .ok request =>
    if db.emailInUse caller request.email then
      (db, .failed 409 "Employee with this email already exists")
    else
      match env.parseUUID request.teamID with
      | none => (db, .failed 400 "Team is required")
      | some team =>
        if db.teams.all fun row => row.id != team || row.orgID != caller.orgID || row.deleted then
          (db, .failed 400 "Selected team does not exist")
        else
          let employee := db.newEmployee env around caller request team
          match db.createEmployee around employee 0 with
          | none => (db, .failed 500 "Failed to create employee")
          | some created =>
            let audited := created.logAudit caller "create" employee.id none
            let left := (audited.provisionPortalPassword around employee 1).getD audited
            (left, ⟨201, .employee (left.preloadTeam employee)⟩)

def get (id : String) : Response :=
  match db.findEmployee env caller id with
  | none => .failed 404 "Employee not found"
  | some employee =>
    let devices := db.devices.filter fun device =>
      device.employeeID == some employee.id && !device.deleted
    let recent := db.events.filter fun event =>
      event.orgID == employee.orgID && event.employeeID == some employee.id &&
        event.action != "allowed" && decide (db.now - 30 * 86400 * 10 ^ 9 ≤ event.timestamp)
    let activityCount : ℤ :=
      match around.store, around.counts with
      | .ok (), .ok () => recent.length
      | _, _ => -1
    ⟨200, .profile { db.preloadTeam employee with devices } activityCount⟩

def updatesOf (request : EmployeeRequest) : Updates where
  firstName := request.firstName
  lastName := request.lastName
  email := request.email
  phone := request.phone
  department := request.department
  jobTitle := request.jobTitle
  teamID := optionalID env request.teamID
  avatarURL := request.avatarURL
  employeeID := optionalID env request.employeeID
  status := if request.status = "" then none else some request.status

def applyUpdates (updates : Updates) (employee : Employee) : Employee :=
  { employee with
    firstName := updates.firstName
    lastName := updates.lastName
    email := updates.email
    phone := updates.phone
    department := updates.department
    jobTitle := updates.jobTitle
    teamID := updates.teamID
    avatarURL := updates.avatarURL
    employeeID := updates.employeeID <|> employee.employeeID
    status := updates.status.getD employee.status }

def update (id : String) (body : Except String EmployeeRequest) : Database × Response :=
  match db.findEmployee env caller id with
  | none => (db, .failed 404 "Employee not found")
  | some employee =>
    match body with
    | .error text => (db, .failed 400 text)
    | .ok request =>
      let taken := (db.ofOrg caller).any fun other =>
        other.email == request.email && other.id != employee.id
      if taken then (db, .failed 409 "Email already used by another employee")
      else
        let updates := updatesOf env request
        if around.works 0 ∧ ∀ status ∈ updates.status, status ∈ userStatuses then
          let left := (db.rewrite employee.id (applyUpdates updates) fun _ => rfl).logAudit caller "update"
            employee.id (some updates)
          (left, ⟨200, .employee (left.preloadTeam (applyUpdates updates employee))⟩)
        else (db, .failed 500 "Failed to update employee")

def delete (id : String) : Database × Response :=
  match db.findEmployee env caller id with
  | none => (db, .failed 404 "Employee not found")
  | some employee =>
    if around.works 0 then
      ((db.rewrite employee.id (fun row => { row with deleted := true }) fun _ => rfl).logAudit
        caller "delete" employee.id none, ⟨200, .message "Employee deleted successfully"⟩)
    else (db, .failed 500 "Failed to delete employee")

def bulkDelete (body : Except String (List UUID)) : Database × Response :=
  match body with
  | .error text => (db, .failed 400 text)
  | .ok ids =>
    let selects (employee : Employee) : Bool :=
      decide (employee.id ∈ ids) && employee.orgID == caller.orgID && !employee.deleted
    if around.works 0 then
      ({ db with
          employees := db.employees.update
            (fun employee => if selects employee then { employee with deleted := true } else employee)
            (fun employee => by split <;> rfl) },
        ⟨200, .deleted (db.employees.rows.filter selects).length⟩)
    else (db, ⟨200, .deleted 0⟩)

def cell (record : List String) (column : ℕ) : String :=
  String.ofList (trimSpace (record.getD column "").toList)

def importedEmployee (record : List String) (index : ℕ) : Employee where
  id := (around.fresh index).val
  orgID := caller.orgID
  firstName := cell record 0
  lastName := cell record 1
  email := cell record 2
  phone := cell record 3
  department := cell record 4
  jobTitle := cell record 5
  employeeID := none
  teamID := none
  status := "active"
  riskScore := 0
  avatarURL := ""
  portalPasswordHash := ""
  createdAt := db.now
  deleted := false
  identified := (around.fresh index).property

def blank (record : List String) : Bool := decide (record.length < 3) || cell record 2 == ""

def importRecord (record : List String) (index : ℕ) : Database × Bool :=
  if blank record || db.emailInUse caller (cell record 2) then (db, false)
  else
    match db.createEmployee around (db.importedEmployee around caller record index) index with
    | some created => (created, true)
    | none => (db, false)

def importRecords (db : Database) : List (List String) → ℕ → Database × ℕ
  | [], _ => (db, 0)
  | record :: rest, index =>
    let (after, isNew) := db.importRecord around caller record index
    let (left, created) := importRecords after rest (index + 1)
    (left, if isNew then created + 1 else created)

def importCSV (records : Except (ℕ × String) (List (List String))) : Database × Response :=
  match records with
  | .error (status, text) => (db, .failed status text)
  | .ok [] | .ok [_] => (db, .failed 400 "CSV must have header + at least one row")
  | .ok (_ :: records) =>
    let (left, created) := db.importRecords around caller records 0
    (left, ⟨200, .imported created (records.length - created) records.length⟩)

def exportCSV : Response :=
  let header := ["ID", "First Name", "Last Name", "Email", "Phone", "Department", "Job Title", "Team",
    "Status", "Risk Score", "Created At"]
  ⟨200, .csv (header :: (db.ofOrg caller).map fun employee =>
    [employee.id.text, employee.firstName, employee.lastName, employee.email, employee.phone,
      employee.department, employee.jobTitle, ((db.preloadTeam employee).team.map (·.name)).getD "",
      employee.status, env.formatScore employee.riskScore,
      env.formatTime employee.createdAt])⟩

def departments : Response :=
  let named := ((db.ofOrg caller).map (·.department)).filter fun department => department != ""
  ⟨200, .departments (env.arrange named.dedup)⟩

def respondStoreError : StoreError → Response
  | .unavailable => .failed 503 ("Your company's database or file storage can't be reached right " ++
      "now. Check its status under Settings → Data residency.")
  | .other => .failed 500 "Could not load this data"

def getActivity (id : String) (page limit : ℤ) : Response :=
  let page := if page < 1 then 1 else page
  let limit := if 100 < limit then 100 else if limit < 1 then 50 else limit
  match around.store with
  | .error failure => respondStoreError failure
  | .ok () =>
    match env.parseUUID id with
    | none => .failed 400 "Invalid employee id"
    | some employee =>
      let found := db.events.filter fun event =>
        event.orgID == caller.orgID && event.employeeID == some employee &&
          event.action != "allowed"
      match around.counts, around.finds with
      | .error failure, _ | .ok (), .error failure => respondStoreError failure
      | .ok (), .ok () =>
        let ordered := found.insertionSort fun first second =>
          second.timestamp ≤ first.timestamp
        ⟨200, .activity ((ordered.drop ((page - 1) * limit).toNat).take limit.toNat)
          found.length page limit⟩

def setPortalPassword (id : String) : Database × Response :=
  match db.findEmployee env caller id with
  | none => (db, .failed 404 "Employee not found")
  | some employee =>
    match db.provisionPortalPassword around employee 0 with
    | none => (db, .failed 500 "Failed to reset the portal password")
    | some left =>
      (left, ⟨200, .passwordSent (employee.firstName ++ " " ++ employee.lastName) employee.email⟩)

def listEnrollmentTokens (id : String) : Response :=
  let employee := (env.parseUUID id).getD UUID.zero
  let found := db.enrollmentTokens.filter fun token =>
    token.orgID == caller.orgID && token.employeeID == some employee
  ⟨200, .tokens (found.insertionSort fun first second => second.createdAt ≤ first.createdAt)⟩

def serve (request : Request) : Database × Response :=
  match request with
  | .list query => (db, db.list env caller query)
  | .create body => db.create env around caller body
  | .departments => (db, db.departments env caller)
  | .exportCSV => (db, db.exportCSV env caller)
  | .importCSV records => db.importCSV around caller records
  | .bulkDelete body => db.bulkDelete around caller body
  | .get id => (db, db.get env around caller id)
  | .update id body => db.update env around caller id body
  | .delete id => db.delete env around caller id
  | .getActivity id page limit => (db, db.getActivity env around caller id page limit)
  | .setPortalPassword id => db.setPortalPassword env around caller id
  | .listEnrollmentTokens id => (db, db.listEnrollmentTokens env caller id)

end Database

end Aavishield.Employees
