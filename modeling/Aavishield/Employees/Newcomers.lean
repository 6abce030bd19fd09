import Aavishield.Employees.TeamScope
import Mathlib.Data.Fintype.EquivFin

/-!
# Employees outside the teams, seen

A request that is not for employees of the teams is answered otherwise when one more employee is
in the organisation.
-/

namespace Aavishield.Employees

open Dataplane (ActivityEvent Table)
open Differences

variable {env : Primitives} {around : Surroundings} {caller : Caller} {teams : List UUID}
  {db : Database} {request : Request} {id : UUID} {employee : Employee}

def Database.alone (caller : Caller) (teams : List UUID) (db : Database) : Database :=
  { db with employees := db.employees.delete fun employee => !decide (InTeams caller teams employee) }

def Database.joined (caller : Caller) (teams : List UUID) (db : Database) (other : Employee)
    (tokens : List EnrollmentToken) (events : List ActivityEvent) : Database :=
  { db with
    employees := (db.alone caller teams).employees.insert other
    enrollmentTokens := tokens ++ db.enrollmentTokens
    events := events ++ db.events }

def newcomer (caller : Caller) (id : UUID) (identified : id ≠ UUID.zero) (email department : String) :
    Employee where
  id := id
  orgID := caller.orgID
  firstName := ""
  lastName := ""
  email := email
  phone := ""
  department := department
  jobTitle := ""
  employeeID := none
  teamID := none
  status := "active"
  riskScore := 0
  avatarURL := ""
  portalPasswordHash := ""
  createdAt := 0
  deleted := false
  identified := identified

variable {identified : id ≠ UUID.zero} {email department : String}

theorem newcomer_outside :
    ¬InTeams caller teams (newcomer caller id identified email department) := by
  simp [InTeams, newcomer]

theorem mem_alone : employee ∈ (db.alone caller teams).employees.rows ↔
    employee ∈ db.employees.rows ∧ InTeams caller teams employee := by
  simp [Database.alone]

theorem not_holds_alone (free : ¬Owns caller teams db id) :
    ¬(db.alone caller teams).employees.Holds id := by
  intro held
  rcases List.mem_map.mp held with ⟨employee, there, isID⟩
  exact free (.inr ⟨employee, (mem_alone.mp there).1, (mem_alone.mp there).2, isID⟩)

variable {tokens : List EnrollmentToken} {events : List ActivityEvent}

theorem rows_joined (free : ¬Owns caller teams db employee.id) :
    (db.joined caller teams employee tokens events).employees.rows =
      employee :: (db.alone caller teams).employees.rows := by
  have new := not_holds_alone free
  exact congrArg Table.rows (dif_neg new)

theorem sameBut_alone : SameBut (fun employee => ¬InTeams caller teams employee) db.employees.rows
    (db.alone caller teams).employees.rows := by
  apply SameBut.filter_left
  simp

theorem agree_alone : Agree caller teams db (db.alone caller teams) :=
  .outside sameBut_alone (.refl _) (.refl _) (.refl _)

theorem agree_joined
    (outside : ¬InTeams caller teams employee) (free : ¬Owns caller teams db employee.id)
    (ofEmployee : ∀ token ∈ tokens, token.employeeID = some employee.id)
    (ofEmployee' : ∀ event ∈ events, event.employeeID = some employee.id) :
    Agree caller teams db (db.joined caller teams employee tokens events) := by
  have rows := @rows_joined _ _ _ _ tokens events free
  have there : employee ∈ db.employees.rows ++
      (db.joined caller teams employee tokens events).employees.rows := by
    simp [rows]
  refine .outside ?_ (.refl _) (.prepend ?_ (.refl _)) (.prepend ?_ (.refl _))
  · exact rows ▸ .onRight outside sameBut_alone
  · intro token mem
    exact ⟨employee, there, outside, ofEmployee token mem⟩
  · intro event mem
    exact ⟨employee, there, outside, ofEmployee' event mem⟩

def smooth (id : UUID) (identified : id ≠ UUID.zero) : Surroundings where
  fresh _ := ⟨id, identified⟩
  works _ := true
  hash := some ""
  store := .ok ()
  counts := .ok ()
  finds := .ok ()

theorem ne_zero_of_free (free : ¬Owns caller teams db id) : id ≠ UUID.zero :=
  fun isZero => free (.inl isZero)

theorem ofOrg_joined
    (free : ¬Owns caller teams db employee.id) (ofOrg : employee.orgID = caller.orgID)
    (kept : employee.deleted = false) :
    (db.joined caller teams employee tokens events).ofOrg caller =
      employee :: (db.alone caller teams).ofOrg caller := by
  rw [Database.ofOrg, rows_joined free, List.filter_cons_of_pos]
  · rfl
  · simp [ofOrg, kept]

theorem Isolated.response_eq_attached (isolated : Isolated env caller teams db request)
    (free : ¬Owns caller teams db id) (identified : id ≠ UUID.zero) (email department : String)
    (tokens : List EnrollmentToken) (events : List ActivityEvent)
    (ofNewcomer : ∀ token ∈ tokens, token.employeeID = some id)
    (ofNewcomer' : ∀ event ∈ events, event.employeeID = some id) (around : Surroundings) :
    ((db.alone caller teams).serve env around caller request).2 =
      ((db.joined caller teams (newcomer caller id identified email department) tokens events).serve
        env around caller request).2 := by
  have outside : ¬InTeams caller teams (newcomer caller id identified email department) :=
    newcomer_outside
  have agree : Agree caller teams db (db.joined caller teams _ tokens events) :=
    agree_joined outside free ofNewcomer ofNewcomer'
  exact (isolated.hidden around _ agree_alone).trans (isolated.hidden around _ agree).symm

theorem Isolated.response_eq (isolated : Isolated env caller teams db request)
    (free : ¬Owns caller teams db id) (identified : id ≠ UUID.zero) (email department : String)
    (around : Surroundings) :
    ((db.alone caller teams).serve env around caller request).2 =
      ((db.joined caller teams (newcomer caller id identified email department) [] []).serve
        env around caller request).2 :=
  isolated.response_eq_attached free identified email department [] [] (by simp) (by simp) around

variable {text : String}

theorem findEmployee_alone (free : ¬Owns caller teams db id)
    (isRead : env.readUUID text = some id) :
    (db.alone caller teams).findEmployee env caller text = none := by
  cases found : (db.alone caller teams).findEmployee env caller text with
  | none => rfl
  | some employee =>
    rcases findEmployee_eq_some found with ⟨sameRead, there⟩
    obtain rfl : id = employee.id := Option.some.inj (isRead.symm.trans sameRead)
    exact absurd (Table.holds_of_mem (mem_ofOrg.mp there).1) (not_holds_alone free)

theorem findEmployee_joined
    (free : ¬Owns caller teams db id) (isRead : env.readUUID text = some id) :
    (db.joined caller teams (newcomer caller id identified email department) [] []).findEmployee
      env caller text = some (newcomer caller id identified email department) := by
  rw [Database.findEmployee, isRead, Option.bind_some, ofOrg_joined free rfl rfl,
    List.find?_cons_of_pos]
  simp [newcomer]

theorem get_not_found : (db.get env around caller text).status = 404 ↔
    db.findEmployee env caller text = none := by
  cases found : db.findEmployee env caller text <;>
    simp [Database.get, found, Response.failed]

theorem delete_not_found : (db.delete env around caller text).2.status = 404 ↔
    db.findEmployee env caller text = none := by
  cases found : db.findEmployee env caller text <;> cases works : around.works 0 <;>
    simp [Database.delete, found, works, Response.failed]

theorem setPortalPassword_not_found :
    (db.setPortalPassword env around caller text).2.status = 404 ↔
      db.findEmployee env caller text = none := by
  cases found : db.findEmployee env caller text with
  | none => simp [Database.setPortalPassword, found, Response.failed]
  | some employee =>
    cases provisioned : db.provisionPortalPassword around employee 0 <;>
      simp [Database.setPortalPassword, found, provisioned, Response.failed]

theorem update_not_found {body : Except String EmployeeRequest} :
    (db.update env around caller text body).2.status = 404 ↔
      db.findEmployee env caller text = none := by
  cases found : db.findEmployee env caller text with
  | none => simp [Database.update, found, Response.failed]
  | some employee =>
    cases body with
    | error unread => simp [Database.update, found, Response.failed]
    | ok request =>
      simp only [Database.update, found]
      split_ifs <;> simp [Response.failed]

theorem owns_of_isolated (isolated : Isolated env caller teams db request)
    (notFound : ∀ around (db : Database), (db.serve env around caller request).2.status = 404 ↔
      db.findEmployee env caller text = none) (read : UUID)
    (isRead : env.readUUID text = some read) : Owns caller teams db read := by
  by_contra free
  have identified := ne_zero_of_free free
  have same := congrArg Response.status
    (isolated.response_eq free identified "" "" (smooth read identified))
  have none := (notFound _ _).mp (same.symm.trans
    ((notFound _ _).mpr (findEmployee_alone free isRead)))
  rw [findEmployee_joined free isRead] at none
  contradiction

theorem emailInUse_joined (free : ¬Owns caller teams db id) :
    (db.joined caller teams (newcomer caller id identified email department) [] []).emailInUse caller
      email = true := by
  apply emailInUse_iff.mpr
  rw [ofOrg_joined free rfl rfl]
  exact ⟨_, List.mem_cons_self, rfl⟩

theorem mem_ofOrg_alone : employee ∈ (db.alone caller teams).ofOrg caller ↔
    employee ∈ db.ofOrg caller ∧ InTeams caller teams employee := by
  simp only [mem_ofOrg, mem_alone]
  tauto

theorem used_of_emailInUse_alone {email : String}
    (inUse : (db.alone caller teams).emailInUse caller email = true) :
    ∃ other ∈ db.ofOrg caller, InTeams caller teams other ∧ other.email = email := by
  rcases emailInUse_iff.mp inUse with ⟨other, there, sameEmail⟩
  rcases mem_ofOrg_alone.mp there with ⟨isThere, inTeams⟩
  exact ⟨other, isThere, inTeams, sameEmail⟩

theorem create_conflict {request : EmployeeRequest} :
    (db.create env around caller (.ok request)).2.status = 409 ↔
      db.emailInUse caller request.email = true := by
  simp only [Database.create]
  split_ifs with inUse
  · exact iff_of_true rfl inUse
  · refine iff_of_false ?_ inUse
    cases env.parseUUID request.teamID with
    | none => simp [Response.failed]
    | some team =>
      dsimp only
      split_ifs
      · simp [Response.failed]
      · split <;> simp [Response.failed]

theorem used_of_create {request : EmployeeRequest}
    (isolated : Isolated env caller teams db (.create (.ok request)))
    (free : ¬Owns caller teams db id) :
    ∃ other ∈ db.ofOrg caller, InTeams caller teams other ∧ other.email = request.email := by
  have identified := ne_zero_of_free free
  have same := congrArg Response.status
    (isolated.response_eq free identified request.email "" (smooth id identified))
  exact used_of_emailInUse_alone
    (create_conflict.mp (same.trans (create_conflict.mpr (emailInUse_joined free))))

theorem update_conflict {request : EmployeeRequest}
    (found : db.findEmployee env caller text = some employee) :
    (db.update env around caller text (.ok request)).2.status = 409 ↔
      ∃ other ∈ db.ofOrg caller, other.email = request.email ∧ other.id ≠ employee.id := by
  have isTaken : ((db.ofOrg caller).any fun other =>
      other.email == request.email && other.id != employee.id) = true ↔
        ∃ other ∈ db.ofOrg caller, other.email = request.email ∧ other.id ≠ employee.id := by
    simp
  rw [← isTaken]
  simp only [Database.update, found]
  split_ifs with taken
  · exact iff_of_true rfl taken
  · exact iff_of_false (by simp) taken
  · exact iff_of_false (by simp [Response.failed]) taken

theorem used_of_update {request : EmployeeRequest}
    (isolated : Isolated env caller teams db (.update text (.ok request)))
    (found : db.findEmployee env caller text = some employee)
    (owns : ∀ read, env.readUUID text = some read → Owns caller teams db read)
    (free : ¬Owns caller teams db id) :
    ∃ other ∈ db.ofOrg caller, InTeams caller teams other ∧ other.email = request.email ∧
      other.id ≠ employee.id := by
  have identified := ne_zero_of_free free
  have isOther : id ≠ employee.id := by
    rintro rfl
    exact free (owns _ (findEmployee_eq_some found).1)
  have same := congrArg Response.status
    (isolated.response_eq free identified request.email "" (smooth id identified))
  have outside : ¬InTeams caller teams (newcomer caller id identified request.email "") :=
    newcomer_outside
  have agree : Agree caller teams db (db.joined caller teams _ [] []) :=
    agree_joined outside free (by simp) (by simp)
  have foundAlone := (agree_alone.findEmployee_eq owns).trans found
  have foundJoined := (agree.findEmployee_eq owns).trans found
  have conflicts : ∃ other ∈ (db.joined caller teams
      (newcomer caller id identified request.email "") [] []).ofOrg caller,
        other.email = request.email ∧ other.id ≠ employee.id := by
    rw [ofOrg_joined free rfl rfl]
    exact ⟨_, List.mem_cons_self, rfl, isOther⟩
  rcases (update_conflict foundAlone).mp (same.trans ((update_conflict foundJoined).mpr conflicts))
    with ⟨other, there, holds⟩
  rcases mem_ofOrg_alone.mp there with ⟨isThere, inTeams⟩
  exact ⟨other, isThere, inTeams, holds⟩

variable {record : List String}

theorem importRecord_eq_self {index : ℕ} {after : Database}
    (imported : db.importRecord around caller record index = (after, false)) : after = db := by
  unfold Database.importRecord at imported
  split_ifs at imported
  · exact (Prod.mk.inj imported).1.symm
  · split at imported
    · simp at imported
    · exact (Prod.mk.inj imported).1.symm

theorem importRecord_new (identified : id ≠ UUID.zero) (index : ℕ)
    (new : ¬db.employees.Holds id) (full : Database.blank record = false)
    (unused : db.emailInUse caller (Database.cell record 2) = false) :
    (db.importRecord (smooth id identified) caller record index).2 = true := by
  simp [Database.importRecord, full, unused, Database.createEmployee, Database.importedEmployee, smooth,
    new, Database.userStatuses]

theorem importRecords_pos (identified : id ≠ UUID.zero) {records : List (List String)}
    (new : ¬db.employees.Holds id) (mem : record ∈ records) (full : Database.blank record = false)
    (unused : db.emailInUse caller (Database.cell record 2) = false) (index : ℕ) :
    0 < (db.importRecords (smooth id identified) caller records index).2 := by
  induction records generalizing index with
  | nil => contradiction
  | cons first rest ih =>
    rcases imported : db.importRecord (smooth id identified) caller first index with ⟨after, isNew⟩
    cases isNew with
    | true => simp [Database.importRecords, imported]
    | false =>
      have isSame := importRecord_eq_self imported
      subst isSame
      have isOther : record ≠ first := by
        rintro rfl
        simpa [imported] using importRecord_new identified index new full unused
      have later := ih ((List.mem_cons.mp mem).resolve_left isOther) (index + 1)
      simpa [Database.importRecords, imported] using later

theorem body_importCSV {header record : List String} {rest : List (List String)} (mem : record ∈ rest) :
    (db.importCSV around caller (.ok (header :: rest))).2.body =
      .imported (db.importRecords around caller rest 0).2
        (rest.length - (db.importRecords around caller rest 0).2) rest.length := by
  cases rest with
  | nil => contradiction
  | cons first rest => rfl

theorem used_of_importCSV {header : List String} {rest : List (List String)}
    (isolated : Isolated env caller teams db (.importCSV (.ok (header :: rest))))
    (free : ¬Owns caller teams db id) (mem : record ∈ rest) (full : Database.blank record = false) :
    ∃ other ∈ db.ofOrg caller, InTeams caller teams other ∧
      other.email = Database.cell record 2 := by
  by_contra unused
  have identified := ne_zero_of_free free
  have same := congrArg Response.body
    (isolated.response_eq free identified "" "" (smooth id identified))
  have none : ((db.joined caller teams (newcomer caller id identified "" "") [] []).importRecords
      (smooth id identified) caller rest 0).2 = 0 := by
    rw [importRecords_of_refused]
    intro record mem full
    exact .inr fun _ => Table.holds_insert.mpr (.inl rfl)
  have made := importRecords_pos identified (not_holds_alone free) mem full
    (Bool.eq_false_iff.mpr fun inUse => unused (used_of_emailInUse_alone inUse)) 0
  simp only [Database.serve, body_importCSV mem, none, Body.imported.injEq] at same
  omega

theorem owns_of_bulkDelete {ids : List UUID}
    (isolated : Isolated env caller teams db (.bulkDelete (.ok ids))) (listed : id ∈ ids) :
    Owns caller teams db id := by
  by_contra free
  have identified := ne_zero_of_free free
  have same := congrArg Response.body
    (isolated.response_eq free identified "" "" (smooth id identified))
  have rows : (db.joined caller teams (newcomer caller id identified "" "") [] []).employees.rows =
      _ :: (db.alone caller teams).employees.rows := rows_joined free
  simp only [Database.serve, Database.bulkDelete, smooth, if_true, Body.deleted.injEq, rows] at same
  rw [List.filter_cons_of_pos (by simp [newcomer, listed]), List.length_cons] at same
  omega

theorem owns_of_exportCSV (isolated : Isolated env caller teams db .exportCSV) (id : UUID) :
    Owns caller teams db id := by
  by_contra free
  have identified := ne_zero_of_free free
  have same := congrArg Response.body
    (isolated.response_eq free identified "" "" (smooth id identified))
  have rows : (db.joined caller teams (newcomer caller id identified "" "") [] []).ofOrg caller =
      _ :: (db.alone caller teams).ofOrg caller := ofOrg_joined free rfl rfl
  have sameLength := congrArg List.length (Body.csv.inj same)
  simp [rows] at sameLength

theorem departments_body : (db.departments env caller).body =
    .departments (env.arrange
      (((db.ofOrg caller).map (·.department)).filter fun department => department != "").dedup) := rfl

theorem owns_of_departments (isolated : Isolated env caller teams db .departments) (id : UUID) :
    Owns caller teams db id := by
  by_contra free
  have identified := ne_zero_of_free free
  obtain ⟨department, isNew⟩ := Infinite.exists_notMem_finset
    ("" :: ((db.alone caller teams).ofOrg caller).map (·.department)).toFinset
  simp only [List.mem_toFinset, List.mem_cons, not_or] at isNew
  have same := congrArg Response.body
    (isolated.response_eq free identified "" department (smooth id identified))
  have rows : (db.joined caller teams (newcomer caller id identified "" department) [] []).ofOrg
      caller = _ :: (db.alone caller teams).ofOrg caller := ofOrg_joined free rfl rfl
  simp only [Database.serve, departments_body, Body.departments.injEq, rows] at same
  have listed : department ∈ env.arrange (((newcomer caller id identified "" department ::
      (db.alone caller teams).ofOrg caller).map (·.department)).filter
        fun department => department != "").dedup := by
    simp [(env.arrange_perm _).mem_iff, newcomer, isNew.1]
  rw [← same, (env.arrange_perm _).mem_iff, List.mem_dedup, List.mem_filter] at listed
  exact isNew.2 listed.1

def sighting (orgID id : UUID) : ActivityEvent where
  id := UUID.zero
  orgID := orgID
  employeeID := some id
  deviceID := none
  eventType := "web_request"
  action := "blocked"
  target := ""
  targetDomain := ""
  operation := ""
  category := ""
  processName := ""
  policyID := none
  policyName := ""
  riskScore := 0
  aiExplanation := ""
  ipAddress := ""
  geoCountry := ""
  geoCity := ""
  metadata := fun _ => none
  dedupeKey := ""
  timestamp := 0
  createdAt := 0

theorem owns_of_getActivity {page limit : ℤ}
    (isolated : Isolated env caller teams db (.getActivity text page limit))
    (isParsed : env.parseUUID text = some id) : Owns caller teams db id := by
  by_contra free
  have identified := ne_zero_of_free free
  have same := congrArg Response.body (isolated.response_eq_attached free identified "" "" []
    [sighting caller.orgID id] (by simp) (by simp [sighting]) (smooth id identified))
  simp only [Database.serve, Database.getActivity, isParsed, smooth, Body.activity.injEq,
    Database.alone, Database.joined, List.singleton_append] at same
  have sameTotal := same.2.1
  rw [List.filter_cons_of_pos (by simp [sighting]), List.length_cons] at sameTotal
  omega

def invitation (orgID id : UUID) : EnrollmentToken where
  id := UUID.zero
  orgID := orgID
  employeeID := some id
  token := ""
  usedAt := none
  expiresAt := 0
  createdAt := 0

theorem owns_of_listEnrollmentTokens
    (isolated : Isolated env caller teams db (.listEnrollmentTokens text)) :
    Owns caller teams db ((env.parseUUID text).getD UUID.zero) := by
  by_contra free
  have identified := ne_zero_of_free free
  have same := congrArg Response.body (isolated.response_eq_attached free identified "" ""
    [invitation caller.orgID ((env.parseUUID text).getD UUID.zero)] []
    (by simp [invitation]) (by simp) (smooth _ identified))
  have sameLength := congrArg List.length (Body.tokens.inj same)
  simp only [Database.alone, Database.joined, List.singleton_append, List.length_insertionSort] at sameLength
  rw [List.filter_cons_of_pos (by simp [invitation]), List.length_cons] at sameLength
  omega

theorem isolated_of_full (full : Full caller teams db) :
    Isolated env caller teams db request where
  hidden around db' agree := by rw [agree.eq_of_full full]
  untouched around employee there outside :=
    absurd rfl ((full employee.id).ne there outside)

theorem confined_of_isolated (isolated : Isolated env caller teams db request)
    (free : ¬Owns caller teams db id) : Confined env caller teams db request := by
  cases request with
  | list => trivial
  | departments => exact free (owns_of_departments isolated id)
  | exportCSV => exact free (owns_of_exportCSV isolated id)
  | get text => exact owns_of_isolated isolated fun _ _ => get_not_found
  | delete text => exact owns_of_isolated isolated fun _ _ => delete_not_found
  | setPortalPassword text => exact owns_of_isolated isolated fun _ _ => setPortalPassword_not_found
  | update text body =>
    have owns := owns_of_isolated isolated fun _ _ => update_not_found
    refine ⟨owns, ?_⟩
    rintro employee found request rfl
    exact used_of_update isolated found owns free
  | create body =>
    rintro request rfl
    exact used_of_create isolated free
  | importCSV records =>
    rintro header rest rfl record mem full
    exact used_of_importCSV isolated free mem full
  | bulkDelete body =>
    rintro ids rfl id listed
    exact owns_of_bulkDelete isolated listed
  | getActivity text page limit => exact fun _ => owns_of_getActivity isolated
  | listEnrollmentTokens text => exact owns_of_listEnrollmentTokens isolated

/-- Employees outside a manager's teams are kept from the manager exactly by the list, by requests
that are for employees of the teams or turned down on their account, and where there can be none. -/
theorem isolated_iff (isScoped : db.scopedTeamIDs caller = some teams) :
    Isolated env caller teams db request ↔
      Full caller teams db ∨ Confined env caller teams db request := by
  constructor
  · intro isolated
    by_cases full : Full caller teams db
    · exact .inl full
    · rcases not_forall.mp full with ⟨id, free⟩
      exact .inr (confined_of_isolated isolated free)
  · rintro (full | confined)
    · exact isolated_of_full full
    · exact ⟨fun _ _ => hidden_of_confined isScoped confined,
        fun _ _ => untouched_of_confined confined⟩

def knownIDs : List UUID := [⟨7⟩, ⟨8⟩]

def plainPrimitives : Primitives where
  parseUUID text := knownIDs.find? fun id => id.text == text
  readUUID text := knownIDs.find? fun id => id.text == text
  toLower := String.map Char.toLower
  lower := String.map Char.toLower
  like text pattern := text == pattern
  formatScore := toString
  formatTime := toString
  arrange values := values
  arrange_perm _ := .refl _

def manager : Caller := ⟨⟨1⟩, ⟨2⟩, "manager"⟩

def office : Database where
  now := 0
  teams := [⟨⟨3⟩, ⟨2⟩, "Sales", false⟩, ⟨⟨4⟩, ⟨2⟩, "Payroll", false⟩]
  userTeams := [⟨⟨1⟩, ⟨3⟩⟩]
  employees := ⟨[{ newcomer manager ⟨7⟩ (by decide) "ana@acme.example" "Sales" with teamID := some ⟨3⟩ },
    { newcomer manager ⟨8⟩ (by decide) "ben@acme.example" "Payroll" with teamID := some ⟨4⟩ }],
    by decide⟩
  devices := []
  enrollmentTokens := []
  events := []
  auditLogs := []

theorem isolated_iff_office :
    Isolated plainPrimitives manager [⟨3⟩] office (.get (UUID.text ⟨7⟩)) ↔
      Full manager [⟨3⟩] office ∨ Confined plainPrimitives manager [⟨3⟩] office (.get (UUID.text ⟨7⟩)) :=
  isolated_iff (by decide)

/-- A manager reads an employee of another team. -/
theorem not_alwaysIsolated :
    ¬∀ (db : Database) (teams : List UUID) (request : Request), db.scopedTeamIDs manager = some teams →
      Isolated plainPrimitives manager teams db request := by
  intro always
  have isolated := always office [⟨3⟩] (.get (UUID.text ⟨8⟩)) (by decide)
  have same := congrArg Response.status
    (isolated.hidden (smooth ⟨9⟩ (by decide)) _ agree_alone)
  have seen : (office.get plainPrimitives (smooth ⟨9⟩ (by decide)) manager (UUID.text ⟨8⟩)).status =
      200 := by
    decide +kernel
  have unseen : ((office.alone manager [⟨3⟩]).get plainPrimitives (smooth ⟨9⟩ (by decide)) manager
      (UUID.text ⟨8⟩)).status = 404 := by
    decide +kernel
  rw [Database.serve, Database.serve, seen, unseen] at same
  contradiction

end Aavishield.Employees
