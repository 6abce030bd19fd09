import Aavishield.Employees.Handlers
import Aavishield.Lib.Differences

/-!
# Managers who are limited to teams

Whether employees outside a manager's teams show in what the manager is answered, and whether
what the manager asks for leaves their rows as they are.
-/

namespace Aavishield.Employees

open Dataplane (ActivityEvent Table)
open Differences

section Statement

variable (env : Primitives) (caller : Caller) (teams : List UUID)

def InTeams (employee : Employee) : Prop :=
  employee.orgID = caller.orgID ∧ ∃ team ∈ teams, employee.teamID = some team

instance : DecidablePred (InTeams caller teams) :=
  fun _ => inferInstanceAs (Decidable (_ ∧ _))

def Attached (employees : List Employee) (employeeID : Option UUID) : Prop :=
  ∃ employee ∈ employees, ¬InTeams caller teams employee ∧ employeeID = some employee.id

inductive Agree (db : Database) : Database → Prop where
  | outside {employees : Table Employee} {devices : List Device}
      {enrollmentTokens : List EnrollmentToken} {events : List ActivityEvent}
      (sameEmployees : SameBut (fun employee => ¬InTeams caller teams employee) db.employees.rows
        employees.rows)
      (sameDevices : SameBut (fun device => Attached caller teams
        (db.employees.rows ++ employees.rows) device.employeeID) db.devices devices)
      (sameTokens : SameBut (fun token => Attached caller teams
        (db.employees.rows ++ employees.rows) token.employeeID) db.enrollmentTokens enrollmentTokens)
      (sameEvents : SameBut (fun event => Attached caller teams
        (db.employees.rows ++ employees.rows) event.employeeID) db.events events) :
      Agree db { db with employees, devices, enrollmentTokens, events }

/-- The employees outside the teams do not show in the answer, and stay as they are. -/
structure Isolated (db : Database) (request : Request) : Prop where
  hidden : ∀ around db', Agree caller teams db db' →
    (db'.serve env around caller request).2 = (db.serve env around caller request).2
  untouched : ∀ around, ∀ employee ∈ db.employees.rows, ¬InTeams caller teams employee →
    employee ∈ (db.serve env around caller request).1.employees.rows

def Owns (db : Database) (id : UUID) : Prop :=
  id = UUID.zero ∨ ∃ employee ∈ db.employees.rows, InTeams caller teams employee ∧ employee.id = id

/-- The request is for employees of the caller's teams. -/
def Confined (db : Database) (request : Request) : Prop :=
  match request with
  | .list _ => True
  | .departments | .exportCSV => False
  | .get id | .delete id | .setPortalPassword id =>
    ∀ read, env.readUUID id = some read → Owns caller teams db read
  | .update id body =>
    (∀ read, env.readUUID id = some read → Owns caller teams db read) ∧
      ∀ employee, db.findEmployee env caller id = some employee →
        ∀ request, body = .ok request → ∃ other ∈ db.ofOrg caller, InTeams caller teams other ∧
          other.email = request.email ∧ other.id ≠ employee.id
  | .create body => ∀ request, body = .ok request →
      ∃ other ∈ db.ofOrg caller, InTeams caller teams other ∧ other.email = request.email
  | .importCSV records => ∀ header rest, records = .ok (header :: rest) →
      ∀ record ∈ rest, Database.blank record = false →
        ∃ other ∈ db.ofOrg caller, InTeams caller teams other ∧
          other.email = Database.cell record 2
  | .bulkDelete body => ∀ ids, body = .ok ids → ∀ id ∈ ids, Owns caller teams db id
  | .getActivity id _ _ =>
    ∀ parsed, env.parseUUID id = some parsed → Owns caller teams db parsed
  | .listEnrollmentTokens id =>
    Owns caller teams db ((env.parseUUID id).getD UUID.zero)

/-- The caller's teams are all there are. -/
def Full (db : Database) : Prop := ∀ id, Owns caller teams db id

end Statement

variable {env : Primitives} {around : Surroundings} {caller : Caller} {teams : List UUID}
  {db db' : Database} {request : Request} {id : UUID} {employee : Employee}

theorem findEmployee_eq_some {text : String}
    (found : db.findEmployee env caller text = some employee) :
    env.readUUID text = some employee.id ∧ employee ∈ db.ofOrg caller := by
  rcases Option.bind_eq_some_iff.mp found with ⟨read, isRead, isFound⟩
  have isID : employee.id = read := by simpa using List.find?_some isFound
  exact ⟨isID ▸ isRead, List.mem_of_find?_eq_some isFound⟩

theorem mem_ofOrg : employee ∈ db.ofOrg caller ↔
    employee ∈ db.employees.rows ∧ employee.orgID = caller.orgID ∧ employee.deleted = false := by
  simp [Database.ofOrg]

theorem Agree.refl : Agree caller teams db db := .outside (.refl _) (.refl _) (.refl _) (.refl _)

theorem Owns.ne (owns : Owns caller teams db id) (there : employee ∈ db.employees.rows)
    (outside : ¬InTeams caller teams employee) : employee.id ≠ id := by
  rintro rfl
  rcases owns with isZero | ⟨other, otherThere, inTeams, same⟩
  · exact employee.identified isZero
  · rw [db.employees.eq_of_id_eq otherThere there same] at inTeams
    exact outside inTeams

namespace Agree

section

variable (agree : Agree caller teams db db')

include agree

theorem employees :
    SameBut (fun employee => ¬InTeams caller teams employee) db.employees.rows
      db'.employees.rows := by
  cases agree with
  | outside same => exact same

theorem devices :
    SameBut (fun device => Attached caller teams (db.employees.rows ++ db'.employees.rows)
      device.employeeID) db.devices db'.devices := by
  cases agree with
  | outside _ same => exact same

theorem enrollmentTokens :
    SameBut (fun token => Attached caller teams (db.employees.rows ++ db'.employees.rows)
      token.employeeID) db.enrollmentTokens db'.enrollmentTokens := by
  cases agree with
  | outside _ _ same => exact same

theorem events :
    SameBut (fun event => Attached caller teams (db.employees.rows ++ db'.employees.rows)
      event.employeeID) db.events db'.events := by
  cases agree with
  | outside _ _ _ same => exact same

theorem teams_eq : db'.teams = db.teams := by
  cases agree with
  | outside => rfl

theorem now_eq : db'.now = db.now := by
  cases agree with
  | outside => rfl

theorem scopedTeamIDs_eq :
    db'.scopedTeamIDs caller = db.scopedTeamIDs caller := by
  cases agree with
  | outside => rfl

theorem preloadTeam_eq (employee : Employee) :
    db'.preloadTeam employee = db.preloadTeam employee := by
  simp [Database.preloadTeam, agree.teams_eq]

theorem owns (owns : Owns caller teams db id) :
    Owns caller teams db' id := by
  rcases owns with isZero | ⟨employee, there, inTeams, isID⟩
  · exact .inl isZero
  · exact .inr ⟨employee, agree.employees.mem_of_mem there (not_not_intro inTeams), inTeams, isID⟩

theorem ne_of_owns (owns : Owns caller teams db id)
    (there : employee ∈ db.employees.rows ∨ employee ∈ db'.employees.rows)
    (outside : ¬InTeams caller teams employee) : employee.id ≠ id := by
  rcases there with there | there
  · exact owns.ne there outside
  · exact (agree.owns owns).ne there outside

theorem ne_of_attached (owns : Owns caller teams db id) {employeeID : Option UUID}
    (attached : Attached caller teams (db.employees.rows ++ db'.employees.rows) employeeID) :
    employeeID ≠ some id := by
  rcases attached with ⟨employee, there, outside, rfl⟩
  intro same
  exact agree.ne_of_owns owns (List.mem_append.mp there) outside (Option.some.inj same)

theorem filter_eq {Row : Type} (owns : Owns caller teams db id)
    {employeeID : Row → Option UUID} {rows rows' : List Row}
    (same : SameBut (fun row => Attached caller teams (db.employees.rows ++ db'.employees.rows)
      (employeeID row)) rows rows') {picks : Row → Bool}
    (named : ∀ row, picks row = true → employeeID row = some id) :
    rows'.filter picks = rows.filter picks := by
  symm
  apply same.filter_eq
  intro row attached
  rw [Bool.eq_false_iff]
  intro picked
  exact agree.ne_of_attached owns attached (named row picked)

theorem others (owns : Owns caller teams db id) :
    SameBut (fun employee => employee.id ≠ id) db.employees.rows db'.employees.rows :=
  agree.employees.imp fun _ there outside => agree.ne_of_owns owns there outside

theorem mem_ofOrg (there : employee ∈ db.ofOrg caller)
    (inTeams : InTeams caller teams employee) : employee ∈ db'.ofOrg caller := by
  simp only [Database.ofOrg, List.mem_filter] at there ⊢
  exact ⟨agree.employees.mem_of_mem there.1 (not_not_intro inTeams), there.2⟩

theorem findEmployee_eq {text : String}
    (owns : ∀ read, env.readUUID text = some read → Owns caller teams db read) :
    db'.findEmployee env caller text = db.findEmployee env caller text := by
  unfold Database.findEmployee
  cases isRead : env.readUUID text with
  | none => rfl
  | some read =>
    simp only [Option.bind_some, Database.ofOrg, List.find?_filter]
    symm
    apply (agree.others (owns read isRead)).find?_eq
    intro employee isOther
    simp [isOther]

theorem eq_of_full (full : Full caller teams db) : db' = db := by
  have inTeams : ∀ employee, employee ∈ db.employees.rows ∨ employee ∈ db'.employees.rows →
      InTeams caller teams employee := by
    intro employee there
    by_contra outside
    exact agree.ne_of_owns (full employee.id) there outside rfl
  have unattached : ∀ employeeID,
      ¬Attached caller teams (db.employees.rows ++ db'.employees.rows) employeeID := by
    rintro employeeID ⟨employee, there, outside, -⟩
    exact outside (inTeams employee (List.mem_append.mp there))
  have sameRows := agree.employees.eq_of_nowhere fun employee there =>
    not_not_intro (inTeams employee there)
  have sameDevices := agree.devices.eq_of_nowhere fun _ _ => unattached _
  have sameTokens := agree.enrollmentTokens.eq_of_nowhere fun _ _ => unattached _
  have sameEvents := agree.events.eq_of_nowhere fun _ _ => unattached _
  cases agree with
  | @outside employees devices enrollmentTokens events =>
    obtain rfl : db.employees = employees := by
      cases employees
      cases isTable : db.employees
      simpa [isTable] using sameRows
    obtain rfl : db.devices = devices := sameDevices
    obtain rfl : db.enrollmentTokens = enrollmentTokens := sameTokens
    obtain rfl : db.events = events := sameEvents
    rfl

end

end Agree

section Enough

variable (agree : Agree caller teams db db')

include agree

theorem list_eq (isScoped : db.scopedTeamIDs caller = some teams) (query : ListQuery) :
    db'.list env caller query = db.list env caller query := by
  have found : (db'.ofOrg caller).filter (db'.inScope caller) =
      (db.ofOrg caller).filter (db.inScope caller) := by
    have sameScope : db'.inScope caller = db.inScope caller := by
      funext employee
      simp [Database.inScope, agree.scopedTeamIDs_eq]
    rw [sameScope, Database.ofOrg, Database.ofOrg, List.filter_filter, List.filter_filter]
    symm
    apply agree.employees.filter_eq
    intro employee outside
    have notBoth : employee.orgID = caller.orgID →
        ∀ team, employee.teamID = some team → team ∉ teams := by
      intro ofOrg team isTeam listed
      exact outside ⟨ofOrg, team, listed, isTeam⟩
    cases isTeam : employee.teamID with
    | none => simp [Database.inScope, isScoped, isTeam]
    | some team =>
      simp only [Database.inScope, isScoped, isTeam, Option.any_some, Bool.and_eq_false_iff,
        decide_eq_false_iff_not, beq_eq_false_iff_ne]
      by_cases ofOrg : employee.orgID = caller.orgID
      · exact .inl (notBoth ofOrg team isTeam)
      · exact .inr (.inl ofOrg)
  simp only [Database.list, found, funext agree.preloadTeam_eq]

variable {text : String}

theorem get_eq (owns : ∀ read, env.readUUID text = some read → Owns caller teams db read) :
    db'.get env around caller text = db.get env around caller text := by
  unfold Database.get
  rw [agree.findEmployee_eq owns]
  cases found : db.findEmployee env caller text with
  | none => rfl
  | some employee =>
    have ownsFound := owns employee.id (findEmployee_eq_some found).1
    dsimp only
    rw [agree.filter_eq ownsFound agree.devices, agree.filter_eq ownsFound agree.events,
      agree.preloadTeam_eq, agree.now_eq]
    · intro event picked
      simp only [Bool.and_eq_true, beq_iff_eq] at picked
      exact picked.1.1.2
    · intro device picked
      simp only [Bool.and_eq_true, beq_iff_eq] at picked
      exact picked.1

theorem getActivity_eq (page limit : ℤ)
    (owns : ∀ parsed, env.parseUUID text = some parsed → Owns caller teams db parsed) :
    db'.getActivity env around caller text page limit =
      db.getActivity env around caller text page limit := by
  unfold Database.getActivity
  cases around.store with
  | error failure => rfl
  | ok =>
    cases isParsed : env.parseUUID text with
    | none => rfl
    | some parsed =>
      dsimp only
      rw [agree.filter_eq (owns parsed isParsed) agree.events]
      intro event picked
      simp only [Bool.and_eq_true, beq_iff_eq] at picked
      exact picked.1.2

theorem listEnrollmentTokens_eq
    (owns : Owns caller teams db ((env.parseUUID text).getD UUID.zero)) :
    db'.listEnrollmentTokens env caller text =
      db.listEnrollmentTokens env caller text := by
  simp only [Database.listEnrollmentTokens]
  rw [agree.filter_eq owns agree.enrollmentTokens]
  intro token picked
  simp only [Bool.and_eq_true, beq_iff_eq] at picked
  exact picked.2

theorem delete_eq
    (owns : ∀ read, env.readUUID text = some read → Owns caller teams db read) :
    (db'.delete env around caller text).2 = (db.delete env around caller text).2 := by
  unfold Database.delete
  rw [agree.findEmployee_eq owns]
  cases db.findEmployee env caller text with
  | none => rfl
  | some employee => cases around.works 0 <;> rfl

theorem setPortalPassword_eq
    (owns : ∀ read, env.readUUID text = some read → Owns caller teams db read) :
    (db'.setPortalPassword env around caller text).2 =
      (db.setPortalPassword env around caller text).2 := by
  unfold Database.setPortalPassword Database.provisionPortalPassword
  rw [agree.findEmployee_eq owns]
  cases db.findEmployee env caller text with
  | none => rfl
  | some employee =>
    cases around.hash with
    | none => rfl
    | some hash => cases around.works 0 <;> rfl

theorem bulkDelete_eq {body : Except String (List UUID)}
    (owns : ∀ ids, body = .ok ids → ∀ id ∈ ids, Owns caller teams db id) :
    (db'.bulkDelete around caller body).2 = (db.bulkDelete around caller body).2 := by
  cases body with
  | error text => rfl
  | ok ids =>
    have sameSelected : (db'.employees.rows.filter fun employee =>
        decide (employee.id ∈ ids) && employee.orgID == caller.orgID && !employee.deleted) =
        db.employees.rows.filter fun employee =>
          decide (employee.id ∈ ids) && employee.orgID == caller.orgID && !employee.deleted := by
      have others : SameBut (fun employee => employee.id ∉ ids) db.employees.rows
          db'.employees.rows := by
        apply agree.employees.imp
        intro employee there outside listed
        exact agree.ne_of_owns (owns ids rfl employee.id listed) there outside rfl
      symm
      apply others.filter_eq
      intro employee isOther
      simp [isOther]
    simp only [Database.bulkDelete, sameSelected]
    split <;> rfl

end Enough

theorem emailInUse_iff {email : String} :
    db.emailInUse caller email = true ↔ ∃ other ∈ db.ofOrg caller, other.email = email := by
  simp [Database.emailInUse]

def conflict (text : String) (body : Except String EmployeeRequest) : Response :=
  match body with
  | .error unread => .failed 400 unread
  | .ok _ => .failed 409 text

def nothingImported (records : Except (ℕ × String) (List (List String))) : Response :=
  match records with
  | .error (status, text) => .failed status text
  | .ok [] | .ok [_] => .failed 400 "CSV must have header + at least one row"
  | .ok (_ :: records) => ⟨200, .imported 0 records.length records.length⟩

variable {body : Except String EmployeeRequest}

theorem create_of_emailInUse
    (inUse : ∀ request, body = .ok request → db.emailInUse caller request.email = true) :
    db.create env around caller body =
      (db, conflict "Employee with this email already exists" body) := by
  cases body with
  | error text => rfl
  | ok request => simp [Database.create, inUse request rfl, conflict]

theorem update_of_taken {text : String}
    (found : db.findEmployee env caller text = some employee)
    (taken : ∀ request, body = .ok request →
      ∃ other ∈ db.ofOrg caller, other.email = request.email ∧ other.id ≠ employee.id) :
    db.update env around caller text body =
      (db, conflict "Email already used by another employee" body) := by
  unfold Database.update
  rw [found]
  cases body with
  | error text => rfl
  | ok request =>
    rcases taken request rfl with ⟨other, there, sameEmail, isOther⟩
    have inUse : ((db.ofOrg caller).any fun other =>
        other.email == request.email && other.id != employee.id) = true :=
      List.any_eq_true.mpr ⟨other, there, by simp [sameEmail, isOther]⟩
    simp [inUse, conflict]

theorem importRecords_of_refused {records : List (List String)}
    (refused : ∀ record ∈ records, Database.blank record = false →
      db.emailInUse caller (Database.cell record 2) = true ∨
        ∀ index, db.employees.Holds (around.fresh index).val) (index : ℕ) :
    db.importRecords around caller records index = (db, 0) := by
  induction records generalizing index with
  | nil => rfl
  | cons record rest ih =>
    have isRefused : db.importRecord around caller record index = (db, false) := by
      unfold Database.importRecord
      split_ifs with passedOver
      · rfl
      · simp only [Bool.or_eq_true, not_or, Bool.not_eq_true] at passedOver
        rcases refused record List.mem_cons_self passedOver.1 with inUse | taken
        · simp [passedOver.2] at inUse
        · simp [Database.createEmployee, Database.importedEmployee, taken index]
    have later := ih (fun other mem => refused other (List.mem_cons_of_mem record mem))
      (index + 1)
    simp [Database.importRecords, isRefused, later]

theorem mem_rewrite {set : Employee → Employee} (keeps : ∀ employee, (set employee).id = employee.id)
    (there : employee ∈ db.employees.rows) (isOther : employee.id ≠ id) :
    employee ∈ (db.rewrite id set keeps).employees.rows :=
  List.mem_map.mpr ⟨employee, there, if_neg isOther⟩

theorem mem_of_provisioned {changed : Database} {other : Employee} {write : ℕ}
    (provisioned : db.provisionPortalPassword around other write = some changed)
    (there : employee ∈ db.employees.rows) (isOther : employee.id ≠ other.id) :
    employee ∈ changed.employees.rows := by
  unfold Database.provisionPortalPassword at provisioned
  split at provisioned
  · contradiction
  · split_ifs at provisioned
    rw [← Option.some.inj provisioned]
    apply mem_rewrite _ there isOther

theorem mem_bulkDelete {body : Except String (List UUID)}
    (owns : ∀ ids, body = .ok ids → ∀ id ∈ ids, Owns caller teams db id)
    (there : employee ∈ db.employees.rows) (outside : ¬InTeams caller teams employee) :
    employee ∈ (db.bulkDelete around caller body).1.employees.rows := by
  cases body with
  | error text => exact there
  | ok ids =>
    have notListed : employee.id ∉ ids := fun listed =>
      (owns ids rfl employee.id listed).ne there outside rfl
    simp only [Database.bulkDelete]
    split
    · exact List.mem_map.mpr ⟨employee, there, by simp [notListed]⟩
    · exact there

theorem importCSV_of_refused {records : Except (ℕ × String) (List (List String))}
    (refused : ∀ header rest, records = .ok (header :: rest) → ∀ record ∈ rest,
      Database.blank record = false → db.emailInUse caller (Database.cell record 2) = true ∨
        ∀ index, db.employees.Holds (around.fresh index).val) :
    db.importCSV around caller records = (db, nothingImported records) := by
  match records with
  | .error _ => rfl
  | .ok [] => rfl
  | .ok [_] => rfl
  | .ok (header :: first :: rest) =>
    simp [Database.importCSV, nothingImported, importRecords_of_refused (refused header (first :: rest) rfl)]

theorem Agree.emailInUse (agree : Agree caller teams db db') {email : String}
    (used : ∃ other ∈ db.ofOrg caller, InTeams caller teams other ∧ other.email = email) :
    db'.emailInUse caller email = true := by
  rcases used with ⟨other, there, inTeams, sameEmail⟩
  exact emailInUse_iff.mpr ⟨other, agree.mem_ofOrg there inTeams, sameEmail⟩

theorem hidden_of_confined (isScoped : db.scopedTeamIDs caller = some teams)
    (confined : Confined env caller teams db request) (agree : Agree caller teams db db') :
    (db'.serve env around caller request).2 = (db.serve env around caller request).2 := by
  cases request with
  | list query => exact list_eq agree isScoped query
  | create body =>
    have inUse (other : Database) (agrees : Agree caller teams db other) (request : EmployeeRequest)
        (isBody : body = .ok request) : other.emailInUse caller request.email = true :=
      agrees.emailInUse (confined request isBody)
    simp only [Database.serve, create_of_emailInUse (inUse db .refl),
      create_of_emailInUse (inUse db' agree)]
  | departments | exportCSV => exact confined.elim
  | importCSV records =>
    have refused (other : Database) (agrees : Agree caller teams db other) (header : List String)
        (rest : List (List String)) (isFile : records = .ok (header :: rest)) (record : List String)
        (mem : record ∈ rest) (full : Database.blank record = false) :
        other.emailInUse caller (Database.cell record 2) = true ∨
          ∀ index, other.employees.Holds (around.fresh index).val :=
      .inl (agrees.emailInUse (confined header rest isFile record mem full))
    simp only [Database.serve, importCSV_of_refused (refused db .refl),
      importCSV_of_refused (refused db' agree)]
  | bulkDelete body => exact bulkDelete_eq agree confined
  | get text => exact get_eq agree confined
  | update text body =>
    rcases confined with ⟨owns, taken⟩
    have same := agree.findEmployee_eq owns
    cases found : db.findEmployee env caller text with
    | none => simp [Database.serve, Database.update, same, found]
    | some employee =>
      have takenIn (other : Database) (agrees : Agree caller teams db other)
          (request : EmployeeRequest) (isBody : body = .ok request) :
          ∃ member ∈ other.ofOrg caller, member.email = request.email ∧ member.id ≠ employee.id := by
        rcases taken employee found request isBody with ⟨member, there, inTeams, holds⟩
        exact ⟨member, agrees.mem_ofOrg there inTeams, holds⟩
      simp only [Database.serve, update_of_taken found (takenIn db .refl),
        update_of_taken (same.trans found) (takenIn db' agree)]
  | delete text => exact delete_eq agree confined
  | getActivity text page limit => exact getActivity_eq agree page limit confined
  | setPortalPassword text => exact setPortalPassword_eq agree confined
  | listEnrollmentTokens text => exact listEnrollmentTokens_eq agree confined

theorem untouched_of_confined (confined : Confined env caller teams db request)
    (there : employee ∈ db.employees.rows) (outside : ¬InTeams caller teams employee) :
    employee ∈ (db.serve env around caller request).1.employees.rows := by
  cases request with
  | list | get | getActivity | listEnrollmentTokens => exact there
  | departments | exportCSV => exact confined.elim
  | create body =>
    simpa only [Database.serve, create_of_emailInUse fun request isBody =>
      Agree.refl.emailInUse (confined request isBody)] using there
  | importCSV records =>
    simpa only [Database.serve, importCSV_of_refused fun header rest isFile record mem full =>
      .inl (Agree.refl.emailInUse (confined header rest isFile record mem full))] using there
  | bulkDelete body => exact mem_bulkDelete confined there outside
  | update text body =>
    rcases confined with ⟨owns, taken⟩
    simp only [Database.serve]
    cases found : db.findEmployee env caller text with
    | none => simpa [Database.update, found] using there
    | some employee =>
      rw [update_of_taken found]
      · exact there
      · intro request isBody
        rcases taken employee found request isBody with ⟨other, isThere, -, holds⟩
        exact ⟨other, isThere, holds⟩
  | delete text =>
    simp only [Database.serve, Database.delete]
    cases found : db.findEmployee env caller text with
    | none => exact there
    | some other =>
      have isOther := (confined other.id (findEmployee_eq_some found).1).ne there outside
      cases around.works 0 with
      | false => exact there
      | true =>
        refine mem_rewrite ?_ there isOther
        exact fun _ => rfl
  | setPortalPassword text =>
    simp only [Database.serve, Database.setPortalPassword]
    cases found : db.findEmployee env caller text with
    | none => exact there
    | some other =>
      have isOther := (confined other.id (findEmployee_eq_some found).1).ne there outside
      cases provisioned : db.provisionPortalPassword around other 0 with
      | none => simpa [provisioned] using there
      | some changed => simpa [provisioned] using mem_of_provisioned provisioned there isOther

end Aavishield.Employees
