import Aavishield.Dataplane.Tables
import Aavishield.Lib.FirstMatch
import Aavishield.Policy.AccessExceptions
import Aavishield.Policy.DomainEntry

/-!
# Application control

What an organisation's rules about applications come to for one employee: rules for the
domains of the applications, and matchers for their processes.  The lists of rows stand in
the order in which the database returns them.
-/

namespace Aavishield.AppControl

open Dataplane (HasID Table)
open DomainRules (DomainRule Targets)
open FirstMatch Text

structure Primitives extends DomainRules.Primitives where
  parseUUID : List Char → Option UUID

def Primitives.ascii : Primitives :=
  { DomainRules.Primitives.ascii with parseUUID := fun _ => none }

inductive Action where
  | block
  | alert
  deriving DecidableEq

structure ManagedApplication extends DomainRules.ManagedApplication where
  id : UUID
  name : String
  category : String
  processNames : List String
  bundleIDs : List String
  pathPatterns : List String

instance : HasID ManagedApplication := ⟨ManagedApplication.id⟩

structure AppControlRule where
  orgID : UUID
  applicationID : UUID
  employeeID : Option UUID
  action : Action
  enabled : Bool
  blockNetwork : Bool
  blockProcess : Bool
  targets : Targets

structure AccessRequest extends DomainRules.AccessRequest where
  orgID : UUID

structure Database where
  rules : List AppControlRule
  applications : Table ManagedApplication
  requests : List AccessRequest

/-- How a device tells an application. -/
structure AppControlMatcher where
  appID : UUID
  name : String
  action : Action
  processNames : List String
  bundleIDs : List String
  pathPatterns : List String

def appRuleCovers (rule : AppControlRule) (employeeID teamID : Option UUID) : Bool :=
  match rule.employeeID with
  | some owner => employeeID == some owner
  | none => DomainRules.policyTargetMatches rule.targets employeeID teamID

variable (env : Primitives)

/-- The applications among the approved requests of an employee (`approvedGrants`). -/
def approvedApps (requests : List AccessRequest) : Option UUID → List UUID
  | none => []
  | some employeeID =>
    (requests.filter fun request => request.employeeID = employeeID ∧
      request.status = .approved ∧ request.kind = .application).filterMap
        fun request => env.parseUUID request.resource

namespace Database

variable (db : Database) (orgID : UUID) (employeeID teamID : Option UUID)

/-- `Preload("Application")`. -/
def application (rule : AppControlRule) : Option ManagedApplication :=
  db.applications.rows.find? fun app => app.id == rule.applicationID

def activeAppRules : List (AppControlRule × ManagedApplication) :=
  (db.rules.filter fun rule => rule.orgID = orgID ∧ rule.enabled = true).filterMap fun rule =>
    match db.application rule with
    | none => none
    | some app =>
      if !appRuleCovers rule employeeID teamID ||
        (approvedApps env db.requests employeeID).contains rule.applicationID then none
      else some (rule, app)

def domainEntries (entry : AppControlRule × ManagedApplication) : List DomainRule :=
  entry.2.domains.map fun domain =>
    { orgID := some orgID
      domain := DomainRules.lowerTrimmed env.toPrimitives domain
      action := match entry.1.action with
        | .alert => .alert
        | .block => .block
      category := entry.2.category
      reason := "Application control: " ++ entry.2.name
      riskScore := 0 }

def appControlDomainRules : List DomainRule :=
  let entries := ((db.activeAppRules env orgID employeeID teamID).filter fun entry =>
    entry.1.blockNetwork).flatMap (domainEntries env orgID)
  keepFirst (fun rule other => other.domain == rule.domain && other.action == rule.action)
    (entries.filter fun rule => rule.domain ≠ [])

end Database

def ManagedApplication.hasProcesses (app : ManagedApplication) : Bool :=
  !(app.processNames.isEmpty && app.bundleIDs.isEmpty && app.pathPatterns.isEmpty)

def ManagedApplication.matcher (app : ManagedApplication) (action : Action) : AppControlMatcher :=
  ⟨app.id, app.name, action, app.processNames, app.bundleIDs, app.pathPatterns⟩

def mergeMatcher (out : List AppControlMatcher) (entry : AppControlRule × ManagedApplication) :
    List AppControlMatcher :=
  if !entry.1.blockProcess || !entry.2.hasProcesses then out
  else if out.any fun matcher => matcher.appID == entry.2.id then
    if entry.1.action ≠ .alert then
      out.map fun matcher =>
        if matcher.appID = entry.2.id then { matcher with action := .block } else matcher
    else out
  else out ++ [entry.2.matcher entry.1.action]

def defaultVPNBlockCategories : List String := ["vpn", "anonymizer"]

namespace Database

variable (db : Database) (orgID : UUID) (employeeID teamID : Option UUID)

def configured : List UUID :=
  (db.rules.filter fun rule => rule.orgID = orgID ∧
      appRuleCovers rule employeeID teamID = true).map (·.applicationID) ++
    approvedApps env db.requests employeeID

def defaultVPNMatchers : List AppControlMatcher :=
  (db.applications.rows.filter fun app => app.orgID = none ∧
    app.category ∈ defaultVPNBlockCategories ∧
      app.id ∉ db.configured env orgID employeeID teamID ∧ app.hasProcesses = true).map
        (·.matcher .block)

def appControlMatchers : List AppControlMatcher :=
  (db.activeAppRules env orgID employeeID teamID).foldl mergeMatcher [] ++
    db.defaultVPNMatchers env orgID employeeID teamID

end Database

section ActiveRules

variable (db : Database) (orgID : UUID) (employeeID teamID : Option UUID)

def Database.isActive (rule : AppControlRule) : Bool :=
  rule.orgID == orgID && rule.enabled && appRuleCovers rule employeeID teamID &&
    !(approvedApps env db.requests employeeID).contains rule.applicationID

def Database.entry (rule : AppControlRule) : Option (AppControlRule × ManagedApplication) :=
  if db.isActive env orgID employeeID teamID rule then
    (db.application rule).map fun app => (rule, app)
  else none

end ActiveRules

variable {env} {db : Database} {orgID : UUID} {employeeID teamID : Option UUID}

theorem activeAppRules_eq : db.activeAppRules env orgID employeeID teamID =
    db.rules.filterMap (db.entry env orgID employeeID teamID) := by
  rw [Database.activeAppRules, List.filterMap_filter]
  congr 1
  funext rule
  rw [Database.entry, Database.isActive]
  rcases db.application rule with _ | app
  · simp
  · by_cases isOrg : rule.orgID = orgID
    · by_cases enabled : rule.enabled = true
      · by_cases covers : appRuleCovers rule employeeID teamID = true
        · by_cases granted : rule.applicationID ∈ approvedApps env db.requests employeeID
          · simp [isOrg, enabled, covers, granted]
          · simp [isOrg, enabled, covers, granted]
        · simp [isOrg, enabled, covers]
      · simp [isOrg, enabled]
    · simp [isOrg]

theorem mem_activeAppRules {entry : AppControlRule × ManagedApplication} :
    entry ∈ db.activeAppRules env orgID employeeID teamID ↔
      entry.1 ∈ db.rules ∧ db.isActive env orgID employeeID teamID entry.1 = true ∧
        db.application entry.1 = some entry.2 := by
  rw [activeAppRules_eq, List.mem_filterMap]
  constructor
  · rintro ⟨rule, ruleMem, isEntry⟩
    rw [Database.entry, Option.ite_none_right_eq_some, Option.map_eq_some_iff] at isEntry
    rcases isEntry with ⟨active, app, isApp, rfl⟩
    exact ⟨ruleMem, active, isApp⟩
  · rintro ⟨ruleMem, active, isApp⟩
    refine ⟨entry.1, ruleMem, ?_⟩
    rw [Database.entry, if_pos active, isApp]
    rfl

end Aavishield.AppControl
