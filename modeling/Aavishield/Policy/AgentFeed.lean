import Aavishield.Policy.AppControl

/-!
# What an agent is sent

The rules and the process matchers that are resolved for the employee of a device.  The lists
of rows stand in the order in which the database returns them.
-/

namespace Aavishield.AgentFeed

open AppControl (AppControlMatcher Primitives)
open Dataplane (HasID Table)
open DomainRules (DomainRule)

structure Employee where
  id : UUID
  orgID : UUID
  teamID : Option UUID

instance : HasID Employee := ⟨Employee.id⟩

structure StoredRule extends DomainRule where
  enabled : Bool

structure StoredPolicy extends DomainRules.Policy where
  enabled : Bool
  priority : ℤ

structure URLCategory where
  id : UUID
  slug : String

structure CategoryDomain where
  orgID : Option UUID
  categoryID : UUID
  domain : List Char

structure CategoryDomainExclusion where
  orgID : UUID
  categoryID : UUID
  domain : List Char

structure Database extends AppControl.Database where
  employees : Table Employee
  domainRules : List StoredRule
  policies : List StoredPolicy
  urlCategories : List URLCategory
  categoryDomains : List CategoryDomain
  exclusions : List CategoryDomainExclusion
  /-- `Order("priority ASC")`. -/
  sorted : policies.Pairwise fun first second => first.priority ≤ second.priority
  ruleApplications : ∀ rule ∈ rules, ∀ app ∈ applications.rows, app.id = rule.applicationID →
    app.orgID = none ∨ app.orgID = some rule.orgID
  /-- An access request is made in the session of an employee, who brings the organisation. -/
  requestOrgs : ∀ request ∈ requests, ∀ employee ∈ employees.rows,
    request.employeeID = employee.id → request.orgID = employee.orgID

namespace Database

variable (env : Primitives) (db : Database) (orgID : UUID) (employeeID : Option UUID)

def excluded (row : CategoryDomain) : Bool :=
  db.exclusions.any fun exclusion => exclusion.orgID = orgID ∧
    exclusion.categoryID = row.categoryID ∧ exclusion.domain = row.domain

def categoryDomainsBySlug (slugs : List String) (slug : String) : List (List Char) :=
  let rows := (db.categoryDomains.filter fun row =>
    (row.orgID = none ∨ row.orgID = some orgID) ∧ db.excluded orgID row = false).flatMap fun row =>
      (db.urlCategories.filter fun category => category.id = row.categoryID ∧
        category.slug ∈ slugs).map fun category => (category.slug, row.domain)
  (rows.filter fun row => row.1 = slug).map (·.2)

def allSlugs (policies : List StoredPolicy) : List String :=
  policies.flatMap fun policy => policy.categories.filter (· ≠ "")

def expandPoliciesToDomainRules (policies : List StoredPolicy) (teamID : Option UUID) :
    List DomainRule :=
  DomainRules.expandPoliciesToDomainRules env.toPrimitives (policies.map (·.toPolicy))
    (db.categoryDomainsBySlug orgID (allSlugs policies)) employeeID teamID

def teamOf : Option UUID :=
  employeeID.bind fun id =>
    (db.employees.rows.find? fun employee => employee.id == id).bind (·.teamID)

/-- The rules that a device is sent. -/
def getRules : List DomainRule :=
  let teamID := db.teamOf employeeID
  let rules := (db.domainRules.filter fun rule => rule.enabled = true ∧
    (rule.orgID = some orgID ∨ rule.orgID = none)).map (·.toDomainRule)
  let policies := db.policies.filter fun policy => policy.enabled = true ∧ policy.orgID = orgID
  let rules := rules ++ db.expandPoliciesToDomainRules env orgID employeeID policies teamID ++
    db.appControlDomainRules env orgID employeeID teamID
  match employeeID with
  | none => rules
  | some id => DomainRules.filterApprovedExceptions env.toPrimitives
      (db.requests.map (·.toAccessRequest)) (db.applications.rows.map (·.toManagedApplication))
        rules orgID id

def getAppControl : List AppControlMatcher :=
  db.appControlMatchers env orgID employeeID (db.teamOf employeeID)

variable {policies : List StoredPolicy} {policy : DomainRules.Policy} {slug : String}

theorem mem_allSlugs (policyMem : policy ∈ policies.map (·.toPolicy))
    (slugMem : slug ∈ policy.categories) : slug ∈ allSlugs policies ↔ slug ≠ "" := by
  rcases List.mem_map.mp policyMem with ⟨stored, storedMem, rfl⟩
  rw [allSlugs, List.mem_flatMap]
  constructor
  · rintro ⟨other, -, slugMem⟩
    exact of_decide_eq_true (List.mem_filter.mp slugMem).2
  · intro nonempty
    exact ⟨stored, storedMem, List.mem_filter.mpr ⟨slugMem, decide_eq_true nonempty⟩⟩

end Database

end Aavishield.AgentFeed
