import Aavishield.Policy.AgentFeed
import Mathlib.Data.List.MinMax

/-!
# The URL tester

The dashboard answers what happens to a URL from the tables themselves: the rule that is
stored for just this domain, or else the first policy that lists it.  The agents of the
organisation get rules that are resolved from the same tables, and look the host up in those.
-/

namespace Aavishield.UrlTester

open AgentFeed (CategoryDomain CategoryDomainExclusion Employee StoredPolicy StoredRule URLCategory)
open Dataplane (HasID Table)
open DomainRules (PolicyAction PolicyCache)
open Text

structure Primitives extends toFeed : AppControl.Primitives where
  equalFold : List Char → List Char → Bool
  /-- `url.Parse` and the `Hostname` of a URL that has a host. -/
  hostname : List Char → Option (List Char)

structure RuleRow extends StoredRule where
  id : UUID

instance : HasID RuleRow := ⟨RuleRow.id⟩

structure WebPolicy extends StoredPolicy where
  urls : List (List Char)

structure Tables where
  domainRules : Table RuleRow
  policies : List WebPolicy
  employees : Table Employee
  urlCategories : List URLCategory
  categoryDomains : List CategoryDomain
  exclusions : List CategoryDomainExclusion
  /-- `Order("priority ASC")`. -/
  sorted : policies.Pairwise fun first second => first.priority ≤ second.priority

namespace Tables

variable (env : Primitives) (tables : Tables) (orgID : UUID)

def database : AgentFeed.Database where
  rules := []
  applications := .empty
  requests := []
  employees := tables.employees
  domainRules := tables.domainRules.rows.map (·.toStoredRule)
  policies := tables.policies.map (·.toStoredPolicy)
  urlCategories := tables.urlCategories
  categoryDomains := tables.categoryDomains
  exclusions := tables.exclusions
  sorted := List.pairwise_map.mpr tables.sorted
  ruleApplications := by simp
  requestOrgs := by simp

def hostOfURL (raw : List Char) : Option (List Char) :=
  let raw := trimSpace raw
  if raw = [] then none
  else env.hostname (if contains raw "://".toList then raw else "https://".toList ++ raw)

def extractDomainFromURL (raw : List Char) : List Char :=
  match hostOfURL env raw with
  | none => []
  | some host => trimPrefix "www.".toList (host.map env.lower)

/-- `First`, which orders by the primary key. -/
def firstByID (rows : List RuleRow) : Option RuleRow := rows.argmin fun row => row.id.bits.toNat

def namedRule (domain : List Char) : Option RuleRow :=
  let named := tables.domainRules.rows.filter fun rule => rule.enabled = true ∧ rule.domain = domain
  (firstByID (named.filter fun rule => rule.orgID = some orgID)).or
    (firstByID (named.filter fun rule => rule.orgID = none))

def resolvedDomains (policy : WebPolicy) : List (List Char) :=
  DomainRules.resolvePolicyDomains env.toPrimitives policy.toPolicy
    (tables.database.categoryDomainsBySlug policy.orgID (policy.categories.filter (· ≠ "")))

def listed (domain : List Char) (texts : List (List Char)) : Bool :=
  texts.any fun text => env.equalFold domain (trimSpace text)

def hit (domain : List Char) (policy : WebPolicy) : Option String :=
  if policy.categories ≠ [] ∧ listed env domain (tables.resolvedDomains env policy) then
    some ("Blocked by category policy: " ++ policy.name)
  else if listed env domain policy.urls then some ("URL blocked by policy: " ++ policy.name)
  else if listed env domain policy.domains then
    some ("Domain blocked by policy: " ++ policy.name)
  else none

def activePolicies : List WebPolicy :=
  tables.policies.filter fun policy => policy.enabled = true ∧ policy.orgID = orgID

structure Evaluation where
  action : PolicyAction
  reason : String
  category : Option String

def evaluateURL (domain : List Char) : Evaluation :=
  match tables.namedRule orgID domain with
  | some rule => ⟨rule.action, rule.reason, some rule.category⟩
  | none =>
    match (tables.activePolicies orgID).findSome? fun policy =>
        (tables.hit env domain policy).map fun reason => (policy, reason) with
    | some (policy, reason) => ⟨policy.action, reason, none⟩
    | none => ⟨.allow, "no matching rule", none⟩

/-- `CheckURLDashboard`: a domain is taken as it is, and one that is empty is refused. -/
def checkURL (url domain : List Char) : Option Evaluation :=
  let domain := if domain = [] then extractDomainFromURL env url else domain
  if domain = [] then none else some (tables.evaluateURL env orgID domain)

def agentRules (employeeID : UUID) : List DomainRules.DomainRule :=
  tables.database.getRules env.toFeed orgID (some employeeID)

def enforced (employeeID : UUID) (host : List Char) : PolicyAction :=
  let cache := PolicyCache.load env.toPrimitives (tables.agentRules env orgID employeeID)
  ((cache.check env.toPrimitives host).map (·.action)).getD .allow

end Tables

end Aavishield.UrlTester
