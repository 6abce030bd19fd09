import Aavishield.Lib.Differences
import Aavishield.Policy.AgentFeed

/-!
# Rules of others

What is resolved for the device of an employee does not depend on the rows that are about
other employees, about teams that the employee is not in, or about other organisations.
-/

namespace Aavishield.AgentFeed

open AppControl (AppControlRule Primitives)
open Differences
open DomainRules (DomainRule Targets idListContains policyTargetMatches)

section Statement

variable (employee : Employee)

inductive TargetsElsewhere (targets : Targets) : Prop
  | employees (scope : targets.scope = "employee")
      (others : employee.id.text ∉ targets.employeeIDs) : TargetsElsewhere targets
  | teams (scope : targets.scope = "team")
      (others : ∀ teamID ∈ employee.teamID, teamID.text ∉ targets.teamIDs) : TargetsElsewhere targets
  | named (scope : targets.scope = "") (names : targets.employeeIDs ≠ [] ∨ targets.teamIDs ≠ [])
      (otherEmployees : employee.id.text ∉ targets.employeeIDs)
      (otherTeams : ∀ teamID ∈ employee.teamID, teamID.text ∉ targets.teamIDs) :
      TargetsElsewhere targets

inductive AppRuleElsewhere (rule : AppControlRule) : Prop
  | org (other : rule.orgID ≠ employee.orgID) : AppRuleElsewhere rule
  | owner {owner : UUID} (isOwner : rule.employeeID = some owner) (other : owner ≠ employee.id) :
      AppRuleElsewhere rule
  | targets (unowned : rule.employeeID = none) (others : TargetsElsewhere employee rule.targets) :
      AppRuleElsewhere rule

inductive PolicyElsewhere (policy : StoredPolicy) : Prop
  | org (other : policy.orgID ≠ employee.orgID) : PolicyElsewhere policy
  | targets (others : TargetsElsewhere employee policy.targets) : PolicyElsewhere policy

def RequestElsewhere (request : AppControl.AccessRequest) : Prop :=
  request.employeeID ≠ employee.id ∨ request.orgID ≠ employee.orgID

def OrgElsewhere (orgID : Option UUID) : Prop := orgID ≠ none ∧ orgID ≠ some employee.orgID

/-- The databases differ only in rows about others; those of the other employees, and their teams,
do not matter at all. -/
structure Agree (db db' : Database) : Prop where
  isEmployee : employee ∈ db.employees.rows
  isEmployee' : employee ∈ db'.employees.rows
  rules : SameBut (AppRuleElsewhere employee) db.rules db'.rules
  applications : SameBut (fun app => OrgElsewhere employee app.orgID) db.applications.rows
    db'.applications.rows
  requests : SameBut (RequestElsewhere employee) db.requests db'.requests
  domainRules : SameBut (fun rule => OrgElsewhere employee rule.orgID) db.domainRules db'.domainRules
  policies : SameBut (PolicyElsewhere employee) db.policies db'.policies
  urlCategories : db.urlCategories = db'.urlCategories
  categoryDomains : SameBut (fun row => OrgElsewhere employee row.orgID) db.categoryDomains
    db'.categoryDomains
  exclusions : SameBut (fun row => OrgElsewhere employee (some row.orgID)) db.exclusions db'.exclusions

end Statement

variable {env : Primitives} {employee : Employee} {db db' : Database} {targets : Targets}
  {rule : AppControlRule}

theorem resolvePolicyDomains_congr {env : DomainRules.Primitives} {policy : DomainRules.Policy}
    {domainsBySlug domainsBySlug' : String → List (List Char)}
    (same : ∀ slug ∈ policy.categories, domainsBySlug slug = domainsBySlug' slug) :
    DomainRules.resolvePolicyDomains env policy domainsBySlug =
      DomainRules.resolvePolicyDomains env policy domainsBySlug' := by
  rw [DomainRules.resolvePolicyDomains, DomainRules.resolvePolicyDomains, List.flatMap_congr same]

theorem exceptions_eq {env : DomainRules.Primitives}
    {requests requests' : List DomainRules.AccessRequest}
    {catalogue catalogue' : List DomainRules.ManagedApplication} {orgID employeeID : UUID}
    (sameRequests : SameBut (fun request => request.employeeID ≠ employeeID) requests requests')
    (sameCatalogue : SameBut (fun app => app.orgID ≠ none ∧ app.orgID ≠ some orgID) catalogue
      catalogue') (rules : List DomainRule) :
    DomainRules.filterApprovedExceptions env requests catalogue rules orgID employeeID =
      DomainRules.filterApprovedExceptions env requests' catalogue' rules orgID employeeID := by
  have sameWebsites : DomainRules.approvedWebsites env requests employeeID =
      DomainRules.approvedWebsites env requests' employeeID := by
    rw [DomainRules.approvedWebsites, DomainRules.approvedWebsites, sameRequests.filter_eq]
    intro request notOwn
    simp [notOwn]
  have sameBundle (host : List Char) : DomainRules.websiteBundle env catalogue orgID host =
      DomainRules.websiteBundle env catalogue' orgID host := by
    rw [DomainRules.websiteBundle, DomainRules.websiteBundle, sameCatalogue.filter_eq]
    intro app elsewhere
    rw [decide_eq_false_iff_not]
    rintro ⟨isShared | isOwn, -⟩
    · exact elsewhere.1 isShared
    · exact elsewhere.2 isOwn
  have sameHosts : DomainRules.approvedHosts env requests catalogue orgID employeeID =
      DomainRules.approvedHosts env requests' catalogue' orgID employeeID := by
    rw [DomainRules.approvedHosts, DomainRules.approvedHosts, sameWebsites,
      List.flatMap_congr fun host _ => sameBundle host]
  rw [DomainRules.filterApprovedExceptions, DomainRules.filterApprovedExceptions, sameWebsites,
    sameHosts]

theorem TargetsElsewhere.not_matches (others : TargetsElsewhere employee targets) :
    policyTargetMatches targets (some employee.id) employee.teamID = false := by
  rw [policyTargetMatches]
  have notEmployee (absent : employee.id.text ∉ targets.employeeIDs) :
      idListContains targets.employeeIDs (some employee.id) = false := by
    simpa [idListContains] using absent
  have notTeam (absent : ∀ teamID ∈ employee.teamID, teamID.text ∉ targets.teamIDs) :
      idListContains targets.teamIDs employee.teamID = false := by
    rw [idListContains, Option.any_eq_false]
    intro teamID isTeam
    simpa using absent teamID isTeam
  cases others with
  | employees scope others => simpa [scope] using notEmployee others
  | teams scope others => simpa [scope] using notTeam others
  | named scope names otherEmployees otherTeams =>
    rw [if_pos scope, notEmployee otherEmployees, notTeam otherTeams, Bool.or_false, Bool.or_false,
      decide_eq_false_iff_not]
    rintro ⟨noEmployees, noTeams⟩
    rcases names with named | named
    · exact named noEmployees
    · exact named noTeams

theorem AppRuleElsewhere.not_covers (elsewhere : AppRuleElsewhere employee rule) :
    rule.orgID ≠ employee.orgID ∨
      AppControl.appRuleCovers rule (some employee.id) employee.teamID = false := by
  cases elsewhere with
  | org other =>
    left
    exact other
  | owner isOwner other =>
    right
    rw [AppControl.appRuleCovers, isOwner]
    simpa using other.symm
  | targets unowned others =>
    right
    rw [AppControl.appRuleCovers, unowned]
    exact others.not_matches

theorem teamOf_eq (isEmployee : employee ∈ db.employees.rows) :
    db.teamOf (some employee.id) = employee.teamID := by
  have found : (db.employees.rows.find? fun other => other.id == employee.id) = some employee := by
    rcases first : db.employees.rows.find? fun other => other.id == employee.id with _ | other
    · have none := List.find?_eq_none.mp first employee isEmployee
      rw [beq_self_eq_true] at none
      exact absurd rfl none
    · have sameID := List.find?_some first
      rw [beq_iff_eq] at sameID
      rw [first, db.employees.eq_of_id_eq (List.mem_of_find?_eq_some first) isEmployee sameID]
  rw [Database.teamOf, Option.bind_some, found, Option.bind_some]

namespace Agree

variable (agree : Agree employee db db')

include agree

theorem ownRequests : SameBut (fun request => request.employeeID ≠ employee.id)
    db.requests db'.requests := by
  apply agree.requests.imp
  rintro request (inDb | inDb') elsewhere isOwn
  · rcases elsewhere with otherEmployee | otherOrg
    · exact otherEmployee isOwn
    · exact otherOrg (db.requestOrgs request inDb employee agree.isEmployee isOwn)
  · rcases elsewhere with otherEmployee | otherOrg
    · exact otherEmployee isOwn
    · exact otherOrg (db'.requestOrgs request inDb' employee agree.isEmployee' isOwn)

theorem approvedApps_eq : AppControl.approvedApps env db.requests (some employee.id) =
    AppControl.approvedApps env db'.requests (some employee.id) := by
  rw [AppControl.approvedApps, AppControl.approvedApps, agree.ownRequests.filter_eq]
  intro request notOwn
  simp [notOwn]

theorem application_eq (inDb : rule ∈ db.rules) (inDb' : rule ∈ db'.rules)
    (isOrg : rule.orgID = employee.orgID) : db.application rule = db'.application rule := by
  have sameNamed : SameBut (fun app => app.id ≠ rule.applicationID) db.applications.rows
      db'.applications.rows := by
    apply agree.applications.imp
    rintro app (appMem | appMem) elsewhere isApp
    · rcases db.ruleApplications rule inDb app appMem isApp with isShared | isOwn
      · exact elsewhere.1 isShared
      · rw [isOrg] at isOwn
        exact elsewhere.2 isOwn
    · rcases db'.ruleApplications rule inDb' app appMem isApp with isShared | isOwn
      · exact elsewhere.1 isShared
      · rw [isOrg] at isOwn
        exact elsewhere.2 isOwn
  apply sameNamed.find?_eq
  intro app notApp
  exact beq_false_of_ne notApp

theorem activeAppRules_eq :
    db.activeAppRules env employee.orgID (some employee.id) employee.teamID =
      db'.activeAppRules env employee.orgID (some employee.id) employee.teamID := by
  rw [AppControl.activeAppRules_eq, AppControl.activeAppRules_eq]
  apply agree.rules.filterMap_eq_of_views
  · intro rule elsewhere
    rcases elsewhere.not_covers with otherOrg | uncovered
    · simp [AppControl.Database.entry, AppControl.Database.isActive, otherOrg]
    · simp [AppControl.Database.entry, AppControl.Database.isActive, uncovered]
  · intro rule inDb inDb'
    rw [AppControl.Database.entry, AppControl.Database.entry, AppControl.Database.isActive,
      AppControl.Database.isActive, agree.approvedApps_eq]
    by_cases isOrg : rule.orgID = employee.orgID
    · rw [agree.application_eq inDb inDb' isOrg]
    · simp [isOrg]

theorem appControlDomainRules_eq :
    db.appControlDomainRules env employee.orgID (some employee.id) employee.teamID =
      db'.appControlDomainRules env employee.orgID (some employee.id) employee.teamID := by
  rw [AppControl.Database.appControlDomainRules, AppControl.Database.appControlDomainRules,
    agree.activeAppRules_eq]

theorem configured_eq :
    db.configured env employee.orgID (some employee.id) employee.teamID =
      db'.configured env employee.orgID (some employee.id) employee.teamID := by
  rw [AppControl.Database.configured, AppControl.Database.configured, agree.approvedApps_eq,
    agree.rules.filter_eq]
  intro rule elsewhere
  rw [decide_eq_false_iff_not]
  rintro ⟨isOrg, covers⟩
  rcases elsewhere.not_covers with otherOrg | uncovered
  · exact otherOrg isOrg
  · rw [covers] at uncovered
    cases uncovered

theorem defaultVPNMatchers_eq :
    db.defaultVPNMatchers env employee.orgID (some employee.id) employee.teamID =
      db'.defaultVPNMatchers env employee.orgID (some employee.id) employee.teamID := by
  rw [AppControl.Database.defaultVPNMatchers, AppControl.Database.defaultVPNMatchers,
    agree.configured_eq, agree.applications.filter_eq]
  intro app elsewhere
  rw [decide_eq_false_iff_not]
  rintro ⟨isShared, -⟩
  exact elsewhere.1 isShared

theorem appControlMatchers_eq :
    db.appControlMatchers env employee.orgID (some employee.id) employee.teamID =
      db'.appControlMatchers env employee.orgID (some employee.id) employee.teamID := by
  rw [AppControl.Database.appControlMatchers, AppControl.Database.appControlMatchers,
    agree.activeAppRules_eq, agree.defaultVPNMatchers_eq]

theorem excluded_eq (row : CategoryDomain) :
    db.excluded employee.orgID row = db'.excluded employee.orgID row := by
  rw [Database.excluded, Database.excluded, ← List.isSome_find?, ← List.isSome_find?,
    agree.exclusions.find?_eq]
  intro exclusion elsewhere
  rw [decide_eq_false_iff_not]
  rintro ⟨isOrg, -⟩
  rw [isOrg] at elsewhere
  exact elsewhere.2 rfl

theorem categoryDomainsBySlug_eq {slugs slugs' : List String} {slug : String}
    (sameRead : slug ∈ slugs ↔ slug ∈ slugs') :
    db.categoryDomainsBySlug employee.orgID slugs slug =
      db'.categoryDomainsBySlug employee.orgID slugs' slug := by
  have sameRows : db.categoryDomains.filter (fun row =>
      (row.orgID = none ∨ row.orgID = some employee.orgID) ∧
        db.excluded employee.orgID row = false) =
      db'.categoryDomains.filter fun row =>
        (row.orgID = none ∨ row.orgID = some employee.orgID) ∧
          db'.excluded employee.orgID row = false := by
    simp only [agree.excluded_eq]
    apply agree.categoryDomains.filter_eq
    intro row elsewhere
    rw [decide_eq_false_iff_not]
    rintro ⟨isShared | isOwn, -⟩
    · exact elsewhere.1 isShared
    · exact elsewhere.2 isOwn
  simp only [Database.categoryDomainsBySlug, sameRows, agree.urlCategories, List.filter_flatMap,
    List.filter_map, List.filter_filter]
  congr 2
  funext row
  congr 2
  funext category
  dsimp only [Function.comp_apply]
  by_cases isSlug : category.slug = slug
  · rw [isSlug]
    simp only [sameRead]
  · simp [isSlug]

theorem targeted_eq :
    ((db.policies.filter fun policy => policy.enabled = true ∧ policy.orgID = employee.orgID).map
      (·.toPolicy)).filter (fun policy =>
        policyTargetMatches policy.targets (some employee.id) employee.teamID) =
    ((db'.policies.filter fun policy => policy.enabled = true ∧ policy.orgID = employee.orgID).map
      (·.toPolicy)).filter fun policy =>
        policyTargetMatches policy.targets (some employee.id) employee.teamID := by
  rw [List.filter_map, List.filter_map, List.filter_filter, List.filter_filter,
    agree.policies.filter_eq]
  intro policy elsewhere
  rw [Bool.and_eq_false_iff]
  cases elsewhere with
  | org other =>
    right
    rw [decide_eq_false_iff_not]
    rintro ⟨-, isOrg⟩
    exact other isOrg
  | targets others =>
    left
    exact others.not_matches

theorem expandPoliciesToDomainRules_eq :
    db.expandPoliciesToDomainRules env employee.orgID (some employee.id)
      (db.policies.filter fun policy => policy.enabled = true ∧ policy.orgID = employee.orgID)
        employee.teamID =
    db'.expandPoliciesToDomainRules env employee.orgID (some employee.id)
      (db'.policies.filter fun policy => policy.enabled = true ∧ policy.orgID = employee.orgID)
        employee.teamID := by
  rw [Database.expandPoliciesToDomainRules, Database.expandPoliciesToDomainRules,
    DomainRules.expandPoliciesToDomainRules, DomainRules.expandPoliciesToDomainRules]
  have targeted := agree.targeted_eq
  rw [targeted]
  apply List.flatMap_congr
  intro policy policyMem
  have inDb' := List.mem_of_mem_filter policyMem
  rw [← targeted] at policyMem
  have inDb := List.mem_of_mem_filter policyMem
  rw [resolvePolicyDomains_congr]
  intro slug slugMem
  apply agree.categoryDomainsBySlug_eq
  rw [Database.mem_allSlugs inDb slugMem, Database.mem_allSlugs inDb' slugMem]

theorem filterApprovedExceptions_eq (rules : List DomainRule) :
    DomainRules.filterApprovedExceptions env.toPrimitives (db.requests.map (·.toAccessRequest))
      (db.applications.rows.map (·.toManagedApplication)) rules employee.orgID employee.id =
    DomainRules.filterApprovedExceptions env.toPrimitives (db'.requests.map (·.toAccessRequest))
      (db'.applications.rows.map (·.toManagedApplication)) rules employee.orgID employee.id :=
  exceptions_eq (agree.ownRequests.map fun _ notOwn => notOwn)
    (agree.applications.map fun _ elsewhere => elsewhere) rules

theorem domainRules_eq :
    (db.domainRules.filter fun rule => rule.enabled = true ∧
      (rule.orgID = some employee.orgID ∨ rule.orgID = none)) =
    db'.domainRules.filter fun rule => rule.enabled = true ∧
      (rule.orgID = some employee.orgID ∨ rule.orgID = none) := by
  apply agree.domainRules.filter_eq
  intro rule elsewhere
  rw [decide_eq_false_iff_not]
  rintro ⟨-, isOwn | isShared⟩
  · exact elsewhere.2 isOwn
  · exact elsewhere.1 isShared

theorem getRules_eq : db.getRules env employee.orgID (some employee.id) =
    db'.getRules env employee.orgID (some employee.id) := by
  simp only [Database.getRules, teamOf_eq agree.isEmployee, teamOf_eq agree.isEmployee',
    agree.domainRules_eq, agree.expandPoliciesToDomainRules_eq, agree.appControlDomainRules_eq,
    agree.filterApprovedExceptions_eq]

theorem getAppControl_eq : db.getAppControl env employee.orgID (some employee.id) =
    db'.getAppControl env employee.orgID (some employee.id) := by
  rw [Database.getAppControl, Database.getAppControl, teamOf_eq agree.isEmployee,
    teamOf_eq agree.isEmployee', agree.appControlMatchers_eq]

end Agree

/-- Databases that differ only in rows about others resolve alike for the device of an employee. -/
theorem resolved_eq_of_agree (env : Primitives) (agree : Agree employee db db') :
    db.getRules env employee.orgID (some employee.id) =
        db'.getRules env employee.orgID (some employee.id) ∧
      db.getAppControl env employee.orgID (some employee.id) =
        db'.getAppControl env employee.orgID (some employee.id) :=
  ⟨agree.getRules_eq, agree.getAppControl_eq⟩

def alice : Employee := ⟨⟨2⟩, ⟨1⟩, some ⟨5⟩⟩
def bob : Employee := ⟨⟨3⟩, ⟨1⟩, none⟩

def messenger : AppControl.ManagedApplication where
  orgID := none
  domains := ["chat.example.com".toList]
  id := ⟨9⟩
  name := "Messenger"
  category := "messaging"
  processNames := ["messenger"]
  bundleIDs := []
  pathPatterns := []

def messengerRule (employeeID : Option UUID) (targets : Targets) : AppControlRule where
  orgID := ⟨1⟩
  applicationID := ⟨9⟩
  employeeID := employeeID
  action := .block
  enabled := true
  blockNetwork := true
  blockProcess := true
  targets := targets

def teamOnly : Database where
  rules := [messengerRule none ⟨"team", [], [UUID.text ⟨5⟩]⟩]
  applications := ⟨[messenger], by decide⟩
  requests := []
  employees := ⟨[alice, bob], by decide⟩
  domainRules := []
  policies := []
  urlCategories := []
  categoryDomains := []
  exclusions := []
  sorted := .nil
  ruleApplications := by
    intro _ _ app appMem _
    left
    rw [List.mem_singleton.mp appMem]
    rfl
  requestOrgs _ requestMem := by cases requestMem

def bobPolicy : StoredPolicy where
  orgID := ⟨1⟩
  name := "Streaming"
  type := "domain"
  action := .block
  domains := ["video.example.com".toList]
  categories := []
  targets := ⟨"", [bob.id.text], []⟩
  enabled := true
  priority := 1

def withBob : Database :=
  { teamOnly with
    rules := [messengerRule (some bob.id) ⟨"", [], []⟩,
      messengerRule none ⟨"team", [], [UUID.text ⟨5⟩]⟩]
    policies := [bobPolicy]
    requests := [⟨⟨bob.id, .website, "chat.example.com".toList, [], .approved⟩, ⟨1⟩⟩]
    sorted := List.pairwise_singleton _ _
    ruleApplications := by
      intro _ _ app appMem _
      left
      rw [List.mem_singleton.mp appMem]
      rfl
    requestOrgs := by decide }

theorem resolved_eq_withBob : Agree alice teamOnly withBob ∧
    teamOnly.getRules .ascii alice.orgID (some alice.id) =
        withBob.getRules .ascii alice.orgID (some alice.id) ∧
      teamOnly.getAppControl .ascii alice.orgID (some alice.id) =
        withBob.getAppControl .ascii alice.orgID (some alice.id) := by
  have agree : Agree alice teamOnly withBob :=
    { isEmployee := List.mem_cons_self
      isEmployee' := List.mem_cons_self
      rules := .onRight (.owner rfl (by decide)) (.refl _)
      applications := .refl _
      requests := .onRight (.inl (by decide)) .nil
      domainRules := .nil
      policies := .onRight (.targets (.named rfl (.inl (List.cons_ne_nil _ _)) (by decide) (by decide))) .nil
      urlCategories := rfl
      categoryDomains := .nil
      exclusions := .nil }
  exact ⟨agree, resolved_eq_of_agree .ascii agree⟩

end Aavishield.AgentFeed
