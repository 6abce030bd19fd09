import Aavishield.Policy.UrlTester
import Mathlib.Data.List.Find

/-!
# What the tester says and the agent does

The tester and the agents read the same tables, but not by the same rows.  The tester stops at
the rule of just the domain, even a platform-wide one, and else at a policy that lists it
as it is typed.  The agent takes the nearest domain above the host that has any rule, with the
policies before the platform-wide rules.  The two agree when the rows that can decide for
either have one action.
-/

namespace Aavishield.UrlTester

open AgentFeed (Employee)
open Dataplane (HasID Table)
open DomainRules (DomainRule PolicyAction PolicyCache folded parents policyTargetMatches)
open FirstMatch Text

structure Reorders (order tables : Tables) : Prop where
  domainRules : order.domainRules.rows.Perm tables.domainRules.rows
  policies : order.policies.Perm tables.policies
  employees : order.employees = tables.employees
  urlCategories : order.urlCategories.Perm tables.urlCategories
  categoryDomains : order.categoryDomains.Perm tables.categoryDomains
  exclusions : order.exclusions.Perm tables.exclusions

theorem Reorders.refl (tables : Tables) : Reorders tables tables :=
  ⟨.refl _, .refl _, rfl, .refl _, .refl _, .refl _⟩

namespace Tables

section Statement

variable (env : Primitives) (tables : Tables) (orgID employeeID : UUID)

/-- The tester says what a device does, in whatever order the rows come. -/
def TellsTruth (url : List Char) : Prop :=
  ∀ host, hostOfURL env url = some host → ∀ first second, Reorders first tables →
    Reorders second tables → ∀ evaluation, first.checkURL env orgID url [] = some evaluation →
      evaluation.action = second.enforced env orgID employeeID host

def testerActions (domain : List Char) : List PolicyAction :=
  match tables.namedRule orgID domain with
  | some rule => [rule.action]
  | none =>
    let policies := leading (·.priority) (fun policy =>
      (tables.hit env domain policy).isSome) (tables.activePolicies orgID)
    if policies ≠ [] then policies.map (·.action) else [.allow]

def covers (name : List Char) (policy : WebPolicy) : Bool :=
  policyTargetMatches policy.targets (some employeeID)
      (tables.database.teamOf (some employeeID)) &&
    (tables.resolvedDomains env policy).any fun domain =>
      env.toLowercase (trimSpace domain) = name

def kept (org : Option UUID) (name : List Char) (rule : RuleRow) : Bool :=
  rule.enabled = true ∧ rule.orgID = org ∧ rule.key env.toPrimitives = name

def actionsUnder (name : List Char) : List PolicyAction :=
  let own := tables.domainRules.rows.filter (kept env (some orgID) name)
  let policies := leading (·.priority) (tables.covers env employeeID name)
    (tables.activePolicies orgID)
  if own ≠ [] then own.map (·.action)
  else if policies ≠ [] then policies.map (·.action)
  else (tables.domainRules.rows.filter (kept env none name)).map (·.action)

def agentActions (host : List Char) : List PolicyAction :=
  let name := folded env.toPrimitives host
  match (name :: parents name).find? fun name =>
      name ≠ [] && tables.actionsUnder env orgID employeeID name ≠ [] with
  | some name => tables.actionsUnder env orgID employeeID name
  | none => [.allow]

/-- The rows that can decide for either side have one action, and none means to let through. -/
def Undivided (url : List Char) : Prop :=
  ∀ host, hostOfURL env url = some host → extractDomainFromURL env url ≠ [] →
    ∀ tested ∈ tables.testerActions env orgID (extractDomainFromURL env url),
      ∀ enforced ∈ tables.agentActions env orgID employeeID host, tested = enforced

end Statement

variable {env : Primitives} {tables order : Tables} {orgID employeeID : UUID}
  {policy : WebPolicy} {rule : RuleRow} {domain name host : List Char}

theorem mem_categoryDomainsBySlug {db : AgentFeed.Database} {slugs : List String} {slug : String} :
    domain ∈ db.categoryDomainsBySlug orgID slugs slug ↔
      slug ∈ slugs ∧ ∃ row ∈ db.categoryDomains, (row.orgID = none ∨ row.orgID = some orgID) ∧
        db.excluded orgID row = false ∧ row.domain = domain ∧
          ∃ category ∈ db.urlCategories, category.id = row.categoryID ∧ category.slug = slug := by
  simp only [AgentFeed.Database.categoryDomainsBySlug, List.mem_map, List.mem_filter,
    List.mem_flatMap, decide_eq_true_eq]
  constructor
  · rintro ⟨_, ⟨⟨row, ⟨rowMem, visible⟩, category, ⟨categoryMem, sameID, isRead⟩, rfl⟩, isSlug⟩, rfl⟩
    exact ⟨isSlug ▸ isRead, row, rowMem, visible.1, visible.2, rfl, category, categoryMem, sameID,
      isSlug⟩
  · rintro ⟨isRead, row, rowMem, isOwn, visible, rfl, category, categoryMem, sameID, rfl⟩
    exact ⟨_, ⟨⟨row, ⟨rowMem, isOwn, visible⟩, category, ⟨categoryMem, sameID, isRead⟩, rfl⟩, rfl⟩,
      rfl⟩

theorem mem_resolvePolicyDomains {env : DomainRules.Primitives} {policy : DomainRules.Policy}
    {domainsBySlug : String → List (List Char)} :
    domain ∈ DomainRules.resolvePolicyDomains env policy domainsBySlug ↔ domain ≠ [] ∧
      ∃ raw ∈ policy.domains ++ policy.categories.flatMap domainsBySlug,
        DomainRules.normalizePolicyDomain env raw = domain := by
  have folded : ∀ raws seen : List (List Char), domain ∈ raws.foldl (fun seen domain =>
      let domain := DomainRules.normalizePolicyDomain env domain
      if domain = [] ∨ domain ∈ seen then seen else seen ++ [domain]) seen ↔
        domain ∈ seen ∨ domain ≠ [] ∧
          ∃ raw ∈ raws, DomainRules.normalizePolicyDomain env raw = domain := by
    intro raws
    induction raws with
    | nil => simp
    | cons raw raws ih =>
      intro seen
      rw [List.foldl_cons, ih]
      simp only [List.mem_cons, exists_eq_or_imp]
      split
      · next passed => grind
      · next isNew => grind
  rw [DomainRules.resolvePolicyDomains, folded]
  simp

section Orders

variable (reorders : Reorders order tables)

include reorders

theorem excluded_eq : order.database.excluded orgID = tables.database.excluded orgID := by
  funext row
  exact reorders.exclusions.any_eq

theorem mem_categoryDomainsBySlug_iff {slugs slugs' : List String} {slug : String}
    (sameRead : slug ∈ slugs ↔ slug ∈ slugs') :
    domain ∈ order.database.categoryDomainsBySlug orgID slugs slug ↔
      domain ∈ tables.database.categoryDomainsBySlug orgID slugs' slug := by
  have sameRows : ∀ row, row ∈ order.database.categoryDomains ↔
      row ∈ tables.database.categoryDomains := fun _ => reorders.categoryDomains.mem_iff
  have sameCategories : ∀ category, category ∈ order.database.urlCategories ↔
      category ∈ tables.database.urlCategories := fun _ => reorders.urlCategories.mem_iff
  simp only [mem_categoryDomainsBySlug, sameRead, excluded_eq reorders, sameRows, sameCategories]

theorem mem_resolved_iff {slugs : List String}
    (reads : ∀ slug ∈ policy.categories, slug ∈ slugs ↔ slug ≠ "") :
    domain ∈ DomainRules.resolvePolicyDomains env.toPrimitives policy.toPolicy
        (order.database.categoryDomainsBySlug policy.orgID slugs) ↔
      domain ∈ tables.resolvedDomains env policy := by
  have same : ∀ raw, raw ∈ policy.categories.flatMap
      (order.database.categoryDomainsBySlug policy.orgID slugs) ↔
        raw ∈ policy.categories.flatMap (tables.database.categoryDomainsBySlug policy.orgID
          (policy.categories.filter (· ≠ ""))) := by
    intro raw
    simp only [List.mem_flatMap]
    apply exists_congr
    intro slug
    apply and_congr_right
    intro slugMem
    apply mem_categoryDomainsBySlug_iff reorders
    rw [reads slug slugMem]
    simp [slugMem]
  rw [resolvedDomains, mem_resolvePolicyDomains, mem_resolvePolicyDomains]
  simp [same]

theorem resolvedDomains_any (keeps : List Char → Bool) :
    (order.resolvedDomains env policy).any keeps =
      (tables.resolvedDomains env policy).any keeps := by
  have same := fun domain => @mem_resolved_iff env tables order policy domain reorders
    (policy.categories.filter (· ≠ "")) fun slug slugMem => by simp [slugMem]
  rw [Bool.eq_iff_iff, List.any_eq_true, List.any_eq_true]
  simp only [resolvedDomains] at same ⊢
  simp only [same]

theorem hit_eq : order.hit env domain policy = tables.hit env domain policy := by
  have same : listed env domain (order.resolvedDomains env policy) =
      listed env domain (tables.resolvedDomains env policy) :=
    resolvedDomains_any reorders _
  rw [hit, hit, same]

theorem covers_eq : order.covers env employeeID name = tables.covers env employeeID name := by
  funext policy
  have sameTeam : order.database.teamOf (some employeeID) =
      tables.database.teamOf (some employeeID) := by
    simp only [AgentFeed.Database.teamOf, database, reorders.employees]
  simp only [covers, resolvedDomains_any reorders, sameTeam]

theorem activePolicies_perm : (order.activePolicies orgID).Perm (tables.activePolicies orgID) :=
  reorders.policies.filter _

end Orders

def policyRules (env : Primitives) (tables : Tables) (orgID employeeID : UUID) :
    List DomainRule :=
  tables.database.expandPoliciesToDomainRules env.toFeed orgID (some employeeID)
    ((tables.activePolicies orgID).map (·.toStoredPolicy))
      (tables.database.teamOf (some employeeID))

theorem agentRules_eq : tables.agentRules env orgID employeeID =
    (tables.domainRules.rows.filter fun rule => rule.enabled = true ∧
      (rule.orgID = some orgID ∨ rule.orgID = none)).map (·.toDomainRule) ++
        tables.policyRules env orgID employeeID := by
  have noApps : tables.database.appControlDomainRules env.toFeed orgID (some employeeID)
      (tables.database.teamOf (some employeeID)) = [] := rfl
  have noRequests : DomainRules.approvedWebsites env.toPrimitives
      (tables.database.requests.map (·.toAccessRequest)) employeeID = [] := rfl
  have sameRules : (tables.database.domainRules.filter fun rule => rule.enabled = true ∧
      (rule.orgID = some orgID ∨ rule.orgID = none)).map (·.toDomainRule) =
        (tables.domainRules.rows.filter fun rule => rule.enabled = true ∧
          (rule.orgID = some orgID ∨ rule.orgID = none)).map (·.toDomainRule) := by
    rw [database, List.filter_map, List.map_map]
    rfl
  have samePolicies : (tables.database.policies.filter fun policy => policy.enabled = true ∧
      policy.orgID = orgID) = (tables.activePolicies orgID).map (·.toStoredPolicy) := by
    rw [database, List.filter_map]
    rfl
  rw [agentRules, AgentFeed.Database.getRules, noApps, sameRules, samePolicies]
  simp only [DomainRules.filterApprovedExceptions]
  rw [if_pos noRequests, List.append_nil]
  rfl

theorem orgID_of_mem_policyRules {shipped : DomainRule}
    (mem : shipped ∈ tables.policyRules env orgID employeeID) :
    shipped.orgID.isSome = true := by
  rcases List.mem_flatMap.mp mem with ⟨policy, -, inPolicy⟩
  rcases List.mem_map.mp inPolicy with ⟨domain, -, rfl⟩
  rfl

def shippedDomains (env : Primitives) (tables : Tables) (orgID : UUID) (policy : WebPolicy) :
    List (List Char) :=
  DomainRules.resolvePolicyDomains env.toPrimitives policy.toPolicy
    (tables.database.categoryDomainsBySlug orgID
      (AgentFeed.Database.allSlugs ((tables.activePolicies orgID).map (·.toStoredPolicy))))

theorem shippedDomains_any (active : policy ∈ tables.activePolicies orgID)
    (keeps : List Char → Bool) :
    (tables.shippedDomains env orgID policy).any keeps =
      (tables.resolvedDomains env policy).any keeps := by
  have isOrg : policy.orgID = orgID := (of_decide_eq_true (List.mem_filter.mp active).2).2
  have policyMem : policy.toPolicy ∈
      ((tables.activePolicies orgID).map (·.toStoredPolicy)).map (·.toPolicy) :=
    List.mem_map_of_mem (List.mem_map_of_mem active)
  have same : ∀ domain, domain ∈ tables.shippedDomains env orgID policy ↔
      domain ∈ tables.resolvedDomains env policy := by
    intro domain
    rw [shippedDomains, ← isOrg]
    apply mem_resolved_iff (Reorders.refl tables)
    intro slug slugMem
    rw [isOrg]
    exact AgentFeed.Database.mem_allSlugs policyMem slugMem
  rw [Bool.eq_iff_iff, List.any_eq_true, List.any_eq_true]
  simp only [same]

theorem find?_policyRules :
    ((tables.policyRules env orgID employeeID).find? fun shipped =>
      shipped.key env.toPrimitives = name).map (·.action) =
        ((tables.activePolicies orgID).find? (tables.covers env employeeID name)).map
          (·.action) := by
  rw [policyRules, AgentFeed.Database.expandPoliciesToDomainRules, DomainRules.find?_expandPolicies,
    List.map_map, List.find?_map, Option.map_map]
  have sameFirst : ∀ policies : List WebPolicy,
      (∀ policy ∈ policies, policy ∈ tables.activePolicies orgID) →
      policies.find? (fun policy =>
        policyTargetMatches policy.targets (some employeeID)
          (tables.database.teamOf (some employeeID)) &&
            (tables.shippedDomains env orgID policy).any fun domain =>
              env.toLowercase (trimSpace domain) = name) =
        policies.find? (tables.covers env employeeID name) := by
    intro policies
    induction policies with
    | nil => intro _; rfl
    | cons policy rest ih =>
      intro within
      rw [List.forall_mem_cons] at within
      rw [List.find?_cons, List.find?_cons, covers, shippedDomains_any within.1, ih within.2]
  rw [← sameFirst _ fun _ mem => mem]
  rfl

def decided (env : Primitives) (tables : Tables) (orgID employeeID : UUID)
    (name : List Char) : Option PolicyAction :=
  ((tables.domainRules.rows.find? (kept env (some orgID) name)).map (·.action)).or
    ((((tables.activePolicies orgID).find? (tables.covers env employeeID name)).map
      (·.action)).or
        ((tables.domainRules.rows.find? (kept env none name)).map (·.action)))

theorem find?_shippedRules (org : Option UUID) (visible : org = some orgID ∨ org = none) :
    (((tables.domainRules.rows.filter fun rule => rule.enabled = true ∧
      (rule.orgID = some orgID ∨ rule.orgID = none)).map (·.toDomainRule)).find? fun shipped =>
        decide (shipped.key env.toPrimitives = name) && shipped.orgID = org).map (·.action) =
      (tables.domainRules.rows.find? (kept env org name)).map (·.action) := by
  rw [List.find?_map, List.find?_filter, Option.map_map]
  congr 1
  apply List.find?_congr
  intro rule _
  rw [Bool.eq_iff_iff]
  simp only [Function.comp_apply, kept, Bool.and_eq_true, decide_eq_true_eq]
  constructor
  · rintro ⟨⟨isEnabled, -⟩, isKey, isOrg⟩
    exact ⟨isEnabled, isOrg, isKey⟩
  · rintro ⟨isEnabled, isOrg, isKey⟩
    exact ⟨⟨isEnabled, isOrg ▸ visible⟩, isKey, isOrg⟩

theorem matchDomain_agentRules (nonempty : name ≠ []) :
    ((PolicyCache.load env.toPrimitives
      (tables.agentRules env orgID employeeID)).matchDomain name).map (·.action) =
        tables.decided env orgID employeeID name := by
  let rules := (tables.domainRules.rows.filter fun rule => rule.enabled = true ∧
    (rule.orgID = some orgID ∨ rule.orgID = none)).map (·.toDomainRule)
  let policies := tables.policyRules env orgID employeeID
  let isKey : DomainRule → Bool := fun shipped => shipped.key env.toPrimitives = name
  have byName : (PolicyCache.load env.toPrimitives
      (tables.agentRules env orgID employeeID)).byDomain name =
        rules.filter isKey ++ policies.filter isKey := by
    rw [agentRules_eq, ← List.filter_append]
    apply List.filter_congr
    intro shipped _
    simp [nonempty, isKey]
  have isShipped : ∀ shipped ∈ rules, shipped.orgID = some orgID ∨ shipped.orgID = none := by
    intro shipped mem
    rcases List.mem_map.mp mem with ⟨rule, ruleMem, rfl⟩
    exact (of_decide_eq_true (List.mem_filter.mp ruleMem).2).2
  have own : (rules.filter isKey).find? (fun shipped => shipped.orgID.isSome) =
      rules.find? fun shipped => isKey shipped && shipped.orgID = some orgID := by
    rw [List.find?_filter]
    apply List.find?_congr
    intro shipped mem
    rcases isShipped shipped mem with isOrg | isOrg
    · simp [isOrg]
    · simp [isOrg]
  have shared : (rules.filter isKey).find? (fun shipped => shipped.orgID.isNone) =
      rules.find? fun shipped => isKey shipped && shipped.orgID = none := by
    rw [List.find?_filter]
    apply List.find?_congr
    intro shipped mem
    rcases isShipped shipped mem with isOrg | isOrg
    · simp [isOrg]
    · simp [isOrg]
  have ofPolicy : (policies.filter isKey).find? (fun shipped => shipped.orgID.isSome) =
      policies.find? isKey := by
    rw [List.find?_filter]
    apply List.find?_congr
    intro shipped mem
    simp [orgID_of_mem_policyRules mem]
  have notOfPolicy : (policies.filter isKey).find? (fun shipped => shipped.orgID.isNone) = none := by
    apply List.find?_eq_none.mpr
    intro shipped mem isNone
    have isSome := orgID_of_mem_policyRules (List.mem_of_mem_filter mem)
    rw [Option.isNone_iff_eq_none.mp isNone] at isSome
    cases isSome
  rw [PolicyCache.matchDomain, byName, List.find?_append, List.find?_append, own, shared, ofPolicy,
    notOfPolicy, Option.or_none, Option.map_or, Option.map_or, decided, Option.or_assoc]
  congr 1
  · exact find?_shippedRules (some orgID) (.inl rfl)
  · congr 1
    · exact find?_policyRules
    · exact find?_shippedRules none (.inr rfl)

theorem exists_order_of_rules {rows : List RuleRow} (perm : rows.Perm tables.domainRules.rows) :
    ∃ order, Reorders order tables ∧ order.domainRules.rows = rows ∧
      order.policies = tables.policies := by
  have distinct : (rows.map HasID.id).Nodup :=
    (perm.map HasID.id).nodup_iff.mpr tables.domainRules.distinct
  exact ⟨{ tables with domainRules := ⟨rows, distinct⟩ },
    ⟨perm, .refl _, rfl, .refl _, .refl _, .refl _⟩, rfl, rfl⟩

theorem exists_order_of_policies {picks : WebPolicy → Bool}
    (isLeading : policy ∈ leading (·.priority) picks (tables.activePolicies orgID)) :
    ∃ order, Reorders order tables ∧ order.domainRules = tables.domainRules ∧
      (order.activePolicies orgID).find? picks = some policy := by
  rcases exists_ranked_perm_find? tables.sorted (mem_leading_filter.mp isLeading) with
    ⟨policies, perm, sorted, first⟩
  refine ⟨{ tables with policies := policies, sorted := sorted },
    ⟨.refl _, perm, rfl, .refl _, .refl _, .refl _⟩, rfl, ?_⟩
  rw [activePolicies, List.find?_filter]
  simpa using first

theorem sorted_activePolicies (tables : Tables) (orgID : UUID) :
    (tables.activePolicies orgID).Pairwise fun first second => first.priority ≤ second.priority :=
  tables.sorted.sublist List.filter_sublist

section Orders

variable (reorders : Reorders order tables)

include reorders

theorem filter_eq_nil_of_find? {picks : RuleRow → Bool}
    (none : order.domainRules.rows.find? picks = none) : tables.domainRules.rows.filter picks = [] := by
  rw [List.find?_eq_none] at none
  apply List.filter_eq_nil_iff.mpr
  intro rule mem
  exact none rule (reorders.domainRules.mem_iff.mpr mem)

theorem mem_filter_of_find? {picks : RuleRow → Bool}
    (first : order.domainRules.rows.find? picks = some rule) :
    rule ∈ tables.domainRules.rows.filter picks :=
  List.mem_filter.mpr
    ⟨reorders.domainRules.mem_iff.mp (List.mem_of_find?_eq_some first), List.find?_some first⟩

theorem leading_eq_nil_of_find? {picks : WebPolicy → Bool}
    (none : (order.activePolicies orgID).find? picks = none) :
    leading (·.priority) picks (tables.activePolicies orgID) = [] := by
  rw [List.find?_eq_none] at none
  apply List.eq_nil_iff_forall_not_mem.mpr
  intro policy isLeading
  rcases (mem_leading.mp isLeading).1 with ⟨mem, isPicked⟩
  exact none policy ((activePolicies_perm reorders).mem_iff.mpr mem) isPicked

theorem mem_leading_of_active {picks : WebPolicy → Bool}
    (first : (order.activePolicies orgID).find? picks = some policy) :
    policy ∈ leading (·.priority) picks (tables.activePolicies orgID) :=
  mem_leading_of_find? (order.sorted_activePolicies orgID) (activePolicies_perm reorders) first

theorem mem_actionsUnder_of_decided {action : PolicyAction}
    (found : order.decided env orgID employeeID name = some action) :
    action ∈ tables.actionsUnder env orgID employeeID name := by
  simp only [actionsUnder]
  rw [decided, covers_eq reorders] at found
  cases own : order.domainRules.rows.find? (kept env (some orgID) name) with
  | some rule =>
    have ruleMem := mem_filter_of_find? reorders own
    rw [own] at found
    cases found
    rw [if_pos (List.ne_nil_of_mem ruleMem)]
    exact List.mem_map_of_mem ruleMem
  | none =>
    rw [own, Option.map_none, Option.none_or] at found
    rw [if_neg (not_not.mpr (filter_eq_nil_of_find? reorders own))]
    cases covering : (order.activePolicies orgID).find?
        (tables.covers env employeeID name) with
    | some policy =>
      have isLeading := mem_leading_of_active reorders covering
      rw [covering] at found
      cases found
      rw [if_pos (List.ne_nil_of_mem isLeading)]
      exact List.mem_map_of_mem isLeading
    | none =>
      rw [covering, Option.map_none, Option.none_or] at found
      rcases Option.map_eq_some_iff.mp found with ⟨rule, shared, rfl⟩
      rw [if_neg (not_not.mpr (leading_eq_nil_of_find? reorders covering))]
      exact List.mem_map_of_mem (mem_filter_of_find? reorders shared)

theorem decided_isSome_iff :
    (order.decided env orgID employeeID name).isSome = true ↔
      tables.actionsUnder env orgID employeeID name ≠ [] := by
  constructor
  · intro isSome
    rcases Option.isSome_iff_exists.mp isSome with ⟨action, found⟩
    exact List.ne_nil_of_mem (mem_actionsUnder_of_decided reorders found)
  · intro nonempty
    by_contra undecided
    apply nonempty
    rw [Bool.not_eq_true, Option.isSome_eq_false_iff, Option.isNone_iff_eq_none, decided,
      covers_eq reorders, Option.or_eq_none_iff, Option.or_eq_none_iff, Option.map_eq_none_iff,
      Option.map_eq_none_iff, Option.map_eq_none_iff] at undecided
    rcases undecided with ⟨own, covering, shared⟩
    simp [actionsUnder, filter_eq_nil_of_find? reorders own,
      leading_eq_nil_of_find? reorders covering, filter_eq_nil_of_find? reorders shared]

end Orders

variable {action : PolicyAction}

theorem exists_decided (canDecide : action ∈ tables.actionsUnder env orgID employeeID name) :
    ∃ order, Reorders order tables ∧
      order.decided env orgID employeeID name = some action := by
  simp only [actionsUnder] at canDecide
  split at canDecide
  · rcases List.mem_map.mp canDecide with ⟨rule, ruleMem, rfl⟩
    rcases List.mem_filter.mp ruleMem with ⟨inRows, isKept⟩
    rcases exists_perm_find? inRows isKept with ⟨rows, perm, first⟩
    rcases exists_order_of_rules perm with ⟨order, reorders, rfl, -⟩
    exact ⟨order, reorders, by simp [decided, first]⟩
  · next own =>
      rw [not_not] at own
      split at canDecide
      · rcases List.mem_map.mp canDecide with ⟨policy, isLeading, rfl⟩
        rcases exists_order_of_policies isLeading with ⟨order, reorders, sameRules, first⟩
        refine ⟨order, reorders, ?_⟩
        have noOwn := List.find?_eq_none.mpr (List.filter_eq_nil_iff.mp own)
        simp [decided, covers_eq reorders, sameRules, noOwn, first]
      · next policies =>
          rw [not_not] at policies
          rcases List.mem_map.mp canDecide with ⟨rule, ruleMem, rfl⟩
          rcases List.mem_filter.mp ruleMem with ⟨inRows, isKept⟩
          rcases exists_perm_find? inRows isKept with ⟨rows, perm, first⟩
          rcases exists_order_of_rules perm with ⟨order, reorders, rfl, samePolicies⟩
          refine ⟨order, reorders, ?_⟩
          have noOwn : order.domainRules.rows.find? (kept env (some orgID) name) = none :=
            List.find?_eq_none.mpr fun rule mem =>
              List.filter_eq_nil_iff.mp own rule (perm.mem_iff.mp mem)
          have noPolicy : (order.activePolicies orgID).find?
              (tables.covers env employeeID name) = none := by
            cases covering : (order.activePolicies orgID).find?
                (tables.covers env employeeID name) with
            | none => rfl
            | some policy =>
              have isLeading := mem_leading_of_active reorders covering
              rw [policies] at isLeading
              cases isLeading
          simp [decided, covers_eq reorders, noOwn, noPolicy, first]

theorem enforced_eq (host : List Char) :
    tables.enforced env orgID employeeID host =
      (((folded env.toPrimitives host :: parents (folded env.toPrimitives host)).find?
        fun name => name ≠ [] &&
          (tables.decided env orgID employeeID name).isSome).bind
            (tables.decided env orgID employeeID)).getD .allow := by
  let cache := PolicyCache.load env.toPrimitives
    (tables.agentRules env orgID employeeID)
  have unnamed : cache.matchDomain [] = none := by
    apply PolicyCache.matchDomain_eq_none_iff.mpr
    simp [cache, PolicyCache.load]
  have nearest : ∀ names : List (List Char), (names.findSome? cache.matchDomain).map (·.action) =
      (names.find? fun name => name ≠ [] &&
        (tables.decided env orgID employeeID name).isSome).bind
          (tables.decided env orgID employeeID) := by
    intro names
    induction names with
    | nil => rfl
    | cons name rest ih =>
      rw [List.findSome?_cons, List.find?_cons]
      by_cases isEmpty : name = []
      · simpa [isEmpty, unnamed] using ih
      · have here : (cache.matchDomain name).map (·.action) =
            tables.decided env orgID employeeID name := matchDomain_agentRules isEmpty
        cases found : cache.matchDomain name with
        | none =>
          rw [found, Option.map_none] at here
          simpa [isEmpty, ← here] using ih
        | some shipped =>
          rw [found, Option.map_some] at here
          simp [isEmpty, ← here]
  rw [enforced, DomainRules.check_load, PolicyCache.lookup_eq_findSome?]
  exact congrArg (·.getD .allow) (nearest _)

theorem mem_agentActions_iff :
    action ∈ tables.agentActions env orgID employeeID host ↔
      ∃ order, Reorders order tables ∧
        order.enforced env orgID employeeID host = action := by
  let names := folded env.toPrimitives host :: parents (folded env.toPrimitives host)
  have sameName : ∀ order, Reorders order tables →
      (names.find? fun name => name ≠ [] &&
        (order.decided env orgID employeeID name).isSome) =
          names.find? fun name => name ≠ [] &&
            tables.actionsUnder env orgID employeeID name ≠ [] := by
    intro order reorders
    apply List.find?_congr
    intro name _
    rw [Bool.eq_iff_iff, Bool.and_eq_true, Bool.and_eq_true, decided_isSome_iff reorders]
    simp
  have answer : ∀ order, Reorders order tables →
      order.enforced env orgID employeeID host =
        ((names.find? fun name => name ≠ [] &&
          tables.actionsUnder env orgID employeeID name ≠ []).bind
            (order.decided env orgID employeeID)).getD .allow := by
    intro order reorders
    rw [enforced_eq, sameName order reorders]
  simp only [agentActions]
  cases nearest : names.find? fun name => name ≠ [] &&
      tables.actionsUnder env orgID employeeID name ≠ [] with
  | none =>
    rw [nearest] at answer
    dsimp only
    constructor
    · intro isAllow
      refine ⟨tables, Reorders.refl tables, ?_⟩
      rw [answer tables (Reorders.refl tables)]
      exact (List.mem_singleton.mp isAllow).symm
    · rintro ⟨order, reorders, rfl⟩
      rw [answer order reorders]
      exact List.mem_singleton_self _
  | some name =>
    rw [nearest] at answer
    have nonempty : tables.actionsUnder env orgID employeeID name ≠ [] := by
      have isNamed := List.find?_some nearest
      simp only [Bool.and_eq_true, decide_eq_true_eq] at isNamed
      exact isNamed.2
    dsimp only
    constructor
    · intro canDecide
      rcases exists_decided canDecide with ⟨order, reorders, found⟩
      refine ⟨order, reorders, ?_⟩
      rw [answer order reorders, Option.bind_some, found, Option.getD_some]
    · rintro ⟨order, reorders, rfl⟩
      rw [answer order reorders, Option.bind_some]
      rcases Option.isSome_iff_exists.mp ((decided_isSome_iff reorders).mpr nonempty) with
        ⟨action, found⟩
      rw [found]
      exact mem_actionsUnder_of_decided reorders found

theorem firstByID_perm {rows rows' : List RuleRow} (perm : rows'.Perm rows)
    (within : ∀ row ∈ rows, row ∈ tables.domainRules.rows) : firstByID rows' = firstByID rows := by
  have least : ∀ {rows : List RuleRow} {row other : RuleRow}, firstByID rows = some row →
      other ∈ rows → row.id.bits.toNat ≤ other.id.bits.toNat := fun isFirst otherMem =>
    List.le_of_mem_argmin (f := fun row : RuleRow => row.id.bits.toNat) otherMem isFirst
  cases isFirst : firstByID rows with
  | none =>
    rw [firstByID, List.argmin_eq_none] at isFirst ⊢
    subst isFirst
    exact perm.eq_nil
  | some row =>
    have rowMem : row ∈ rows := List.argmin_mem isFirst
    cases isFirst' : firstByID rows' with
    | none =>
      rw [firstByID, List.argmin_eq_none] at isFirst'
      subst isFirst'
      rw [perm.symm.eq_nil] at rowMem
      cases rowMem
    | some row' =>
      have rowMem' : row' ∈ rows := perm.mem_iff.mp (List.argmin_mem isFirst')
      have sameID : row'.id = row.id := by
        have sameBits := Nat.le_antisymm (least isFirst' (perm.mem_iff.mpr rowMem))
          (least isFirst rowMem')
        exact congrArg UUID.mk (BitVec.eq_of_toNat_eq sameBits)
      rw [tables.domainRules.eq_of_id_eq (within row' rowMem') (within row rowMem) sameID]

theorem namedRule_eq (reorders : Reorders order tables) :
    order.namedRule orgID domain = tables.namedRule orgID domain := by
  have same : ∀ picks picks' : RuleRow → Bool,
      firstByID ((order.domainRules.rows.filter picks).filter picks') =
        firstByID ((tables.domainRules.rows.filter picks).filter picks') := by
    intro picks picks'
    apply firstByID_perm ((reorders.domainRules.filter picks).filter picks')
    intro row mem
    exact List.mem_of_mem_filter (List.mem_of_mem_filter mem)
  simp only [namedRule, same]

theorem evaluateURL_action : (tables.evaluateURL env orgID domain).action =
    match tables.namedRule orgID domain with
    | some rule => rule.action
    | none => (((tables.activePolicies orgID).find? fun policy =>
      (tables.hit env domain policy).isSome).map (·.action)).getD .allow := by
  have first : ∀ policies : List WebPolicy, (policies.findSome? fun policy =>
      (tables.hit env domain policy).map fun reason => (policy, reason)).map (·.1) =
        policies.find? fun policy => (tables.hit env domain policy).isSome := by
    intro policies
    induction policies with
    | nil => rfl
    | cons policy rest ih =>
      rw [List.findSome?_cons, List.find?_cons]
      cases tables.hit env domain policy with
      | none => exact ih
      | some reason => rfl
  rw [evaluateURL]
  cases tables.namedRule orgID domain with
  | some rule => rfl
  | none =>
    dsimp only
    rw [← first]
    cases (tables.activePolicies orgID).findSome? fun policy =>
        (tables.hit env domain policy).map fun reason => (policy, reason) with
    | none => rfl
    | some found => rfl

theorem mem_testerActions_iff :
    action ∈ tables.testerActions env orgID domain ↔
      ∃ order, Reorders order tables ∧
        (order.evaluateURL env orgID domain).action = action := by
  have answer : ∀ order, Reorders order tables →
      (order.evaluateURL env orgID domain).action =
        match tables.namedRule orgID domain with
        | some rule => rule.action
        | none => (((order.activePolicies orgID).find? fun policy =>
          (tables.hit env domain policy).isSome).map (·.action)).getD .allow := by
    intro order reorders
    rw [evaluateURL_action, namedRule_eq reorders]
    simp only [hit_eq reorders]
  simp only [testerActions]
  cases named : tables.namedRule orgID domain with
  | some rule =>
    rw [named] at answer
    dsimp only
    constructor
    · intro isAction
      refine ⟨tables, Reorders.refl tables, ?_⟩
      rw [answer tables (Reorders.refl tables)]
      exact (List.mem_singleton.mp isAction).symm
    · rintro ⟨order, reorders, rfl⟩
      rw [answer order reorders]
      exact List.mem_singleton_self _
  | none =>
    rw [named] at answer
    dsimp only at answer ⊢
    split
    · constructor
      · intro canDecide
        rcases List.mem_map.mp canDecide with ⟨policy, isLeading, rfl⟩
        rcases exists_order_of_policies isLeading with ⟨order, reorders, -, first⟩
        exact ⟨order, reorders, by rw [answer order reorders, first]; rfl⟩
      · rintro ⟨order, reorders, rfl⟩
        rw [answer order reorders]
        cases first : (order.activePolicies orgID).find? fun policy =>
            (tables.hit env domain policy).isSome with
        | none =>
          next nonempty => exact absurd (leading_eq_nil_of_find? reorders first) nonempty
        | some policy => exact List.mem_map_of_mem (mem_leading_of_active reorders first)
    · next nothing =>
        rw [not_not] at nothing
        have undecided : ∀ order, Reorders order tables →
            (order.evaluateURL env orgID domain).action = .allow := by
          intro order reorders
          rw [answer order reorders]
          cases first : (order.activePolicies orgID).find? fun policy =>
              (tables.hit env domain policy).isSome with
          | none => rfl
          | some policy =>
            have isLeading := mem_leading_of_active reorders first
            rw [nothing] at isLeading
            cases isLeading
        constructor
        · intro isAllow
          refine ⟨tables, Reorders.refl tables, ?_⟩
          rw [undecided tables (Reorders.refl tables)]
          exact (List.mem_singleton.mp isAllow).symm
        · rintro ⟨order, reorders, rfl⟩
          rw [undecided order reorders]
          exact List.mem_singleton_self _

/--
The tester tells the truth about a URL exactly when the rows that can decide for it and those
that can decide for the agent have one action.
-/
theorem tellsTruth_iff_undivided (env : Primitives) (tables : Tables)
    (orgID employeeID : UUID) (url : List Char) :
    tables.TellsTruth env orgID employeeID url ↔
      tables.Undivided env orgID employeeID url := by
  constructor
  · intro truth host isHost named tested canTest enforced canEnforce
    rcases mem_testerActions_iff.mp canTest with ⟨first, firstReorders, rfl⟩
    rcases mem_agentActions_iff.mp canEnforce with ⟨second, secondReorders, rfl⟩
    apply truth host isHost first second firstReorders secondReorders
    simp [checkURL, named]
  · intro undivided host isHost first second firstReorders secondReorders evaluation answered
    by_cases named : extractDomainFromURL env url = []
    · simp [checkURL, named] at answered
    · simp only [checkURL, if_true, named, if_false, Option.some.injEq] at answered
      apply undivided host isHost named
      · exact mem_testerActions_iff.mpr ⟨first, firstReorders, by rw [answered]⟩
      · exact mem_agentActions_iff.mpr ⟨second, secondReorders, rfl⟩

end Tables

def asciiPrimitives : Primitives :=
  { AppControl.Primitives.ascii with
    equalFold := fun first second => first.map Char.toLower == second.map Char.toLower
    hostname := fun url => (afterFirst "://".toList url).map (List.takeWhile (· ≠ '/')) }

def blockingPolicy : WebPolicy where
  orgID := ⟨1⟩
  name := "Social media"
  type := "swg"
  action := .block
  domains := ["example.com".toList]
  categories := []
  targets := ⟨"all", [], []⟩
  enabled := true
  priority := 0
  urls := []

def onePolicy : Tables where
  domainRules := .empty
  policies := [blockingPolicy]
  employees := .empty
  urlCategories := []
  categoryDomains := []
  exclusions := []
  sorted := List.pairwise_singleton _ _

/-- The agent blocks the subdomains of a domain, which the tester lets through. -/
theorem not_alwaysTellsTruth :
    ¬∀ (env : Primitives) (tables : Tables) (orgID employeeID : UUID) (url : List Char),
      tables.TellsTruth env orgID employeeID url := by
  intro always
  have truth := always asciiPrimitives onePolicy ⟨1⟩ ⟨2⟩ "https://cdn.example.com/".toList
    "cdn.example.com".toList (by decide +kernel) onePolicy onePolicy (.refl _) (.refl _) _ rfl
  exact absurd truth (by decide +kernel)

end Aavishield.UrlTester
