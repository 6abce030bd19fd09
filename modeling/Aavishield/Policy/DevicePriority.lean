import Aavishield.Policy.TesterTruth

/-!
# Priorities on the device

The policies of an organisation are expanded in the order of their priorities, and the agent sorts
what comes of them by domains.  Of the policies that cover the nearest covered domain above a host,
the one that comes first decides.
-/

namespace Aavishield.AgentFeed

open AppControl (Primitives)
open DomainRules (DomainRule PolicyAction PolicyCache folded parents policyTargetMatches
  resolvePolicyDomains normalizePolicyDomain normDomain)
open FirstMatch Labels Text

def Suffix (host name : List Char) : Prop := name = host ∨ '.' :: name <:+ host ∧ '.' ∈ name

section Suffixes

variable {host name : List Char}

theorem mem_suffixes : name ∈ host :: parents host ↔ Suffix host name := by
  rw [List.mem_cons, DomainRules.mem_parents, Suffix]

theorem pairwise_suffixes (host : List Char) :
    (host :: parents host).Pairwise fun longer shorter => shorter.length < longer.length := by
  rw [DomainRules.parents_eq]
  exact (pairwise_afters '.' host).sublist (List.filter_sublist.cons_cons host)

theorem Suffix.eq_of_length {other : List Char} (suffix : Suffix host name)
    (otherSuffix : Suffix host other) (same : name.length = other.length) : name = other := by
  have isSuffix : ∀ {name : List Char}, Suffix host name → name <:+ host := by
    rintro name (rfl | ⟨below, -⟩)
    · exact List.suffix_refl name
    · exact (List.suffix_cons '.' name).trans below
  exact (List.suffix_of_suffix_length_le (isSuffix suffix) (isSuffix otherSuffix) same.le).eq_of_length
    same

end Suffixes

def keptAs (env : Primitives) (domain : List Char) : List Char :=
  env.toLowercase (trimSpace domain)

namespace Database

section Statement

variable (env : Primitives) (db : Database) (orgID : UUID) (employeeID : Option UUID)

def activePolicies : List StoredPolicy :=
  db.policies.filter fun policy => policy.enabled = true ∧ policy.orgID = orgID

def otherRules : List DomainRule :=
  (db.domainRules.filter fun rule => rule.enabled = true ∧
    (rule.orgID = some orgID ∨ rule.orgID = none)).map (·.toDomainRule) ++
      db.appControlDomainRules env orgID employeeID (db.teamOf employeeID)

def InCategory (slug : String) (domain : List Char) : Prop :=
  ∃ row ∈ db.categoryDomains, (row.orgID = none ∨ row.orgID = some orgID) ∧
    db.excluded orgID row = false ∧ row.domain = domain ∧
      ∃ category ∈ db.urlCategories, category.id = row.categoryID ∧ category.slug = slug

def CoversName (policy : StoredPolicy) (name : List Char) : Prop :=
  ∃ domain, (domain ∈ policy.domains ∨
      ∃ slug ∈ policy.categories, slug ≠ "" ∧ db.InCategory orgID slug domain) ∧
    keptAs env (normalizePolicyDomain env.toPrimitives domain) = name ∧ name ≠ []

/-- An active policy for the employee covers the name. -/
def Applies (policy : StoredPolicy) (name : List Char) : Prop :=
  policy ∈ db.activePolicies orgID ∧
    policyTargetMatches policy.targets employeeID (db.teamOf employeeID) = true ∧
      db.CoversName env orgID policy name

/-- The policy comes first for the host's nearest name. -/
def Decides (host : List Char) (policy : StoredPolicy) : Prop :=
  ∃ name, Suffix host name ∧ db.Applies env orgID employeeID policy name ∧
    (∀ other, db.Applies env orgID employeeID other name → policy.priority ≤ other.priority) ∧
      ∀ longer other, Suffix host longer → db.Applies env orgID employeeID other longer →
        longer.length ≤ name.length

def Excepted (host : List Char) : Prop :=
  ∃ employee, employeeID = some employee ∧ ∃ granted ∈ DomainRules.approvedHosts env.toPrimitives
      (db.requests.map (·.toAccessRequest)) (db.applications.rows.map (·.toManagedApplication)) orgID
        employee,
    Suffix host (keptAs env granted) ∨ ∃ domain, Suffix host (keptAs env domain) ∧
      normDomain env.toPrimitives domain = granted

/-- What the device does with a host. -/
def deviceAction (host : List Char) : Option PolicyAction :=
  ((PolicyCache.load env.toPrimitives (db.getRules env orgID employeeID)).check
    env.toPrimitives host).map (·.action)

end Statement

variable {env : Primitives} {db : Database} {orgID : UUID} {employeeID : Option UUID}
  {policy : StoredPolicy} {name host : List Char} {rules : List DomainRule}

def policyRules (env : Primitives) (db : Database) (orgID : UUID) (employeeID : Option UUID) :
    List DomainRule :=
  db.expandPoliciesToDomainRules env orgID employeeID (db.activePolicies orgID)
    (db.teamOf employeeID)

def resolved (env : Primitives) (db : Database) (orgID : UUID) (policy : StoredPolicy) :
    List (List Char) :=
  resolvePolicyDomains env.toPrimitives policy.toPolicy
    (db.categoryDomainsBySlug orgID (allSlugs (db.activePolicies orgID)))

def applies (env : Primitives) (db : Database) (orgID : UUID) (employeeID : Option UUID)
    (name : List Char) (policy : StoredPolicy) : Bool :=
  policyTargetMatches policy.targets employeeID (db.teamOf employeeID) &&
    (db.resolved env orgID policy).any fun domain => keptAs env domain = name

theorem keptAs_nil : keptAs env [] = [] :=
  env.toLowercase_ascii [] (by simp [DomainRules.IsAscii])

theorem resolved_any (active : policy ∈ db.activePolicies orgID) (nonempty : name ≠ []) :
    ((db.resolved env orgID policy).any fun domain => keptAs env domain = name) = true ↔
      db.CoversName env orgID policy name := by
  have policyMem : policy.toPolicy ∈ (db.activePolicies orgID).map (·.toPolicy) :=
    List.mem_map_of_mem active
  simp only [List.any_eq_true, decide_eq_true_eq, resolved, UrlTester.Tables.mem_resolvePolicyDomains,
    List.mem_append, List.mem_flatMap, UrlTester.Tables.mem_categoryDomainsBySlug]
  constructor
  · rintro ⟨_, ⟨-, domain, listed | ⟨slug, slugMem, isRead, inCategory⟩, rfl⟩, isName⟩
    · exact ⟨domain, .inl listed, isName, nonempty⟩
    · exact ⟨domain, .inr ⟨slug, slugMem, (mem_allSlugs policyMem slugMem).1 isRead, inCategory⟩, isName,
        nonempty⟩
  · rintro ⟨domain, covered, isName, -⟩
    refine ⟨_, ⟨?_, domain, ?_, rfl⟩, isName⟩
    · intro empty
      rw [empty, keptAs_nil] at isName
      exact nonempty isName.symm
    · rcases covered with listed | ⟨slug, slugMem, isSlug, inCategory⟩
      · exact .inl listed
      · exact .inr ⟨slug, slugMem, (mem_allSlugs policyMem slugMem).2 isSlug, inCategory⟩

theorem applies_iff (nonempty : name ≠ []) :
    policy ∈ db.activePolicies orgID ∧ db.applies env orgID employeeID name policy = true ↔
      db.Applies env orgID employeeID policy name := by
  rw [applies, Bool.and_eq_true, Applies]
  constructor
  · rintro ⟨active, targets, covers⟩
    exact ⟨active, targets, (resolved_any active nonempty).1 covers⟩
  · rintro ⟨active, targets, covers⟩
    exact ⟨active, targets, (resolved_any active nonempty).2 covers⟩

theorem find?_policyRules :
    ((db.policyRules env orgID employeeID).find? fun rule =>
      rule.key env.toPrimitives = name).map (·.action) =
      ((db.activePolicies orgID).find? (db.applies env orgID employeeID name)).map
        (·.action) := by
  rw [policyRules, expandPoliciesToDomainRules, DomainRules.find?_expandPolicies, List.find?_map,
    Option.map_map]
  rfl

theorem filter_getRules (suffix : Suffix host name)
    (unnamed : ∀ rule ∈ db.otherRules env orgID employeeID,
      ¬Suffix host (keptAs env rule.domain))
    (unexcepted : ¬db.Excepted env orgID employeeID host) :
    ((db.getRules env orgID employeeID).filter fun rule =>
        rule.key env.toPrimitives = name) =
      (db.policyRules env orgID employeeID).filter fun rule =>
        rule.key env.toPrimitives = name := by
  let rules := (db.domainRules.filter fun rule => rule.enabled = true ∧
    (rule.orgID = some orgID ∨ rule.orgID = none)).map (·.toDomainRule)
  let appRules := db.appControlDomainRules env orgID employeeID (db.teamOf employeeID)
  let all := rules ++ db.policyRules env orgID employeeID ++ appRules
  have others : ∀ rule ∈ rules ++ appRules, ¬rule.key env.toPrimitives = name := by
    rintro rule mem rfl
    exact unnamed rule mem suffix
  rw [List.forall_mem_append] at others
  have noRules : (rules.filter fun rule => rule.key env.toPrimitives = name) = [] :=
    List.filter_eq_nil_iff.2 (by simpa using others.1)
  have noAppRules : (appRules.filter fun rule => rule.key env.toPrimitives = name) = [] :=
    List.filter_eq_nil_iff.2 (by simpa using others.2)
  have whole : (all.filter fun rule => rule.key env.toPrimitives = name) =
      (db.policyRules env orgID employeeID).filter fun rule =>
        rule.key env.toPrimitives = name := by
    simp [all, noRules, noAppRules]
  rw [← whole]
  cases employeeID with
  | none => rfl
  | some employee =>
    let allowed := DomainRules.approvedHosts env.toPrimitives
      (db.requests.map (·.toAccessRequest)) (db.applications.rows.map (·.toManagedApplication)) orgID
        employee
    change (DomainRules.filterApprovedExceptions env.toPrimitives _ _ all orgID
      employee).filter _ = _
    rw [DomainRules.filterApprovedExceptions]
    split_ifs with noWebsites
    · rfl
    · change ((DomainRules.filtered env.toPrimitives allowed all orgID).filter _) = _
      have noApprovals : ((DomainRules.approvals env.toPrimitives allowed all orgID).filter
          fun rule => rule.key env.toPrimitives = name) = [] := by
        rw [List.filter_eq_nil_iff]
        intro rule mem isName
        obtain ⟨granted, isGranted, rfl⟩ := List.mem_map.1 mem
        refine unexcepted ⟨employee, rfl, granted, ?_, .inl ?_⟩
        · exact (env.walk_perm allowed).mem_iff.1 (List.mem_of_mem_filter isGranted)
        · rw [← of_decide_eq_true isName] at suffix
          exact suffix
      rw [DomainRules.filtered, List.filter_append, noApprovals, List.append_nil, List.filter_filter]
      apply List.filter_congr
      intro rule mem
      by_cases isName : rule.key env.toPrimitives = name
      · have notAllowed : normDomain env.toPrimitives rule.domain ∉ allowed := by
          intro isAllowed
          rw [← isName] at suffix
          exact unexcepted ⟨employee, rfl, _, isAllowed, .inr ⟨rule.domain, suffix, rfl⟩⟩
        simp [isName, DomainRules.keeps, notAllowed]
      · simp [isName]

theorem matchDomain_getRules (suffix : Suffix host name)
    (unnamed : ∀ rule ∈ db.otherRules env orgID employeeID,
      ¬Suffix host (keptAs env rule.domain))
    (unexcepted : ¬db.Excepted env orgID employeeID host) (nonempty : name ≠ []) :
    ((PolicyCache.load env.toPrimitives (db.getRules env orgID employeeID)).matchDomain
        name).map (·.action) =
      ((db.activePolicies orgID).find? (db.applies env orgID employeeID name)).map
        (·.action) := by
  have kept : (PolicyCache.load env.toPrimitives (db.getRules env orgID
      employeeID)).byDomain name = (db.policyRules env orgID employeeID).filter fun rule =>
        rule.key env.toPrimitives = name := by
    rw [← filter_getRules suffix unnamed unexcepted, PolicyCache.load]
    simp [nonempty]
  have ofOrg : ∀ rule ∈ (db.policyRules env orgID employeeID).filter fun rule =>
      decide (rule.key env.toPrimitives = name), rule.orgID.isSome = true := by
    intro rule mem
    obtain ⟨policy, -, inPolicy⟩ := List.mem_flatMap.1 (List.mem_of_mem_filter mem)
    obtain ⟨domain, -, rfl⟩ := List.mem_map.1 inPolicy
    rfl
  have isFirst : ∀ rules : List DomainRule, (∀ rule ∈ rules, rule.orgID.isSome = true) →
      (rules.find? fun rule => rule.orgID.isSome).or (rules.find? fun rule => rule.orgID.isNone) =
        rules.head? := by
    intro rules ofOrg
    cases rules with
    | nil => rfl
    | cons rule rest => simp [ofOrg rule (by simp)]
  rw [← find?_policyRules, PolicyCache.matchDomain, kept, isFirst _ ofOrg, List.head?_filter]

theorem matchDomain_eq_none_iff (suffix : Suffix host name)
    (unnamed : ∀ rule ∈ db.otherRules env orgID employeeID,
      ¬Suffix host (keptAs env rule.domain))
    (unexcepted : ¬db.Excepted env orgID employeeID host) :
    (PolicyCache.load env.toPrimitives (db.getRules env orgID employeeID)).matchDomain
        name = none ↔
      ∀ policy, ¬db.Applies env orgID employeeID policy name := by
  by_cases nonempty : name = []
  · subst nonempty
    have nothing : (PolicyCache.load env.toPrimitives
        (db.getRules env orgID employeeID)).byDomain [] = [] := by
      simp [PolicyCache.load]
    simp [PolicyCache.matchDomain_eq_none_iff, nothing, Applies, CoversName]
  · rw [← Option.map_eq_none_iff (f := (·.action)), matchDomain_getRules suffix unnamed unexcepted nonempty,
      Option.map_eq_none_iff, List.find?_eq_none]
    constructor
    · intro notApplies policy isApplied
      obtain ⟨active, isApplied⟩ := (applies_iff nonempty).2 isApplied
      exact notApplies policy active isApplied
    · intro none policy active isApplied
      exact none policy ((applies_iff nonempty).1 ⟨active, isApplied⟩)

theorem exists_of_matchDomain {rule : DomainRule} (suffix : Suffix host name)
    (unnamed : ∀ rule ∈ db.otherRules env orgID employeeID,
      ¬Suffix host (keptAs env rule.domain))
    (unexcepted : ¬db.Excepted env orgID employeeID host)
    (found : (PolicyCache.load env.toPrimitives
      (db.getRules env orgID employeeID)).matchDomain name = some rule) :
    ∃ policy, db.Applies env orgID employeeID policy name ∧ policy.action = rule.action ∧
      ∀ other, db.Applies env orgID employeeID other name → policy.priority ≤ other.priority := by
  have nonempty : name ≠ [] := by
    rintro rfl
    have mem := PolicyCache.mem_byDomain_of_matchDomain found
    simp [PolicyCache.load] at mem
  have isFirst := matchDomain_getRules suffix unnamed unexcepted nonempty
  rw [found] at isFirst
  obtain ⟨policy, isFound, action⟩ := Option.map_eq_some_iff.1 isFirst.symm
  have sorted : (db.activePolicies orgID).Pairwise fun first second => first.priority ≤ second.priority :=
    db.sorted.sublist List.filter_sublist
  obtain ⟨⟨active, isApplied⟩, least⟩ :=
    mem_leading.1 (mem_leading_of_find? sorted (.refl _) isFound)
  refine ⟨policy, (applies_iff nonempty).1 ⟨active, isApplied⟩, action, ?_⟩
  intro other otherApplies
  obtain ⟨otherActive, otherApplied⟩ := (applies_iff nonempty).2 otherApplies
  exact least other otherActive otherApplied

theorem Decides.unique {other : StoredPolicy}
    (distinct : ((db.activePolicies orgID).map (·.priority)).Nodup)
    (decides : db.Decides env orgID employeeID host policy)
    (otherDecides : db.Decides env orgID employeeID host other) : policy = other := by
  obtain ⟨name, suffix, isApplied, least, longest⟩ := decides
  obtain ⟨otherName, otherSuffix, otherApplied, otherLeast, otherLongest⟩ := otherDecides
  obtain rfl : name = otherName := by
    apply suffix.eq_of_length otherSuffix
    exact le_antisymm (otherLongest name policy suffix isApplied)
      (longest otherName other otherSuffix otherApplied)
  have same : policy.priority = other.priority :=
    le_antisymm (least other otherApplied) (otherLeast policy isApplied)
  exact List.inj_on_of_nodup_map distinct isApplied.1 otherApplied.1 same

/-- The agent acts on a host as the policy of the lowest number demands, of those that target the
employee and cover the longest covered name of the host. -/
theorem deviceAction_iff (env : Primitives) (db : Database) (orgID : UUID)
    (employeeID : Option UUID) (host : List Char)
    (distinct : ((db.activePolicies orgID).map (·.priority)).Nodup)
    (lowercase : env.toLowercase host = host) (bare : ¬"www.".toList <+: host)
    (unnamed : ∀ rule ∈ db.otherRules env orgID employeeID,
      ¬Suffix host (keptAs env rule.domain))
    (unexcepted : ¬db.Excepted env orgID employeeID host) :
    (∀ action, db.deviceAction env orgID employeeID host = some action ↔
        ∃ policy, db.Decides env orgID employeeID host policy ∧ policy.action = action) ∧
      (db.deviceAction env orgID employeeID host = none ↔
        ∀ name policy, Suffix host name → ¬db.Applies env orgID employeeID policy name) := by
  have folds : folded env.toPrimitives host = host := by
    rw [folded, lowercase, trimPrefix_of_other_start bare]
  rw [deviceAction, DomainRules.check_load, folds, PolicyCache.lookup_eq_findSome?]
  have none_iff : ((host :: parents host).findSome? (PolicyCache.load env.toPrimitives
      (db.getRules env orgID employeeID)).matchDomain).map (·.action) = none ↔
        ∀ name policy, Suffix host name → ¬db.Applies env orgID employeeID policy name := by
    rw [Option.map_eq_none_iff, List.findSome?_eq_none_iff]
    constructor
    · intro none name policy suffix
      exact (matchDomain_eq_none_iff suffix unnamed unexcepted).1 (none name (mem_suffixes.2 suffix)) policy
    · intro none name mem
      have suffix := mem_suffixes.1 mem
      exact (matchDomain_eq_none_iff suffix unnamed unexcepted).2 fun policy => none name policy suffix
  have decided : ∀ action, ((host :: parents host).findSome? (PolicyCache.load env.toPrimitives
      (db.getRules env orgID employeeID)).matchDomain).map (·.action) = some action →
        ∃ policy, db.Decides env orgID employeeID host policy ∧ policy.action = action := by
    intro action found
    obtain ⟨rule, isFirst, rfl⟩ := Option.map_eq_some_iff.1 found
    obtain ⟨nearer, name, farther, split, isFound, passed⟩ := List.findSome?_eq_some_iff.1 isFirst
    have suffix : Suffix host name := mem_suffixes.1 (by simp [split])
    obtain ⟨policy, isApplied, action, least⟩ := exists_of_matchDomain suffix unnamed unexcepted isFound
    refine ⟨policy, ⟨name, suffix, isApplied, least, ?_⟩, action⟩
    intro longer other longerSuffix otherApplies
    have mem := mem_suffixes.2 longerSuffix
    have lengths := pairwise_suffixes host
    rw [split] at mem lengths
    rcases List.mem_append.1 mem with isNearer | mem
    · exact absurd otherApplies
        ((matchDomain_eq_none_iff longerSuffix unnamed unexcepted).1 (passed longer isNearer) other)
    · rcases List.mem_cons.1 mem with rfl | isFarther
      · exact le_refl _
      · exact (List.rel_of_pairwise_cons (List.pairwise_append.1 lengths).2.1 isFarther).le
  refine ⟨fun action => ⟨decided action, ?_⟩, none_iff⟩
  rintro ⟨policy, decides, rfl⟩
  cases found : ((host :: parents host).findSome? (PolicyCache.load env.toPrimitives
      (db.getRules env orgID employeeID)).matchDomain).map (·.action) with
  | none =>
    obtain ⟨name, suffix, isApplied, -, -⟩ := decides
    exact absurd isApplied (none_iff.1 found name policy suffix)
  | some action =>
    obtain ⟨other, otherDecides, rfl⟩ := decided action found
    rw [decides.unique distinct otherDecides]

def policyFor (priority : ℤ) (action : PolicyAction) (domain : String) : StoredPolicy where
  orgID := ⟨1⟩
  name := "Policy"
  type := "domain"
  action := action
  domains := [domain.toList]
  categories := []
  targets := ⟨"all", [], []⟩
  enabled := true
  priority := priority

def empty : Database := UrlTester.Tables.database ⟨.empty, [], .empty, [], [], [], .nil⟩

def withPolicies (first second : StoredPolicy) (inOrder : first.priority ≤ second.priority)
    (requests : List AppControl.AccessRequest) : Database :=
  { empty with
    requests := requests
    policies := [first, second]
    sorted := by simpa using inOrder
    requestOrgs := fun _ _ employee mem => by cases mem }

theorem deviceAction_iff_nearest :
    let db := withPolicies (policyFor 1 .block "example.com") (policyFor 2 .alert "a.example.com")
      (by decide) []
    db.deviceAction Primitives.ascii ⟨1⟩ (some ⟨2⟩) "b.a.example.com".toList = some .alert ↔
      ∃ policy, db.Decides Primitives.ascii ⟨1⟩ (some ⟨2⟩) "b.a.example.com".toList policy ∧
        policy.action = .alert := by
  intro db
  apply (deviceAction_iff Primitives.ascii db ⟨1⟩ (some ⟨2⟩) "b.a.example.com".toList (by decide +kernel)
    (by decide) (by decide) ?_ ?_).1
  · intro rule mem
    cases mem
  · rintro ⟨employee, -, granted, mem, -⟩
    cases mem

def oneLabel : Database :=
  withPolicies (policyFor 1 .block "intranet") (policyFor 2 .log "other") (by decide) []

def approvedSite : Database :=
  withPolicies (policyFor 1 .block "example.com") (policyFor 2 .log "other") (by decide)
    [⟨⟨⟨2⟩, .website, "example.com".toList, [], .approved⟩, ⟨1⟩⟩]

/-- A host of one label is matched by its own name, and an approved request goes before policies. -/
theorem not_decided_label_or_excepted :
    ¬(oneLabel.deviceAction Primitives.ascii ⟨1⟩ (some ⟨2⟩) "intranet".toList = none ↔
        ∀ name policy, Under '.' "intranet".toList name ∧ '.' ∈ name →
          ¬oneLabel.Applies Primitives.ascii ⟨1⟩ (some ⟨2⟩) policy name) ∧
      ¬(approvedSite.deviceAction Primitives.ascii ⟨1⟩ (some ⟨2⟩) "example.com".toList = some .allow ↔
        ∃ policy, approvedSite.Decides Primitives.ascii ⟨1⟩ (some ⟨2⟩) "example.com".toList policy ∧
          policy.action = .allow) := by
  constructor
  · intro iff
    have matched : oneLabel.deviceAction Primitives.ascii ⟨1⟩ (some ⟨2⟩) "intranet".toList ≠ none := by
      decide +kernel
    apply matched
    apply iff.2
    rintro name policy ⟨rfl | below, dotted⟩ -
    · simp at dotted
    · have dotMem := below.subset List.mem_cons_self
      simp at dotMem
  · intro iff
    have allowed : approvedSite.deviceAction Primitives.ascii ⟨1⟩ (some ⟨2⟩) "example.com".toList =
        some .allow := by decide +kernel
    obtain ⟨policy, ⟨name, -, isApplied, -⟩, isAllow⟩ := iff.1 allowed
    have mem : policy ∈ [policyFor 1 .block "example.com", policyFor 2 .log "other"] :=
      List.mem_of_mem_filter isApplied.1
    simp only [List.mem_cons, List.not_mem_nil, or_false] at mem
    rcases mem with rfl | rfl <;> cases isAllow

end Database

end Aavishield.AgentFeed
