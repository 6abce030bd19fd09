import Aavishield.Policy.PolicyCache

/-!
# Approved access requests

`filterApprovedExceptions` lets the hosts that an employee was granted through the rules of
the organisation.  The agent looks for the rule of a host itself before those of its parent
domains, so an approval for a host also counts for what lies below it.
-/

namespace Aavishield.DomainRules

open Labels Text

variable (env : Primitives)

inductive AccessRequestStatus where
  | pending
  | approved
  | denied
  | revoked
  deriving DecidableEq

inductive AccessRequestKind where
  | website
  | application
  | extension
  | download
  | dlp
  | unset
  deriving DecidableEq

structure AccessRequest where
  employeeID : UUID
  kind : AccessRequestKind
  resource : List Char
  domain : List Char
  status : AccessRequestStatus

structure ManagedApplication where
  orgID : Option UUID
  domains : List (List Char)

def AccessRequest.website (request : AccessRequest) : Option (List Char) :=
  match request.kind with
  | .application | .extension | .download | .dlp => none
  | .website | .unset =>
    let host := if request.resource = [] then request.domain else request.resource
    let host := normDomain env host
    if host = [] then none else some host

def approvedWebsites (requests : List AccessRequest) (employeeID : UUID) : List (List Char) :=
  ((requests.filter fun request =>
    request.employeeID = employeeID ∧ request.status = .approved).filterMap
      (AccessRequest.website env)).dedup

def websiteBundle (catalogue : List ManagedApplication) (orgID : UUID) (host : List Char) :
    List (List Char) :=
  let named := env.readJSON (host.filter (· ≠ '"'))
  let apps := catalogue.filter fun app =>
    (app.orgID = none ∨ app.orgID = some orgID) ∧ ∃ domain ∈ app.domains, named = some domain
  host :: (apps.flatMap fun app => app.domains.map (normDomain env)).filter (· ≠ [])

/-- What an employee's approved requests open, with what belongs to it. -/
def approvedHosts (requests : List AccessRequest) (catalogue : List ManagedApplication)
    (orgID employeeID : UUID) : List (List Char) :=
  ((approvedWebsites env requests employeeID).flatMap
    (websiteBundle env catalogue orgID)).dedup

def DomainRule.IsPlatformBlock (rule : DomainRule) : Prop :=
  rule.orgID = none ∧ rule.action = .block

instance (rule : DomainRule) : Decidable rule.IsPlatformBlock :=
  inferInstanceAs (Decidable (_ ∧ _))

def keeps (allowed : List (List Char)) (rule : DomainRule) : Bool :=
  decide (rule.IsPlatformBlock ∨ normDomain env rule.domain ∉ allowed ∨ rule.action = .allow)

def platformBlocked (rules : List DomainRule) : List (List Char) :=
  (rules.filter fun rule => rule.IsPlatformBlock).map fun rule => normDomain env rule.domain

def approval (orgID : UUID) (host : List Char) : DomainRule where
  orgID := some orgID
  domain := host
  action := .allow
  category := "access_request"
  reason := "Access approved by your company"
  riskScore := 0

def approvals (allowed : List (List Char)) (rules : List DomainRule) (orgID : UUID) :
    List DomainRule :=
  ((env.walk allowed).filter (· ∉ platformBlocked env rules)).map (approval orgID)

def filtered (allowed : List (List Char)) (rules : List DomainRule) (orgID : UUID) :
    List DomainRule :=
  rules.filter (keeps env allowed) ++ approvals env allowed rules orgID

/-- The rules without those that approved requests set aside. -/
def filterApprovedExceptions (requests : List AccessRequest) (catalogue : List ManagedApplication)
    (rules : List DomainRule) (orgID employeeID : UUID) : List DomainRule :=
  if approvedWebsites env requests employeeID = [] then rules
  else filtered env (approvedHosts env requests catalogue orgID employeeID) rules orgID

def PlatformBlocks (rules : List DomainRule) (host : List Char) : Prop :=
  ∃ rule, (PolicyCache.load env rules).check env host = some rule ∧
    rule.IsPlatformBlock

def Blocks (rules : List DomainRule) (host : List Char) : Prop :=
  ∃ rule, (PolicyCache.load env rules).check env host = some rule ∧
    rule.action = .block

def CompanyBlocks (rules : List DomainRule) (host : List Char) : Prop :=
  ∃ rule, (PolicyCache.load env rules).check env host = some rule ∧
    rule.orgID.isSome ∧ rule.action = .block

/-- A host that a client names equals another one or lies below it, up to case and a last dot. -/
def Covers (approved host : List Char) : Prop :=
  Under '.' (trimSuffix ['.'] (env.toLowercase host)) approved

/-- Approved hosts are open unless the platform blocks them, and nothing else changes. -/
structure Respects (allowed : List (List Char)) (before after : List DomainRule) : Prop where
  platform : ∀ host, PlatformBlocks env before host → Blocks env after host
  company : ∀ host ∈ allowed, ¬PlatformBlocks env before host →
    ¬CompanyBlocks env after host
  others : ∀ host, IsAscii host → (∀ approved ∈ allowed, ¬Covers env approved host) →
    (PolicyCache.load env after).check env host =
      (PolicyCache.load env before).check env host

/-- An approval never lifts a platform-wide block, lets the host through, and changes no other. -/
def AlwaysRespects : Prop :=
  ∀ requests catalogue rules orgID employeeID,
    Respects env (approvedHosts env requests catalogue orgID employeeID) rules
      (filterApprovedExceptions env requests catalogue rules orgID employeeID)

/-- No approved host lies under one that the platform blocks. -/
def ClearOfBlocks (allowed : List (List Char)) (rules : List DomainRule) : Prop :=
  ∀ host ∈ allowed, host ∉ platformBlocked env rules → ¬PlatformBlocks env rules host

/-- A host name as it stands when it has been normalized, with no second `www.` in front. -/
structure SiteName (host : List Char) : Prop where
  ascii : IsAscii host
  noSpace : ∀ letter ∈ host, isSpace letter = false
  lower : ∀ letter ∈ host, letter.toLower = letter
  bare : ¬"www.".toList <+: host
  undotted : ¬['.'] <:+ host
  nonempty : host ≠ []

/-- A platform-wide block of an approved host is kept under its name. -/
def Stored (allowed : List (List Char)) (rules : List DomainRule) : Prop :=
  ∀ rule ∈ rules, rule.IsPlatformBlock → normDomain env rule.domain ∈ allowed →
    rule.key env = normDomain env rule.domain

variable {env} {allowed : List (List Char)} {rules : List DomainRule} {rule : DomainRule}
  {domain host : List Char} {orgID employeeID : UUID} {requests : List AccessRequest}
  {catalogue : List ManagedApplication}

theorem SiteName.toLowercase (site : SiteName host) : env.toLowercase host = host := by
  rw [env.toLowercase_ascii host site.ascii]
  exact (List.map_congr_left site.lower).trans (List.map_id' host)

theorem SiteName.folded (site : SiteName host) : folded env host = host := by
  rw [DomainRules.folded, site.toLowercase, trimPrefix_of_other_start site.bare]

theorem SiteName.key_approval (site : SiteName host) : (approval orgID host).key env = host := by
  rw [DomainRule.key, approval, trimSpace_eq_self site.noSpace, site.toLowercase]

/-- Both programs lower the domain of a rule alike when it is kept under an ASCII name. -/
theorem normDomain_eq_of_key (isKey : rule.key env = domain) (ascii : IsAscii domain) :
    normDomain env rule.domain = trimPrefix "www.".toList (trimSuffix ['.'] domain) := by
  subst isKey
  rw [normDomain, lowerTrimmed, env.map_lower _ ascii, DomainRule.key]

theorem SiteName.normDomain_eq (site : SiteName host) (isKey : rule.key env = host) :
    normDomain env rule.domain = host := by
  rw [normDomain_eq_of_key isKey site.ascii, trimSuffix_of_not_suffix site.undotted,
    trimPrefix_of_other_start site.bare]

theorem under_trimSuffix (under : Under '.' host domain) (nonempty : domain ≠ []) :
    Under '.' (trimSuffix ['.'] host) (trimSuffix ['.'] domain) := by
  rcases under with rfl | ⟨front, rfl⟩
  · exact .refl _
  · right
    by_cases dotted : ['.'] <:+ domain
    · rcases dotted with ⟨undotted, rfl⟩
      rw [trimSuffix_append, ← List.cons_append, ← List.append_assoc, trimSuffix_append]
      exact List.suffix_append _ _
    · have hostUndotted : ¬['.'] <:+ front ++ '.' :: domain := by
        intro isSuffix
        have inside : ['.'] <:+ domain ∨ domain <:+ ['.'] :=
          List.suffix_or_suffix_of_suffix isSuffix
            ((List.suffix_cons _ _).trans (List.suffix_append _ _))
        rcases inside with isDotted | isDot
        · exact dotted isDotted
        · rcases List.suffix_cons_iff.mp isDot with rfl | isNil
          · exact dotted List.suffix_rfl
          · exact nonempty (List.suffix_nil.mp isNil)
      rw [trimSuffix_of_not_suffix dotted, trimSuffix_of_not_suffix hostUndotted]
      exact List.suffix_append _ _

theorem mem_approvals : rule ∈ approvals env allowed rules orgID ↔
    ∃ host ∈ allowed, host ∉ platformBlocked env rules ∧ approval orgID host = rule := by
  simp only [approvals, List.mem_map, List.mem_filter, (env.walk_perm allowed).mem_iff,
    decide_eq_true_eq, and_assoc]

theorem mem_platformBlocked : host ∈ platformBlocked env rules ↔
    ∃ rule ∈ rules, rule.IsPlatformBlock ∧ normDomain env rule.domain = host := by
  simp [platformBlocked, and_assoc]

theorem byDomain_filtered (domain : List Char) :
    (PolicyCache.load env (filtered env allowed rules orgID)).byDomain domain =
      ((PolicyCache.load env rules).byDomain domain).filter (keeps env allowed) ++
        (PolicyCache.load env (approvals env allowed rules orgID)).byDomain domain := by
  simp only [PolicyCache.load, filtered, List.filter_append, List.filter_comm]

theorem byDomain_approvals_eq_nil (sites : ∀ host ∈ allowed, SiteName host)
    (unnamed : ∀ host ∈ allowed, host ∉ platformBlocked env rules → host ≠ domain) :
    (PolicyCache.load env (approvals env allowed rules orgID)).byDomain domain = [] := by
  apply List.eq_nil_iff_forall_not_mem.mpr
  intro rule ruleMem
  rcases mem_byDomain_load.mp ruleMem with ⟨isApproval, isKey, -⟩
  rcases mem_approvals.mp isApproval with ⟨host, hostMem, unblocked, rfl⟩
  rw [(sites host hostMem).key_approval] at isKey
  exact unnamed host hostMem unblocked isKey

theorem matchDomain_filtered_of_platformBlock (isBlock : rule.IsPlatformBlock)
    (found : (PolicyCache.load env rules).matchDomain domain = some rule)
    (noApproval : (PolicyCache.load env (approvals env allowed rules orgID)).byDomain
      domain = []) :
    (PolicyCache.load env (filtered env allowed rules orgID)).matchDomain domain =
      some rule := by
  rw [PolicyCache.matchDomain, byDomain_filtered, noApproval, List.append_nil]
  rw [PolicyCache.matchDomain] at found
  rcases Option.or_eq_some_iff.mp found with isOrg | ⟨noOrg, isGlobal⟩
  · have isSome := List.find?_some isOrg
    rw [isBlock.1] at isSome
    cases isSome
  · apply Option.or_eq_some_iff.mpr
    right
    constructor
    · rw [List.find?_eq_none] at noOrg ⊢
      intro other otherMem
      exact noOrg other (List.mem_of_mem_filter otherMem)
    · rcases List.find?_eq_some_iff_append.mp isGlobal with ⟨noOrgID, front, back, split, others⟩
      refine List.find?_eq_some_iff_append.mpr
        ⟨noOrgID, front.filter (keeps env allowed), back.filter (keeps env allowed), ?_, ?_⟩
      · have kept : keeps env allowed rule = true := decide_eq_true (.inl isBlock)
        rw [split, List.filter_append, List.filter_cons_of_pos kept]
      · intro other otherMem
        exact others other (List.mem_of_mem_filter otherMem)

theorem lookup_filtered_of_platformBlock (sites : ∀ host ∈ allowed, SiteName host)
    (clear : ClearOfBlocks env allowed rules) (isBlock : rule.IsPlatformBlock)
    (found : (PolicyCache.load env rules).lookup domain = some rule) :
    (PolicyCache.load env (filtered env allowed rules orgID)).lookup domain =
      some rule := by
  have walked := found
  rw [PolicyCache.lookup_eq_findSome?] at walked ⊢
  rcases List.findSome?_eq_some_iff.mp walked with ⟨nearer, other, farther, split, isMatch, unmatched⟩
  -- an approved host on the way would lie below the block
  have noApproval : ∀ front name back, domain :: parents domain = front ++ name :: back →
      (∀ near ∈ front, (PolicyCache.load env rules).matchDomain near = none) →
        (PolicyCache.load env (approvals env allowed rules orgID)).byDomain name =
          [] := by
    intro front name back nameSplit frontUnmatched
    apply byDomain_approvals_eq_nil sites
    rintro host hostMem unblocked rfl
    apply clear host hostMem unblocked
    refine ⟨rule, ?_, isBlock⟩
    rw [check_load, (sites host hostMem).folded, ← found]
    exact (PolicyCache.lookup_eq_of_append nameSplit frontUnmatched).symm
  refine List.findSome?_eq_some_iff.mpr ⟨nearer, other, farther, split, ?_, ?_⟩
  · exact matchDomain_filtered_of_platformBlock isBlock isMatch
      (noApproval nearer other farther split unmatched)
  · intro near nearMem
    rcases List.append_of_mem nearMem with ⟨front, back, rfl⟩
    rw [PolicyCache.matchDomain_eq_none_iff, byDomain_filtered,
      PolicyCache.matchDomain_eq_none_iff.mp (unmatched near nearMem), List.filter_nil,
      List.nil_append]
    apply noApproval front near (back ++ other :: farther)
    · rw [split, List.append_assoc, List.cons_append]
    · intro earlier earlierMem
      exact unmatched earlier (List.mem_append_left _ earlierMem)

/-- A rule of the organisation that is left under an approved host lets it through. -/
theorem allow_of_mem_byDomain (sites : ∀ host ∈ allowed, SiteName host) (hostMem : host ∈ allowed)
    (ruleMem : rule ∈ (PolicyCache.load env
      (filtered env allowed rules orgID)).byDomain host)
    (isOrg : rule.orgID.isSome) : rule.action = .allow := by
  rcases mem_byDomain_load.mp ruleMem with ⟨isFiltered, isKey, -⟩
  rcases List.mem_append.mp isFiltered with kept | isApproval
  · have notPlatform : ¬rule.IsPlatformBlock := by
      intro isBlock
      rw [isBlock.1] at isOrg
      cases isOrg
    have normalized := (sites host hostMem).normDomain_eq isKey
    rcases of_decide_eq_true (List.mem_filter.mp kept).2 with isBlock | notAllowed | isAllow
    · exact absurd isBlock notPlatform
    · exact absurd (normalized ▸ hostMem) notAllowed
    · exact isAllow
  · rcases mem_approvals.mp isApproval with ⟨approved, -, -, rfl⟩
    rfl

theorem mem_byDomain_of_unblocked (orgID : UUID) (sites : ∀ host ∈ allowed, SiteName host)
    (hostMem : host ∈ allowed) (unblocked : host ∉ platformBlocked env rules) :
    approval orgID host ∈ (PolicyCache.load env
      (filtered env allowed rules orgID)).byDomain host := by
  refine mem_byDomain_load.mpr ⟨List.mem_append_right _ ?_, ?_, (sites host hostMem).nonempty⟩
  · exact mem_approvals.mpr ⟨host, hostMem, unblocked, rfl⟩
  · exact (sites host hostMem).key_approval

theorem not_blocks_of_unblocked (sites : ∀ host ∈ allowed, SiteName host) (hostMem : host ∈ allowed)
    (unblocked : host ∉ platformBlocked env rules) :
    ¬Blocks env (filtered env allowed rules orgID) host := by
  rintro ⟨rule, found, isBlock⟩
  rw [check_load, (sites host hostMem).folded, PolicyCache.lookup, PolicyCache.matchDomain] at found
  have isApproval := mem_byDomain_of_unblocked orgID sites hostMem unblocked
  have someOrg : (((PolicyCache.load env
      (filtered env allowed rules orgID)).byDomain host).find?
        fun rule => rule.orgID.isSome).isSome :=
    List.find?_isSome.mpr ⟨_, isApproval, rfl⟩
  rcases Option.isSome_iff_exists.mp someOrg with ⟨first, isFirst⟩
  rw [isFirst] at found
  cases found
  have isOrg := List.find?_some isFirst
  have isAllow := allow_of_mem_byDomain sites hostMem (List.mem_of_find?_eq_some isFirst) isOrg
  rw [isBlock] at isAllow
  cases isAllow

theorem not_companyBlocks (sites : ∀ host ∈ allowed, SiteName host)
    (stored : Stored env allowed rules) (hostMem : host ∈ allowed) :
    ¬CompanyBlocks env (filtered env allowed rules orgID) host := by
  rintro ⟨rule, found, isOrg, isBlock⟩
  by_cases blocked : host ∈ platformBlocked env rules
  · rcases mem_platformBlocked.mp blocked with ⟨block, blockMem, isPlatform, normalized⟩
    have kept : block ∈ (PolicyCache.load env
        (filtered env allowed rules orgID)).byDomain host := by
      refine mem_byDomain_load.mpr ⟨List.mem_append_left _ ?_, ?_, (sites host hostMem).nonempty⟩
      · exact List.mem_filter.mpr ⟨blockMem, decide_eq_true (.inl isPlatform)⟩
      · rw [stored block blockMem isPlatform (normalized ▸ hostMem), normalized]
    rw [check_load, (sites host hostMem).folded, PolicyCache.lookup] at found
    rcases Option.or_eq_some_iff.mp found with matched | ⟨unmatched, -⟩
    · have isAllow := allow_of_mem_byDomain sites hostMem
        (PolicyCache.mem_byDomain_of_matchDomain matched) isOrg
      rw [isBlock] at isAllow
      cases isAllow
    · rw [PolicyCache.matchDomain_eq_none_iff.mp unmatched] at kept
      cases kept
  · exact not_blocks_of_unblocked sites hostMem blocked ⟨rule, found, isBlock⟩

theorem covers_of_mem_parents (domainMem : domain ∈ folded env host ::
    parents (folded env host)) (nonempty : domain ≠ []) :
    Covers env (trimSuffix ['.'] domain) host := by
  apply under_trimSuffix _ nonempty
  exact (under_trimPrefix _).trans (under_of_mem_parents domainMem)

theorem isAscii_of_mem_parents (ascii : IsAscii host) (domainMem : domain ∈ folded env host ::
    parents (folded env host)) : IsAscii domain := by
  intro letter letterMem
  have isSuffix : domain <:+ env.toLowercase host := by
    rcases (under_trimPrefix _).trans (under_of_mem_parents domainMem) with isSame | isBelow
    · exact isSame ▸ List.suffix_rfl
    · exact (List.suffix_cons _ _).trans isBelow
  have lowered := isSuffix.subset letterMem
  rw [env.toLowercase_ascii host ascii] at lowered
  rcases List.mem_map.mp lowered with ⟨original, originalMem, rfl⟩
  exact toNat_toLower_lt (ascii original originalMem)

theorem check_filtered_of_uncovered (sites : ∀ host ∈ allowed, SiteName host) (ascii : IsAscii host)
    (uncovered : ∀ approved ∈ allowed, ¬Covers env approved host) :
    (PolicyCache.load env (filtered env allowed rules orgID)).check env host =
      (PolicyCache.load env rules).check env host := by
  rw [check_load, check_load]
  apply PolicyCache.lookup_congr
  intro domain domainMem
  rw [PolicyCache.matchDomain, PolicyCache.matchDomain]
  by_cases empty : domain = []
  · subst empty
    simp [PolicyCache.load]
  · have noApproval : (PolicyCache.load env
        (approvals env allowed rules orgID)).byDomain domain = [] := by
      apply byDomain_approvals_eq_nil sites
      rintro approved approvedMem - rfl
      apply uncovered approved approvedMem
      have covers := covers_of_mem_parents domainMem empty
      rwa [trimSuffix_of_not_suffix (sites approved approvedMem).undotted] at covers
    have same : (PolicyCache.load env (filtered env allowed rules orgID)).byDomain
        domain = (PolicyCache.load env rules).byDomain domain := by
      rw [byDomain_filtered, noApproval, List.append_nil, List.filter_eq_self]
      intro rule ruleMem
      refine decide_eq_true (.inr (.inl fun lifted => ?_))
      have isKey := (mem_byDomain_load.mp ruleMem).2.1
      rw [normDomain_eq_of_key isKey (isAscii_of_mem_parents ascii domainMem)] at lifted
      apply uncovered _ lifted
      exact (covers_of_mem_parents domainMem empty).trans (under_trimPrefix _)
    rw [same]

theorem respects_filtered_iff (sites : ∀ host ∈ allowed, SiteName host)
    (stored : Stored env allowed rules) :
    Respects env allowed rules (filtered env allowed rules orgID) ↔
      ClearOfBlocks env allowed rules := by
  constructor
  · intro respects host hostMem unblocked platform
    exact not_blocks_of_unblocked sites hostMem unblocked (respects.platform host platform)
  · intro clear
    refine ⟨?_, ?_, ?_⟩
    · rintro host ⟨rule, found, isBlock⟩
      exact ⟨rule, lookup_filtered_of_platformBlock sites clear isBlock found, isBlock.2⟩
    · intro host hostMem _
      exact not_companyBlocks sites stored hostMem
    · intro host ascii uncovered
      exact check_filtered_of_uncovered sites ascii uncovered

/-- Approvals respect the platform exactly when they are clear of its blocks. -/
theorem respects_iff
    (sites : ∀ host ∈ approvedHosts env requests catalogue orgID employeeID, SiteName host)
    (stored : Stored env (approvedHosts env requests catalogue orgID employeeID) rules) :
    Respects env (approvedHosts env requests catalogue orgID employeeID) rules
        (filterApprovedExceptions env requests catalogue rules orgID employeeID) ↔
      ClearOfBlocks env (approvedHosts env requests catalogue orgID employeeID)
        rules := by
  rw [filterApprovedExceptions]
  split
  · rename_i noWebsite
    have noHost : approvedHosts env requests catalogue orgID employeeID = [] := by
      rw [approvedHosts, noWebsite]
      rfl
    rw [noHost]
    constructor
    · intro _ host hostMem
      cases hostMem
    · intro _
      refine ⟨?_, fun host hostMem => (by cases hostMem), fun host _ _ => rfl⟩
      rintro host ⟨rule, found, isBlock⟩
      exact ⟨rule, found, isBlock.2⟩
  · exact respects_filtered_iff sites stored

def acme : UUID := ⟨1⟩

def employee : UUID := ⟨2⟩

def approvedRequest (host : String) : AccessRequest where
  employeeID := employee
  kind := .website
  resource := host.toList
  domain := host.toList
  status := .approved

def blockRule (orgID : Option UUID) (domain : String) : DomainRule where
  orgID := orgID
  domain := domain.toList
  action := .block
  category := ""
  reason := ""
  riskScore := 0

theorem siteName_newsExample : SiteName "news.example.org".toList where
  ascii := forall_mem_of_all (by decide)
  noSpace := forall_mem_of_all (by decide)
  lower := forall_mem_of_all (by decide)
  bare := by decide
  undotted := by decide
  nonempty := by decide

/-- An approval that only lifts a block of the organisation. -/
theorem newsExample_respects :
    Respects .ascii (approvedHosts .ascii [approvedRequest "news.example.org"] [] acme employee)
      [blockRule none "evil.com", blockRule (some acme) "example.org"]
      (filterApprovedExceptions .ascii [approvedRequest "news.example.org"] []
        [blockRule none "evil.com", blockRule (some acme) "example.org"] acme employee) := by
  have hosts : approvedHosts .ascii [approvedRequest "news.example.org"] [] acme employee =
      ["news.example.org".toList] := by decide
  refine (respects_iff ?_ ?_).mpr ?_
  · rw [hosts]
    intro host hostMem
    rw [List.mem_singleton.mp hostMem]
    exact siteName_newsExample
  · rw [hosts]
    intro rule ruleMem isBlock
    rcases List.mem_cons.mp ruleMem with rfl | ruleMem
    · decide
    · rw [List.mem_singleton.mp ruleMem] at isBlock
      cases isBlock.1
  · rw [hosts]
    rintro host hostMem - ⟨rule, found, isBlock⟩
    rw [List.mem_singleton.mp hostMem] at found
    have isCompany : (PolicyCache.load .ascii
        [blockRule none "evil.com", blockRule (some acme) "example.org"]).check .ascii
          "news.example.org".toList = some (blockRule (some acme) "example.org") := by decide
    rw [isCompany] at found
    cases found
    cases isBlock.1

/-- An approval of a host below a domain that is blocked for everyone opens the host. -/
theorem not_alwaysRespects : ¬AlwaysRespects .ascii := by
  intro always
  have respects := always [approvedRequest "sub.evil.com"] [] [blockRule none "evil.com"] acme employee
  have before : PlatformBlocks .ascii [blockRule none "evil.com"] "sub.evil.com".toList :=
    ⟨blockRule none "evil.com", by decide, by decide⟩
  rcases respects.platform _ before with ⟨rule, found, isBlock⟩
  have opened : (PolicyCache.load .ascii (filterApprovedExceptions .ascii
      [approvedRequest "sub.evil.com"] [] [blockRule none "evil.com"] acme employee)).check .ascii
        "sub.evil.com".toList = some (approval acme "sub.evil.com".toList) := by decide
  rw [opened] at found
  cases found
  cases isBlock

end Aavishield.DomainRules
