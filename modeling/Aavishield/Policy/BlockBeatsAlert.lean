import Aavishield.Policy.AppControl

/-!
# Block beats alert

Where rules about one application, or about applications that share a domain, do not agree,
those that block are to prevail.  For processes they do.  For a domain the first rule that
ships it prevails.
-/

namespace Aavishield.AppControl

open Dataplane (HasID Table)
open DomainRules (DomainRule PolicyCache folded parents)
open FirstMatch Text

section Statement

variable (env : Primitives) (db : Database) (orgID : UUID) (employeeID teamID : Option UUID)

structure Reorders (order db : Database) : Prop where
  rules : order.rules.Perm db.rules
  applications : order.applications.rows.Perm db.applications.rows
  requests : order.requests.Perm db.requests

def BlocksProcess (out : List AppControlMatcher) (id : UUID) : Prop :=
  ∃ matcher ∈ out, matcher.appID = id ∧ matcher.action = .block

def ManagedApplication.Lists (app : ManagedApplication) (host : List Char) : Prop :=
  host ≠ [] ∧ ∃ domain ∈ app.domains,
    DomainRules.lowerTrimmed env.toPrimitives domain = host

def Database.RuleBlocks (switch : AppControlRule → Bool) (named : ManagedApplication → Prop) : Prop :=
  ∃ rule ∈ db.rules, db.isActive env orgID employeeID teamID rule = true ∧
    switch rule = true ∧ rule.action ≠ .alert ∧ ∃ app, db.application rule = some app ∧ named app

/-- What a rule blocks is blocked, in whatever order the rows come. -/
structure BlockBeatsAlert : Prop where
  process : ∀ order, Reorders order db → ∀ app ∈ db.applications.rows, app.hasProcesses = true →
    (BlocksProcess (order.appControlMatchers env orgID employeeID teamID) app.id ↔
      db.RuleBlocks env orgID employeeID teamID (·.blockProcess) (· = app))
  network : ∀ order, Reorders order db → ∀ host,
    (∃ app ∈ db.applications.rows, app.Lists env host) →
      (DomainRules.Blocks env.toPrimitives
        (order.appControlDomainRules env orgID employeeID teamID) host ↔
          db.RuleBlocks env orgID employeeID teamID (·.blockNetwork) (·.Lists env host))

/-- No application is blocked but by a rule. -/
def NoDefaults : Prop :=
  ∀ app ∈ db.applications.rows, app.hasProcesses = true → app.orgID = none →
    app.category ∈ defaultVPNBlockCategories →
      app.id ∈ db.configured env orgID employeeID teamID

def agentKey (domain : List Char) : List Char :=
  env.toLowercase (trimSpace (DomainRules.lowerTrimmed env.toPrimitives domain))

def Database.ships (name : List Char) (rule : AppControlRule) : Bool :=
  db.isActive env orgID employeeID teamID rule && rule.blockNetwork &&
    (db.application rule).any fun app => app.domains.any fun domain =>
      DomainRules.lowerTrimmed env.toPrimitives domain ≠ [] &&
        agentKey env domain == name

def Database.decidingName (host : List Char) : Option (List Char) :=
  let name := folded env.toPrimitives host
  (name :: parents name).find? fun name =>
    name ≠ [] && db.rules.any (db.ships env orgID employeeID teamID name)

/-- The nearest name of a host has rules that agree with what is to be blocked. -/
def Undisputed : Prop :=
  ∀ host, (∃ app ∈ db.applications.rows, app.Lists env host) →
    (db.RuleBlocks env orgID employeeID teamID (·.blockNetwork) (·.Lists env host) →
      db.decidingName env orgID employeeID teamID host ≠ none) ∧
    ∀ name, db.decidingName env orgID employeeID teamID host = some name →
      ∀ rule ∈ db.rules, db.ships env orgID employeeID teamID name rule = true →
        (rule.action ≠ .alert ↔ db.RuleBlocks env orgID employeeID teamID (·.blockNetwork)
          (·.Lists env host))

end Statement

variable {env : Primitives} {db order : Database} {orgID : UUID}
  {employeeID teamID : Option UUID} {rule : AppControlRule} {app : ManagedApplication}

section Orders

variable (reorders : Reorders order db)

include reorders

theorem application_eq (rule : AppControlRule) : order.application rule = db.application rule := by
  rcases found : db.application rule with _ | app
  · rw [Database.application, List.find?_eq_none] at found ⊢
    intro app appMem
    exact found app (reorders.applications.mem_iff.mp appMem)
  · have isApp := List.find?_some found
    have appMem := reorders.applications.mem_iff.mpr (List.mem_of_find?_eq_some found)
    rcases other : order.application rule with _ | another
    · rw [Database.application, List.find?_eq_none] at other
      exact absurd isApp (other app appMem)
    · have isAnother := List.find?_some other
      rw [beq_iff_eq] at isApp isAnother
      rw [order.applications.eq_of_id_eq (List.mem_of_find?_eq_some other) appMem
        (isAnother.trans isApp.symm)]

theorem mem_approvedApps_iff (id : UUID) :
    id ∈ approvedApps env order.requests employeeID ↔
      id ∈ approvedApps env db.requests employeeID := by
  cases employeeID with
  | none => rfl
  | some employee => exact ((reorders.requests.filter _).filterMap _).mem_iff

theorem isActive_eq : order.isActive env orgID employeeID teamID =
    db.isActive env orgID employeeID teamID := by
  funext rule
  have same : (approvedApps env order.requests employeeID).contains rule.applicationID =
      (approvedApps env db.requests employeeID).contains rule.applicationID := by
    rw [Bool.eq_iff_iff, List.contains_iff_mem, List.contains_iff_mem]
    exact mem_approvedApps_iff reorders _
  rw [Database.isActive, Database.isActive, same]

theorem ships_eq (name : List Char) : order.ships env orgID employeeID teamID name =
    db.ships env orgID employeeID teamID name := by
  funext rule
  rw [Database.ships, Database.ships, isActive_eq reorders, application_eq reorders]

theorem decidingName_eq (host : List Char) :
    order.decidingName env orgID employeeID teamID host =
      db.decidingName env orgID employeeID teamID host := by
  rw [Database.decidingName, Database.decidingName]
  congr 1
  funext name
  rw [ships_eq reorders, reorders.rules.any_eq]

theorem ruleBlocks_iff {switch : AppControlRule → Bool} {named : ManagedApplication → Prop} :
    order.RuleBlocks env orgID employeeID teamID switch named ↔
      db.RuleBlocks env orgID employeeID teamID switch named := by
  simp only [Database.RuleBlocks, isActive_eq reorders, application_eq reorders,
    reorders.rules.mem_iff]

end Orders

def Action.shipped : Action → DomainRules.PolicyAction
  | .alert => .alert
  | .block => .block

theorem domainEntries_eq (entry : AppControlRule × ManagedApplication) :
    Database.domainEntries env orgID entry = entry.2.domains.map fun domain =>
      { orgID := some orgID
        domain := DomainRules.lowerTrimmed env.toPrimitives domain
        action := entry.1.action.shipped
        category := entry.2.category
        reason := "Application control: " ++ entry.2.name
        riskScore := 0 } := by
  rw [Database.domainEntries]
  cases entry.1.action <;> rfl

theorem find?_domainEntries (name : List Char) (entry : AppControlRule × ManagedApplication) :
    (((Database.domainEntries env orgID entry).find? fun shipped =>
      shipped.domain ≠ [] && shipped.key env.toPrimitives == name).map (·.action)) =
        if entry.2.domains.any fun domain =>
          DomainRules.lowerTrimmed env.toPrimitives domain ≠ [] &&
            agentKey env domain == name then some entry.1.action.shipped
        else none := by
  rw [domainEntries_eq]
  induction entry.2.domains with
  | nil => rfl
  | cons domain domains ih =>
    rw [List.map_cons, List.find?_cons, List.any_cons]
    -- the agent trims and folds what is shipped once more
    have sameKey : DomainRule.key env.toPrimitives
        { orgID := some orgID
          domain := DomainRules.lowerTrimmed env.toPrimitives domain
          action := entry.1.action.shipped
          category := entry.2.category
          reason := "Application control: " ++ entry.2.name
          riskScore := 0 } = agentKey env domain := rfl
    rw [sameKey]
    dsimp only
    cases (decide (DomainRules.lowerTrimmed env.toPrimitives domain ≠ []) &&
        agentKey env domain == name) with
    | true => rfl
    | false => exact ih

theorem orgID_of_mem_appControlDomainRules {shipped : DomainRule}
    (shippedMem : shipped ∈ db.appControlDomainRules env orgID employeeID teamID) :
    shipped.orgID = some orgID := by
  have entryMem := List.mem_of_mem_filter (mem_of_mem_keepFirst shippedMem)
  rcases List.mem_flatMap.mp entryMem with ⟨entry, -, inEntry⟩
  rw [domainEntries_eq] at inEntry
  rcases List.mem_map.mp inEntry with ⟨domain, -, rfl⟩
  rfl

theorem matchDomain_of_orgs {rules : List DomainRule} {name : List Char} (nonempty : name ≠ [])
    (orgs : ∀ shipped ∈ rules, shipped.orgID.isSome = true) :
    (PolicyCache.load env.toPrimitives rules).matchDomain name =
      rules.find? fun shipped => shipped.key env.toPrimitives == name := by
  have byName : (PolicyCache.load env.toPrimitives rules).byDomain name =
      rules.filter fun shipped => shipped.key env.toPrimitives == name := by
    rw [PolicyCache.load]
    apply List.filter_congr
    intro shipped _
    simp [nonempty, beq_eq_decide]
  have isFirst : (rules.find? fun shipped => shipped.key env.toPrimitives == name) =
      (rules.filter fun shipped => shipped.key env.toPrimitives == name).head? :=
    List.head?_filter.symm
  rw [PolicyCache.matchDomain, byName, isFirst]
  have orgsUnder : ∀ shipped ∈ rules.filter fun shipped =>
      shipped.key env.toPrimitives == name, shipped.orgID.isSome = true :=
    fun shipped shippedMem => orgs shipped (List.mem_of_mem_filter shippedMem)
  cases under : rules.filter fun shipped => shipped.key env.toPrimitives == name with
  | nil => rfl
  | cons first rest =>
    rw [under] at orgsUnder
    have isOrg := orgsUnder first List.mem_cons_self
    rw [List.find?_cons_of_pos (p := fun rule : DomainRule => rule.orgID.isSome) isOrg]
    rfl

theorem findSome?_entries (name : List Char) (rules : List AppControlRule) :
    (((rules.filterMap (db.entry env orgID employeeID teamID)).filter fun entry =>
      entry.1.blockNetwork).findSome? fun entry =>
        if entry.2.domains.any fun domain =>
          DomainRules.lowerTrimmed env.toPrimitives domain ≠ [] &&
            agentKey env domain == name then some entry.1.action.shipped
        else none) =
      (rules.find? (db.ships env orgID employeeID teamID name)).map (·.action.shipped) := by
  induction rules with
  | nil => rfl
  | cons rule rules ih =>
    rw [List.find?_cons, Database.ships]
    cases active : db.isActive env orgID employeeID teamID rule with
    | false =>
      rw [List.filterMap_cons_none (by simp [Database.entry, active])]
      simpa using ih
    | true =>
      cases found : db.application rule with
      | none =>
        rw [List.filterMap_cons_none (by simp [Database.entry, found])]
        simpa using ih
      | some app =>
        have isEntry : db.entry env orgID employeeID teamID rule = some (rule, app) := by
          simp [Database.entry, active, found]
        rw [List.filterMap_cons_some isEntry]
        cases switch : rule.blockNetwork with
        | false =>
          rw [List.filter_cons_of_neg (by simp [switch])]
          simpa using ih
        | true =>
          rw [List.filter_cons_of_pos (by exact switch), List.findSome?_cons, Bool.true_and,
            Bool.true_and, Option.any_some]
          dsimp only
          cases app.domains.any fun domain =>
            DomainRules.lowerTrimmed env.toPrimitives domain ≠ [] &&
              agentKey env domain == name with
          | true => rfl
          | false => exact ih

theorem matchDomain_load {name : List Char} (nonempty : name ≠ []) :
    ((PolicyCache.load env.toPrimitives
      (db.appControlDomainRules env orgID employeeID teamID)).matchDomain name).map (·.action) =
        (db.rules.find? (db.ships env orgID employeeID teamID name)).map
          (·.action.shipped) := by
  rw [matchDomain_of_orgs nonempty fun shipped shippedMem =>
    Option.isSome_of_eq_some (orgID_of_mem_appControlDomainRules shippedMem)]
  rw [Database.appControlDomainRules, find?_keepFirst, List.find?_filter, List.find?_flatMap,
    List.map_findSome?, activeAppRules_eq, ← findSome?_entries]
  · congr 1
    funext entry
    rw [← @find?_domainEntries env orgID name entry]
    simp only [Function.comp_apply, Bool.decide_and, Bool.decide_eq_true]
  · intro first second same
    rw [Bool.and_eq_true, beq_iff_eq] at same
    rw [DomainRule.key, DomainRule.key, same.1]

theorem findSome?_matchDomain (names : List (List Char)) :
    (names.findSome? (PolicyCache.load env.toPrimitives
      (db.appControlDomainRules env orgID employeeID teamID)).matchDomain).map (·.action) =
        (names.find? fun name =>
          name ≠ [] && db.rules.any (db.ships env orgID employeeID teamID name)).bind
            fun name => (db.rules.find? (db.ships env orgID employeeID teamID name)).map
              (·.action.shipped) := by
  induction names with
  | nil => rfl
  | cons name names ih =>
    rw [List.findSome?_cons, List.find?_cons]
    by_cases empty : name = []
    · have unmatched : (PolicyCache.load env.toPrimitives
          (db.appControlDomainRules env orgID employeeID teamID)).matchDomain name = none := by
        rw [PolicyCache.matchDomain_eq_none_iff, empty]
        exact List.filter_eq_nil_iff.mpr (by simp)
      rw [unmatched, empty]
      exact ih
    · have found := @matchDomain_load env db orgID employeeID teamID name empty
      cases first : db.rules.find? (db.ships env orgID employeeID teamID name) with
      | none =>
        rw [first, Option.map_none, Option.map_eq_none_iff] at found
        have unshipped : db.rules.any (db.ships env orgID employeeID teamID name) = false := by
          rw [List.any_eq_false]
          exact List.find?_eq_none.mp first
        rw [found, unshipped, Bool.and_false]
        exact ih
      | some rule =>
        have shipped : db.rules.any (db.ships env orgID employeeID teamID name) = true := by
          rw [List.any_eq_true]
          exact ⟨rule, List.mem_of_find?_eq_some first, List.find?_some first⟩
        rw [shipped, decide_eq_true empty, Bool.true_and]
        rw [first] at found
        rcases Option.map_eq_some_iff.mp found with ⟨matched, isMatched, isAction⟩
        rw [isMatched]
        dsimp only
        rw [Option.bind_some, first, Option.map_some, Option.map_some, isAction]

theorem blocks_iff {host : List Char} :
    DomainRules.Blocks env.toPrimitives
      (db.appControlDomainRules env orgID employeeID teamID) host ↔
        ∃ name rule, db.decidingName env orgID employeeID teamID host = some name ∧
          db.rules.find? (db.ships env orgID employeeID teamID name) = some rule ∧
            rule.action ≠ .alert := by
  have isAction : DomainRules.Blocks env.toPrimitives
      (db.appControlDomainRules env orgID employeeID teamID) host ↔
        ((PolicyCache.load env.toPrimitives
          (db.appControlDomainRules env orgID employeeID teamID)).check env.toPrimitives
            host).map (·.action) = some .block := by
    rw [Option.map_eq_some_iff]
    rfl
  rw [isAction, DomainRules.check_load, PolicyCache.lookup_eq_findSome?, findSome?_matchDomain,
    Option.bind_eq_some_iff]
  constructor
  · rintro ⟨name, isName, blocked⟩
    rcases Option.map_eq_some_iff.mp blocked with ⟨rule, isFirst, isBlock⟩
    refine ⟨name, rule, isName, isFirst, ?_⟩
    intro isAlert
    rw [isAlert] at isBlock
    cases isBlock
  · rintro ⟨name, rule, isName, isFirst, notAlert⟩
    refine ⟨name, isName, ?_⟩
    rw [isFirst, Option.map_some]
    cases isRule : rule.action with
    | block => rfl
    | alert => exact absurd isRule notAlert

theorem Reorders.refl (db : Database) : Reorders db db := ⟨.refl _, .refl _, .refl _⟩

theorem network_iff :
    (∀ order, Reorders order db → ∀ host,
      (∃ app ∈ db.applications.rows, app.Lists env host) →
        (DomainRules.Blocks env.toPrimitives
          (order.appControlDomainRules env orgID employeeID teamID) host ↔
            db.RuleBlocks env orgID employeeID teamID (·.blockNetwork)
              (·.Lists env host))) ↔
      Undisputed env db orgID employeeID teamID := by
  constructor
  · intro beats host listed
    constructor
    · intro blocks isNone
      rcases blocks_iff.mp ((beats db (.refl db) host listed).mpr blocks) with ⟨name, -, isName, -⟩
      rw [isNone] at isName
      cases isName
    · intro name isName rule ruleMem ships
      -- in some order this rule comes first
      rcases exists_perm_find? ruleMem ships with ⟨rules, perm, isFirst⟩
      have reorders : Reorders { db with rules := rules } db := ⟨perm, .refl _, .refl _⟩
      rw [← beats _ reorders host listed, blocks_iff, decidingName_eq reorders, isName]
      simp only [ships_eq reorders]
      constructor
      · intro notAlert
        exact ⟨name, rule, rfl, isFirst, notAlert⟩
      · rintro ⟨other, first, isOther, isOtherFirst, notAlert⟩
        cases isOther
        rw [isFirst] at isOtherFirst
        cases isOtherFirst
        exact notAlert
  · intro undisputed order reorders host listed
    rcases undisputed host listed with ⟨decided, agree⟩
    rw [blocks_iff, decidingName_eq reorders]
    simp only [ships_eq reorders]
    constructor
    · rintro ⟨name, rule, isName, isFirst, notAlert⟩
      have ruleMem := reorders.rules.mem_iff.mp (List.mem_of_find?_eq_some isFirst)
      exact (agree name isName rule ruleMem (List.find?_some isFirst)).mp notAlert
    · intro blocks
      rcases Option.ne_none_iff_exists'.mp (decided blocks) with ⟨name, isName⟩
      have someShips := List.find?_some isName
      rw [Bool.and_eq_true, List.any_eq_true] at someShips
      rcases someShips.2 with ⟨shipping, shippingMem, ships⟩
      have isFound : (order.rules.find?
          (db.ships env orgID employeeID teamID name)).isSome = true := by
        rw [List.find?_isSome]
        exact ⟨shipping, reorders.rules.mem_iff.mpr shippingMem, ships⟩
      rcases Option.isSome_iff_exists.mp isFound with ⟨rule, isFirst⟩
      have ruleMem := reorders.rules.mem_iff.mp (List.mem_of_find?_eq_some isFirst)
      exact ⟨name, rule, isName, isFirst,
        (agree name isName rule ruleMem (List.find?_some isFirst)).mpr blocks⟩

def blocksApp (id : UUID) (entry : AppControlRule × ManagedApplication) : Prop :=
  entry.1.blockProcess = true ∧ entry.2.hasProcesses = true ∧ entry.2.id = id ∧
    entry.1.action ≠ .alert

variable {out out' : List AppControlMatcher} {id : UUID}

theorem blocksProcess_append :
    BlocksProcess (out ++ out') id ↔ BlocksProcess out id ∨ BlocksProcess out' id := by
  simp only [BlocksProcess, List.mem_append, or_and_right, exists_or]

theorem blocksProcess_map {named : UUID} :
    BlocksProcess (out.map fun matcher =>
      if matcher.appID = named then { matcher with action := .block } else matcher) id ↔
        BlocksProcess out id ∨ (out.any fun matcher => matcher.appID == named) = true ∧ named = id := by
  constructor
  · rintro ⟨matcher, matcherMem, isApp, isBlock⟩
    rcases List.mem_map.mp matcherMem with ⟨earlier, earlierMem, rfl⟩
    split at isApp
    · rename_i isNamed
      right
      refine ⟨?_, isNamed.symm.trans isApp⟩
      rw [List.any_eq_true]
      exact ⟨earlier, earlierMem, beq_iff_eq.mpr isNamed⟩
    · rename_i notNamed
      rw [if_neg notNamed] at isBlock
      exact .inl ⟨earlier, earlierMem, isApp, isBlock⟩
  · rintro (⟨matcher, matcherMem, isApp, isBlock⟩ | ⟨seen, rfl⟩)
    · refine ⟨_, List.mem_map_of_mem matcherMem, ?_, ?_⟩
      · split
        · exact isApp
        · exact isApp
      · split
        · rfl
        · exact isBlock
    · rcases List.any_eq_true.mp seen with ⟨matcher, matcherMem, isNamed⟩
      rw [beq_iff_eq] at isNamed
      refine ⟨_, List.mem_map_of_mem matcherMem, ?_, ?_⟩
      · rw [if_pos isNamed]
        exact isNamed
      · rw [if_pos isNamed]

theorem blocksProcess_mergeMatcher {entry : AppControlRule × ManagedApplication} :
    BlocksProcess (mergeMatcher out entry) id ↔ BlocksProcess out id ∨ blocksApp id entry := by
  rw [mergeMatcher, blocksApp]
  cases switch : entry.1.blockProcess with
  | false => simp
  | true =>
    cases processes : entry.2.hasProcesses with
    | false => simp
    | true =>
      cases seen : out.any fun matcher => matcher.appID == entry.2.id with
      | true =>
        cases action : entry.1.action with
        | alert => simp
        | block =>
          simp [blocksProcess_map, seen]
      | false =>
        cases action : entry.1.action with
        | alert | block => simp [BlocksProcess, ManagedApplication.matcher]

theorem blocksProcess_foldl (entries : List (AppControlRule × ManagedApplication)) :
    BlocksProcess (entries.foldl mergeMatcher out) id ↔
      BlocksProcess out id ∨ ∃ entry ∈ entries, blocksApp id entry := by
  induction entries generalizing out with
  | nil => simp
  | cons entry entries ih =>
    rw [List.foldl_cons, ih, blocksProcess_mergeMatcher, List.exists_mem_cons_iff, or_assoc]

def Database.ByDefault (db : Database) (env : Primitives) (orgID : UUID)
    (employeeID teamID : Option UUID) (app : ManagedApplication) : Prop :=
  app.orgID = none ∧ app.category ∈ defaultVPNBlockCategories ∧
    app.id ∉ db.configured env orgID employeeID teamID ∧ app.hasProcesses = true

theorem blocksProcess_defaults (appMem : app ∈ db.applications.rows) :
    BlocksProcess (db.defaultVPNMatchers env orgID employeeID teamID) app.id ↔
      db.ByDefault env orgID employeeID teamID app := by
  constructor
  · rintro ⟨matcher, matcherMem, isApp, -⟩
    rcases List.mem_map.mp matcherMem with ⟨other, otherMem, rfl⟩
    rcases List.mem_filter.mp otherMem with ⟨otherMem, isDefault⟩
    rw [← db.applications.eq_of_id_eq otherMem appMem isApp]
    have decided := of_decide_eq_true isDefault
    exact decided
  · intro isDefault
    exact ⟨app.matcher .block,
      List.mem_map_of_mem (List.mem_filter.mpr ⟨appMem, decide_eq_true isDefault⟩), rfl, rfl⟩

theorem mem_of_application (isApp : db.application rule = some app) :
    app ∈ db.applications.rows ∧ app.id = rule.applicationID := by
  have isID := List.find?_some isApp
  rw [beq_iff_eq] at isID
  exact ⟨List.mem_of_find?_eq_some isApp, isID⟩

theorem blocksProcess_iff (appMem : app ∈ db.applications.rows) (processes : app.hasProcesses = true) :
    BlocksProcess (db.appControlMatchers env orgID employeeID teamID) app.id ↔
      db.RuleBlocks env orgID employeeID teamID (·.blockProcess) (· = app) ∨
        db.ByDefault env orgID employeeID teamID app := by
  have fromRules : (∃ entry ∈ db.activeAppRules env orgID employeeID teamID,
      blocksApp app.id entry) ↔
        db.RuleBlocks env orgID employeeID teamID (·.blockProcess) (· = app) := by
    constructor
    · rintro ⟨entry, entryMem, switch, -, isID, notAlert⟩
      rcases mem_activeAppRules.mp entryMem with ⟨ruleMem, active, isApp⟩
      exact ⟨entry.1, ruleMem, active, switch, notAlert, entry.2, isApp,
        db.applications.eq_of_id_eq (mem_of_application isApp).1 appMem isID⟩
    · rintro ⟨rule, ruleMem, active, switch, notAlert, other, isApp, rfl⟩
      exact ⟨(rule, other), mem_activeAppRules.mpr ⟨ruleMem, active, isApp⟩, switch, processes, rfl,
        notAlert⟩
  have none : ¬BlocksProcess [] app.id := by
    rintro ⟨matcher, matcherMem, -⟩
    cases matcherMem
  rw [Database.appControlMatchers, blocksProcess_append, blocksProcess_foldl,
    blocksProcess_defaults appMem, fromRules, or_iff_right none]

theorem mem_configured (active : db.isActive env orgID employeeID teamID rule = true)
    (ruleMem : rule ∈ db.rules) :
    rule.applicationID ∈ db.configured env orgID employeeID teamID := by
  rw [Database.isActive, Bool.and_eq_true, Bool.and_eq_true, Bool.and_eq_true, beq_iff_eq] at active
  apply List.mem_append_left
  refine List.mem_map_of_mem (List.mem_filter.mpr ⟨ruleMem, ?_⟩)
  exact decide_eq_true ⟨active.1.1.1, active.1.2⟩

theorem mem_configured_iff (reorders : Reorders order db) :
    id ∈ order.configured env orgID employeeID teamID ↔
      id ∈ db.configured env orgID employeeID teamID := by
  rw [Database.configured, Database.configured, List.mem_append, List.mem_append,
    mem_approvedApps_iff reorders, ((reorders.rules.filter _).map _).mem_iff]

theorem process_iff :
    (∀ order, Reorders order db → ∀ app ∈ db.applications.rows, app.hasProcesses = true →
      (BlocksProcess (order.appControlMatchers env orgID employeeID teamID) app.id ↔
        db.RuleBlocks env orgID employeeID teamID (·.blockProcess) (· = app))) ↔
      NoDefaults env db orgID employeeID teamID := by
  constructor
  · intro beats app appMem processes shared isVPN
    by_contra unconfigured
    have blocked := (beats db (.refl db) app appMem processes).mp
      ((blocksProcess_iff appMem processes).mpr (.inr ⟨shared, isVPN, unconfigured, processes⟩))
    rcases blocked with ⟨rule, ruleMem, active, -, -, other, isApp, rfl⟩
    apply unconfigured
    rw [(mem_of_application isApp).2]
    exact mem_configured active ruleMem
  · intro noDefaults order reorders app appMem processes
    rw [blocksProcess_iff (reorders.applications.mem_iff.mpr appMem) processes,
      ruleBlocks_iff reorders, or_iff_left]
    rintro ⟨shared, isVPN, unconfigured, -⟩
    rw [mem_configured_iff reorders] at unconfigured
    exact unconfigured (noDefaults app appMem processes shared isVPN)

/-- Block beats alert if no application is blocked by default and no rules dispute a host. -/
theorem blockBeatsAlert_iff : BlockBeatsAlert env db orgID employeeID teamID ↔
    NoDefaults env db orgID employeeID teamID ∧
      Undisputed env db orgID employeeID teamID := by
  rw [← process_iff, ← network_iff]
  constructor
  · intro beats
    exact ⟨beats.process, beats.network⟩
  · rintro ⟨process, network⟩
    exact ⟨process, network⟩

def sharedHost : List Char := "cdn.example.com".toList

def sharing (id : UUID) (name : String) : ManagedApplication where
  orgID := none
  domains := [sharedHost]
  id := id
  name := name
  category := "ai"
  processNames := []
  bundleIDs := []
  pathPatterns := []

def networkRule (applicationID : UUID) (action : Action) : AppControlRule where
  orgID := ⟨1⟩
  applicationID := applicationID
  employeeID := none
  action := action
  enabled := true
  blockNetwork := true
  blockProcess := false
  targets := ⟨"company", [], []⟩

def sharedDomain : Database where
  rules := [networkRule ⟨2⟩ .alert, networkRule ⟨3⟩ .block]
  applications := ⟨[sharing ⟨2⟩ "Writer", sharing ⟨3⟩ "Painter"], by decide⟩
  requests := []

/-- The alert is shipped first, and the agent lets the host through. -/
theorem not_alwaysBlockBeatsAlert : ¬∀ (env : Primitives) (db : Database) (orgID : UUID)
    (employeeID teamID : Option UUID), BlockBeatsAlert env db orgID employeeID teamID := by
  intro always
  have beats := always .ascii sharedDomain ⟨1⟩ (some ⟨4⟩) none
  have ruleBlocks : sharedDomain.RuleBlocks .ascii ⟨1⟩ (some ⟨4⟩) none (·.blockNetwork)
      (·.Lists .ascii sharedHost) := by
    refine ⟨networkRule ⟨3⟩ .block, by simp [sharedDomain], by decide, rfl, by decide,
      sharing ⟨3⟩ "Painter", rfl, by decide, sharedHost, List.mem_singleton_self _, by decide⟩
  have listed : ∃ app ∈ sharedDomain.applications.rows, app.Lists .ascii sharedHost :=
    ⟨sharing ⟨3⟩ "Painter", by simp [sharedDomain], by decide, sharedHost,
      List.mem_singleton_self _, by decide⟩
  rcases (beats.network sharedDomain (.refl _) sharedHost listed).mpr ruleBlocks with
    ⟨rule, isRule, isBlock⟩
  have alerts : ((PolicyCache.load Primitives.ascii.toPrimitives
      (sharedDomain.appControlDomainRules .ascii ⟨1⟩ (some ⟨4⟩) none)).check
        Primitives.ascii.toPrimitives sharedHost).map (·.action) = some .alert := by
    decide
  rw [isRule, Option.map_some, isBlock] at alerts
  cases alerts

end Aavishield.AppControl
