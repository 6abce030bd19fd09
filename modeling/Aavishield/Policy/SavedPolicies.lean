import Aavishield.Dlp.Libraries
import Aavishield.Lib.TransitionSystem
import Aavishield.Policy.DevicePriority
import Mathlib.Data.List.Dedup

/-!
# Policies as they are saved

`Create`, `Duplicate` and `Import` hand a policy to GORM, which leaves a field of zero value out of
the INSERT when its column has a default.
-/

namespace Aavishield.SavedPolicies

open AgentFeed (Database StoredPolicy keptAs)
open AppControl (Primitives)
open Dlp (Json)
open DomainRules (DomainRule PolicyAction Targets approvedHosts approvedWebsites normDomain
  normalizePolicyDomain policyTargetMatches readAction resolvePolicyDomains)
open TransitionSystem

/-- A `map[string]any`, which may be nil. -/
abbrev Fields : Type := Option (List (List Char × Json))

def field (fields : Fields) (name : String) : Option Json := (fields.getD []).lookup name.toList

def strings : Option Json → List (List Char)
  | some (.array items) => items.filterMap fun item =>
    match item with
    | .string text => some text
    | _ => none
  | _ => []

def idList (ids : Option Json) : List String := ((strings ids).filter (· ≠ [])).map String.ofList

def readTargets (targets : Fields) : Targets where
  scope := match field targets "scope" with
    | some (.string scope) => String.ofList scope
    | _ => ""
  employeeIDs := idList (field targets "employee_ids")
  teamIDs := idList (field targets "team_ids")

structure PolicyRow where
  id : UUID
  orgID : UUID
  name : String
  description : String
  type : String
  action : PolicyAction
  priority : ℤ
  enabled : Bool
  rules : Fields
  targets : Fields

def PolicyRow.toStored (row : PolicyRow) : StoredPolicy where
  orgID := row.orgID
  name := row.name
  type := row.type
  action := row.action
  domains := strings (field row.rules "domains")
  categories := (strings (field row.rules "categories")).map String.ofList
  targets := readTargets row.targets
  enabled := row.enabled
  priority := row.priority

/-- What a handler sets of `models.Policy`, with zero values for what it does not set. -/
structure NewPolicy where
  name : String
  description : String
  type : String
  action : String
  priority : ℤ := 0
  enabled : Bool
  rules : Fields
  targets : Fields

/-- The values of `policy_type`. -/
def policyTypes : List String :=
  ["url_category", "domain", "application", "usb", "dlp", "time_based", "process"]

def stored {α : Type} [DecidableEq α] (zero default value : α) : α :=
  if value = zero then default else value

def NewPolicy.row (new : NewPolicy) (orgID id : UUID) : Option PolicyRow :=
  if new.type ∈ policyTypes then
    (readAction (stored "" "block" new.action)).map fun action =>
      { id := id, orgID := orgID, name := new.name, description := new.description, type := new.type
        action := action, priority := stored 0 100 new.priority
        enabled := stored false true new.enabled, rules := new.rules, targets := new.targets }
  else none

def insertRow (row : PolicyRow) : ℕ → List PolicyRow → List PolicyRow
  | _, [] => [row]
  | place, first :: rest =>
    if first.priority < row.priority then first :: insertRow row place rest
    else if first.priority = row.priority ∧ 0 < place then first :: insertRow row (place - 1) rest
    else row :: first :: rest

theorem exists_insertRow (row : PolicyRow) (place : ℕ) (rows : List PolicyRow) :
    ∃ front back, rows = front ++ back ∧ insertRow row place rows = front ++ row :: back := by
  induction rows generalizing place with
  | nil => exact ⟨[], [], rfl, rfl⟩
  | cons first rest ih =>
    simp only [insertRow]
    split_ifs
    · obtain ⟨front, back, rfl, inserted⟩ := ih place
      exact ⟨first :: front, back, rfl, by rw [inserted, List.cons_append]⟩
    · obtain ⟨front, back, rfl, inserted⟩ := ih (place - 1)
      exact ⟨first :: front, back, rfl, by rw [inserted, List.cons_append]⟩
    · exact ⟨[], first :: rest, rfl, rfl⟩

theorem mem_insertRow {row other : PolicyRow} {place : ℕ} {rows : List PolicyRow} :
    other ∈ insertRow row place rows ↔ other = row ∨ other ∈ rows := by
  obtain ⟨front, back, rfl, inserted⟩ := exists_insertRow row place rows
  rw [inserted]
  simp only [List.mem_append, List.mem_cons]
  grind

theorem sorted_insertRow {row : PolicyRow} {place : ℕ} {rows : List PolicyRow}
    (sorted : rows.Pairwise fun first second => first.priority ≤ second.priority) :
    (insertRow row place rows).Pairwise fun first second => first.priority ≤ second.priority := by
  induction rows generalizing place with
  | nil => simp [insertRow]
  | cons first rest ih =>
    have least := (List.pairwise_cons.1 sorted).1
    simp only [insertRow]
    split_ifs with lower equal
    · apply List.Pairwise.cons _ (ih sorted.of_cons)
      intro other mem
      rcases mem_insertRow.1 mem with rfl | mem
      · exact lower.le
      · exact least other mem
    · apply List.Pairwise.cons _ (ih sorted.of_cons)
      intro other mem
      rcases mem_insertRow.1 mem with rfl | mem
      · exact equal.1.le
      · exact least other mem
    · apply List.Pairwise.cons _ sorted
      intro other mem
      rcases List.mem_cons.1 mem with rfl | mem
      · exact not_lt.1 lower
      · exact (not_lt.1 lower).trans (least other mem)

/-- The rows of policies, and the other tables. -/
structure Store where
  rows : List PolicyRow
  rest : Database
  sorted : rows.Pairwise fun first second => first.priority ≤ second.priority

def Store.database (store : Store) : Database :=
  { store.rest with
    policies := store.rows.map PolicyRow.toStored
    sorted := List.pairwise_map.2 store.sorted }

structure PolicyRequest where
  name : String
  description : String
  type : String
  policyType : String
  action : String
  priority : ℤ
  enabled : Option Bool
  rules : Fields
  targets : Fields

def PolicyRequest.resolvedType (request : PolicyRequest) : String :=
  if request.type ≠ "" then request.type else request.policyType

/-- `validate`. -/
def PolicyRequest.error (request : PolicyRequest) : Option String :=
  if request.resolvedType = "" then some "policy type is required" else none

/-- The identifier of a new row, and where it is read. -/
structure Draw where
  id : UUID
  place : ℕ

inductive Response where
  | created (row : PolicyRow)
  | imported (created : ℕ)
  | refused (status : ℕ) (error : String)

def Store.insert (orgID : UUID) (new : NewPolicy) (draw : Draw) (store : Store) :
    Option (PolicyRow × Store) :=
  (new.row orgID draw.id).map fun row =>
    (row, { store with
      rows := insertRow row draw.place store.rows
      sorted := sorted_insertRow store.sorted })

/-- What `Create` makes of a request. -/
def PolicyRequest.created (request : PolicyRequest) : NewPolicy where
  name := request.name
  description := request.description
  type := request.resolvedType
  action := if request.action ≠ "" then request.action else "block"
  priority := if request.priority > 0 then request.priority else 100
  enabled := request.enabled.getD true
  rules := some (request.rules.getD [])
  targets := some (request.targets.getD [("scope".toList, .string "all".toList)])

/-- `Create`; what gin says of a request without a name is a parameter. -/
def Store.create (bindingError : String) (orgID : UUID) (request : PolicyRequest) (draw : Draw)
    (store : Store) : Response × Store :=
  if request.name = "" then (.refused 400 bindingError, store)
  else
    match request.error with
    | some error => (.refused 400 error, store)
    | none =>
      match store.insert orgID request.created draw with
      | none => (.refused 500 "Failed to create policy", store)
      | some (row, store) => (.created row, store)

def PolicyRow.copy (original : PolicyRow) : NewPolicy where
  name := "Copy of " ++ original.name
  description := original.description
  type := original.type
  action := match original.action with
    | .block => "block"
    | .allow => "allow"
    | .alert => "alert"
    | .log => "log"
  priority := original.priority + 1
  enabled := false
  rules := original.rules
  targets := original.targets

def Store.find (orgID id : UUID) (store : Store) : Option PolicyRow :=
  store.rows.find? fun row => row.id = id ∧ row.orgID = orgID

def Store.duplicate (orgID id : UUID) (draw : Draw) (store : Store) : Response × Store :=
  match store.find orgID id with
  | none => (.refused 404 "Policy not found", store)
  | some original =>
    match store.insert orgID original.copy draw with
    | none => (.refused 500 "Failed to duplicate policy", store)
    | some (row, store) => (.created row, store)

/-- What `Import` makes of a request. -/
def PolicyRequest.imported (request : PolicyRequest) : NewPolicy where
  name := request.name
  description := request.description
  type := request.resolvedType
  action := request.action
  enabled := false
  rules := request.rules
  targets := request.targets

def Store.insertAll (orgID : UUID) : List NewPolicy → (ℕ → Draw) → Store → List PolicyRow × Store
  | [], _, store => ([], store)
  | new :: rest, draw, store =>
    match store.insert orgID new (draw 0) with
    | none => insertAll orgID rest (fun index => draw (index + 1)) store
    | some (row, store) =>
      let (rows, store) := insertAll orgID rest (fun index => draw (index + 1)) store
      (row :: rows, store)

/-- `Import`, with the rows that it creates. -/
def Store.importRows (orgID : UUID) (requests : List PolicyRequest) (draw : ℕ → Draw) (store : Store) :
    List PolicyRow × Store :=
  if ∃ request ∈ requests, request.name = "" then ([], store)
  else store.insertAll orgID (requests.map PolicyRequest.imported) draw

def Store.importPolicies (bindingError : String) (orgID : UUID) (requests : List PolicyRequest)
    (draw : ℕ → Draw) (store : Store) : Response × Store :=
  let (rows, after) := store.importRows orgID requests draw
  if ∃ request ∈ requests, request.name = "" then (.refused 400 bindingError, after)
  else (.imported rows.length, after)

/-- A policy as `Export` writes it and `Import` reads it. -/
def PolicyRow.exported (row : PolicyRow) : PolicyRequest where
  name := row.name
  description := row.description
  type := row.type
  policyType := ""
  action := row.copy.action
  priority := row.priority
  enabled := some row.enabled
  rules := row.rules
  targets := row.targets

inductive Call where
  /-- A `Create` with `enabled` false. -/
  | createDisabled (request : PolicyRequest) (draw : Draw)
  | duplicate (id : UUID) (draw : Draw)
  | importPolicies (requests : List PolicyRequest) (draw : ℕ → Draw)

def Call.handle (bindingError : String) (orgID : UUID) : Call → Store → Response × Store
  | .createDisabled request draw =>
    Store.create bindingError orgID { request with enabled := some false } draw
  | .duplicate id draw => Store.duplicate orgID id draw
  | .importPolicies requests draw => Store.importPolicies bindingError orgID requests draw

def Call.policies (orgID : UUID) : Call → Store → List NewPolicy
  | .createDisabled request _, _ =>
    if request.name = "" ∨ request.error ≠ none then []
    else [{ request.created with enabled := false }]
  | .duplicate id _, store => ((store.find orgID id).map PolicyRow.copy).toList
  | .importPolicies requests _, _ =>
    if ∃ request ∈ requests, request.name = "" then [] else requests.map PolicyRequest.imported

def step (bindingError : String) (store : Store) (entry : UUID × Call) : Option Store :=
  some (entry.2.handle bindingError entry.1 store).2

section Condition

variable (env : Primitives) (store : Store) (orgID : UUID) (employeeID : Option UUID)

def Store.rules : List DomainRule := store.database.getRules env orgID employeeID

def Store.Granted (domain : List Char) : Prop :=
  ∃ employee, employeeID = some employee ∧ normDomain env.toPrimitives domain ∈
    approvedHosts env.toPrimitives (store.rest.requests.map (·.toAccessRequest))
      (store.rest.applications.rows.map (·.toManagedApplication)) orgID employee

def Store.Quiet (ofOrg : UUID) (new : NewPolicy) : Prop :=
  ofOrg = orgID → new.type ∈ policyTypes →
    ∀ action, readAction (stored "" "block" new.action) = some action →
      policyTargetMatches (readTargets new.targets) employeeID (store.rest.teamOf employeeID) = true →
        ∀ domain, (domain ∈ strings (field new.rules "domains") ∨
            ∃ slug ∈ (strings (field new.rules "categories")).map String.ofList,
              slug ≠ "" ∧ store.rest.InCategory orgID slug domain) →
          normalizePolicyDomain env.toPrimitives domain = [] ∨
            action ≠ .allow ∧ store.Granted env orgID employeeID
              (normalizePolicyDomain env.toPrimitives domain)

/-- The new policies change nothing for the employee. -/
def Careful (store : Store) (entry : UUID × Call) : Prop :=
  ∀ new ∈ entry.2.policies entry.1 store, store.Quiet env orgID employeeID entry.1 new

end Condition

variable {env : Primitives} {store after : Store} {orgID ofOrg : UUID} {employeeID : Option UUID}
  {row : PolicyRow} {new : NewPolicy} {draw : Draw} {bindingError : String}

def passed (env : Primitives) (db : Database) (orgID : UUID) (employeeID : Option UUID)
    (rules : List DomainRule) : List DomainRule :=
  match employeeID with
  | none => rules
  | some employee =>
    if approvedWebsites env.toPrimitives (db.requests.map (·.toAccessRequest)) employee = [] then
      rules
    else rules.filter (DomainRules.keeps env.toPrimitives (approvedHosts env.toPrimitives
      (db.requests.map (·.toAccessRequest)) (db.applications.rows.map (·.toManagedApplication)) orgID
        employee))

theorem exists_filterApprovedExceptions (db : Database) (orgID employee : UUID)
    (front back : List DomainRule) {piece : List DomainRule} (ofOrg : ∀ rule ∈ piece, rule.orgID.isSome = true) :
    ∃ earlier later,
      DomainRules.filterApprovedExceptions env.toPrimitives (db.requests.map (·.toAccessRequest))
          (db.applications.rows.map (·.toManagedApplication)) (front ++ back) orgID employee =
        earlier ++ later ∧
      DomainRules.filterApprovedExceptions env.toPrimitives (db.requests.map (·.toAccessRequest))
          (db.applications.rows.map (·.toManagedApplication)) (front ++ piece ++ back) orgID employee =
        earlier ++ passed env db orgID (some employee) piece ++ later := by
  simp only [DomainRules.filterApprovedExceptions, passed]
  split_ifs
  · exact ⟨front, back, rfl, rfl⟩
  · have noBlock : (piece.filter fun rule => rule.IsPlatformBlock) = [] := by
      rw [List.filter_eq_nil_iff]
      intro rule mem isBlock
      have isSome := ofOrg rule mem
      rw [(of_decide_eq_true isBlock).1] at isSome
      cases isSome
    simp only [DomainRules.filtered, DomainRules.approvals, DomainRules.platformBlocked,
      List.filter_append, noBlock, List.append_nil]
    refine ⟨_, _, List.append_assoc _ _ _, ?_⟩
    simp

variable {db : Database}

theorem categoryDomainsBySlug_congr {slugs slugs' : List String} {slug : String}
    (same : slug ∈ slugs ↔ slug ∈ slugs') :
    db.categoryDomainsBySlug orgID slugs slug = db.categoryDomainsBySlug orgID slugs' slug := by
  simp only [Database.categoryDomainsBySlug, List.filter_flatMap, List.filter_map, List.filter_filter]
  congr 2
  funext domain
  congr 1
  apply List.filter_congr
  intro category _
  by_cases isSlug : category.slug = slug
  · simp [isSlug, same]
  · simp [isSlug]

def rulesOf (env : Primitives) (db : Database) (orgID : UUID) (employeeID : Option UUID)
    (slugs : List String) (policy : StoredPolicy) : List DomainRule :=
  DomainRules.expandPoliciesToDomainRules env.toPrimitives [policy.toPolicy]
    (db.categoryDomainsBySlug orgID slugs) employeeID (db.teamOf employeeID)

variable {policy : StoredPolicy}

theorem rulesOf_congr {slugs slugs' : List String}
    (same : ∀ slug ∈ policy.categories, slug ∈ slugs ↔ slug ∈ slugs') :
    rulesOf env db orgID employeeID slugs policy =
      rulesOf env db orgID employeeID slugs' policy := by
  have categories : policy.categories.flatMap (db.categoryDomainsBySlug orgID slugs) =
      policy.categories.flatMap (db.categoryDomainsBySlug orgID slugs') := by
    apply List.flatMap_congr
    intro slug mem
    exact categoryDomainsBySlug_congr (same slug mem)
  simp only [rulesOf, DomainRules.expandPoliciesToDomainRules, resolvePolicyDomains, List.filter_cons,
    List.filter_nil]
  split_ifs
  · simp [categories]
  · rfl

theorem expand_eq_flatMap (db : Database) (policies : List StoredPolicy) :
    db.expandPoliciesToDomainRules env orgID employeeID policies (db.teamOf employeeID) =
      policies.flatMap (rulesOf env db orgID employeeID (Database.allSlugs policies)) := by
  rw [Database.expandPoliciesToDomainRules]
  generalize Database.allSlugs policies = slugs
  induction policies with
  | nil => rfl
  | cons policy rest ih =>
    rw [List.flatMap_cons, ← ih, rulesOf]
    simp only [DomainRules.expandPoliciesToDomainRules, ← List.flatMap_append, ← List.filter_append]
    rfl

theorem mem_slugs_of_mem_policy {policies : List StoredPolicy} {slug : String}
    (policyMem : policy ∈ policies) (slugMem : slug ∈ policy.categories) :
    slug ∈ Database.allSlugs policies ↔ slug ≠ "" :=
  Database.mem_allSlugs (List.mem_map_of_mem policyMem) slugMem

theorem expand_insert (env : Primitives) (db : Database) (orgID : UUID)
    (employeeID : Option UUID) (front back : List StoredPolicy) (policy : StoredPolicy) :
    ∃ earlier later,
      db.expandPoliciesToDomainRules env orgID employeeID (front ++ back)
          (db.teamOf employeeID) = earlier ++ later ∧
        db.expandPoliciesToDomainRules env orgID employeeID (front ++ policy :: back)
            (db.teamOf employeeID) =
          earlier ++ rulesOf env db orgID employeeID
            (Database.allSlugs (front ++ policy :: back)) policy ++ later := by
  refine ⟨front.flatMap (rulesOf env db orgID employeeID (Database.allSlugs (front ++ back))),
    back.flatMap (rulesOf env db orgID employeeID (Database.allSlugs (front ++ back))), ?_, ?_⟩
  · rw [expand_eq_flatMap, List.flatMap_append]
  · have others : ∀ other ∈ front ++ back,
        rulesOf env db orgID employeeID (Database.allSlugs (front ++ policy :: back)) other =
          rulesOf env db orgID employeeID (Database.allSlugs (front ++ back)) other := by
      intro other mem
      apply rulesOf_congr
      intro slug slugMem
      rw [mem_slugs_of_mem_policy mem slugMem, mem_slugs_of_mem_policy _ slugMem]
      exact List.mem_append.2 ((List.mem_append.1 mem).imp id (List.mem_cons_of_mem policy))
    rw [List.forall_mem_append] at others
    rw [expand_eq_flatMap, List.flatMap_append, List.flatMap_cons, List.flatMap_congr others.1,
      List.flatMap_congr others.2, List.append_assoc]

def feed (env : Primitives) (db : Database) (orgID : UUID) (employeeID : Option UUID)
    (policies : List StoredPolicy) : List DomainRule :=
  let rules := (db.domainRules.filter fun rule => rule.enabled = true ∧
      (rule.orgID = some orgID ∨ rule.orgID = none)).map (·.toDomainRule) ++
    db.expandPoliciesToDomainRules env orgID employeeID policies (db.teamOf employeeID) ++
      db.appControlDomainRules env orgID employeeID (db.teamOf employeeID)
  match employeeID with
  | none => rules
  | some employee => DomainRules.filterApprovedExceptions env.toPrimitives
      (db.requests.map (·.toAccessRequest)) (db.applications.rows.map (·.toManagedApplication)) rules
        orgID employee

theorem feed_insert (db : Database) (front back : List StoredPolicy) (policy : StoredPolicy) :
    ∃ earlier later, feed env db orgID employeeID (front ++ back) = earlier ++ later ∧
      feed env db orgID employeeID (front ++ policy :: back) = earlier ++
        passed env db orgID employeeID (rulesOf env db orgID employeeID
          (Database.allSlugs (front ++ policy :: back)) policy) ++ later := by
  obtain ⟨before, behind, without, with'⟩ :=
    expand_insert env db orgID employeeID front back policy
  let rules := (db.domainRules.filter fun rule => rule.enabled = true ∧
    (rule.orgID = some orgID ∨ rule.orgID = none)).map (·.toDomainRule)
  let appRules := db.appControlDomainRules env orgID employeeID (db.teamOf employeeID)
  have first : rules ++ (before ++ behind) ++ appRules = (rules ++ before) ++ (behind ++ appRules) := by
    simp
  have second : ∀ piece, rules ++ (before ++ piece ++ behind) ++ appRules =
      (rules ++ before) ++ piece ++ (behind ++ appRules) := by
    intro piece
    simp
  simp only [feed, without, with']
  cases employeeID with
  | none => exact ⟨_, _, first, second _⟩
  | some employee =>
    have ofOrg : ∀ rule ∈ rulesOf env db orgID (some employee)
        (Database.allSlugs (front ++ policy :: back)) policy, rule.orgID.isSome = true := by
      intro rule mem
      obtain ⟨policy, -, inPolicy⟩ := List.mem_flatMap.1 mem
      obtain ⟨domain, -, rfl⟩ := List.mem_map.1 inPolicy
      rfl
    obtain ⟨earlier, later, isBefore, isAfter⟩ := exists_filterApprovedExceptions db orgID employee
      (rules ++ before) (behind ++ appRules) ofOrg
    rw [← first] at isBefore
    rw [← second] at isAfter
    exact ⟨earlier, later, isBefore, isAfter⟩

theorem row_of_insert (inserted : store.insert ofOrg new draw = some (row, after)) :
    new.row ofOrg draw.id = some row ∧ row.orgID = ofOrg ∧ row.enabled = true ∧
      after.rest = store.rest ∧ ∃ front back, store.rows = front ++ back ∧
        after.rows = front ++ row :: back := by
  obtain ⟨made, isRow, same⟩ := Option.map_eq_some_iff.1 inserted
  cases same
  refine ⟨isRow, ?_, ?_, rfl, exists_insertRow row draw.place store.rows⟩
  all_goals
    unfold NewPolicy.row at isRow
    split_ifs at isRow
    obtain ⟨action, -, rfl⟩ := Option.map_eq_some_iff.1 isRow
  · rfl
  · cases new.enabled <;> rfl

theorem rules_insert (env : Primitives) (orgID : UUID) (employeeID : Option UUID)
    (inserted : store.insert ofOrg new draw = some (row, after)) :
    ∃ earlier later, store.rules env orgID employeeID = earlier ++ later ∧
      after.rules env orgID employeeID = earlier ++
        (if ofOrg = orgID then passed env store.database orgID employeeID
          (rulesOf env store.database orgID employeeID
            (Database.allSlugs (after.database.activePolicies orgID)) row.toStored) else []) ++ later := by
  obtain ⟨-, isOrg, enabled, sameRest, front, back, rows, rowsAfter⟩ := row_of_insert inserted
  let active : StoredPolicy → Bool := fun policy => policy.enabled = true ∧ policy.orgID = orgID
  have before : store.rules env orgID employeeID = feed env store.database orgID employeeID
      ((front.map PolicyRow.toStored).filter active ++ (back.map PolicyRow.toStored).filter active) := by
    rw [← List.filter_append, ← List.map_append, ← rows]
    rfl
  have later : after.rules env orgID employeeID = feed env store.database orgID employeeID
      (after.database.activePolicies orgID) := by
    obtain ⟨rowsAfter, rest, sorted⟩ := after
    cases sameRest
    rfl
  have activeAfter : after.database.activePolicies orgID =
      (front.map PolicyRow.toStored).filter active ++
        ([row.toStored].filter active ++ (back.map PolicyRow.toStored).filter active) := by
    rw [← List.filter_append, ← List.filter_append, List.singleton_append, ← List.map_cons,
      ← List.map_append, ← rowsAfter]
    rfl
  rw [before, later, activeAfter]
  by_cases own : ofOrg = orgID
  · have isActive : [row.toStored].filter active = [row.toStored] := by
      apply List.filter_eq_self.2
      simp [active, PolicyRow.toStored, enabled, isOrg, own]
    simp only [isActive, if_pos own, List.singleton_append]
    apply feed_insert
  · have notActive : [row.toStored].filter active = [] := by
      apply List.filter_eq_nil_iff.2
      simp [active, PolicyRow.toStored, isOrg, own]
    simp only [notActive, if_neg own, List.nil_append]
    exact ⟨_, [], (List.append_nil _).symm, by simp⟩

theorem passed_eq_nil_iff (db : Database) {rules : List DomainRule}
    (ofOrg : ∀ rule ∈ rules, rule.orgID.isSome = true) :
    passed env db orgID employeeID rules = [] ↔ ∀ rule ∈ rules, rule.action ≠ .allow ∧
      ∃ employee, employeeID = some employee ∧ normDomain env.toPrimitives rule.domain ∈
        approvedHosts env.toPrimitives (db.requests.map (·.toAccessRequest))
          (db.applications.rows.map (·.toManagedApplication)) orgID employee := by
  cases employeeID with
  | none => simp [passed, List.eq_nil_iff_forall_not_mem]
  | some employee =>
    simp only [passed, Option.some.injEq, exists_eq_left']
    split_ifs with noWebsites
    · simp [approvedHosts, noWebsites, List.eq_nil_iff_forall_not_mem]
    · rw [List.filter_eq_nil_iff]
      constructor
      · intro dropped rule mem
        have isDropped := dropped rule mem
        simp only [DomainRules.keeps, decide_eq_true_eq, not_or, not_not] at isDropped
        exact ⟨isDropped.2.2, isDropped.2.1⟩
      · intro dropped rule mem
        have noBlock : ¬rule.IsPlatformBlock := by
          rintro ⟨ofNone, -⟩
          have isSome := ofOrg rule mem
          rw [ofNone] at isSome
          cases isSome
        simp only [DomainRules.keeps, decide_eq_true_eq, not_or, not_not]
        exact ⟨noBlock, (dropped rule mem).2, (dropped rule mem).1⟩

theorem mem_rulesOf {slugs : List String} {rule : DomainRule} :
    rule ∈ rulesOf env db orgID employeeID slugs policy ↔
      policyTargetMatches policy.targets employeeID (db.teamOf employeeID) = true ∧
        ∃ domain ∈ resolvePolicyDomains env.toPrimitives policy.toPolicy
            (db.categoryDomainsBySlug orgID slugs),
          rule = ⟨some policy.orgID, domain, policy.action, policy.type, "Policy: " ++ policy.name, 0⟩ := by
  simp only [rulesOf, DomainRules.expandPoliciesToDomainRules, List.mem_flatMap, List.mem_filter,
    List.mem_singleton, List.mem_map, eq_comm (b := rule)]
  constructor
  · rintro ⟨_, ⟨rfl, targets⟩, domain, mem, isRule⟩
    exact ⟨targets, domain, mem, isRule⟩
  · rintro ⟨targets, domain, mem, isRule⟩
    exact ⟨_, ⟨rfl, targets⟩, domain, mem, isRule⟩

theorem passed_rulesOf_eq_nil_iff {slugs : List String} (isRow : new.row orgID draw.id = some row)
    (read : ∀ slug ∈ row.toStored.categories, slug ∈ slugs ↔ slug ≠ "") :
    passed env store.database orgID employeeID (rulesOf env store.database orgID employeeID
        slugs row.toStored) = [] ↔ store.Quiet env orgID employeeID orgID new := by
  unfold NewPolicy.row at isRow
  split_ifs at isRow with known
  obtain ⟨action, isAction, isRow⟩ := Option.map_eq_some_iff.1 isRow
  have covered : ∀ domain, domain ∈ resolvePolicyDomains env.toPrimitives row.toStored.toPolicy
      (store.database.categoryDomainsBySlug orgID slugs) ↔ domain ≠ [] ∧
        ∃ raw, (raw ∈ strings (field new.rules "domains") ∨
            ∃ slug ∈ (strings (field new.rules "categories")).map String.ofList,
              slug ≠ "" ∧ store.rest.InCategory orgID slug raw) ∧
          normalizePolicyDomain env.toPrimitives raw = domain := by
    intro domain
    subst isRow
    simp only [UrlTester.Tables.mem_resolvePolicyDomains, List.mem_append, List.mem_flatMap,
      UrlTester.Tables.mem_categoryDomainsBySlug]
    apply and_congr_right
    intro _
    constructor
    · rintro ⟨raw, listed | ⟨slug, mem, isRead, inCategory⟩, isDomain⟩
      · exact ⟨raw, .inl listed, isDomain⟩
      · exact ⟨raw, .inr ⟨slug, mem, (read slug mem).1 isRead, inCategory⟩, isDomain⟩
    · rintro ⟨raw, listed | ⟨slug, mem, isSlug, inCategory⟩, isDomain⟩
      · exact ⟨raw, .inl listed, isDomain⟩
      · exact ⟨raw, .inr ⟨slug, mem, (read slug mem).2 isSlug, inCategory⟩, isDomain⟩
  subst isRow
  rw [passed_eq_nil_iff]
  · constructor
    · rintro dropped - - action' isAction' targets raw isCovered
      cases isAction.symm.trans isAction'
      by_cases empty : normalizePolicyDomain env.toPrimitives raw = []
      · exact .inl empty
      · right
        apply dropped ⟨_, normalizePolicyDomain env.toPrimitives raw, _, _, _, _⟩
        apply mem_rulesOf.2
        exact ⟨targets, _, (covered _).2 ⟨empty, raw, isCovered, rfl⟩, rfl⟩
    · intro quiet rule mem
      obtain ⟨targets, domain, isResolved, rfl⟩ := mem_rulesOf.1 mem
      obtain ⟨nonempty, raw, isCovered, rfl⟩ := (covered domain).1 isResolved
      rcases quiet rfl known action isAction targets raw isCovered with empty | granted
      · exact absurd empty nonempty
      · exact granted
  · intro rule mem
    obtain ⟨-, domain, -, rfl⟩ := mem_rulesOf.1 mem
    rfl

theorem quiet_congr (same : after.rest = store.rest) :
    after.Quiet env orgID employeeID ofOrg new ↔ store.Quiet env orgID employeeID ofOrg new := by
  simp only [Store.Quiet, Store.Granted, same]

/-- An insertion takes nothing from the list of a device, and adds nothing for a quiet policy alone. -/
theorem insert_spec (env : Primitives) (orgID : UUID) (employeeID : Option UUID)
    (inserted : store.insert ofOrg new draw = some (row, after)) :
    (store.rules env orgID employeeID).Sublist (after.rules env orgID employeeID) ∧
      (after.rules env orgID employeeID = store.rules env orgID employeeID ↔
        store.Quiet env orgID employeeID ofOrg new) := by
  obtain ⟨isRow, isOrg, enabled, -, front, back, -, rowsAfter⟩ := row_of_insert inserted
  obtain ⟨earlier, later, isBefore, isAfter⟩ := rules_insert env orgID employeeID inserted
  rw [isBefore, isAfter]
  constructor
  · rw [List.append_assoc]
    exact (List.Sublist.refl earlier).append (List.sublist_append_right _ later)
  · by_cases own : ofOrg = orgID
    · subst own
      rw [if_pos rfl, List.append_left_inj]
      have read : ∀ slug ∈ row.toStored.categories,
          slug ∈ Database.allSlugs (after.database.activePolicies ofOrg) ↔ slug ≠ "" := by
        intro slug mem
        apply mem_slugs_of_mem_policy _ mem
        apply List.mem_filter.2
        refine ⟨List.mem_map_of_mem (by simp [rowsAfter]), ?_⟩
        simp [PolicyRow.toStored, enabled, isOrg]
      rw [← passed_rulesOf_eq_nil_iff isRow read]
      simp
    · simp [own, Store.Quiet]

theorem quiet_of_not_inserted (refused : store.insert ofOrg new draw = none) :
    store.Quiet env orgID employeeID ofOrg new := by
  intro _ known action isAction
  rw [Store.insert, Option.map_eq_none_iff, NewPolicy.row, if_pos known, isAction] at refused
  cases refused

theorem eq_iff_of_sublists {first second third : List DomainRule} (earlier : first.Sublist second)
    (later : second.Sublist third) : third = first ↔ second = first ∧ third = second := by
  constructor
  · rintro rfl
    have same := later.antisymm earlier
    exact ⟨same, same.symm⟩
  · rintro ⟨rfl, rfl⟩
    rfl

theorem insertAll_spec (env : Primitives) (orgID : UUID) (employeeID : Option UUID) (ofOrg : UUID)
    (news : List NewPolicy) (draw : ℕ → Draw) (store : Store) :
    (store.insertAll ofOrg news draw).2.rest = store.rest ∧
      (store.rules env orgID employeeID).Sublist
        ((store.insertAll ofOrg news draw).2.rules env orgID employeeID) ∧
      ((store.insertAll ofOrg news draw).2.rules env orgID employeeID =
          store.rules env orgID employeeID ↔
        ∀ new ∈ news, store.Quiet env orgID employeeID ofOrg new) := by
  induction news generalizing draw store with
  | nil => exact ⟨rfl, .refl _, by simp [Store.insertAll]⟩
  | cons new rest ih =>
    rw [Store.insertAll, List.forall_mem_cons]
    cases inserted : store.insert ofOrg new (draw 0) with
    | none =>
      obtain ⟨sameRest, grows, same_iff⟩ := ih (fun index => draw (index + 1)) store
      exact ⟨sameRest, grows, by simp [same_iff, quiet_of_not_inserted inserted]⟩
    | some pair =>
      obtain ⟨row, middle⟩ := pair
      obtain ⟨-, -, -, middleRest, -⟩ := row_of_insert inserted
      obtain ⟨sameRest, grows, same_iff⟩ := ih (fun index => draw (index + 1)) middle
      obtain ⟨first, first_iff⟩ := insert_spec env orgID employeeID inserted
      refine ⟨sameRest.trans middleRest, first.trans grows, ?_⟩
      rw [eq_iff_of_sublists first grows, first_iff, same_iff]
      simp only [quiet_congr middleRest]

theorem insertAll_singleton (store : Store) (ofOrg : UUID) (new : NewPolicy) (draw : ℕ → Draw) :
    (store.insertAll ofOrg [new] draw).2 =
      ((store.insert ofOrg new (draw 0)).map (·.2)).getD store := by
  rw [Store.insertAll]
  cases store.insert ofOrg new (draw 0) <;> rfl

theorem exists_insertAll (bindingError : String) (ofOrg : UUID) (call : Call) (store : Store) :
    ∃ draw, (call.handle bindingError ofOrg store).2 =
      (store.insertAll ofOrg (call.policies ofOrg store) draw).2 := by
  cases call with
  | createDisabled request draw =>
    refine ⟨fun _ => draw, ?_⟩
    simp only [Call.handle, Store.create, Call.policies]
    by_cases noName : request.name = ""
    · simp [noName, Store.insertAll]
    · rw [if_neg noName]
      have sameError : ({ request with enabled := some false } : PolicyRequest).error = request.error :=
        rfl
      rw [sameError]
      cases error : request.error with
      | some error => simp [Store.insertAll]
      | none =>
        rw [if_neg (by simp [noName]), insertAll_singleton]
        have sameNew : ({ request with enabled := some false } : PolicyRequest).created =
            { request.created with enabled := false } := rfl
        rw [← sameNew]
        cases store.insert ofOrg ({ request with enabled := some false } : PolicyRequest).created draw
          <;> rfl
  | duplicate id draw =>
    refine ⟨fun _ => draw, ?_⟩
    simp only [Call.handle, Store.duplicate, Call.policies]
    cases store.find ofOrg id with
    | none => rfl
    | some original =>
      simp only [Option.map_some, Option.toList_some, insertAll_singleton]
      cases store.insert ofOrg original.copy draw <;> rfl
  | importPolicies requests draw =>
    refine ⟨draw, ?_⟩
    simp only [Call.handle, Store.importPolicies, Store.importRows, Call.policies]
    split_ifs <;> rfl

theorem handle_spec (env : Primitives) (orgID : UUID) (employeeID : Option UUID)
    (bindingError : String) (store : Store) (entry : UUID × Call) :
    (store.rules env orgID employeeID).Sublist
        ((entry.2.handle bindingError entry.1 store).2.rules env orgID employeeID) ∧
      ((entry.2.handle bindingError entry.1 store).2.rules env orgID employeeID =
          store.rules env orgID employeeID ↔
        Careful env orgID employeeID store entry) := by
  obtain ⟨draw, isInsert⟩ := exists_insertAll bindingError entry.1 entry.2 store
  rw [isInsert]
  exact (insertAll_spec env orgID employeeID entry.1 (entry.2.policies entry.1 store) draw store).2

def run (bindingError : String) (store : Store) (trace : List (UUID × Call)) : Store :=
  trace.foldl (fun store entry => (entry.2.handle bindingError entry.1 store).2) store

theorem run_spec (env : Primitives) (orgID : UUID) (employeeID : Option UUID)
    (bindingError : String) (store : Store) (trace : List (UUID × Call)) :
    (store.rules env orgID employeeID).Sublist
        ((run bindingError store trace).rules env orgID employeeID) ∧
      ((run bindingError store trace).rules env orgID employeeID =
          store.rules env orgID employeeID ↔
        AllSteps (step bindingError) (Careful env orgID employeeID) store trace) := by
  induction trace generalizing store with
  | nil => exact ⟨.refl _, by simp [run]⟩
  | cons entry rest ih =>
    obtain ⟨grows, same_iff⟩ := handle_spec env orgID employeeID bindingError store entry
    obtain ⟨growsLater, later_iff⟩ := ih (entry.2.handle bindingError entry.1 store).2
    refine ⟨grows.trans growsLater, ?_⟩
    rw [allSteps_cons rfl, ← same_iff, ← later_iff]
    exact eq_iff_of_sublists grows growsLater

/-- The row is the original but for its identity, and disabled. -/
structure IsDisabledCopy (original row : PolicyRow) : Prop where
  disabled : row.enabled = false
  name : row.name = original.name
  type : row.type = original.type
  action : row.action = original.action
  priority : row.priority = original.priority
  rules : row.rules = original.rules
  targets : row.targets = original.targets

theorem enabled_insertAll (ofOrg : UUID) (news : List NewPolicy) (draw : ℕ → Draw) (store : Store) :
    ∀ row ∈ (store.insertAll ofOrg news draw).1, row.enabled = true := by
  induction news generalizing draw store with
  | nil => simp [Store.insertAll]
  | cons new rest ih =>
    rw [Store.insertAll]
    cases inserted : store.insert ofOrg new (draw 0) with
    | none => exact ih _ store
    | some pair =>
      obtain ⟨-, -, enabled, -⟩ := row_of_insert inserted
      rw [List.forall_mem_cons]
      exact ⟨enabled, ih _ pair.2⟩

theorem copies_iff (ofOrg : UUID) (originals : List PolicyRow) (draw : ℕ → Draw) (store : Store) :
    List.Forall₂ IsDisabledCopy originals
        (store.importRows ofOrg (originals.map PolicyRow.exported) draw).1 ↔ originals = [] := by
  constructor
  · intro copies
    have allEnabled : ∀ row ∈ (store.importRows ofOrg (originals.map PolicyRow.exported) draw).1,
        row.enabled = true := by
      rw [Store.importRows]
      split_ifs
      · simp
      · apply enabled_insertAll
    generalize (store.importRows ofOrg (originals.map PolicyRow.exported) draw).1 = created at *
    cases copies with
    | nil => rfl
    | cons isCopy others =>
      have enabled := allEnabled _ List.mem_cons_self
      rw [isCopy.disabled] at enabled
      cases enabled
  · rintro rfl
    simp [Store.importRows, Store.insertAll]

/-- A run leaves the list of a device as it is exactly if none of its policies, which are enabled all
the same, is for the device; and an import makes disabled copies exactly if there is nothing in it. -/
theorem disabled_iff (env : Primitives) (bindingError : String) (store : Store)
    (trace : List (UUID × Call)) :
    (∀ orgID employeeID, (run bindingError store trace).rules env orgID employeeID =
          store.rules env orgID employeeID ↔
        AllSteps (step bindingError) (Careful env orgID employeeID) store trace) ∧
      ∀ ofOrg originals draw, List.Forall₂ IsDisabledCopy originals
        (store.importRows ofOrg (originals.map PolicyRow.exported) draw).1 ↔ originals = [] := by
  constructor
  · intro orgID employeeID
    exact (run_spec env orgID employeeID bindingError store trace).2
  · intro ofOrg originals draw
    exact copies_iff ofOrg originals draw store

def emptyStore : Store where
  rows := []
  rest := .empty
  sorted := .nil

def draftRequest : PolicyRequest where
  name := "Draft"
  description := ""
  type := "domain"
  policyType := ""
  action := "block"
  priority := 5
  enabled := some false
  rules := some [("domains".toList, .array [.string "example.com".toList])]
  targets := none

/-- A policy that is created with `enabled` false blocks at once, and a disabled policy is imported
enabled. -/
theorem not_disabled_draft :
    (run "" emptyStore [(⟨1⟩, .createDisabled draftRequest ⟨⟨7⟩, 0⟩)]).rules Primitives.ascii ⟨1⟩ none ≠
        emptyStore.rules Primitives.ascii ⟨1⟩ none ∧
      let original : PolicyRow := ⟨⟨7⟩, ⟨1⟩, "Draft", "", "domain", .block, 5, false, none, none⟩
      ¬List.Forall₂ IsDisabledCopy [original]
        (emptyStore.importRows ⟨1⟩ [original.exported] fun _ => ⟨⟨8⟩, 0⟩).1 := by
  constructor
  · decide +kernel
  · intro original copies
    cases copies with
    | cons isCopy others => cases isCopy.disabled

end Aavishield.SavedPolicies
