import Aavishield.Inventory.Snapshots
import Aavishield.Policy.AppControl

/-!
# The switches of the inventory

`SetControl` sets the switches of one row of the inventory.  They are kept in a rule of the
employee, or of the company, for the catalogue entry of the row, which is looked for by a slug
of the name when the row has none.
-/

namespace Aavishield.Inventory

open AppControl (AppControlRule appRuleCovers)
open DomainRules (Targets)
open Text

structure CatalogEntry extends ManagedApplication where
  orgID : Option UUID
  slug : List Char
  vendor : List Char
  description : List Char
  source : String

/-- An installed program of a device. -/
structure InstalledRow extends InstalledApplication where
  id : UUID
  orgID : UUID
  deviceID : UUID

abbrev RuleKey : Type := UUID × UUID × Option UUID

def ruleKey (rule : AppControlRule) : RuleKey := (rule.orgID, rule.applicationID, rule.employeeID)

/-- The tables of applications and their rules. -/
structure Store where
  apps : List CatalogEntry
  installed : List InstalledRow
  rules : List AppControlRule
  teamOf : UUID → Option UUID
  /-- `idx_app_rule_org_app_emp_live`; no employee has the zero id. -/
  ruleIndex : (rules.map ruleKey).Nodup

/-- Network Block and App Block. -/
@[ext]
structure Switches where
  network : Bool
  process : Bool
  deriving DecidableEq

def Switches.off : Switches := ⟨false, false⟩

def Switches.on : Switches := ⟨true, true⟩

def Switches.or (first second : Switches) : Switches :=
  ⟨first.network || second.network, first.process || second.process⟩

def switches (rule : AppControlRule) : Switches := ⟨rule.blockNetwork, rule.blockProcess⟩

def decisionOf (rules : List AppControlRule) (teamOf : UUID → Option UUID) (orgID appID : UUID)
    (employeeID : Option UUID) : Switches :=
  let covering := rules.filter fun rule => rule.orgID = orgID ∧ rule.enabled = true ∧
    rule.applicationID = appID ∧ appRuleCovers rule employeeID (employeeID.bind teamOf) = true
  ⟨covering.any (·.blockNetwork), covering.any (·.blockProcess)⟩

def Store.decision (store : Store) (orgID appID : UUID) (employeeID : Option UUID) : Switches :=
  decisionOf store.rules store.teamOf orgID appID employeeID

/-- The switches that `decorate` shows on a row. -/
def Store.decorate (store : Store) (orgID : UUID) (row : InstalledRow) : Switches :=
  match row.applicationID with
  | none => .off
  | some appID => store.decision orgID appID row.employeeID

section Catalogue

variable (env : Primitives)

def slugifyApp (name : List Char) : List Char :=
  let slug := (env.toLower (trimSpace name)).foldl
    (fun (state : List Char × Bool) letter =>
      if ('a' ≤ letter ∧ letter ≤ 'z') ∨ ('0' ≤ letter ∧ letter ≤ '9') then
        (state.1 ++ [letter], false)
      else if state.2 = false ∧ state.1 ≠ [] then (state.1 ++ ['-'], true)
      else state) ([], false)
  ((slug.1.dropWhile (· = '-')).reverse.dropWhile (· = '-')).reverse

def executableName (installPath : List Char) : List Char :=
  let path := ((trimSpace installPath).reverse.dropWhile fun letter => letter ∈ ['/', '\\']).reverse
  if path = [] ∨ ".app".toList.isSuffixOf (env.toLower path) then []
  else env.toLower ((path.reverse.takeWhile fun letter => letter ∉ ['/', '\\']).reverse)

def isBundleIdentifier (identifier : List Char) : Bool :=
  let id := trimSpace identifier
  2 ≤ id.count '.' && (id.all fun letter => letter ∉ ['/', '\\', ' ']) && id.head? ≠ some '{'

def newEntry (orgID draw : UUID) (row : InstalledRow) : CatalogEntry where
  id := draw
  orgID := some orgID
  name := row.name
  slug := slugifyApp env row.name
  vendor := row.vendor
  category := row.category
  riskLevel := if row.riskLevel = 0 then 50 else row.riskLevel
  description := "Added automatically from ".toList ++ row.name ++ " seen on an employee device".toList
  source := "inventory"
  processNames := if executableName env row.installPath = [] then []
    else [executableName env row.installPath]
  bundleIDs := if isBundleIdentifier row.identifier then [row.identifier] else []
  pathPatterns := if row.installPath = [] then [] else [env.toLower row.installPath]

def Store.link (rowID appID : UUID) (store : Store) : Store :=
  { store with
    installed := store.installed.map fun row =>
      if row.id = rowID then { row with applicationID := some appID } else row }

def Store.bySlug (orgID : UUID) (row : InstalledRow) (store : Store) : Option CatalogEntry :=
  store.apps.find? fun app => app.orgID = some orgID ∧ app.slug = slugifyApp env row.name

def Store.ensureCatalogEntry (orgID : UUID) (row : InstalledRow) (draw : UUID) (store : Store) :
    UUID × Store :=
  match row.applicationID with
  | some appID => (appID, store)
  | none =>
    match store.bySlug env orgID row with
    | some existing => (existing.id, store.link row.id existing.id)
    | none =>
      (draw, { store with apps := store.apps ++ [newEntry env orgID draw row] }.link row.id draw)

end Catalogue

/-- The switches that are to be set, and for whom. -/
structure ControlRequest where
  blockNetwork : Option Bool
  blockProcess : Option Bool
  allEmployees : Bool

/-- The switches after the request, or why there are none. -/
inductive ControlResponse where
  | controlled (switches : Switches)
  | refused (status : ℕ) (error : String)

def ControlRequest.apply (request : ControlRequest) (old : Switches) : Switches :=
  ⟨request.blockNetwork.getD old.network, request.blockProcess.getD old.process⟩

def ControlRequest.back (request : ControlRequest) (shown : Switches) : ControlRequest where
  blockNetwork := request.blockNetwork.map fun _ => shown.network
  blockProcess := request.blockProcess.map fun _ => shown.process
  allEmployees := request.allEmployees

def controlTargets : Option UUID → Targets
  | none => ⟨"all", [], []⟩
  | some employeeID => ⟨"employee", [employeeID.text], []⟩

/-- What `Updates` writes into a rule. -/
def updated (request : ControlRequest) (rule : AppControlRule) : AppControlRule :=
  { rule with
    targets := controlTargets rule.employeeID
    enabled := true
    blockNetwork := (request.apply (switches rule)).network
    blockProcess := (request.apply (switches rule)).process }

def created (request : ControlRequest) (key : RuleKey) : AppControlRule where
  orgID := key.1
  applicationID := key.2.1
  employeeID := key.2.2
  action := .block
  enabled := true
  blockNetwork := (request.apply .off).network
  blockProcess := (request.apply .off).process
  targets := controlTargets key.2.2

namespace Store

variable (store : Store)

def updateRule (key : RuleKey) (request : ControlRequest) : Store :=
  { store with
    rules := store.rules.map fun rule => if ruleKey rule = key then updated request rule else rule
    ruleIndex := by
      have sameKeys : ruleKey ∘ (fun rule => if ruleKey rule = key then updated request rule else rule) =
          ruleKey := by
        funext rule
        simp only [Function.comp_apply]
        split_ifs <;> rfl
      rw [List.map_map, sameKeys]
      exact store.ruleIndex }

def insertRule (rule : AppControlRule) : Option Store :=
  if absent : ruleKey rule ∉ store.rules.map ruleKey then
    some { store with
      rules := rule :: store.rules
      ruleIndex := List.nodup_cons.2 ⟨absent, store.ruleIndex⟩ }
  else none

def deleteRule (key : RuleKey) : Store :=
  { store with
    rules := store.rules.filter fun rule => ruleKey rule ≠ key
    ruleIndex := store.ruleIndex.sublist (List.filter_sublist.map _) }

def findRule (key : RuleKey) : Option AppControlRule := store.rules.find? fun rule => ruleKey rule = key

def saveRule (key : RuleKey) (request : ControlRequest) : ControlResponse × Store :=
  let saved := match store.findRule key with
    | some rule => some (updated request rule, store.updateRule key request)
    | none => (store.insertRule (created request key)).map fun store => (created request key, store)
  match saved with
  | none => (.refused 500 "Could not save the control", store)
  | some (rule, store) =>
    if switches rule = .off then (.controlled .off, store.deleteRule key)
    else (.controlled (switches rule), store)

def row (orgID rowID : UUID) : Option InstalledRow :=
  store.installed.find? fun row => row.id = rowID ∧ row.orgID = orgID

def ruleEmployee (row : InstalledRow) (allEmployees : Bool) : Option UUID :=
  if allEmployees then none else row.employeeID

/-- The rule for the row's program is saved, for its employee or for all. -/
def setControl (env : Primitives) (orgID rowID draw : UUID) (request : ControlRequest) :
    ControlResponse × Store :=
  match store.row orgID rowID with
  | none => (.refused 404 "Application not found", store)
  | some row =>
    let (appID, store) := store.ensureCatalogEntry env orgID row draw
    store.saveRule (orgID, appID, ruleEmployee row request.allEmployees) request

section Statement

variable (env : Primitives) (orgID draw : UUID) (row : InstalledRow) (allEmployees : Bool)

def entryOf : UUID := (store.ensureCatalogEntry env orgID row draw).1

/-- The entry is the application of the row: it is linked or made, or its links are those that
`match` makes. -/
def IsRowApp (appID : UUID) : Prop :=
  row.applicationID = some appID ∨ row.applicationID = none ∧ (appID = draw ∨
    ∃ app ∈ store.apps, app.id = appID ∧
      (catalogMatch env [app.toManagedApplication] row.name row.identifier row.installPath).appID =
        some appID)

/-- The employees that a request is made for. -/
def Asked (employeeID : Option UUID) : Prop := allEmployees = true ∨ employeeID = row.employeeID

def InScope (appID : UUID) (employeeID : Option UUID) : Prop :=
  store.IsRowApp env draw row appID ∧ Asked row allEmployees employeeID

def keyOf : RuleKey := (orgID, store.entryOf env orgID draw row, ruleEmployee row allEmployees)

/-- Switches that are set on are on for everybody asked for, nothing out of the scope changes, and
setting the switches back to what the row has shown restores every decision. -/
structure Works (rowID : UUID) (request : ControlRequest) (after : Store) : Prop where
  network : request.blockNetwork = some true → ∀ employeeID, Asked row request.allEmployees employeeID →
    (after.decision orgID (store.entryOf env orgID draw row) employeeID).network = true
  process : request.blockProcess = some true → ∀ employeeID, Asked row request.allEmployees employeeID →
    (after.decision orgID (store.entryOf env orgID draw row) employeeID).process = true
  frame : ∀ appID employeeID,
    ¬store.InScope env draw row request.allEmployees appID employeeID →
      after.decision orgID appID employeeID = store.decision orgID appID employeeID
  restores : ∀ appID employeeID,
    (after.setControl env orgID rowID draw (request.back (store.decorate orgID row))).2.decision
      orgID appID employeeID = store.decision orgID appID employeeID

def kept (key : RuleKey) : Switches := (store.findRule key).elim .off switches

def others (key : RuleKey) (employeeID : Option UUID) : Switches :=
  decisionOf (store.rules.filter fun rule => ruleKey rule ≠ key) store.teamOf key.1 key.2.1 employeeID

def Reaches (key : RuleKey) (employeeID : Option UUID) : Prop := key.2.2 = none ∨ employeeID = key.2.2

/-- Whoever the rule reaches out of the scope is blocked by other rules anyway; and for whomever it
reaches, what it has on is in effect, and just that is what the row shows. -/
structure Careful : Prop where
  contained : ∀ employeeID, Reaches (store.keyOf env orgID draw row allEmployees) employeeID →
    ¬store.InScope env draw row allEmployees (store.entryOf env orgID draw row) employeeID →
      store.others (store.keyOf env orgID draw row allEmployees) employeeID = .on
  steady : ∀ employeeID, Reaches (store.keyOf env orgID draw row allEmployees) employeeID →
    store.decision orgID (store.entryOf env orgID draw row) employeeID =
        (store.kept (store.keyOf env orgID draw row allEmployees)).or
          (store.others (store.keyOf env orgID draw row allEmployees) employeeID) ∧
      store.decision orgID (store.entryOf env orgID draw row) employeeID =
        (store.decorate orgID row).or
          (store.others (store.keyOf env orgID draw row allEmployees) employeeID)

end Statement

end Store

variable {rules : List AppControlRule} {teamOf : UUID → Option UUID} {orgID appID draw rowID : UUID}
  {employeeID : Option UUID} {key : RuleKey} {request : ControlRequest} {store : Store}

@[simp]
theorem Switches.or_on (switches : Switches) : switches.or .on = .on := by
  simp [Switches.or, Switches.on]

def effective (teamOf : UUID → Option UUID) (employeeID : Option UUID) (rule : AppControlRule) :
    Switches :=
  if rule.enabled = true ∧ appRuleCovers rule employeeID (employeeID.bind teamOf) = true then
    switches rule
  else .off

theorem decisionOf_perm {other : List AppControlRule} (perm : rules.Perm other) :
    decisionOf rules teamOf orgID appID employeeID = decisionOf other teamOf orgID appID employeeID := by
  simp only [decisionOf, Switches.mk.injEq]
  exact ⟨(perm.filter _).any_eq, (perm.filter _).any_eq⟩

theorem decisionOf_append {other : List AppControlRule} :
    decisionOf (rules ++ other) teamOf orgID appID employeeID =
      (decisionOf rules teamOf orgID appID employeeID).or
        (decisionOf other teamOf orgID appID employeeID) := by
  simp [decisionOf, Switches.or]

variable {rule : AppControlRule}

theorem decisionOf_singleton :
    decisionOf [rule] teamOf orgID appID employeeID =
      if rule.orgID = orgID ∧ rule.applicationID = appID then effective teamOf employeeID rule
      else .off := by
  by_cases named : rule.orgID = orgID ∧ rule.applicationID = appID
  · by_cases counts : rule.enabled = true ∧
        appRuleCovers rule employeeID (employeeID.bind teamOf) = true
    · simp [decisionOf, effective, named, counts, switches]
    · have dropped : ¬(rule.orgID = orgID ∧ rule.enabled = true ∧ rule.applicationID = appID ∧
          appRuleCovers rule employeeID (employeeID.bind teamOf) = true) :=
        fun ⟨_, enabled, _, covers⟩ => counts ⟨enabled, covers⟩
      simp only [decisionOf, effective, List.filter_cons, List.filter_nil, dropped, if_pos named,
        if_neg counts, decide_false]
      rfl
  · have dropped : ¬(rule.orgID = orgID ∧ rule.enabled = true ∧ rule.applicationID = appID ∧
        appRuleCovers rule employeeID (employeeID.bind teamOf) = true) :=
      fun ⟨isOrg, _, isApp, _⟩ => named ⟨isOrg, isApp⟩
    simp only [decisionOf, List.filter_cons, List.filter_nil, dropped, if_neg named, decide_false]
    rfl

theorem filter_ruleKey (unique : (rules.map ruleKey).Nodup) :
    (rules.filter fun rule => ruleKey rule = key) =
      (rules.find? fun rule => ruleKey rule = key).toList := by
  induction rules with
  | nil => rfl
  | cons rule rest ih =>
    rw [List.map_cons, List.nodup_cons] at unique
    by_cases isKey : ruleKey rule = key
    · have noOther : (rest.filter fun rule => ruleKey rule = key) = [] := by
        apply List.filter_eq_nil_iff.2
        intro other mem same
        exact unique.1 (List.mem_map.2 ⟨other, mem, (of_decide_eq_true same).trans isKey.symm⟩)
      simp [isKey, noOther]
    · simpa [isKey] using ih unique.2

theorem key_findRule (found : store.findRule key = some rule) :
    ruleKey rule = key := by
  simpa using List.find?_some found

theorem decision_eq (store : Store) (key : RuleKey) (employeeID : Option UUID) :
    store.decision key.1 key.2.1 employeeID =
      ((store.findRule key).elim .off (effective store.teamOf employeeID)).or
        (store.others key employeeID) := by
  have split : (store.rules.filter (fun rule => ruleKey rule = key) ++
      store.rules.filter fun rule => !decide (ruleKey rule = key)).Perm store.rules :=
    List.filter_append_perm _ _
  rw [Store.decision, ← decisionOf_perm split, decisionOf_append, filter_ruleKey store.ruleIndex]
  have sameOthers : (store.rules.filter fun rule => !decide (ruleKey rule = key)) =
      store.rules.filter fun rule => ruleKey rule ≠ key := by
    simp
  rw [sameOthers, Store.others, Store.findRule]
  cases found : store.rules.find? fun rule => ruleKey rule = key with
  | none => rfl
  | some rule =>
    have isKey := key_findRule found
    rw [Option.toList_some, decisionOf_singleton, if_pos ⟨congrArg (·.1) isKey, congrArg (·.2.1) isKey⟩]
    rfl

theorem decision_congr {after : Store} (sameTeams : after.teamOf = store.teamOf)
    (sameOthers : (after.rules.filter fun rule => ruleKey rule ≠ key) =
      store.rules.filter fun rule => ruleKey rule ≠ key)
    (otherApp : (orgID, appID) ≠ (key.1, key.2.1)) :
    after.decision orgID appID employeeID = store.decision orgID appID employeeID := by
  have among : ∀ rules : List AppControlRule, decisionOf rules store.teamOf orgID appID employeeID =
      decisionOf (rules.filter fun rule => ruleKey rule ≠ key) store.teamOf orgID appID employeeID := by
    intro rules
    have sameRules : (rules.filter fun rule => rule.orgID = orgID ∧ rule.enabled = true ∧
        rule.applicationID = appID ∧
          appRuleCovers rule employeeID (employeeID.bind store.teamOf) = true) =
        (rules.filter fun rule => ruleKey rule ≠ key).filter fun rule => rule.orgID = orgID ∧
          rule.enabled = true ∧ rule.applicationID = appID ∧
            appRuleCovers rule employeeID (employeeID.bind store.teamOf) = true := by
      rw [List.filter_filter]
      apply List.filter_congr
      intro rule _
      by_cases isKey : ruleKey rule = key
      · have notApp : ¬(rule.orgID = orgID ∧ rule.applicationID = appID) := by
          rintro ⟨rfl, rfl⟩
          apply otherApp
          rw [← isKey]
          rfl
        simp only [isKey, ne_eq, not_true_eq_false, decide_false, Bool.and_false, decide_eq_false_iff_not]
        rintro ⟨isOrg, -, isApp, -⟩
        exact notApp ⟨isOrg, isApp⟩
      · simp [isKey]
    simp only [decisionOf, ← sameRules]
  rw [Store.decision, Store.decision, sameTeams, among after.rules, sameOthers, ← among]

theorem covers_of_reaches (isKey : ruleKey rule = key)
    (targets : rule.targets = controlTargets key.2.2) (reaches : Store.Reaches key employeeID)
    (teamID : Option UUID) : appRuleCovers rule employeeID teamID = true := by
  have isOwner : rule.employeeID = key.2.2 := congrArg (·.2.2) isKey
  rw [appRuleCovers, isOwner, targets]
  rcases owner : key.2.2 with _ | owner'
  · rfl
  · rcases reaches with isNone | isEmployee
    · rw [owner] at isNone
      cases isNone
    · simp [isEmployee, owner]

theorem not_covers_of_not_reaches (isKey : ruleKey rule = key)
    (reaches : ¬Store.Reaches key employeeID) (teamID : Option UUID) :
    appRuleCovers rule employeeID teamID = false := by
  have isOwner : rule.employeeID = key.2.2 := congrArg (·.2.2) isKey
  rw [Store.Reaches, not_or] at reaches
  rw [appRuleCovers, isOwner]
  rcases owner : key.2.2 with _ | owner'
  · exact absurd owner reaches.1
  · rw [owner] at reaches
    simpa using reaches.2

structure Saved (store : Store) (key : RuleKey) (saved : Switches) (after : Store) : Prop where
  kept : after.kept key = saved
  inEffect : ∀ employeeID, Store.Reaches key employeeID →
    (after.findRule key).elim .off (effective after.teamOf employeeID) = saved
  others : (after.rules.filter fun rule => ruleKey rule ≠ key) =
    store.rules.filter fun rule => ruleKey rule ≠ key
  teamOf : after.teamOf = store.teamOf
  installed : after.installed = store.installed
  apps : after.apps = store.apps

theorem ruleKey_update (rule : AppControlRule) :
    ruleKey (if ruleKey rule = key then updated request rule else rule) = ruleKey rule := by
  split_ifs <;> rfl

theorem findRule_updateRule (found : store.findRule key = some rule) :
    (store.updateRule key request).findRule key = some (updated request rule) := by
  rw [Store.findRule, Store.updateRule, List.find?_map]
  simp only [Function.comp_def, ruleKey_update]
  rw [Store.findRule] at found
  rw [found, Option.map_some, if_pos (key_findRule found)]

theorem others_updateRule : ((store.updateRule key request).rules.filter fun rule => ruleKey rule ≠ key) =
    store.rules.filter fun rule => ruleKey rule ≠ key := by
  simp only [Store.updateRule, List.filter_map, Function.comp_def, ruleKey_update]
  have unchanged : ∀ rule ∈ store.rules.filter fun rule => decide (ruleKey rule ≠ key),
      (if ruleKey rule = key then updated request rule else rule) = rule := by
    intro rule mem
    exact if_neg (of_decide_eq_true (List.mem_filter.1 mem).2)
  rw [List.map_congr_left unchanged, List.map_id']

theorem findRule_deleteRule : (store.deleteRule key).findRule key = none := by
  rw [Store.findRule, List.find?_eq_none]
  intro rule mem
  simpa using (List.mem_filter.1 mem).2

theorem others_deleteRule : ((store.deleteRule key).rules.filter fun rule => ruleKey rule ≠ key) =
    store.rules.filter fun rule => ruleKey rule ≠ key := by
  simp [Store.deleteRule]

theorem saved_of_written (store written : Store)
    (found : written.findRule key = some rule) (enabled : rule.enabled = true)
    (targets : rule.targets = controlTargets key.2.2)
    (others : (written.rules.filter fun rule => ruleKey rule ≠ key) =
      store.rules.filter fun rule => ruleKey rule ≠ key)
    (teamOf : written.teamOf = store.teamOf) (installed : written.installed = store.installed)
    (apps : written.apps = store.apps) :
    Saved store key (switches rule)
      (if switches rule = .off then written.deleteRule key else written) := by
  split_ifs with isOff
  · refine ⟨?_, fun employeeID _ => ?_, others_deleteRule.trans others, teamOf, installed, apps⟩
    · rw [Store.kept, findRule_deleteRule, isOff]
      rfl
    · rw [findRule_deleteRule, isOff]
      rfl
  · refine ⟨?_, fun employeeID reaches => ?_, others, teamOf, installed, apps⟩
    · rw [Store.kept, found]
      rfl
    · rw [found, Option.elim_some, effective,
        if_pos ⟨enabled, covers_of_reaches (key_findRule found) targets reaches _⟩]

theorem insertRule_of_absent (absent : ruleKey rule ∉ store.rules.map ruleKey) :
    ∃ written, store.insertRule rule = some written ∧ written.rules = rule :: store.rules ∧
      written.installed = store.installed ∧ written.apps = store.apps ∧
        written.teamOf = store.teamOf := by
  rw [Store.insertRule, dif_pos absent]
  exact ⟨_, rfl, rfl, rfl, rfl, rfl⟩

theorem saveRule_saved (store : Store) (key : RuleKey) (request : ControlRequest) :
    Saved store key (request.apply (store.kept key)) (store.saveRule key request).2 := by
  unfold Store.saveRule
  cases found : store.findRule key with
  | some rule =>
    have saved : Saved store key (switches (updated request rule)) _ :=
      saved_of_written store (store.updateRule key request) (findRule_updateRule found) rfl
        (congrArg (fun key : RuleKey => controlTargets key.2.2) (key_findRule found))
        others_updateRule rfl rfl rfl
    simp only [Store.kept, found, Option.elim_some]
    split_ifs with isOff
    · rwa [if_pos isOff] at saved
    · rwa [if_neg isOff] at saved
  | none =>
    have absent : ruleKey (created request key) ∉ store.rules.map ruleKey := by
      intro mem
      obtain ⟨rule, isRule, same⟩ := List.mem_map.1 mem
      exact List.find?_eq_none.1 found rule isRule (decide_eq_true same)
    obtain ⟨written, inserted, rules, installed, apps, teamOf⟩ := insertRule_of_absent absent
    have saved : Saved store key (switches (created request key)) _ :=
      saved_of_written store written
        (by rw [Store.findRule, rules]; exact List.find?_cons_of_pos (decide_eq_true rfl)) rfl rfl
        (by rw [rules]; exact List.filter_cons_of_neg (by simp [ruleKey, created])) teamOf installed apps
    simp only [inserted, Option.map_some, Store.kept, found, Option.elim_none]
    split_ifs with isOff
    · rwa [if_pos isOff] at saved
    · rwa [if_neg isOff] at saved

variable {env : Primitives} {row : InstalledRow} {allEmployees : Bool}

theorem row_link (appID : UUID) (found : store.row orgID rowID = some row) :
    (store.link row.id appID).row orgID rowID = some { row with applicationID := some appID } := by
  have samePick : ∀ other : InstalledRow,
      ((if other.id = row.id then { other with applicationID := some appID } else other).id = rowID ∧
        (if other.id = row.id then { other with applicationID := some appID } else other).orgID = orgID) =
          (other.id = rowID ∧ other.orgID = orgID) := by
    intro other
    split_ifs <;> rfl
  rw [Store.row] at found
  simp only [Store.row, Store.link, List.find?_map, Function.comp_def, samePick, found, Option.map_some,
    if_true]

theorem ensureCatalogEntry_spec (env : Primitives) (draw : UUID)
    (found : store.row orgID rowID = some row) :
    (store.ensureCatalogEntry env orgID row draw).2.rules = store.rules ∧
      (store.ensureCatalogEntry env orgID row draw).2.teamOf = store.teamOf ∧
        (store.ensureCatalogEntry env orgID row draw).2.row orgID rowID =
          some { row with applicationID := some (store.entryOf env orgID draw row) } := by
  unfold Store.entryOf Store.ensureCatalogEntry
  cases linked : row.applicationID with
  | some appID =>
    refine ⟨rfl, rfl, ?_⟩
    rw [found, ← linked]
  | none =>
    cases store.bySlug env orgID row with
    | some existing => exact ⟨rfl, rfl, row_link existing.id found⟩
    | none =>
      refine ⟨rfl, rfl, ?_⟩
      have found' : Store.row { store with
          apps := store.apps ++ [newEntry env orgID draw row] } orgID rowID = some row := found
      exact row_link draw found'

/-- What a request does, as far as decisions go. -/
structure Controlled (store : Store) (orgID rowID : UUID) (row : InstalledRow) (key : RuleKey)
    (saved : Switches) (after : Store) : Prop where
  row : after.row orgID rowID = some { row with applicationID := some key.2.1 }
  kept : after.kept key = saved
  inEffect : ∀ employeeID, Store.Reaches key employeeID →
    (after.findRule key).elim .off (effective after.teamOf employeeID) = saved
  others : (after.rules.filter fun rule => ruleKey rule ≠ key) =
    store.rules.filter fun rule => ruleKey rule ≠ key
  teamOf : after.teamOf = store.teamOf

theorem setControl_controlled (env : Primitives) (draw : UUID) (request : ControlRequest)
    (found : store.row orgID rowID = some row) :
    Controlled store orgID rowID row (store.keyOf env orgID draw row request.allEmployees)
      (request.apply (store.kept (store.keyOf env orgID draw row request.allEmployees)))
        (store.setControl env orgID rowID draw request).2 := by
  obtain ⟨rules, teamOf, isLinked⟩ := ensureCatalogEntry_spec env draw found
  have saved := saveRule_saved (store.ensureCatalogEntry env orgID row draw).2
    (store.keyOf env orgID draw row request.allEmployees) request
  have sameKept : (store.ensureCatalogEntry env orgID row draw).2.kept
      (store.keyOf env orgID draw row request.allEmployees) =
        store.kept (store.keyOf env orgID draw row request.allEmployees) := by
    simp only [Store.kept, Store.findRule, rules]
  rw [sameKept] at saved
  have sameAfter : (store.setControl env orgID rowID draw request).2 =
      ((store.ensureCatalogEntry env orgID row draw).2.saveRule
        (store.keyOf env orgID draw row request.allEmployees) request).2 := by
    simp only [Store.setControl, found]
    rfl
  rw [sameAfter]
  refine ⟨?_, saved.kept, saved.inEffect, ?_, saved.teamOf.trans teamOf⟩
  · refine Eq.trans ?_ isLinked
    simp only [Store.row, saved.installed]
  · rw [saved.others, rules]

variable {saved : Switches} {after : Store}

section

variable (controlled : Controlled store orgID rowID row key saved after)

include controlled

theorem Controlled.others_eq
    (employeeID : Option UUID) : after.others key employeeID = store.others key employeeID := by
  simp only [Store.others, controlled.others, controlled.teamOf]

theorem Controlled.decision_of_reaches (reaches : Store.Reaches key employeeID) :
    after.decision key.1 key.2.1 employeeID = saved.or (store.others key employeeID) := by
  rw [decision_eq, controlled.inEffect employeeID reaches, controlled.others_eq]

theorem Controlled.decision_of_not_reaches
    (elsewhere : (orgID, appID) ≠ (key.1, key.2.1) ∨ ¬Store.Reaches key employeeID) :
    after.decision orgID appID employeeID = store.decision orgID appID employeeID := by
  by_cases otherApp : (orgID, appID) ≠ (key.1, key.2.1)
  · exact decision_congr controlled.teamOf controlled.others otherApp
  · have notReached := elsewhere.resolve_left otherApp
    rw [not_not, Prod.mk.injEq] at otherApp
    rw [otherApp.1, otherApp.2, decision_eq, decision_eq, controlled.others_eq]
    have isOff : ∀ store : Store,
        (store.findRule key).elim .off (effective store.teamOf employeeID) = .off := by
      intro store
      cases found : store.findRule key with
      | none => rfl
      | some rule =>
        rw [Option.elim_some, effective,
          not_covers_of_not_reaches (key_findRule found) notReached, if_neg (by simp)]
    rw [isOff, isOff]

end

theorem back_apply (shown kept : Switches) (request : ControlRequest) :
    (request.back shown).apply (request.apply kept) =
      ⟨if request.blockNetwork = none then kept.network else shown.network,
        if request.blockProcess = none then kept.process else shown.process⟩ := by
  rcases request with ⟨network, process, all⟩
  cases network <;> cases process <;> rfl

theorem reaches_of_asked (asked : Store.Asked row allEmployees employeeID) :
    Store.Reaches (store.keyOf env orgID draw row allEmployees) employeeID := by
  cases allEmployees with
  | false =>
    rcases asked with ⟨⟨⟩⟩ | rfl
    exact .inr rfl
  | true => exact .inl rfl

theorem setBack_controlled (env : Primitives) (draw : UUID) (request : ControlRequest)
    (found : store.row orgID rowID = some row) (shown : Switches) :
    Controlled (store.setControl env orgID rowID draw request).2 orgID rowID
      { row with applicationID := some (store.entryOf env orgID draw row) }
      (store.keyOf env orgID draw row request.allEmployees)
      ((request.back shown).apply
        (request.apply (store.kept (store.keyOf env orgID draw row request.allEmployees))))
      (Store.setControl (store.setControl env orgID rowID draw request).2 env orgID rowID draw
        (request.back shown)).2 := by
  have controlled := setControl_controlled env draw request found
  have again := setControl_controlled env draw (request.back shown) controlled.row
  rw [← controlled.kept]
  exact again

/-- For a row of the inventory, requests change what they are about and nothing else, and can be
set back, exactly if the rule that they write reaches nobody else, unless blocked anyway, and what it
has on is in effect and is what the row shows. -/
theorem works_iff (env : Primitives) (orgID rowID draw : UUID) (store : Store) (row : InstalledRow)
    (allEmployees : Bool) (found : store.row orgID rowID = some row) :
    (∀ request : ControlRequest, request.allEmployees = allEmployees →
        store.Works env orgID draw row rowID request
          (store.setControl env orgID rowID draw request).2) ↔
      store.Careful env orgID draw row allEmployees := by
  constructor
  · intro works
    refine ⟨fun employeeID reaches outOfScope => ?_, fun employeeID reaches => ⟨?_, ?_⟩⟩
    · -- setting both switches on or off must not be noticed
      have on := (works ⟨some true, some true, allEmployees⟩ rfl).frame _ employeeID outOfScope
      have off := (works ⟨some false, some false, allEmployees⟩ rfl).frame _ employeeID outOfScope
      have controlledOn := setControl_controlled env draw ⟨some true, some true, allEmployees⟩ found
      have controlledOff :=
        setControl_controlled env draw ⟨some false, some false, allEmployees⟩ found
      have isOn := controlledOn.decision_of_reaches reaches
      have isOff := controlledOff.decision_of_reaches reaches
      rw [← off] at on
      exact isOff.symm.trans (on.symm.trans isOn)
    · have restored := (works ⟨none, none, allEmployees⟩ rfl).restores
        (store.entryOf env orgID draw row) employeeID
      have back := setBack_controlled env draw ⟨none, none, allEmployees⟩ found
        (store.decorate orgID row)
      have decided := back.decision_of_reaches reaches
      rw [(setControl_controlled env draw ⟨none, none, allEmployees⟩ found).others_eq] at decided
      exact restored.symm.trans decided
    · have restored := (works ⟨some true, some true, allEmployees⟩ rfl).restores
        (store.entryOf env orgID draw row) employeeID
      have back := setBack_controlled env draw ⟨some true, some true, allEmployees⟩ found
        (store.decorate orgID row)
      have decided := back.decision_of_reaches reaches
      rw [(setControl_controlled env draw ⟨some true, some true, allEmployees⟩ found).others_eq]
        at decided
      exact restored.symm.trans decided
  · rintro careful request rfl
    have controlled := setControl_controlled env draw request found
    have back := setBack_controlled env draw request found (store.decorate orgID row)
    refine ⟨fun isOn employeeID asked => ?_, fun isOn employeeID asked => ?_,
      fun appID employeeID outOfScope => ?_, fun appID employeeID => ?_⟩
    · have decided := controlled.decision_of_reaches (reaches_of_asked asked)
      refine (congrArg Switches.network decided).trans ?_
      simp [Switches.or, ControlRequest.apply, isOn]
    · have decided := controlled.decision_of_reaches (reaches_of_asked asked)
      refine (congrArg Switches.process decided).trans ?_
      simp [Switches.or, ControlRequest.apply, isOn]
    · by_cases elsewhere : (orgID, appID) ≠ (orgID, store.entryOf env orgID draw row) ∨
          ¬Store.Reaches (store.keyOf env orgID draw row request.allEmployees) employeeID
      · exact controlled.decision_of_not_reaches elsewhere
      · simp only [ne_eq, Prod.mk.injEq, true_and, not_or, not_not] at elsewhere
        obtain ⟨rfl, reaches⟩ := elsewhere
        have others := careful.contained employeeID reaches outOfScope
        refine (controlled.decision_of_reaches reaches).trans ?_
        rw [(careful.steady employeeID reaches).1, others, Switches.or_on, Switches.or_on]
    · by_cases elsewhere : (orgID, appID) ≠ (orgID, store.entryOf env orgID draw row) ∨
          ¬Store.Reaches (store.keyOf env orgID draw row request.allEmployees) employeeID
      · rw [back.decision_of_not_reaches elsewhere, controlled.decision_of_not_reaches elsewhere]
      · simp only [ne_eq, Prod.mk.injEq, true_and, not_or, not_not] at elsewhere
        obtain ⟨rfl, reaches⟩ := elsewhere
        refine (back.decision_of_reaches reaches).trans ?_
        rw [controlled.others_eq, back_apply]
        obtain ⟨isKept, isShown⟩ := careful.steady employeeID reaches
        apply Switches.ext
        · simp only [Switches.or]
          split_ifs
          · exact (congrArg Switches.network isKept).symm
          · exact (congrArg Switches.network isShown).symm
        · simp only [Switches.or]
          split_ifs
          · exact (congrArg Switches.process isKept).symm
          · exact (congrArg Switches.process isShown).symm

def messengerRow (id : UUID) (name : String) (applicationID : Option UUID) : InstalledRow where
  id := id
  orgID := ⟨1⟩
  deviceID := ⟨2⟩
  employeeID := some ⟨3⟩
  identifier := name.toList
  name := name.toList
  version := []
  vendor := []
  installPath := []
  source := []
  applicationID := applicationID
  category := []
  riskLevel := 0
  installedAt := none
  firstSeenAt := 0
  lastSeenAt := 0
  removed := false
  removedAt := none

def twoMessengers : Store where
  apps := [newEntry asciiPrimitives ⟨1⟩ ⟨9⟩ (messengerRow ⟨4⟩ "微信" none)]
  installed := [messengerRow ⟨4⟩ "微信" (some ⟨9⟩), messengerRow ⟨5⟩ "钉钉" none]
  rules := []
  teamOf _ := none
  ruleIndex := List.nodup_nil

theorem works_iff_messenger :
    (∀ request : ControlRequest, request.allEmployees = false →
        twoMessengers.Works asciiPrimitives ⟨1⟩ ⟨8⟩ (messengerRow ⟨4⟩ "微信" (some ⟨9⟩)) ⟨4⟩ request
          (twoMessengers.setControl asciiPrimitives ⟨1⟩ ⟨4⟩ ⟨8⟩ request).2) ↔
      twoMessengers.Careful asciiPrimitives ⟨1⟩ ⟨8⟩ (messengerRow ⟨4⟩ "微信" (some ⟨9⟩)) false := by
  apply works_iff asciiPrimitives ⟨1⟩ ⟨4⟩ ⟨8⟩ twoMessengers (messengerRow ⟨4⟩ "微信" (some ⟨9⟩)) false
  rfl

/-- Blocking the other one blocks the first: both names have the empty slug. -/
theorem not_works_empty_slug :
    ¬twoMessengers.Works asciiPrimitives ⟨1⟩ ⟨8⟩ (messengerRow ⟨5⟩ "钉钉" none) ⟨5⟩
      ⟨none, some true, false⟩
      (twoMessengers.setControl asciiPrimitives ⟨1⟩ ⟨5⟩ ⟨8⟩ ⟨none, some true, false⟩).2 := by
  intro works
  have unchanged := works.frame ⟨9⟩ (some ⟨3⟩) ?_
  · revert unchanged
    decide +kernel
  · rintro ⟨isLinked | ⟨-, isNew | ⟨app, mem, -, isMatch⟩⟩, -⟩
    · cases isLinked
    · cases isNew
    · obtain rfl := List.mem_singleton.1 mem
      revert isMatch
      decide +kernel

end Aavishield.Inventory
