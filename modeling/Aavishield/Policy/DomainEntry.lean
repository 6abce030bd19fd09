import Aavishield.Policy.PolicyCache

/-!
# Domains that administrators enter

A domain is blocked by naming it in a policy or by a rule of its own.  Both texts go
through the hands of the API before the agent compares them with the hosts that its
clients name.
-/

namespace Aavishield.DomainRules

open Labels Text

variable (env : Primitives)

structure Targets where
  scope : String
  employeeIDs : List String
  teamIDs : List String

structure Policy where
  orgID : UUID
  name : String
  type : String
  action : PolicyAction
  domains : List (List Char)
  categories : List String
  targets : Targets

def idListContains (ids : List String) (id : Option UUID) : Bool :=
  id.any fun id => ids.contains id.text

def policyTargetMatches (targets : Targets) (employeeID teamID : Option UUID) : Bool :=
  if targets.scope = "" then
    -- a list that names people or teams means only them
    (targets.employeeIDs = [] ∧ targets.teamIDs = []) ||
      idListContains targets.employeeIDs employeeID || idListContains targets.teamIDs teamID
  else if targets.scope = "team" then idListContains targets.teamIDs teamID
  else if targets.scope = "employee" then idListContains targets.employeeIDs employeeID
  else true

def resolvePolicyDomains (policy : Policy) (domainsBySlug : String → List (List Char)) :
    List (List Char) :=
  let domains := policy.domains ++ policy.categories.flatMap domainsBySlug
  domains.foldl
    (fun seen domain =>
      let domain := normalizePolicyDomain env domain
      if domain = [] ∨ domain ∈ seen then seen else seen ++ [domain]) []

def expandPoliciesToDomainRules (policies : List Policy) (domainsBySlug : String → List (List Char))
    (employeeID teamID : Option UUID) : List DomainRule :=
  (policies.filter fun policy => policyTargetMatches policy.targets employeeID teamID).flatMap
    fun policy => (resolvePolicyDomains env policy domainsBySlug).map fun domain =>
      { orgID := some policy.orgID, domain := domain, action := policy.action,
        category := policy.type, reason := "Policy: " ++ policy.name, riskScore := 0 }

theorem find?_expandPolicies (policies : List Policy) (domainsBySlug : String → List (List Char))
    (employeeID teamID : Option UUID) (name : List Char) :
    ((expandPoliciesToDomainRules env policies domainsBySlug employeeID teamID).find?
      fun rule => rule.key env = name).map (·.action) =
        (policies.find? fun policy => policyTargetMatches policy.targets employeeID teamID &&
          (resolvePolicyDomains env policy domainsBySlug).any fun domain =>
            env.toLowercase (trimSpace domain) = name).map (·.action) := by
  rw [expandPoliciesToDomainRules]
  induction policies with
  | nil => rfl
  | cons policy rest ih =>
    rw [List.filter_cons, List.find?_cons]
    cases policyTargetMatches policy.targets employeeID teamID with
    | false => simpa using ih
    | true =>
      let picks : List Char → Bool := fun domain =>
        env.toLowercase (trimSpace domain) = name
      have samePicks : ((fun rule : DomainRule => decide (rule.key env = name)) ∘
          fun domain =>
            { orgID := some policy.orgID, domain := domain, action := policy.action,
              category := policy.type, reason := "Policy: " ++ policy.name,
              riskScore := 0 }) = picks := rfl
      rw [if_pos rfl, List.flatMap_cons, List.find?_append, List.find?_map, Bool.true_and,
        ← List.isSome_find?, samePicks]
      cases (resolvePolicyDomains env policy domainsBySlug).find? picks with
      | some domain => rfl
      | none => exact ih

structure DomainRuleRequest where
  domain : List Char
  action : String
  ruleType : String
  category : String
  reason : String
  isGlobal : Bool

def readAction : String → Option PolicyAction
  | "block" => some .block
  | "allow" => some .allow
  | "alert" => some .alert
  | "log" => some .log
  | _ => none

def createDomainRule (orgID : UUID) (superAdmin : Bool) (request : DomainRuleRequest) :
    Option DomainRule :=
  if request.domain = [] then none
  else
    let action := if request.action = "" then request.ruleType else request.action
    let action := if action = "" then "block" else action
    (readAction action).map fun action =>
      { orgID := if request.isGlobal && superAdmin then none else some orgID
        domain := request.domain, action := action, category := request.category
        reason := request.reason, riskScore := 0 }

def hostLetters : List Char := "abcdefghijklmnopqrstuvwxyz0123456789-_.".toList

/-- A host name of two labels or more. -/
structure Host where
  name : List Char
  letters : ∀ letter ∈ name, letter ∈ hostLetters
  labels : [] ∉ name.splitOn '.'
  dotted : '.' ∈ name

/-- A client names the host or a subdomain, in its own case and perhaps with a last dot. -/
def Host.NamedBy (host : Host) (client : List Char) : Prop :=
  Under '.' (trimSuffix ['.'] (client.map Char.toLower)) host.name

structure Writing where
  scheme : Option (List Char)
  credentials : Option (List Char)
  wildcard : Bool
  www : Bool
  dot : Bool
  port : Option (List Char)
  rest : List Char
  schemeLetters : ∀ letter ∈ scheme.getD [], letter ∉ ":/?#@".toList
  credentialLetters : ∀ letter ∈ credentials.getD [], letter ∉ "/?#@".toList
  portDigits : ∀ letter ∈ port.getD [], letter.isDigit
  restStart : ∀ letter ∈ rest.head?, letter ∈ "/?#".toList

/-- The host with the `www.` and the dot around it. -/
def Writing.named (writing : Writing) (host : Host) : List Char :=
  (if writing.www then "www.".toList else []) ++ host.name ++ if writing.dot then ['.'] else []

def Writing.site (writing : Writing) (host : Host) : List Char :=
  writing.named host ++ writing.port.elim [] (':' :: ·)

def Writing.body (writing : Writing) (host : Host) : List Char :=
  writing.credentials.elim [] (· ++ ['@']) ++ (if writing.wildcard then "*.".toList else []) ++
    writing.site host ++ writing.rest

def Writing.text (writing : Writing) (host : Host) : List Char :=
  writing.scheme.elim [] (· ++ "://".toList) ++ writing.body host

/-- Where an administrator enters a domain. -/
inductive Entry where
  | policy (orgID : UUID) (name type : String)
  | rule (orgID : UUID) (superAdmin : Bool) (category reason : String) (isGlobal : Bool)

def Entry.rules (text : List Char) : Entry → List DomainRule
  | .policy orgID name type =>
    expandPoliciesToDomainRules env
      [{ orgID := orgID, name := name, type := type, action := .block, domains := [text],
         categories := [], targets := ⟨"all", [], []⟩ }] (fun _ => []) none none
  | .rule orgID superAdmin category reason isGlobal =>
    (createDomainRule orgID superAdmin
      { domain := text, action := "block", ruleType := "", category := category,
        reason := reason, isGlobal := isGlobal }).toList

/-- Exactly what the host names is blocked. -/
def Enforces (rules : List DomainRule) (host : Host) : Prop :=
  ∀ client, IsAscii client →
    ((((PolicyCache.load env rules).check env client).isSome ↔ host.NamedBy client))

def AlwaysEnforces : Prop :=
  ∀ (entry : Entry) (writing : Writing) (host : Host) (text : List Char),
    lowerTrimmed env text = writing.text host → Enforces env (entry.rules env text) host

variable {env} {rules : List DomainRule} {rule : DomainRule} {client text : List Char}
  {host : Host} {entry : Entry}

theorem plain_of_mem_hostLetters : ∀ letter ∈ hostLetters,
    letter.toLower = letter ∧ letter.toNat < 128 ∧ isSpace letter = false ∧
      letter ∉ ":/?#@]*".toList :=
  forall_mem_of_all (by decide)

theorem Host.map_toLower (host : Host) : host.name.map Char.toLower = host.name := by
  refine (List.map_congr_left fun letter letterMem => ?_).trans (List.map_id' host.name)
  exact (plain_of_mem_hostLetters letter (host.letters letter letterMem)).1

theorem Host.ascii (host : Host) : IsAscii host.name := fun letter letterMem =>
  (plain_of_mem_hostLetters letter (host.letters letter letterMem)).2.1

theorem Host.not_dot_suffix (host : Host) : ¬['.'] <:+ host.name := by
  rintro ⟨front, split⟩
  apply host.labels
  rw [← split, List.splitOn_append_cons_self]
  exact List.mem_append_right _ (by simp)

/-- The rule that the agent finds is kept under what the client named or under its end. -/
theorem key_suffix_of_check (found : (PolicyCache.load env rules).check env client =
    some rule) :
    rule ∈ rules ∧ rule.key env ≠ [] ∧
      rule.key env <:+ env.toLowercase client := by
  rw [check_load, PolicyCache.lookup_eq_findSome?] at found
  rcases List.exists_of_findSome?_eq_some found with ⟨domain, domainMem, matched⟩
  rcases mem_byDomain_load.mp (PolicyCache.mem_byDomain_of_matchDomain matched) with
    ⟨ruleMem, rfl, nonempty⟩
  refine ⟨ruleMem, nonempty, ?_⟩
  have isSuffix : rule.key env <:+ folded env client := by
    rcases under_of_mem_parents domainMem with isSame | isBelow
    · exact isSame ▸ List.suffix_rfl
    · exact (List.suffix_cons _ _).trans isBelow
  exact isSuffix.trans (trimPrefix_suffix _ _)

theorem not_enforces (single : ∀ first ∈ rules, ∀ second ∈ rules, first = second) (host : Host) :
    ¬Enforces env rules host := by
  intro enforces
  have dottedAscii : IsAscii (host.name ++ ['.']) := by
    intro letter letterMem
    rcases List.mem_append.mp letterMem with letterMem | isDot
    · exact host.ascii letter letterMem
    · rw [List.mem_singleton.mp isDot]
      decide
  have named : host.NamedBy host.name := by
    rw [Host.NamedBy, host.map_toLower, trimSuffix_of_not_suffix host.not_dot_suffix]
    exact .refl _
  have dottedNamed : host.NamedBy (host.name ++ ['.']) := by
    rw [Host.NamedBy, List.map_append, host.map_toLower]
    exact .inl (trimSuffix_append _ _)
  rcases Option.isSome_iff_exists.mp ((enforces host.name host.ascii).mpr named) with ⟨first, found⟩
  rcases Option.isSome_iff_exists.mp ((enforces _ dottedAscii).mpr dottedNamed) with
    ⟨second, dottedFound⟩
  rcases key_suffix_of_check found with ⟨firstMem, nonempty, isSuffix⟩
  rcases key_suffix_of_check dottedFound with ⟨secondMem, -, isDottedSuffix⟩
  cases single first firstMem second secondMem
  rw [env.toLowercase_ascii _ host.ascii, host.map_toLower] at isSuffix
  rw [env.toLowercase_ascii _ dottedAscii, List.map_append, host.map_toLower] at isDottedSuffix
  -- the key ends in a dot, and the host does not
  rcases List.suffix_or_suffix_of_suffix isDottedSuffix (List.suffix_append host.name ['.']) with
    isDot | dotEnds
  · rcases List.suffix_cons_iff.mp isDot with isDot | isNil
    · exact host.not_dot_suffix (isDot ▸ isSuffix)
    · exact nonempty (List.suffix_nil.mp isNil)
  · exact host.not_dot_suffix (dotEnds.trans isSuffix)

theorem Entry.rules_policy (orgID : UUID) (name type : String) (text : List Char) :
    (Entry.policy orgID name type).rules env text =
      if normalizePolicyDomain env text = [] then []
      else [{ orgID := some orgID, domain := normalizePolicyDomain env text, action := .block,
              category := type, reason := "Policy: " ++ name, riskScore := 0 }] := by
  have everyone : policyTargetMatches ⟨"all", [], []⟩ none none = true := by decide
  simp only [rules, expandPoliciesToDomainRules, resolvePolicyDomains, List.filter_cons, everyone,
    if_true, List.filter_nil, List.flatMap_cons, List.flatMap_nil, List.append_nil, List.foldl_cons,
    List.foldl_nil, List.not_mem_nil, or_false, List.nil_append]
  split <;> rfl

theorem Entry.rules_single (entry : Entry) (text : List Char) :
    ∀ first ∈ entry.rules env text, ∀ second ∈ entry.rules env text,
      first = second := by
  intro first firstMem second secondMem
  cases entry with
  | policy orgID name type =>
    rw [rules_policy] at firstMem secondMem
    split at firstMem
    · cases firstMem
    · rename_i remains
      rw [if_neg remains] at secondMem
      exact (List.mem_singleton.mp firstMem).trans (List.mem_singleton.mp secondMem).symm
  | rule orgID superAdmin category reason isGlobal =>
    exact Option.some.inj ((Option.mem_toList.mp firstMem).symm.trans
      (Option.mem_toList.mp secondMem))

/-- Whatever is entered, and for whatever host, is not enforced in full. -/
theorem never_enforces (entry : Entry) (text : List Char) (host : Host) :
    ¬Enforces env (entry.rules env text) host :=
  not_enforces (entry.rules_single text) host

def evilHost : Host where
  name := "evil.com".toList
  letters := forall_mem_of_all (by decide)
  labels := by decide
  dotted := by decide

def plainWriting : Writing where
  scheme := none
  credentials := none
  wildcard := false
  www := false
  dot := false
  port := none
  rest := []
  schemeLetters _ letterMem := by cases letterMem
  credentialLetters _ letterMem := by cases letterMem
  portDigits _ letterMem := by cases letterMem
  restStart _ letterMem := by cases letterMem

/-- A policy that blocks `evil.com` lets `evil.com.` through. -/
theorem not_alwaysEnforces : ¬AlwaysEnforces .ascii := by
  intro always
  have enforces := always (.policy ⟨1⟩ "malware" "domain") plainWriting evilHost "evil.com".toList
    (by decide)
  have named : evilHost.NamedBy "evil.com.".toList := by
    left
    decide
  have through : (PolicyCache.load .ascii ((Entry.policy ⟨1⟩ "malware" "domain").rules .ascii
      "evil.com".toList)).check .ascii "evil.com.".toList = none := by decide
  have blocked := (enforces "evil.com.".toList (by decide)).mpr named
  rw [through] at blocked
  cases blocked

end Aavishield.DomainRules
