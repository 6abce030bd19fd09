import Aavishield.Lib.ByteText
import Aavishield.Policy.Domains

/-!
# The risk engine

The worker that scores the domains which were visited lately, and creates a block rule for every
organisation where the score is high.
-/

namespace Aavishield.RiskEngine

open ByteText Text
open DomainRules (DomainRule)

structure Primitives where
  /-- `unicode.ToLower`, of which a letter stays as it is. -/
  lower : Char → Char
  lower_lower : ∀ letter, lower (lower letter) = lower letter
  /-- `DomainAgeDays`, by what WHOIS servers say. -/
  domainAgeDays : List Char → Option ℕ
  /-- Whether `shannonEntropy` is 3.8 at least. -/
  highEntropy : List Char → Bool
  /-- The order in which the database returns the different values of a column. -/
  arrange : List (List Char) → List (List Char)
  arrange_perm : ∀ values, (arrange values).Perm values

/-- A row of `domain_rules`. -/
structure Rule extends DomainRule where
  source : String
  enabled : Bool
  deleted : Bool

structure ThreatIntelDomain where
  domain : List Char
  source : String
  category : String
  deleted : Bool

structure URLCategory where
  slug : String
  riskLevel : ℤ

structure Assessment where
  domain : List Char
  score : ℤ
  category : String
  reasons : List String
  domainAgeDays : Option ℕ
  threatIntel : Bool
  deriving DecidableEq

structure DomainRiskAssessment extends Assessment where
  assessedAt : ℤ
  deleted : Bool

structure Event where
  timestamp : ℤ
  targetDomain : List Char

/-- The rows of `domain_rules` stand in the order of their primary keys.  Of the companies with
databases of their own there are the domains that each of them answers with, unless it cannot be
asked. -/
structure Database where
  now : ℤ
  rules : List Rule
  threatIntel : List ThreatIntelDomain
  categories : List URLCategory
  assessments : List DomainRiskAssessment
  events : List Event
  tenants : Option (List (Option (List (List Char))))
  lastTenantScan : ℤ

def blockThreshold : ℤ := 80

section Scores

variable (env : Primitives) (db : Database)

def lowered (text : List Char) : List Char := text.map env.lower

def digitHeavy (label : List Char) : Bool :=
  decide (4 * byteLength label ≤ 10 * (label.filter Char.isDigit).length ∧ 6 ≤ byteLength label)

def dnsAnomalyScore (domain : List Char) : ℤ × List String :=
  let labels := (lowered env (trimSuffix ['.'] domain)).splitOn '.'
  if labels.length < 2 then (0, [])
  else
    let label := labels.getD (labels.length - 2) []
    let entropy := if 8 ≤ byteLength label ∧ env.highEntropy label then
      [((8 : ℤ), "high-entropy domain name (looks algorithmically generated)")] else []
    let digits := if digitHeavy label then [((4 : ℤ), "unusually digit-heavy domain name")] else []
    let depth := if 5 ≤ labels.length then [((3 : ℤ), "unusually deep subdomain nesting")] else []
    let signals := entropy ++ digits ++ depth
    (min (signals.map Prod.fst).sum 15, signals.map Prod.snd)

def categoryFor (domain : List Char) : Option (String × ℤ) :=
  (db.rules.find? fun rule => !rule.deleted && rule.domain == domain && rule.category != "").map
    fun rule =>
      (rule.category,
        ((db.categories.find? fun category => category.slug == rule.category).map
          URLCategory.riskLevel).getD 0)

def normalize (domain : List Char) : List Char :=
  trimPrefix "www.".toList (lowered env (trimSuffix ['.'] (trimSpace domain)))

def ageSignal (age : Option ℕ) : ℤ × List String :=
  match age with
  | none => (0, [])
  | some days =>
    if days ≤ 7 then (25, ["domain registered within the last 7 days"])
    else if days ≤ 30 then (15, ["domain registered within the last 30 days"])
    else (0, [])

/-- `itoa`, which writes nothing for a number below zero. -/
def itoa (number : ℤ) : String := if number < 0 then "" else toString number.toNat

def assess (visited : List Char) : Assessment :=
  let domain := normalize env visited
  let hit := db.threatIntel.find? fun row => !row.deleted && row.domain == domain
  let listed := (hit.map fun row =>
    ((85 : ℤ), ["listed on " ++ row.source ++ " threat-intel feed (" ++ row.category ++ ")"])).getD
      (0, [])
  let category := categoryFor db domain
  let risk := (category.map fun found =>
    let contribution := found.2 * 10
    (contribution, if 0 < contribution then
      ["category '" ++ found.1 ++ "' risk level " ++ itoa found.2] else [])).getD (0, [])
  let days := env.domainAgeDays domain
  let age := ageSignal days
  let anomaly := dnsAnomalyScore env domain
  let anomalies := if 0 < anomaly.1 then anomaly else (0, [])
  let ofHit := (hit.map ThreatIntelDomain.category).getD ""
  let named := if ofHit = "" then (category.map Prod.fst).getD "" else ofHit
  { domain
    score := min (listed.1 + risk.1 + age.1 + anomalies.1) 100
    category := if named = "" then "uncategorized" else named
    reasons := listed.2 ++ risk.2 ++ age.2 ++ anomalies.2
    domainAgeDays := days
    threatIntel := hit.isSome }

end Scores

section Tick

variable (env : Primitives)

def hour : ℤ := 60 * 60 * 10 ^ 9

def lookback : ℤ := 24 * hour

def tenantScanEvery : ℤ := 5 * 60 * 10 ^ 9

def Database.visited (db : Database) : List (List Char) :=
  ((db.events.filter fun event =>
    decide (db.now - lookback ≤ event.timestamp) && event.targetDomain != []).map
      Event.targetDomain).dedup

def unassessedRecentDomains (db : Database) : List (List Char) :=
  (env.arrange (db.visited.filter fun domain =>
    !(db.rules.any fun rule => rule.domain == domain && rule.enabled) &&
      !(db.assessments.any fun row =>
        row.domain == domain && decide (db.now - hour ≤ row.assessedAt)))).take 200

def candidates (db : Database) : List (List Char) :=
  (((db.tenants.getD []).flatMap fun groups => groups.getD []).map (lowered env)).eraseDups

def ruled (db : Database) : List (List Char) :=
  (db.rules.filter fun rule =>
    !rule.deleted && rule.enabled && decide (rule.domain ∈ candidates env db)).map
      fun rule => rule.domain

def assessed (db : Database) : List (List Char) :=
  (db.assessments.filter fun row =>
    !row.deleted && decide (db.now - hour ≤ row.assessedAt) &&
      decide (row.domain ∈ candidates env db)).map fun row => row.domain

def unassessedTenantDomains (db : Database) : List (List Char) :=
  let skip := (ruled env db ++ assessed env db).map (lowered env)
  ((candidates env db).filter fun domain => decide (domain ∉ skip)).take 200

def Database.scanIsDue (db : Database) : Bool := decide (tenantScanEvery ≤ db.now - db.lastTenantScan)

def domains (db : Database) : List (List Char) :=
  unassessedRecentDomains env db ++
    if db.scanIsDue then unassessedTenantDomains env db else []

def persistAssessment (db : Database) (assessment : Assessment) : Database :=
  let row : DomainRiskAssessment := ⟨assessment, db.now, false⟩
  { db with
    assessments :=
      if db.assessments.any fun other => other.domain == assessment.domain then
        db.assessments.map fun other => if other.domain = assessment.domain then row else other
      else row :: db.assessments }

def riskBlock (assessment : Assessment) : Rule where
  orgID := none
  domain := assessment.domain
  action := .block
  category := "malware_detection"
  reason := "Automated risk assessment: " ++ "; ".intercalate assessment.reasons
  source := "risk_engine"
  riskScore := assessment.score
  enabled := true
  deleted := false

structure Outcome where
  assessments : List Assessment
  blocks : List Rule

def assessAll (place : List Rule → ℕ) : List (List Char) → Database → Outcome × Database
  | [], db => (⟨[], []⟩, db)
  | domain :: rest, db =>
    let assessment := assess env db domain
    let persisted := persistAssessment db assessment
    if blockThreshold < assessment.score then
      let rule := riskBlock assessment
      let (outcome, after) := assessAll place rest
        { persisted with rules := persisted.rules.insertIdx (place persisted.rules) rule }
      (⟨assessment :: outcome.assessments, rule :: outcome.blocks⟩, after)
    else
      let (outcome, after) := assessAll place rest persisted
      (⟨assessment :: outcome.assessments, outcome.blocks⟩, after)

def tick (place : List Rule → ℕ) (db : Database) : Outcome × Database :=
  assessAll env place (domains env db)
    (if db.scanIsDue then { db with lastTenantScan := db.now } else db)

end Tick

end Aavishield.RiskEngine
