import Aavishield.Dlp.Detectors
import Mathlib.Algebra.Group.Nat.Defs
import Mathlib.Data.List.Sort
import Mathlib.Data.Prod.Lex

/-!
# Scores and bands

The findings of a text are added up to one score under every policy of an organization.
The score falls into a band, the policy's own action caps what the band asks for, and the
strongest outcome of all policies wins.
-/

namespace Aavishield.Dlp

open Text

structure Config where
  defaultBlockThreshold : ℤ
  defaultAlertThreshold : ℤ

/-- What a policy looks for, and what it does then. -/
structure Policy where
  name : String
  action : String
  detectors : List String
  keywords : List (List Char)
  customPatterns : List CustomPattern
  bypassFileTypes : List (List Char)
  detectorWeights : List (String × ℤ)
  blockThreshold : Option ℤ
  alertThreshold : Option ℤ
  priority : ℤ

variable (env : Primitives) (cfg : Config)

def contextBonus : ℤ := 10

def bandSeverity : String → ℤ
  | "block" => 3
  | "alert" => 2
  | _ => 0

def actionSeverity : String → ℤ
  | "block" => 3
  | "alert" => 2
  | "log" => 1
  | _ => 0

def severityAction (severity : ℤ) : String :=
  if severity = 3 then "block"
  else if severity = 2 then "alert"
  else if severity = 1 then "log"
  else "allow"

def Policy.weightFor (policy : Policy) (detector : String) : ℤ :=
  (policy.detectorWeights.lookup detector).getD (defaultWeight detector)

def Policy.thresholds (policy : Policy) : ℤ × ℤ :=
  let block := policy.blockThreshold.getD cfg.defaultBlockThreshold
  let alert := policy.alertThreshold.getD cfg.defaultAlertThreshold
  (block, if alert ≥ block then max (block - 1) 0 else alert)

/-- What came of one policy, or of the best of them. -/
structure PolicyResult where
  matched : Bool
  score : ℤ
  band : String
  action : String
  policyName : String
  found : List Match
  blockThreshold : ℤ
  alertThreshold : ℤ

def PolicyResult.empty (name : String) (blockThreshold alertThreshold : ℤ) : PolicyResult where
  matched := false
  score := 0
  band := "allow"
  action := "allow"
  policyName := name
  found := []
  blockThreshold := blockThreshold
  alertThreshold := alertThreshold

def bandFor (score blockThreshold alertThreshold : ℤ) : String :=
  if score ≥ blockThreshold then "block"
  else if score ≥ alertThreshold then "alert"
  else "allow"

/--
The heaviest finding counts fully and the others by two fifths.  Their sum wraps around, as that
of an `i64` does.  The score is rounded to the nearest integer; two fifths of an integer are never
halfway between two.
-/
def aggregate (weights : List ℤ) (contextCombo : Bool) : ℤ :=
  match weights.insertionSort (· ≥ ·) with
  | [] => 0
  | heaviest :: others =>
    let rest := others.sum.bmod (2 ^ 64)
    let fifths := 5 * heaviest + 2 * rest + if contextCombo then 5 * contextBonus else 0
    min ((2 * fifths + 5) / 10) 100

def effectiveAction (band policyAction : String) : String :=
  let policySeverity :=
    if policyAction ∈ ["block", "alert", "log", "allow"] then actionSeverity policyAction else 3
  severityAction (min (bandSeverity band) policySeverity)

/-- A finding of the classifier. -/
structure ExternalMatch where
  detector : String
  label : String
  confidence : ℤ
  preview : List Char

def distinct : List (String × List Char) → List Match → List Match
  | _, [] => []
  | seen, found :: rest =>
    if (found.detector, found.key) ∈ seen then distinct seen rest
    else found :: distinct ((found.detector, found.key) :: seen) rest

def runDetector (policy : Policy) (text filename : List Char) (detector : String) : List Match :=
  let weight := policy.weightFor detector
  match detector with
  | "credit_card" => detectCreditCard env text weight
  | "pan_india" => detectPan env text weight
  | "aadhaar" => detectAadhaar env text weight
  | "aws_key" => detectAwsKey env text weight
  | "github_token" => detectGithubToken env text weight
  | "generic_api_key" => detectGenericApiKey env text weight
  | "source_code" => detectSourceCode env filename weight
  | _ => []

def externalMatch (policy : Policy) (external : ExternalMatch) : Option Match :=
  if external.detector ∉ policy.detectors then none
  else
    let confidence := max 0 (min external.confidence 100)
    let scaled := env.scaled (policy.weightFor external.detector) confidence
    if scaled ≤ 0 then none
    else
      let label := if external.label = "" then builtinLabel external.detector else external.label
      some ⟨external.detector, label, external.preview, scaled, external.preview⟩

def runDetectors (policy : Policy) (text filename : List Char) (externals : List ExternalMatch) :
    List Match :=
  distinct [] <|
    policy.detectors.flatMap (runDetector env policy text filename) ++
      detectKeywords env text policy.keywords (policy.weightFor "keyword") ++
      detectCustomPatterns env text policy.customPatterns (policy.weightFor "custom_regex") ++
      externals.filterMap (externalMatch env policy)

def Policy.bypasses (policy : Policy) (filename contentType : List Char) : Bool :=
  policy.bypassFileTypes.any fun fileType =>
    env.toLowercase fileType == (fileCategory env filename contentType).toList

/-- The result of one policy. -/
def scorePolicy (policy : Policy) (text filename contentType : List Char)
    (externals : List ExternalMatch) : PolicyResult :=
  let (blockThreshold, alertThreshold) := policy.thresholds cfg
  if policy.bypasses env filename contentType then
    .empty policy.name blockThreshold alertThreshold
  else
    let found := runDetectors env policy text filename externals
    if found = [] then .empty policy.name blockThreshold alertThreshold
    else
      let kinds := found.map Match.detector
      let hasStructured := kinds.any (· ∈ structuredDetectors)
      let hasKeyword := kinds.any (· ∈ ["keyword", "custom_regex"])
      let score := aggregate (found.map Match.weight) (hasStructured && hasKeyword)
      let band := bandFor score blockThreshold alertThreshold
      { matched := true, score := score, band := band,
        action := effectiveAction band policy.action, policyName := policy.name, found := found,
        blockThreshold := blockThreshold, alertThreshold := alertThreshold }

def PolicyResult.key (policy : Policy) (result : PolicyResult) : ℤ ×ₗ ℤ ×ₗ ℤ :=
  toLex (actionSeverity result.action, toLex (result.score, -policy.priority))

/-- The best result of all policies. -/
def scan (policies : List Policy) (text filename contentType : List Char)
    (externals : List ExternalMatch) : PolicyResult :=
  let best := policies.foldl
    (fun (best : Option (PolicyResult × (ℤ ×ₗ ℤ ×ₗ ℤ))) policy =>
      let result := scorePolicy env cfg policy text filename contentType externals
      if !result.matched then best
      else if best.all fun held => decide (held.2 < result.key policy) then
        some (result, result.key policy)
      else best)
    none
  (best.map Prod.fst).getD (.empty "" cfg.defaultBlockThreshold cfg.defaultAlertThreshold)

end Aavishield.Dlp
