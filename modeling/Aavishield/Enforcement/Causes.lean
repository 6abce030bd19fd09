import Aavishield.Enforcement.Threats

/-!
# Why a request is blocked

Rules of the organisation stop at the end of the working day, threat intelligence does not, and
blocks are logged off-hours only if threat intelligence is their cause.  The handlers tell the
cause by the category of the rule that matched: they look for one literal, which is what
the agent fills in when an answer has no category.
-/

namespace Aavishield.Enforcement

open DomainRules (DomainRule PolicyAction PolicyCache)

structure EffectiveRule where
  action : String
  reason : String
  category : String
  riskScore : ℤ
  deriving DecidableEq

def EffectiveRule.none : EffectiveRule := ⟨"", "", "", 0⟩

def actionText : PolicyAction → String
  | .block => "block"
  | .allow => "allow"
  | .alert => "alert"
  | .log => "log"

def EffectiveRule.ofPolicy (rule : DomainRule) : EffectiveRule :=
  ⟨actionText rule.action, rule.reason, rule.category, rule.riskScore⟩

def EffectiveRule.ofThreat (verdict : ThreatVerdict) : EffectiveRule :=
  ⟨verdict.action, verdict.reason, verdict.category, verdict.riskScore⟩

def EffectiveRule.asRuleLike (rule : EffectiveRule) : Option RuleLike :=
  if rule.action = "" then Option.none else some ⟨rule.category, rule.reason, rule.riskScore⟩

/-- What was found for a request. -/
structure Findings where
  policy : Option DomainRule
  threat : Option ThreatVerdict

def Findings.under (findings : Findings) (gate : Gate) : Findings where
  policy := if gate.enforcesPolicy then findings.policy else none
  threat := if gate.checksThreatIntel then findings.threat else none

def effectiveRule (gate : Gate) (findings : Findings) : EffectiveRule :=
  match (findings.under gate).policy, (findings.under gate).threat with
  | some rule, threat =>
    if rule.action = .block then .ofPolicy rule
    else
      match threat with
      | some verdict => if verdict.action = "block" then .ofThreat verdict else .ofPolicy rule
      | none => .ofPolicy rule
  | none, some verdict => .ofThreat verdict
  | none, none => .none

inductive Cause where
  | policy
  | threat
  deriving DecidableEq

def blockCause (gate : Gate) (findings : Findings) : Option Cause :=
  if (findings.under gate).policy.any fun rule => rule.action = .block then some .policy
  else if (findings.under gate).threat.any fun verdict => verdict.action = "block" then some .threat
  else none

inductive Page where
  | opened
  | part
  | failed
  deriving DecidableEq

structure WebRequest where
  isConnect : Bool
  url : List Char
  host : List Char

/-- How the page would be served, and when. -/
structure Conditions where
  canServeBlockPage : Bool
  hasLeaf : Bool
  page : Page
  now : Time
  wallClock : Time

variable (gate : Gate) (request : WebRequest) (conditions : Conditions)

def blockKind (category : String) : Kind :=
  if category = "threat_intelligence" then .security else .activity

def WebRequest.recording (rule : EffectiveRule) (action : String) (kind : Kind) : Recording where
  targetURL := request.url
  domain := request.host
  action := action
  rule := rule.asRuleLike
  eventType := "web_request"
  kind := kind
  now := conditions.now
  wallClock := conditions.wallClock

def servesPage : Bool := gate.intercepts && conditions.canServeBlockPage && conditions.hasLeaf

def reportAction (rule : EffectiveRule) : String := if rule.action = "alert" then "alerted" else "allowed"

def handleConnect (rule : EffectiveRule) : Option Recording :=
  if rule.action = "block" then
    let recording := request.recording conditions rule "blocked" (blockKind rule.category)
    if servesPage gate conditions then
      match conditions.page with
      | .opened => some recording
      | .part | .failed => none
    else some recording
  else some (request.recording conditions rule (reportAction rule) .activity)

def handlePlainHttp (rule : EffectiveRule) : Option Recording :=
  if rule.action = "block" then
    some (request.recording conditions rule "blocked" (blockKind rule.category))
  else some (request.recording conditions rule (reportAction rule) .activity)

def handle (findings : Findings) : Option Recording :=
  if request.isConnect then handleConnect gate request conditions (effectiveRule gate findings)
  else handlePlainHttp request conditions (effectiveRule gate findings)

section Logging

variable (env : DomainRules.Primitives) (reporter : Reporter) (findings : Findings)

def Reported : Prop :=
  ∃ recording, handle gate request conditions findings = some recording ∧
    reporter.outcome env gate recording ≠ .dropped

/-- A threat is reported in every mode, and outside of full mode nothing else is. -/
structure LogsByCause : Prop where
  threat : blockCause gate findings = some .threat →
    Reported gate request conditions env reporter findings
  otherwise : blockCause gate findings ≠ some .threat → gate.mode ≠ .full →
    ¬Reported gate request conditions env reporter findings

def Seen : Prop := request.isConnect = true → servesPage gate conditions = true → conditions.page = .opened

/-- A request that is blocked for a threat gets to where it is told. -/
def ThreatIsTold : Prop :=
  blockCause gate findings = some .threat → Seen gate request conditions ∧
    (gate.mode = .securityOnly → ∀ verdict, findings.threat = some verdict →
      verdict.category = "threat_intelligence")

variable {gate request conditions env reporter findings}

theorem outcome_ne_dropped_iff {recording : Recording} :
    reporter.outcome env gate recording ≠ .dropped ↔
      recording.action ≠ "allowed" ∧ gate.logs recording.kind = true := by
  simp only [Reporter.outcome]
  split_ifs with isAllowed quiet
  · simp [isAllowed]
  · simp_all
  · have logged : gate.logs recording.kind = true := by simpa using quiet
    constructor
    · intro _
      exact ⟨isAllowed, logged⟩
    · intro _
      split
      · split_ifs
        · exact Outcome.noConfusion
        · exact Outcome.noConfusion
      · exact Outcome.noConfusion

theorem threat_of_blockCause (isThreat : blockCause gate findings = some .threat) :
    gate.mode ≠ .paused ∧ ∃ verdict, findings.threat = some verdict ∧ verdict.action = "block" ∧
      effectiveRule gate findings = .ofThreat verdict := by
  simp only [blockCause] at isThreat
  split_ifs at isThreat with byPolicy byThreat
  · cases isThreat
  · rcases Option.any_eq_true .. |>.mp byThreat with ⟨verdict, found, decided⟩
    have blocks : verdict.action = "block" := of_decide_eq_true decided
    have counts : gate.checksThreatIntel = true ∧ findings.threat = some verdict := by
      simpa [Findings.under] using found
    refine ⟨?_, verdict, counts.2, blocks, ?_⟩
    · intro paused
      simp [Gate.checksThreatIntel, paused] at counts
    · simp only [effectiveRule, found]
      cases isPolicy : (findings.under gate).policy with
      | none => rfl
      | some rule =>
        rw [isPolicy] at byPolicy
        have passes : rule.action ≠ .block := by simpa using byPolicy
        simp [passes, blocks]

theorem action_ne_of_blockCause (notThreat : blockCause gate findings ≠ some .threat)
    (offHours : gate.mode ≠ .full) : (effectiveRule gate findings).action ≠ "block" := by
  have noPolicy : (findings.under gate).policy = none := by
    simp [Findings.under, Gate.enforcesPolicy, offHours]
  simp only [blockCause, noPolicy, Option.any_none, Bool.false_eq_true, if_false] at notThreat
  simp only [effectiveRule, noPolicy]
  cases found : (findings.under gate).threat with
  | none => simp [EffectiveRule.none]
  | some verdict =>
    rw [found] at notThreat
    simpa [EffectiveRule.ofThreat] using notThreat

theorem kind_of_handle {recording : Recording} (passes : (effectiveRule gate findings).action ≠ "block")
    (handled : handle gate request conditions findings = some recording) :
    recording.kind = .activity := by
  simp only [handle, handleConnect, handlePlainHttp, if_neg passes] at handled
  split_ifs at handled
  · cases handled
    rfl
  · cases handled
    rfl

theorem handle_of_block (blocks : (effectiveRule gate findings).action = "block") :
    (Seen gate request conditions → handle gate request conditions findings =
      some (request.recording conditions (effectiveRule gate findings) "blocked"
        (blockKind (effectiveRule gate findings).category))) ∧
    (¬Seen gate request conditions → handle gate request conditions findings = none) := by
  simp only [handle, handleConnect, handlePlainHttp, if_pos blocks, Seen]
  cases request.isConnect with
  | false => simp
  | true =>
    cases servesPage gate conditions with
    | false => simp
    | true => cases conditions.page <;> simp

theorem reported_iff_of_threat {verdict : ThreatVerdict} (awake : gate.mode ≠ .paused)
    (blocks : verdict.action = "block") (byVerdict : effectiveRule gate findings = .ofThreat verdict) :
    Reported gate request conditions env reporter findings ↔ Seen gate request conditions ∧
      (gate.mode = .securityOnly → verdict.category = "threat_intelligence") := by
  have blocked : (effectiveRule gate findings).action = "block" := by rw [byVerdict]; exact blocks
  have logged : gate.logs (blockKind verdict.category) = true ↔
      (gate.mode = .securityOnly → verdict.category = "threat_intelligence") := by
    cases mode : gate.mode with
    | full => simp [Gate.logs, mode]
    | securityOnly => simp [Gate.logs, mode, blockKind]
    | paused => exact absurd mode awake
  by_cases seen : Seen gate request conditions
  · simp only [Reported, (handle_of_block blocked).1 seen, byVerdict, Option.some.injEq, exists_eq_left',
      outcome_ne_dropped_iff, WebRequest.recording, EffectiveRule.ofThreat, logged, seen, true_and]
    simp
  · simp [Reported, (handle_of_block blocked).2 seen, seen]

/--
A request that threat intelligence blocks is logged whatever the time, and off-hours nothing
else is, exactly when the block is seen and off-hours the verdict carries the literal
that the handlers look for.
-/
theorem logsByCause_iff : LogsByCause gate request conditions env reporter findings ↔
    ThreatIsTold gate request conditions findings := by
  have quiet : blockCause gate findings ≠ some .threat → gate.mode ≠ .full →
      ¬Reported gate request conditions env reporter findings := by
    rintro notThreat offHours ⟨recording, handled, logged⟩
    have isActivity := kind_of_handle (action_ne_of_blockCause notThreat offHours) handled
    have logs := (outcome_ne_dropped_iff.mp logged).2
    rw [isActivity] at logs
    cases mode : gate.mode with
    | full => exact offHours mode
    | securityOnly | paused => simp [Gate.logs, mode] at logs
  constructor
  · rintro byCause isThreat
    rcases threat_of_blockCause isThreat with ⟨awake, verdict, found, blocks, byVerdict⟩
    rcases (reported_iff_of_threat awake blocks byVerdict).mp (byCause.threat isThreat) with ⟨seen, told⟩
    refine ⟨seen, fun securityOnly other isOther => ?_⟩
    cases found.symm.trans isOther
    exact told securityOnly
  · intro told
    refine ⟨fun isThreat => ?_, quiet⟩
    rcases threat_of_blockCause isThreat with ⟨awake, verdict, found, blocks, byVerdict⟩
    rcases told isThreat with ⟨seen, literal⟩
    exact (reported_iff_of_threat awake blocks byVerdict).mpr
      ⟨seen, fun securityOnly => literal securityOnly verdict found⟩

def AlwaysLogsByCause : Prop :=
  ∀ gate request conditions env reporter findings,
    LogsByCause gate request conditions env reporter findings

/-- Off-hours, a domain of the malware feed is blocked and nothing is logged. -/
theorem not_alwaysLogsByCause : ¬AlwaysLogsByCause := by
  intro always
  let gate : Gate := { Gate.initial with mode := .securityOnly }
  let lines : List (FeedEntry × List Char) := [(⟨"urlhaus", "malware"⟩, "evil.example".toList)]
  let scored := scoreDomain .ascii (fun _ => (0, [])) (loadFeeds .ascii lines) 80 50 "evil.example".toList
  let findings : Findings := ⟨none, lookup .ascii (some (threatLookup (some scored) scored))⟩
  let request : WebRequest := ⟨false, "http://evil.example/".toList, "evil.example".toList⟩
  have isThreat : blockCause gate findings = some .threat := by decide +kernel
  have reported := (always gate request ⟨false, false, .opened, 0, 0⟩ .ascii .empty findings).threat
    isThreat
  rcases threat_of_blockCause isThreat with ⟨awake, verdict, found, blocks, byVerdict⟩
  have literal := ((reported_iff_of_threat awake blocks byVerdict).mp reported).2 rfl
  exact category_ne_of_scoreDomain (by decide) found literal

end Logging

end Aavishield.Enforcement
