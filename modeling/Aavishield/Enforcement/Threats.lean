import Aavishield.Enforcement.Reporter
import Aavishield.Lib.TransitionSystem

/-!
# Threat intelligence

The service scores a domain by the feeds that list it and by the look of its name, and says in
which category the feed put it.  The admin API passes the result on, or assesses the
domain itself, and the agent keeps what it makes of the answer for five minutes.
-/

namespace Aavishield.Enforcement

open Text TransitionSystem
open DomainRules (folded)

/-- Why an indicator is flagged (`store.Entry`). -/
structure FeedEntry where
  source : String
  category : String
  deriving DecidableEq

/-- The feeds of `DefaultSources` that list domains. -/
def domainSources : List FeedEntry := [⟨"urlhaus", "malware"⟩, ⟨"openphish", "phishing"⟩]

def normDomain (env : DomainRules.Primitives) (domain : List Char) : List Char :=
  trimPrefix "www.".toList ((trimSpace (trimSuffix ['.'] domain)).map env.lower)

def loadFeeds (env : DomainRules.Primitives) (lines : List (FeedEntry × List Char)) :
    List Char → Option FeedEntry := fun domain =>
  (lines.reverse.find? fun line => normDomain env line.2 = domain).map Prod.fst

structure Scored where
  score : ℤ
  band : String
  category : String
  reasons : List String

def band (score blockT alertT : ℤ) : String :=
  let alertT := if alertT ≥ blockT then blockT - 1 else alertT
  if score ≥ blockT then "block" else if score ≥ alertT then "alert" else "allow"

/-- What `DNSAnomalyScore` makes of the look of a name. -/
abbrev Anomalies := List Char → ℤ × List String

def scoreDomain (env : DomainRules.Primitives) (anomalies : Anomalies)
    (domains : List Char → Option FeedEntry) (blockT alertT : ℤ) (domain : List Char) : Scored :=
  let domain := (trimSpace domain).map env.lower
  let listed := domains (normDomain env domain)
  let anomaly := anomalies domain
  let score := min ((if listed.isSome then 85 else 0) + if 0 < anomaly.1 then anomaly.1 else 0) 100
  let reasons :=
    (listed.elim [] fun entry =>
      ["listed on " ++ entry.source ++ " threat-intel feed (" ++ entry.category ++ ")"]) ++
        if 0 < anomaly.1 then anomaly.2 else []
  { score := score
    band := band score blockT alertT
    category := listed.elim "uncategorized" FeedEntry.category
    reasons := if reasons.isEmpty then ["no threat-intel indicators found"] else reasons }

/-- The answer of the threat service. -/
structure LookupResponse where
  band : Option (List Char)
  score : Option ℤ
  category : Option String
  reasons : List String

def Scored.response (scored : Scored) : LookupResponse :=
  ⟨some scored.band.toList, some scored.score, some scored.category, scored.reasons⟩

/-- `ThreatLookup`: the service's result, or the admin API's own assessment. -/
def threatLookup (scored : Option Scored) (assessed : Scored) : LookupResponse :=
  match scored with
  | some scored => scored.response
  | none =>
    { assessed with
      band := if assessed.score ≥ 80 then "block" else if assessed.score ≥ 50 then "alert" else "allow"
      }.response

structure ThreatVerdict where
  action : String
  category : String
  reason : String
  riskScore : ℤ
  deriving DecidableEq

/-- `lookup`; no answer, or one that cannot be read, is `none`. -/
def lookup (env : DomainRules.Primitives) (response : Option LookupResponse) :
    Option ThreatVerdict :=
  response.bind fun response =>
    let band := env.toLowercase (response.band.getD [])
    let score := response.score.getD 0
    if band ≠ "block".toList ∧ band ≠ "alert".toList ∧ score < 50 then none
    else
      some
        { action := if band = "block".toList ∨ score ≥ 80 then "block" else "alert"
          category := response.category.getD "threat_intelligence"
          reason :=
            if response.reasons.isEmpty then "Threat intelligence risk"
            else "; ".intercalate response.reasons
          riskScore := score }

def threatCacheTTL : ℤ := 300 * 10 ^ 9

structure ThreatIntelCache where
  revoked : Bool
  verdicts : List (List Char × Time × Option ThreatVerdict)

/-- What is kept for a host, if it is still fresh. -/
def ThreatIntelCache.find (cache : ThreatIntelCache) (now : Time) (host : List Char) :
    Option (Option ThreatVerdict) :=
  (cache.verdicts.lookup host).bind fun (expiry, verdict) =>
    if now < expiry then some verdict else none

def ThreatIntelCache.insert (cache : ThreatIntelCache) (asked : Time) (host : List Char)
    (verdict : Option ThreatVerdict) : ThreatIntelCache :=
  let verdicts := (host, asked + threatCacheTTL, verdict) ::
    cache.verdicts.filter fun entry => entry.1 ≠ host
  { cache with
    verdicts := if verdicts.length > 2048 then verdicts.filter fun entry => asked < entry.2.1
      else verdicts }

/-- The checks of an agent.  One that finds nothing in the cache asks while others go on. -/
structure Checks where
  cache : ThreatIntelCache
  waiting : ℕ → Option (List Char × Time)
  answers : List (List Char × Time × Option LookupResponse)

def Checks.initial : Checks := ⟨⟨false, []⟩, fun _ => none, []⟩

/-- A check, its answer or the end of the agent's key. -/
inductive CheckStep where
  | check (call : ℕ) (now : Time) (host : List Char)
  | answer (call : ℕ) (response : Option LookupResponse)
  | revoke

/-- Checks overlap, and are answered in any order. -/
def Checks.step (env : DomainRules.Primitives) (checks : Checks) : CheckStep → Option Checks
  | .check call now host =>
    let host := folded env host
    if (checks.waiting call).isSome then none
    else if checks.cache.revoked || (checks.cache.find now host).isSome then some checks
    else some { checks with waiting := Function.update checks.waiting call (some (host, now)) }
  | .answer call response =>
    (checks.waiting call).map fun (host, asked) =>
      { cache := checks.cache.insert asked host (lookup env response)
        waiting := Function.update checks.waiting call none
        answers := (host, asked, response) :: checks.answers }
  | .revoke => some { checks with cache := { checks.cache with revoked := true } }

section Freshness

variable {env : DomainRules.Primitives} {checks next : Checks} {host : List Char}
  {now : Time} {verdict : Option ThreatVerdict}

/-- What is cached came back for its host and is valid for five minutes from when it was asked. -/
def Checks.Fresh (env : DomainRules.Primitives) (checks : Checks) : Prop :=
  ∀ entry ∈ checks.cache.verdicts, ∃ asked response, (entry.1, asked, response) ∈ checks.answers ∧
    entry.2 = (asked + threatCacheTTL, lookup env response)

theorem Checks.Fresh.step (fresh : checks.Fresh env) {action : CheckStep}
    (stepped : checks.step env action = some next) : next.Fresh env := by
  cases action with
  | check call now host =>
    simp only [Checks.step] at stepped
    split_ifs at stepped
    · cases stepped
      exact fresh
    · cases stepped
      exact fresh
  | answer call response =>
    obtain ⟨⟨host, asked⟩, -, rfl⟩ := Option.map_eq_some_iff.mp stepped
    intro entry entryMem
    have inserted : entry ∈ (host, asked + threatCacheTTL, lookup env response) ::
        checks.cache.verdicts.filter fun entry => entry.1 ≠ host := by
      simp only [ThreatIntelCache.insert] at entryMem
      split at entryMem
      · exact List.mem_of_mem_filter entryMem
      · exact entryMem
    rcases List.mem_cons.mp inserted with rfl | older
    · exact ⟨asked, response, List.mem_cons_self, rfl⟩
    · rcases fresh entry (List.mem_of_mem_filter older) with ⟨asked, response, answered, isEntry⟩
      exact ⟨asked, response, List.mem_cons_of_mem _ answered, isEntry⟩
  | revoke =>
    cases stepped
    exact fresh

/-- However the checks overlap, no verdict is taken from the cache five minutes after it was asked. -/
theorem asked_of_find {trace : List CheckStep} {final : Checks}
    (executed : exec (Checks.step env) .initial trace = some final)
    (found : final.cache.find now host = some verdict) :
    ∃ asked response, (host, asked, response) ∈ final.answers ∧
      verdict = lookup env response ∧ now < asked + threatCacheTTL := by
  have fresh : final.Fresh env :=
    invariant_of_exec (fun _ _ _ fresh stepped => Checks.Fresh.step fresh stepped)
      (fun _ entryMem => by cases entryMem) executed
  obtain ⟨⟨expiry, kept⟩, isKept, isValid⟩ := Option.bind_eq_some_iff.mp found
  obtain ⟨before, after, split, -⟩ := List.lookup_eq_some_iff.mp isKept
  obtain ⟨asked, response, answered, isEntry⟩ := fresh (host, expiry, kept) (by simp [split])
  cases isEntry
  obtain ⟨valid, isVerdict⟩ : now < asked + threatCacheTTL ∧ _ = some verdict :=
    Option.ite_none_right_eq_some.mp isValid
  exact ⟨asked, response, answered, (Option.some.inj isVerdict).symm, valid⟩

def evilLookup : List CheckStep :=
  [.check 0 0 "www.Evil.com".toList, .answer 0 (some ⟨none, some 85, none, []⟩)]

theorem asked_of_find_evil : ∃ final, exec (Checks.step .ascii) .initial evilLookup = some final ∧
    ∃ verdict, final.cache.find 60 "evil.com".toList = some verdict ∧
      ∃ asked response, ("evil.com".toList, asked, response) ∈ final.answers ∧
        verdict = lookup .ascii response ∧ 60 < asked + threatCacheTTL :=
  ⟨_, rfl, _, rfl, @asked_of_find _ _ _ _ evilLookup _ rfl rfl⟩

end Freshness

section Categories

variable {env : DomainRules.Primitives} {anomalies : Anomalies} {blockT alertT : ℤ}
  {domain : List Char}

theorem category_scoreDomain {lines : List (FeedEntry × List Char)}
    (fromSources : ∀ line ∈ lines, line.1 ∈ domainSources) :
    (scoreDomain env anomalies (loadFeeds env lines) blockT alertT domain).category ∈
      ["malware", "phishing", "uncategorized"] := by
  simp only [scoreDomain, loadFeeds]
  cases found : lines.reverse.find? fun line =>
      normDomain env line.2 = normDomain env ((trimSpace domain).map env.lower) with
  | none => simp
  | some line =>
    have lineMem := List.mem_reverse.mp (List.mem_of_find?_eq_some found)
    rcases List.mem_pair.mp (fromSources line lineMem) with isSource | isSource
    · simp [isSource]
    · simp [isSource]

theorem category_lookup {response : LookupResponse} {verdict : ThreatVerdict}
    (found : lookup env (some response) = some verdict) :
    verdict.category = response.category.getD "threat_intelligence" := by
  simp only [lookup, Option.bind_some, Option.ite_none_left_eq_some] at found
  rcases found with ⟨-, same⟩
  cases same
  rfl

theorem category_ne_of_scoreDomain {lines : List (FeedEntry × List Char)} {assessed : Scored}
    {verdict : ThreatVerdict} (fromSources : ∀ line ∈ lines, line.1 ∈ domainSources)
    (found : lookup env (some (threatLookup
      (some (scoreDomain env anomalies (loadFeeds env lines) blockT alertT domain))
        assessed)) = some verdict) :
    verdict.category ≠ "threat_intelligence" := by
  intro isLiteral
  have emitted := @category_scoreDomain env anomalies blockT alertT domain lines fromSources
  rw [category_lookup found] at isLiteral
  simp only [threatLookup, Scored.response, Option.getD_some] at isLiteral
  rw [isLiteral] at emitted
  revert emitted
  decide

end Categories

end Aavishield.Enforcement
