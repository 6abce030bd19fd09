import Aavishield.Dlp.Pipeline
import Aavishield.Dlp.ScoreOrder

/-!
# What more policies change

The outcome of a scan is the strongest one of all policies, where the action comes before the
score, and so more policies never make it weaker.
-/

namespace Aavishield.Dlp

open Text

/-- Results compare by action, then by score. -/
def PolicyResult.rank (result : PolicyResult) : ℤ ×ₗ ℤ :=
  toLex (actionSeverity result.action, result.score)

theorem PolicyResult.AtMost.rank_le {result other : PolicyResult} (atMost : result.AtMost other) :
    result.rank ≤ other.rank := by
  have score := atMost.score
  have action := atMost.action
  unfold PolicyResult.rank
  rw [Prod.Lex.toLex_le_toLex]
  simp only
  omega

theorem rank_le_of_key_le {policy other : Policy} {result otherResult : PolicyResult}
    (le : result.key policy ≤ otherResult.key other) : result.rank ≤ otherResult.rank := by
  unfold PolicyResult.key at le
  unfold PolicyResult.rank
  simp only [Prod.Lex.toLex_le_toLex] at le ⊢
  omega

section Scan

variable {env : Primitives} {cfg : Config} {policies more : List Policy}
  {text textMore filename contentType : List Char} {externals externalsMore : List ExternalMatch}

/-- One policy of the loop of `scan`. -/
def keepStronger (outcome : Policy → PolicyResult)
    (best : Option (PolicyResult × (ℤ ×ₗ ℤ ×ₗ ℤ))) (policy : Policy) :
    Option (PolicyResult × (ℤ ×ₗ ℤ ×ₗ ℤ)) :=
  if !(outcome policy).matched then best
  else if best.all fun held => decide (held.2 < (outcome policy).key policy) then
    some (outcome policy, (outcome policy).key policy)
  else best

structure IsBest (outcome : Policy → PolicyResult) (policies : List Policy)
    (best : Option (PolicyResult × (ℤ ×ₗ ℤ ×ₗ ℤ))) : Prop where
  mem : ∀ held ∈ best, ∃ policy ∈ policies, (outcome policy).matched = true ∧
    held = (outcome policy, (outcome policy).key policy)
  strongest : ∀ policy ∈ policies, (outcome policy).matched = true →
    ∃ held ∈ best, (outcome policy).key policy ≤ held.2

theorem IsBest.step {outcome : Policy → PolicyResult} {policy : Policy}
    {best : Option (PolicyResult × (ℤ ×ₗ ℤ ×ₗ ℤ))} (isBest : IsBest outcome policies best) :
    IsBest outcome (policies ++ [policy]) (keepStronger outcome best policy) := by
  have earlier : ∀ held ∈ best, ∃ policy' ∈ policies ++ [policy],
      (outcome policy').matched = true ∧ held = (outcome policy', (outcome policy').key policy') := by
    intro held heldMem
    obtain ⟨other, otherMem, matched, same⟩ := isBest.mem held heldMem
    exact ⟨other, List.mem_append_left _ otherMem, matched, same⟩
  unfold keepStronger
  by_cases matched : (outcome policy).matched = true
  · simp only [matched, Bool.not_true, Bool.false_eq_true, if_false]
    split_ifs with stronger
    · refine ⟨?_, ?_⟩
      · intro held heldMem
        cases heldMem
        exact ⟨policy, by simp, matched, rfl⟩
      · intro other otherMem otherMatched
        refine ⟨_, rfl, ?_⟩
        rcases List.mem_append.mp otherMem with before | last
        · obtain ⟨held, heldMem, le⟩ := isBest.strongest other before otherMatched
          cases heldMem
          exact le.trans (by simpa using stronger : held.2 < _).le
        · rw [List.mem_singleton.mp last]
    · refine ⟨earlier, ?_⟩
      intro other otherMem otherMatched
      rcases List.mem_append.mp otherMem with before | last
      · exact isBest.strongest other before otherMatched
      · rw [List.mem_singleton.mp last]
        cases best with
        | none => simp at stronger
        | some held => exact ⟨held, rfl, by simpa using stronger⟩
  · simp only [matched, Bool.not_false, if_true]
    refine ⟨earlier, ?_⟩
    intro other otherMem otherMatched
    rcases List.mem_append.mp otherMem with before | last
    · exact isBest.strongest other before otherMatched
    · rw [List.mem_singleton.mp last] at otherMatched
      exact absurd otherMatched matched

theorem isBest_foldl (outcome : Policy → PolicyResult) (policies : List Policy) :
    IsBest outcome policies (policies.foldl (keepStronger outcome) none) := by
  induction policies using List.reverseRecOn with
  | nil => exact ⟨by simp, by simp⟩
  | append_singleton front last ih =>
    rw [List.foldl_append]
    exact ih.step

theorem scan_eq :
    scan env cfg policies text filename contentType externals =
      ((policies.foldl (keepStronger fun policy =>
        scorePolicy env cfg policy text filename contentType externals) none).map
          Prod.fst).getD (.empty "" cfg.defaultBlockThreshold cfg.defaultAlertThreshold) := rfl

theorem scan_mem :
    (∃ policy ∈ policies, scan env cfg policies text filename contentType externals =
      scorePolicy env cfg policy text filename contentType externals) ∨
    scan env cfg policies text filename contentType externals =
      .empty "" cfg.defaultBlockThreshold cfg.defaultAlertThreshold := by
  rw [scan_eq]
  have isBest := isBest_foldl
    (fun policy => scorePolicy env cfg policy text filename contentType externals) policies
  cases best : policies.foldl (keepStronger fun policy =>
      scorePolicy env cfg policy text filename contentType externals) none with
  | none => exact .inr rfl
  | some held =>
    obtain ⟨policy, mem, -, same⟩ := isBest.mem held best
    exact .inl ⟨policy, mem, congrArg Prod.fst same⟩

theorem scan_bounds (nonneg : ∀ policy ∈ policies, policy.NonNegative)
    (fits : ∀ policy ∈ policies, policy.Fits env text filename externals) :
    0 ≤ (scan env cfg policies text filename contentType externals).score ∧
      (scan env cfg policies text filename contentType externals).score ≤ 100 := by
  rcases @scan_mem env cfg policies text filename contentType externals with
    ⟨policy, mem, same⟩ | same
  · exact same ▸ scorePolicy_bounds (nonneg policy mem) (fits policy mem)
  · rw [same]
    simp [PolicyResult.empty]

theorem scan_isAction :
    IsAction (scan env cfg policies text filename contentType externals).action := by
  rcases @scan_mem env cfg policies text filename contentType externals with
    ⟨policy, -, same⟩ | same
  · exact same ▸ scorePolicy_isAction
  · rw [same]
    simp [PolicyResult.empty, IsAction]

theorem rank_empty_le {name : String} {blockThreshold alertThreshold : ℤ} {result : PolicyResult}
    (nonneg : 0 ≤ result.score) :
    (PolicyResult.empty name blockThreshold alertThreshold).rank ≤ result.rank := by
  have action := (actionSeverity_bounds result.action).1
  unfold PolicyResult.rank
  rw [Prod.Lex.toLex_le_toLex]
  have none : actionSeverity "allow" = 0 := rfl
  simp only [PolicyResult.empty, none]
  omega

theorem rank_le_scan (nonneg : ∀ policy ∈ policies, policy.NonNegative)
    (fits : ∀ policy ∈ policies, policy.Fits env text filename externals) {policy : Policy}
    (mem : policy ∈ policies) :
    (scorePolicy env cfg policy text filename contentType externals).rank ≤
      (scan env cfg policies text filename contentType externals).rank := by
  by_cases matched :
      (scorePolicy env cfg policy text filename contentType externals).matched = true
  · have isBest := isBest_foldl
      (fun policy => scorePolicy env cfg policy text filename contentType externals) policies
    obtain ⟨held, best, le⟩ := isBest.strongest policy mem matched
    obtain ⟨other, -, -, rfl⟩ := isBest.mem held best
    rw [scan_eq, Option.mem_def.mp best]
    exact rank_le_of_key_le le
  · have nonnegScan :
        0 ≤ (scan env cfg policies text filename contentType externals).score :=
      (scan_bounds nonneg fits).1
    rw [scorePolicy_eq] at matched ⊢
    split_ifs at matched ⊢
    · exact rank_empty_le nonnegScan
    · exact absurd rfl matched

theorem scan_rank_mono (scales : env.ScalesDown)
    (nonneg : ∀ policy ∈ more, policy.NonNegative) (policiesMore : policies ⊆ more)
    (ownMore : ∀ policy ∈ policies, ownFindings env policy text filename ⊆
      ownFindings env policy textMore filename)
    (externalMore : externals ⊆ externalsMore) (agreeing : Agreeing externalsMore)
    (fits : ∀ policy ∈ more, policy.Fits env textMore filename externalsMore) :
    (scan env cfg policies text filename contentType externals).rank ≤
      (scan env cfg more textMore filename contentType externalsMore).rank := by
  rcases @scan_mem env cfg policies text filename contentType externals with
    ⟨policy, mem, same⟩ | same
  · rw [same]
    have stronger : (scorePolicy env cfg policy text filename contentType externals).AtMost
        (scorePolicy env cfg policy textMore filename contentType externalsMore) :=
      scorePolicy_atMost scales (nonneg policy (policiesMore mem)) (ownMore policy mem) externalMore
        agreeing (fits policy (policiesMore mem))
    exact stronger.rank_le.trans (rank_le_scan nonneg fits (policiesMore mem))
  · rw [same]
    exact rank_empty_le (scan_bounds nonneg fits).1

theorem eq_of_rank_eq {result other : PolicyResult} (isFirst : IsAction result.action)
    (isSecond : IsAction other.action) (le : result.rank ≤ other.rank) (ge : other.rank ≤ result.rank) :
    result.score = other.score ∧ result.action = other.action := by
  have same := Prod.mk.inj (toLex.injective (le_antisymm le ge))
  exact ⟨same.2, action_eq_of_severity isFirst isSecond same.1⟩

end Scan

/-- A policy as a request brings it. -/
structure PolicyIn extends Policy where
  onUnscannable : List (String × String)

def unscannableMap (policies : List PolicyIn) : List (String × List (String × String)) :=
  policies.foldl (fun map policy => (policy.name, policy.onUnscannable) :: map) []

theorem unscannableMap_eq (policies : List PolicyIn) :
    unscannableMap policies =
      (policies.map fun policy => (policy.name, policy.onUnscannable)).reverse := by
  unfold unscannableMap
  induction policies using List.reverseRecOn with
  | nil => rfl
  | append_singleton front last ih => simp [ih]

theorem lookup_unscannableMap {policies : List PolicyIn}
    (distinctNames : (policies.map fun policy => policy.name).Nodup) {policy : PolicyIn}
    (mem : policy ∈ policies) :
    (unscannableMap policies).lookup policy.name = some policy.onUnscannable := by
  rw [unscannableMap_eq]
  obtain ⟨before, after, rfl⟩ := List.append_of_mem mem
  apply List.lookup_eq_some_iff.mpr
  refine ⟨(after.map fun policy => (policy.name, policy.onUnscannable)).reverse,
    (before.map fun policy => (policy.name, policy.onUnscannable)).reverse, by simp, ?_⟩
  intro entry entryMem
  obtain ⟨other, otherMem, rfl⟩ := List.mem_map.mp (List.mem_reverse.mp entryMem)
  rw [List.map_append, List.nodup_append] at distinctNames
  have new := (List.nodup_cons.mp distinctNames.2.1).1
  apply bne_iff_ne.mpr
  intro same
  exact new (List.mem_map.mpr ⟨other, otherMem, same.symm⟩)

/-- One policy of the loop of `scan_unscannable`. -/
def stricter (action : String) (asked : Option String) : String :=
  match asked with
  | none => action
  | some other =>
    if unscannableSeverity other > unscannableSeverity action then
      if other = "block" then "block" else "alert"
    else action

/-- The action is the strictest that is asked for. -/
structure Strictest (asked : List (Option String)) (action : String) : Prop where
  isAction : action ∈ ["allow", "alert", "block"]
  strongest : ∀ other, some other ∈ asked → unscannableSeverity other ≤ unscannableSeverity action
  mem : action = "allow" ∨
    ∃ other, some other ∈ asked ∧ unscannableSeverity other = unscannableSeverity action

theorem unscannableSeverity_stricter {action other : String}
    (stronger : unscannableSeverity other > unscannableSeverity action) :
    unscannableSeverity (if other = "block" then "block" else "alert") =
      unscannableSeverity other := by
  split_ifs with block
  · rw [block]
  · unfold unscannableSeverity at stronger ⊢
    split at stronger
    · exact absurd rfl block
    · rfl
    · omega

theorem Strictest.step {asked : List (Option String)} {action : String}
    (strictest : Strictest asked action) (last : Option String) :
    Strictest (asked ++ [last]) (stricter action last) := by
  have kept : action = "allow" ∨ ∃ other, some other ∈ asked ++ [last] ∧
      unscannableSeverity other = unscannableSeverity action := by
    rcases strictest.mem with nothing | ⟨other, mem, same⟩
    · exact .inl nothing
    · exact .inr ⟨other, List.mem_append_left _ mem, same⟩
  unfold stricter
  cases last with
  | none =>
    refine ⟨strictest.isAction, ?_, kept⟩
    intro other mem
    exact strictest.strongest other (by simpa using mem)
  | some other =>
    simp only
    by_cases stronger : unscannableSeverity other > unscannableSeverity action
    · rw [if_pos stronger]
      have same := unscannableSeverity_stricter stronger
      refine ⟨?_, ?_, .inr ⟨other, by simp, same.symm⟩⟩
      · split_ifs <;> simp
      · intro asker mem
        rw [same]
        rcases List.mem_append.mp mem with before | now
        · exact (strictest.strongest asker before).trans stronger.le
        · cases List.mem_singleton.mp now
          exact le_refl _
    · rw [if_neg stronger]
      refine ⟨strictest.isAction, ?_, kept⟩
      intro asker mem
      rcases List.mem_append.mp mem with before | now
      · exact strictest.strongest asker before
      · cases List.mem_singleton.mp now
        exact not_lt.mp stronger

theorem strictest_foldl (asked : List (Option String)) :
    Strictest asked (asked.foldl stricter "allow") := by
  induction asked using List.reverseRecOn with
  | nil => exact ⟨by simp, by simp, .inl rfl⟩
  | append_singleton front last ih =>
    rw [List.foldl_append]
    exact ih.step last

theorem unscannableAction_eq (scanner : Scanner) (reason : String) :
    scanner.unscannableAction reason =
      (scanner.policies.map fun policy =>
        (scanner.onUnscannable.lookup policy.name).bind (List.lookup reason)).foldl
          stricter "allow" := by
  rw [List.foldl_map]
  rfl

/-- The scanner that a request makes of its policies. -/
def scannerFor (cfg : Config) (ai : Option Ai) (policies : List PolicyIn) : Scanner where
  policies := policies.map fun policy => policy.toPolicy
  onUnscannable := unscannableMap policies
  cfg := cfg
  ai := ai

theorem strictest_unscannableAction (cfg : Config) (ai : Option Ai) {policies : List PolicyIn}
    (distinctNames : (policies.map fun policy => policy.name).Nodup) (reason : String) :
    Strictest (policies.map fun policy => policy.onUnscannable.lookup reason)
      ((scannerFor cfg ai policies).unscannableAction reason) := by
  rw [unscannableAction_eq]
  have asked : ((scannerFor cfg ai policies).policies.map fun policy =>
      ((scannerFor cfg ai policies).onUnscannable.lookup policy.name).bind (List.lookup reason)) =
        policies.map fun policy => policy.onUnscannable.lookup reason := by
    simp only [scannerFor, List.map_map]
    apply List.map_congr_left
    intro policy mem
    simp [lookup_unscannableMap distinctNames mem]
  rw [asked]
  exact strictest_foldl _

/--
An outcome is as strong as its action and then its score say.  As long as the weights of what a
policy finds add up within 64 bits, more findings and more policies make it no weaker, and one
policy's no weaker in its action nor lower in its score; the score is a percentage; and what comes
in another order has the same action and score.
-/
theorem scan_monotone (env : Primitives) (scales : env.ScalesDown) (cfg : Config)
    (ai : Option Ai) (filename contentType : List Char) :
    (∀ (policies more : List Policy) (text textMore : List Char)
        (externals externalsMore : List ExternalMatch),
      (∀ policy ∈ more, policy.NonNegative) → policies ⊆ more →
      (∀ policy ∈ policies, ownFindings env policy text filename ⊆
        ownFindings env policy textMore filename) →
      externals ⊆ externalsMore → Agreeing externalsMore →
      (∀ policy ∈ more, policy.Fits env textMore filename externalsMore) →
        (scan env cfg policies text filename contentType externals).rank ≤
            (scan env cfg more textMore filename contentType externalsMore).rank ∧
          ∀ policy ∈ policies,
            (scorePolicy env cfg policy text filename contentType externals).AtMost
              (scorePolicy env cfg policy textMore filename contentType externalsMore)) ∧
    (∀ (policies : List Policy) (text : List Char) (externals : List ExternalMatch),
      (∀ policy ∈ policies, policy.NonNegative) →
      (∀ policy ∈ policies, policy.Fits env text filename externals) →
        0 ≤ (scan env cfg policies text filename contentType externals).score ∧
          (scan env cfg policies text filename contentType externals).score ≤ 100) ∧
    (∀ (policies others : List Policy) (text textOther : List Char)
        (externals otherExternals : List ExternalMatch),
      (∀ policy ∈ policies, policy.NonNegative) → policies.Perm others →
      (∀ policy ∈ policies, (ownFindings env policy text filename).Perm
        (ownFindings env policy textOther filename)) →
      externals.Perm otherExternals → Agreeing externals →
      (∀ policy ∈ policies, policy.Fits env text filename externals) →
      (∀ policy ∈ others, policy.Fits env textOther filename otherExternals) →
        (scan env cfg policies text filename contentType externals).score =
            (scan env cfg others textOther filename contentType otherExternals).score ∧
          (scan env cfg policies text filename contentType externals).action =
            (scan env cfg others textOther filename contentType otherExternals).action) ∧
    ∀ (policies : List PolicyIn) (reason : String),
      (policies.map fun policy => policy.name).Nodup →
        Strictest (policies.map fun policy => policy.onUnscannable.lookup reason)
          ((scannerFor cfg ai policies).unscannableAction reason) := by
  refine ⟨?_, ?_, ?_, ?_⟩
  · intro policies more text textMore externals externalsMore nonneg policiesMore ownMore
      externalMore agreeing fits
    refine ⟨scan_rank_mono scales nonneg policiesMore ownMore externalMore agreeing fits, ?_⟩
    intro policy mem
    exact scorePolicy_atMost scales (nonneg policy (policiesMore mem)) (ownMore policy mem)
      externalMore agreeing (fits policy (policiesMore mem))
  · intro policies text externals nonneg fits
    exact scan_bounds nonneg fits
  · intro policies others text textOther externals otherExternals nonneg permuted findings
      externalPerm agreeing fits otherFits
    have otherNonneg : ∀ policy ∈ others, policy.NonNegative := fun policy mem =>
      nonneg policy (permuted.mem_iff.mpr mem)
    have otherAgreeing : Agreeing otherExternals := by
      intro first firstMem second secondMem
      exact agreeing first (externalPerm.mem_iff.mpr firstMem) second
        (externalPerm.mem_iff.mpr secondMem)
    apply eq_of_rank_eq scan_isAction scan_isAction
    · exact scan_rank_mono scales otherNonneg permuted.subset
        (fun policy mem => (findings policy mem).subset) externalPerm.subset otherAgreeing otherFits
    · exact scan_rank_mono scales nonneg permuted.symm.subset
        (fun policy mem => (findings policy (permuted.mem_iff.mpr mem)).symm.subset)
          externalPerm.symm.subset agreeing fits
  · intro policies reason distinctNames
    exact strictest_unscannableAction cfg ai distinctNames reason

def payroll (action : String) (weight : ℤ) : Policy where
  name := "Payroll"
  action := action
  detectors := []
  keywords := ["salary".toList]
  customPatterns := []
  bypassFileTypes := []
  detectorWeights := [("keyword", weight)]
  blockThreshold := none
  alertThreshold := none
  priority := 0

def defaultThresholds : Config := ⟨80, 50⟩

theorem payroll_scores :
    (scan plain defaultThresholds [payroll "alert" 95] "salary".toList [] [] []).score = 95 ∧
      (scan plain defaultThresholds [payroll "alert" 95, payroll "block" 80] "salary".toList
        [] [] []).score = 80 := by
  decide +kernel

/-- An outcome that blocks is stronger than one that alerts with a higher score. -/
theorem not_score_monotone :
    ¬∀ policies more : List Policy, (∀ policy ∈ more, policy.NonNegative) → policies ⊆ more →
      (scan plain defaultThresholds policies "salary".toList [] [] []).score ≤
        (scan plain defaultThresholds more "salary".toList [] [] []).score := by
  intro monotone
  have nonneg : ∀ policy ∈ [payroll "alert" 95, payroll "block" 80], policy.NonNegative := by
    simp [Policy.NonNegative, payroll]
  have le := monotone [payroll "alert" 95] [payroll "alert" 95, payroll "block" 80] nonneg (by simp)
  rw [payroll_scores.1, payroll_scores.2] at le
  omega

theorem scalesDown_plain : plain.ScalesDown := by
  intro weight confidence nonneg _ _ small
  have share : weight * confidence ≤ weight * 100 := Int.mul_le_mul_of_nonneg_left small nonneg
  have same : 2 * weight * confidence = 2 * (weight * confidence) := Int.mul_assoc 2 weight confidence
  simp only [plain, same]
  omega

theorem scan_monotone_payroll :
    (scan plain defaultThresholds [payroll "alert" 95] "salary".toList [] [] []).rank ≤
      (scan plain defaultThresholds [payroll "alert" 95, payroll "block" 80] "salary".toList
        [] [] []).rank := by
  refine ((scan_monotone plain scalesDown_plain defaultThresholds none [] []).1
    [payroll "alert" 95] [payroll "alert" 95, payroll "block" 80] "salary".toList "salary".toList
      [] [] ?_ ?_ ?_ ?_ ?_ ?_).1
  · simp [Policy.NonNegative, payroll]
  · simp
  · intro policy _
    exact List.Subset.refl _
  · exact List.Subset.refl _
  · simp [Agreeing]
  · intro policy mem
    rcases List.mem_pair.mp mem with rfl | rfl
    · rw [Policy.Fits]
      decide +kernel
    · rw [Policy.Fits]
      decide +kernel

end Aavishield.Dlp
