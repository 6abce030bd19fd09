import Aavishield.Dlp.Scoring
import Mathlib.Algebra.Order.BigOperators.Group.List
import Mathlib.Algebra.Order.Ring.Int

/-!
# What more findings change

A score is made of the findings that are left after repetitions are dropped.  More findings never
make the outcome of a policy weaker.
-/

namespace Aavishield.Dlp

open Text

section Aggregate

variable {weights more : List ℤ} {combo comboMore : Bool}

def bonusFor (contextCombo : Bool) : ℤ := if contextCombo then contextBonus else 0

/-- The weights are not negative and add up within 64 bits. -/
structure Adds (weights : List ℤ) : Prop where
  nonneg : ∀ weight ∈ weights, 0 ≤ weight
  narrow : weights.sum < 2 ^ 63

theorem aggregate_eq (combo : Bool) (nonempty : weights ≠ []) (adds : Adds weights) :
    ∃ heaviest ∈ weights, (∀ weight ∈ weights, weight ≤ heaviest) ∧
      aggregate weights combo =
        min ((2 * (3 * heaviest + 2 * weights.sum + 5 * bonusFor combo) + 5) / 10) 100 := by
  have perm := List.perm_insertionSort (· ≥ ·) weights
  have sorted := List.pairwise_insertionSort (· ≥ ·) weights
  unfold aggregate
  cases ordered : weights.insertionSort (· ≥ ·) with
  | nil =>
    rw [ordered] at perm
    exact absurd perm.symm.eq_nil nonempty
  | cons heaviest others =>
    rw [ordered] at perm sorted
    refine ⟨heaviest, perm.mem_iff.mp List.mem_cons_self, ?_, ?_⟩
    · intro weight mem
      rcases List.mem_cons.mp (perm.mem_iff.mpr mem) with rfl | mem
      · exact le_refl _
      · exact List.rel_of_pairwise_cons sorted mem
    · have total : heaviest + others.sum = weights.sum := by
        rw [← perm.sum_eq, List.sum_cons]
      have first := adds.nonneg heaviest (perm.mem_iff.mp List.mem_cons_self)
      have rest : 0 ≤ others.sum := List.sum_nonneg fun weight mem =>
        adds.nonneg weight (perm.mem_iff.mp (List.mem_cons_of_mem _ mem))
      have narrow := adds.narrow
      have unwrapped : others.sum.bmod (2 ^ 64) = others.sum :=
        Int.bmod_eq_of_le (by omega) (by omega)
      unfold bonusFor
      simp only [unwrapped]
      split_ifs <;> congr 3 <;> omega

theorem aggregate_le : aggregate weights combo ≤ 100 := by
  unfold aggregate
  split
  · omega
  · exact min_le_right _ _

theorem aggregate_nonneg (adds : Adds weights) : 0 ≤ aggregate weights combo := by
  by_cases nonempty : weights = []
  · simp [nonempty, aggregate]
  · obtain ⟨heaviest, mem, -, same⟩ := aggregate_eq combo nonempty adds
    have first := adds.nonneg heaviest mem
    have total := List.sum_nonneg adds.nonneg
    have bonus : 0 ≤ bonusFor combo := by cases combo <;> decide
    rw [same]
    omega

theorem aggregate_of_heavy {weight : ℤ} (mem : weight ∈ weights) (heavy : 100 ≤ weight)
    (adds : Adds weights) : aggregate weights combo = 100 := by
  obtain ⟨heaviest, heaviestMem, heaviestMax, same⟩ :=
    aggregate_eq combo (List.ne_nil_of_mem mem) adds
  have first := heaviestMax weight mem
  have total := List.single_le_sum adds.nonneg heaviest heaviestMem
  have bonus : 0 ≤ bonusFor combo := by cases combo <;> decide
  rw [same]
  omega

theorem aggregate_mono (nonempty : weights ≠ []) (adds : Adds weights) (addsMore : Adds more)
    (heavier : ∀ weight ∈ weights, ∃ other ∈ more, weight ≤ other)
    (total : weights.sum ≤ more.sum) (combined : combo = true → comboMore = true) :
    aggregate weights combo ≤ aggregate more comboMore := by
  obtain ⟨heaviest, mem, -, same⟩ := aggregate_eq combo nonempty adds
  obtain ⟨other, otherMem, le⟩ := heavier heaviest mem
  obtain ⟨heaviestMore, -, max, sameMore⟩ :=
    aggregate_eq comboMore (List.ne_nil_of_mem otherMem) addsMore
  have bonus : bonusFor combo ≤ bonusFor comboMore := by
    cases combo with
    | true => rw [combined rfl]
    | false => cases comboMore <;> decide
  have first := le.trans (max other otherMem)
  rw [same, sameMore]
  omega

end Aggregate

def Match.value (found : Match) : String × List Char := (found.detector, found.key)

section Distinct

variable {seen : List (String × List Char)} {raw more : List Match} {found : Match}

theorem distinct_sublist : (distinct seen raw).Sublist raw := by
  induction raw generalizing seen with
  | nil => exact List.Sublist.refl _
  | cons first rest ih =>
    rw [distinct]
    split_ifs
    · exact ih.cons _
    · exact ih.cons_cons _

theorem value_notMem_seen (mem : found ∈ distinct seen raw) : found.value ∉ seen := by
  induction raw generalizing seen with
  | nil => simp [distinct] at mem
  | cons first rest ih =>
    rw [distinct] at mem
    split_ifs at mem with repeated
    · exact ih mem
    · rcases List.mem_cons.mp mem with rfl | mem
      · exact repeated
      · exact fun inSeen => ih mem (List.mem_cons_of_mem _ inSeen)

theorem distinct_nodup : ((distinct seen raw).map Match.value).Nodup := by
  induction raw generalizing seen with
  | nil => simp [distinct]
  | cons first rest ih =>
    rw [distinct]
    split_ifs
    · exact ih
    · rw [List.map_cons, List.nodup_cons]
      refine ⟨?_, ih⟩
      intro repeated
      rcases List.mem_map.mp repeated with ⟨other, otherMem, same⟩
      exact value_notMem_seen otherMem (same ▸ List.mem_cons_self)

theorem exists_mem_distinct (mem : found ∈ raw) (new : found.value ∉ seen) :
    ∃ kept ∈ distinct seen raw, kept.value = found.value := by
  induction raw generalizing seen with
  | nil => simp at mem
  | cons first rest ih =>
    rw [distinct]
    by_cases repeated : (first.detector, first.key) ∈ seen
    · rw [if_pos repeated]
      rcases List.mem_cons.mp mem with rfl | mem
      · exact absurd repeated new
      · exact ih mem new
    · rw [if_neg repeated]
      by_cases same : found.value = first.value
      · exact ⟨first, List.mem_cons_self, same.symm⟩
      · rcases List.mem_cons.mp mem with rfl | mem
        · exact absurd rfl same
        · have fresh : found.value ∉ first.value :: seen :=
            List.not_mem_cons_of_ne_of_not_mem same new
          obtain ⟨kept, keptMem, sameValue⟩ := ih mem fresh
          exact ⟨kept, List.mem_cons_of_mem _ keptMem, sameValue⟩

theorem mem_front_of_distinct {front back : List Match} (mem : found ∈ distinct seen (front ++ back))
    {first : Match} (firstMem : first ∈ front) (same : first.value = found.value) :
    found ∈ front := by
  induction front generalizing seen with
  | nil => simp at firstMem
  | cons head rest ih =>
    rw [List.cons_append, distinct] at mem
    split_ifs at mem with repeated
    · rcases List.mem_cons.mp firstMem with rfl | firstMem
      · exact absurd (same ▸ repeated) (value_notMem_seen mem)
      · exact List.mem_cons_of_mem _ (ih mem firstMem)
    · rcases List.mem_cons.mp mem with rfl | mem
      · exact List.mem_cons_self
      · rcases List.mem_cons.mp firstMem with rfl | firstMem
        · exact absurd (same ▸ List.mem_cons_self) (value_notMem_seen mem)
        · exact List.mem_cons_of_mem _ (ih mem firstMem)

def Outweighed (few many : List Match) : Prop :=
  ∀ found ∈ few, ∃ other ∈ many, other.value = found.value ∧ found.weight ≤ other.weight

theorem Outweighed.sum_le {few many : List Match} (outweighed : Outweighed few many)
    (fewNodup : (few.map Match.value).Nodup) (nonneg : ∀ found ∈ many, 0 ≤ found.weight) :
    (few.map Match.weight).sum ≤ (many.map Match.weight).sum := by
  induction few generalizing many with
  | nil => simpa using List.sum_nonneg (by simpa using nonneg)
  | cons first rest ih =>
    obtain ⟨firstNew, restNodup⟩ := List.nodup_cons.mp fewNodup
    obtain ⟨other, otherMem, same, le⟩ := outweighed first List.mem_cons_self
    obtain ⟨before, after, rfl⟩ := List.append_of_mem otherMem
    have others : Outweighed rest (before ++ after) := by
      intro found mem
      obtain ⟨partner, partnerMem, partnerSame, partnerLe⟩ :=
        outweighed found (List.mem_cons_of_mem _ mem)
      have differs : partner ≠ other := by
        rintro rfl
        exact firstNew (List.mem_map.mpr ⟨found, mem, partnerSame.symm.trans same⟩)
      refine ⟨partner, ?_, partnerSame, partnerLe⟩
      simpa [differs] using partnerMem
    have rest_le := ih others restNodup fun found mem => nonneg found (by
      rcases List.mem_append.mp mem with inFront | inBack <;> simp [*])
    simp only [List.map_cons, List.map_append, List.sum_cons, List.sum_append] at rest_le ⊢
    omega

end Distinct

section Findings

variable (env : Primitives) (cfg : Config)

/-- What the policy itself finds, without the classifier. -/
def ownFindings (policy : Policy) (text filename : List Char) : List Match :=
  policy.detectors.flatMap (runDetector env policy text filename) ++
    detectKeywords env text policy.keywords (policy.weightFor "keyword") ++
    detectCustomPatterns env text policy.customPatterns (policy.weightFor "custom_regex")

def Policy.NonNegative (policy : Policy) : Prop := ∀ entry ∈ policy.detectorWeights, 0 ≤ entry.2

/-- Findings that are told apart by nothing have one confidence. -/
def Agreeing (externals : List ExternalMatch) : Prop :=
  ∀ first ∈ externals, ∀ second ∈ externals, first.detector = second.detector →
    first.preview = second.preview → first.confidence = second.confidence

/-- A confidence never adds to a weight. -/
def Primitives.ScalesDown : Prop :=
  ∀ weight confidence, 0 ≤ weight → weight ≤ 100 → 0 ≤ confidence → confidence ≤ 100 →
    env.scaled weight confidence ≤ weight

variable {env cfg} {policy : Policy} {text filename contentType : List Char}
  {externals : List ExternalMatch} {found : Match}

theorem runDetectors_eq :
    runDetectors env policy text filename externals =
      distinct [] (ownFindings env policy text filename ++
        externals.filterMap (externalMatch env policy)) := rfl

theorem weightFor_nonneg (nonneg : policy.NonNegative) (detector : String) :
    0 ≤ policy.weightFor detector := by
  unfold Policy.weightFor
  cases entry : policy.detectorWeights.lookup detector with
  | some weight =>
    obtain ⟨before, after, split, -⟩ := List.lookup_eq_some_iff.mp entry
    exact nonneg (detector, weight) (by simp [split])
  | none =>
    simp only [Option.getD_none, defaultWeight]
    split <;> decide

/-- The weights of what a policy finds add up within 64 bits. -/
def Policy.Fits (env : Primitives) (policy : Policy) (text filename : List Char)
    (externals : List ExternalMatch) : Prop :=
  ((runDetectors env policy text filename externals).map Match.weight).sum < 2 ^ 63

def Match.IsOf (found : Match) (detector : String) (weight : ℤ) : Prop :=
  found.detector = detector ∧ found.weight = weight

theorem isOf_of_mem_filterMap {Source : Type} {detector : String} {weight : ℤ}
    {sources : List Source} {read : Source → Option Match} (mem : found ∈ sources.filterMap read)
    (reads : ∀ source, ∀ other ∈ read source, other.IsOf detector weight) :
    found.IsOf detector weight := by
  obtain ⟨source, -, isRead⟩ := List.mem_filterMap.mp mem
  exact reads source found isRead

theorem weight_of_mem_runDetector {detector : String}
    (mem : found ∈ runDetector env policy text filename detector) :
    found.IsOf detector (policy.weightFor detector) := by
  unfold runDetector at mem
  split at mem
  case h_1 | h_3 | h_4 | h_6 =>
    apply isOf_of_mem_filterMap mem
    intro source other isRead
    simp only [Option.mem_def] at isRead
    split_ifs at isRead
    cases isRead
    exact ⟨rfl, rfl⟩
  case h_2 =>
    apply isOf_of_mem_filterMap mem
    intro source other isRead
    simp only [Option.mem_def, Option.ite_none_right_eq_some] at isRead
    obtain ⟨-, isRead⟩ := isRead
    cases isRead
    exact ⟨rfl, rfl⟩
  case h_5 =>
    obtain ⟨source, -, rfl⟩ := List.mem_map.mp mem
    exact ⟨rfl, rfl⟩
  case h_7 =>
    unfold detectSourceCode at mem
    simp only at mem
    split_ifs at mem
    · rw [List.mem_singleton.mp mem]
      exact ⟨rfl, rfl⟩
    · cases mem
  case h_8 => cases mem

theorem weight_of_mem_ownFindings (mem : found ∈ ownFindings env policy text filename) :
    found.weight = policy.weightFor found.detector := by
  unfold ownFindings at mem
  rw [List.mem_append, List.mem_append] at mem
  rcases mem with (builtin | keyword) | custom
  · obtain ⟨detector, -, inDetector⟩ := List.mem_flatMap.mp builtin
    obtain ⟨rfl, weight⟩ := weight_of_mem_runDetector inDetector
    exact weight
  · unfold detectKeywords at keyword
    obtain ⟨word, -, isMatch⟩ := List.mem_filterMap.mp keyword
    simp only [Option.ite_none_right_eq_some, Option.some.injEq] at isMatch
    rw [← isMatch.2]
  · unfold detectCustomPatterns at custom
    obtain ⟨pattern, -, isMatch⟩ := List.mem_filterMap.mp custom
    obtain ⟨regex, -, isMatch⟩ := Option.bind_eq_some_iff.mp isMatch
    simp only [Option.ite_none_right_eq_some, Option.some.injEq] at isMatch
    rw [← isMatch.2]

theorem of_externalMatch {external : ExternalMatch}
    (isMatch : externalMatch env policy external = some found) :
    found.value = (external.detector, external.preview) ∧ 0 < found.weight ∧
      found.weight =
        env.scaled (policy.weightFor external.detector) (max 0 (min external.confidence 100)) := by
  unfold externalMatch at isMatch
  simp only at isMatch
  split_ifs at isMatch with unknown light unlabelled
  all_goals
    cases isMatch
    exact ⟨rfl, not_le.mp light, rfl⟩

theorem weight_nonneg (nonneg : policy.NonNegative)
    (mem : found ∈ runDetectors env policy text filename externals) : 0 ≤ found.weight := by
  rw [runDetectors_eq] at mem
  rcases List.mem_append.mp (distinct_sublist.subset mem) with own | external
  · rw [weight_of_mem_ownFindings own]
    exact weightFor_nonneg nonneg _
  · obtain ⟨source, -, isMatch⟩ := List.mem_filterMap.mp external
    exact (of_externalMatch isMatch).2.1.le

theorem adds_runDetectors (nonneg : policy.NonNegative)
    (fits : policy.Fits env text filename externals) :
    Adds ((runDetectors env policy text filename externals).map Match.weight) := by
  refine ⟨?_, fits⟩
  intro weight mem
  obtain ⟨found, foundMem, rfl⟩ := List.mem_map.mp mem
  exact weight_nonneg nonneg foundMem

section More

variable {textMore : List Char} {externalsMore : List ExternalMatch}
  (nonneg : policy.NonNegative)
  (ownMore : ownFindings env policy text filename ⊆
    ownFindings env policy textMore filename)

omit nonneg in
include ownMore in
theorem subset_raw (externalMore : externals ⊆ externalsMore) :
    ownFindings env policy text filename ++
        externals.filterMap (externalMatch env policy) ⊆
      ownFindings env policy textMore filename ++
        externalsMore.filterMap (externalMatch env policy) := by
  intro found mem
  rcases List.mem_append.mp mem with own | external
  · exact List.mem_append_left _ (ownMore own)
  · obtain ⟨source, sourceMem, isMatch⟩ := List.mem_filterMap.mp external
    exact List.mem_append_right _ (List.mem_filterMap.mpr ⟨source, externalMore sourceMem, isMatch⟩)

include nonneg ownMore in
theorem outweighed_runDetectors (scales : env.ScalesDown)
    (externalMore : externals ⊆ externalsMore) (agreeing : Agreeing externalsMore)
    (light : ∀ found ∈ ownFindings env policy textMore filename, found.weight ≤ 100) :
    Outweighed (runDetectors env policy text filename externals)
      (runDetectors env policy textMore filename externalsMore) := by
  intro found mem
  rw [runDetectors_eq] at mem ⊢
  have inRaw := distinct_sublist.subset mem
  obtain ⟨kept, keptMem, same⟩ :=
    exists_mem_distinct (subset_raw ownMore externalMore inRaw) (List.not_mem_nil)
  refine ⟨kept, keptMem, same, ?_⟩
  have sameDetector : kept.detector = found.detector := congrArg Prod.fst same
  rcases List.mem_append.mp inRaw with own | external
  · have keptOwn := mem_front_of_distinct keptMem (ownMore own) same.symm
    rw [weight_of_mem_ownFindings own, weight_of_mem_ownFindings keptOwn, sameDetector]
  · obtain ⟨source, sourceMem, isMatch⟩ := List.mem_filterMap.mp external
    obtain ⟨value, -, weight⟩ := of_externalMatch isMatch
    rcases List.mem_append.mp (distinct_sublist.subset keptMem) with keptOwn | keptExternal
    · have keptLight := light kept keptOwn
      have detector : found.detector = source.detector := congrArg Prod.fst value
      rw [weight_of_mem_ownFindings keptOwn, sameDetector, detector] at keptLight ⊢
      rw [weight]
      exact scales _ _ (weightFor_nonneg nonneg _) keptLight (by omega) (by omega)
    · obtain ⟨other, otherMem, isOther⟩ := List.mem_filterMap.mp keptExternal
      obtain ⟨otherValue, -, otherWeight⟩ := of_externalMatch isOther
      obtain ⟨detectors, previews⟩ := Prod.mk.inj (otherValue.symm.trans (same.trans value))
      have confidences := agreeing other otherMem source (externalMore sourceMem) detectors previews
      rw [weight, otherWeight, detectors, confidences]

end More

end Findings

theorem bandSeverity_mono {score more blockThreshold alertThreshold : ℤ} (le : score ≤ more) :
    bandSeverity (bandFor score blockThreshold alertThreshold) ≤
      bandSeverity (bandFor more blockThreshold alertThreshold) := by
  unfold bandFor
  split_ifs
  all_goals first | omega | simp [bandSeverity]

theorem actionSeverity_severityAction {severity : ℤ} (low : 0 ≤ severity) (high : severity ≤ 3) :
    actionSeverity (severityAction severity) = severity := by
  unfold severityAction
  split_ifs with block alert log
  · exact block.symm
  · exact alert.symm
  · exact log.symm
  · have : severity = 0 := by omega
    exact this.symm

theorem bandSeverity_bounds (band : String) : 0 ≤ bandSeverity band ∧ bandSeverity band ≤ 3 := by
  unfold bandSeverity
  split <;> decide

theorem actionSeverity_bounds (action : String) :
    0 ≤ actionSeverity action ∧ actionSeverity action ≤ 3 := by
  unfold actionSeverity
  split <;> decide

theorem actionSeverity_effectiveAction (band policyAction : String) :
    actionSeverity (effectiveAction band policyAction) =
      min (bandSeverity band)
        (if policyAction ∈ ["block", "alert", "log", "allow"] then actionSeverity policyAction
          else 3) := by
  have := bandSeverity_bounds band
  have := actionSeverity_bounds policyAction
  unfold effectiveAction
  apply actionSeverity_severityAction
  · split_ifs <;> omega
  · omega

def IsAction (action : String) : Prop := action ∈ ["block", "alert", "log", "allow"]

theorem isAction_effectiveAction (band policyAction : String) :
    IsAction (effectiveAction band policyAction) := by
  unfold effectiveAction severityAction
  simp only
  split_ifs <;> simp [IsAction]

theorem action_eq_of_severity {first second : String} (isFirst : IsAction first)
    (isSecond : IsAction second) (same : actionSeverity first = actionSeverity second) :
    first = second := by
  simp only [IsAction, List.mem_cons, List.not_mem_nil, or_false] at isFirst isSecond
  rcases isFirst with rfl | rfl | rfl | rfl <;> rcases isSecond with rfl | rfl | rfl | rfl <;>
    simp [actionSeverity] at same ⊢

section Outcome

variable {env : Primitives} {cfg : Config} {policy : Policy}
  {text textMore filename contentType : List Char} {externals externalsMore : List ExternalMatch}

def scoreFindings (cfg : Config) (policy : Policy) (found : List Match) : PolicyResult :=
  let (blockThreshold, alertThreshold) := policy.thresholds cfg
  let hasStructured := (found.map Match.detector).any (· ∈ structuredDetectors)
  let hasKeyword := (found.map Match.detector).any (· ∈ ["keyword", "custom_regex"])
  let score := aggregate (found.map Match.weight) (hasStructured && hasKeyword)
  let band := bandFor score blockThreshold alertThreshold
  { matched := true, score := score, band := band,
    action := effectiveAction band policy.action, policyName := policy.name, found := found,
    blockThreshold := blockThreshold, alertThreshold := alertThreshold }

theorem scorePolicy_eq :
    scorePolicy env cfg policy text filename contentType externals =
      if policy.bypasses env filename contentType = true ∨
          runDetectors env policy text filename externals = [] then
        .empty policy.name (policy.thresholds cfg).1 (policy.thresholds cfg).2
      else scoreFindings cfg policy (runDetectors env policy text filename externals) := by
  unfold scorePolicy scoreFindings
  by_cases bypassed : policy.bypasses env filename contentType = true
  · simp [bypassed]
  · by_cases nothing : runDetectors env policy text filename externals = []
    · simp [bypassed, nothing]
    · simp [bypassed, nothing]

/-- The result is no stronger than the other. -/
structure PolicyResult.AtMost (result other : PolicyResult) : Prop where
  matched : result.matched = true → other.matched = true
  score : result.score ≤ other.score
  action : actionSeverity result.action ≤ actionSeverity other.action

variable {few many : List Match}

theorem any_detector_mono (outweighed : Outweighed few many)
    {kinds : List String} (has : (few.map Match.detector).any (· ∈ kinds) = true) :
    (many.map Match.detector).any (· ∈ kinds) = true := by
  simp only [List.any_map, List.any_eq_true, Function.comp_apply] at has ⊢
  obtain ⟨found, mem, isKind⟩ := has
  obtain ⟨other, otherMem, same, -⟩ := outweighed found mem
  have sameDetector : other.detector = found.detector := congrArg Prod.fst same
  exact ⟨other, otherMem, sameDetector ▸ isKind⟩

theorem scoreFindings_atMost
    (score : (scoreFindings cfg policy few).score ≤ (scoreFindings cfg policy many).score) :
    (scoreFindings cfg policy few).AtMost (scoreFindings cfg policy many) := by
  refine ⟨fun _ => rfl, score, ?_⟩
  have band : bandSeverity (scoreFindings cfg policy few).band ≤
      bandSeverity (scoreFindings cfg policy many).band := bandSeverity_mono score
  change actionSeverity (effectiveAction (scoreFindings cfg policy few).band policy.action) ≤
    actionSeverity (effectiveAction (scoreFindings cfg policy many).band policy.action)
  rw [actionSeverity_effectiveAction, actionSeverity_effectiveAction]
  exact min_le_min_right _ band

theorem score_scoreFindings_mono (nonempty : few ≠ [])
    (nodup : (few.map Match.value).Nodup) (outweighed : Outweighed few many)
    (nonneg : ∀ found ∈ few, 0 ≤ found.weight) (adds : Adds (many.map Match.weight)) :
    (scoreFindings cfg policy few).score ≤ (scoreFindings cfg policy many).score := by
  have total : (few.map Match.weight).sum ≤ (many.map Match.weight).sum :=
    outweighed.sum_le nodup fun found mem => adds.nonneg _ (List.mem_map_of_mem mem)
  apply aggregate_mono
  · simpa using nonempty
  · refine ⟨?_, total.trans_lt adds.narrow⟩
    intro weight mem
    obtain ⟨found, foundMem, rfl⟩ := List.mem_map.mp mem
    exact nonneg found foundMem
  · exact adds
  · intro weight mem
    obtain ⟨found, foundMem, rfl⟩ := List.mem_map.mp mem
    obtain ⟨other, otherMem, -, le⟩ := outweighed found foundMem
    exact ⟨other.weight, List.mem_map_of_mem otherMem, le⟩
  · exact total
  · intro both
    rw [Bool.and_eq_true] at both ⊢
    exact ⟨any_detector_mono outweighed both.1, any_detector_mono outweighed both.2⟩

theorem scorePolicy_le : (scorePolicy env cfg policy text filename contentType
    externals).score ≤ 100 := by
  rw [scorePolicy_eq]
  split_ifs
  · simp [PolicyResult.empty]
  · exact aggregate_le

theorem scorePolicy_bounds (nonneg : policy.NonNegative)
    (fits : policy.Fits env text filename externals) :
    0 ≤ (scorePolicy env cfg policy text filename contentType externals).score ∧
      (scorePolicy env cfg policy text filename contentType externals).score ≤ 100 := by
  refine ⟨?_, scorePolicy_le⟩
  rw [scorePolicy_eq]
  split_ifs
  · exact le_refl _
  · exact aggregate_nonneg (adds_runDetectors nonneg fits)

theorem scorePolicy_isAction :
    IsAction (scorePolicy env cfg policy text filename contentType externals).action := by
  rw [scorePolicy_eq]
  split_ifs
  · simp [PolicyResult.empty, IsAction]
  · exact isAction_effectiveAction _ _

theorem scorePolicy_atMost (scales : env.ScalesDown) (nonneg : policy.NonNegative)
    (ownMore : ownFindings env policy text filename ⊆
      ownFindings env policy textMore filename)
    (externalMore : externals ⊆ externalsMore) (agreeing : Agreeing externalsMore)
    (fits : policy.Fits env textMore filename externalsMore) :
    (scorePolicy env cfg policy text filename contentType externals).AtMost
      (scorePolicy env cfg policy textMore filename contentType externalsMore) := by
  by_cases silent : policy.bypasses env filename contentType = true ∨
      runDetectors env policy text filename externals = []
  · refine ⟨?_, ?_, ?_⟩
    · rw [scorePolicy_eq, if_pos silent]
      exact fun matched => Bool.noConfusion matched
    · rw [scorePolicy_eq, if_pos silent]
      exact (scorePolicy_bounds nonneg fits).1
    · rw [scorePolicy_eq, if_pos silent]
      exact (actionSeverity_bounds _).1
  · obtain ⟨notBypassed, nonempty⟩ := not_or.mp silent
    have someMore : runDetectors env policy textMore filename externalsMore ≠ [] := by
      obtain ⟨found, mem⟩ := List.exists_mem_of_ne_nil _ nonempty
      rw [runDetectors_eq] at mem ⊢
      obtain ⟨kept, keptMem, -⟩ := exists_mem_distinct
        (subset_raw ownMore externalMore (distinct_sublist.subset mem)) List.not_mem_nil
      exact List.ne_nil_of_mem keptMem
    rw [scorePolicy_eq, if_neg silent, scorePolicy_eq, if_neg (not_or.mpr ⟨notBypassed, someMore⟩)]
    apply scoreFindings_atMost
    by_cases light : ∀ found ∈ ownFindings env policy textMore filename, found.weight ≤ 100
    · exact score_scoreFindings_mono nonempty (runDetectors_eq ▸ distinct_nodup)
        (outweighed_runDetectors nonneg ownMore scales externalMore agreeing light)
        (fun found mem => weight_nonneg nonneg mem) (adds_runDetectors nonneg fits)
    · -- one finding alone makes the highest score
      push Not at light
      obtain ⟨heavy, heavyMem, heavyWeight⟩ := light
      obtain ⟨kept, keptMem, same⟩ := exists_mem_distinct
        (List.mem_append_left (externalsMore.filterMap (externalMatch env policy)) heavyMem)
        List.not_mem_nil
      have keptOwn := mem_front_of_distinct keptMem heavyMem same.symm
      have sameDetector : kept.detector = heavy.detector := congrArg Prod.fst same
      have keptHeavy : 100 ≤ kept.weight := by
        rw [weight_of_mem_ownFindings heavyMem] at heavyWeight
        rw [weight_of_mem_ownFindings keptOwn, sameDetector]
        exact heavyWeight.le
      have full : (scoreFindings cfg policy
          (runDetectors env policy textMore filename externalsMore)).score = 100 := by
        exact aggregate_of_heavy (List.mem_map_of_mem keptMem) keptHeavy
          (adds_runDetectors nonneg fits)
      rw [full]
      exact aggregate_le

end Outcome

end Aavishield.Dlp
