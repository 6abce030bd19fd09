import Aavishield.Lib.Differences
import Aavishield.Policy.RiskEngine

/-!
# Verdicts of the platform

Whether the rules of organisations steer what the worker does for all of them.
-/

namespace Aavishield.RiskEngine

open Differences
open DomainRules (DomainRule)

inductive Agree (db : Database) : Database → Prop where
  | rules {rules : List Rule} (same : SameBut (fun rule => rule.orgID ≠ none) db.rules rules) :
      Agree db { db with rules }

section Statement

variable (env : Primitives) (place : List Rule → ℕ)

/-- Rules of organisations change nothing of a tick. -/
def Unsteered (db : Database) : Prop :=
  ∀ db', Agree db db' → (tick env place db').1 = (tick env place db).1

structure Covered (counts : Rule → Prop) (db : Database) : Prop where
  recent : ∀ domain ∈ db.visited,
    (∃ rule ∈ db.rules, counts rule ∧ rule.domain = domain ∧ rule.enabled = true) ∨
      ∃ row ∈ db.assessments, row.domain = domain ∧ db.now - hour ≤ row.assessedAt
  tenants : db.scanIsDue = true → ∀ domain ∈ candidates env db,
    (∃ rule ∈ db.rules, counts rule ∧ rule.domain = domain ∧ rule.enabled = true ∧
        rule.deleted = false) ∨
      ∃ row ∈ db.assessments, row.domain = domain ∧ db.now - hour ≤ row.assessedAt ∧
        row.deleted = false

/-- Every domain has a rule of the platform or a recent assessment. -/
def Settled (db : Database) : Prop := Covered env (fun rule => rule.orgID = none) db

end Statement

variable {env : Primitives} {place : List Rule → ℕ} {db db' : Database}
variable {counts : Rule → Prop}

theorem lowered_of_mem_candidates {domain : List Char} (mem : domain ∈ candidates env db) :
    lowered env domain = domain := by
  simp only [candidates, List.mem_eraseDups, List.mem_map] at mem
  rcases mem with ⟨key, -, rfl⟩
  simp [lowered, Function.comp_def, env.lower_lower]

theorem arrange_eq_nil {values : List (List Char)} : env.arrange values = [] ↔ values = [] := by
  rw [← List.length_eq_zero_iff, (env.arrange_perm values).length_eq, List.length_eq_zero_iff]

theorem unassessedRecentDomains_eq_nil :
    unassessedRecentDomains env db = [] ↔
      ∀ domain ∈ db.visited,
        (∃ rule ∈ db.rules, rule.domain = domain ∧ rule.enabled = true) ∨
          ∃ row ∈ db.assessments, row.domain = domain ∧ db.now - hour ≤ row.assessedAt := by
  have someLeft : (200 : ℕ) ≠ 0 := by omega
  simp only [unassessedRecentDomains, List.take_eq_nil_iff, someLeft, false_or, arrange_eq_nil,
    List.filter_eq_nil_iff, Bool.and_eq_true, Bool.not_eq_true', not_and_or, Bool.not_eq_false,
    List.any_eq_true, beq_iff_eq, decide_eq_true_eq]

theorem map_lowered_skip :
    (ruled env db ++ assessed env db).map (lowered env) =
      ruled env db ++ assessed env db := by
  have same : ∀ domain ∈ ruled env db ++ assessed env db,
      lowered env domain = domain := by
    intro domain mem
    apply lowered_of_mem_candidates 
    simp only [ruled, assessed, List.mem_append, List.mem_map, List.mem_filter, Bool.and_eq_true,
      decide_eq_true_eq] at mem
    rcases mem with ⟨rule, ⟨-, -, listed⟩, rfl⟩ | ⟨row, ⟨-, -, listed⟩, rfl⟩ <;> exact listed
  exact (List.map_congr_left same).trans (List.map_id _)

theorem mem_skip {domain : List Char} (mem : domain ∈ candidates env db) :
    domain ∈ ruled env db ++ assessed env db ↔
      (∃ rule ∈ db.rules, rule.domain = domain ∧ rule.enabled = true ∧ rule.deleted = false) ∨
        ∃ row ∈ db.assessments, row.domain = domain ∧ db.now - hour ≤ row.assessedAt ∧
          row.deleted = false := by
  simp only [ruled, assessed, List.mem_append, List.mem_map, List.mem_filter, Bool.and_eq_true,
    Bool.not_eq_true', decide_eq_true_eq]
  constructor
  · rintro (⟨rule, ⟨there, ⟨kept, enabled⟩, -⟩, rfl⟩ | ⟨row, ⟨there, ⟨kept, recent⟩, -⟩, rfl⟩)
    · exact .inl ⟨rule, there, rfl, enabled, kept⟩
    · exact .inr ⟨row, there, rfl, recent, kept⟩
  · rintro (⟨rule, there, rfl, enabled, kept⟩ | ⟨row, there, rfl, recent, kept⟩)
    · exact .inl ⟨rule, ⟨there, ⟨kept, enabled⟩, mem⟩, rfl⟩
    · exact .inr ⟨row, ⟨there, ⟨kept, recent⟩, mem⟩, rfl⟩

theorem unassessedTenantDomains_eq_nil :
    unassessedTenantDomains env db = [] ↔
      ∀ domain ∈ candidates env db,
        (∃ rule ∈ db.rules, rule.domain = domain ∧ rule.enabled = true ∧ rule.deleted = false) ∨
          ∃ row ∈ db.assessments, row.domain = domain ∧ db.now - hour ≤ row.assessedAt ∧
            row.deleted = false := by
  have someLeft : (200 : ℕ) ≠ 0 := by omega
  simp only [unassessedTenantDomains, map_lowered_skip, List.take_eq_nil_iff, someLeft, false_or,
    List.filter_eq_nil_iff, decide_eq_true_eq, not_not]
  exact forall₂_congr fun domain mem => mem_skip mem

theorem domains_eq_nil_iff : domains env db = [] ↔ Covered env (fun _ => True) db := by
  rw [domains, List.append_eq_nil_iff, unassessedRecentDomains_eq_nil]
  constructor
  · rintro ⟨recent, tenants⟩
    refine ⟨by simpa using recent, ?_⟩
    intro due
    rw [if_pos due] at tenants
    simpa using unassessedTenantDomains_eq_nil.mp tenants
  · intro covered
    refine ⟨by simpa using covered.recent, ?_⟩
    split_ifs with due
    · exact unassessedTenantDomains_eq_nil.mpr (by simpa using covered.tenants due)
    · rfl

theorem length_assessments (list : List (List Char)) (db : Database) :
    (assessAll env place list db).1.assessments.length = list.length := by
  induction list generalizing db with
  | nil => rfl
  | cons domain rest ih =>
    simp only [assessAll]
    split_ifs <;> simp [ih]

theorem tick_of_domains_eq_nil (none : domains env db = []) :
    (tick env place db).1 = ⟨[], []⟩ := by
  simp [tick, none, assessAll]

theorem assessments_tick_eq_nil :
    (tick env place db).1.assessments = [] ↔ Covered env (fun _ => True) db := by
  rw [← List.length_eq_zero_iff, tick, length_assessments, List.length_eq_zero_iff,
    domains_eq_nil_iff]

theorem Covered.of_agree (covered : Covered env (fun rule => rule.orgID = none) db)
    (agree : Agree db db') : Covered env (fun _ => True) db' := by
  cases agree with
  | rules same =>
    constructor
    · intro domain mem
      rcases covered.recent domain mem with ⟨rule, there, platform, holds⟩ | found
      · exact .inl ⟨rule, same.mem_of_mem there (not_not_intro platform), trivial, holds⟩
      · exact .inr found
    · intro due domain mem
      rcases covered.tenants due domain mem with ⟨rule, there, platform, holds⟩ | found
      · exact .inl ⟨rule, same.mem_of_mem there (not_not_intro platform), trivial, holds⟩
      · exact .inr found

def Database.platform (db : Database) : Database :=
  { db with rules := db.rules.filter fun rule => decide (rule.orgID = none) }

theorem agree_platform : Agree db db.platform :=
  .rules (.filter_left db.rules fun _ => of_decide_eq_false)

theorem Covered.of_platform (covered : Covered env (fun _ => True) db.platform) :
    Covered env (fun rule => rule.orgID = none) db := by
  have mem_platform : ∀ rule, rule ∈ db.platform.rules ↔ rule ∈ db.rules ∧ rule.orgID = none := by
    simp [Database.platform]
  constructor
  · intro domain mem
    rcases covered.recent domain mem with ⟨rule, there, -, holds⟩ | found
    · exact .inl ⟨rule, ((mem_platform rule).mp there).1, ((mem_platform rule).mp there).2, holds⟩
    · exact .inr found
  · intro due domain mem
    rcases covered.tenants due domain mem with ⟨rule, there, -, holds⟩ | found
    · exact .inl ⟨rule, ((mem_platform rule).mp there).1, ((mem_platform rule).mp there).2, holds⟩
    · exact .inr found

def allowance (domain : List Char) : Rule where
  orgID := some ⟨1⟩
  domain := domain
  action := .allow
  category := ""
  reason := ""
  riskScore := 0
  source := "manual"
  enabled := true
  deleted := false

def Database.crowded (env : Primitives) (db : Database) : Database :=
  { db with rules := (db.visited ++ candidates env db).map allowance ++ db.rules }

theorem agree_crowded : Agree db (db.crowded env) := by
  refine .rules (.prepend ?_ (.refl db.rules))
  intro rule mem
  rcases List.mem_map.mp mem with ⟨domain, -, rfl⟩
  simp [allowance]

theorem covered_crowded : Covered env (fun _ => True) (db.crowded env) := by
  have ruled : ∀ domain ∈ db.visited ++ candidates env db,
      allowance domain ∈ (db.crowded env).rules := by
    intro domain mem
    exact List.mem_append_left _ (List.mem_map_of_mem mem)
  constructor
  · intro domain mem
    exact .inl ⟨_, ruled domain (List.mem_append_left _ mem), trivial, rfl, rfl⟩
  · intro _ domain mem
    exact .inl ⟨_, ruled domain (List.mem_append_right _ mem), trivial, rfl, rfl, rfl⟩

/-- No organisation steers a tick exactly if there is nothing for it to do. -/
theorem unsteered_iff_settled : Unsteered env place db ↔ Settled env db := by
  constructor
  · intro unsteered
    have same : (tick env place db.platform).1 =
        (tick env place (db.crowded env)).1 :=
      (unsteered _ agree_platform).trans (unsteered _ agree_crowded).symm
    have nothing : (tick env place db.platform).1.assessments = [] := by
      rw [same]
      exact assessments_tick_eq_nil.mpr covered_crowded
    exact (assessments_tick_eq_nil.mp nothing).of_platform
  · intro settled db' agree
    have covered' : Covered env (fun _ => True) db' := settled.of_agree agree
    have covered : Covered env (fun _ => True) db := settled.of_agree (.rules (.refl db.rules))
    rw [tick_of_domains_eq_nil (domains_eq_nil_iff.mpr covered'),
      tick_of_domains_eq_nil (domains_eq_nil_iff.mpr covered)]

def plainPrimitives : Primitives where
  lower := Char.toLower
  lower_lower := Text.toLower_toLower
  domainAgeDays _ := some 3
  highEntropy _ := false
  arrange list := list
  arrange_perm _ := .refl _

def visitedOnce : Database where
  now := 0
  rules := []
  threatIntel := [⟨"evil.example".toList, "urlhaus", "malware", false⟩]
  categories := []
  assessments := []
  events := [⟨0, "evil.example".toList⟩]
  tenants := some []
  lastTenantScan := 0

/-- One organisation allows what the platform would block. -/
theorem not_alwaysUnsteered : ¬∀ db : Database, Unsteered plainPrimitives (fun _ => 0) db := by
  intro always
  have agree : Agree visitedOnce
      { visitedOnce with rules := [allowance "evil.example".toList] } := by
    refine .rules (.onRight ?_ .nil)
    simp [allowance]
  have blocked : ((tick plainPrimitives (fun _ => 0) visitedOnce).1.blocks.map
      fun rule => rule.riskScore) = [100] := by
    decide +kernel
  have spared : ((tick plainPrimitives (fun _ => 0)
      { visitedOnce with rules := [allowance "evil.example".toList] }).1.blocks.map
        fun rule => rule.riskScore) = [] := by
    decide +kernel
  rw [always visitedOnce _ agree, blocked] at spared
  exact List.cons_ne_nil _ _ spared

end Aavishield.RiskEngine
