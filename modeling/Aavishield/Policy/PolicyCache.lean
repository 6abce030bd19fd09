import Aavishield.Lib.Labels
import Aavishield.Policy.Domains

/-!
# The agent's rules

The agent keeps the rules of its organisation by their domains.  The rule of a host is that
of its own domain or else of the nearest parent domain that has one, and an organisation's
rule goes before a platform-wide one.
-/

namespace Aavishield.DomainRules

open Labels Text

variable (env : Primitives)

structure PolicyCache where
  revoked : Bool
  byDomain : List Char → List DomainRule

def DomainRule.key (rule : DomainRule) : List Char :=
  env.toLowercase (trimSpace rule.domain)

def PolicyCache.load (rules : List DomainRule) : PolicyCache where
  revoked := false
  byDomain domain := rules.filter fun rule => rule.key env = domain ∧ domain ≠ []

def PolicyCache.matchDomain (cache : PolicyCache) (domain : List Char) : Option DomainRule :=
  ((cache.byDomain domain).find? fun rule => rule.orgID.isSome).or
    ((cache.byDomain domain).find? fun rule => rule.orgID.isNone)

/-- The parents of a domain that have a dot. -/
def parents (domain : List Char) : List (List Char) :=
  let parts := domain.splitOn '.'
  ((List.range' 1 (parts.length - 1)).map fun index => ['.'].intercalate (parts.drop index)).filter
    fun parent => parent.contains '.'

def PolicyCache.lookup (cache : PolicyCache) (domain : List Char) : Option DomainRule :=
  (cache.matchDomain domain).or ((parents domain).findSome? cache.matchDomain)

def folded (host : List Char) : List Char :=
  trimPrefix "www.".toList (env.toLowercase host)

/-- The rule for a host. -/
def PolicyCache.check (cache : PolicyCache) (host : List Char) : Option DomainRule :=
  if cache.revoked then none else cache.lookup (folded env host)

variable {env} {cache : PolicyCache} {domain other host : List Char} {rule : DomainRule}
  {rules : List DomainRule}

theorem parents_eq (domain : List Char) :
    parents domain = (afters '.' domain).filter fun parent => parent.contains '.' := by
  rw [parents, map_intercalate_drop_splitOn]

theorem mem_parents : other ∈ parents domain ↔ '.' :: other <:+ domain ∧ '.' ∈ other := by
  rw [parents_eq, List.mem_filter, mem_afters, List.contains_iff_mem]

variable {nearer farther : List (List Char)}

theorem eq_parents_of_append
    (split : domain :: parents domain = nearer ++ other :: farther) : farther = parents other := by
  cases nearer with
  | nil =>
    cases split
    rfl
  | cons near nearer =>
    have parentsSplit := (List.cons.inj split).2
    rw [parents_eq] at parentsSplit
    rcases List.filter_eq_append_iff.mp parentsSplit with ⟨front, back, whole, -, later⟩
    rcases List.filter_eq_cons_iff.mp later with ⟨skipped, rest, isBack, -, -, filtered⟩
    rw [isBack, ← List.append_assoc] at whole
    rw [parents_eq, ← eq_afters_of_append whole, filtered]

theorem under_of_mem_parents (otherMem : other ∈ domain :: parents domain) :
    Under '.' domain other := by
  rcases List.mem_cons.mp otherMem with rfl | otherMem
  · exact .refl _
  · right
    exact (mem_parents.mp otherMem).1

theorem under_trimPrefix (domain : List Char) : Under '.' domain (trimPrefix "www.".toList domain) := by
  by_cases isPrefix : "www.".toList <+: domain
  · rcases isPrefix with ⟨rest, rfl⟩
    right
    rw [trimPrefix_append]
    exact ⟨"www".toList, by simp⟩
  · left
    exact (trimPrefix_of_other_start isPrefix).symm

theorem PolicyCache.lookup_eq_findSome? (cache : PolicyCache) (domain : List Char) :
    cache.lookup domain = (domain :: parents domain).findSome? cache.matchDomain := by
  rw [lookup, List.findSome?_cons]
  cases cache.matchDomain domain <;> rfl

theorem PolicyCache.lookup_eq_of_append
    (split : domain :: parents domain = nearer ++ other :: farther)
    (unmatched : ∀ near ∈ nearer, cache.matchDomain near = none) :
    cache.lookup domain = cache.lookup other := by
  rw [lookup_eq_findSome?, lookup_eq_findSome?, split, List.findSome?_append,
    List.findSome?_eq_none_iff.mpr unmatched, eq_parents_of_append split]
  rfl

theorem PolicyCache.lookup_congr {cache' : PolicyCache}
    (same : ∀ other ∈ domain :: parents domain, cache.matchDomain other = cache'.matchDomain other) :
    cache.lookup domain = cache'.lookup domain := by
  rw [lookup_eq_findSome?, lookup_eq_findSome?]
  generalize domain :: parents domain = names at same
  induction names with
  | nil => rfl
  | cons name names ih =>
    rw [List.findSome?_cons, List.findSome?_cons, same name List.mem_cons_self,
      ih fun other otherMem => same other (List.mem_cons_of_mem _ otherMem)]

theorem mem_byDomain_load : rule ∈ (PolicyCache.load env rules).byDomain domain ↔
    rule ∈ rules ∧ rule.key env = domain ∧ domain ≠ [] := by
  simp [PolicyCache.load]

theorem PolicyCache.matchDomain_eq_none_iff :
    cache.matchDomain domain = none ↔ cache.byDomain domain = [] := by
  rw [matchDomain, Option.or_eq_none_iff, List.find?_eq_none, List.find?_eq_none]
  constructor
  · rintro ⟨noOrg, noGlobal⟩
    apply List.eq_nil_iff_forall_not_mem.mpr
    intro rule ruleMem
    apply noGlobal rule ruleMem
    rw [← Option.not_isSome]
    exact (Bool.not_eq_true' _).mpr (Bool.eq_false_iff.mpr (noOrg rule ruleMem))
  · intro empty
    simp [empty]

theorem PolicyCache.mem_byDomain_of_matchDomain (found : cache.matchDomain domain = some rule) :
    rule ∈ cache.byDomain domain := by
  rw [matchDomain] at found
  rcases Option.or_eq_some_iff.mp found with found | ⟨-, found⟩
  · exact List.mem_of_find?_eq_some found
  · exact List.mem_of_find?_eq_some found

theorem check_load (host : List Char) : (PolicyCache.load env rules).check env host =
    (PolicyCache.load env rules).lookup (folded env host) := rfl

theorem notKey_of_unmatched (unmatched : (PolicyCache.load env rules).matchDomain domain = none)
    (isName : domain ≠ []) (isRule : rule ∈ rules) : rule.key env ≠ domain := by
  intro isKey
  have inDomain := mem_byDomain_load.mpr ⟨isRule, isKey, isName⟩
  rw [PolicyCache.matchDomain_eq_none_iff.mp unmatched] at inDomain
  cases inDomain

/-- The nearest name with a rule decides, and a platform-wide rule only where no other is; where
nothing is found, no rule is for the host or a parent. -/
theorem nearest_of_check (env : Primitives) (rules : List DomainRule) (host : List Char) :
    (∀ rule, (PolicyCache.load env rules).check env host = some rule →
      rule ∈ rules ∧
        (rule.orgID = none → ∀ other ∈ rules, other.key env = rule.key env →
          other.orgID = none) ∧
        ∃ nearer farther, folded env host :: parents (folded env host) =
            nearer ++ rule.key env :: farther ∧
          ∀ near ∈ nearer, near ≠ [] → ∀ other ∈ rules, other.key env ≠ near) ∧
      ((PolicyCache.load env rules).check env host = none →
        ∀ name ∈ folded env host :: parents (folded env host), name ≠ [] →
          ∀ rule ∈ rules, rule.key env ≠ name) := by
  rw [check_load, PolicyCache.lookup_eq_findSome?]
  constructor
  · intro rule found
    obtain ⟨nearer, name, farther, split, matched, unmatched⟩ := List.findSome?_eq_some_iff.mp found
    obtain ⟨ruleMem, rfl, nonempty⟩ :=
      mem_byDomain_load.mp (PolicyCache.mem_byDomain_of_matchDomain matched)
    refine ⟨ruleMem, ?_, nearer, farther, split, ?_⟩
    · intro isGlobal other otherMem sameKey
      rcases Option.or_eq_some_iff.mp matched with ofOrg | ⟨noOrg, -⟩
      · simpa [isGlobal] using List.find?_some ofOrg
      · have inDomain := mem_byDomain_load.mpr ⟨otherMem, sameKey, nonempty⟩
        simpa using List.find?_eq_none.mp noOrg other inDomain
    · intro near nearMem isName other otherMem
      exact notKey_of_unmatched (unmatched near nearMem) isName otherMem
  · intro notFound name mem isName rule ruleMem
    exact notKey_of_unmatched (List.findSome?_eq_none_iff.mp notFound name mem) isName ruleMem

def webRule : DomainRule := ⟨none, "a.org".toList, .block, "", "", 0⟩

theorem nearest_webRule : ∃ nearer farther, ["b.a.org".toList, "a.org".toList] =
    nearer ++ webRule.key .ascii :: farther ∧
      ∀ near ∈ nearer, near ≠ [] → ∀ other ∈ [webRule], other.key .ascii ≠ near :=
  ((nearest_of_check .ascii [webRule] "www.b.a.org".toList).1 webRule (by decide)).2.2

end Aavishield.DomainRules
