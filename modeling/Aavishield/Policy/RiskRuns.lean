import Aavishield.Lib.TransitionSystem
import Aavishield.Policy.PlatformVerdicts
import Mathlib.Algebra.Order.Group.Int

/-!
# Runs of the risk engine

Tick after tick the worker scores domains and blocks some of them for everybody.  It looks for
what it has already done under the names in the activity, and files what it does under the names
as `Assess` spells them.
-/

namespace Aavishield.RiskEngine

open TransitionSystem

/-- A block by the engine that is in force. -/
def Rule.isRiskBlock (rule : Rule) : Bool :=
  rule.orgID.isNone && rule.source == "risk_engine" && rule.enabled && !rule.deleted

/-- What a tick finds in other tables, and where its rules come to stand. -/
structure Surroundings where
  env : Primitives
  place : List Rule → ℕ
  place_le : ∀ rules, place rules ≤ rules.length
  now : ℤ
  threatIntel : List ThreatIntelDomain
  categories : List URLCategory
  events : List Event
  tenants : Option (List (Option (List (List Char))))

/-- A score, and when it was given. -/
structure Verdict where
  time : ℤ
  assessment : Assessment

def Verdict.domain (verdict : Verdict) : List Char := verdict.assessment.domain

/-- The tables, and the verdicts so far, latest first. -/
structure Worker where
  db : Database
  history : List Verdict

/-- The tables as a tick finds them. -/
def Database.facing (db : Database) (around : Surroundings) : Database :=
  { db with
    now := around.now
    threatIntel := around.threatIntel
    categories := around.categories
    events := around.events
    tenants := around.tenants }

inductive Action where
  | tick (around : Surroundings)
  | addRule (place : ℕ) (rule : Rule)
  | removeRule (place : ℕ)

/-- The worker judges; others add and remove rules, but not its own. -/
def Worker.step (worker : Worker) : Action → Option Worker
  | .tick around =>
    if worker.db.now ≤ around.now then
      let (outcome, after) := tick around.env around.place (worker.db.facing around)
      some ⟨after, (outcome.assessments.map (Verdict.mk around.now)).reverse ++ worker.history⟩
    else none
  | .addRule place rule =>
    if rule.isRiskBlock then none
    else some { worker with db := { worker.db with rules := worker.db.rules.insertIdx place rule } }
  | .removeRule place =>
    if worker.db.rules[place]?.any Rule.isRiskBlock then none
    else some { worker with db := { worker.db with rules := worker.db.rules.eraseIdx place } }

/-- No verdict was given yet. -/
def Worker.start (db : Database) : Worker :=
  ⟨{ db with rules := db.rules.filter fun rule => !rule.isRiskBlock, assessments := [] }, []⟩

def Worker.latest (worker : Worker) (domain : List Char) : Option Verdict :=
  worker.history.find? fun verdict => verdict.domain == domain

/-- The engine's blocks of a domain. -/
def riskBlocks (db : Database) (domain : List Char) : List Rule :=
  db.rules.filter fun rule => rule.isRiskBlock && rule.domain == domain

/-- A domain is judged once an hour, and is blocked, once, when its score is too high. -/
structure BlocksOnce (worker : Worker) : Prop where
  single : ∀ domain, (riskBlocks worker.db domain).length ≤ 1
  spaced : worker.history.Pairwise fun later earlier =>
    later.domain = earlier.domain → hour < later.time - earlier.time
  blocked : ∀ domain verdict, worker.latest domain = some verdict →
    blockThreshold < verdict.assessment.score → riskBlocks worker.db domain ≠ []

/-- The domains that a tick judges. -/
def unjudged (env : Primitives) (db : Database) : List (List Char) :=
  (db.visited.filter fun domain =>
    !(db.rules.any fun rule => rule.domain == domain && rule.enabled) &&
      !(db.assessments.any fun row =>
        row.domain == domain && decide (db.now - hour ≤ row.assessedAt))) ++
    if db.scanIsDue then (candidates env db).filter fun domain =>
      decide (domain ∉ (ruled env db ++ assessed env db).map (lowered env))
    else []

/-- The domain was not judged lately, and is not blocked. -/
structure IsNew (db : Database) (domain : List Char) : Prop where
  unassessed : ∀ row ∈ db.assessments, row.deleted = false → row.domain = domain →
    row.assessedAt < db.now - hour
  unblocked : riskBlocks db domain = []

/-- Every target of the tick is spelled as `Assess` spells it, or new, and is spelled in one way. -/
structure Tidy (env : Primitives) (db : Database) : Prop where
  spelled : ∀ domain ∈ unjudged env db, normalize env domain ≠ domain →
    IsNew db (normalize env domain)
  distinct : ((unjudged env db).map (normalize env)).Nodup

def Careful (worker : Worker) : Action → Prop
  | .tick around => Tidy around.env (worker.db.facing around)
  | _ => True

variable {env : Primitives} {place : List Rule → ℕ} {db : Database} {worker : Worker}
  {history : List Verdict} {domain : List Char} {around : Surroundings}

def judge (env : Primitives) (place : List Rule → ℕ) (db : Database) (domain : List Char) :
    Database :=
  let assessment := assess env db domain
  let persisted := persistAssessment db assessment
  if blockThreshold < assessment.score then
    { persisted with
      rules := persisted.rules.insertIdx (place persisted.rules) (riskBlock assessment) }
  else persisted

theorem assessAll_cons (rest : List (List Char)) :
    (assessAll env place (domain :: rest) db).1.assessments =
        assess env db domain ::
          (assessAll env place rest (judge env place db domain)).1.assessments ∧
      (assessAll env place (domain :: rest) db).2 =
        (assessAll env place rest (judge env place db domain)).2 := by
  simp only [assessAll, judge]
  split_ifs <;> exact ⟨rfl, rfl⟩

@[simp]
theorem isRiskBlock_riskBlock (assessment : Assessment) : (riskBlock assessment).isRiskBlock = true := rfl

@[simp]
theorem now_judge : (judge env place db domain).now = db.now := by
  simp only [judge, persistAssessment]
  split_ifs <;> rfl

theorem assessments_judge : (judge env place db domain).assessments =
    (persistAssessment db (assess env db domain)).assessments := by
  simp only [judge]
  split_ifs <;> rfl

theorem riskBlocks_judge (place_le : ∀ rules, place rules ≤ rules.length) (other : List Char) :
    (riskBlocks (judge env place db domain) other).length =
      (riskBlocks db other).length +
        if blockThreshold < (assess env db domain).score ∧ normalize env domain = other
        then 1 else 0 := by
  simp only [judge]
  by_cases high : blockThreshold < (assess env db domain).score
  · have perm := List.perm_insertIdx (riskBlock (assess env db domain)) db.rules (place_le db.rules)
    have filtered := (perm.filter fun rule => rule.isRiskBlock && rule.domain == other).length_eq
    simp only [high, true_and]
    by_cases same : normalize env domain = other
    · have kept : (riskBlock (assess env db domain)).domain = other := same
      simpa [riskBlocks, persistAssessment, List.filter_cons, kept, same] using filtered
    · have dropped : (riskBlock (assess env db domain)).domain ≠ other := same
      simpa [riskBlocks, persistAssessment, List.filter_cons, dropped, same] using filtered
  · simp [high, riskBlocks, persistAssessment]

theorem mem_persistAssessment {assessment : Assessment} {row : DomainRiskAssessment} :
    row ∈ (persistAssessment db assessment).assessments ↔
      row = ⟨assessment, db.now, false⟩ ∨ row ∈ db.assessments ∧ row.domain ≠ assessment.domain := by
  simp only [persistAssessment]
  split
  next there =>
    obtain ⟨filed, isFiled, same⟩ := List.any_eq_true.1 there
    simp only [List.mem_map]
    constructor
    · rintro ⟨before, isRow, rfl⟩
      split_ifs with ofDomain
      · exact .inl rfl
      · exact .inr ⟨isRow, ofDomain⟩
    · rintro (rfl | ⟨isRow, differs⟩)
      · exact ⟨filed, isFiled, if_pos (beq_iff_eq.1 same)⟩
      · exact ⟨row, isRow, if_neg differs⟩
  next absent =>
    have none : ∀ row ∈ db.assessments, row.domain ≠ assessment.domain := by
      simpa using absent
    simp only [List.mem_cons]
    constructor
    · rintro (rfl | isRow)
      · exact .inl rfl
      · exact .inr ⟨isRow, none row isRow⟩
    · rintro (rfl | ⟨isRow, -⟩)
      · exact .inl rfl
      · exact .inr isRow

theorem mem_assessments_judge {row : DomainRiskAssessment} :
    row ∈ (judge env place db domain).assessments ↔
      row = ⟨assess env db domain, db.now, false⟩ ∨
        row ∈ db.assessments ∧ row.domain ≠ normalize env domain := by
  rw [assessments_judge, mem_persistAssessment]
  rfl

structure Kept (history : List Verdict) (db : Database) : Prop where
  single : ∀ domain, (riskBlocks db domain).length ≤ 1
  spaced : history.Pairwise fun later earlier =>
    later.domain = earlier.domain → hour < later.time - earlier.time
  blocked : ∀ verdict ∈ history, blockThreshold < verdict.assessment.score →
    riskBlocks db verdict.domain ≠ []
  filed : ∀ verdict ∈ history, ∃ row ∈ db.assessments, row.domain = verdict.domain ∧
    row.deleted = false ∧ verdict.time ≤ row.assessedAt
  past : ∀ row ∈ db.assessments, row.assessedAt ≤ db.now

theorem IsNew.judge {other : List Char} (isNew : IsNew db other)
    (place_le : ∀ rules, place rules ≤ rules.length) (differs : other ≠ normalize env domain) :
    IsNew (judge env place db domain) other := by
  constructor
  · intro row mem kept same
    rw [now_judge]
    rcases mem_assessments_judge.1 mem with rfl | ⟨old, -⟩
    · exact absurd same.symm differs
    · exact isNew.unassessed row old kept same
  · have count := @riskBlocks_judge env _ db domain place_le other
    rw [if_neg (fun both => differs both.2.symm), isNew.unblocked] at count
    exact List.length_eq_zero_iff.1 count

theorem Kept.judge (kept : Kept history db) (place_le : ∀ rules, place rules ≤ rules.length)
    (isNew : IsNew db (normalize env domain)) :
    Kept (⟨db.now, assess env db domain⟩ :: history) (judge env place db domain) := by
  have count := @riskBlocks_judge env _ db domain place_le
  constructor
  case single =>
    intro other
    rw [count]
    split_ifs with added
    · rw [← added.2, isNew.unblocked]
      simp
    · exact kept.single other
  case spaced =>
    refine List.pairwise_cons.2 ⟨?_, kept.spaced⟩
    intro earlier mem same
    obtain ⟨row, isRow, ofDomain, present, since⟩ := kept.filed earlier mem
    have before := isNew.unassessed row isRow present (ofDomain.trans same.symm)
    change hour < db.now - earlier.time
    omega
  case blocked =>
    intro verdict mem high
    rw [← List.length_pos_iff, count]
    rcases List.mem_cons.1 mem with rfl | old
    · rw [if_pos ⟨high, rfl⟩]
      exact Nat.succ_pos _
    · have there := List.length_pos_iff.2 (kept.blocked verdict old high)
      omega
  case filed =>
    intro verdict mem
    have written : ⟨assess env db domain, db.now, false⟩ ∈
        (RiskEngine.judge env place db domain).assessments := mem_assessments_judge.2 (.inl rfl)
    rcases List.mem_cons.1 mem with rfl | old
    · exact ⟨_, written, rfl, rfl, le_refl _⟩
    · obtain ⟨row, isRow, ofVerdict, present, since⟩ := kept.filed verdict old
      by_cases same : row.domain = normalize env domain
      · exact ⟨_, written, same.symm.trans ofVerdict, rfl, since.trans (kept.past row isRow)⟩
      · exact ⟨row, mem_assessments_judge.2 (.inr ⟨isRow, same⟩), ofVerdict, present, since⟩
  case past =>
    intro row mem
    rw [now_judge]
    rcases mem_assessments_judge.1 mem with rfl | ⟨old, -⟩
    · exact le_refl _
    · exact kept.past row old

theorem Kept.assessAll {list : List (List Char)} (kept : Kept history db)
    (place_le : ∀ rules, place rules ≤ rules.length)
    (isNew : ∀ domain ∈ list, IsNew db (normalize env domain))
    (distinct : (list.map (normalize env)).Nodup) :
    Kept (((assessAll env place list db).1.assessments.map (Verdict.mk db.now)).reverse ++ history)
      (assessAll env place list db).2 := by
  induction list generalizing history db with
  | nil => exact kept
  | cons domain rest ih =>
    obtain ⟨differs, distinct⟩ := List.nodup_cons.1 distinct
    have first := kept.judge place_le (isNew domain List.mem_cons_self)
    have others : ∀ other ∈ rest, IsNew (RiskEngine.judge env place db domain)
        (normalize env other) := by
      intro other mem
      apply (isNew other (List.mem_cons_of_mem _ mem)).judge place_le
      intro same
      exact differs (same ▸ List.mem_map_of_mem mem)
    have all := ih first others distinct
    rw [(assessAll_cons rest).1, (assessAll_cons rest).2]
    simpa using all

theorem exists_sublist_domains : ∃ list, (domains env db).Sublist list ∧
    list.Perm (unjudged env db) := by
  refine ⟨_, .append (List.take_sublist 200 _) ?_, .append (env.arrange_perm _) (.refl _)⟩
  split_ifs
  · exact List.take_sublist 200 _
  · exact .slnil

theorem mem_unjudged (mem : domain ∈ domains env db) : domain ∈ unjudged env db := by
  obtain ⟨list, sublist, perm⟩ := @exists_sublist_domains env db
  exact perm.mem_iff.1 (sublist.subset mem)

theorem isNew_of_unruled (unassessed : ∀ row ∈ db.assessments, row.deleted = false →
      row.domain = domain → row.assessedAt < db.now - hour)
    (unruled : ∀ rule ∈ db.rules, rule.deleted = false → rule.enabled = true → rule.domain ≠ domain) :
    IsNew db domain := by
  refine ⟨unassessed, List.filter_eq_nil_iff.2 ?_⟩
  intro rule mem matched
  simp only [Rule.isRiskBlock, Bool.and_eq_true, Bool.not_eq_true', beq_iff_eq] at matched
  exact unruled rule mem matched.1.2 matched.1.1.2 matched.2

theorem isNew_of_mem_unjudged (mem : domain ∈ unjudged env db) : IsNew db domain := by
  rcases List.mem_append.1 mem with recent | scanned
  · simp only [List.mem_filter, Bool.and_eq_true, Bool.not_eq_true', List.any_eq_false, beq_iff_eq,
      decide_eq_true_eq, not_and] at recent
    apply isNew_of_unruled
    · intro row isRow _ same
      exact Int.not_le.1 (recent.2.2 row isRow same)
    · intro rule isRule _ enabled same
      exact recent.2.1 rule isRule same enabled
  · split_ifs at scanned with due
    · simp only [List.mem_filter, decide_eq_true_eq, map_lowered_skip] at scanned
      rw [mem_skip scanned.1, not_or] at scanned
      apply isNew_of_unruled
      · intro row isRow present same
        by_contra late
        exact scanned.2.2 ⟨row, isRow, same, Int.not_lt.1 late, present⟩
      · intro rule isRule present enabled same
        exact scanned.2.1 ⟨rule, isRule, same, enabled, present⟩
    · cases scanned

theorem Tidy.isNew (tidy : Tidy env db) (mem : domain ∈ domains env db) :
    IsNew db (normalize env domain) := by
  by_cases spelled : normalize env domain = domain
  · rw [spelled]
    exact isNew_of_mem_unjudged (mem_unjudged mem)
  · exact tidy.spelled domain (mem_unjudged mem) spelled

theorem Tidy.nodup (tidy : Tidy env db) :
    ((domains env db).map (normalize env)).Nodup := by
  obtain ⟨list, sublist, perm⟩ := @exists_sublist_domains env db
  exact ((perm.map _).nodup_iff.2 tidy.distinct).sublist (sublist.map _)

theorem Kept.facing (kept : Kept history db) (later : db.now ≤ around.now) :
    Kept history (db.facing around) where
  single := kept.single
  spaced := kept.spaced
  blocked := kept.blocked
  filed := kept.filed
  past row mem := (kept.past row mem).trans later

theorem Kept.start (db : Database) : Kept (Worker.start db).history (Worker.start db).db where
  single domain := by
    have none : riskBlocks (Worker.start db).db domain = [] := by
      simp only [riskBlocks, Worker.start, List.filter_filter, List.filter_eq_nil_iff]
      intro rule _
      cases rule.isRiskBlock <;> simp
    simp [none]
  spaced := .nil
  blocked _ mem := absurd mem List.not_mem_nil
  filed _ mem := absurd mem List.not_mem_nil
  past _ mem := absurd mem List.not_mem_nil

variable {rules : List Rule}

theorem Kept.of_riskBlocks (kept : Kept history db)
    (same : ∀ domain, riskBlocks { db with rules } domain = riskBlocks db domain) :
    Kept history { db with rules } where
  single domain := by
    rw [same]
    exact kept.single domain
  spaced := kept.spaced
  blocked verdict mem high := by
    rw [same]
    exact kept.blocked verdict mem high
  filed := kept.filed
  past := kept.past

theorem filter_insertIdx {keeps : Rule → Bool} {rule : Rule} (index : ℕ)
    (dropped : keeps rule = false) : (rules.insertIdx index rule).filter keeps = rules.filter keeps := by
  induction rules generalizing index with
  | nil => cases index <;> simp [dropped]
  | cons first rest ih =>
    cases index with
    | zero => simp [dropped]
    | succ index => simp [List.filter_cons, ih]

theorem filter_eraseIdx {keeps : Rule → Bool} (index : ℕ)
    (dropped : rules[index]?.any keeps = false) :
    (rules.eraseIdx index).filter keeps = rules.filter keeps := by
  induction rules generalizing index with
  | nil => rfl
  | cons first rest ih =>
    cases index with
    | zero => simpa [List.filter_cons] using dropped
    | succ index =>
      have kept := ih index (by simpa using dropped)
      simp [List.filter_cons, kept]

theorem Kept.tick (kept : Kept history db) (place_le : ∀ rules, place rules ≤ rules.length)
    (tidy : Tidy env db) :
    Kept (((tick env place db).1.assessments.map (Verdict.mk db.now)).reverse ++ history)
      (tick env place db).2 := by
  have scanned : Kept history { db with lastTenantScan := db.now } :=
    ⟨kept.single, kept.spaced, kept.blocked, kept.filed, kept.past⟩
  unfold RiskEngine.tick
  split_ifs
  · apply scanned.assessAll place_le _ tidy.nodup
    intro domain mem
    exact ⟨(tidy.isNew mem).unassessed, (tidy.isNew mem).unblocked⟩
  · apply kept.assessAll place_le _ tidy.nodup
    intro domain mem
    exact tidy.isNew mem

theorem kept_step {action : Action} {next : Worker} (kept : Kept worker.history worker.db)
    (careful : Careful worker action) (stepped : worker.step action = some next) :
    Kept next.history next.db := by
  cases action with
  | tick around =>
    simp only [Worker.step] at stepped
    split_ifs at stepped with later
    cases stepped
    exact (kept.facing later).tick around.place_le careful
  | addRule place rule =>
    simp only [Worker.step] at stepped
    split_ifs at stepped with own
    cases stepped
    apply kept.of_riskBlocks
    intro domain
    exact filter_insertIdx place (by simp [own])
  | removeRule place =>
    simp only [Worker.step] at stepped
    split_ifs at stepped with own
    cases stepped
    apply kept.of_riskBlocks
    intro domain
    apply filter_eraseIdx
    cases found : worker.db.rules[place]? with
    | none => rfl
    | some rule =>
      rw [found] at own
      simpa using fun isBlock => absurd isBlock own

theorem Kept.blocksOnce (kept : Kept worker.history worker.db) : BlocksOnce worker where
  single := kept.single
  spaced := kept.spaced
  blocked domain verdict found high := by
    have ofDomain : verdict.domain = domain := by
      simpa using List.find?_some found
    rw [← ofDomain]
    exact kept.blocked verdict (List.mem_of_find?_eq_some found) high

/-- In every run of careful ticks, no domain is blocked twice or assessed twice in an hour. -/
theorem blocksOnce_of_careful {trace : List Action}
    (careful : AllSteps Worker.step Careful (Worker.start db) trace) :
    ∀ reached, Visits Worker.step (Worker.start db) trace reached → BlocksOnce reached := by
  rintro reached ⟨seen, ⟨rest, rfl⟩, executed⟩
  have seenCareful := ((allSteps_append executed).1 careful).1
  have kept := invariant_of_allSteps (fun _ _ _ kept isCareful stepped => kept_step kept isCareful stepped)
    (Kept.start db) seenCareful executed
  exact Kept.blocksOnce kept

def visit (target : String) (now : ℤ) : Action := .tick
  { env := plainPrimitives
    place := fun _ => 0
    place_le := fun _ => Nat.zero_le _
    now
    threatIntel := visitedOnce.threatIntel
    categories := []
    events := [⟨0, target.toList⟩]
    tenants := some [] }

def twice (target : String) : List Action := [visit target 0, visit target (15 * 10 ^ 9)]

theorem tidy_of_unjudged_nil (none : unjudged env db = []) : Tidy env db where
  spelled domain mem := by
    rw [none] at mem
    cases mem
  distinct := by simp [none]

theorem careful_twice :
    AllSteps Worker.step Careful (Worker.start visitedOnce) (twice "evil.example") := by
  refine ⟨⟨?_, by decide +kernel⟩, ?_⟩
  · intro domain mem differs
    have only : unjudged plainPrimitives visitedOnce = ["evil.example".toList] := by
      decide +kernel
    have isOnly : domain = "evil.example".toList := by
      simpa [only] using (show domain ∈ unjudged plainPrimitives visitedOnce from mem)
    subst isOnly
    exact absurd (by decide +kernel) differs
  · rintro next ⟨⟩
    exact ⟨tidy_of_unjudged_nil (by decide +kernel), fun _ _ => trivial⟩

theorem blocksOnce_twice :
    (exec Worker.step (Worker.start visitedOnce) (twice "evil.example")).isSome ∧ ∀ reached,
      Visits Worker.step (Worker.start visitedOnce) (twice "evil.example") reached →
        BlocksOnce reached :=
  ⟨by decide +kernel, blocksOnce_of_careful careful_twice⟩

/-- Two rules for one domain, which was assessed twice within 15 seconds. -/
theorem not_blocksOnce_www : ¬∀ reached,
    Visits Worker.step (Worker.start visitedOnce) (twice "www.evil.example") reached →
      BlocksOnce reached := by
  intro always
  cases executed : exec Worker.step (Worker.start visitedOnce) (twice "www.evil.example") with
  | none =>
    have isSome : (exec Worker.step (Worker.start visitedOnce) (twice "www.evil.example")).isSome := by
      decide +kernel
    simp [executed] at isSome
  | some reached =>
    have blocks : ((exec Worker.step (Worker.start visitedOnce) (twice "www.evil.example")).map
        fun reached => (riskBlocks reached.db "evil.example".toList).length) = some 2 := by
      decide +kernel
    rw [executed] at blocks
    have once := (always reached ⟨_, List.prefix_refl _, executed⟩).single "evil.example".toList
    simp only [Option.map_some, Option.some.injEq] at blocks
    omega

end Aavishield.RiskEngine
