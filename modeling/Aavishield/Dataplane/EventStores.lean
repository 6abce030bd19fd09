import Aavishield.Dataplane.EventFilter
import Aavishield.Dataplane.EventScope

/-!
# Do the stores agree?

The SQL store and the Mongo store should select the events that an `EventQuery` describes.
They do when nothing in the query means more to one of them than it says: a search string
with a wildcard does, which `lowerLike` passes on as it is while `containsRe` quotes it.
-/

namespace Aavishield.Dataplane

open Formula Wildcards

variable (letterCase : LetterCase) (engine : Engine) (caseless : Char → Char → Bool)

/-- Both stores take exactly the events that the query describes. -/
structure Agrees (query : EventQuery) (event : StoredEvent) : Prop where
  sql : sqlAccepts letterCase engine query event = true ↔ query.Describes letterCase event
  mongo : mongoAccepts caseless query event = true ↔ query.Describes letterCase event

def EventQuery.lookups (query : EventQuery) : List (Column .text × String) :=
  query.searched.map (·, query.search) ++ query.domainContainsAny.map (.targetDomain, ·)

def EventQuery.compared (query : EventQuery) : Column .text → List String
  | .eventType => query.eventTypes ++ query.anyOf.flatMap (·.eventTypes)
  | .action => query.actions ++ query.notActions ++ query.anyOf.flatMap (·.actions)
  | .category => query.categories ++ query.notCategories ++
      query.anyOf.flatMap (fun clause => clause.categories ++ clause.notCategories)
  | .targetDomain => (if query.targetDomain = "" then [] else [query.targetDomain]) ++
      if query.hasTargetDomain then [""] else []
  | .dedupeKey => if query.dedupeKey = "" then [] else [query.dedupeKey]
  | _ => []

/-- `NotCategories`, of the query and of its clauses. -/
def EventQuery.excluded (query : EventQuery) : List String :=
  query.notCategories ++ query.anyOf.flatMap (·.notCategories)

def EventClause.empty (clause : EventClause) : Bool :=
  clause.eventTypes.isEmpty && clause.actions.isEmpty && clause.categories.isEmpty &&
    clause.notCategories.isEmpty

/-- Rounding down to ticks of the clock keeps the event on its side of the bounds. -/
structure EventQuery.Discerns (query : EventQuery) (tick : ℤ) (time : Time) : Prop where
  since : query.since ≠ 0 → query.since / tick = time / tick → query.since ≤ time
  before : query.before ≠ 0 → query.before / tick = time / tick → query.before ≤ time
  until_ : query.until_ ≠ 0 → query.until_ / tick = time / tick → time ≤ query.until_

/-- Neither a special letter nor a letter's case nor the clock's tick tells the stores apart. -/
structure Clear (query : EventQuery) (event : StoredEvent) : Prop where
  plain : ∀ lookup ∈ query.lookups, ∀ letter ∈ lookup.2.toList,
    engine.special (letterCase.toLower letter) = false
  /-- Engine, regular expression and `strings.ToLower` take the same letters for the same. -/
  letters : ∀ lookup ∈ query.lookups, ∀ text, event.get lookup.1 = some text →
    ∀ first ∈ text.toList, ∀ letter ∈ lookup.2.toList,
      engine.likeLetter (engine.lower first) (letterCase.toLower letter) =
        letterCase.same first letter ∧ caseless first letter = letterCase.same first letter
  texts : ∀ column, ∀ value ∈ query.compared column, ∀ stored, event.get column = some stored →
    engine.sameText stored value = true → stored = value
  engineTime : query.Discerns engine.tick event.timestamp
  documentTime : query.Discerns millisecond event.timestamp
  listed : event.category = some "" → "" ∉ query.excluded
  /-- No alternative that holds of everything stands beside others. -/
  uniform : (∀ clause ∈ query.anyOf, clause.empty = false) ∨
    ∀ clause ∈ query.anyOf, clause.empty = true

section Conditions

variable {letterCase engine caseless} {event : StoredEvent} {kind : Kind} {column : Column kind}
  {value : kind.Value} {values : List kind.Value}

@[simp]
theorem Engine.same_self (value : kind.Value) : engine.same value value = true := by
  cases kind with
  | identifier => simp [Engine.same]
  | text => exact engine.sameText_refl value

def Exact (engine : Engine) (event : StoredEvent) (column : Column kind) (value : kind.Value) :
    Prop :=
  ∀ stored, event.get column = some stored → engine.same stored value = true → stored = value

theorem exact_identifier (column : Column .identifier) (value : UUID) :
    Exact engine event column value := by
  intro stored _ same
  simpa [Engine.same] using same

theorem neq_true_iff (told : Exact engine event column value) :
    (Condition.neq column value).truth engine event = some true ↔
      ∃ stored, event.get column = some stored ∧ stored ≠ value := by
  cases present : event.get column with
  | none => simp [Condition.truth, present]
  | some stored =>
    have same : engine.same stored value = true ↔ stored = value := by
      constructor
      · exact told stored present
      · rintro rfl
        exact Engine.same_self stored
    simp [Condition.truth, present, ← same]

theorem eq_true_iff (told : Exact engine event column value) :
    (Condition.eq column value).truth engine event = some true ↔
      event.get column = some value := by
  cases present : event.get column with
  | none => simp [Condition.truth, present]
  | some stored =>
    simp only [Condition.truth, present, Option.map_some, Option.some.injEq]
    constructor
    · exact told stored present
    · rintro rfl
      exact Engine.same_self stored

theorem any_same_iff (told : ∀ value ∈ values, Exact engine event column value)
    {stored : kind.Value} (present : event.get column = some stored) :
    values.any (engine.same stored) = true ↔ stored ∈ values := by
  rw [List.any_eq_true]
  constructor
  · rintro ⟨value, valueMem, same⟩
    rw [told value valueMem stored present same]
    exact valueMem
  · intro storedMem
    exact ⟨stored, storedMem, Engine.same_self stored⟩

theorem within_true_iff (told : ∀ value ∈ values, Exact engine event column value) :
    (Condition.within column values).truth engine event = some true ↔
      ∃ value ∈ values, event.get column = some value := by
  cases present : event.get column with
  | none => simp [Condition.truth, present]
  | some stored =>
    cases values with
    | nil => simp [Condition.truth]
    | cons first rest =>
      simp only [Condition.truth, List.isEmpty_cons, Bool.false_eq_true, if_false, present,
        Option.map_some, Option.some.injEq, any_same_iff told present, exists_eq_right']

theorem within_text_iff {column : Column .text} {values : List String}
    (told : ∀ value ∈ values, Exact engine event column value) :
    (Condition.within column values).truth engine event = some true ↔
      ∃ value ∈ values, event.get column = some value :=
  within_true_iff told

theorem notWithin_text_iff {column : Column .text} {values : List String}
    (told : ∀ value ∈ values, Exact engine event column value) (nonempty : values ≠ []) :
    (Condition.notWithin column values).truth engine event = some true ↔
      ∃ stored, event.get column = some stored ∧ stored ∉ values := by
  cases present : event.get column with
  | none => simp [Condition.truth, present, nonempty]
  | some stored =>
    have found := any_same_iff told present
    simp [Condition.truth, present, nonempty, ← found]

theorem passes_eq_iff {value : Option kind.Value} :
    (Test.eq column value).passes caseless event = true ↔ event.get column = value := by
  simp [Test.passes]

theorem passes_ne_iff {value : Option kind.Value} :
    (Test.ne column value).passes caseless event = true ↔ event.get column ≠ value := by
  simp [Test.passes]

theorem passes_within_iff :
    (Test.within column values).passes caseless event = true ↔
      ∃ value ∈ values, event.get column = some value := by
  simp [Test.passes]

theorem passes_notWithin_iff {values : List (Option kind.Value)} :
    (Test.notWithin column values).passes caseless event = true ↔
      event.get column ∉ values := by
  simp only [Test.passes, Bool.not_eq_true', List.any_eq_false, decide_eq_true_eq]
  constructor
  · intro absent mem
    exact absent _ mem rfl
  · intro absent value valueMem same
    exact absent (same ▸ valueMem)

end Conditions

section Lookups

variable {letterCase engine caseless} {event : StoredEvent} {column : Column .text} {part : String}

theorem toList_lower (text : String) :
    (letterCase.lower text).toList = text.toList.map letterCase.toLower := by
  simp [LetterCase.lower]

theorem toLower_percent : letterCase.toLower '%' = '%' :=
  (letterCase.ascii '%' (by decide)).trans (by decide)

theorem lowerLike_holds_iff
    (plain : ∀ letter ∈ part.toList, engine.special (letterCase.toLower letter) = false)
    (letters : ∀ text, event.get column = some text → ∀ first ∈ text.toList,
      ∀ letter ∈ part.toList, engine.likeLetter (engine.lower first) (letterCase.toLower letter) =
        letterCase.same first letter) :
    (Condition.like column (letterCase.lower ("%" ++ part ++ "%"))).truth engine event =
        some true ↔
      ∃ text, event.get column = some text ∧ letterCase.contains part text = true := by
  have pattern : (letterCase.lower ("%" ++ part ++ "%")).toList =
      '%' :: (part.toList.map letterCase.toLower ++ ['%']) := by
    simp [toList_lower, toLower_percent]
  have plainPattern : ∀ letter ∈ part.toList.map letterCase.toLower,
      engine.special letter = false := by
    intro letter letterMem
    rcases List.mem_map.mp letterMem with ⟨original, originalMem, rfl⟩
    exact plain original originalMem
  cases present : event.get column with
  | none => simp [Condition.truth, present]
  | some text =>
    have found : occurs engine.likeLetter (part.toList.map letterCase.toLower)
        (text.toList.map engine.lower) = letterCase.contains part text := by
      rw [occurs_map]
      exact occurs_congr (letters text present)
    simp [Condition.truth, present, pattern, engine.read_plain _ plainPattern, covers_anywhere, found]

theorem passes_regex_iff (letters : ∀ text, event.get column = some text → ∀ first ∈ text.toList,
      ∀ letter ∈ part.toList, caseless first letter = letterCase.same first letter) :
    (Test.regex column (containsRe part)).passes caseless event = true ↔
      ∃ text, event.get column = some text ∧ letterCase.contains part text = true := by
  cases present : event.get column with
  | none => simp [Test.passes, present]
  | some text =>
    have found : occurs caseless part.toList text.toList = letterCase.contains part text :=
      occurs_congr (letters text present)
    simp [Test.passes, present, finds_containsRe, found]

end Lookups

section Clauses

variable {engine caseless} {event : StoredEvent} {categories : List String}

theorem unlisted_iff (listed : event.category = some "" → "" ∉ categories) :
    event.unlisted categories ↔
      event.category = none ∨ ∃ category, event.category = some category ∧
        category ∉ categories := by
  unfold StoredEvent.unlisted
  cases present : event.category with
  | none => simp
  | some category =>
    simp only [Option.some.injEq, forall_eq', reduceCtorEq, false_or, exists_eq_left']
    by_cases isEmpty : category = ""
    · subst isEmpty
      simp [listed present]
    · simp [isEmpty]

theorem notCategories_holds_iff (nonempty : categories ≠ [])
    (told : ∀ category ∈ categories, Exact engine event .category category)
    (listed : event.category = some "" → "" ∉ categories) :
    (notCategories categories).holds
        (fun leaf => decide (leaf.truth engine event = some true)) = true ↔
      event.unlisted categories := by
  rw [unlisted_iff listed]
  simp only [notCategories, holds_any, List.mem_cons, List.not_mem_nil, or_false, exists_eq_or_imp,
    exists_eq_left, holds_atom, decide_eq_true_eq, notWithin_text_iff told nonempty]
  simp [Condition.truth, StoredEvent.get]

theorem notCategoriesM_holds_iff (listed : event.category = some "" → "" ∉ categories) :
    (notCategoriesM categories).holds (Test.passes caseless event) = true ↔
      event.unlisted categories := by
  rw [unlisted_iff listed]
  simp only [notCategoriesM, holds_any, List.mem_cons, List.not_mem_nil, or_false, exists_eq_or_imp,
    exists_eq_left, holds_atom, passes_notWithin_iff]
  cases present : event.category with
  | none | some category => simp [Test.passes, StoredEvent.get, present]

theorem anyOf_holds {alternatives : List (Formula Condition)} {sat : Condition → Bool} :
    (anyOf alternatives).holds sat = true ↔ ∃ part ∈ alternatives, part.holds sat = true := by
  unfold anyOf
  split
  · simp
  · exact holds_any alternatives

theorem clauseParts_holds_iff (clause : EventClause)
    (eventTypes : ∀ value ∈ clause.eventTypes, Exact engine event .eventType value)
    (actions : ∀ value ∈ clause.actions, Exact engine event .action value)
    (categories : ∀ value ∈ clause.categories, Exact engine event .category value)
    (excluded : ∀ value ∈ clause.notCategories, Exact engine event .category value)
    (listed : event.category = some "" → "" ∉ clause.notCategories) :
    (Formula.all (clauseParts clause)).holds
        (fun leaf => decide (leaf.truth engine event = some true)) = true ↔
      clause.Describes event := by
  rw [EventClause.describes_iff]
  simp only [clauseParts, holds_all, List.flatten_cons, List.flatten_nil, List.append_nil,
    List.forall_mem_append, forall_mem_partIf, Bool.not_eq_true', List.isEmpty_eq_false_iff]
  refine and_congr ?_ (and_congr ?_ (and_congr ?_ ?_))
  · simp [within_text_iff eventTypes, StoredEvent.get]
  · simp [within_text_iff actions, StoredEvent.get]
  · simp [within_text_iff categories, StoredEvent.get]
  · refine imp_congr_right fun nonempty => ?_
    exact notCategories_holds_iff nonempty excluded listed

theorem clausePartsM_holds_iff (clause : EventClause)
    (listed : event.category = some "" → "" ∉ clause.notCategories) :
    (Formula.all (clausePartsM clause)).holds (Test.passes caseless event) = true ↔
      clause.Describes event := by
  rw [EventClause.describes_iff]
  simp only [clausePartsM, holds_all, List.flatten_cons, List.flatten_nil, List.append_nil,
    List.forall_mem_append, forall_mem_partIf, Bool.not_eq_true', List.isEmpty_eq_false_iff]
  refine and_congr ?_ (and_congr ?_ (and_congr ?_ ?_))
  · simp [passes_within_iff, StoredEvent.get]
  · simp [passes_within_iff, StoredEvent.get]
  · simp [passes_within_iff, StoredEvent.get]
  · refine imp_congr_right fun _ => ?_
    exact notCategoriesM_holds_iff listed

theorem clauseParts_isEmpty (clause : EventClause) :
    (clauseParts clause).isEmpty = clause.empty := by
  rcases clause with ⟨eventTypes, actions, categories, excluded⟩
  cases eventTypes <;> cases actions <;> cases categories <;> cases excluded <;> rfl

theorem clausePartsM_isEmpty (clause : EventClause) :
    (clausePartsM clause).isEmpty = clause.empty := by
  rcases clause with ⟨eventTypes, actions, categories, excluded⟩
  cases eventTypes <;> cases actions <;> cases categories <;> cases excluded <;> rfl

theorem alternatives_iff {Atom : Type} {sat : Atom → Bool} {clauses : List EventClause}
    {parts : EventClause → List (Formula Atom)}
    (isEmpty : ∀ clause, (parts clause).isEmpty = clause.empty)
    (describes : ∀ clause ∈ clauses, (Formula.all (parts clause)).holds sat = true ↔
      clause.Describes event)
    (uniform : (∀ clause ∈ clauses, clause.empty = false) ∨
      ∀ clause ∈ clauses, clause.empty = true) :
    (clauses.filterMap (fun clause =>
        if (parts clause).isEmpty then none else some (Formula.all (parts clause))) ≠ [] →
      ∃ part ∈ clauses.filterMap (fun clause =>
        if (parts clause).isEmpty then none else some (Formula.all (parts clause))),
          part.holds sat = true) ↔
      (clauses ≠ [] → ∃ clause ∈ clauses, clause.Describes event) := by
  simp only [isEmpty]
  rcases uniform with nonempty | empty
  · have kept : clauses.filterMap (fun clause =>
        if clause.empty then none else some (Formula.all (parts clause))) =
        clauses.map fun clause => Formula.all (parts clause) := by
      rw [← List.filterMap_eq_map]
      apply List.filterMap_congr
      intro clause clauseMem
      simp [nonempty clause clauseMem]
    rw [kept]
    simp only [ne_eq, List.map_eq_nil_iff, List.mem_map, exists_exists_and_eq_and]
    refine imp_congr_right fun _ => exists_congr fun clause => and_congr_right fun clauseMem => ?_
    exact describes clause clauseMem
  · have dropped : clauses.filterMap (fun clause =>
        if clause.empty then none else some (Formula.all (parts clause))) = [] := by
      rw [List.filterMap_eq_nil_iff]
      intro clause clauseMem
      simp [empty clause clauseMem]
    rw [dropped]
    simp only [ne_eq, not_true_eq_false, false_implies, true_iff]
    intro nonempty
    rcases List.exists_mem_of_ne_nil clauses nonempty with ⟨clause, clauseMem⟩
    refine ⟨clause, clauseMem, ?_⟩
    have noFields := empty clause clauseMem
    simp only [EventClause.empty, Bool.and_eq_true, List.isEmpty_iff] at noFields
    rcases noFields with ⟨⟨⟨eventTypes, actions⟩, categories⟩, excluded⟩
    exact ⟨fun nonempty => absurd eventTypes nonempty, fun nonempty => absurd actions nonempty,
      fun nonempty => absurd categories nonempty, fun nonempty => absurd excluded nonempty⟩

end Clauses

section Times

variable {tick bound time : ℤ}

theorem ediv_le_ediv_iff (positive : 0 < tick) (discerns : bound / tick = time / tick → bound ≤ time) :
    bound / tick ≤ time / tick ↔ bound ≤ time := by
  constructor
  · intro before
    by_cases after : time < bound
    · have reverse := Int.ediv_le_ediv positive (Int.le_of_lt after)
      exact discerns (Int.le_antisymm before reverse)
    · exact Int.not_lt.mp after
  · exact Int.ediv_le_ediv positive

theorem ediv_lt_ediv_iff (positive : 0 < tick) (discerns : bound / tick = time / tick → bound ≤ time) :
    time / tick < bound / tick ↔ time < bound := by
  rw [← Int.not_le, ← Int.not_le, ediv_le_ediv_iff positive discerns]

end Times

section Queries

variable {letterCase engine caseless} {query : EventQuery} {event : StoredEvent}

theorem isZero_eq_false_iff (time : Time) : time.isZero = false ↔ time ≠ 0 := by
  simp [Time.isZero]

section

variable (clear : Clear letterCase engine caseless query event)

include clear

theorem Clear.exact
    {column : Column .text} {value : String} (compared : value ∈ query.compared column) :
    Exact engine event column value :=
  clear.texts column value compared

theorem Clear.clauseListed {clause : EventClause} (clauseMem : clause ∈ query.anyOf)
    (unset : event.category = some "") : "" ∉ clause.notCategories := by
  intro excluded
  apply clear.listed unset
  apply List.mem_append_right
  exact List.mem_flatMap.mpr ⟨clause, clauseMem, excluded⟩

theorem Clear.alternatives_holds_iff :
    (alternatives query.anyOf ≠ [] → ∃ part ∈ alternatives query.anyOf,
        part.holds (fun leaf => decide (leaf.truth engine event = some true)) = true) ↔
      (query.anyOf ≠ [] → ∃ clause ∈ query.anyOf, clause.Describes event) := by
  apply alternatives_iff clauseParts_isEmpty _ clear.uniform
  intro clause clauseMem
  have ofClause : ∀ (values : EventClause → List String), ∀ value ∈ values clause,
      value ∈ query.anyOf.flatMap values := by
    intro values value valueMem
    exact List.mem_flatMap.mpr ⟨clause, clauseMem, valueMem⟩
  apply clauseParts_holds_iff
  · intro value valueMem
    exact clear.exact (List.mem_append_right _ (ofClause _ value valueMem))
  · intro value valueMem
    exact clear.exact (List.mem_append_right _ (ofClause _ value valueMem))
  · intro value valueMem
    exact clear.exact (List.mem_append_right _
      (ofClause (fun clause => clause.categories ++ clause.notCategories) value
        (List.mem_append_left _ valueMem)))
  · intro value valueMem
    exact clear.exact (List.mem_append_right _
      (ofClause (fun clause => clause.categories ++ clause.notCategories) value
        (List.mem_append_right _ valueMem)))
  · exact clear.clauseListed clauseMem

theorem Clear.lowerLike_holds
    {column : Column .text} {part : String} (lookup : (column, part) ∈ query.lookups) :
    (lowerLike letterCase column ("%" ++ part ++ "%")).holds
        (fun leaf => decide (leaf.truth engine event = some true)) = true ↔
      ∃ text, event.get column = some text ∧ letterCase.contains part text = true := by
  rw [lowerLike, holds_atom, decide_eq_true_eq]
  apply lowerLike_holds_iff
  · exact clear.plain _ lookup
  · intro text present first firstMem letter letterMem
    exact (clear.letters _ lookup text present first firstMem letter letterMem).1

theorem sqlAccepts_iff :
    sqlAccepts letterCase engine query event = true ↔ query.Describes letterCase event := by
  rw [EventQuery.describes_iff, sqlAccepts, decide_eq_true_eq, truth_eq_true]
  simp only [eventScope, holds_all, List.flatten_cons, List.flatten_nil, List.append_nil,
    List.forall_mem_append, forall_mem_partIf, forall_mem_partFor, Bool.not_eq_true',
    List.isEmpty_eq_false_iff, bne_iff_ne, isZero_eq_false_iff, Bool.and_eq_true, holds_atom,
    decide_eq_true_eq, anyOf_holds, and_imp]
  refine and_congr ?orgID <| and_congr ?ids <| and_congr ?employeeID <| and_congr ?employeeIn <|
    and_congr ?hasEmployee <| and_congr ?deviceID <| and_congr ?policyID <|
    and_congr ?eventTypes <| and_congr ?actions <| and_congr ?notActions <|
    and_congr ?categories <| and_congr ?notCategories <| and_congr ?anyOf <|
    and_congr ?since <| and_congr ?before <| and_congr ?untilTime <| and_congr ?search <|
    and_congr ?domains <| and_congr ?targetDomain <|
    and_assoc.symm.trans <| and_congr ?hasTargetDomain ?dedupeKey
  case orgID => simp [eq_true_iff (exact_identifier _ _), StoredEvent.get]
  case ids => simp [within_true_iff fun _ _ => exact_identifier _ _, StoredEvent.get]
  case employeeID => simp [eq_true_iff (exact_identifier _ _), StoredEvent.get]
  case employeeIn => simp [within_true_iff fun _ _ => exact_identifier _ _, StoredEvent.get]
  case hasEmployee => simp [Condition.truth, StoredEvent.get, Option.isSome_iff_ne_none]
  case deviceID => simp [eq_true_iff (exact_identifier _ _), StoredEvent.get]
  case policyID => simp [eq_true_iff (exact_identifier _ _), StoredEvent.get]
  case eventTypes =>
    have told : ∀ value ∈ query.eventTypes, Exact engine event .eventType value :=
      fun value valueMem => clear.exact (List.mem_append_left _ valueMem)
    simp [within_text_iff told, StoredEvent.get]
  case actions =>
    have told : ∀ value ∈ query.actions, Exact engine event .action value :=
      fun value valueMem => clear.exact
        (List.mem_append_left _ (List.mem_append_left _ valueMem))
    simp [within_text_iff told, StoredEvent.get]
  case notActions =>
    have told : ∀ value ∈ query.notActions, Exact engine event .action value :=
      fun value valueMem => clear.exact
        (List.mem_append_left _ (List.mem_append_right _ valueMem))
    refine imp_congr_right fun nonempty => ?_
    simp [notWithin_text_iff told nonempty, StoredEvent.get]
  case categories =>
    have told : ∀ value ∈ query.categories, Exact engine event .category value :=
      fun value valueMem => clear.exact
        (List.mem_append_left _ (List.mem_append_left _ valueMem))
    simp [within_text_iff told, StoredEvent.get]
  case notCategories =>
    have told : ∀ value ∈ query.notCategories, Exact engine event .category value :=
      fun value valueMem => clear.exact
        (List.mem_append_left _ (List.mem_append_right _ valueMem))
    refine imp_congr_right fun nonempty => notCategories_holds_iff nonempty told ?_
    exact fun unset excluded => clear.listed unset (List.mem_append_left _ excluded)
  case anyOf => exact clear.alternatives_holds_iff
  case since =>
    refine imp_congr_right fun set => ?_
    simp [Condition.truth, ediv_le_ediv_iff engine.tick_pos (clear.engineTime.since set)]
  case before =>
    refine imp_congr_right fun set => ?_
    simp [Condition.truth, ediv_lt_ediv_iff engine.tick_pos (clear.engineTime.before set)]
  case untilTime =>
    refine imp_congr_right fun set => ?_
    simp [Condition.truth, ediv_le_ediv_iff engine.tick_pos fun same =>
      clear.engineTime.until_ set same.symm]
  case search =>
    refine imp_congr_right fun _ => imp_congr_right fun _ => ?_
    simp only [List.mem_map, exists_exists_and_eq_and, StoredEvent.Contains, List.mem_singleton,
      exists_eq_left]
    refine exists_congr fun column => and_congr_right fun columnMem => ?_
    apply clear.lowerLike_holds
    exact List.mem_append_left _ (List.mem_map_of_mem columnMem)
  case domains =>
    refine imp_congr_right fun _ => ?_
    simp only [List.mem_map, exists_exists_and_eq_and, StoredEvent.Contains, List.mem_singleton,
      exists_eq_left]
    refine exists_congr fun domain => and_congr_right fun domainMem => ?_
    apply clear.lowerLike_holds
    exact List.mem_append_right _ (List.mem_map_of_mem domainMem)
  case targetDomain =>
    refine imp_congr_right fun set => ?_
    have told : Exact engine event .targetDomain query.targetDomain :=
      clear.exact (by simp [EventQuery.compared, set])
    simp [eq_true_iff told, StoredEvent.get]
  case hasTargetDomain =>
    rw [← imp_and]
    refine imp_congr_right fun asked => ?_
    have told : Exact engine event .targetDomain "" :=
      clear.exact (by simp [EventQuery.compared, asked])
    rw [neq_true_iff told]
    simp only [Condition.truth, StoredEvent.get, Option.some.injEq, and_iff_right_iff_imp]
    rintro ⟨domain, present, -⟩
    simp [present]
  case dedupeKey =>
    refine imp_congr_right fun set => ?_
    have told : Exact engine event .dedupeKey query.dedupeKey :=
      clear.exact (by simp [EventQuery.compared, set])
    simp [eq_true_iff told, StoredEvent.get]

theorem Clear.regex_holds
    {column : Column .text} {part : String} (lookup : (column, part) ∈ query.lookups) :
    (Test.regex column (containsRe part)).passes caseless event = true ↔
      ∃ text, event.get column = some text ∧ letterCase.contains part text = true := by
  apply passes_regex_iff
  intro text present first firstMem letter letterMem
  exact (clear.letters _ lookup text present first firstMem letter letterMem).2

theorem Clear.alternativesM_holds_iff :
    (alternativesM query.anyOf ≠ [] → ∃ part ∈ alternativesM query.anyOf,
        part.holds (Test.passes caseless event) = true) ↔
      (query.anyOf ≠ [] → ∃ clause ∈ query.anyOf, clause.Describes event) := by
  apply alternatives_iff clausePartsM_isEmpty _ clear.uniform
  intro clause clauseMem
  exact clausePartsM_holds_iff clause (clear.clauseListed clauseMem)

end

theorem timestamp_holds_iff (discerns : query.Discerns millisecond event.timestamp) :
    ((!query.since.isZero || !query.before.isZero || !query.until_.isZero) = true →
      (Test.timestamp (boundOf query.since) (boundOf query.before)
        (boundOf query.until_)).passes caseless event = true) ↔
      (query.since ≠ 0 → query.since ≤ event.timestamp) ∧
        (query.before ≠ 0 → event.timestamp < query.before) ∧
          (query.until_ ≠ 0 → event.timestamp ≤ query.until_) := by
  have positive : 0 < millisecond := by decide
  have since : (boundOf query.since).all (fun bound =>
      decide (bound / millisecond ≤ event.timestamp / millisecond)) = true ↔
        (query.since ≠ 0 → query.since ≤ event.timestamp) := by
    by_cases unset : query.since = 0
    · simp [boundOf, Time.isZero, unset]
    · simp [boundOf, Time.isZero, unset, ediv_le_ediv_iff positive (discerns.since unset)]
  have before : (boundOf query.before).all (fun bound =>
      decide (event.timestamp / millisecond < bound / millisecond)) = true ↔
        (query.before ≠ 0 → event.timestamp < query.before) := by
    by_cases unset : query.before = 0
    · simp [boundOf, Time.isZero, unset]
    · simp [boundOf, Time.isZero, unset, ediv_lt_ediv_iff positive (discerns.before unset)]
  have until_ : (boundOf query.until_).all (fun bound =>
      decide (event.timestamp / millisecond ≤ bound / millisecond)) = true ↔
        (query.until_ ≠ 0 → event.timestamp ≤ query.until_) := by
    by_cases unset : query.until_ = 0
    · simp [boundOf, Time.isZero, unset]
    · simp [boundOf, Time.isZero, unset, ediv_le_ediv_iff positive fun same =>
        discerns.until_ unset same.symm]
  simp only [Test.passes, Bool.and_eq_true, since, before, until_, and_assoc]
  refine ⟨fun asked => ?_, fun all _ => all⟩
  by_cases set : query.since ≠ 0 ∨ query.before ≠ 0 ∨ query.until_ ≠ 0
  · apply asked
    simpa [Time.isZero, or_assoc] using set
  · push Not at set
    simp [set.1, set.2.1, set.2.2]

theorem mongoAccepts_iff (clear : Clear letterCase engine caseless query event) :
    mongoAccepts caseless query event = true ↔ query.Describes letterCase event := by
  rw [EventQuery.describes_iff, mongoAccepts]
  simp only [eventFilter, holds_all, List.flatten_cons, List.flatten_nil, List.append_nil,
    List.forall_mem_append, forall_mem_partIf, forall_mem_partFor]
  simp only [Bool.not_eq_true', List.isEmpty_eq_false_iff, bne_iff_ne, Bool.and_eq_true,
    holds_atom, holds_any, and_imp]
  rw [timestamp_holds_iff clear.documentTime, and_assoc, and_assoc]
  refine and_congr ?orgID <| and_congr ?ids <| and_congr ?employeeID <| and_congr ?employeeIn <|
    and_congr ?hasEmployee <| and_congr ?deviceID <| and_congr ?policyID <|
    and_congr ?eventTypes <| and_congr ?actions <| and_congr ?notActions <|
    and_congr ?categories <| and_congr ?notCategories <| and_congr ?anyOf <|
    and_congr_right fun _ => and_congr_right fun _ => and_congr_right fun _ =>
    and_congr ?search <| and_congr ?domains <| and_congr ?targetDomain <|
    and_congr ?hasTargetDomain ?dedupeKey
  case orgID => simp [passes_eq_iff, StoredEvent.get]
  case ids => simp [passes_within_iff, StoredEvent.get]
  case employeeID => simp [passes_eq_iff, StoredEvent.get]
  case employeeIn => simp [passes_within_iff, StoredEvent.get]
  case hasEmployee => simp [passes_ne_iff, StoredEvent.get]
  case deviceID => simp [passes_eq_iff, StoredEvent.get]
  case policyID => simp [passes_eq_iff, StoredEvent.get]
  case eventTypes => simp [passes_within_iff, StoredEvent.get]
  case actions => simp [passes_within_iff, StoredEvent.get]
  case notActions => simp [passes_notWithin_iff, StoredEvent.get]
  case categories => simp [passes_within_iff, StoredEvent.get]
  case notCategories =>
    refine imp_congr_right fun _ => notCategoriesM_holds_iff ?_
    exact fun unset excluded => clear.listed unset (List.mem_append_left _ excluded)
  case anyOf => exact clear.alternativesM_holds_iff
  case search =>
    refine imp_congr_right fun _ => imp_congr_right fun _ => ?_
    simp only [List.mem_map, exists_exists_and_eq_and, StoredEvent.Contains, List.mem_singleton,
      exists_eq_left, holds_atom]
    refine exists_congr fun column => and_congr_right fun columnMem => ?_
    apply clear.regex_holds
    exact List.mem_append_left _ (List.mem_map_of_mem columnMem)
  case domains =>
    refine imp_congr_right fun _ => ?_
    simp only [List.mem_map, exists_exists_and_eq_and, StoredEvent.Contains, List.mem_singleton,
      exists_eq_left, holds_atom]
    refine exists_congr fun domain => and_congr_right fun domainMem => ?_
    apply clear.regex_holds
    exact List.mem_append_right _ (List.mem_map_of_mem domainMem)
  case targetDomain => simp [passes_eq_iff, StoredEvent.get]
  case hasTargetDomain =>
    refine imp_congr_right fun _ => ?_
    cases present : event.targetDomain with
    | none | some domain => simp [passes_notWithin_iff, StoredEvent.get, present]
  case dedupeKey => simp [passes_eq_iff, StoredEvent.get]

theorem agrees_of_clear (clear : Clear letterCase engine caseless query event) :
    Agrees letterCase engine caseless query event :=
  ⟨sqlAccepts_iff clear, mongoAccepts_iff clear⟩

end Queries

def domainQuery (part : String) : EventQuery := { domainContainsAny := [part] }

theorem clear_domainQuery {part : String} (event : StoredEvent)
    (plain : ∀ letter ∈ part.toList, likeMarks.special (letterCase.toLower letter) = false) :
    Clear letterCase (.postgres letterCase) letterCase.same (domainQuery part) event where
  plain := by
    intro lookup lookupMem
    simp only [domainQuery, EventQuery.lookups, EventQuery.searched, List.filterMap_nil,
      List.map_nil, List.nil_append, List.map_singleton, List.mem_singleton] at lookupMem
    subst lookupMem
    exact plain
  letters := by
    intro lookup _ text _ first _ letter _
    exact ⟨rfl, rfl⟩
  texts := by
    intro column value _ stored _ same
    exact of_decide_eq_true same
  engineTime := ⟨fun set => absurd rfl set, fun set => absurd rfl set, fun set => absurd rfl set⟩
  documentTime := ⟨fun set => absurd rfl set, fun set => absurd rfl set, fun set => absurd rfl set⟩
  listed := by simp [domainQuery, EventQuery.excluded]
  uniform := by simp [domainQuery]

def domainEvent (domain : String) : StoredEvent where
  id := UUID.zero
  orgID := UUID.zero
  employeeID := none
  deviceID := none
  policyID := none
  eventType := "web_request"
  action := "blocked"
  category := none
  targetDomain := some domain
  target := none
  processName := none
  policyName := none
  operation := none
  dedupeKey := none
  timestamp := 1

theorem sqlAccepts_domainQuery (part domain : String) :
    sqlAccepts letterCase engine (domainQuery part) (domainEvent domain) =
      covers engine.likeLetter (engine.read (letterCase.lower ("%" ++ part ++ "%")).toList)
        (domain.toList.map engine.lower) := by
  rw [Bool.eq_iff_iff, sqlAccepts, decide_eq_true_eq, truth_eq_true]
  simp [eventScope, domainQuery, partIf, partFor, alternatives, Time.isZero, anyOf, lowerLike,
    Condition.truth, domainEvent, StoredEvent.get]

/-- A part with a wildcard in it makes the SQL store select an event that does not contain it. -/
theorem plain_of_agrees {part : String}
    (agrees : ∀ event, Agrees letterCase (.postgres letterCase) letterCase.same (domainQuery part)
      event) :
    ∀ letter ∈ part.toList, likeMarks.special (letterCase.toLower letter) = false := by
  by_contra misread
  push Not at misread
  rcases misread with ⟨letter, letterMem, isSpecial⟩
  have notOne : 'x' ≠ likeMarks.one := by decide
  have special : ∃ lowered ∈ part.toList.map letterCase.toLower, likeMarks.special lowered = true :=
    ⟨_, List.mem_map_of_mem letterMem, by simpa using isSpecial⟩
  rcases exists_misread notOne special with ⟨text, covered, absent, fromLetters⟩
  have lowered : text.map letterCase.toLower = text := by
    apply (List.map_congr_left _).trans (List.map_id text)
    intro found foundMem
    rcases fromLetters found foundMem with inPart | rfl | rfl
    · rcases List.mem_map.mp inPart with ⟨original, -, rfl⟩
      exact letterCase.idempotent original
    · exact (letterCase.ascii 'x' (by decide)).trans (by decide)
    · exact toLower_percent
  have contained : letterCase.contains part (String.ofList text) = true := by
    have accepted : sqlAccepts letterCase (.postgres letterCase) (domainQuery part)
        (domainEvent (String.ofList text)) = true := by
      rw [sqlAccepts_domainQuery]
      simpa [toList_lower, toLower_percent, Engine.postgres, lowered, likeMarks] using covered
    have described := (agrees (domainEvent (String.ofList text))).sql.mp accepted
    rcases described.domains (by simp [domainQuery]) with ⟨column, columnMem, other, otherMem, there⟩
    simpa [domainQuery, List.mem_singleton.mp columnMem, List.mem_singleton.mp otherMem, domainEvent,
      StoredEvent.get] using there
  apply absent
  rw [← occurs_eq_iff, ← lowered, occurs_map]
  rw [LetterCase.contains, String.toList_ofList] at contained
  exact contained

/--
The stores agree on queries that are clear; and on a query for part of a domain they agree,
for every event, exactly when the part has no wildcard in it.
-/
theorem eventStores_agree :
    (∀ query event, Clear letterCase engine caseless query event →
      Agrees letterCase engine caseless query event) ∧
    ∀ part, (∀ event, Agrees letterCase (.postgres letterCase) letterCase.same (domainQuery part)
        event) ↔
      ∀ letter ∈ part.toList, likeMarks.special (letterCase.toLower letter) = false := by
  constructor
  · intro query event clear
    exact agrees_of_clear clear
  · intro part
    constructor
    · exact plain_of_agrees letterCase
    · intro plain event
      exact agrees_of_clear (clear_domainQuery letterCase event plain)

/-- The SQL store takes an underscore for any letter. -/
theorem not_forall_agrees :
    ¬∀ query event, Agrees asciiCase (.postgres asciiCase) asciiCase.same query event := by
  intro claimed
  have agrees := claimed (domainQuery "a_b") (domainEvent "axb")
  have accepted := agrees.mongo.mpr (agrees.sql.mp (by decide))
  exact absurd accepted (by decide)

end Aavishield.Dataplane
