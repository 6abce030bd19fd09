import Aavishield.Dataplane.EventQuery
import Aavishield.Lib.Formula

/-!
# The row predicate of the SQL store

`eventScope` builds a WHERE clause; a row is selected when the clause is true of it, not
when it is unknown.  The engine that evaluates it is a parameter: Postgres, MySQL and SQL
Server differ in how they compare text and in what is special in a LIKE pattern.
-/

namespace Aavishield.Dataplane

open Formula Wildcards

/-- How a database compares letters and texts. -/
structure Engine where
  sameText : String → String → Bool
  sameText_refl : ∀ text, sameText text text = true
  /-- `LOWER`, on one letter. -/
  lower : Char → Char
  likeLetter : Char → Char → Bool
  special : Char → Bool
  read : List Char → List (Token Char)
  read_plain : ∀ letters, (∀ letter ∈ letters, special letter = false) →
    read ('%' :: (letters ++ ['%'])) = anywhere letters
  tick : ℤ
  tick_pos : 0 < tick

/-- The special letters of `LIKE`. -/
def likeMarks : Marks Char := ⟨'_', '%', '\\', by decide⟩

/-- Postgres, whose text compares exactly, where `LOWER` is `strings.ToLower`. -/
def Engine.postgres (letterCase : LetterCase) : Engine where
  sameText first second := decide (first = second)
  sameText_refl := by simp
  lower := letterCase.toLower
  likeLetter first letter := decide (first = letter)
  special := likeMarks.special
  read := likeMarks.read
  read_plain _ := Marks.read_plain
  tick := 1000
  tick_pos := by decide

def Engine.same (engine : Engine) : {kind : Kind} → kind.Value → kind.Value → Bool
  | .identifier, first, second => decide (first = second)
  | .text, first, second => engine.sameText first second

/-- The conditions `eventScope` uses (`clause.Eq`, `clause.IN` and so on). -/
inductive Condition where
  | eq {kind : Kind} (column : Column kind) (value : kind.Value)
  | neq {kind : Kind} (column : Column kind) (value : kind.Value)
  | isNull {kind : Kind} (column : Column kind)
  | notNull {kind : Kind} (column : Column kind)
  | within {kind : Kind} (column : Column kind) (values : List kind.Value)
  | notWithin {kind : Kind} (column : Column kind) (values : List kind.Value)
  | gte (bound : Time)
  | lt (bound : Time)
  | lte (bound : Time)
  | like (column : Column .text) (pattern : String)

def Condition.truth (engine : Engine) (event : StoredEvent) : Condition → Truth
  | .eq column value => (event.get column).map (engine.same · value)
  | .neq column value => (event.get column).map (!engine.same · value)
  | .isNull column => some (event.get column).isNone
  | .notNull column => some (event.get column).isSome
  | .within column values =>
    -- without values gorm writes `IN (NULL)`
    if values.isEmpty then none
    else (event.get column).map fun stored => values.any (engine.same stored)
  | .notWithin column values =>
    -- without values gorm writes `IS NOT NULL`
    if values.isEmpty then some (event.get column).isSome
    else (event.get column).map fun stored => !values.any (engine.same stored)
  | .gte bound => some (decide (bound / engine.tick ≤ event.timestamp / engine.tick))
  | .lt bound => some (decide (event.timestamp / engine.tick < bound / engine.tick))
  | .lte bound => some (decide (event.timestamp / engine.tick ≤ bound / engine.tick))
  | .like column pattern => (event.get column).map fun text =>
    covers engine.likeLetter (engine.read pattern.toList) (text.toList.map engine.lower)

section Scope

variable (letterCase : LetterCase)

def lowerLike (column : Column .text) (pattern : String) : Formula Condition :=
  .atom (.like column (letterCase.lower pattern))

def anyOf : List (Formula Condition) → Formula Condition
  | [only] => only
  | alternatives => .any alternatives

def notCategories (categories : List String) : Formula Condition :=
  .any [.atom (.isNull .category), .atom (.notWithin .category categories)]

/-- The conditions of one alternative of `AnyOf`. -/
def clauseParts (clause : EventClause) : List (Formula Condition) :=
  List.flatten
    [partIf (!clause.eventTypes.isEmpty) (.atom (.within .eventType clause.eventTypes)),
      partIf (!clause.actions.isEmpty) (.atom (.within .action clause.actions)),
      partIf (!clause.categories.isEmpty) (.atom (.within .category clause.categories)),
      partIf (!clause.notCategories.isEmpty) (notCategories clause.notCategories)]

def alternatives (clauses : List EventClause) : List (Formula Condition) :=
  clauses.filterMap fun clause =>
    if (clauseParts clause).isEmpty then none else some (.all (clauseParts clause))

def eventScope (query : EventQuery) : Formula Condition := .all <| List.flatten
  [partIf (query.orgID != UUID.zero) (.atom (.eq .orgID query.orgID)),
    partIf (!query.ids.isEmpty) (.atom (.within .id query.ids)),
    partFor query.employeeID fun id => .atom (.eq .employeeID id),
    partIf query.restrictEmployees (.atom (.within .employeeID query.employeeIn)),
    partIf query.hasEmployee (.atom (.notNull .employeeID)),
    partFor query.deviceID fun id => .atom (.eq .deviceID id),
    partFor query.policyID fun id => .atom (.eq .policyID id),
    partIf (!query.eventTypes.isEmpty) (.atom (.within .eventType query.eventTypes)),
    partIf (!query.actions.isEmpty) (.atom (.within .action query.actions)),
    partIf (!query.notActions.isEmpty) (.atom (.notWithin .action query.notActions)),
    partIf (!query.categories.isEmpty) (.atom (.within .category query.categories)),
    partIf (!query.notCategories.isEmpty) (notCategories query.notCategories),
    partIf (!(alternatives query.anyOf).isEmpty) (anyOf (alternatives query.anyOf)),
    partIf (!query.since.isZero) (.atom (.gte query.since)),
    partIf (!query.before.isZero) (.atom (.lt query.before)),
    partIf (!query.until_.isZero) (.atom (.lte query.until_)),
    partIf (query.search != "" && !query.searched.isEmpty) <| anyOf <|
      query.searched.map fun column => lowerLike letterCase column ("%" ++ query.search ++ "%"),
    partIf (!query.domainContainsAny.isEmpty) <| anyOf <| query.domainContainsAny.map fun domain =>
      lowerLike letterCase .targetDomain ("%" ++ domain ++ "%"),
    partIf (query.targetDomain != "") (.atom (.eq .targetDomain query.targetDomain)),
    partIf query.hasTargetDomain (.atom (.notNull .targetDomain)),
    partIf query.hasTargetDomain (.atom (.neq .targetDomain "")),
    partIf (query.dedupeKey != "") (.atom (.eq .dedupeKey query.dedupeKey))]

def sqlAccepts (engine : Engine) (query : EventQuery) (event : StoredEvent) : Bool :=
  decide ((eventScope letterCase query).truth (Condition.truth engine event) = some true)

end Scope

end Aavishield.Dataplane
