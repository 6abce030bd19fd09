import Aavishield.Dataplane.EventQuery
import Aavishield.Lib.Formula

/-!
# The filter document of the Mongo store

`eventFilter` builds a document of tests that MongoDB evaluates.  A test takes an absent
field for a null one, and dates have milliseconds.
-/

namespace Aavishield.Dataplane

open Formula Wildcards

def metacharacter (letter : Char) : Bool :=
  "\\.+*?()|[]\x7b\x7d^$".toList.contains letter

def quoteMeta (text : String) : String :=
  String.ofList <| text.toList.flatMap fun letter =>
    if metacharacter letter then ['\\', letter] else [letter]

def literal : List Char → Option (List Char)
  | [] => some []
  | '\\' :: letter :: rest =>
    if metacharacter letter then (literal rest).map (letter :: ·) else none
  | letter :: rest => if metacharacter letter then none else (literal rest).map (letter :: ·)

/-- `bson.Regex` with the option `i`. -/
structure Regex where
  pattern : String

def containsRe (text : String) : Regex := ⟨quoteMeta text⟩

def Regex.finds (caseless : Char → Char → Bool) (regex : Regex) (text : String) : Bool :=
  match literal regex.pattern.toList with
  | some letters => occurs caseless letters text.toList
  | none => false

/-- A field with the operators `eventFilter` uses; `none` is null. -/
inductive Test where
  | eq {kind : Kind} (field : Column kind) (value : Option kind.Value)
  | ne {kind : Kind} (field : Column kind) (value : Option kind.Value)
  | within {kind : Kind} (field : Column kind) (values : List kind.Value)
  | notWithin {kind : Kind} (field : Column kind) (values : List (Option kind.Value))
  | regex (field : Column .text) (sought : Regex)
  | timestamp (gte lt lte : Option Time)

/-- `bson.DateTime` counts milliseconds. -/
def millisecond : ℤ := 1000000

def Test.passes (caseless : Char → Char → Bool) (event : StoredEvent) : Test → Bool
  | .eq field value => decide (event.get field = value)
  | .ne field value => decide (event.get field ≠ value)
  | .within field values => values.any fun value => decide (event.get field = some value)
  | .notWithin field values => !values.any fun value => decide (event.get field = value)
  | .regex field sought =>
    match event.get field with
    | some text => sought.finds caseless text
    | none => false
  | .timestamp gte lt lte =>
    let date := event.timestamp / millisecond
    gte.all (fun bound => decide (bound / millisecond ≤ date)) &&
      lt.all (fun bound => decide (date < bound / millisecond)) &&
        lte.all (fun bound => decide (date ≤ bound / millisecond))

def notCategoriesM (categories : List String) : Formula Test :=
  .any [.atom (.eq .category none), .atom (.notWithin .category (categories.map some))]

/-- The tests of one alternative of `AnyOf`. -/
def clausePartsM (clause : EventClause) : List (Formula Test) :=
  List.flatten
    [partIf (!clause.eventTypes.isEmpty) (.atom (.within .eventType clause.eventTypes)),
      partIf (!clause.actions.isEmpty) (.atom (.within .action clause.actions)),
      partIf (!clause.categories.isEmpty) (.atom (.within .category clause.categories)),
      partIf (!clause.notCategories.isEmpty) (notCategoriesM clause.notCategories)]

def alternativesM (clauses : List EventClause) : List (Formula Test) :=
  clauses.filterMap fun clause =>
    if (clausePartsM clause).isEmpty then none else some (.all (clausePartsM clause))

def boundOf (time : Time) : Option Time := if time.isZero then none else some time

def eventFilter (query : EventQuery) : Formula Test := .all <| List.flatten
  [partIf (query.orgID != UUID.zero) (.atom (.eq .orgID (some query.orgID))),
    partIf (!query.ids.isEmpty) (.atom (.within .id query.ids)),
    partFor query.employeeID fun id => .atom (.eq .employeeID (some id)),
    partIf query.restrictEmployees (.atom (.within .employeeID query.employeeIn)),
    partIf query.hasEmployee (.atom (.ne .employeeID none)),
    partFor query.deviceID fun id => .atom (.eq .deviceID (some id)),
    partFor query.policyID fun id => .atom (.eq .policyID (some id)),
    partIf (!query.eventTypes.isEmpty) (.atom (.within .eventType query.eventTypes)),
    partIf (!query.actions.isEmpty) (.atom (.within .action query.actions)),
    partIf (!query.notActions.isEmpty) (.atom (.notWithin .action (query.notActions.map some))),
    partIf (!query.categories.isEmpty) (.atom (.within .category query.categories)),
    partIf (!query.notCategories.isEmpty) (notCategoriesM query.notCategories),
    partIf (!(alternativesM query.anyOf).isEmpty) (.any (alternativesM query.anyOf)),
    partIf (!query.since.isZero || !query.before.isZero || !query.until_.isZero)
      (.atom (.timestamp (boundOf query.since) (boundOf query.before) (boundOf query.until_))),
    partIf (query.search != "" && !query.searched.isEmpty) <| .any <|
      query.searched.map fun field => .atom (.regex field (containsRe query.search)),
    partIf (!query.domainContainsAny.isEmpty) <| .any <| query.domainContainsAny.map fun domain =>
      .atom (.regex .targetDomain (containsRe domain)),
    partIf (query.targetDomain != "") (.atom (.eq .targetDomain (some query.targetDomain))),
    partIf query.hasTargetDomain (.atom (.notWithin .targetDomain [none, some ""])),
    partIf (query.dedupeKey != "") (.atom (.eq .dedupeKey (some query.dedupeKey)))]

def mongoAccepts (caseless : Char → Char → Bool) (query : EventQuery) (event : StoredEvent) :
    Bool :=
  (eventFilter query).holds (Test.passes caseless event)

theorem metacharacter_backslash : metacharacter '\\' = true := by decide

theorem literal_quoted (letters : List Char) :
    literal (letters.flatMap fun letter =>
      if metacharacter letter then ['\\', letter] else [letter]) = some letters := by
  induction letters with
  | nil => rfl
  | cons letter rest ih =>
    rw [List.flatMap_cons]
    split_ifs with isMeta
    · simp [literal, isMeta, ih]
    · have notBackslash : letter ≠ '\\' := by
        rintro rfl
        exact isMeta metacharacter_backslash
      rw [List.singleton_append, literal, if_neg isMeta, ih, Option.map_some]
      exact fun _ _ isBackslash => absurd isBackslash notBackslash

theorem finds_containsRe (caseless : Char → Char → Bool) (part text : String) :
    (containsRe part).finds caseless text = occurs caseless part.toList text.toList := by
  simp [Regex.finds, containsRe, quoteMeta, literal_quoted]

end Aavishield.Dataplane
