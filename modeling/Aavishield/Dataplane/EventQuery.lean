import Aavishield.Basic
import Aavishield.Lib.Text
import Aavishield.Lib.Wildcards

/-!
# Queries for events

The fields of an `EventQuery` that select events, and what the `Store` interface says they
select.
-/

namespace Aavishield.Dataplane

/-- The columns of an event that a query looks at. -/
structure StoredEvent where
  id : UUID
  orgID : UUID
  employeeID : Option UUID
  deviceID : Option UUID
  policyID : Option UUID
  eventType : String
  action : String
  category : Option String
  targetDomain : Option String
  target : Option String
  processName : Option String
  policyName : Option String
  operation : Option String
  dedupeKey : Option String
  timestamp : Time

inductive Kind where
  | identifier
  | text

@[reducible]
def Kind.Value : Kind → Type
  | .identifier => UUID
  | .text => String

instance (kind : Kind) : DecidableEq kind.Value :=
  match kind with
  | .identifier => inferInstanceAs (DecidableEq UUID)
  | .text => inferInstanceAs (DecidableEq String)

/-- The columns of `activity_events`, which are the fields of a document too. -/
inductive Column : Kind → Type where
  | id : Column .identifier
  | orgID : Column .identifier
  | employeeID : Column .identifier
  | deviceID : Column .identifier
  | policyID : Column .identifier
  | eventType : Column .text
  | action : Column .text
  | category : Column .text
  | targetDomain : Column .text
  | target : Column .text
  | processName : Column .text
  | policyName : Column .text
  | operation : Column .text
  | dedupeKey : Column .text

def StoredEvent.get (event : StoredEvent) {kind : Kind} : Column kind → Option kind.Value
  | .id => some event.id
  | .orgID => some event.orgID
  | .employeeID => event.employeeID
  | .deviceID => event.deviceID
  | .policyID => event.policyID
  | .eventType => some event.eventType
  | .action => some event.action
  | .category => event.category
  | .targetDomain => event.targetDomain
  | .target => event.target
  | .processName => event.processName
  | .policyName => event.policyName
  | .operation => event.operation
  | .dedupeKey => event.dedupeKey

/-- One alternative of `AnyOf`. -/
structure EventClause where
  eventTypes : List String := []
  actions : List String := []
  categories : List String := []
  notCategories : List String := []

structure EventQuery where
  orgID : UUID := UUID.zero
  ids : List UUID := []
  employeeID : Option UUID := none
  restrictEmployees : Bool := false
  employeeIn : List UUID := []
  hasEmployee : Bool := false
  deviceID : Option UUID := none
  policyID : Option UUID := none
  eventTypes : List String := []
  actions : List String := []
  notActions : List String := []
  categories : List String := []
  notCategories : List String := []
  anyOf : List EventClause := []
  since : Time := 0
  before : Time := 0
  until_ : Time := 0
  search : String := ""
  searchFields : List String := []
  domainContainsAny : List String := []
  targetDomain : String := ""
  hasTargetDomain : Bool := false
  dedupeKey : String := ""

/-- `searchableEventFields`: what a name in `SearchFields` stands for. -/
def searchableEventFields : String → Option (Column .text)
  | "target" => some .target
  | "target_domain" => some .targetDomain
  | "process_name" => some .processName
  | "category" => some .category
  | "policy_name" => some .policyName
  | "operation" => some .operation
  | _ => none

def EventQuery.searched (query : EventQuery) : List (Column .text) :=
  query.searchFields.filterMap searchableEventFields

/-- `unicode.ToLower`, by which `strings.ToLower` maps every letter. -/
structure LetterCase where
  toLower : Char → Char
  ascii : ∀ letter : Char, letter.val < 128 → toLower letter = letter.toLower
  idempotent : ∀ letter, toLower (toLower letter) = toLower letter

def asciiCase : LetterCase := ⟨Char.toLower, fun _ _ => rfl, Text.toLower_toLower⟩

def LetterCase.lower (letterCase : LetterCase) (text : String) : String :=
  String.ofList (text.toList.map letterCase.toLower)

def LetterCase.same (letterCase : LetterCase) (first second : Char) : Bool :=
  decide (letterCase.toLower first = letterCase.toLower second)

def LetterCase.contains (letterCase : LetterCase) (part text : String) : Bool :=
  Wildcards.occurs letterCase.same part.toList text.toList

variable (letterCase : LetterCase)

def StoredEvent.unlisted (event : StoredEvent) (categories : List String) : Prop :=
  ∀ category, event.category = some category → category ≠ "" → category ∉ categories

/-- The non-empty fields of a clause all hold. -/
@[mk_iff]
structure EventClause.Describes (clause : EventClause) (event : StoredEvent) : Prop where
  eventTypes : clause.eventTypes ≠ [] → event.eventType ∈ clause.eventTypes
  actions : clause.actions ≠ [] → event.action ∈ clause.actions
  categories : clause.categories ≠ [] →
    ∃ category ∈ clause.categories, event.category = some category
  notCategories : clause.notCategories ≠ [] → event.unlisted clause.notCategories

def StoredEvent.Contains (event : StoredEvent) (parts : List String)
    (columns : List (Column .text)) : Prop :=
  ∃ column ∈ columns, ∃ part ∈ parts, ∃ text, event.get column = some text ∧
    letterCase.contains part text = true

/-- What the `Store` interface says of the fields of an `EventQuery`. -/
@[mk_iff]
structure EventQuery.Describes (query : EventQuery) (event : StoredEvent) : Prop where
  orgID : query.orgID ≠ UUID.zero → event.orgID = query.orgID
  ids : query.ids ≠ [] → event.id ∈ query.ids
  employeeID : ∀ id, query.employeeID = some id → event.employeeID = some id
  employeeIn : query.restrictEmployees = true → ∃ id ∈ query.employeeIn, event.employeeID = some id
  hasEmployee : query.hasEmployee = true → event.employeeID ≠ none
  deviceID : ∀ id, query.deviceID = some id → event.deviceID = some id
  policyID : ∀ id, query.policyID = some id → event.policyID = some id
  eventTypes : query.eventTypes ≠ [] → event.eventType ∈ query.eventTypes
  actions : query.actions ≠ [] → event.action ∈ query.actions
  notActions : query.notActions ≠ [] → event.action ∉ query.notActions
  categories : query.categories ≠ [] →
    ∃ category ∈ query.categories, event.category = some category
  notCategories : query.notCategories ≠ [] → event.unlisted query.notCategories
  anyOf : query.anyOf ≠ [] → ∃ clause ∈ query.anyOf, clause.Describes event
  since : query.since ≠ 0 → query.since ≤ event.timestamp
  before : query.before ≠ 0 → event.timestamp < query.before
  until_ : query.until_ ≠ 0 → event.timestamp ≤ query.until_
  search : query.search ≠ "" → query.searched ≠ [] →
    event.Contains letterCase [query.search] query.searched
  domains : query.domainContainsAny ≠ [] →
    event.Contains letterCase query.domainContainsAny [.targetDomain]
  targetDomain : query.targetDomain ≠ "" → event.targetDomain = some query.targetDomain
  hasTargetDomain : query.hasTargetDomain = true →
    ∃ domain, event.targetDomain = some domain ∧ domain ≠ ""
  dedupeKey : query.dedupeKey ≠ "" → event.dedupeKey = some query.dedupeKey

end Aavishield.Dataplane
