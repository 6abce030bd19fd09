import Aavishield.Dataplane.Event
import Aavishield.Lib.TransitionSystem
import Mathlib.Data.List.Sort

/-!
# Recording events and folding repeated reports

`RecordDeduped` folds a report into the row that already stands for it: same
device, event type, action and dedupe key, last seen within a window of the report's
own time.  Anything else, and any failure of the folding, becomes a new row.

The model is one organization's table.  Calls take the lock of their key, so they run
one after another; the store they resolve to is reachable and stores what it is given.
-/

namespace Aavishield.Dataplane.Record

/--
What differs between the engines a store may run on: the precision its instants are
kept with, and which texts its comparisons take for equal.  `shortKey` is what stands
for a key of more than `maxDedupeKey` bytes: its beginning and its digest.
-/
structure Store where
  round : Time → Time
  sameText : String → String → Bool
  shortKey : String → String

def maxDedupeKey : ℕ := 200

def lookback : ℤ := 24 * 60 * 60 * 10 ^ 9

def eventActionLogged : String := "logged"

def Store.normalizeDedupeKey (store : Store) (key : String) : String :=
  if key.utf8ByteSize ≤ maxDedupeKey then key else store.shortKey key

def lastSeen (event : ActivityEvent) : Time :=
  match event.metadata "last_seen_at" with
  | some (.time instant) => instant
  | _ => event.timestamp

def repeatCount (metadata : Metadata) : ℤ :=
  match metadata "repeat_count" with
  | some (.number count) => count
  | _ => 1

/-- What the callers of `RecordDeduped` pass as `merge`. -/
inductive Merge where
  | none
  | fillTarget (filename : String)
  | keepWorstDLP
  | mergeExtensionProfiles
  deriving DecidableEq

def Metadata.copy (names : List String) (next kept : Metadata) : Metadata :=
  names.foldl
    (fun metadata name =>
      match next name with
      | some value => metadata.set name value
      | none => metadata)
    kept

def fillTarget (filename : String) (kept : ActivityEvent) : ActivityEvent :=
  if kept.target = "" ∧ filename ≠ "" then { kept with target := filename } else kept

def keepWorstDLP (kept next : ActivityEvent) : ActivityEvent :=
  if next.riskScore ≤ kept.riskScore then kept
  else
    { kept with
      riskScore := next.riskScore
      policyID := next.policyID
      policyName := next.policyName
      metadata := Metadata.copy ["score", "band", "matches"] next.metadata kept.metadata
      target := if kept.target = "" then next.target else kept.target }

def profileNames : Option JsonValue → List String
  | some (.string name) => if name = "" then [] else [name]
  | _ => []

def listedProfiles : Option JsonValue → List String
  | some (.array items) => items.flatMap fun item => profileNames (some item)
  | _ => []

def mergeExtensionProfiles (kept next : ActivityEvent) : ActivityEvent :=
  let names := listedProfiles (kept.metadata "profiles") ++ profileNames (kept.metadata "profile") ++
    profileNames (next.metadata "profile")
  let profiles := names.foldl (fun seen name => if name ∈ seen then seen else seen ++ [name]) []
  let value := if profiles.isEmpty then .null else .array (profiles.map .string)
  { kept with metadata := kept.metadata.set "profiles" value }

def Merge.apply : Merge → ActivityEvent → ActivityEvent → ActivityEvent
  | .none, kept, _ => kept
  | .fillTarget filename, kept, _ => Record.fillTarget filename kept
  | .keepWorstDLP, kept, next => Record.keepWorstDLP kept next
  | .mergeExtensionProfiles, kept, next => Record.mergeExtensionProfiles kept next

structure EventKey where
  deviceID : Option UUID
  eventType : String
  action : String
  dedupeKey : String
  deriving DecidableEq

def keyOf (event : ActivityEvent) : EventKey where
  deviceID := event.deviceID
  eventType := event.eventType
  action := event.action
  dedupeKey := event.dedupeKey

/-- One call of `UpdateEvent` that folded a report: the row before and after. -/
structure Update where
  before : ActivityEvent
  after : ActivityEvent
  reportedAt : Time
  window : ℤ
  merge : Merge

/-- The rows, with the reports and the updates for the record. -/
structure State where
  rows : List ActivityEvent
  reports : List EventKey
  updates : List Update

def State.initial : State where
  rows := []
  reports := []
  updates := []

/-- A call of `RecordDeduped`. -/
structure Report where
  event : ActivityEvent
  key : String
  window : ℤ
  merge : Merge

/-- A report with or without a key to fold it by. -/
inductive Action where
  | record (event : ActivityEvent) (fresh : UUID) (now : Time)
  | recordDeduped (report : Report) (fresh : UUID) (now : Time) (found updated : Bool)

def Store.prepareEvent (store : Store) (fresh : UUID) (now : Time) (event : ActivityEvent) :
    ActivityEvent :=
  { event with
    id := if event.id = UUID.zero then fresh else event.id
    action := if event.action = "" then eventActionLogged else event.action
    timestamp := store.round (if event.timestamp.isZero then now else event.timestamp)
    createdAt := store.round (if event.createdAt.isZero then now else event.createdAt) }

/-- `RecordEvents` of one event; the store refuses an id that it already holds. -/
def State.recordEvents (store : Store) (state : State) (event : ActivityEvent) (fresh : UUID)
    (now : Time) : Option State :=
  let row := store.prepareEvent fresh now event
  if state.rows.any (·.id = row.id) then none
  else some { state with rows := row :: state.rows, reports := keyOf row :: state.reports }

/-- The report's event as `RecordDeduped` completes it before it looks for its row. -/
def Report.completed (store : Store) (report : Report) (now : Time) : ActivityEvent :=
  let event := { report.event with
    timestamp := if report.event.timestamp.isZero then now else report.event.timestamp }
  if event.deviceID = none ∨ report.key = "" then event
  else
    let key := store.normalizeDedupeKey report.key
    { event with
      metadata := event.metadata.set "dedupe_key" (.string key)
      dedupeKey := key }

def newestFirst (first second : ActivityEvent) : Bool :=
  decide (second.timestamp < first.timestamp) ||
    (decide (second.timestamp = first.timestamp) && decide (second.id.bits ≤ first.id.bits))

def Store.isCandidate (store : Store) (event row : ActivityEvent) : Bool :=
  decide (row.deviceID = event.deviceID) && store.sameText row.eventType event.eventType &&
    store.sameText row.action event.action && store.sameText row.dedupeKey event.dedupeKey &&
      decide (store.round (event.timestamp - lookback) ≤ row.timestamp)

def Store.candidates (store : Store) (rows : List ActivityEvent) (event : ActivityEvent) :
    List ActivityEvent :=
  ((rows.filter (store.isCandidate event)).insertionSort (newestFirst · ·)).take 20

def Report.kept (store : Store) (report : Report) (rows : List ActivityEvent) (now : Time)
    (found : Bool) : Option ActivityEvent :=
  let event := report.completed store now
  if event.deviceID = none ∨ report.key = "" ∨ found = false then none
  else
    (store.candidates rows event).find? fun row =>
      decide (event.timestamp - report.window < lastSeen row)

def Report.fold (report : Report) (event kept : ActivityEvent) : ActivityEvent :=
  let counted := { kept with
    metadata := (kept.metadata.set "repeat_count" (.number (repeatCount kept.metadata + 1))).set
      "last_seen_at" (.time event.timestamp) }
  report.merge.apply counted event

def updateEvent (rows : List ActivityEvent) (changed : ActivityEvent) : List ActivityEvent :=
  rows.map fun row =>
    if row.id = changed.id then
      { row with
        metadata := changed.metadata
        riskScore := changed.riskScore
        target := changed.target
        policyID := changed.policyID
        policyName := changed.policyName }
    else row

/-- `RecordDeduped`; `found` and `updated` tell whether its lookup and its update succeed. -/
def State.recordDeduped (store : Store) (state : State) (report : Report) (fresh : UUID)
    (now : Time) (found updated : Bool) : Option State :=
  let event := report.completed store now
  match report.kept store state.rows now found with
  | none => state.recordEvents store event fresh now
  | some kept =>
    if updated then
      let changed := report.fold event kept
      some {
        rows := updateEvent state.rows changed
        reports := keyOf (store.prepareEvent fresh now event) :: state.reports
        updates := ⟨kept, changed, event.timestamp, report.window, report.merge⟩ ::
          state.updates }
    else state.recordEvents store event fresh now

def step (store : Store) (state : State) : Action → Option State
  | .record event fresh now => state.recordEvents store event fresh now
  | .recordDeduped report fresh now found updated =>
    state.recordDeduped store report fresh now found updated

end Aavishield.Dataplane.Record
