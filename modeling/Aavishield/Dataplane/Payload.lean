import Aavishield.Dataplane.Tables
import Aavishield.Lib.LossyText
import Aavishield.Lib.Trees

/-!
# Events as they are spooled

What becomes of the columns of an event between a write that failed and the one that
delivers it.  The texts of an event are bytes; `json.Marshal` writes them as characters, and
writes the numbers of the metadata as digits, which are read back as `float64`.
-/

namespace Aavishield.Dataplane.Payload

open LossyText

/-- The finite values of `float64`, and how `encoding/json` writes and reads them. -/
structure Floats (Real : Type) where
  format : Real → String
  parse : String → Real
  /-- What is written are the fewest digits that are read back as the number. -/
  exact : ∀ number, parse (format number) = number

inductive Scalar (Real : Type) where
  | null
  | bool (value : Bool)
  | int (value : ℤ)
  | float (value : Real)
  | string (value : Bytes)

/-- The columns of an event (`models.ActivityEvent`), with texts of any bytes. -/
structure Columns (Real Metadata : Type) where
  id : UUID
  orgID : UUID
  employeeID : Option UUID
  deviceID : Option UUID
  eventType : Bytes
  action : Bytes
  target : Bytes
  targetDomain : Bytes
  operation : Bytes
  category : Bytes
  processName : Bytes
  policyID : Option UUID
  policyName : Bytes
  riskScore : Real
  aiExplanation : Bytes
  ipAddress : Bytes
  geoCountry : Bytes
  geoCity : Bytes
  metadata : Metadata
  dedupeKey : Bytes
  timestamp : Time
  createdAt : Time

inductive JsonScalar where
  | null
  | bool (value : Bool)
  | number (digits : String)
  | text (value : List Char)

abbrev Event (Real : Type) := Columns Real (Option (List (String × Trees.Tree (Scalar Real))))

abbrev Row (Real : Type) := Columns Real (Option (List (String × Trees.Tree JsonScalar)))

instance {Real : Type} : HasID (Row Real) := ⟨Columns.id⟩

inductive Field where
  | null
  | uuid (id : UUID)
  | text (value : List Char)
  | number (digits : String)
  | time (instant : Time)
  | object (fields : List (String × Trees.Tree JsonScalar))

abbrev Object := List (String × Field)

/-- The JSON of a batch (`spooledBatch`). -/
structure BatchJson where
  events : List Object
  dedupeKeys : List (List Char)

variable {Real : Type} (floats : Floats Real)

def Scalar.encode : Scalar Real → JsonScalar
  | .null => .null
  | .bool value => .bool value
  | .int value => .number (toString value)
  | .float value => .number (floats.format value)
  | .string value => .text (lossy value)

def JsonScalar.decode : JsonScalar → Scalar Real
  | .null => .null
  | .bool value => .bool value
  | .number digits => .float (floats.parse digits)
  | .text value => .string (utf8 value)

def marshalTime (instant : Time) : Option Field :=
  if -(366 * 86400 * 10 ^ 9) ≤ instant ∧ instant < 315537897600 * 10 ^ 9 then some (.time instant)
  else none

def marshalID : Option UUID → Field
  | none => .null
  | some id => .uuid id

def marshalMetadata : Option (List (String × Trees.Tree (Scalar Real))) → Field
  | none => .null
  | some fields => .object (Trees.Tree.mapFields (Scalar.encode floats) fields)

/-- Without `DedupeKey`, which has no name in JSON, and what is nil or empty and may be left out. -/
def marshalEvent (event : Event Real) : Option Object := do
  let timestamp ← marshalTime event.timestamp
  let createdAt ← marshalTime event.createdAt
  return [("id", .uuid event.id), ("org_id", .uuid event.orgID),
    ("employee_id", marshalID event.employeeID), ("device_id", marshalID event.deviceID),
    ("event_type", .text (lossy event.eventType)), ("action", .text (lossy event.action)),
    ("target", .text (lossy event.target)), ("target_domain", .text (lossy event.targetDomain)),
    ("operation", .text (lossy event.operation)), ("category", .text (lossy event.category)),
    ("process_name", .text (lossy event.processName)), ("policy_id", marshalID event.policyID),
    ("policy_name", .text (lossy event.policyName)),
    ("risk_score", .number (floats.format event.riskScore)),
    ("ai_explanation", .text (lossy event.aiExplanation)),
    ("ip_address", .text (lossy event.ipAddress)), ("geo_country", .text (lossy event.geoCountry)),
    ("geo_city", .text (lossy event.geoCity)), ("metadata", marshalMetadata floats event.metadata),
    ("timestamp", timestamp), ("created_at", createdAt)]

def dedupeKeys (events : List (Event Real)) : List Bytes := events.map (·.dedupeKey)

/-- The batch as it is spooled. -/
def marshalBatch (events : List (Event Real)) : Option BatchJson := do
  let objects ← events.mapM (marshalEvent floats)
  return ⟨objects, (dedupeKeys events).map lossy⟩

namespace Field

def of (object : Object) (name : String) : Field := (object.lookup name).getD .null

def id : Field → Option UUID
  | null => some UUID.zero
  | uuid id => some id
  | _ => none

def idPointer : Field → Option (Option UUID)
  | null => some none
  | uuid id => some (some id)
  | _ => none

def string : Field → Option Bytes
  | null => some []
  | text value => some (utf8 value)
  | _ => none

def float : Field → Option Real
  | null => some (floats.parse "0")
  | number digits => some (floats.parse digits)
  | _ => none

def instant : Field → Option Time
  | null => some 0
  | time instant => some instant
  | _ => none

def map : Field → Option (Option (List (String × Trees.Tree (Scalar Real))))
  | null => some none
  | object fields => some (some (Trees.Tree.mapFields (JsonScalar.decode floats) fields))
  | _ => none

end Field

/-- `json.Unmarshal` of an event. -/
def unmarshalEvent (object : Object) : Option (Event Real) := do
  let id ← (Field.of object "id").id
  let orgID ← (Field.of object "org_id").id
  let employeeID ← (Field.of object "employee_id").idPointer
  let deviceID ← (Field.of object "device_id").idPointer
  let eventType ← (Field.of object "event_type").string
  let action ← (Field.of object "action").string
  let target ← (Field.of object "target").string
  let targetDomain ← (Field.of object "target_domain").string
  let operation ← (Field.of object "operation").string
  let category ← (Field.of object "category").string
  let processName ← (Field.of object "process_name").string
  let policyID ← (Field.of object "policy_id").idPointer
  let policyName ← (Field.of object "policy_name").string
  let riskScore ← (Field.of object "risk_score").float floats
  let aiExplanation ← (Field.of object "ai_explanation").string
  let ipAddress ← (Field.of object "ip_address").string
  let geoCountry ← (Field.of object "geo_country").string
  let geoCity ← (Field.of object "geo_city").string
  let metadata ← (Field.of object "metadata").map floats
  let timestamp ← (Field.of object "timestamp").instant
  let createdAt ← (Field.of object "created_at").instant
  return { id, orgID, employeeID, deviceID, eventType, action, target, targetDomain, operation,
           category, processName, policyID, policyName, riskScore, aiExplanation, ipAddress,
           geoCountry, geoCity, metadata, timestamp, createdAt, dedupeKey := [] }

def restoreKeys (events : List (Event Real)) (keys : List Bytes) : List (Event Real) :=
  events.mapIdx fun index event =>
    match keys[index]? with
    | some key => { event with dedupeKey := key }
    | none => event

/-- What `flushOrg` makes of a batch that it can open. -/
def unmarshalBatch (batch : BatchJson) : Option (List (Event Real)) := do
  let events ← batch.events.mapM (unmarshalEvent floats)
  return restoreKeys events (batch.dedupeKeys.map utf8)

variable (now : Time)

/-- `uuid.New`, which marks what it draws. -/
abbrev FreshID := { id : UUID // id ≠ UUID.zero }

inductive Engine where
  | sql
  | mongo

def clamp (text : Bytes) (count : ℕ) : Bytes :=
  if (lossy text).length ≤ count then text else utf8 ((lossy text).take count)

/-- What `InsertEvents` does to an event of a tenant's before it writes it. -/
def prepareEvent (engine : Engine) (fresh : FreshID) (event : Event Real) : Event Real :=
  let filled := { event with
    id := if event.id = UUID.zero then fresh.val else event.id
    action := if event.action = [] then "logged".toUTF8.toList else event.action
    timestamp := if event.timestamp.isZero then now else event.timestamp
    createdAt := if event.createdAt.isZero then now else event.createdAt }
  match engine with
  | .mongo => filled
  | .sql =>
    { filled with
      targetDomain := clamp filled.targetDomain 255
      dedupeKey := clamp filled.dedupeKey 255
      category := clamp filled.category 128
      ipAddress := clamp filled.ipAddress 64
      geoCountry := clamp filled.geoCountry 64
      geoCity := clamp filled.geoCity 128 }

def Columns.row (event : Event Real) : Row Real :=
  { event with metadata := event.metadata.map (Trees.Tree.mapFields (Scalar.encode floats)) }

/-- The identifier and creation time that `spoolEvents` gives to an event without them. -/
def stamp (fresh : FreshID) (event : Event Real) : Event Real :=
  { event with
    id := if event.id = UUID.zero then fresh.val else event.id
    createdAt := if event.createdAt.isZero then now else event.createdAt }

def maxDedupeKey : ℕ := 200

def normalizeDedupeKey (digest : Bytes → Bytes) (key : Bytes) : Bytes :=
  if key.length ≤ maxDedupeKey then key else key.take 40 ++ "#".toUTF8.toList ++ digest key

inductive Attempt where
  | unresolved
  | failed (write : Write)

/-- The events as `RecordEvents` leaves them to the spool. -/
def leftToSpool (engine : Engine) (fresh : ℕ → FreshID) (events : List (Event Real)) :
    Attempt → List (Event Real)
  | .unresolved => events.mapIdx fun index event => stamp now (fresh index) event
  | .failed _ => events.mapIdx fun index event =>
    stamp now (fresh index) (prepareEvent now engine (fresh index) event)

def attempted (engine : Engine) (fresh : ℕ → FreshID) (events : List (Event Real))
    (table : Table (Row Real)) : Attempt → Table (Row Real)
  | .unresolved => table
  | .failed write => write.apply table
      (events.mapIdx fun index event => (prepareEvent now engine (fresh index) event).row floats)

def insertEach : List (Row Real) → List Write → Table (Row Real) → Option (Table (Row Real) × Bool)
  | [], _, table => some (table, true)
  | _ :: _, [], _ => none
  | row :: rest, write :: writes, table =>
    if write.possible table [row] then
      match write with
      | .failed _ => some (write.apply table [row], false)
      | .ok | .duplicateKey _ => insertEach rest writes (write.apply table [row])
    else none

/-- A turn of the loop of `flushOrg`, and whether it counts the batch as delivered. -/
def flushBatch (engine : Engine) (fresh : ℕ → FreshID) (opened : Option BatchJson)
    (whole : Write) (singles : List Write) (table : Table (Row Real)) :
    Option (Table (Row Real) × Bool) :=
  match opened.bind (unmarshalBatch floats) with
  -- A batch that cannot be read is dropped.
  | none => some (table, true)
  | some events =>
    let rows := events.mapIdx fun index event =>
      (prepareEvent now engine (fresh index) event).row floats
    if whole.possible table rows then
      match whole with
      | .ok => some (whole.apply table rows, true)
      | .failed _ => some (whole.apply table rows, false)
      -- The events are prepared by now, and stay as they are.
      | .duplicateKey _ => insertEach rows singles (whole.apply table rows)
    else none

end Aavishield.Dataplane.Payload
