import Aavishield.Basic

/-!
# Activity events

The records that the data plane stores, moves and folds.  They are shared by
the spool, the stores, the mover and the folding of repeated reports.
-/

namespace Aavishield.Dataplane

/--
A decoded JSON value.  The readers of an event's metadata only ever truncate a
number to an `int`, so numbers are integers here; and a string in the form of RFC
3339 is kept as the instant it denotes.
-/
inductive JsonValue where
  | null
  | bool (value : Bool)
  | number (value : ℤ)
  | string (value : String)
  | time (instant : Time)
  | array (items : List JsonValue)

/-- An event's free-form details (`map[string]any`). -/
abbrev Metadata := String → Option JsonValue

def Metadata.set (metadata : Metadata) (name : String) (value : JsonValue) : Metadata :=
  Function.update metadata name (some value)

@[simp]
theorem Metadata.set_self (metadata : Metadata) (name : String) (value : JsonValue) :
    metadata.set name value name = some value :=
  Function.update_self _ _ _

@[simp]
theorem Metadata.set_of_ne (metadata : Metadata) {name other : String} (value : JsonValue)
    (differs : other ≠ name) : metadata.set name value other = metadata other :=
  Function.update_of_ne differs _ _

/-- One row of employee activity (`models.ActivityEvent`). -/
structure ActivityEvent where
  id : UUID
  orgID : UUID
  employeeID : Option UUID
  deviceID : Option UUID
  eventType : String
  action : String
  target : String
  targetDomain : String
  operation : String
  category : String
  processName : String
  policyID : Option UUID
  policyName : String
  riskScore : ℤ
  aiExplanation : String
  ipAddress : String
  geoCountry : String
  geoCity : String
  metadata : Metadata
  dedupeKey : String
  timestamp : Time
  createdAt : Time

end Aavishield.Dataplane
