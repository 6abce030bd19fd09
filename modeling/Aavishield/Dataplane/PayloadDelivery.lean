import Aavishield.Dataplane.Payload
import Mathlib

/-!
# What comes back from the spool

A batch is read back with its texts respelled and the whole numbers of its metadata rounded
to a `float64`; nothing else about it changes.  A flush that reads it puts each of its events
in the store once, those included that the failed write had stored.
-/

namespace Aavishield.Dataplane.Payload

open LossyText

variable {Real : Type} {floats : Floats Real} {event : Event Real} {events : List (Event Real)}

def respell (text : Bytes) : Bytes := utf8 (lossy text)

def Columns.reread (floats : Floats Real) (event : Event Real) : Event Real :=
  { event with
    eventType := respell event.eventType
    action := respell event.action
    target := respell event.target
    targetDomain := respell event.targetDomain
    operation := respell event.operation
    category := respell event.category
    processName := respell event.processName
    policyName := respell event.policyName
    aiExplanation := respell event.aiExplanation
    ipAddress := respell event.ipAddress
    geoCountry := respell event.geoCountry
    geoCity := respell event.geoCity
    metadata := event.metadata.map
      (Trees.Tree.mapFields fun scalar => (scalar.encode floats).decode floats)
    dedupeKey := respell event.dedupeKey }

def Columns.texts (event : Event Real) : List Bytes :=
  [event.eventType, event.action, event.target, event.targetDomain, event.operation,
    event.category, event.processName, event.policyName, event.aiExplanation, event.ipAddress,
    event.geoCountry, event.geoCity, event.dedupeKey]

/-- A whole number comes back with the same digits. -/
def Scalar.Keeps (floats : Floats Real) : Scalar Real → Prop
  | .int value => floats.format (floats.parse (toString value)) = toString value
  | .null | .bool _ | .float _ | .string _ => True

/-- The texts are UTF-8, and the whole numbers in the metadata are kept by a `float64`. -/
structure Columns.Plain (floats : Floats Real) (event : Event Real) : Prop where
  texts : ∀ text ∈ event.texts, Valid text
  metadata : ∀ fields, event.metadata = some fields →
    ∀ scalar ∈ Trees.Tree.leavesOfFields fields, scalar.Keeps floats

theorem Scalar.encode_decode_encode (scalar : Scalar Real) :
    ((scalar.encode floats).decode floats).encode floats = scalar.encode floats ↔
      scalar.Keeps floats := by
  cases scalar <;> simp [Scalar.encode, JsonScalar.decode, Scalar.Keeps, floats.exact]

theorem persisted_reread_iff (metadata : Option (List (String × Trees.Tree (Scalar Real)))) :
    (metadata.map (Trees.Tree.mapFields fun scalar => (scalar.encode floats).decode floats)).map
        (Trees.Tree.mapFields (Scalar.encode floats)) =
      metadata.map (Trees.Tree.mapFields (Scalar.encode floats)) ↔
      ∀ fields, metadata = some fields →
        ∀ scalar ∈ Trees.Tree.leavesOfFields fields, scalar.Keeps floats := by
  cases metadata with
  | none => simp
  | some fields =>
    simp [Trees.Tree.mapFields_mapFields, Trees.Tree.mapFields_eq_iff, Scalar.encode_decode_encode]

theorem row_reread_iff : (event.reread floats).row floats = event.row floats ↔
    event.Plain floats := by
  constructor
  · intro same
    have metadata := congrArg Columns.metadata same
    refine ⟨?_, (persisted_reread_iff event.metadata).mp metadata⟩
    simp only [Columns.row, Columns.reread, Columns.mk.injEq] at same
    simp only [Columns.texts, List.forall_mem_cons]
    tauto
  · intro plain
    have metadata := (persisted_reread_iff event.metadata).mpr plain.metadata
    have texts := plain.texts
    simp only [Columns.texts, List.forall_mem_cons] at texts
    simp only [Columns.row, Columns.reread, Columns.mk.injEq]
    tauto

theorem time_of_marshalTime {instant : Time} {field : Field}
    (marshalled : marshalTime instant = some field) : field = .time instant := by
  unfold marshalTime at marshalled
  split_ifs at marshalled
  exact (Option.some.inj marshalled).symm

@[simp]
theorem idPointer_marshalID (id : Option UUID) : (marshalID id).idPointer = some id := by
  cases id <;> rfl

@[simp]
theorem map_marshalMetadata (metadata : Option (List (String × Trees.Tree (Scalar Real)))) :
    (marshalMetadata floats metadata).map floats = some (metadata.map
      (Trees.Tree.mapFields fun scalar => (scalar.encode floats).decode floats)) := by
  cases metadata with
  | none => rfl
  | some fields =>
    simp [marshalMetadata, Field.map, Trees.Tree.mapFields_mapFields, Function.comp_def]

theorem unmarshalEvent_of_marshalEvent {object : Object}
    (marshalled : marshalEvent floats event = some object) :
    unmarshalEvent floats object = some { event.reread floats with dedupeKey := [] } := by
  simp only [marshalEvent, Option.bind_eq_bind, Option.bind_eq_some_iff, Option.pure_def,
    Option.some.injEq] at marshalled
  rcases marshalled with ⟨timestamp, first, createdAt, second, rfl⟩
  cases time_of_marshalTime first
  cases time_of_marshalTime second
  simp [unmarshalEvent, Field.of, List.lookup, Field.id, Field.string, Field.float, Field.instant,
    floats.exact, Columns.reread, respell]

theorem mapM_unmarshalEvent {objects : List Object}
    (marshalled : events.mapM (marshalEvent floats) = some objects) :
    objects.mapM (unmarshalEvent floats) =
      some (events.map fun event => { event.reread floats with dedupeKey := [] }) := by
  induction events generalizing objects with
  | nil =>
    cases marshalled
    rfl
  | cons event rest ih =>
    simp only [List.mapM_cons, Option.bind_eq_bind, Option.bind_eq_some_iff, Option.pure_def,
      Option.some.injEq] at marshalled
    rcases marshalled with ⟨object, first, others, later, rfl⟩
    simp [unmarshalEvent_of_marshalEvent first, ih later]

theorem restoreKeys_reread :
    restoreKeys (events.map fun event => { event.reread floats with dedupeKey := [] })
      (((dedupeKeys events).map lossy).map utf8) = events.map (Columns.reread floats) := by
  apply List.ext_getElem
  · simp [restoreKeys]
  · intro index _ inRange
    have inEvents : index < events.length := by simpa using inRange
    simp [restoreKeys, dedupeKeys, inEvents, Columns.reread, respell]

theorem unmarshalBatch_of_marshalBatch {payload : BatchJson}
    (marshalled : marshalBatch floats events = some payload) :
    unmarshalBatch floats payload = some (events.map (Columns.reread floats)) := by
  simp only [marshalBatch, Option.bind_eq_bind, Option.bind_eq_some_iff, Option.pure_def,
    Option.some.injEq] at marshalled
  rcases marshalled with ⟨objects, marshalled, rfl⟩
  simp only [unmarshalBatch, mapM_unmarshalEvent marshalled, Option.bind_eq_bind, Option.bind_some,
    Option.pure_def, restoreKeys_reread]

section Delivery

variable {rows : List (Row Real)} {writes : List Write} {table left : Table (Row Real)} {row : Row Real}

theorem holds_insertEach {id : UUID} {delivered : Bool}
    (inserted : insertEach rows writes table = some (left, delivered)) (held : table.Holds id) :
    left.Holds id := by
  induction rows generalizing table writes with
  | nil =>
    cases inserted
    exact held
  | cons row rest ih =>
    cases writes with
    | nil => cases inserted
    | cons write writes =>
      unfold insertEach at inserted
      split_ifs at inserted
      have kept : (write.apply table [row]).Holds id := write.holds_apply held
      cases write with
      | failed landed =>
        cases inserted
        exact kept
      | ok | duplicateKey landed => exact ih inserted kept

theorem holds_of_insertEach (inserted : insertEach rows writes table = some (left, true)) :
    ∀ row ∈ rows, left.Holds row.id := by
  induction rows generalizing table writes with
  | nil => simp
  | cons row rest ih =>
    cases writes with
    | nil => cases inserted
    | cons write writes =>
      unfold insertEach at inserted
      split_ifs at inserted with possible
      cases write with
      | failed landed => cases inserted
      | ok | duplicateKey landed =>
        simp only [List.forall_mem_cons]
        refine ⟨holds_insertEach inserted ?_, ih inserted⟩
        exact Write.holds_of_single possible (by simp)

end Delivery

/-- A batch that was not inserted, and what is found when the database is back. -/
structure Outage (Real : Type) where
  engine : Engine
  now : Time
  fresh : ℕ → FreshID
  events : List (Event Real)
  attempt : Attempt
  table : Table (Row Real)
  others : List (Row Real)
  opens : Bool

namespace Outage

variable (outage : Outage Real)

/-- The events of the batch that the spool gets. -/
def spooled : List (Event Real) :=
  leftToSpool outage.now outage.engine outage.fresh outage.events outage.attempt

def waiting (floats : Floats Real) : Table (Row Real) :=
  (attempted floats outage.now outage.engine outage.fresh outage.events outage.table
    outage.attempt).insertAll outage.others

/-- What is spooled is read back as it was, and is in the table once after a flush. -/
def ComesBack (floats : Floats Real) : Prop :=
  ∀ payload, marshalBatch floats outage.spooled = some payload →
    (unmarshalBatch floats payload).map (List.map (Columns.row floats)) =
        some (outage.spooled.map (Columns.row floats)) ∧
      ∀ later fresh whole singles table,
        flushBatch floats later outage.engine fresh (if outage.opens then some payload else none)
            whole singles (outage.waiting floats) = some (table, true) →
          ∀ event ∈ outage.spooled, (table.rows.map HasID.id).count event.id = 1

end Outage

def AlwaysComesBack : Prop :=
  ∀ (Real : Type) (floats : Floats Real) (outage : Outage Real), outage.ComesBack floats

variable {outage : Outage Real} {payload : BatchJson} {table left : Table (Row Real)}

theorem count_of_holds {id : UUID} (held : table.Holds id) :
    (table.rows.map HasID.id).count id = 1 :=
  List.count_eq_one_of_mem table.distinct held

theorem holds_of_count {id : UUID} (once : (table.rows.map HasID.id).count id = 1) :
    table.Holds id := by
  apply List.one_le_count_iff.mp
  omega

theorem id_ne_zero {event : Event Real} (eventMem : event ∈ outage.spooled) :
    event.id ≠ UUID.zero := by
  cases attempt : outage.attempt with
  | unresolved | failed write =>
    simp only [Outage.spooled, leftToSpool, attempt] at eventMem
    rcases List.mem_mapIdx.mp eventMem with ⟨index, _, rfl⟩
    simp only [stamp]
    split_ifs with unset
    · exact (outage.fresh index).property
    · exact unset

theorem id_prepareEvent {now : Time} {engine : Engine} {fresh : FreshID} {event : Event Real}
    (known : event.id ≠ UUID.zero) : (prepareEvent now engine fresh event).id = event.id := by
  cases engine <;> simp [prepareEvent, known]

theorem holds_of_flushBatch {later : Time} {engine : Engine} {fresh : ℕ → FreshID} {whole : Write}
    {singles : List Write} (marshalled : marshalBatch floats events = some payload)
    (known : ∀ event ∈ events, event.id ≠ UUID.zero)
    (flushed : flushBatch floats later engine fresh (some payload) whole singles table =
      some (left, true)) : ∀ event ∈ events, left.Holds event.id := by
  intro event eventMem
  rw [flushBatch, Option.bind_some, unmarshalBatch_of_marshalBatch marshalled] at flushed
  simp only at flushed
  split_ifs at flushed with possible
  rcases List.getElem_of_mem eventMem with ⟨index, inRange, rfl⟩
  have written : ((prepareEvent later engine (fresh index)
      (events[index].reread floats)).row floats) ∈
        (events.map (Columns.reread floats)).mapIdx fun index event =>
          (prepareEvent later engine (fresh index) event).row floats := by
    apply List.mem_mapIdx.mpr
    exact ⟨index, by simpa using inRange, by simp⟩
  have sameID : HasID.id ((prepareEvent later engine (fresh index)
      (events[index].reread floats)).row floats) = events[index].id := by
    have rereadKnown : (events[index].reread floats).id ≠ UUID.zero :=
      known events[index] eventMem
    exact id_prepareEvent rereadKnown
  rw [← sameID]
  cases whole with
  | ok =>
    cases flushed
    exact Write.holds_of_ok written
  | failed landed => cases flushed
  | duplicateKey landed => exact holds_of_insertEach flushed _ written

theorem rows_reread_iff : events.map (fun event => (event.reread floats).row floats) =
    events.map (Columns.row floats) ↔ ∀ event ∈ events, event.Plain floats := by
  rw [List.map_inj_left]
  exact forall₂_congr fun _ _ => row_reread_iff

/-- The events survive JSON, and the batch opens unless they are stored already. -/
structure Outage.Recoverable (outage : Outage Real) (floats : Floats Real) : Prop where
  plain : ∀ event ∈ outage.spooled, event.Plain floats
  opens : outage.opens = true ∨ ∀ event ∈ outage.spooled, (outage.waiting floats).Holds event.id

/-- A batch that is spooled comes back whole and once just when it is recoverable. -/
theorem comesBack_iff : outage.ComesBack floats ↔
    ((marshalBatch floats outage.spooled).isSome → outage.Recoverable floats) := by
  constructor
  · intro comesBack isSpooled
    rcases Option.isSome_iff_exists.mp isSpooled with ⟨payload, marshalled⟩
    rcases comesBack payload marshalled with ⟨whole, once⟩
    rw [unmarshalBatch_of_marshalBatch marshalled] at whole
    simp only [Option.map_some, Option.some.injEq, List.map_map] at whole
    refine ⟨rows_reread_iff.mp whole, ?_⟩
    cases opens : outage.opens with
    | true => exact .inl rfl
    | false =>
      right
      intro event eventMem
      apply holds_of_count
      -- the flush drops the batch, whatever the store does
      apply once 0 outage.fresh .ok [] (outage.waiting floats) ?_ event eventMem
      simp [flushBatch, opens]
  · intro recoverable payload marshalled
    have sound := recoverable (by simp [marshalled])
    constructor
    · rw [unmarshalBatch_of_marshalBatch marshalled]
      simp only [Option.map_some, Option.some.injEq, List.map_map]
      exact rows_reread_iff.mpr sound.plain
    · intro later fresh whole singles table flushed event eventMem
      apply count_of_holds
      cases opens : outage.opens with
      | true =>
        simp only [opens, if_true] at flushed
        exact holds_of_flushBatch marshalled (fun _ => id_ne_zero) flushed event eventMem
      | false =>
        have unchanged : outage.waiting floats = table := by
          simpa [flushBatch, opens] using flushed
        rcases sound.opens with readable | stored
        · simp [opens] at readable
        · exact unchanged ▸ stored event eventMem

def digitFloats : Floats String where
  format := id
  parse := id
  exact _ := rfl

def longKey : Bytes := utf8 ('a' :: List.replicate 100 'é')

def longReport : Event String where
  id := ⟨1⟩
  orgID := ⟨2⟩
  employeeID := none
  deviceID := some ⟨3⟩
  eventType := utf8 "file_op".toList
  action := utf8 "alerted".toList
  target := []
  targetDomain := []
  operation := []
  category := []
  processName := []
  policyID := none
  policyName := []
  riskScore := "0"
  aiExplanation := []
  ipAddress := []
  geoCountry := []
  geoCity := []
  metadata := none
  dedupeKey := normalizeDedupeKey (fun _ => []) longKey
  timestamp := 1
  createdAt := 1

def longReportOutage : Outage String where
  engine := .sql
  now := 1
  fresh _ := ⟨⟨4⟩, by decide⟩
  events := [longReport]
  attempt := .unresolved
  table := .empty
  others := []
  opens := true

/-- The key comes back as another one, and later reports do not fold into the row. -/
theorem not_alwaysComesBack : ¬AlwaysComesBack := by
  intro always
  have spooled : (marshalBatch digitFloats longReportOutage.spooled).isSome = true := by
    decide +kernel
  rcases Option.isSome_iff_exists.mp spooled with ⟨payload, marshalled⟩
  have whole := (always String digitFloats longReportOutage payload marshalled).1
  rw [unmarshalBatch_of_marshalBatch marshalled] at whole
  simp only [Option.map_some, Option.some.injEq, List.map_map] at whole
  have sameKeys := congrArg (List.map Columns.dedupeKey) whole
  rw [List.map_map, List.map_map] at sameKeys
  have otherKeys : longReportOutage.spooled.map (fun event => (event.reread digitFloats).dedupeKey) ≠
      longReportOutage.spooled.map Columns.dedupeKey := by
    decide +kernel
  exact otherKeys sameKeys

end Aavishield.Dataplane.Payload
