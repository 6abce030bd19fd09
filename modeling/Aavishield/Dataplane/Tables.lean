import Aavishield.Dataplane.Event
import Mathlib.Data.List.Nodup
import Mathlib.Data.Prod.Lex
import Mathlib.Order.Nat

/-!
# Tables of employee data

The three tables that hold an organisation's employee data, in Aavishield's database and
in a company's own.  Every query of the model is scoped to one organisation and to rows
that are not soft-deleted, so a table here has just those rows.
-/

namespace Aavishield.Dataplane

/-- `storage_key`: an object in Aavishield's bucket, or in the company's (`tenantKeyPrefix`). -/
inductive StoredKey where
  | primary (key : String)
  | tenant (key : String)
  deriving DecidableEq

def StoredKey.isTenant : StoredKey → Bool
  | .primary _ => false
  | .tenant _ => true

def StoredKey.object : StoredKey → String
  | .primary key | .tenant key => key

/-- A stretch of work on one device (`models.WorkSession`). -/
structure WorkSession where
  id : UUID
  startedAt : Time

/-- A captured screen (`models.Screenshot`). -/
structure Screenshot where
  id : UUID
  capturedAt : Time
  storageKey : StoredKey
  deriving DecidableEq

/-- Rows with a primary key. -/
class HasID (Row : Type) where
  id : Row → UUID

instance : HasID ActivityEvent := ⟨ActivityEvent.id⟩
instance : HasID WorkSession := ⟨WorkSession.id⟩
instance : HasID Screenshot := ⟨Screenshot.id⟩

/-- What events are ordered by: `(timestamp, id)`, which no two events share. -/
def ActivityEvent.orderKey (event : ActivityEvent) : ℤ ×ₗ ℕ :=
  toLex (event.timestamp, event.id.bits.toNat)

theorem ActivityEvent.id_eq_of_orderKey_eq {first second : ActivityEvent}
    (same : first.orderKey = second.orderKey) : first.id = second.id := by
  have sameBits : first.id.bits.toNat = second.id.bits.toNat :=
    (Prod.mk.inj (toLex.injective same)).2
  have sameVector := BitVec.eq_of_toNat_eq sameBits
  cases firstID : first.id
  cases secondID : second.id
  rw [firstID, secondID] at sameVector
  exact congrArg UUID.mk sameVector

/-- Rows under a primary key. -/
structure Table (Row : Type) [HasID Row] where
  rows : List Row
  distinct : (rows.map HasID.id).Nodup

namespace Table

variable {Row : Type} [HasID Row] {table : Table Row} {row : Row} {id : UUID}

def empty : Table Row := ⟨[], List.nodup_nil⟩

def Holds (table : Table Row) (id : UUID) : Prop := id ∈ table.rows.map HasID.id

instance : Decidable (table.Holds id) := inferInstanceAs (Decidable (_ ∈ _))

def insert (table : Table Row) (row : Row) : Table Row :=
  if new : table.Holds (HasID.id row) then table
  else ⟨row :: table.rows, List.nodup_cons.mpr ⟨new, table.distinct⟩⟩

def insertAll (table : Table Row) (rows : List Row) : Table Row := rows.foldl insert table

def update (table : Table Row) (rewrite : Row → Row)
    (keeps : ∀ row, HasID.id (rewrite row) = HasID.id row) : Table Row where
  rows := table.rows.map rewrite
  distinct := by
    rw [List.map_map, show HasID.id ∘ rewrite = (HasID.id : Row → UUID) from funext keeps]
    exact table.distinct

def delete (table : Table Row) (selected : Row → Bool) : Table Row where
  rows := table.rows.filter fun row => !selected row
  distinct := table.distinct.sublist (List.filter_sublist.map HasID.id)

theorem holds_of_mem (rowMem : row ∈ table.rows) : table.Holds (HasID.id row) :=
  List.mem_map_of_mem rowMem

theorem nodup (table : Table Row) : table.rows.Nodup := List.Nodup.of_map _ table.distinct

variable {other : Row}

theorem eq_of_id_eq (rowMem : row ∈ table.rows) (otherMem : other ∈ table.rows)
    (same : HasID.id row = HasID.id other) : row = other :=
  List.inj_on_of_nodup_map table.distinct rowMem otherMem same

@[simp]
theorem not_holds_empty : ¬(empty : Table Row).Holds id := by
  simp [Holds, empty]

theorem holds_insert : (table.insert row).Holds id ↔ id = HasID.id row ∨ table.Holds id := by
  unfold insert
  split_ifs with there
  · constructor
    · exact .inr
    · rintro (rfl | held)
      · exact there
      · exact held
  · simp [Holds]

theorem mem_insert (mem : other ∈ (table.insert row).rows) :
    other = row ∧ ¬table.Holds (HasID.id row) ∨ other ∈ table.rows := by
  unfold insert at mem
  split_ifs at mem with there
  · exact .inr mem
  · rcases List.mem_cons.mp mem with rfl | before
    · exact .inl ⟨rfl, there⟩
    · exact .inr before

theorem holds_insertAll {rows : List Row} :
    (table.insertAll rows).Holds id ↔ id ∈ rows.map HasID.id ∨ table.Holds id := by
  induction rows generalizing table with
  | nil => simp [insertAll]
  | cons row rest ih =>
    rw [show table.insertAll (row :: rest) = (table.insert row).insertAll rest from rfl, ih,
      holds_insert, List.map_cons, List.mem_cons]
    tauto

theorem mem_insert_of_mem (mem : other ∈ table.rows) :
    other ∈ (table.insert row).rows := by
  unfold insert
  split_ifs
  · exact mem
  · exact List.mem_cons_of_mem row mem

theorem mem_insert_iff_of_ne (differs : other ≠ row) :
    other ∈ (table.insert row).rows ↔ other ∈ table.rows := by
  refine ⟨fun mem => ?_, mem_insert_of_mem⟩
  rcases mem_insert mem with ⟨same, -⟩ | before
  · exact absurd same differs
  · exact before

theorem mem_insertAll_of_mem {rows : List Row} (mem : other ∈ table.rows) :
    other ∈ (table.insertAll rows).rows := by
  induction rows generalizing table with
  | nil => exact mem
  | cons row rest ih => exact ih (mem_insert_of_mem mem)

@[simp]
theorem mem_delete {selected : Row → Bool} :
    row ∈ (table.delete selected).rows ↔ row ∈ table.rows ∧ selected row = false := by
  simp [delete]

theorem mem_insert_of_new (new : ¬table.Holds (HasID.id row)) :
    other ∈ (table.insert row).rows ↔ other = row ∨ other ∈ table.rows := by
  simp [insert, new]

@[simp]
theorem holds_update {rewrite : Row → Row} {keeps : ∀ row, HasID.id (rewrite row) = HasID.id row} :
    (table.update rewrite keeps).Holds id ↔ table.Holds id := by
  simp [Holds, update, Function.comp_def, keeps]

end Table

inductive Write where
  | ok
  | duplicateKey (landed : ℕ)
  | failed (landed : ℕ)

def Write.possible {Row : Type} [HasID Row] (write : Write) (table : Table Row)
    (rows : List Row) : Bool :=
  match write with
  | .ok => rows.all fun row => !decide (table.Holds (HasID.id row))
  | .duplicateKey _ => rows.any fun row => decide (table.Holds (HasID.id row))
  | .failed _ => true

def Write.apply {Row : Type} [HasID Row] (write : Write) (table : Table Row)
    (rows : List Row) : Table Row :=
  match write with
  | .ok => table.insertAll rows
  | .duplicateKey landed | .failed landed => table.insertAll (rows.take landed)

section Write

variable {Row : Type} [HasID Row] {table : Table Row} {rows : List Row} {row : Row} {id : UUID}

theorem Write.holds_apply (write : Write) (held : table.Holds id) :
    (write.apply table rows).Holds id := by
  cases write with
  | ok | duplicateKey landed | failed landed => exact Table.holds_insertAll.mpr (.inr held)

theorem Write.mem_apply (write : Write) (mem : row ∈ table.rows) :
    row ∈ (write.apply table rows).rows := by
  cases write with
  | ok | duplicateKey landed | failed landed => exact Table.mem_insertAll_of_mem mem

theorem Write.holds_of_ok (rowMem : row ∈ rows) :
    (Write.ok.apply table rows).Holds (HasID.id row) :=
  Table.holds_insertAll.mpr (.inl (List.mem_map_of_mem rowMem))

theorem Write.holds_of_single {write : Write} (possible : write.possible table [row] = true)
    (succeeds : ∀ landed, write ≠ .failed landed) :
    (write.apply table [row]).Holds (HasID.id row) := by
  cases write with
  | ok => exact Write.holds_of_ok (List.mem_singleton_self row)
  | duplicateKey landed =>
    apply Write.holds_apply
    simpa [Write.possible] using possible
  | failed landed => exact absurd rfl (succeeds landed)

end Write

structure Tables where
  events : Table ActivityEvent
  sessions : Table WorkSession
  screenshots : Table Screenshot

def Tables.empty : Tables := ⟨.empty, .empty, .empty⟩

end Aavishield.Dataplane
