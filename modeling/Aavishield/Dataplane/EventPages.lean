import Aavishield.Dataplane.EventScope
import Aavishield.Dataplane.Tables
import Aavishield.Lib.Paging
import Mathlib.Data.PNat.Notation

/-!
# Visiting events page by page

`EachEvent` of the SQL store reads the events of a query in pages, each of which begins after the
last event of the page before.  The file compares what it visits with what `FindEvents` returns.
-/

namespace Aavishield.Dataplane

structure EventRow extends StoredEvent where
  createdAt : Time

instance : HasID EventRow := ⟨fun row => row.id⟩

/-- The events of a store, each with an identifier (`prepareEvent` gives one to every event). -/
structure EventTable extends Table EventRow where
  named : ∀ row ∈ rows, row.id ≠ UUID.zero

/-- A query with the page and the columns it asks for. -/
structure EventSelection extends EventQuery where
  fields : List String := []
  ascending : Bool := false
  offset : ℤ := 0
  limit : ℤ := 0

def eventColumns : List String :=
  ["id", "org_id", "employee_id", "device_id", "event_type", "action", "target",
    "target_domain", "operation", "category", "process_name", "policy_id",
    "policy_name", "risk_score", "ai_explanation", "ip_address", "geo_country",
    "geo_city", "metadata", "dedupe_key", "timestamp", "created_at"]

structure LoadedEvent where
  row : EventRow
  columns : Option (List String)

def LoadedEvent.has (event : LoadedEvent) (column : String) : Bool :=
  event.columns.elim true (·.contains column)

def LoadedEvent.id (event : LoadedEvent) : UUID :=
  if event.has "id" then event.row.id else UUID.zero

def LoadedEvent.timestamp (event : LoadedEvent) : Time :=
  if event.has "timestamp" then event.row.timestamp else 0

/-- `Select`; an empty list of columns selects all. -/
def project (fields : List String) : Option (List String) :=
  if fields = [] then none
  else
    let ok := fields.filter (eventColumns.contains ·)
    if ok = [] then none else some ok

def withKeyset (fields : List String) : List String :=
  if fields = [] then [] else fields ++ ["id", "timestamp"].filter fun key => !fields.contains key

section Pages

variable (letterCase : LetterCase) (engine : Engine)

-- how the engine orders identifiers; `uniqueidentifier` of SQL Server goes by other bytes
variable (rank : UUID ↪ ℕ)

/-- What `order` sorts by; a timestamp is kept to the precision of its column. -/
def EventRow.orderKey (row : EventRow) : ℤ ×ₗ ℕ :=
  toLex (row.timestamp / engine.tick, rank row.id)

def EventRow.ordered (ascending : Bool) (first second : EventRow) : Prop :=
  if ascending then first.orderKey engine rank ≤ second.orderKey engine rank
  else second.orderKey engine rank ≤ first.orderKey engine rank

/-- The order of the rows, by time and then by identifier. -/
def EventRow.precedes (ascending : Bool) (first second : EventRow) : Prop :=
  if ascending then first.orderKey engine rank < second.orderKey engine rank
  else second.orderKey engine rank < first.orderKey engine rank

instance (ascending : Bool) : DecidableRel (EventRow.ordered engine rank ascending) :=
  fun _ _ => inferInstanceAs (Decidable (ite _ _ _))

instance (ascending : Bool) : DecidableRel (EventRow.precedes engine rank ascending) :=
  fun _ _ => inferInstanceAs (Decidable (ite _ _ _))

def selectRows (table : EventTable) (selection : EventSelection)
    (condition : EventRow → Bool) : List EventRow :=
  (table.rows.filter fun row =>
    sqlAccepts letterCase engine selection.toEventQuery row.toStoredEvent && condition row)
      |>.insertionSort (EventRow.ordered engine rank selection.ascending)

def findEvents (table : EventTable) (selection : EventSelection) : List LoadedEvent :=
  let rows := selectRows letterCase engine rank table selection fun _ => true
  let rows := if 0 < selection.offset then rows.drop selection.offset.toNat else rows
  let rows := if 0 < selection.limit then rows.take selection.limit.toNat else rows
  rows.map fun row => ⟨row, project selection.fields⟩

def beyond (ascending : Bool) (lastTS : Time) (lastID : UUID) (row : EventRow) : Bool :=
  if ascending then
    decide (lastTS / engine.tick < row.timestamp / engine.tick) ||
      decide (row.timestamp / engine.tick = lastTS / engine.tick) && decide (rank lastID < rank row.id)
  else
    decide (row.timestamp / engine.tick < lastTS / engine.tick) ||
      decide (row.timestamp / engine.tick = lastTS / engine.tick) && decide (rank row.id < rank lastID)

variable {Error : Type}

/-- What the visitor was called with, and the error that `EachEvent` returned. -/
structure Visited (Error : Type) where
  events : List LoadedEvent
  error : Option Error

def visitPage (fn : List LoadedEvent → LoadedEvent → Option Error) (visited : List LoadedEvent) :
    List LoadedEvent → Visited Error
  | [] => ⟨visited, none⟩
  | event :: rest =>
    match fn visited event with
    | some error => ⟨visited ++ [event], some error⟩
    | none => visitPage fn (visited ++ [event]) rest

/-- What fails in which round. -/
structure Outages (Error : Type) where
  query : ℕ → Option Error
  context : ℕ → Option Error

structure Outages.None (outages : Outages Error) : Prop where
  query : ∀ round, outages.query round = none
  context : ∀ round, outages.context round = none

structure Cursor where
  round : ℕ
  remaining : ℤ
  lastTS : Time
  lastID : UUID
  visited : List LoadedEvent

variable (eachBatch : ℕ+) (fn : List LoadedEvent → LoadedEvent → Option Error)
  (outages : Outages Error) (table : EventTable) (selection : EventSelection)

def batchSize (remaining : ℤ) : ℕ :=
  if 0 < selection.limit ∧ remaining < eachBatch then remaining.toNat else eachBatch

def spend (remaining : ℤ) (count : ℕ) : ℤ :=
  if 0 < selection.limit then remaining - count else remaining

def nextPage (cursor : Cursor) : List LoadedEvent :=
  let rows := selectRows letterCase engine rank table selection fun row =>
    if cursor.lastID = UUID.zero then true
    else beyond engine rank selection.ascending cursor.lastTS cursor.lastID row
  (rows.take (batchSize eachBatch selection cursor.remaining)).map fun row =>
    ⟨row, project (withKeyset selection.fields)⟩

def eachPage : ℕ → Cursor → Option (Visited Error)
  | 0, _ => none
  | fuel + 1, cursor =>
    match outages.query cursor.round with
    | some error => some ⟨cursor.visited, some error⟩
    | none =>
      let page := nextPage letterCase engine rank eachBatch table selection cursor
      match visitPage fn cursor.visited page with
      | ⟨visited, some error⟩ => some ⟨visited, some error⟩
      | ⟨visited, none⟩ =>
        if page.length < batchSize eachBatch selection cursor.remaining then some ⟨visited, none⟩
        else
          let remaining := spend selection cursor.remaining page.length
          if 0 < selection.limit ∧ remaining ≤ 0 then some ⟨visited, none⟩
          else
            match outages.context cursor.round, page.getLast? with
            | some error, _ => some ⟨visited, some error⟩
            -- a page of at least one event is not empty
            | none, none => none
            | none, some last =>
              eachPage fuel
                { round := cursor.round + 1, remaining, lastTS := last.timestamp
                  lastID := last.id, visited }

/-- All pages of a selection, one after the other. -/
def eachEvent (fuel : ℕ) : Option (Visited Error) :=
  eachPage letterCase engine rank eachBatch fn outages table selection fuel
    { round := 0, remaining := selection.limit, lastTS := 0, lastID := UUID.zero, visited := [] }

variable {letterCase engine rank eachBatch fn outages table selection}

section Order

variable {ascending : Bool} {first second : EventRow}

instance : IsTrans EventRow (EventRow.ordered engine rank ascending) where
  trans _ _ _ earlier later := by
    unfold EventRow.ordered at *
    split_ifs at *
    · exact le_trans earlier later
    · exact le_trans later earlier

instance : Std.Total (EventRow.ordered engine rank ascending) where
  total first second := by
    unfold EventRow.ordered
    split_ifs
    · exact le_total _ _
    · exact le_total _ _

theorem id_eq_of_ordered (earlier : first.ordered engine rank ascending second)
    (later : second.ordered engine rank ascending first) : first.id = second.id := by
  have same : first.orderKey engine rank = second.orderKey engine rank := by
    unfold EventRow.ordered at earlier later
    split_ifs at earlier later
    · exact le_antisymm earlier later
    · exact le_antisymm later earlier
  exact rank.injective (Prod.mk.inj (toLex.injective same)).2

theorem precedes_of_ordered (ordered : first.ordered engine rank ascending second)
    (differ : first.id ≠ second.id) : first.precedes engine rank ascending second := by
  have keysDiffer : first.orderKey engine rank ≠ second.orderKey engine rank := by
    intro same
    exact differ (rank.injective (Prod.mk.inj (toLex.injective same)).2)
  unfold EventRow.ordered at ordered
  unfold EventRow.precedes
  split_ifs at *
  · exact lt_of_le_of_ne ordered keysDiffer
  · exact lt_of_le_of_ne ordered keysDiffer.symm

theorem not_precedes_of_precedes (earlier : first.precedes engine rank ascending second) :
    ¬second.precedes engine rank ascending first := by
  unfold EventRow.precedes at *
  split_ifs at *
  · exact lt_asymm earlier
  · exact lt_asymm earlier

theorem beyond_eq (last row : EventRow) :
    beyond engine rank ascending last.timestamp last.id row =
      decide (last.precedes engine rank ascending row) := by
  unfold beyond EventRow.precedes EventRow.orderKey
  split_ifs
  · simp [Prod.Lex.toLex_lt_toLex, eq_comm]
  · simp [Prod.Lex.toLex_lt_toLex]

end Order

theorem selectRows_eq_filter (condition : EventRow → Bool) :
    selectRows letterCase engine rank table selection condition =
      (selectRows letterCase engine rank table selection fun _ => true).filter condition := by
  unfold selectRows
  rw [← Paging.insertionSort_filter, List.filter_filter]
  · congr 1
    apply List.filter_congr
    intro row _
    simp [Bool.and_comm]
  · intro first firstMem second secondMem earlier later
    have same := id_eq_of_ordered earlier later
    exact table.eq_of_id_eq (List.mem_of_mem_filter firstMem) (List.mem_of_mem_filter secondMem) same

theorem mem_selectRows {condition : EventRow → Bool} {row : EventRow}
    (rowMem : row ∈ selectRows letterCase engine rank table selection condition) :
    row ∈ table.rows := by
  unfold selectRows at rowMem
  rw [List.mem_insertionSort] at rowMem
  exact List.mem_of_mem_filter rowMem

theorem selectRows_pairwise (condition : EventRow → Bool) :
    (selectRows letterCase engine rank table selection condition).Pairwise
      (EventRow.precedes engine rank selection.ascending) := by
  unfold selectRows
  have ordered := List.pairwise_insertionSort (EventRow.ordered engine rank selection.ascending)
    (table.rows.filter fun row =>
      sqlAccepts letterCase engine selection.toEventQuery row.toStoredEvent && condition row)
  have distinct : ((table.rows.filter fun row =>
      sqlAccepts letterCase engine selection.toEventQuery row.toStoredEvent && condition row)
        |>.insertionSort (EventRow.ordered engine rank selection.ascending)).Pairwise
          fun first second => first.id ≠ second.id := by
    apply List.pairwise_map.mp
    apply List.Perm.nodup (((List.perm_insertionSort _ _).map _).symm)
    exact table.distinct.sublist (List.filter_sublist.map _)
  exact ordered.imp₂ (fun _ _ => precedes_of_ordered) distinct

def EventSelection.load (selection : EventSelection) (row : EventRow) : LoadedEvent :=
  ⟨row, project (withKeyset selection.fields)⟩

theorem has_keyset {key : String} (isKey : key ∈ ["id", "timestamp"]) (row : EventRow) :
    (selection.load row).has key = true := by
  unfold EventSelection.load withKeyset
  by_cases all : selection.fields = []
  · simp [LoadedEvent.has, project, all]
  · simp only [all, if_false]
    have isColumn : eventColumns.contains key = true := by
      revert key
      decide
    have named : key ∈ selection.fields ++
        ["id", "timestamp"].filter fun key => !selection.fields.contains key := by
      by_cases given : key ∈ selection.fields
      · exact List.mem_append_left _ given
      · exact List.mem_append_right _ (List.mem_filter.mpr ⟨isKey, by simpa using given⟩)
    have kept := List.mem_filter.mpr ⟨named, isColumn⟩
    simp only [LoadedEvent.has, project, List.append_eq_nil_iff, all, false_and, if_false,
      List.ne_nil_of_mem kept, Option.elim_some]
    exact List.contains_iff_mem.mpr kept

theorem load_id (row : EventRow) : (selection.load row).id = row.id := by
  unfold LoadedEvent.id
  rw [has_keyset (by simp)]
  rfl

theorem load_timestamp (row : EventRow) : (selection.load row).timestamp = row.timestamp := by
  unfold LoadedEvent.timestamp
  rw [has_keyset (by simp)]
  rfl

theorem visitPage_append (visited first second : List LoadedEvent) :
    visitPage fn visited (first ++ second) =
      match visitPage fn visited first with
      | ⟨visited, some error⟩ => ⟨visited, some error⟩
      | ⟨visited, none⟩ => visitPage fn visited second := by
  induction first generalizing visited with
  | nil => rfl
  | cons event rest ih =>
    simp only [List.cons_append, visitPage]
    cases fn visited event with
    | some error => rfl
    | none => exact ih _

theorem prefix_visitPage (visited page : List LoadedEvent) :
    visited <+: (visitPage fn visited page).events := by
  induction page generalizing visited with
  | nil => exact List.prefix_refl _
  | cons event rest ih =>
    simp only [visitPage]
    cases fn visited event with
    | some error => exact List.prefix_append _ _
    | none => exact (List.prefix_append _ _).trans (ih _)

def EventSelection.due (selection : EventSelection) (remaining : ℤ) (rows : List EventRow) :
    List EventRow :=
  if 0 < selection.limit then rows.take remaining.toNat else rows

variable {remaining : ℤ}

theorem batchSize_pos (more : 0 < selection.limit → 0 < remaining) :
    0 < batchSize eachBatch selection remaining := by
  unfold batchSize
  split_ifs with limited
  · have := more limited.1
    omega
  · exact eachBatch.property

theorem batchSize_le (limited : 0 < selection.limit) :
    batchSize eachBatch selection remaining ≤ remaining.toNat := by
  unfold batchSize
  split_ifs with short
  · exact le_refl _
  · have : (eachBatch : ℤ) ≤ remaining := by
      by_contra less
      exact short ⟨limited, by omega⟩
    omega

def Cursor.After (cursor : Cursor) (done : List EventRow) : Prop :=
  cursor.lastID = (done.getLast?.elim UUID.zero fun row => row.id) ∧
    cursor.lastTS = (done.getLast?.elim 0 fun row => row.timestamp)

variable {cursor : Cursor}

theorem nextPage_eq {done rest : List EventRow}
    (split : (selectRows letterCase engine rank table selection fun _ => true) = done ++ rest)
    (after : cursor.After done) :
    nextPage letterCase engine rank eachBatch table selection cursor =
      (rest.take (batchSize eachBatch selection cursor.remaining)).map selection.load := by
  have ahead : (selectRows letterCase engine rank table selection fun row =>
      if cursor.lastID = UUID.zero then true
      else beyond engine rank selection.ascending cursor.lastTS cursor.lastID row) = rest := by
    rw [selectRows_eq_filter, split]
    rcases List.eq_nil_or_concat done with rfl | ⟨earlier, last, rfl⟩
    · have first : cursor.lastID = UUID.zero := after.1
      simp [first]
    · have sorted : (selectRows letterCase engine rank table selection fun _ => true).Pairwise
          (EventRow.precedes engine rank selection.ascending) := selectRows_pairwise _
      have lastMem : last ∈ selectRows letterCase engine rank table selection fun _ => true := by
        simp [split]
      have named : last.id ≠ UUID.zero := table.named last (mem_selectRows lastMem)
      simp only [List.concat_eq_append, List.append_assoc, List.singleton_append] at split
      rw [split] at sorted
      have following := Paging.filter_after (fun _ _ => not_precedes_of_precedes) sorted
      have atLast : cursor.lastID = last.id ∧ cursor.lastTS = last.timestamp := by
        simpa [Cursor.After] using after
      simpa [atLast, named, beyond_eq] using following
  unfold nextPage
  rw [ahead]
  rfl

theorem due_eq_append {rest : List EventRow} :
    selection.due remaining rest =
      rest.take (batchSize eachBatch selection remaining) ++
        selection.due (spend selection remaining (batchSize eachBatch selection remaining))
          (rest.drop (batchSize eachBatch selection remaining)) := by
  unfold EventSelection.due spend
  by_cases limited : 0 < selection.limit
  · have within : batchSize eachBatch selection remaining ≤ remaining.toNat := batchSize_le limited
    have left : (remaining - batchSize eachBatch selection remaining).toNat =
        remaining.toNat - batchSize eachBatch selection remaining := by omega
    simp only [limited, if_true, left]
    rw [← List.take_add, Nat.add_sub_cancel' within]
  · simp [limited]

theorem due_nil_of_spent {rest : List EventRow} (limited : 0 < selection.limit)
    (spent : remaining ≤ 0) : selection.due remaining rest = [] := by
  simp [EventSelection.due, limited, Int.toNat_of_nonpos spent]

theorem due_nil : selection.due remaining [] = [] := by
  simp [EventSelection.due]

/-- What a call has visited, in comparison with a loop over all that is due. -/
structure Visited.Within (outages : Outages Error) (outcome whole : Visited Error) : Prop where
  isPrefix : outcome.events <+: whole.events
  eq : outages.None → outcome = whole

theorem Visited.Within.refl (outcome : Visited Error) : outcome.Within outages outcome :=
  ⟨List.prefix_refl _, fun _ => rfl⟩

theorem after_append {done page : List EventRow} {last : LoadedEvent}
    (isLast : (page.map selection.load).getLast? = some last) (id : cursor.lastID = last.id)
    (ts : cursor.lastTS = last.timestamp) : cursor.After (done ++ page) := by
  rw [List.getLast?_map, Option.map_eq_some_iff] at isLast
  rcases isLast with ⟨row, isLast, rfl⟩
  rw [load_id] at id
  rw [load_timestamp] at ts
  simp [Cursor.After, List.getLast?_append, isLast, id, ts]

theorem eachPage_visits {fuel : ℕ} {done rest : List EventRow}
    (split : (selectRows letterCase engine rank table selection fun _ => true) = done ++ rest)
    (after : cursor.After done) (more : 0 < selection.limit → 0 < cursor.remaining)
    (enough : rest.length < fuel) :
    ∃ outcome, eachPage letterCase engine rank eachBatch fn outages table selection fuel cursor =
        some outcome ∧
      outcome.Within outages (visitPage fn cursor.visited
        ((selection.due cursor.remaining rest).map selection.load)) := by
  induction fuel generalizing cursor done rest with
  | zero => omega
  | succ fuel ih =>
    have positive : 0 < batchSize eachBatch selection cursor.remaining := batchSize_pos more
    have page : nextPage letterCase engine rank eachBatch table selection cursor =
        (rest.take (batchSize eachBatch selection cursor.remaining)).map selection.load :=
      nextPage_eq split after
    unfold eachPage
    cases failed : outages.query cursor.round with
    | some error =>
      refine ⟨_, rfl, prefix_visitPage _ _, ?_⟩
      intro calm
      simp [calm.query] at failed
    | none =>
      rw [due_eq_append, List.map_append, visitPage_append, ← page]
      simp only
      rcases visitPage fn cursor.visited
        (nextPage letterCase engine rank eachBatch table selection cursor) with
        ⟨visited, _ | error⟩
      · by_cases short : (nextPage letterCase engine rank eachBatch table selection cursor).length <
          batchSize eachBatch selection cursor.remaining
        · have ended : rest.drop (batchSize eachBatch selection cursor.remaining) = [] := by
            rw [page, List.length_map, List.length_take] at short
            exact List.drop_eq_nil_of_le (by omega)
          rw [ended, due_nil]
          simp only [short, if_true]
          exact ⟨_, rfl, .refl _⟩
        · have full : (nextPage letterCase engine rank eachBatch table selection cursor).length =
              batchSize eachBatch selection cursor.remaining := by
            rw [page, List.length_map, List.length_take] at short ⊢
            omega
          simp only [full, lt_irrefl, if_false]
          by_cases spent : 0 < selection.limit ∧ spend selection cursor.remaining
              (batchSize eachBatch selection cursor.remaining) ≤ 0
          · rw [due_nil_of_spent spent.1 spent.2, if_pos spent]
            exact ⟨_, rfl, .refl _⟩
          · rw [if_neg spent]
            cases ended : outages.context cursor.round with
            | some error =>
              refine ⟨_, rfl, prefix_visitPage _ _, ?_⟩
              intro calm
              simp [calm.context] at ended
            | none =>
              cases isLast : (nextPage letterCase engine rank eachBatch table selection
                cursor).getLast? with
              | none =>
                rw [List.getLast?_eq_none_iff] at isLast
                rw [isLast, List.length_nil] at full
                omega
              | some last =>
                refine @ih _ (done ++
                  rest.take (batchSize eachBatch selection cursor.remaining)) _ ?_ ?_ ?_ ?_
                · rw [split, List.append_assoc, List.take_append_drop]
                · exact after_append (page ▸ isLast) rfl rfl
                · intro limited
                  by_contra notMore
                  exact spent ⟨limited, not_lt.mp notMore⟩
                · rw [List.length_drop]
                  rw [page, List.length_map, List.length_take] at full
                  omega
      · exact ⟨_, rfl, .refl _⟩

/-- The events are visited in turn up to the first that is refused. -/
inductive Stops (fn : List LoadedEvent → LoadedEvent → Option Error) (found : List LoadedEvent) :
    Visited Error → Prop where
  | atEnd (accepted : ∀ before event after, found = before ++ event :: after →
      fn before event = none) : Stops fn found ⟨found, none⟩
  | atError {before after : List LoadedEvent} {event : LoadedEvent} {error : Error}
      (split : found = before ++ event :: after) (refused : fn before event = some error)
      (accepted : ∀ first next later, before = first ++ next :: later → fn first next = none) :
      Stops fn found ⟨before ++ [event], some error⟩

theorem Stops.isPrefix {found : List LoadedEvent} {outcome : Visited Error}
    (stops : Stops fn found outcome) : outcome.events <+: found := by
  cases stops with
  | atEnd accepted => exact List.prefix_refl _
  | @atError before after event error split refused accepted => exact ⟨after, by simp [split]⟩

theorem Stops.cons {event : LoadedEvent} {rest : List LoadedEvent} {outcome : Visited Error}
    (accepts : fn [] event = none) (stops : Stops (fun before => fn (event :: before)) rest outcome) :
    Stops fn (event :: rest) ⟨event :: outcome.events, outcome.error⟩ := by
  have shorter : ∀ {list before after : List LoadedEvent} {next : LoadedEvent},
      event :: list = before ++ next :: after → (∀ first other later,
        list = first ++ other :: later → fn (event :: first) other = none) →
          fn before next = none := by
    intro list before after next split accepted
    cases before with
    | nil => exact (List.cons.inj split).1 ▸ accepts
    | cons head front =>
      obtain ⟨rfl, rest⟩ := List.cons.inj split
      exact accepted front next after rest
  cases stops with
  | atEnd accepted => exact .atEnd fun _ _ _ split => shorter split accepted
  | @atError before after last error split refused accepted =>
    have longer : event :: rest = (event :: before) ++ last :: after := by simp [split]
    exact .atError longer refused fun _ _ _ split => shorter split accepted

theorem stops_visitPage (visited page : List LoadedEvent) :
    ∃ outcome, Stops (fun before => fn (visited ++ before)) page outcome ∧
      visitPage fn visited page = ⟨visited ++ outcome.events, outcome.error⟩ := by
  induction page generalizing visited with
  | nil => exact ⟨⟨[], none⟩, .atEnd (by simp), by simp [visitPage]⟩
  | cons event rest ih =>
    cases answer : fn visited event with
    | some error =>
      have refused : fn (visited ++ []) event = some error := by simpa using answer
      exact ⟨_, .atError rfl refused (by simp), by simp [visitPage, answer]⟩
    | none =>
      rcases ih (visited ++ [event]) with ⟨outcome, stops, visits⟩
      refine ⟨_, Stops.cons (by simpa using answer) (by simpa using stops), ?_⟩
      simp [visitPage, answer, visits]

/-- What `EachEvent` asks for instead. -/
def EventSelection.streamed (selection : EventSelection) : EventSelection :=
  { selection with fields := withKeyset selection.fields, offset := 0 }

theorem findEvents_streamed :
    findEvents letterCase engine rank table selection.streamed =
      (selection.due selection.limit
        (selectRows letterCase engine rank table selection fun _ => true)).map selection.load := by
  simp only [findEvents, EventSelection.streamed, EventSelection.due, lt_irrefl, if_false]
  rfl

theorem due_sublist {rows : List EventRow} :
    (selection.due remaining rows).Sublist rows := by
  unfold EventSelection.due
  split_ifs
  · exact List.take_sublist _ _
  · exact List.Sublist.refl _

/--
`EachEvent` visits the events that `FindEvents` returns for the same query without an offset, each
of them once and in the order of the query, until the visitor refuses one.
-/
theorem eachEvent_visits (letterCase : LetterCase) (engine : Engine) (rank : UUID ↪ ℕ)
    (eachBatch : ℕ+) (fn : List LoadedEvent → LoadedEvent → Option Error)
    (outages : Outages Error) (table : EventTable) (selection : EventSelection) :
    let found := findEvents letterCase engine rank table selection.streamed
    found.map LoadedEvent.row =
        (findEvents letterCase engine rank table { selection with offset := 0 }).map LoadedEvent.row ∧
      found.Pairwise (fun first second =>
        first.row.precedes engine rank selection.ascending second.row) ∧
      ∃ outcome, eachEvent letterCase engine rank eachBatch fn outages table selection
          (table.rows.length + 1) = some outcome ∧
        outcome.events <+: found ∧ (outages.None → Stops fn found outcome) := by
  refine ⟨?_, ?_, ?_⟩
  · simp [findEvents, EventSelection.streamed, selectRows, Function.comp_def]
  · rw [findEvents_streamed]
    apply List.pairwise_map.mpr
    exact (selectRows_pairwise _).sublist due_sublist
  · have fewer : (selectRows letterCase engine rank table selection fun _ => true).length <
        table.rows.length + 1 := by
      unfold selectRows
      rw [List.length_insertionSort]
      exact Nat.lt_succ_of_le (List.length_filter_le _ _)
    let start : Cursor :=
      { round := 0, remaining := selection.limit, lastTS := 0, lastID := UUID.zero, visited := [] }
    obtain ⟨outcome, visits, within⟩ : ∃ outcome, eachPage letterCase engine rank eachBatch fn outages
        table selection (table.rows.length + 1) start = some outcome ∧
          outcome.Within outages (visitPage fn [] ((selection.due selection.limit
            (selectRows letterCase engine rank table selection fun _ => true)).map
              selection.load)) := by
      apply eachPage_visits (List.nil_append _).symm ⟨rfl, rfl⟩ _ fewer
      exact id
    rw [← findEvents_streamed] at within
    obtain ⟨whole, stops, visitsAll⟩ : ∃ whole,
        Stops fn (findEvents letterCase engine rank table selection.streamed) whole ∧
          visitPage fn [] (findEvents letterCase engine rank table selection.streamed) = whole := by
      simpa using stops_visitPage [] (findEvents letterCase engine rank table selection.streamed)
    rw [visitsAll] at within
    refine ⟨outcome, visits, within.isPrefix.trans stops.isPrefix, ?_⟩
    intro calm
    exact within.eq calm ▸ stops

end Pages

def byteRank : UUID ↪ ℕ where
  toFun id := id.bits.toNat
  inj' first second same := by
    cases first
    cases second
    exact congrArg UUID.mk (BitVec.eq_of_toNat_eq same)

def lateEvent (number : ℕ) (timestamp createdAt : Time) : EventRow where
  id := ⟨number⟩
  orgID := ⟨1⟩
  employeeID := none
  deviceID := none
  policyID := none
  eventType := "web_request"
  action := "logged"
  category := none
  targetDomain := none
  target := none
  processName := none
  policyName := none
  operation := none
  dedupeKey := none
  timestamp := timestamp
  createdAt := createdAt

def lateTable : EventTable where
  rows := [lateEvent 1 1000000 2000000, lateEvent 2 2000000 1000000, lateEvent 3 3000000 3000000]
  distinct := by decide
  named := by decide

def EventRow.createdInOrder (ascending : Bool) (first second : EventRow) : Prop :=
  if ascending then
    toLex (first.createdAt, byteRank first.id) ≤ toLex (second.createdAt, byteRank second.id)
  else toLex (second.createdAt, byteRank second.id) ≤ toLex (first.createdAt, byteRank first.id)

instance (ascending : Bool) : DecidableRel (EventRow.createdInOrder ascending) :=
  fun _ _ => inferInstanceAs (Decidable (ite _ _ _))

/-- The size of a page of `EachEvent`. -/
def eachBatch : ℕ+ := ⟨2000, by decide⟩

def lateVisits : Option (Visited Unit) :=
  eachEvent asciiCase (Engine.postgres asciiCase) byteRank eachBatch (fun _ _ => none)
    ⟨fun _ => none, fun _ => none⟩ lateTable { orgID := ⟨1⟩, ascending := true } 4

/-- An event that happened first was stored last. -/
theorem not_visits_byCreation :
    ¬∀ outcome, lateVisits = some outcome →
      outcome.events.Pairwise fun first second =>
        first.row.createdInOrder true second.row := by
  intro ordered
  have inOrder : (lateVisits.map fun outcome => decide (outcome.events.Pairwise fun first second =>
      first.row.createdInOrder true second.row)) = some false := by
    decide +kernel
  rcases Option.map_eq_some_iff.mp inOrder with ⟨outcome, visited, inverted⟩
  exact absurd (ordered outcome visited) (of_decide_eq_false inverted)

end Aavishield.Dataplane
