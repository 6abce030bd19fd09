import Mathlib.Data.List.Basic

/-!
# Deletions

A store is a list of rows for each name of a table.  A deletion takes from one table the
rows that its condition selects, and the condition may look at other tables.  Deletions run
one after the other, in a transaction that a deletion which fails aborts.
-/

namespace Deletions

universe u v

abbrev Store (Name : Type u) (Row : Type v) := Name → List Row

structure Deletion (Name : Type u) (Row : Type v) where
  table : Name
  selects : Store Name Row → Row → Bool
  reads : List Name
  readsOnly : ∀ store other : Store Name Row, (∀ name ∈ reads, store name = other name) →
    selects store = selects other

variable {Name : Type u} {Row : Type v} [DecidableEq Name]

def Deletion.run (deletion : Deletion Name Row) (store : Store Name Row) : Store Name Row :=
  Function.update store deletion.table
    ((store deletion.table).filter fun row => !deletion.selects store row)

def runAll (deletions : List (Deletion Name Row)) (store : Store Name Row) : Store Name Row :=
  deletions.foldl (fun store deletion => deletion.run store) store

def Ordered (deletions : List (Deletion Name Row)) : Prop :=
  deletions.Pairwise fun earlier later => earlier.table ∉ later.reads

structure Transaction (Name : Type u) (Row : Type v) where
  store : Store Name Row
  aborted : Bool

def attempt (fails : Name → Bool) (transaction : Transaction Name Row)
    (deletion : Deletion Name Row) : Transaction Name Row :=
  if transaction.aborted then transaction
  else if fails deletion.table then { transaction with aborted := true }
  else { transaction with store := deletion.run transaction.store }

def transact (fails : Name → Bool) (deletions : List (Deletion Name Row))
    (store : Store Name Row) : Store Name Row :=
  let ended := deletions.foldl (attempt fails) ⟨store, false⟩
  if ended.aborted then store else ended.store

variable {deletion : Deletion Name Row} {deletions : List (Deletion Name Row)}
  {store : Store Name Row} {fails : Name → Bool} {name : Name} {row : Row}

@[simp]
theorem runAll_nil : runAll [] store = store := rfl

@[simp]
theorem runAll_cons :
    runAll (deletion :: deletions) store = runAll deletions (deletion.run store) := rfl

theorem mem_run : row ∈ deletion.run store name ↔
    row ∈ store name ∧ (deletion.table = name → deletion.selects store row = false) := by
  rcases eq_or_ne deletion.table name with rfl | other
  · simp [Deletion.run]
  · simp [Deletion.run, Function.update_of_ne other.symm, other]

theorem run_of_ne (other : deletion.table ≠ name) : deletion.run store name = store name :=
  Function.update_of_ne other.symm _ _

theorem run_sublist : (deletion.run store name).Sublist (store name) := by
  rcases eq_or_ne deletion.table name with rfl | other
  · simp [Deletion.run]
  · simp [run_of_ne other]

theorem runAll_sublist : (runAll deletions store name).Sublist (store name) := by
  induction deletions generalizing store with
  | nil => exact List.Sublist.refl _
  | cons deletion rest ih =>
    have later : (runAll rest (deletion.run store) name).Sublist (deletion.run store name) := ih
    exact later.trans run_sublist

theorem mem_runAll (ordered : Ordered deletions) : row ∈ runAll deletions store name ↔
    row ∈ store name ∧
      ∀ deletion ∈ deletions, deletion.table = name → deletion.selects store row = false := by
  induction deletions generalizing store with
  | nil => simp
  | cons first rest ih =>
    have apart : ∀ later ∈ rest, first.table ∉ later.reads :=
      fun _ => List.rel_of_pairwise_cons ordered
    have unchanged : ∀ later ∈ rest, later.selects (first.run store) = later.selects store := by
      intro later laterMem
      apply later.readsOnly
      intro read readMem
      exact run_of_ne (ne_of_mem_of_not_mem readMem (apart later laterMem)).symm
    have left : row ∈ runAll rest (first.run store) name ↔ row ∈ first.run store name ∧
        ∀ later ∈ rest, later.table = name → later.selects store row = false := by
      rw [ih ordered.of_cons]
      apply and_congr_right'
      apply forall₂_congr
      intro later laterMem
      rw [unchanged later laterMem]
    rw [runAll_cons, left, mem_run, and_assoc, List.forall_mem_cons]

theorem foldl_attempt_aborted :
    deletions.foldl (attempt fails) ⟨store, true⟩ = ⟨store, true⟩ := by
  induction deletions with
  | nil => rfl
  | cons deletion rest ih => simpa [attempt] using ih

theorem foldl_attempt_of_works (works : ∀ deletion ∈ deletions, fails deletion.table = false) :
    deletions.foldl (attempt fails) ⟨store, false⟩ = ⟨runAll deletions store, false⟩ := by
  induction deletions generalizing store with
  | nil => rfl
  | cons deletion rest ih =>
    rw [List.forall_mem_cons] at works
    simpa [attempt, works.1] using ih works.2

theorem transact_of_works (works : ∀ deletion ∈ deletions, fails deletion.table = false) :
    transact fails deletions store = runAll deletions store := by
  simp [transact, foldl_attempt_of_works works]

theorem aborted_of_fails (deletionMem : deletion ∈ deletions)
    (failed : fails deletion.table = true) :
    (deletions.foldl (attempt fails) ⟨store, false⟩).aborted = true := by
  induction deletions generalizing store with
  | nil => cases deletionMem
  | cons first rest ih =>
    cases firstFails : fails first.table with
    | true => simp [attempt, firstFails, foldl_attempt_aborted]
    | false =>
      rcases List.mem_cons.mp deletionMem with rfl | later
      · simp [failed] at firstFails
      · simpa [attempt, firstFails] using ih later

theorem transact_of_fails (deletionMem : deletion ∈ deletions)
    (failed : fails deletion.table = true) : transact fails deletions store = store := by
  simp [transact, aborted_of_fails deletionMem failed]

theorem transact_sublist : (transact fails deletions store name).Sublist (store name) := by
  by_cases works : ∀ deletion ∈ deletions, fails deletion.table = false
  · rw [transact_of_works works]
    exact runAll_sublist
  · push Not at works
    rcases works with ⟨deletion, deletionMem, failed⟩
    rw [transact_of_fails deletionMem (by simpa using failed)]

end Deletions
