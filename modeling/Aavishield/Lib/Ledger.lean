import Mathlib.Data.List.Basic
import Mathlib.Data.List.Count

/-!
# Ledgers of owned resources

A component that holds at most one resource at a time, acquires new ones, and must
retire each resource it no longer holds, once.  The ledger is the invariant that
relates what it holds, what it ever acquired and what it retired.
-/

universe u

structure Ledger {Resource : Type u} [DecidableEq Resource] (held : Option Resource)
    (acquired retired : List Resource) : Prop where
  heldAcquired : ∀ resource, held = some resource → resource ∈ acquired
  retiredAcquired : ∀ resource ∈ retired, resource ∈ acquired
  accounted : ∀ resource ∈ acquired, held = some resource ∨ retired.count resource = 1
  unretired : ∀ resource, held = some resource → resource ∉ retired

namespace Ledger

variable {Resource : Type u} [DecidableEq Resource] {held : Option Resource}
  {acquired retired : List Resource} {resource : Resource}

theorem empty : Ledger (none : Option Resource) [] [] := by
  constructor <;> simp

theorem retire (ledger : Ledger held acquired retired) :
    Ledger none acquired (held.toList ++ retired) := by
  cases held with
  | none => exact ledger
  | some current =>
    have unretired := ledger.unretired current rfl
    refine ⟨by simp, ?_, ?_, by simp⟩
    · simp only [Option.toList_some, List.singleton_append, List.forall_mem_cons]
      exact ⟨ledger.heldAcquired current rfl, ledger.retiredAcquired⟩
    · intro resource resourceMem
      right
      simp only [Option.toList_some, List.singleton_append, List.count_cons]
      rcases ledger.accounted resource resourceMem with isHeld | once
      · cases isHeld
        simp [List.count_eq_zero_of_not_mem unretired]
      · have other : current ≠ resource := by
          rintro rfl
          rw [List.count_eq_zero_of_not_mem unretired] at once
          cases once
        simp [once, other]

theorem acquire (ledger : Ledger none acquired retired) (fresh : resource ∉ acquired) :
    Ledger (some resource) (resource :: acquired) retired := by
  refine ⟨by simp, ?_, ?_, ?_⟩
  · exact fun other otherMem => List.mem_cons_of_mem _ (ledger.retiredAcquired other otherMem)
  · intro other otherMem
    rcases List.mem_cons.mp otherMem with rfl | before
    · exact .inl rfl
    · exact .inr ((ledger.accounted other before).resolve_left (by simp))
  · rintro _ ⟨⟩ retiredMem
    exact fresh (ledger.retiredAcquired _ retiredMem)

theorem discard (ledger : Ledger held acquired retired) (fresh : resource ∉ acquired) :
    Ledger held (resource :: acquired) (resource :: retired) := by
  have unretired : resource ∉ retired := fun retiredMem =>
    fresh (ledger.retiredAcquired _ retiredMem)
  refine ⟨?_, ?_, ?_, ?_⟩
  · exact fun other isHeld => List.mem_cons_of_mem _ (ledger.heldAcquired other isHeld)
  · rw [List.forall_mem_cons]
    refine ⟨List.mem_cons_self, fun other otherMem => ?_⟩
    exact List.mem_cons_of_mem _ (ledger.retiredAcquired other otherMem)
  · intro other otherMem
    rcases List.mem_cons.mp otherMem with rfl | before
    · exact .inr (by simp [List.count_eq_zero_of_not_mem unretired])
    · have distinct : resource ≠ other := fun same => fresh (same ▸ before)
      simpa [List.count_cons, distinct] using ledger.accounted other before
  · intro other isHeld retiredMem
    rcases List.mem_cons.mp retiredMem with rfl | before
    · exact fresh (ledger.heldAcquired _ isHeld)
    · exact ledger.unretired other isHeld before

theorem not_accounted_of_fresh (ledger : Ledger held acquired retired)
    (fresh : resource ∉ acquired) : held ≠ some resource ∧ retired.count resource ≠ 1 := by
  refine ⟨fun isHeld => fresh (ledger.heldAcquired _ isHeld), fun once => ?_⟩
  have retiredMem : resource ∈ retired := List.count_pos_iff.mp (by omega)
  exact fresh (ledger.retiredAcquired _ retiredMem)

end Ledger
