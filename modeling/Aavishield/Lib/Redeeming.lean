import Aavishield.Lib.TransitionSystem

/-!
# Redeeming

Tickets that may be used once, and counters at which they are shown.  A counter that has
found a ticket unspent uses it and marks it as spent in separate steps, in either order, and
other counters may do the same in between.

A run is orderly if no ticket is shown at two counters at once and no counter is left with a
ticket that was used but not marked.  Then every ticket is used at most once.
-/

namespace Redeeming

open TransitionSystem

variable {Ticket : Type}

structure Hold (Ticket : Type) where
  ticket : Ticket
  used : Bool
  marked : Bool

structure Office (Ticket : Type) where
  holds : ℕ → Option (Hold Ticket)
  spent : Ticket → Bool
  uses : Ticket → ℕ

inductive Motion (Ticket : Type) where
  | take (counter : ℕ) (ticket : Ticket)
  | use (counter : ℕ)
  | mark (counter : ℕ)
  | leave (counter : ℕ)

def Office.new : Office Ticket := ⟨fun _ => none, fun _ => false, fun _ => 0⟩

def Office.step [DecidableEq Ticket] (office : Office Ticket) :
    Motion Ticket → Option (Office Ticket)
  | .take counter ticket =>
    if (office.holds counter).isNone ∧ office.spent ticket = false then
      some { office with
        holds := Function.update office.holds counter (some ⟨ticket, false, false⟩) }
    else none
  | .use counter =>
    match office.holds counter with
    | some ⟨ticket, false, marked⟩ =>
      some { office with
        holds := Function.update office.holds counter (some ⟨ticket, true, marked⟩)
        uses := Function.update office.uses ticket (office.uses ticket + 1) }
    | _ => none
  | .mark counter =>
    match office.holds counter with
    | some ⟨ticket, used, _⟩ =>
      some { office with
        holds := Function.update office.holds counter (some ⟨ticket, used, true⟩)
        spent := Function.update office.spent ticket true }
    | none => none
  | .leave counter =>
    some { office with holds := Function.update office.holds counter none }

def Careful (office : Office Ticket) : Motion Ticket → Prop
  | .take _ ticket => ∀ counter hold, office.holds counter = some hold → hold.ticket ≠ ticket
  | .leave counter =>
    ∀ hold, office.holds counter = some hold → hold.used = true → hold.marked = true
  | _ => True

structure Orderly (office : Office Ticket) : Prop where
  alone : ∀ {first second hold other}, office.holds first = some hold →
    office.holds second = some other → hold.ticket = other.ticket → first = second
  unused : ∀ {counter hold}, office.holds counter = some hold → hold.used = false →
    office.uses hold.ticket = 0
  marked : ∀ {counter hold}, office.holds counter = some hold → hold.marked = true →
    office.spent hold.ticket = true
  accounted : ∀ {ticket}, office.uses ticket ≠ 0 → office.spent ticket = true ∨
    ∃ counter hold, office.holds counter = some hold ∧ hold.ticket = ticket ∧ hold.used = true
  once : ∀ ticket, office.uses ticket ≤ 1

theorem orderly_new : Orderly (Office.new : Office Ticket) where
  alone held := by simp [Office.new] at held
  unused held := by simp [Office.new] at held
  marked held := by simp [Office.new] at held
  accounted used := absurd rfl used
  once ticket := by simp [Office.new]

theorem Orderly.alone_update {office : Office Ticket} {counter : ℕ} {before after : Hold Ticket}
    (orderly : Orderly office) (held : office.holds counter = some before)
    {first second : ℕ} {hold other : Hold Ticket}
    (firstHeld : Function.update office.holds counter (some after) first = some hold)
    (secondHeld : Function.update office.holds counter (some after) second = some other)
    (same : hold.ticket = other.ticket) (keeps : after.ticket = before.ticket) : first = second := by
  simp only [Function.update_apply] at firstHeld secondHeld
  split_ifs at firstHeld secondHeld with isFirst isSecond isSecond
  · rw [isFirst, isSecond]
  · cases firstHeld
    rw [isFirst]
    exact orderly.alone held secondHeld (keeps ▸ same)
  · cases secondHeld
    rw [isSecond]
    exact orderly.alone firstHeld held (keeps ▸ same)
  · exact orderly.alone firstHeld secondHeld same

variable [DecidableEq Ticket] {office next : Office Ticket}

section

variable (orderly : Orderly office)

include orderly

theorem orderly_take {counter : ℕ} {ticket : Ticket}
    (careful : Careful office (.take counter ticket))
    (stepped : office.step (.take counter ticket) = some next) : Orderly next := by
  simp only [Office.step, Option.ite_none_right_eq_some, Option.some.injEq] at stepped
  rcases stepped with ⟨⟨free, unspent⟩, rfl⟩
  rw [Option.isNone_iff_eq_none] at free
  have notUsed : office.uses ticket = 0 := by
    by_contra used
    rcases orderly.accounted used with spent | ⟨other, hold, held, same, -⟩
    · rw [unspent] at spent
      exact absurd spent (by simp)
    · exact careful other hold held same
  constructor
  · intro first second hold other firstHeld secondHeld same
    simp only [Function.update_apply] at firstHeld secondHeld
    split_ifs at firstHeld secondHeld with isFirst isSecond isSecond
    · rw [isFirst, isSecond]
    · cases firstHeld
      exact absurd same.symm (careful second other secondHeld)
    · cases secondHeld
      exact absurd same (careful first hold firstHeld)
    · exact orderly.alone firstHeld secondHeld same
  · intro other hold held isUnused
    simp only [Function.update_apply] at held
    split_ifs at held
    · cases held
      exact notUsed
    · exact orderly.unused held isUnused
  · intro other hold held isMarked
    simp only [Function.update_apply] at held
    split_ifs at held
    · cases held
      exact absurd isMarked (by simp)
    · exact orderly.marked held isMarked
  · intro shown used
    rcases orderly.accounted used with spent | ⟨other, hold, held, same, isUsed⟩
    · exact .inl spent
    · right
      have isOther : other ≠ counter := by
        rintro rfl
        rw [free] at held
        exact absurd held (by simp)
      exact ⟨other, hold, (Function.update_of_ne isOther _ _).trans held, same, isUsed⟩
  · exact orderly.once

theorem orderly_use {counter : ℕ}
    (stepped : office.step (.use counter) = some next) : Orderly next := by
  simp only [Office.step] at stepped
  split at stepped
  case h_2 => simp at stepped
  case h_1 ticket marked held =>
  cases stepped
  have notUsed : office.uses ticket = 0 := orderly.unused held rfl
  constructor
  · intro first second hold other firstHeld secondHeld same
    exact orderly.alone_update held firstHeld secondHeld same rfl
  · intro other hold otherHeld isUnused
    simp only [Function.update_apply] at otherHeld ⊢
    split_ifs at otherHeld with isOther
    · cases otherHeld
      exact absurd isUnused (by simp)
    · rw [if_neg]
      · exact orderly.unused otherHeld isUnused
      · intro same
        exact isOther (orderly.alone otherHeld held same)
  · intro other hold otherHeld isMarked
    simp only [Function.update_apply] at otherHeld
    split_ifs at otherHeld
    · cases otherHeld
      have wasMarked := orderly.marked held
      exact wasMarked isMarked
    · exact orderly.marked otherHeld isMarked
  · intro shown used
    simp only [Function.update_apply] at used ⊢
    split_ifs at used with isTicket
    · right
      exact ⟨counter, ⟨ticket, true, marked⟩, by simp, isTicket.symm, rfl⟩
    · rcases orderly.accounted used with spent | ⟨other, hold, otherHeld, same, isUsed⟩
      · exact .inl spent
      · right
        refine ⟨other, hold, ?_, same, isUsed⟩
        rw [if_neg, otherHeld]
        rintro rfl
        rw [held] at otherHeld
        cases otherHeld
        exact absurd isUsed (by simp)
  · intro shown
    simp only [Function.update_apply]
    split_ifs
    · omega
    · exact orderly.once shown

theorem orderly_mark {counter : ℕ}
    (stepped : office.step (.mark counter) = some next) : Orderly next := by
  simp only [Office.step] at stepped
  split at stepped
  case h_2 => simp at stepped
  case h_1 ticket used marked held =>
  cases stepped
  constructor
  · intro first second hold other firstHeld secondHeld same
    exact orderly.alone_update held firstHeld secondHeld same rfl
  · intro other hold otherHeld isUnused
    simp only [Function.update_apply] at otherHeld
    split_ifs at otherHeld
    · cases otherHeld
      have wasUnused := orderly.unused held
      exact wasUnused isUnused
    · exact orderly.unused otherHeld isUnused
  · intro other hold otherHeld isMarked
    simp only [Function.update_apply] at otherHeld ⊢
    split_ifs at otherHeld
    · cases otherHeld
      rw [if_pos rfl]
    · rw [orderly.marked otherHeld isMarked, ite_self]
  · intro shown isUsed
    simp only [Function.update_apply]
    rcases orderly.accounted isUsed with spent | ⟨other, hold, otherHeld, same, wasUsed⟩
    · left
      rw [spent, ite_self]
    · by_cases isCounter : other = counter
      · left
        rw [isCounter, held] at otherHeld
        cases otherHeld
        rw [if_pos same.symm]
      · right
        exact ⟨other, hold, by rw [if_neg isCounter, otherHeld], same, wasUsed⟩
  · exact orderly.once

theorem orderly_leave {counter : ℕ} (careful : Careful office (.leave counter))
    (stepped : office.step (.leave counter) = some next) : Orderly next := by
  cases stepped
  have kept : ∀ {other hold},
      Function.update office.holds counter none other = some hold →
        other ≠ counter ∧ office.holds other = some hold := by
    intro other hold held
    simp only [Function.update_apply] at held
    split_ifs at held with isCounter
    exact ⟨isCounter, held⟩
  constructor
  · intro first second hold other firstHeld secondHeld same
    exact orderly.alone (kept firstHeld).2 (kept secondHeld).2 same
  · intro other hold held isUnused
    exact orderly.unused (kept held).2 isUnused
  · intro other hold held isMarked
    exact orderly.marked (kept held).2 isMarked
  · intro ticket used
    rcases orderly.accounted used with spent | ⟨other, hold, held, same, isUsed⟩
    · exact .inl spent
    · by_cases isCounter : other = counter
      · left
        rw [isCounter] at held
        rw [← same]
        exact orderly.marked held (careful hold held isUsed)
      · right
        exact ⟨other, hold, (Function.update_of_ne isCounter _ _).trans held, same, isUsed⟩
  · exact orderly.once

theorem orderly_step {motion : Motion Ticket}
    (careful : Careful office motion) (stepped : office.step motion = some next) :
    Orderly next := by
  cases motion with
  | take counter ticket => exact orderly_take orderly careful stepped
  | use counter => exact orderly_use orderly stepped
  | mark counter => exact orderly_mark orderly stepped
  | leave counter => exact orderly_leave orderly careful stepped

theorem orderly_of_careful {motions : List (Motion Ticket)}
    (careful : AllSteps Office.step Careful office motions)
    (executed : exec Office.step office motions = some next) : Orderly next :=
  invariant_of_allSteps
    (fun _ _ _ orderly isCareful stepped => orderly_step orderly isCareful stepped) orderly
    careful executed

end

end Redeeming
