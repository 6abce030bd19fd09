import Aavishield.Billing.Billing

/-!
# Paid stays paid

A payment is kept as long as nothing else that the gateway said of a link, and no cancellation
that began before it, is written over it.
-/

namespace Aavishield.Billing

open Dataplane (HasID Table)
open TransitionSystem

def PaidAtExact (records : Table BillingRecord) : Prop :=
  ∀ record ∈ records.rows, record.paidAt.isSome = true ↔ record.status = .paid

def HasPaid (records : Table BillingRecord) (id : UUID) : Prop :=
  ∃ record ∈ records.rows, record.id = id ∧ record.status = .paid

/-- All along a run the time of payment is set exactly for what is paid, and what is paid stays
paid. -/
structure KeepsPayments (trace : List Action) : Prop where
  paidAt : ∀ reached, Visits step .initial trace reached → PaidAtExact reached.records
  stays : ∀ first second rest earlier later, trace = first ++ second ++ rest →
    exec step .initial first = some earlier → exec step earlier second = some later →
      ∀ id, HasPaid earlier.records id → HasPaid later.records id

def Request.voids : Request → Option UUID
  | .applying record status =>
    match readStatus status with
    | none | some .pending | some .paid => none
    | some .cancelled => if record.status = .cancelled then none else some record.id
    | some .expired => if record.status = .expired then none else some record.id
  | .cancelling record => some record.id
  | _ => none

/-- Nothing that was paid is voided. -/
def SparesPayments (world : World) : Action → Prop
  | .advance number _ _ => ∀ request id, world.requests number = some request →
      request.voids = some id → ¬HasPaid world.records id
  | _ => True

variable {records : Table BillingRecord} {record : BillingRecord} {request : Request}
  {world next : World} {action : Action} {id : UUID} {answer : Option String} {now : Time}

theorem mem_updates {status : BillingStatus} {paidAt : Option Time} :
    record ∈ (updates records id status paidAt).rows ↔
      (record ∈ records.rows ∧ record.id ≠ id) ∨ ∃ earlier ∈ records.rows, earlier.id = id ∧
        record = { earlier with status := status, paidAt := paidAt.or earlier.paidAt } := by
  rw [updates, Table.update, List.mem_map]
  constructor
  · rintro ⟨earlier, earlierMem, rfl⟩
    split_ifs with isRow
    · right
      exact ⟨earlier, earlierMem, isRow, rfl⟩
    · left
      exact ⟨earlierMem, isRow⟩
  · rintro (⟨recordMem, other⟩ | ⟨earlier, earlierMem, isRow, rfl⟩)
    · exact ⟨record, recordMem, if_neg other⟩
    · exact ⟨earlier, earlierMem, if_pos isRow⟩

def Request.copy : Request → Option BillingRecord
  | .asking record | .noting record _ _ | .applying record _ | .withdrawing record
  | .cancelling record => some record
  | .called _ | .answered => none

inductive Effect (records : Table BillingRecord) : Request → Table BillingRecord → Request → Prop where
  | loaded {call : Call} {later : Request} (reads : ∀ copy, later.copy = some copy → copy ∈ records.rows) :
      Effect records (.called call) records later
  | quiet {request later : Request} (sparing : request.voids = none)
      (keeps : ∀ copy, later.copy = some copy → request.copy = some copy) :
      Effect records request records later
  | noted {request later : Request} (id : UUID) (paymentID : String) (sparing : request.voids = none)
      (keeps : ∀ copy, later.copy = some copy → request.copy = some copy) :
      Effect records request (notePayment records id paymentID) later
  | paid {request later : Request} (copy : BillingRecord) (isCopy : request.copy = some copy)
      (unpaid : copy.status ≠ .paid) (sparing : request.voids = none) (now : Time)
      (done : later.copy = none) :
      Effect records request (updates records copy.id .paid (if copy.paidAt = none then some now else none))
        later
  | voided {request later : Request} (id : UUID) (voids : request.voids = some id)
      {status : BillingStatus} (notPaid : status ≠ .paid) (done : later.copy = none) :
      Effect records request (updates records id status none) later

theorem findRecord_mem (found : findRecord records id = some record) : record ∈ records.rows :=
  List.mem_of_find?_eq_some found

theorem effect_load (call : Call) : ∀ copy, (call.load records).copy = some copy →
    copy ∈ records.rows := by
  intro copy isCopy
  cases call with
  | refresh id =>
    rw [Call.load] at isCopy
    cases found : findRecord records id with
    | none =>
      rw [found] at isCopy
      cases isCopy
    | some record =>
      simp only [found] at isCopy
      split_ifs at isCopy
      · cases isCopy
      · cases isCopy
        exact findRecord_mem found
  | webhook linkID status paymentID =>
    rw [Call.load] at isCopy
    by_cases noLink : linkID = ""
    · rw [if_pos noLink] at isCopy
      cases isCopy
    · rw [if_neg noLink] at isCopy
      cases found : records.rows.find? (·.razorpayPaymentLinkID == linkID) with
      | none =>
        rw [found] at isCopy
        cases isCopy
      | some record =>
        simp only [found] at isCopy
        have recordMem := List.mem_of_find?_eq_some found
        split_ifs at isCopy
        · cases isCopy
          exact recordMem
        · cases isCopy
          exact recordMem
  | cancel id =>
    rw [Call.load] at isCopy
    cases found : findRecord records id with
    | none =>
      rw [found] at isCopy
      cases isCopy
    | some record =>
      simp only [found] at isCopy
      split_ifs at isCopy
      · cases isCopy
      · cases isCopy
        exact findRecord_mem found
      · cases isCopy
        exact findRecord_mem found

theorem readStatus_ne_pending (text : String) : readStatus text ≠ some .pending := by
  unfold readStatus
  split
  all_goals
    intro isPending
    cases isPending

theorem effect_apply (status : String) (now : Time) :
    Effect records (.applying record status) (applyPaymentLinkStatus records record status now)
      .answered := by
  have nothing : ∀ copy, Request.answered.copy = some copy →
      (Request.applying record status).copy = some copy := by
    intro copy isCopy
    cases isCopy
  rw [applyPaymentLinkStatus]
  cases read : readStatus status with
  | none => exact .quiet (by rw [Request.voids, read]) nothing
  | some read' =>
    dsimp only
    split_ifs with same isNew
    · refine .quiet ?_ nothing
      rw [Request.voids, read]
      cases read' with
      | pending | paid => rfl
      | cancelled | expired => exact if_pos same
    · rw [isNew.1] at same read ⊢
      have paid := @Effect.paid records (.applying record status) .answered record rfl same (by rw [Request.voids, read]) now rfl
      rwa [if_pos isNew.2] at paid
    · cases read' with
      | pending => exact absurd read (readStatus_ne_pending status)
      | paid =>
        have paid := @Effect.paid records (.applying record status) .answered record rfl same (by rw [Request.voids, read]) now rfl
        rwa [if_neg fun unset => isNew ⟨rfl, unset⟩] at paid
      | cancelled | expired =>
        apply Effect.voided record.id _ (by decide) rfl
        rw [Request.voids, read]
        exact if_neg same

theorem effect_advance (request : Request) (answer : Option String) (now : Time) :
    Effect records request (request.advance records answer now).1
      (request.advance records answer now).2 := by
  cases request with
  | called call => exact .loaded (effect_load call)
  | asking record =>
    cases answer with
    | none => exact .quiet rfl fun copy isCopy => (by cases isCopy)
    | some status => exact .quiet rfl fun copy isCopy => isCopy
  | noting record paymentID status => exact .noted _ _ rfl fun copy isCopy => isCopy
  | applying record status => exact effect_apply status now
  | withdrawing record | answered => exact .quiet rfl fun copy isCopy => isCopy
  | cancelling record => exact .voided record.id rfl (by decide) rfl

def CopyExact (request : Request) : Prop :=
  ∀ copy, request.copy = some copy → (copy.paidAt.isSome = true ↔ copy.status = .paid)

section Effects

variable {records' : Table BillingRecord} {later : Request}

theorem mem_notePayment {paymentID : String} (recordMem : record ∈ (notePayment records id paymentID).rows) :
    ∃ earlier ∈ records.rows, record.id = earlier.id ∧ record.status = earlier.status ∧
      record.paidAt = earlier.paidAt := by
  rcases List.mem_map.mp recordMem with ⟨earlier, earlierMem, rfl⟩
  refine ⟨earlier, earlierMem, ?_⟩
  split_ifs <;> exact ⟨rfl, rfl, rfl⟩

section

variable (effect : Effect records request records' later)

include effect

theorem Effect.paidAtExact (isExact : PaidAtExact records) (copyExact : CopyExact request)
    (spares : ∀ id, request.voids = some id → ¬HasPaid records id) : PaidAtExact records' := by
  cases effect with
  | loaded reads => exact isExact
  | quiet sparing keeps => exact isExact
  | noted id paymentID sparing keeps =>
    intro record recordMem
    rcases mem_notePayment recordMem with ⟨earlier, earlierMem, -, sameStatus, samePaidAt⟩
    rw [sameStatus, samePaidAt]
    exact isExact earlier earlierMem
  | paid copy isCopy unpaid sparing now done =>
    have unset : copy.paidAt = none := by
      rw [← Option.not_isSome_iff_eq_none, copyExact copy isCopy]
      exact unpaid
    intro record recordMem
    rcases mem_updates.mp recordMem with ⟨recordMem, -⟩ | ⟨earlier, -, -, rfl⟩
    · exact isExact record recordMem
    · rw [if_pos unset]
      exact ⟨fun _ => rfl, fun _ => rfl⟩
  | voided id voids notPaid done =>
    intro record recordMem
    rcases mem_updates.mp recordMem with ⟨recordMem, -⟩ | ⟨earlier, earlierMem, isRow, rfl⟩
    · exact isExact record recordMem
    · have unset : ¬earlier.paidAt.isSome = true := by
        rw [isExact earlier earlierMem]
        intro isPaid
        exact spares id voids ⟨earlier, earlierMem, isRow, isPaid⟩
      rw [Option.none_or]
      exact iff_of_false unset notPaid

theorem Effect.copyExact
    (isExact : PaidAtExact records) (copyExact : CopyExact request) : CopyExact later := by
  intro copy isCopy
  cases effect with
  | loaded reads => exact isExact copy (reads copy isCopy)
  | quiet sparing keeps | noted id paymentID sparing keeps => exact copyExact copy (keeps copy isCopy)
  | paid copied isCopied unpaid sparing now done | voided id voids notPaid done =>
    rw [done] at isCopy
    cases isCopy

theorem Effect.hasPaid
    (spares : ∀ id, request.voids = some id → ¬HasPaid records id) (hasPaid : HasPaid records id) :
    HasPaid records' id := by
  rcases hasPaid with ⟨record, recordMem, isRow, isPaid⟩
  cases effect with
  | loaded reads | quiet sparing keeps => exact ⟨record, recordMem, isRow, isPaid⟩
  | noted written paymentID sparing keeps =>
    refine ⟨_, List.mem_map_of_mem recordMem, ?_, ?_⟩
    · split_ifs <;> exact isRow
    · split_ifs <;> exact isPaid
  | paid copy isCopy unpaid sparing now done =>
    by_cases isWritten : record.id = copy.id
    · exact ⟨_, mem_updates.mpr (.inr ⟨record, recordMem, isWritten, rfl⟩), isRow, rfl⟩
    · exact ⟨record, mem_updates.mpr (.inl ⟨recordMem, isWritten⟩), isRow, isPaid⟩
  | voided written voids notPaid done =>
    by_cases isWritten : record.id = written
    · exact absurd ⟨record, recordMem, isWritten, isPaid⟩ (spares written voids)
    · exact ⟨record, mem_updates.mpr (.inl ⟨recordMem, isWritten⟩), isRow, isPaid⟩

theorem Effect.spares_of_paidAtExact
    (isExact : PaidAtExact records) (isExact' : PaidAtExact records') :
    ∀ id, request.voids = some id → ¬HasPaid records id := by
  rintro id voids ⟨record, recordMem, isRow, isPaid⟩
  cases effect with
  | loaded reads => cases voids
  | quiet sparing keeps | noted written paymentID sparing keeps
  | paid copy isCopy unpaid sparing now done =>
    rw [voids] at sparing
    cases sparing
  | voided written voids' notPaid done =>
    cases voids.symm.trans voids'
    have isVoided := isExact' _ (mem_updates.mpr (.inr ⟨record, recordMem, isRow, rfl⟩))
    rw [Option.none_or] at isVoided
    exact notPaid (isVoided.mp ((isExact record recordMem).mpr isPaid))

end

end Effects

structure Sound (world : World) : Prop where
  paidAt : PaidAtExact world.records
  copies : ∀ number request, world.requests number = some request → CopyExact request

theorem Sound.initial : Sound .initial where
  paidAt _ recordMem := by cases recordMem
  copies _ _ found := by cases found

theorem step_cases (stepped : step world action = some next) :
    (∃ id linkID, action = .create id linkID ∧ next.requests = world.requests ∧
      next.records = world.records.insert ⟨id, linkID, "", .pending, none⟩) ∨
    (∃ number call, action = .receive number call ∧ next.records = world.records ∧
      next.requests = Function.update world.requests number (some (.called call))) ∨
    ∃ number answer now request later, action = .advance number answer now ∧
      world.requests number = some request ∧ Effect world.records request next.records later ∧
        next.requests = Function.update world.requests number (some later) := by
  cases action with
  | create id linkID =>
    left
    cases stepped
    exact ⟨id, linkID, rfl, rfl, rfl⟩
  | receive number call =>
    right
    left
    rw [step] at stepped
    split at stepped
    · cases stepped
    · cases stepped
      exact ⟨number, call, rfl, rfl, rfl⟩
  | advance number answer now =>
    right
    right
    rcases Option.map_eq_some_iff.mp stepped with ⟨request, found, rfl⟩
    exact ⟨number, answer, now, request, _, rfl, found, effect_advance request answer now, rfl⟩

theorem sound_step (sound : Sound world) (spares : SparesPayments world action)
    (stepped : step world action = some next) : Sound next := by
  rcases step_cases stepped with ⟨id, linkID, rfl, requests, records⟩ |
    ⟨number, call, rfl, records, requests⟩ |
    ⟨number, answer, now, request, later, rfl, found, effect, requests⟩
  · constructor
    · intro record recordMem
      rw [records] at recordMem
      rcases Table.mem_insert recordMem with ⟨rfl, -⟩ | recordMem
      · exact iff_of_false (by simp) (by simp)
      · exact sound.paidAt record recordMem
    · rw [requests]
      exact sound.copies
  · constructor
    · rw [records]
      exact sound.paidAt
    · intro other request found
      rw [requests] at found
      rcases party_update found with ⟨-, rfl⟩ | ⟨-, found⟩
      · intro copy isCopy
        cases isCopy
      · exact sound.copies other request found
  · have copyExact := sound.copies number request found
    constructor
    · exact effect.paidAtExact sound.paidAt copyExact fun id voids => spares request id found voids
    · intro other party foundParty
      rw [requests] at foundParty
      rcases party_update foundParty with ⟨-, rfl⟩ | ⟨-, foundParty⟩
      · exact effect.copyExact sound.paidAt copyExact
      · exact sound.copies other party foundParty

theorem hasPaid_step (spares : SparesPayments world action) (stepped : step world action = some next)
    (isPaid : HasPaid world.records id) : HasPaid next.records id := by
  rcases step_cases stepped with ⟨created, linkID, rfl, requests, records⟩ |
    ⟨number, call, rfl, records, requests⟩ |
    ⟨number, answer, now, request, later, rfl, found, effect, requests⟩
  · rcases isPaid with ⟨record, recordMem, isRow⟩
    refine ⟨record, ?_, isRow⟩
    rw [records]
    exact Table.mem_insert_of_mem recordMem
  · rw [records]
    exact isPaid
  · exact effect.hasPaid (fun id voids => spares request id found voids) isPaid

theorem Sound.spares_of_paidAtExact (sound : Sound world) (stepped : step world action = some next)
    (isExact : PaidAtExact next.records) : SparesPayments world action := by
  rcases step_cases stepped with ⟨created, linkID, rfl, requests, records⟩ |
    ⟨number, call, rfl, records, requests⟩ |
    ⟨number, answer, now, request, later, rfl, found, effect, requests⟩
  · trivial
  · trivial
  · intro other id foundOther voids
    cases found.symm.trans foundOther
    exact effect.spares_of_paidAtExact sound.paidAt isExact id voids

/-- A run keeps its payments exactly if none of its steps is about to void one. -/
theorem keepsPayments_iff {trace : List Action} {final : World}
    (executed : exec step .initial trace = some final) :
    KeepsPayments trace ↔ AllSteps step SparesPayments .initial trace := by
  have visited : (∀ reached, Visits step .initial trace reached → PaidAtExact reached.records) ↔
      AllSteps step SparesPayments .initial trace :=
    forall_visits_iff_allSteps (fun _ sound => sound.paidAt)
      (fun _ _ _ sound spares stepped => sound_step sound spares stepped)
      (fun _ _ _ sound stepped isExact => sound.spares_of_paidAtExact stepped isExact)
      Sound.initial executed
  constructor
  · intro keeps
    exact visited.mp keeps.paidAt
  · intro spares
    refine ⟨visited.mpr spares, ?_⟩
    rintro first second rest earlier later rfl executedFirst executedSecond id isPaid
    rw [List.append_assoc, allSteps_append executedFirst] at spares
    have sparesSecond := ((allSteps_append executedSecond).mp spares.2).1
    exact invariant_of_allSteps (fun _ _ _ isPaid spares stepped => hasPaid_step spares stepped isPaid)
      isPaid sparesSecond executedSecond

def payment : List Action :=
  [.create ⟨1⟩ "plink_1", .receive 0 (.webhook "plink_1" "paid" "pay_1"), .advance 0 none 5,
    .advance 0 none 5, .advance 0 none 5]

theorem keepsPayments_payment :
    KeepsPayments payment ↔ AllSteps step SparesPayments .initial payment :=
  @keepsPayments_iff payment _ rfl

def lateExpiry : List Action :=
  payment ++ [.receive 1 (.webhook "plink_1" "expired" ""), .advance 1 none 6, .advance 1 none 6]

/-- The payment is overwritten. -/
theorem not_alwaysKeepsPayments : ¬∀ trace final, exec step .initial trace = some final →
    KeepsPayments trace := by
  intro always
  rcases executed : exec step .initial lateExpiry with _ | final
  · cases executed
  · have isExact := (always lateExpiry final executed).paidAt final
      ⟨lateExpiry, List.prefix_rfl, executed⟩
    cases executed
    have isVoided := isExact ⟨⟨1⟩, "plink_1", "pay_1", .expired, some 5⟩ (List.mem_singleton.mpr rfl)
    cases isVoided.mp rfl

end Aavishield.Billing
