import Aavishield.Tickets.Tickets

/-!
# Tickets stay coherent

What a ticket says of itself stays right as long as no message of the customer is stored while
the ticket is finished, and no message fails to be stored after the ticket was reopened for it.
-/

namespace Aavishield.Tickets

open TransitionSystem

def Statement.isCustomerMessage : Statement → Bool
  | .create message => decide (message.side = .customer)
  | _ => false

def Statement.isActivity : Statement → Bool
  | .create _ | .setStatus _ => true
  | .attach _ | .customerWrote | .supportWrote _ _ | .setPriority _ | .assign _ => false

def lastActivity (log : List Written) : Option Statement :=
  (log.map Written.statement).find? Statement.isActivity

def World.Wrote (world : World) (number : ℕ) : Prop := ∃ written ∈ world.log, written.number = number

/-- The columns of a ticket fit its status, and a request that reports a failure wrote nothing. -/
structure Coherent (world : World) : Prop where
  resolvedAt : world.conversation.ticket.resolvedAt.isSome = true ↔
    world.conversation.ticket.status.isDone = true
  reopened : world.conversation.ticket.status.isDone = true →
    ∀ statement, lastActivity world.log = some statement → statement.isCustomerMessage = false
  atomic : ∀ number, world.requests number = some (.answered true) → ¬world.Wrote number

/-- A message of the customer finds the ticket unfinished, and a message that cannot be stored is
the first thing that its handler writes. -/
def KeepsCoherent (world : World) : Action → Prop
  | .advance number ok _ => ∀ request planned, world.requests number = some request →
      request.statement? = some planned →
        if ok then planned.statement.isCustomerMessage = true →
          world.conversation.ticket.status.isDone = false
        else planned.required = true → ¬world.Wrote number
  | .receive _ _ _ _ => True

variable {world next : World} {action : Action} {request : Request} {number other : ℕ} {ok : Bool}
  {now : Time} {conversation : Conversation} {statement : Statement}

section Statements

theorem apply_resolvedAt (isExact : conversation.ticket.resolvedAt.isSome = true ↔
      conversation.ticket.status.isDone = true) :
    (statement.apply now conversation).ticket.resolvedAt.isSome = true ↔
      (statement.apply now conversation).ticket.status.isDone = true := by
  cases statement with
  | setStatus status => cases status <;> simp [Statement.apply, TicketStatus.isDone]
  | supportWrote internal owner => cases internal <;> exact isExact
  | create message | attach attachment | customerWrote | setPriority priority | assign owner => exact isExact

theorem apply_status (quiet : statement.isActivity = false) :
    (statement.apply now conversation).ticket.status = conversation.ticket.status := by
  cases statement with
  | setStatus status => cases quiet
  | supportWrote internal owner => cases internal <;> rfl
  | create message => rfl
  | attach attachment => rfl
  | customerWrote => rfl
  | setPriority priority => rfl
  | assign owner => rfl

theorem lastActivity_cons (written : Written) (log : List Written) :
    lastActivity (written :: log) =
      if written.statement.isActivity = true then some written.statement else lastActivity log := by
  rw [lastActivity, List.map_cons, List.find?_cons]
  cases written.statement.isActivity <;> rfl

end Statements

theorem wrote_write : (world.write number statement now).Wrote other ↔
    number = other ∨ world.Wrote other := by
  constructor
  · rintro ⟨written, writtenMem, isOther⟩
    rcases List.mem_cons.mp writtenMem with rfl | writtenMem
    · left
      exact isOther
    · right
      exact ⟨written, writtenMem, isOther⟩
  · rintro (rfl | ⟨written, writtenMem, isOther⟩)
    · exact ⟨_, List.mem_cons_self, rfl⟩
    · exact ⟨written, List.mem_cons_of_mem _ writtenMem, isOther⟩

def Reopened (conversation : Conversation) (log : List Written) : Prop :=
  conversation.ticket.status.isDone = true →
    ∀ statement, lastActivity log = some statement → statement.isCustomerMessage = false

theorem reopened_write (reopened : Reopened world.conversation world.log)
    (finds : statement.isCustomerMessage = true → world.conversation.ticket.status.isDone = false) :
    Reopened (world.write number statement now).conversation (world.write number statement now).log := by
  intro isDone last isLast
  rw [World.write, lastActivity_cons] at isLast
  dsimp only at isLast
  split_ifs at isLast with isActivity
  · cases isLast
    by_contra isCustomer
    rw [Bool.not_eq_false] at isCustomer
    cases statement with
    | create message =>
      have unfinished := finds isCustomer
      rw [show world.conversation.ticket.status.isDone = true from isDone] at unfinished
      cases unfinished
    | setStatus status => cases isCustomer
    | attach attachment | customerWrote | supportWrote internal owner | setPriority priority
    | assign owner => cases isActivity
  · rw [Bool.not_eq_true] at isActivity
    rw [World.write, apply_status isActivity] at isDone
    exact reopened isDone last isLast

theorem unfinished_of_reopened_write
    (reopened : Reopened (world.write number statement now).conversation
      (world.write number statement now).log)
    (isCustomer : statement.isCustomerMessage = true) :
    world.conversation.ticket.status.isDone = false := by
  cases statement with
  | create message =>
    by_contra isDone
    rw [Bool.not_eq_false] at isDone
    have isOther := reopened isDone (.create message) rfl
    rw [isCustomer] at isOther
    cases isOther
  | attach attachment | setStatus status | customerWrote | supportWrote internal owner
  | setPriority priority | assign owner => cases isCustomer

structure Sound (world : World) : Prop extends Coherent world where
  called : ∀ number, world.Wrote number → ∃ request, world.requests number = some request ∧
    ∀ call author newID, request ≠ .called call author newID

theorem step_cases (stepped : step world action = some next) :
    (∃ number call author newID, action = .receive number call author newID ∧
      world.requests number = none ∧ next = { world with
        requests := Function.update world.requests number (some (.called call author newID)) }) ∨
    ∃ number ok now request, action = .advance number ok now ∧ world.requests number = some request ∧
      next.requests = Function.update world.requests number
        (some (request.advance world.conversation.ticket ok)) ∧
      ((next.conversation = world.conversation ∧ next.log = world.log ∧
          (request.statement? = none ∨ ok = false)) ∨
        ∃ planned, request.statement? = some planned ∧ ok = true ∧
          next.conversation = (world.write number planned.statement now).conversation ∧
          next.log = (world.write number planned.statement now).log) := by
  cases action with
  | receive number call author newID =>
    left
    rw [step] at stepped
    split at stepped
    · cases stepped
    · rename_i free
      cases stepped
      exact ⟨number, call, author, newID, rfl, free, rfl⟩
  | advance number ok now =>
    right
    rcases Option.map_eq_some_iff.mp stepped with ⟨request, found, rfl⟩
    refine ⟨number, ok, now, request, rfl, found, rfl, ?_⟩
    cases isNext : request.statement? with
    | none =>
      left
      exact ⟨rfl, rfl, .inl rfl⟩
    | some planned =>
      cases ok with
      | false =>
        left
        exact ⟨rfl, rfl, .inr rfl⟩
      | true =>
        right
        exact ⟨planned, rfl, rfl, rfl, rfl⟩

theorem advance_ne_called (t : Ticket) (call : Call) (author : Author) (newID : ℕ → UUID) :
    request.advance t ok ≠ .called call author newID := by
  cases request with
  | called earlier writer ids =>
    rw [Request.advance]
    split_ifs
    · split <;> simp
    · simp
  | running planned =>
    cases planned with
    | nil => simp [Request.advance]
    | cons first rest =>
      rw [Request.advance]
      split_ifs <;> simp
  | answered failed => simp [Request.advance]

theorem Sound.atomic_of_unwritten (sound : Sound world) (found : world.requests number = some request)
    (unwritten : request.statement? = none ∨ ok = false)
    (keeps : ∀ planned, request.statement? = some planned → ok = false → planned.required = true →
      ¬world.Wrote number)
    (failed : request.advance world.conversation.ticket ok = .answered true) : ¬world.Wrote number := by
  cases request with
  | called call author newID =>
    intro wrote
    rcases sound.called number wrote with ⟨other, foundOther, notCalled⟩
    cases found.symm.trans foundOther
    exact notCalled call author newID rfl
  | running planned =>
    cases planned with
    | nil => cases failed
    | cons first rest =>
      have isFalse : ok = false := unwritten.resolve_left fun isNone => (by cases isNone)
      apply keeps first rfl isFalse
      rw [isFalse, Request.advance] at failed
      split_ifs at failed with isRequired
      · simpa using isRequired
  | answered before =>
    cases failed
    exact sound.atomic number found

theorem sound_step (sound : Sound world) (keeps : KeepsCoherent world action)
    (stepped : step world action = some next) : Sound next := by
  rcases step_cases stepped with ⟨number, call, author, newID, rfl, free, rfl⟩ |
    ⟨number, ok, now, request, rfl, found, requests, written⟩
  · refine ⟨⟨sound.resolvedAt, sound.reopened, ?_⟩, ?_⟩
    · intro other failed
      rcases party_update failed with ⟨-, isCalled⟩ | ⟨-, failed⟩
      · cases isCalled
      · exact sound.atomic other failed
    · intro other wrote
      rcases sound.called other wrote with ⟨request, found, notCalled⟩
      refine ⟨request, ?_, notCalled⟩
      have different : other ≠ number := by
        rintro rfl
        rw [free] at found
        cases found
      exact (Function.update_of_ne different _ _).trans found
  · have calledNext : ∀ other, world.Wrote other ∨ other = number →
        ∃ request, next.requests other = some request ∧
          ∀ call author newID, request ≠ .called call author newID := by
      intro other wrote
      rw [requests]
      by_cases same : other = number
      · rw [same, Function.update_self]
        exact ⟨_, rfl, advance_ne_called world.conversation.ticket⟩
      · rw [Function.update_of_ne same]
        exact sound.called other (wrote.resolve_right same)
    rcases written with ⟨conversation, log, unwritten⟩ | ⟨planned, isNext, rfl, conversation, log⟩
    · have wrote : ∀ other, next.Wrote other ↔ world.Wrote other := by
        intro other
        rw [World.Wrote, log, World.Wrote]
      refine ⟨⟨?_, ?_, ?_⟩, ?_⟩
      · rw [conversation]
        exact sound.resolvedAt
      · rw [conversation, log]
        exact sound.reopened
      · intro other failed
        rw [wrote]
        rw [requests] at failed
        rcases party_update failed with ⟨rfl, isLater⟩ | ⟨-, failed⟩
        · apply sound.atomic_of_unwritten found unwritten _ isLater.symm
          rintro planned isNext rfl
          exact keeps request planned found isNext
        · exact sound.atomic other failed
      · intro other wroteOther
        exact calledNext other (.inl ((wrote other).mp wroteOther))
    · have wrote : ∀ other, next.Wrote other ↔ number = other ∨ world.Wrote other := by
        intro other
        rw [World.Wrote, log]
        exact wrote_write
      refine ⟨⟨?_, ?_, ?_⟩, ?_⟩
      · rw [conversation]
        exact apply_resolvedAt sound.resolvedAt
      · rw [conversation, log]
        exact reopened_write sound.reopened (keeps request planned found isNext)
      · intro other failed
        rw [requests] at failed
        rcases party_update failed with ⟨-, isLater⟩ | ⟨different, failed⟩
        · cases request with
          | called call author newID | answered failed => cases isNext
          | running pending =>
            cases pending with
            | nil => cases isNext
            | cons first rest => cases isLater
        · rw [wrote]
          exact not_or.mpr ⟨different.symm, sound.atomic other failed⟩
      · intro other wroteOther
        exact calledNext other (((wrote other).mp wroteOther).symm.imp id Eq.symm)

theorem Coherent.keepsCoherent (coherent : Coherent next) (stepped : step world action = some next) :
    KeepsCoherent world action := by
  rcases step_cases stepped with ⟨number, call, author, newID, rfl, free, rfl⟩ |
    ⟨number, ok, now, request, rfl, found, requests, written⟩
  · trivial
  · intro other planned foundOther isNext
    cases found.symm.trans foundOther
    rcases written with ⟨-, log, unwritten⟩ | ⟨planned', isNext', rfl, conversation, log⟩
    · have isFalse : ok = false := by
        rcases unwritten with isNone | isFalse
        · rw [isNext] at isNone
          cases isNone
        · exact isFalse
      subst isFalse
      intro isRequired
      have isLater : request.advance world.conversation.ticket false = .answered true := by
        cases request with
        | called call author newID => cases isNext
        | answered failed => cases isNext
        | running pending =>
          cases pending with
          | nil => cases isNext
          | cons first rest =>
            cases isNext
            simp [Request.advance, isRequired]
      have unwrittenNext := coherent.atomic number (by rw [requests, Function.update_self, isLater])
      rwa [World.Wrote, log] at unwrittenNext
    · cases isNext.symm.trans isNext'
      have reopened : Reopened next.conversation next.log := coherent.reopened
      rw [conversation, log] at reopened
      exact unfinished_of_reopened_write reopened

/-- A ticket is coherent all along a run exactly if each step keeps it so. -/
theorem coherent_iff {id : UUID} {orgID : Option UUID} {priority : TicketPriority} {message : Message}
    {created : Time} {trace : List Action} {final : World}
    (executed : exec step (.created id orgID priority message created) trace = some final) :
    (∀ reached, Visits step (.created id orgID priority message created) trace reached →
      Coherent reached) ↔
        AllSteps step KeepsCoherent (.created id orgID priority message created) trace := by
  apply forall_visits_iff_allSteps (fun _ sound => sound.toCoherent)
    (fun _ _ _ sound keeps stepped => sound_step sound keeps stepped)
    (fun _ _ _ _ stepped coherent => coherent.keepsCoherent stepped) _ executed
  refine ⟨⟨?_, ?_, ?_⟩, ?_⟩
  · exact iff_of_false (by simp [World.created]) (by simp [World.created, TicketStatus.isDone])
  · intro isDone
    cases isDone
  · intro number failed
    cases failed
  · rintro number ⟨written, writtenMem, -⟩
    cases writtenMem

def maria : Author := ⟨⟨1⟩, bytes "Maria Rossi"⟩

def newIDs (number : ℕ) : UUID := ⟨number + 100⟩

def question : World :=
  .created ⟨1⟩ (some ⟨1⟩) .normal ⟨⟨1⟩, maria.id, .customer, false, .web, bytes "It does not start"⟩ 0

def writesAgain (ok : Bool) : List Action :=
  [.receive 0 .resolve maria newIDs, .advance 0 true 1, .advance 0 true 1, .advance 0 true 1,
    .receive 1 (.reply .customer ⟨bytes "It still does not", false, "", []⟩ .web) maria newIDs,
    .advance 1 true 2, .advance 1 true 2, .advance 1 true 2, .advance 1 ok 2]

theorem coherent_writesAgain :
    (∀ reached, Visits step question (writesAgain true) reached → Coherent reached) ↔
      AllSteps step KeepsCoherent question (writesAgain true) :=
  @coherent_iff ⟨1⟩ (some ⟨1⟩) .normal ⟨⟨1⟩, maria.id, .customer, false, .web, bytes "It does not start"⟩ 0
    (writesAgain true) _ rfl

/-- The ticket is reopened for a message that is lost. -/
theorem not_alwaysCoherent : ¬∀ id orgID priority message created trace final,
    exec step (.created id orgID priority message created) trace = some final →
      ∀ reached, Visits step (.created id orgID priority message created) trace reached →
        Coherent reached := by
  intro always
  rcases executed : exec step question (writesAgain false) with _ | final
  · cases executed
  · have coherent := always ⟨1⟩ (some ⟨1⟩) .normal
      ⟨⟨1⟩, maria.id, .customer, false, .web, bytes "It does not start"⟩ 0 (writesAgain false) final executed
      final ⟨writesAgain false, List.prefix_rfl, executed⟩
    cases executed
    exact coherent.atomic 1 rfl ⟨_, List.mem_cons_self, rfl⟩

end Aavishield.Tickets
