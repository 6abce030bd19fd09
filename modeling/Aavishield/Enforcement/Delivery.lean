import Aavishield.Enforcement.Reporter
import Aavishield.Monitoring.Ingest

/-!
# Delivery of recorded activity

A flush takes the whole queue, sends it, and puts it back when the request fails.  The HTTP
helper fails only when there is no answer: an answer that refuses the batch, or that
reports a failure to store it, is taken for a success, and the batch is gone.
-/

namespace Aavishield.Enforcement

open Dataplane (ActivityEvent)
open TransitionSystem

structure Handling where
  authenticates : Bool
  parses : Bool
  recording : Monitoring.Recording
  deriving DecidableEq

/-- `ReportActivity`: its status, and what of the batch is stored, or held until it can be. -/
def reportActivity (handling : Handling) (batch : List Entry) : ℕ × List Entry :=
  if !handling.authenticates then (401, [])
  else if !handling.parses then (400, [])
  else
    let kept := batch.filter fun entry => entry.2.action ≠ "allowed"
    if kept.isEmpty then (201, [])
    else
      match handling.recording with
      | .stored | .spooled _ => (201, kept)
      | .failed landed => (500, kept.take landed)

def Event.decode (event : Event) : ActivityEvent where
  id := .zero
  orgID := .zero
  employeeID := none
  deviceID := none
  eventType := event.eventType
  action := event.action
  target := String.ofList event.target
  targetDomain := String.ofList event.targetDomain
  operation := ""
  category := event.category
  processName := ""
  policyID := none
  policyName := event.policyName
  riskScore := event.riskScore
  aiExplanation := ""
  ipAddress := ""
  geoCountry := ""
  geoCity := ""
  metadata _ := none
  dedupeKey := ""
  timestamp := event.timestamp
  createdAt := 0

inductive Exchange where
  | noAnswer (handling : Option Handling)
  | answered (handling : Handling)
  /-- Something before the handler answers, such as a gateway or a limit on requests. -/
  | refused (status : ℕ)

def IsSuccess (status : ℕ) : Prop := 200 ≤ status ∧ status < 300

instance (status : ℕ) : Decidable (IsSuccess status) := inferInstanceAs (Decidable (_ ∧ _))

def Exchange.status (exchange : Exchange) (batch : List Entry) : Option ℕ :=
  match exchange with
  | .noAnswer _ => none
  | .answered handling => some (reportActivity handling batch).1
  | .refused status => some status

def Exchange.stored (exchange : Exchange) (batch : List Entry) : List Entry :=
  match exchange with
  | .noAnswer none | .refused _ => []
  | .noAnswer (some handling) | .answered handling => (reportActivity handling batch).2

/-- The queue, the batch under way and what became of the events. -/
structure Log where
  reporter : Reporter
  inFlight : Option (List Entry)
  recorded : List Entry
  dropped : List Entry
  stored : List Entry

namespace Log

def initial : Log := ⟨.empty, none, [], [], []⟩

/-- An event, a flush or its answer. -/
inductive Action where
  | record (gate : Gate) (recording : Recording)
  | flush
  | answer (exchange : Exchange)

variable (env : DomainRules.Primitives)

/-- `post_json` is an error only when there is no answer. -/
def answer (log : Log) (batch : List Entry) (exchange : Exchange) : Log :=
  let log := { log with inFlight := none, stored := log.stored ++ exchange.stored batch }
  match exchange.status batch with
  | some _ => log
  | none =>
    { log with
      reporter := log.reporter.requeue batch
      dropped := log.dropped ++ log.reporter.overCap batch }

def step (log : Log) : Action → Option Log
  | .record gate recording =>
    let number := log.recorded.length
    some { log with
      reporter := log.reporter.record env gate number recording
      recorded := match log.reporter.outcome env gate recording with
        | .queued => log.recorded ++ [(number, recording.event env)]
        | .dropped | .folded => log.recorded }
  | .flush =>
    match log.inFlight, log.reporter.queue with
    | some _, _ => none
    | none, [] => some log
    | none, queue =>
      some { log with reporter := { log.reporter with queue := [] }, inFlight := some queue }
  | .answer exchange =>
    match log.inFlight, exchange with
    | none, _ => none
    | some batch, .refused status =>
      if IsSuccess status then none else some (log.answer batch (.refused status))
    | some batch, exchange => some (log.answer batch exchange)

def Accounted (log : Log) : Prop :=
  ∀ entry ∈ log.recorded, entry ∈ log.stored ∨ entry ∈ log.reporter.queue ∨
    entry ∈ log.inFlight.getD [] ∨ entry ∈ log.dropped

def KeepsBatch (log : Log) : Action → Prop
  | .answer exchange =>
    ∀ batch next, log.inFlight = some batch → log.step env (.answer exchange) = some next →
      (∀ status, exchange.status batch = some status → ¬IsSuccess status) →
        ∀ entry ∈ batch, entry ∈ next.reporter.queue ∨ entry ∈ next.dropped
  | _ => True

/-- Every event is queued, under way, stored or dropped for room. -/
def LosesNothing (trace : List Action) : Prop :=
  AllSteps (step env) (KeepsBatch env) initial trace ∧
    ∀ reached, Visits (step env) initial trace reached → reached.Accounted

/-- The server takes every batch. -/
def Accepted (log : Log) : Action → Prop
  | .answer exchange =>
    ∀ batch status, log.inFlight = some batch → exchange.status batch = some status → IsSuccess status
  | _ => True

/-- What holds along every run: no event is in two places, and none is of an allowed request. -/
structure Sound (log : Log) : Prop where
  distinct : (log.reporter.queue ++ log.inFlight.getD [] ++ log.dropped).Nodup
  numbered : ∀ entry ∈ log.reporter.queue ++ log.inFlight.getD [] ++ log.dropped,
    entry.1 < log.recorded.length
  notAllowed : ∀ entry ∈ log.reporter.queue ++ log.inFlight.getD [], entry.2.action ≠ "allowed"
  nonempty : ∀ batch, log.inFlight = some batch → batch ≠ []

variable {env} {log next : Log} {action : Action}

theorem sound_initial : initial.Sound where
  distinct := List.nodup_nil
  numbered _ mem := absurd mem List.not_mem_nil
  notAllowed _ mem := absurd mem List.not_mem_nil
  nonempty _ flying := by cases flying

theorem action_ne_of_queued {reporter : Reporter} {gate : Gate} {recording : Recording}
    (queued : reporter.outcome env gate recording = .queued) :
    recording.action ≠ "allowed" := by
  rintro isAllowed
  simp [Reporter.outcome, isAllowed] at queued

theorem requeue_append_overCap (reporter : Reporter) (batch : List Entry) :
    (reporter.requeue batch).queue ++ reporter.overCap batch = batch ++ reporter.queue :=
  List.take_append_drop _ _

@[simp]
theorem recorded_answer (log : Log) (batch : List Entry) (exchange : Exchange) :
    (log.answer batch exchange).recorded = log.recorded := by
  simp only [answer]
  split <;> rfl

variable {exchange : Exchange}

theorem step_answer (stepped : log.step env (.answer exchange) = some next) :
    ∃ batch, log.inFlight = some batch ∧ next = log.answer batch exchange ∧
      ∀ status, exchange = .refused status → ¬IsSuccess status := by
  simp only [step] at stepped
  split at stepped
  · cases stepped
  · rename_i batch status flying
    simp only [Option.ite_none_left_eq_some] at stepped
    rcases stepped with ⟨fails, same⟩
    cases same
    refine ⟨batch, flying, rfl, ?_⟩
    rintro _ ⟨rfl⟩
    exact fails
  · rename_i batch flying notRefused
    cases stepped
    exact ⟨batch, flying, rfl, fun status same => absurd same (notRefused status)⟩

theorem Sound.record (sound : log.Sound) (gate : Gate) (recording : Recording)
    (stepped : log.step env (.record gate recording) = some next) : next.Sound := by
  cases stepped
  cases isOutcome : log.reporter.outcome env gate recording with
  | dropped | folded =>
    simp only [Reporter.record, isOutcome]
    exact sound
  | queued =>
    simp only [Reporter.record, isOutcome]
    have fresh : (log.recorded.length, recording.event env) ∉
        log.reporter.queue ++ log.inFlight.getD [] ++ log.dropped := by
      intro mem
      exact Nat.lt_irrefl _ (sound.numbered _ mem)
    have perm : (log.reporter.queue ++ [(log.recorded.length, recording.event env)] ++
        log.inFlight.getD [] ++ log.dropped).Perm
        ((log.recorded.length, recording.event env) ::
          (log.reporter.queue ++ log.inFlight.getD [] ++ log.dropped)) := by
      simp only [List.append_assoc, List.singleton_append]
      exact List.perm_middle
    constructor
    · exact perm.nodup_iff.mpr (List.nodup_cons.mpr ⟨fresh, sound.distinct⟩)
    · intro entry mem
      rw [List.length_append, List.length_singleton]
      rcases List.mem_cons.mp (perm.mem_iff.mp mem) with rfl | before
      · exact Nat.lt_succ_self _
      · exact Nat.lt_succ_of_lt (sound.numbered entry before)
    · intro entry mem
      rcases List.mem_append.mp mem with queued | flying
      · rcases List.mem_append.mp queued with before | new
        · exact sound.notAllowed entry (List.mem_append_left _ before)
        · rw [List.mem_singleton.mp new]
          exact action_ne_of_queued isOutcome
      · exact sound.notAllowed entry (List.mem_append_right _ flying)
    · exact sound.nonempty

theorem Sound.flush (sound : log.Sound) (stepped : log.step env .flush = some next) :
    next.Sound := by
  simp only [step] at stepped
  split at stepped
  · cases stepped
  · cases stepped
    exact sound
  · rename_i queue flying nonempty
    cases stepped
    have distinct := sound.distinct
    have numbered := sound.numbered
    have notAllowed := sound.notAllowed
    simp only [flying, Option.getD_none, List.append_nil] at distinct numbered notAllowed
    constructor
    · simpa using distinct
    · simpa using numbered
    · simpa using notAllowed
    · rintro batch ⟨rfl⟩
      exact nonempty

theorem Sound.answer (sound : log.Sound)
    (stepped : log.step env (.answer exchange) = some next) : next.Sound := by
  rcases step_answer stepped with ⟨batch, flying, rfl, -⟩
  have distinct := sound.distinct
  have numbered := sound.numbered
  have notAllowed := sound.notAllowed
  simp only [flying, Option.getD_some] at distinct numbered notAllowed
  cases answered : exchange.status batch with
  | some status =>
    simp only [Log.answer, answered]
    have fewer : (log.reporter.queue ++ log.dropped).Sublist
        (log.reporter.queue ++ batch ++ log.dropped) :=
      (List.sublist_append_left _ _).append (.refl _)
    constructor
    · simpa using distinct.sublist fewer
    · intro entry mem
      exact numbered entry (fewer.subset (by simpa using mem))
    · intro entry mem
      exact notAllowed entry (List.mem_append_left _ (by simpa using mem))
    · rintro _ ⟨⟩
  | none =>
    simp only [Log.answer, answered]
    have perm : ((log.reporter.requeue batch).queue ++ (log.dropped ++ log.reporter.overCap batch)).Perm
        (log.reporter.queue ++ batch ++ log.dropped) := by
      refine (List.perm_append_comm_assoc _ _ _).trans ?_
      rw [requeue_append_overCap]
      exact List.perm_append_comm.trans (List.perm_append_comm.append_right _)
    constructor
    · simpa using perm.nodup_iff.mpr distinct
    · intro entry mem
      exact numbered entry (perm.mem_iff.mp (by simpa using mem))
    · intro entry mem
      have requeued : entry ∈ (log.reporter.requeue batch).queue := by simpa using mem
      have before := List.mem_of_mem_take requeued
      exact notAllowed entry (List.perm_append_comm.mem_iff.mp before)
    · rintro _ ⟨⟩

theorem Sound.step (sound : log.Sound) (stepped : log.step env action = some next) :
    next.Sound := by
  cases action with
  | record gate recording => exact sound.record gate recording stepped
  | flush => exact sound.flush stepped
  | answer exchange => exact sound.answer stepped

theorem stored_of_isSuccess {batch : List Entry} {status : ℕ}
    (notAllowed : ∀ entry ∈ batch, entry.2.action ≠ "allowed")
    (answered : exchange.status batch = some status) (succeeds : IsSuccess status)
    (handled : ∀ status, exchange = .refused status → ¬IsSuccess status) :
    exchange.stored batch = batch := by
  cases exchange with
  | noAnswer handling => cases answered
  | refused refusal =>
    cases answered
    exact absurd succeeds (handled _ rfl)
  | answered handling =>
    have all : (batch.filter fun entry => entry.2.action ≠ "allowed") = batch := by
      rw [List.filter_eq_self]
      intro entry mem
      exact decide_eq_true (notAllowed entry mem)
    cases answered
    simp only [Exchange.stored, reportActivity, all] at succeeds ⊢
    split_ifs at succeeds ⊢ with unknown unread empty
    · exact absurd succeeds (by decide)
    · exact absurd succeeds (by decide)
    · exact (List.isEmpty_iff.mp empty).symm
    · cases landing : handling.recording with
      | stored | spooled => rfl
      | failed landed =>
        simp [landing, IsSuccess] at succeeds

theorem mem_queue_or_dropped_of_noAnswer {batch : List Entry} {entry : Entry}
    (unanswered : exchange.status batch = none) (mem : entry ∈ batch ∨ entry ∈ log.reporter.queue) :
    entry ∈ (log.answer batch exchange).reporter.queue ∨
      entry ∈ (log.answer batch exchange).dropped := by
  simp only [Log.answer, unanswered]
  have all : entry ∈ (log.reporter.requeue batch).queue ++ log.reporter.overCap batch := by
    rw [requeue_append_overCap]
    exact List.mem_append.mpr mem
  rcases List.mem_append.mp all with queued | surplus
  · left
    exact queued
  · right
    exact List.mem_append_right _ surplus

theorem keepsBatch_of_accepted (accepted : log.Accepted action) : log.KeepsBatch env action := by
  cases action with
  | record | flush => trivial
  | answer exchange =>
    intro batch next flying stepped fails entry mem
    rcases step_answer stepped with ⟨sent, sentFlying, rfl, -⟩
    cases sentFlying.symm.trans flying
    cases answered : exchange.status batch with
    | some status => exact absurd (accepted batch status flying answered) (fails status answered)
    | none => exact mem_queue_or_dropped_of_noAnswer answered (.inl mem)

theorem Sound.accepted_of_keepsBatch (sound : log.Sound) (keeps : log.KeepsBatch env action) :
    log.Accepted action := by
  cases action with
  | record | flush => trivial
  | answer exchange =>
    intro batch status flying answered
    by_contra fails
    have stepped : log.step env (.answer exchange) = some (log.answer batch exchange) := by
      simp only [Log.step, flying]
      cases exchange with
      | noAnswer | answered => rfl
      | refused refusal =>
        cases answered
        exact if_neg fails
    have distinct := sound.distinct
    simp only [flying, Option.getD_some] at distinct
    rcases List.exists_mem_of_ne_nil batch (sound.nonempty batch flying) with ⟨entry, mem⟩
    have kept := keeps batch _ flying stepped (fun other same => by
      cases answered.symm.trans same
      exact fails) entry mem
    simp only [Log.answer, answered] at kept
    rcases kept with queued | dropped
    · exact List.disjoint_of_nodup_append (List.Nodup.of_append_left distinct) queued mem
    · exact List.disjoint_of_nodup_append distinct (List.mem_append_right _ mem) dropped

theorem Accounted.step (sound : log.Sound) (accounted : log.Accounted) (accepted : log.Accepted action)
    (stepped : log.step env action = some next) : next.Accounted := by
  intro entry mem
  cases action with
  | record gate recording =>
    cases stepped
    cases isOutcome : log.reporter.outcome env gate recording with
    | dropped | folded =>
      simp only [Reporter.record, isOutcome] at mem ⊢
      exact accounted entry mem
    | queued =>
      simp only [Reporter.record, isOutcome] at mem ⊢
      rcases List.mem_append.mp mem with before | new
      · rcases accounted entry before with stored | queued | flying | dropped
        · exact .inl stored
        · exact .inr (.inl (List.mem_append_left _ queued))
        · exact .inr (.inr (.inl flying))
        · exact .inr (.inr (.inr dropped))
      · exact .inr (.inl (List.mem_append_right _ new))
  | flush =>
    simp only [Log.step] at stepped
    split at stepped
    · cases stepped
    · cases stepped
      exact accounted entry mem
    · rename_i flying nonempty
      cases stepped
      rcases accounted entry mem with stored | queued | flew | dropped
      · exact .inl stored
      · exact .inr (.inr (.inl queued))
      · rw [flying] at flew
        cases flew
      · exact .inr (.inr (.inr dropped))
  | answer exchange =>
    rcases step_answer stepped with ⟨batch, flying, rfl, handled⟩
    rw [recorded_answer] at mem
    have place : entry ∈ (log.answer batch exchange).stored ∨
        entry ∈ (log.answer batch exchange).reporter.queue ∨
          entry ∈ (log.answer batch exchange).dropped := by
      cases answered : exchange.status batch with
      | none =>
        rcases accounted entry mem with stored | queued | flew | dropped
        · left
          simp only [Log.answer, answered]
          exact List.mem_append_left _ stored
        · right
          exact mem_queue_or_dropped_of_noAnswer answered (.inr queued)
        · right
          simp only [flying, Option.getD_some] at flew
          exact mem_queue_or_dropped_of_noAnswer answered (.inl flew)
        · right
          right
          simp only [Log.answer, answered]
          exact List.mem_append_left _ dropped
      | some status =>
        have notAllowed : ∀ entry ∈ batch, entry.2.action ≠ "allowed" := by
          intro entry mem
          apply sound.notAllowed entry
          simpa [flying] using .inr mem
        have all := stored_of_isSuccess notAllowed answered
          (accepted batch status flying answered) handled
        simp only [Log.answer, answered, all]
        rcases accounted entry mem with stored | queued | flew | dropped
        · left
          exact List.mem_append_left _ stored
        · right
          left
          exact queued
        · left
          simp only [flying, Option.getD_some] at flew
          exact List.mem_append_right _ flew
        · right
          right
          exact dropped
    rcases place with stored | queued | dropped
    · exact .inl stored
    · exact .inr (.inl queued)
    · exact .inr (.inr (.inr dropped))

theorem accounted_of_accepted {state reached : Log} {trace : List Action}
    (holds : state.Sound ∧ state.Accounted)
    (all : AllSteps (Log.step env) Accepted state trace)
    (executed : exec (Log.step env) state trace = some reached) : reached.Accounted := by
  have preserved : ∀ (log : Log) (action : Action) (next : Log), (log.Sound ∧ log.Accounted) →
      log.Accepted action → log.step env action = some next → next.Sound ∧ next.Accounted := by
    rintro log action next ⟨sound, accounted⟩ accepted stepped
    exact ⟨sound.step stepped, accounted.step sound accepted stepped⟩
  exact (invariant_of_allSteps preserved holds all executed).2

/--
In a run of the agent's log nothing is lost but by the queue's cap, and a batch without a
success is queued again, exactly when every answer that a batch gets is a success.
-/
theorem losesNothing_iff_accepted (trace : List Action) :
    LosesNothing env trace ↔ AllSteps (step env) Accepted initial trace := by
  constructor
  · rintro ⟨keeps, -⟩
    have preserved : ∀ (log : Log) (action : Action) (next : Log), log.Sound →
        log.KeepsBatch env action → log.step env action = some next → next.Sound :=
      fun _ _ _ sound _ stepped => sound.step stepped
    exact allSteps_of_invariant preserved
      (fun _ _ sound keeps => sound.accepted_of_keepsBatch keeps) sound_initial keeps
  · intro accepted
    constructor
    · exact accepted.mono fun _ _ => keepsBatch_of_accepted
    · rintro reached ⟨seen, ⟨rest, rfl⟩, executed⟩
      refine accounted_of_accepted ⟨sound_initial, ?_⟩ ((allSteps_append executed).mp accepted).1 executed
      exact fun _ mem => absurd mem List.not_mem_nil

def AlwaysLosesNothing : Prop := ∀ env trace, LosesNothing env trace

/-- The server fails to store an event, and says so. -/
theorem not_alwaysLosesNothing : ¬AlwaysLosesNothing := by
  intro always
  let recording : Recording :=
    ⟨"https://example.com".toList, "example.com".toList, "blocked", none, "web_request", .activity, 0, 0⟩
  let trace : List Action := [.record .initial recording, .flush,
    .answer (.answered ⟨true, true, .failed 0⟩)]
  let lost : Log := (exec (step .ascii) initial trace).getD initial
  have visited : Visits (step .ascii) initial trace lost := ⟨trace, List.prefix_rfl, rfl⟩
  have accounted := (always .ascii trace).2 lost visited (0, recording.event .ascii) (by decide)
  revert accounted
  decide

end Log

end Aavishield.Enforcement
