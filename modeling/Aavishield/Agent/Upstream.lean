import Mathlib.Data.List.Basic

/-!
# Requests on a shared upstream connection

All requests of an inspected connection go upstream through one sender, which is kept open
between them.  `send_upstream` replaces a connection that is known to be closed, and tries a
second time when a connection fails under a request, unless the request has effects and may
have been seen by the server.

What the world answers in an attempt is part of the input: whether the sender is ready, whether
a new connection opens, how much of the request is on the wire when the attempt is over, and
what hyper returns.  The requests take the sender's lock, so a run is a list of calls.
-/

namespace Aavishield.Upstream

inductive Method where
  | options
  | get
  | post
  | put
  | delete
  | head
  | trace
  | connect
  | patch
  | extension (name : String)
  deriving DecidableEq

/-- A request that may be sent a second time after its connection failed underneath it. -/
def isIdempotent (method : Method) : Bool :=
  [.get, .head, .options, .put, .delete, .trace].contains method

/-- A request as `build` makes it, from the start for every attempt. -/
structure Request where
  method : Method
  pathAndQuery : String
  headers : List (String × List UInt8)
  body : List UInt8

/-- `hyper::Error`, as far as `send_upstream` looks at it. -/
structure HyperError where
  canceled : Bool
  message : String

/-- What the world does in one attempt; `none` where the caller goes away while waiting. -/
structure Answers (Response : Type) where
  ready : Option Bool
  connect : Option (Except String Unit)
  /-- How many bytes of the request are on the wire when the attempt is over. -/
  written : ℕ
  sent : Option (Except HyperError Response)

/-- A request that hyper calls canceled was not written. -/
def Answers.Truthful {Response : Type} (answers : Answers Response) : Prop :=
  ∀ error, answers.sent = some (.error error) → error.canceled = true → answers.written = 0

/-- A call of `send_upstream` with what the world answers in each of its attempts. -/
structure Call (Response : Type) where
  request : Request
  answers : ℕ → Answers Response

/-- How a call ends for its caller. -/
inductive Outcome (Response : Type) where
  | returned (result : Except String Response)
  | dropped

structure Sending (Response : Type) where
  call : ℕ
  attempt : ℕ
  connection : ℕ
  bytes : List UInt8
  sent : Option (Except HyperError Response)

/-- The connection that is kept, and what went over any. -/
structure State (Response : Type) where
  guard : Option ℕ
  opened : ℕ
  /-- Everything that was handed to a connection, and how the calls ended. -/
  sendings : List (Sending Response)
  outcomes : List (Outcome Response)

section Model

variable {Response : Type} (encode : Request → List UInt8)

def State.initial (guard : Option ℕ) : State Response where
  guard := guard
  opened := guard.elim 0 (· + 1)
  sendings := []
  outcomes := []

def liveConnection (answers : Answers Response) (state : State Response) :
    Except (Outcome Response) (State Response × ℕ) :=
  match state.guard, answers.ready with
  | some connection, some true => .ok (state, connection)
  | some _, none => .error .dropped
  | _, _ =>
    match answers.connect with
    | none => .error .dropped
    | some (.error message) => .error (.returned (.error message))
    | some (.ok ()) =>
      .ok ({ state with guard := some state.opened, opened := state.opened + 1 }, state.opened)

def sendAttempt (call : Call Response) (attempt : ℕ) (state : State Response) :
    State Response × Option (Outcome Response) :=
  let answers := call.answers attempt
  match liveConnection answers state with
  | .error outcome => (state, some outcome)
  | .ok (state, connection) =>
    let bytes := (encode call.request).take answers.written
    let sending := ⟨state.outcomes.length, attempt, connection, bytes, answers.sent⟩
    let state := { state with sendings := state.sendings ++ [sending] }
    match answers.sent with
    | none => (state, some .dropped)
    | some (.ok response) => (state, some (.returned (.ok response)))
    | some (.error error) =>
      let state := { state with guard := none }
      if attempt = 0 ∧ (isIdempotent call.request.method ∨ error.canceled) then (state, none)
      else (state, some (.returned (.error error.message)))

def sendAttempts (call : Call Response) :
    List ℕ → State Response → State Response × Outcome Response
  | [], state => (state, .returned (.error "upstream request failed twice"))
  | attempt :: rest, state =>
    match sendAttempt encode call attempt state with
    | (state, some outcome) => (state, outcome)
    | (state, none) => sendAttempts call rest state

def sendUpstream (call : Call Response) (state : State Response) :
    State Response × Outcome Response :=
  sendAttempts encode call [0, 1] state

def serve (state : State Response) (call : Call Response) : State Response :=
  let (state, outcome) := sendUpstream encode call state
  { state with outcomes := state.outcomes ++ [outcome] }

/-- The calls follow each other. -/
def run (guard : Option ℕ) (calls : List (Call Response)) : State Response :=
  calls.foldl (serve encode) (State.initial guard)

end Model

variable {Response : Type} {encode : Request → List UInt8} {call : Call Response} {attempt : ℕ}
  {state : State Response}

def sendingOn (encode : Request → List UInt8) (call : Call Response) (number attempt connection : ℕ) :
    Sending Response :=
  ⟨number, attempt, connection, (encode call.request).take (call.answers attempt).written,
    (call.answers attempt).sent⟩

inductive Attempted (encode : Request → List UInt8) (call : Call Response) (number attempt : ℕ) :
    List (Sending Response) → Option (Outcome Response) → Prop
  | unsent (outcome : Outcome Response) (failed : ∀ response, outcome ≠ .returned (.ok response)) :
      Attempted encode call number attempt [] (some outcome)
  | left (connection : ℕ) (isLeft : (call.answers attempt).sent = none) :
      Attempted encode call number attempt [sendingOn encode call number attempt connection]
        (some .dropped)
  | answered (connection : ℕ) (response : Response)
      (isAnswered : (call.answers attempt).sent = some (.ok response)) :
      Attempted encode call number attempt [sendingOn encode call number attempt connection]
        (some (.returned (.ok response)))
  | refused (connection : ℕ) (error : HyperError)
      (isFailed : (call.answers attempt).sent = some (.error error)) :
      Attempted encode call number attempt [sendingOn encode call number attempt connection]
        (some (.returned (.error error.message)))
  | again (connection : ℕ) (error : HyperError) (isFirst : attempt = 0)
      (isFailed : (call.answers attempt).sent = some (.error error))
      (may : isIdempotent call.request.method = true ∨ error.canceled = true) :
      Attempted encode call number attempt [sendingOn encode call number attempt connection] none

theorem liveConnection_ok {answers : Answers Response} {next : State Response} {connection : ℕ}
    (found : liveConnection answers state = .ok (next, connection)) :
    next.sendings = state.sendings ∧ next.outcomes = state.outcomes := by
  unfold liveConnection at found
  split at found
  · cases found
    exact ⟨rfl, rfl⟩
  · cases found
  · split at found
    · cases found
    · cases found
    · cases found
      exact ⟨rfl, rfl⟩

variable {outcome : Outcome Response}

theorem liveConnection_error {answers : Answers Response}
    (failed : liveConnection answers state = .error outcome) (response : Response) :
    outcome ≠ .returned (.ok response) := by
  unfold liveConnection at failed
  split at failed
  · cases failed
  · cases failed
    simp
  · split at failed
    · cases failed
      simp
    · cases failed
      simp
    · cases failed

theorem sendAttempt_spec (encode : Request → List UInt8) (call : Call Response) (attempt : ℕ)
    (state : State Response) :
    (sendAttempt encode call attempt state).1.outcomes = state.outcomes ∧
      ∃ added, (sendAttempt encode call attempt state).1.sendings = state.sendings ++ added ∧
        Attempted encode call state.outcomes.length attempt added
          (sendAttempt encode call attempt state).2 := by
  cases found : liveConnection (call.answers attempt) state with
  | error outcome =>
    simp only [sendAttempt, found]
    exact ⟨trivial, [], by simp, .unsent outcome (liveConnection_error found)⟩
  | ok pair =>
    rcases pair with ⟨next, connection⟩
    rcases liveConnection_ok found with ⟨sameSendings, sameOutcomes⟩
    -- whatever comes back, the same sending is recorded
    have added : ∀ sent, (call.answers attempt).sent = sent →
        [⟨next.outcomes.length, attempt, connection,
          (encode call.request).take (call.answers attempt).written, sent⟩] =
        [sendingOn encode call state.outcomes.length attempt connection] := by
      intro sent isSent
      simp [sendingOn, isSent, sameOutcomes]
    cases sent : (call.answers attempt).sent with
    | none =>
      simp only [sendAttempt, found, sent]
      exact ⟨sameOutcomes, _, by rw [sameSendings, added _ sent], .left connection sent⟩
    | some result =>
      cases result with
      | ok response =>
        simp only [sendAttempt, found, sent]
        exact ⟨sameOutcomes, _, by rw [sameSendings, added _ sent],
          .answered connection response sent⟩
      | error error =>
        simp only [sendAttempt, found, sent]
        split_ifs with again
        · exact ⟨sameOutcomes, _, by rw [sameSendings, added _ sent],
            .again connection error again.1 sent again.2⟩
        · exact ⟨sameOutcomes, _, by rw [sameSendings, added _ sent],
            .refused connection error sent⟩

variable {number : ℕ} {added : List (Sending Response)}

theorem Attempted.call_eq
    {outcome : Option (Outcome Response)} (attempted : Attempted encode call number attempt added outcome) :
    ∀ sending ∈ added, sending.call = number := by
  intro sending sendingMem
  cases attempted with
  | unsent => simp at sendingMem
  | left | answered | refused | again =>
    simp only [List.mem_singleton] at sendingMem
    subst sendingMem
    rfl

/--
The sendings of one request and how it ended: its bytes went to one connection at most, a
sending comes second only after one that wrote nothing, and one that failed otherwise is the
last and its error is returned.
-/
structure SentOnce (sendings : List (Sending Response)) (outcome : Outcome Response) : Prop where
  oneConnection : ∀ first ∈ sendings, ∀ second ∈ sendings, first.bytes ≠ [] → second.bytes ≠ [] →
    first.connection = second.connection
  unwrittenBefore : sendings.Pairwise fun earlier _ => earlier.bytes = []
  failsOtherwise : ∀ sending ∈ sendings, ∀ error, sending.sent = some (.error error) →
    error.canceled = false ∨ sending.bytes ≠ [] →
    sendings.getLast? = some sending ∧ outcome = .returned (.error error.message)

theorem Attempted.unwritten (truthful : (call.answers attempt).Truthful)
    (effects : isIdempotent call.request.method = false)
    (attempted : Attempted encode call number attempt added none) :
    attempt = 0 ∧ ∃ connection error, added = [sendingOn encode call number attempt connection] ∧
      (call.answers attempt).sent = some (.error error) ∧ error.canceled = true ∧
      (sendingOn encode call number attempt connection).bytes = [] := by
  cases attempted with
  | again connection error isFirst isFailed may =>
    have canceled : error.canceled = true := by
      rcases may with idempotent | canceled
      · rw [effects] at idempotent
        cases idempotent
      · exact canceled
    have unwritten := truthful error isFailed canceled
    exact ⟨isFirst, connection, error, rfl, isFailed, canceled, by simp [sendingOn, unwritten]⟩

theorem Attempted.sentOnce (attempted : Attempted encode call number attempt added (some outcome)) :
    SentOnce added outcome := by
  cases attempted with
  | unsent _ _ => constructor <;> simp
  | left connection isLeft =>
    constructor
    · simp
    · simp
    · intro sending sendingMem error failed
      simp only [List.mem_singleton] at sendingMem
      subst sendingMem
      simp [sendingOn, isLeft] at failed
  | answered connection response isAnswered =>
    constructor
    · simp
    · simp
    · intro sending sendingMem error failed
      simp only [List.mem_singleton] at sendingMem
      subst sendingMem
      simp [sendingOn, isAnswered] at failed
  | refused connection error isFailed =>
    constructor
    · simp
    · simp
    · intro sending sendingMem other failed _
      simp only [List.mem_singleton] at sendingMem
      subst sendingMem
      simp only [sendingOn, isFailed, Option.some.injEq, Except.error.injEq] at failed
      subst other
      exact ⟨rfl, rfl⟩

theorem SentOnce.cons {sending : Sending Response} {sendings : List (Sending Response)}
    {error : HyperError} (unwritten : sending.bytes = [])
    (failed : sending.sent = some (.error error)) (canceled : error.canceled = true)
    (later : SentOnce sendings outcome) : SentOnce (sending :: sendings) outcome := by
  constructor
  · intro first firstMem second secondMem firstWritten secondWritten
    rcases List.mem_cons.mp firstMem with rfl | firstMem
    · exact absurd unwritten firstWritten
    · rcases List.mem_cons.mp secondMem with rfl | secondMem
      · exact absurd unwritten secondWritten
      · exact later.oneConnection first firstMem second secondMem firstWritten secondWritten
  · exact List.pairwise_cons.mpr ⟨fun _ _ => unwritten, later.unwrittenBefore⟩
  · intro other otherMem otherError otherFailed otherwise
    rcases List.mem_cons.mp otherMem with rfl | otherMem
    · rw [failed, Option.some.injEq, Except.error.injEq] at otherFailed
      subst otherError
      simp [canceled, unwritten] at otherwise
    · rcases later.failsOtherwise other otherMem otherError otherFailed otherwise with ⟨isLast, ended⟩
      refine ⟨?_, ended⟩
      rw [List.getLast?_cons, isLast, Option.getD_some]

theorem sendUpstream_spec (encode : Request → List UInt8) (call : Call Response)
    (state : State Response) :
    (sendUpstream encode call state).1.outcomes = state.outcomes ∧
      ∃ added, (sendUpstream encode call state).1.sendings = state.sendings ++ added ∧
        (∀ sending ∈ added, sending.call = state.outcomes.length) ∧
        ((∀ attempt, (call.answers attempt).Truthful) →
          isIdempotent call.request.method = false →
          SentOnce added (sendUpstream encode call state).2) := by
  rcases sendAttempt_spec encode call 0 state with ⟨sameOutcomes, added, grown, attempted⟩
  cases ended : sendAttempt encode call 0 state with
  | mk next outcome =>
    rw [ended] at sameOutcomes grown attempted
    cases outcome with
    | some outcome =>
      simp only [sendUpstream, sendAttempts, ended]
      exact ⟨sameOutcomes, added, grown, attempted.call_eq, fun _ _ => attempted.sentOnce⟩
    | none =>
      rcases sendAttempt_spec encode call 1 next with ⟨sameAgain, more, grownAgain, attemptedAgain⟩
      cases endedAgain : sendAttempt encode call 1 next with
      | mk last outcome =>
        rw [endedAgain] at sameAgain grownAgain attemptedAgain
        dsimp only at sameOutcomes grown sameAgain grownAgain attemptedAgain
        rw [sameOutcomes] at attemptedAgain
        have grownBoth : last.sendings = state.sendings ++ (added ++ more) := by
          rw [grownAgain, grown, List.append_assoc]
        have numbered : ∀ sending ∈ added ++ more, sending.call = state.outcomes.length := by
          intro sending sendingMem
          rcases List.mem_append.mp sendingMem with first | second
          · exact attempted.call_eq sending first
          · exact attemptedAgain.call_eq sending second
        cases outcome with
        | none =>
          -- the second attempt is never followed by another
          cases attemptedAgain with
          | again _ _ isFirst => cases isFirst
        | some outcome =>
          simp only [sendUpstream, sendAttempts, ended, endedAgain]
          refine ⟨sameAgain.trans sameOutcomes, added ++ more, grownBoth, numbered, ?_⟩
          intro truthful effects
          rcases attempted.unwritten (truthful 0) effects with
            ⟨-, connection, error, isAdded, isFailed, canceled, unwritten⟩
          subst isAdded
          exact .cons unwritten isFailed canceled attemptedAgain.sentOnce

def State.sendingsOf (state : State Response) (number : ℕ) : List (Sending Response) :=
  state.sendings.filter (·.call = number)

/-- The record of a run: a request with effects was sent once, whatever else was served. -/
structure Kept (calls : List (Call Response)) (state : State Response) : Prop where
  served : state.outcomes.length = calls.length
  numbered : ∀ sending ∈ state.sendings, sending.call < calls.length
  sentOnce : ∀ number call, calls[number]? = some call →
    (∀ attempt, (call.answers attempt).Truthful) → isIdempotent call.request.method = false →
    ∃ outcome, state.outcomes[number]? = some outcome ∧ SentOnce (state.sendingsOf number) outcome

theorem Kept.initial (guard : Option ℕ) : Kept [] (@State.initial Response guard) := by
  constructor <;> simp [State.initial]

theorem Kept.serve {calls : List (Call Response)} (kept : Kept calls state) (call : Call Response) :
    Kept (calls ++ [call]) (serve encode state call) := by
  rcases sendUpstream_spec encode call state with ⟨sameOutcomes, added, grown, numbered, sentOnce⟩
  have outcomes : (Upstream.serve encode state call).outcomes =
      state.outcomes ++ [(sendUpstream encode call state).2] := by
    simp [Upstream.serve, sameOutcomes]
  have sendings : (Upstream.serve encode state call).sendings = state.sendings ++ added := by
    simp [Upstream.serve, grown]
  constructor
  · simp [outcomes, kept.served]
  · intro sending sendingMem
    rw [sendings] at sendingMem
    rw [List.length_append, List.length_singleton]
    rcases List.mem_append.mp sendingMem with before | new
    · have := kept.numbered sending before
      omega
    · have := numbered sending new
      rw [kept.served] at this
      omega
  · intro number other found truthful effects
    rw [List.getElem?_append] at found
    split_ifs at found with earlier
    · rcases kept.sentOnce number other found truthful effects with ⟨outcome, ended, once⟩
      refine ⟨outcome, ?_, ?_⟩
      · rw [outcomes, List.getElem?_append_left (by rw [kept.served]; exact earlier)]
        exact ended
      · have none_added : added.filter (·.call = number) = [] := by
          apply List.filter_eq_nil_iff.mpr
          intro sending sendingMem
          have := numbered sending sendingMem
          rw [kept.served] at this
          simp
          omega
        rw [State.sendingsOf, sendings, List.filter_append, none_added, List.append_nil]
        exact once
    · have isLast : number = calls.length ∧ call = other := by
        rw [List.getElem?_singleton] at found
        split_ifs at found with isZero
        exact ⟨by omega, Option.some.inj found⟩
      rcases isLast with ⟨rfl, rfl⟩
      refine ⟨(sendUpstream encode call state).2, ?_, ?_⟩
      · rw [outcomes, ← kept.served]
        simp
      · have none_before : state.sendings.filter (·.call = calls.length) = [] := by
          apply List.filter_eq_nil_iff.mpr
          intro sending sendingMem
          have := kept.numbered sending sendingMem
          simp
          omega
        have all_added : added.filter (·.call = calls.length) = added := by
          apply List.filter_eq_self.mpr
          intro sending sendingMem
          rw [← kept.served]
          simpa using numbered sending sendingMem
        rw [State.sendingsOf, sendings, List.filter_append, none_before, all_added, List.nil_append]
        exact sentOnce truthful effects

theorem Kept.foldl {served : List (Call Response)} (kept : Kept served state)
    (calls : List (Call Response)) :
    Kept (served ++ calls) (calls.foldl (Upstream.serve encode) state) := by
  induction calls generalizing served state with
  | nil => simpa using kept
  | cons call rest ih => simpa using ih (kept.serve call)

theorem kept_run (guard : Option ℕ) (calls : List (Call Response)) :
    Kept calls (run encode guard calls) := by
  have kept : Kept ([] ++ calls) (calls.foldl (Upstream.serve encode) _) :=
    (Kept.initial guard).foldl calls
  simpa [run] using kept

/--
Whatever connections break, and wherever: of a request with effects the bytes go to one
connection at most, it is tried again only when nothing of it was written, and its error is
returned otherwise.
-/
theorem sentOnce_of_effects (guard : Option ℕ) (calls : List (Call Response)) {number : ℕ}
    (found : calls[number]? = some call) (truthful : ∀ attempt, (call.answers attempt).Truthful)
    (effects : isIdempotent call.request.method = false) :
    ∃ outcome, (run encode guard calls).outcomes[number]? = some outcome ∧
      SentOnce ((run encode guard calls).sendingsOf number) outcome := by
  apply (kept_run guard calls).sentOnce number call found truthful effects

def postAfterGet : List (Call ℕ) :=
  [⟨⟨.get, "/", [], []⟩, fun _ => ⟨none, some (.ok ()), 3, some (.ok 200)⟩⟩,
    ⟨⟨.post, "/pay", [], [9]⟩, fun attempt =>
      if attempt = 0 then ⟨some true, none, 0, some (.error ⟨true, "operation was canceled"⟩)⟩
      else ⟨none, some (.ok ()), 2, some (.error ⟨false, "connection reset"⟩)⟩⟩]

theorem sentOnce_post :
    ∃ outcome, (run (fun request => request.body ++ [1, 2]) none postAfterGet).outcomes[1]? =
        some outcome ∧
      SentOnce ((run (fun request => request.body ++ [1, 2]) none postAfterGet).sendingsOf 1)
        outcome := by
  apply sentOnce_of_effects none postAfterGet rfl ?_ rfl
  intro attempt error failed canceled
  by_cases isFirst : attempt = 0
  · simp [isFirst]
  · simp only [isFirst, if_false, Option.some.injEq, Except.error.injEq] at failed
    subst failed
    cases canceled

end Aavishield.Upstream
