import Mathlib.Algebra.Group.Nat.Defs
import Mathlib.Data.List.Basic
import Mathlib.Data.List.Induction

/-!
# A download whose last chunk is held back

The agent relays a download as it arrives, but for the chunk that came last: it is released
once the file has been judged.  On the way every byte is hashed and kept on the disk.  The body
is polled, and each poll goes on until there is something to return; what upstream and the
verdict answer when they are polled is given from outside.
-/

namespace Aavishield.HeldBack

abbrev Bytes := List UInt8

def maxSpool : ℕ := 4000 * 2 ^ 20

/-- How a write to the disk went; the system's scanner may have taken the file away. -/
inductive Write where
  | done
  | flagged
  | failed
  deriving DecidableEq

/-- What upstream answers when it is polled. -/
inductive Answer where
  | pending
  | data (bytes : Bytes) (write : Write)
  | trailers
  | error (message : String)
  | finish

/-- What the one who judges the file decides. -/
inductive Decision where
  | allow
  | block (reason : String)

/-- Nothing yet, or a decision, or none as the sender is gone. -/
abbrev Receiver := Option (Option Decision)

/-- Why the body ends with an error. -/
inductive Failure where
  | upstream (message : String)
  | blocked
  deriving DecidableEq

/-- What polling the body gives. -/
inductive Polled where
  | pending
  | frame (data : Bytes)
  | failed (failure : Failure)
  | ended
  | panicked
  deriving DecidableEq

/-- What is handed over at the end of the file. -/
structure Finished where
  sha256 : String
  size : ℕ
  spool : Except String Bytes

/-- `ScannedDownload`, and for the record what it has seen, asked, learned and returned. -/
structure State where
  held : Option Bytes
  hashed : Bytes
  size : ℕ
  spool : Except String Bytes
  resolve : Bool
  verdict : Bool
  done : Bool
  seen : List Answer
  finished : List Finished
  decided : Option (Option Decision)
  outputs : List Polled

/-- `new`, with a spool or without one. -/
def State.initial (created : Bool) : State where
  held := none
  hashed := []
  size := 0
  spool := if created then .ok [] else .error "spool_failed"
  resolve := true
  verdict := false
  done := false
  seen := []
  finished := []
  decided := none
  outputs := []

section Model

/-- A chunk is counted, hashed and kept on the disk. -/
def State.record (state : State) (data : Bytes) (write : Write) : State :=
  let size := state.size + data.length
  let spool := match state.spool with
    | .error why => .error why
    | .ok bytes =>
      if maxSpool < size then .error "too_large"
      else match write with
        | .done => .ok (bytes ++ data)
        | .flagged => .error "av_flagged"
        | .failed => .error "spool_failed"
  { state with hashed := state.hashed ++ data, size := size, spool := spool }

/-- After the end of the file only the verdict is waited for. -/
def State.settled (state : State) (receiver : Receiver) : Option (Polled × State) :=
  if state.verdict then
    match receiver with
    | none => some (.pending, state)
    | some decision =>
      let state := { state with verdict := false, done := true, decided := some decision }
      match decision with
      | some (.block _) => some (.failed .blocked, state)
      | some .allow | none =>
        match state.held with
        | some data => some (.frame data, { state with held := none })
        | none => some (.ended, state)
  else if state.done then some (.ended, state)
  else none

def State.see (state : State) (answer : Answer) : State := { state with seen := state.seen ++ [answer] }

variable (sha256 : Bytes → String)

/-- The file is handed over to be judged. -/
def State.finish (state : State) : State :=
  { state with
    hashed := []
    spool := .error "taken"
    resolve := false
    verdict := true
    finished := state.finished ++ [⟨sha256 state.hashed, state.size, state.spool⟩] }

/-- `poll_frame`, by what upstream has still to answer; after that it is pending. -/
def poll (receiver : Receiver) : List Answer → State → Polled × State × List Answer
  | [], state =>
    match state.settled receiver with
    | some (polled, state) => (polled, state, [])
    | none => (.pending, state, [])
  | answer :: rest, state =>
    match state.settled receiver with
    | some (polled, state) => (polled, state, answer :: rest)
    | none =>
      let state := state.see answer
      match answer with
      | .pending => (.pending, state, rest)
      | .error message => (.failed (.upstream message), { state with done := true }, rest)
      | .trailers => poll receiver rest state
      | .data bytes write =>
        if bytes = [] then poll receiver rest state
        else
          let state := state.record bytes write
          match state.held with
          | some previous => (.frame previous, { state with held := some bytes }, rest)
          | none => poll receiver rest { state with held := some bytes }
      | .finish =>
        if state.resolve then poll receiver rest (state.finish sha256)
        else (.panicked, state, rest)

/-- One poll of the body. -/
def turn (world : State × List Answer) (receiver : Receiver) : State × List Answer :=
  let (polled, state, rest) := poll sha256 receiver world.2 world.1
  ({ state with outputs := state.outputs ++ [polled] }, rest)

/-- The body is polled again and again. -/
def run (created : Bool) (script : List Answer) (receivers : List Receiver) : State × List Answer :=
  receivers.foldl (turn sha256) (State.initial created, script)

end Model

def Answer.chunk : Answer → Option Bytes
  | .data bytes _ => if bytes = [] then none else some bytes
  | _ => none

def Answer.isLast : Answer → Bool
  | .error _ | .finish => true
  | _ => false

/-- The bytes that upstream gave. -/
def chunks (answers : List Answer) : List Bytes := answers.filterMap Answer.chunk

def Polled.data : Polled → Option Bytes
  | .frame data => some data
  | _ => none

def Polled.isLast : Polled → Bool
  | .pending | .frame _ => false
  | _ => true

/-- The bytes that were passed on. -/
def frames (outputs : List Polled) : List Bytes := outputs.filterMap Polled.data

/-- How the body ended, if it did. -/
def ending (outputs : List Polled) : Option Polled := outputs.find? Polled.isLast

def isBlock : Option Decision → Bool
  | some (.block _) => true
  | _ => false

def Answer.isStored : Answer → Bool
  | .data bytes write => bytes = [] ∨ write = .done
  | _ => true

/-- The copy on the disk is whole, and there if nothing went wrong. -/
structure CopyOf (created : Bool) (answers : List Answer) (copy : Except String Bytes) : Prop where
  exact : ∀ bytes, copy = .ok bytes → bytes = (chunks answers).flatten
  kept : created = true → (∀ answer ∈ answers, answer.isStored = true) →
    (chunks answers).flatten.length ≤ maxSpool → copy = .ok (chunks answers).flatten

variable {sha256 : Bytes → String} {created : Bool} {state : State} {receiver : Receiver}
  {script rest front : List Answer} {answer : Answer} {outputs : List Polled} {polled : Polled}

@[simp]
theorem chunks_append (first second : List Answer) :
    chunks (first ++ second) = chunks first ++ chunks second := by
  simp [chunks]

@[simp]
theorem chunks_nil : chunks [] = [] := rfl

@[simp]
theorem frames_append (first second : List Polled) :
    frames (first ++ second) = frames first ++ frames second := by
  simp [frames]

theorem chunks_singleton (quiet : answer.chunk = none) : chunks [answer] = [] := by
  simp [chunks, quiet]

theorem frames_singleton_of_data (quiet : polled.data = none) : frames [polled] = [] := by
  simp [frames, quiet]

@[simp]
theorem frames_frame (data : Bytes) : frames [.frame data] = [data] := rfl

theorem ending_append (outputs : List Polled) (polled : Polled) :
    ending (outputs ++ [polled]) = (ending outputs).or (if polled.isLast then some polled else none) := by
  simp [ending, List.find?_append, List.find?_cons]
  cases polled.isLast <;> rfl

theorem ending_eq_none : ending outputs = none ↔ ∀ polled ∈ outputs, polled.isLast = false := by
  simp [ending]

/-- What holds of the answers that were seen and the outputs, in every phase before the release. -/
structure Accounts (front : List Answer) (state : State) : Prop where
  unended : ∀ answer ∈ front, answer.isLast = false
  relayed : frames state.outputs ++ state.held.toList = chunks front
  begun : state.held = none → chunks front = []

structure Streaming (created : Bool) (state : State) : Prop extends Accounts state.seen state where
  waitsNot : state.verdict = false
  isOpen : state.done = false
  resolve : state.resolve = true
  unasked : state.finished = []
  undecided : state.decided = none
  quiet : ∀ polled ∈ state.outputs, polled.isLast = false
  hashed : state.hashed = (chunks state.seen).flatten
  counted : state.size = state.hashed.length
  copied : CopyOf created state.seen state.spool

structure Resolved (sha256 : Bytes → String) (created : Bool) (front : List Answer) (state : State) :
    Prop where
  unended : ∀ answer ∈ front, answer.isLast = false
  seen : state.seen = front ++ [.finish]
  asked : ∃ copy, CopyOf created front copy ∧ state.finished =
    [⟨sha256 (chunks front).flatten, (chunks front).flatten.length, copy⟩]

structure Waiting (sha256 : Bytes → String) (created : Bool) (front : List Answer) (state : State) :
    Prop extends Resolved sha256 created front state, Accounts front state where
  waits : state.verdict = true
  isOpen : state.done = false
  undecided : state.decided = none
  quiet : ∀ polled ∈ state.outputs, polled.isLast = false

structure Allowed (sha256 : Bytes → String) (created : Bool) (front : List Answer) (state : State) :
    Prop extends Resolved sha256 created front state where
  isDone : state.verdict = false ∧ state.done = true
  decided : ∃ decision, state.decided = some decision ∧ isBlock decision = false
  relayed : frames state.outputs = chunks front
  clean : ∀ polled ∈ state.outputs, polled.isLast = true → polled = .ended

structure Blocked (sha256 : Bytes → String) (created : Bool) (front : List Answer) (state : State) :
    Prop extends Resolved sha256 created front state, Accounts front state where
  isDone : state.verdict = false ∧ state.done = true
  decided : ∃ decision, state.decided = some decision ∧ isBlock decision = true
  aborted : ending state.outputs = some (.failed .blocked)
  unbroken : .panicked ∉ state.outputs

structure Failed (front : List Answer) (message : String) (state : State) : Prop
    extends Accounts front state where
  seen : state.seen = front ++ [.error message]
  isDone : state.verdict = false ∧ state.done = true
  unasked : state.finished = []
  undecided : state.decided = none
  aborted : ending state.outputs = some (.failed (.upstream message))
  unbroken : .panicked ∉ state.outputs

inductive Kept (sha256 : Bytes → String) (created : Bool) (state : State) : Prop
  | streaming (streaming : Streaming created state)
  | waiting (front : List Answer) (waiting : Waiting sha256 created front state)
  | allowed (front : List Answer) (allowed : Allowed sha256 created front state)
  | blocked (front : List Answer) (blocked : Blocked sha256 created front state)
  | failed (front : List Answer) (message : String) (failed : Failed front message state)

def State.returned (state : State) (polled : Polled) : State :=
  { state with outputs := state.outputs ++ [polled] }

theorem CopyOf.initial (created : Bool) : CopyOf created [] (State.initial created).spool := by
  constructor
  · intro bytes isCopy
    cases created with
    | true =>
      simp only [State.initial, if_true, Except.ok.injEq] at isCopy
      simp [← isCopy]
    | false => simp [State.initial] at isCopy
  · intro isCreated _ _
    simp [State.initial, isCreated]

theorem CopyOf.see {copy : Except String Bytes} (copied : CopyOf created front copy)
    (quiet : answer.chunk = none) : CopyOf created (front ++ [answer]) copy := by
  constructor
  · intro bytes isCopy
    simpa [chunks_singleton quiet] using copied.exact bytes isCopy
  · intro isCreated stored fits
    rw [chunks_append, chunks_singleton quiet, List.append_nil] at fits ⊢
    exact copied.kept isCreated (fun other otherMem => stored other (by simp [otherMem])) fits

theorem CopyOf.record {bytes : Bytes} {write : Write} (copied : CopyOf created front state.spool)
    (nonempty : bytes ≠ []) (counted : state.size = (chunks front).flatten.length) :
    CopyOf created (front ++ [.data bytes write]) (state.record bytes write).spool := by
  have isChunk : chunks [.data bytes write] = [bytes] := by simp [chunks, Answer.chunk, nonempty]
  constructor
  · intro copy isCopy
    rw [chunks_append, isChunk, List.flatten_append]
    simp only [State.record] at isCopy
    split at isCopy
    · cases isCopy
    · rename_i before isBefore
      split at isCopy
      · cases isCopy
      · split at isCopy
        · cases isCopy
          simp [copied.exact before isBefore]
        · cases isCopy
        · cases isCopy
  · intro isCreated stored fits
    rw [chunks_append, isChunk, List.flatten_append] at fits ⊢
    simp only [List.length_append, List.flatten_cons, List.flatten_nil, List.append_nil] at fits ⊢
    have before := copied.kept isCreated (fun other otherMem => stored other (by simp [otherMem]))
      (by omega)
    have written : write = .done := by
      simpa [Answer.isStored, nonempty] using stored (.data bytes write) (by simp)
    have inside : ¬maxSpool < state.size + bytes.length := by omega
    simp [State.record, before, written, inside]

theorem Streaming.initial (created : Bool) : Streaming created (State.initial created) where
  unended := by simp [State.initial]
  relayed := rfl
  begun _ := rfl
  waitsNot := rfl
  isOpen := rfl
  resolve := rfl
  unasked := rfl
  undecided := rfl
  quiet := by simp [State.initial]
  hashed := rfl
  counted := rfl
  copied := .initial created

section

variable (streaming : Streaming created state)

include streaming

theorem Streaming.see (quiet : answer.chunk = none)
    (goesOn : answer.isLast = false) : Streaming created (state.see answer) where
  unended := List.forall_mem_append.mpr ⟨streaming.unended, List.forall_mem_singleton.mpr goesOn⟩
  relayed := by simpa [State.see, chunks_singleton quiet] using streaming.relayed
  begun isNone := by simpa [State.see, chunks_singleton quiet] using streaming.begun isNone
  waitsNot := streaming.waitsNot
  isOpen := streaming.isOpen
  resolve := streaming.resolve
  unasked := streaming.unasked
  undecided := streaming.undecided
  quiet := streaming.quiet
  hashed := by simpa [State.see, chunks_singleton quiet] using streaming.hashed
  counted := streaming.counted
  copied := streaming.copied.see quiet

theorem Streaming.returned (quiet : polled.isLast = false)
    (noData : polled.data = none) : Streaming created (state.returned polled) where
  unended := streaming.unended
  relayed := by simpa [State.returned, frames_singleton_of_data noData] using streaming.relayed
  begun := streaming.begun
  waitsNot := streaming.waitsNot
  isOpen := streaming.isOpen
  resolve := streaming.resolve
  unasked := streaming.unasked
  undecided := streaming.undecided
  quiet := List.forall_mem_append.mpr ⟨streaming.quiet, List.forall_mem_singleton.mpr quiet⟩
  hashed := streaming.hashed
  counted := streaming.counted
  copied := streaming.copied

theorem Streaming.hold {bytes : Bytes} (nonempty : bytes ≠ []) (write : Write) :
    Streaming created { ((state.see (.data bytes write)).record bytes write) with
      held := some bytes, outputs := state.outputs ++ (state.held.map Polled.frame).toList } where
  unended := List.forall_mem_append.mpr ⟨streaming.unended, List.forall_mem_singleton.mpr rfl⟩
  relayed := by
    have isChunk : chunks [.data bytes write] = [bytes] := by
      simp [chunks, Answer.chunk, nonempty]
    have relayed := streaming.relayed
    dsimp only [State.see, State.record]
    rw [chunks_append, isChunk, ← relayed]
    cases state.held <;> simp
  begun isNone := by cases isNone
  waitsNot := streaming.waitsNot
  isOpen := streaming.isOpen
  resolve := streaming.resolve
  unasked := streaming.unasked
  undecided := streaming.undecided
  quiet := by
    intro other otherMem
    rcases List.mem_append.mp otherMem with before | last
    · exact streaming.quiet other before
    · simp only [Option.mem_toList, Option.map_eq_some_iff] at last
      rcases last with ⟨data, -, rfl⟩
      rfl
  hashed := by
    have isChunk : chunks [.data bytes write] = [bytes] := by
      simp [chunks, Answer.chunk, nonempty]
    simp [State.see, State.record, isChunk, streaming.hashed]
  counted := by simp [State.see, State.record, streaming.counted]
  copied := by
    have counted : (state.see (.data bytes write)).size = (chunks state.seen).flatten.length := by
      rw [← streaming.hashed]
      exact streaming.counted
    have copied : CopyOf created state.seen (state.see (.data bytes write)).spool := streaming.copied
    exact copied.record nonempty counted

theorem Streaming.finish :
    Waiting sha256 created state.seen ((state.see .finish).finish sha256) where
  unended := streaming.unended
  seen := rfl
  asked := by
    refine ⟨state.spool, streaming.copied, ?_⟩
    simp [State.see, State.finish, streaming.unasked, streaming.counted, streaming.hashed]
  relayed := streaming.relayed
  begun := streaming.begun
  waits := rfl
  isOpen := streaming.isOpen
  undecided := streaming.undecided
  quiet := streaming.quiet

end

theorem ending_append_of_quiet (quiet : ∀ polled ∈ outputs, polled.isLast = false)
    (isLast : polled.isLast = true) : ending (outputs ++ [polled]) = some polled := by
  rw [ending_append, ending_eq_none.mpr quiet, isLast]
  rfl

theorem panicked_not_mem (quiet : ∀ polled ∈ outputs, polled.isLast = false)
    (other : polled ≠ .panicked) : .panicked ∉ outputs ++ [polled] := by
  intro panicked
  rcases List.mem_append.mp panicked with before | last
  · cases quiet _ before
  · exact other (List.mem_singleton.mp last).symm

variable {message : String}

theorem Streaming.error (streaming : Streaming created state) :
    Failed state.seen message
      (State.returned { (state.see (.error message)) with done := true }
        (.failed (.upstream message))) where
  unended := streaming.unended
  relayed := by
    have noFrame : frames [.failed (.upstream message)] = [] := rfl
    simpa [State.returned, State.see, noFrame] using streaming.relayed
  begun := streaming.begun
  seen := rfl
  isDone := ⟨streaming.waitsNot, rfl⟩
  unasked := streaming.unasked
  undecided := streaming.undecided
  aborted := ending_append_of_quiet streaming.quiet rfl
  unbroken := panicked_not_mem streaming.quiet (by simp)

theorem Resolved.returned (resolved : Resolved sha256 created front state) (polled : Polled) :
    Resolved sha256 created front (state.returned polled) :=
  ⟨resolved.unended, resolved.seen, resolved.asked⟩

theorem Waiting.pending (waiting : Waiting sha256 created front state) :
    Waiting sha256 created front (state.returned .pending) where
  toResolved := waiting.toResolved.returned .pending
  relayed := by
    have noFrame : frames [.pending] = [] := rfl
    simpa [State.returned, noFrame] using waiting.relayed
  begun := waiting.begun
  waits := waiting.waits
  isOpen := waiting.isOpen
  undecided := waiting.undecided
  quiet := List.forall_mem_append.mpr ⟨waiting.quiet, List.forall_mem_singleton.mpr rfl⟩

variable {next : State}

theorem Waiting.decide (waiting : Waiting sha256 created front state) (decision : Option Decision)
    (settled : state.settled (some decision) = some (polled, next)) :
    Kept sha256 created (next.returned polled) := by
  have relayed := waiting.relayed
  simp only [State.settled, waiting.waits, if_true] at settled
  split at settled
  · cases settled
    apply Kept.blocked front
    refine ⟨⟨waiting.unended, waiting.seen, waiting.asked⟩, ?_, waiting.begun, ⟨rfl, rfl⟩,
      ⟨_, rfl, rfl⟩, ?_, ?_⟩
    · have noFrame : frames [.failed .blocked] = [] := rfl
      simpa [State.returned, noFrame] using relayed
    · exact ending_append_of_quiet waiting.quiet rfl
    · exact panicked_not_mem waiting.quiet (by simp)
  all_goals
    split at settled
    · rename_i data isHeld
      cases settled
      rw [isHeld] at relayed
      apply Kept.allowed front
      refine ⟨⟨waiting.unended, waiting.seen, waiting.asked⟩, ⟨rfl, rfl⟩, ⟨_, rfl, rfl⟩,
        ?_, ?_⟩
      · simpa [State.returned] using relayed
      · intro other otherMem isLast
        rcases List.mem_append.mp otherMem with before | last
        · rw [waiting.quiet other before] at isLast
          cases isLast
        · rw [List.mem_singleton.mp last] at isLast
          cases isLast
    · rename_i isHeld
      cases settled
      rw [isHeld] at relayed
      apply Kept.allowed front
      refine ⟨⟨waiting.unended, waiting.seen, waiting.asked⟩, ⟨rfl, rfl⟩, ⟨_, rfl, rfl⟩,
        ?_, ?_⟩
      · have noFrame : frames [.ended] = [] := rfl
        simpa [State.returned, noFrame] using relayed
      · intro other otherMem isLast
        rcases List.mem_append.mp otherMem with before | last
        · rw [waiting.quiet other before] at isLast
          cases isLast
        · exact List.mem_singleton.mp last

theorem ending_append_of_some {first : Polled} (isFirst : ending outputs = some first) :
    ending (outputs ++ [polled]) = some first := by
  rw [ending_append, isFirst, Option.some_or]

theorem panicked_not_mem_ended (unbroken : .panicked ∉ outputs) :
    .panicked ∉ outputs ++ [Polled.ended] := by
  simpa using unbroken

theorem Allowed.ended (allowed : Allowed sha256 created front state) :
    Allowed sha256 created front (state.returned .ended) where
  toResolved := allowed.toResolved.returned .ended
  isDone := allowed.isDone
  decided := allowed.decided
  relayed := by
    have noFrame : frames [.ended] = [] := rfl
    simpa [State.returned, noFrame] using allowed.relayed
  clean := by
    intro other otherMem isLast
    rcases List.mem_append.mp otherMem with before | last
    · exact allowed.clean other before isLast
    · exact List.mem_singleton.mp last

theorem Blocked.ended (blocked : Blocked sha256 created front state) :
    Blocked sha256 created front (state.returned .ended) where
  toResolved := blocked.toResolved.returned .ended
  relayed := by
    have noFrame : frames [.ended] = [] := rfl
    simpa [State.returned, noFrame] using blocked.relayed
  begun := blocked.begun
  isDone := blocked.isDone
  decided := blocked.decided
  aborted := ending_append_of_some blocked.aborted
  unbroken := panicked_not_mem_ended blocked.unbroken

theorem Failed.ended (failed : Failed front message state) :
    Failed front message (state.returned .ended) where
  unended := failed.unended
  relayed := by
    have noFrame : frames [.ended] = [] := rfl
    simpa [State.returned, noFrame] using failed.relayed
  begun := failed.begun
  seen := failed.seen
  isDone := failed.isDone
  unasked := failed.unasked
  undecided := failed.undecided
  aborted := ending_append_of_some failed.aborted
  unbroken := panicked_not_mem_ended failed.unbroken

theorem settled_of_done (isDone : state.verdict = false ∧ state.done = true) :
    state.settled receiver = some (.ended, state) := by
  simp [State.settled, isDone]

theorem Kept.settled (kept : Kept sha256 created state)
    (settled : state.settled receiver = some (polled, next)) :
    Kept sha256 created (next.returned polled) := by
  cases kept with
  | streaming streaming => simp [State.settled, streaming.waitsNot, streaming.isOpen] at settled
  | waiting front waiting =>
    cases receiver with
    | none =>
      simp only [State.settled, waiting.waits, if_true, Option.some.injEq, Prod.mk.injEq] at settled
      rcases settled with ⟨rfl, rfl⟩
      exact .waiting front waiting.pending
    | some decision => exact waiting.decide decision settled
  | allowed front allowed =>
    rw [settled_of_done allowed.isDone] at settled
    cases settled
    exact .allowed front allowed.ended
  | blocked front blocked =>
    rw [settled_of_done blocked.isDone] at settled
    cases settled
    exact .blocked front blocked.ended
  | failed front message failed =>
    rw [settled_of_done failed.isDone] at settled
    cases settled
    exact .failed front message failed.ended

theorem Kept.streaming_of_unsettled (kept : Kept sha256 created state)
    (unsettled : state.settled receiver = none) : Streaming created state := by
  cases kept with
  | streaming streaming => exact streaming
  | waiting front waiting =>
    simp only [State.settled, waiting.waits, if_true] at unsettled
    split at unsettled
    · cases unsettled
    · split at unsettled
      · cases unsettled
      all_goals split at unsettled <;> cases unsettled
  | allowed front allowed =>
    rw [settled_of_done allowed.isDone] at unsettled
    cases unsettled
  | blocked front blocked =>
    rw [settled_of_done blocked.isDone] at unsettled
    cases unsettled
  | failed front message failed =>
    rw [settled_of_done failed.isDone] at unsettled
    cases unsettled

/-- Answers that a poll takes without returning. -/
structure Skips (state mid : State) (skipped : List Answer) : Prop where
  seen : mid.seen = state.seen ++ skipped
  outputs : mid.outputs = state.outputs
  decided : mid.decided = state.decided

/-- How a poll returns. -/
inductive Returns (created : Bool) (receiver : Receiver) (mid : State) :
    List Answer → Polled × State × List Answer → Prop
  | settled {polled : Polled} {next : State} {rest : List Answer}
      (settled : mid.settled receiver = some (polled, next)) :
      Returns created receiver mid rest (polled, next, rest)
  | exhausted (streaming : Streaming created mid) :
      Returns created receiver mid [] (.pending, mid, [])
  | pending {rest : List Answer} (streaming : Streaming created mid) :
      Returns created receiver mid (.pending :: rest) (.pending, mid.see .pending, rest)
  | failed {message : String} {rest : List Answer} (streaming : Streaming created mid) :
      Returns created receiver mid (.error message :: rest)
        (.failed (.upstream message), { mid.see (.error message) with done := true }, rest)
  | frame {bytes previous : Bytes} {write : Write} {rest : List Answer}
      (streaming : Streaming created mid) (nonempty : bytes ≠ []) (isHeld : mid.held = some previous) :
      Returns created receiver mid (.data bytes write :: rest)
        (.frame previous,
          { (mid.see (.data bytes write)).record bytes write with held := some bytes }, rest)

/-- A poll skips some answers, by which the body is kept, and returns. -/
theorem exists_returns (kept : Kept sha256 created state) (receiver : Receiver)
    (script : List Answer) : ∃ skipped mid rest, script = skipped ++ rest ∧
      Kept sha256 created mid ∧ Skips state mid skipped ∧
        Returns created receiver mid rest (poll sha256 receiver script state) := by
  have here : ∀ {rest : List Answer} {outcome : Polled × State × List Answer},
      Returns created receiver state rest outcome → ∃ skipped mid rest', rest = skipped ++ rest' ∧
        Kept sha256 created mid ∧ Skips state mid skipped ∧
          Returns created receiver mid rest' outcome :=
    fun returns => ⟨[], state, _, rfl, kept, ⟨by simp, rfl, rfl⟩, returns⟩
  induction script generalizing state with
  | nil =>
    unfold poll
    cases settled : state.settled receiver with
    | some pair => exact here (.settled settled)
    | none => exact here (.exhausted (kept.streaming_of_unsettled settled))
  | cons answer rest ih =>
    have later : ∀ {next : State}, Kept sha256 created next → Skips state next [answer] →
        ∃ skipped mid rest', answer :: rest = skipped ++ rest' ∧ Kept sha256 created mid ∧
          Skips state mid skipped ∧
            Returns created receiver mid rest' (poll sha256 receiver rest next) := by
      intro next keptNext first
      rcases ih keptNext fun returns => ⟨[], next, _, rfl, keptNext, ⟨by simp, rfl, rfl⟩, returns⟩
        with ⟨skipped, mid, rest', isRest, keptMid, skips, returns⟩
      refine ⟨answer :: skipped, mid, rest', congrArg (answer :: ·) isRest, keptMid, ?_, returns⟩
      exact ⟨by rw [skips.seen, first.seen]; simp, skips.outputs.trans first.outputs,
        skips.decided.trans first.decided⟩
    unfold poll
    cases settled : state.settled receiver with
    | some pair => exact here (.settled settled)
    | none =>
      have streaming := kept.streaming_of_unsettled settled
      cases answer with
      | pending => exact here (.pending streaming)
      | trailers => exact later (.streaming (streaming.see rfl rfl)) ⟨rfl, rfl, rfl⟩
      | error message => exact here (.failed streaming)
      | finish =>
        have resolve : (state.see .finish).resolve = true := streaming.resolve
        simp only [resolve, if_true]
        exact later (.waiting _ streaming.finish) ⟨rfl, rfl, rfl⟩
      | data bytes write =>
        by_cases isEmpty : bytes = []
        · simp only [isEmpty, if_true]
          subst isEmpty
          exact later (.streaming (streaming.see (by simp [Answer.chunk]) rfl)) ⟨rfl, rfl, rfl⟩
        · have holds := streaming.hold isEmpty write
          have sameHeld : ((state.see (.data bytes write)).record bytes write).held =
              state.held := rfl
          simp only [isEmpty, if_false, sameHeld]
          cases isHeld : state.held with
          | some previous => exact here (.frame streaming isEmpty isHeld)
          | none =>
            rw [isHeld, Option.map_none, Option.toList_none, List.append_nil] at holds
            exact later (.streaming holds) ⟨rfl, rfl, rfl⟩

theorem Kept.poll (kept : Kept sha256 created state) (receiver : Receiver) (script : List Answer) :
    Kept sha256 created
      ((HeldBack.poll sha256 receiver script state).2.1.returned
        (HeldBack.poll sha256 receiver script state).1) := by
  rcases exists_returns kept receiver script with ⟨_, mid, _, _, keptMid, _, returns⟩
  generalize HeldBack.poll sha256 receiver script state = outcome at returns
  cases returns with
  | settled settled => exact keptMid.settled settled
  | exhausted streaming => exact .streaming (streaming.returned rfl rfl)
  | pending streaming => exact .streaming ((streaming.see rfl rfl).returned rfl rfl)
  | failed streaming => exact .failed _ _ streaming.error
  | @frame bytes previous write rest streaming nonempty isHeld =>
    have holds := streaming.hold nonempty write
    rw [isHeld] at holds
    exact .streaming holds

theorem recorded_of_settled (settled : state.settled receiver = some (polled, next)) :
    next.seen = state.seen ∧ next.outputs = state.outputs := by
  unfold State.settled at settled
  split_ifs at settled
  · split at settled
    · cases settled
      exact ⟨rfl, rfl⟩
    · dsimp only at settled
      split at settled
      · cases settled
        exact ⟨rfl, rfl⟩
      all_goals split at settled <;> cases settled <;> exact ⟨rfl, rfl⟩
  · cases settled
    exact ⟨rfl, rfl⟩

theorem seen_append_poll (kept : Kept sha256 created state) (receiver : Receiver)
    (script : List Answer) :
    (poll sha256 receiver script state).2.1.seen ++ (poll sha256 receiver script state).2.2 =
      state.seen ++ script := by
  rcases exists_returns kept receiver script with ⟨skipped, mid, rest, rfl, _, skips, returns⟩
  rw [← List.append_assoc, ← skips.seen]
  generalize poll sha256 receiver (skipped ++ rest) state = outcome at returns
  cases returns with
  | settled settled => rw [(recorded_of_settled settled).1]
  | exhausted streaming => rfl
  | pending streaming => simp [State.see]
  | failed streaming => simp [State.see]
  | frame streaming nonempty isHeld => simp [State.see, State.record]

theorem kept_run (sha256 : Bytes → String) (created : Bool) (script : List Answer)
    (receivers : List Receiver) :
    Kept sha256 created (run sha256 created script receivers).1 ∧
      (run sha256 created script receivers).1.seen ++ (run sha256 created script receivers).2 =
        script := by
  induction receivers using List.reverseRecOn with
  | nil => exact ⟨.streaming (.initial created), rfl⟩
  | append_singleton receivers receiver ih =>
    rcases ih with ⟨kept, whole⟩
    rw [run, List.foldl_concat]
    refine ⟨kept.poll receiver _, ?_⟩
    exact (seen_append_poll kept receiver _).trans whole

theorem poll_of_done (isDone : state.verdict = false ∧ state.done = true) (script : List Answer) :
    (poll sha256 receiver script state).1 = .ended := by
  cases script <;> simp [poll, settled_of_done isDone]

theorem Accounts.frames_eq_dropLast (accounts : Accounts front state) :
    frames state.outputs = (chunks front).dropLast := by
  have relayed := accounts.relayed
  cases isHeld : state.held with
  | none =>
    rw [accounts.begun isHeld, isHeld, Option.toList_none, List.append_nil] at relayed
    rw [accounts.begun isHeld, relayed]
    rfl
  | some data =>
    rw [isHeld] at relayed
    simp [← relayed]

/-- What a pending poll waits for: upstream, which may have nothing left to say, or the verdict. -/
inductive Waits (script rest : List Answer) (receiver : Receiver) (after : State × List Answer) :
    Prop
  | upstream (skipped : List Answer) (isRest : rest = skipped ++ .pending :: after.2)
  | exhausted (isEmpty : after.2 = []) (unended : ∀ answer ∈ script, answer.isLast = false)
  | verdict (front : List Answer) (isScript : script = front ++ .finish :: after.2)
      (unanswered : receiver = none)

theorem waits_of_settled (kept : Kept sha256 created state) (whole : state.seen ++ rest = script)
    (settled : state.settled receiver = some (.pending, next)) :
    Waits script rest receiver (next, rest) := by
  cases kept with
  | streaming streaming => simp [State.settled, streaming.waitsNot, streaming.isOpen] at settled
  | waiting front waiting =>
    cases receiver with
    | none =>
      exact .verdict front (by rw [← whole, waiting.seen]; simp) rfl
    | some decision =>
      simp only [State.settled, waiting.waits, if_true] at settled
      split at settled
      · cases settled
      all_goals split at settled <;> cases settled
  | allowed front allowed =>
    rw [settled_of_done allowed.isDone] at settled
    cases settled
  | blocked front blocked =>
    rw [settled_of_done blocked.isDone] at settled
    cases settled
  | failed front message failed =>
    rw [settled_of_done failed.isDone] at settled
    cases settled

theorem waits_of_pending (kept : Kept sha256 created state) (whole : state.seen ++ rest = script)
    (isPending : (poll sha256 receiver rest state).1 = .pending) :
    Waits script rest receiver (poll sha256 receiver rest state).2 := by
  rcases exists_returns kept receiver rest with ⟨skipped, mid, left, rfl, keptMid, skips, returns⟩
  rw [← List.append_assoc, ← skips.seen] at whole
  generalize poll sha256 receiver (skipped ++ left) state = outcome at returns isPending
  cases returns with
  | settled settled =>
    dsimp only at isPending
    subst isPending
    cases waits_of_settled keptMid whole settled with
    | upstream earlier isRest =>
      have lengths := congrArg List.length isRest
      simp only [List.length_append, List.length_cons] at lengths
      omega
    | exhausted isEmpty unended => exact .exhausted isEmpty unended
    | verdict front isScript unanswered => exact .verdict front isScript unanswered
  | exhausted streaming =>
    rw [List.append_nil] at whole
    exact .exhausted rfl (whole ▸ streaming.unended)
  | pending streaming => exact .upstream skipped rfl
  | failed streaming => cases isPending
  | frame streaming nonempty isHeld => cases isPending

theorem decided_settled (kept : Kept sha256 created state) {pair : Polled × State}
    (settled : state.settled receiver = some pair) {decision : Option Decision}
    (decided : pair.2.decided = some decision) : state.decided = some decision ∨
      receiver = some decision ∧ ∀ polled ∈ state.outputs, polled.isLast = false := by
  cases kept with
  | streaming streaming => simp [State.settled, streaming.waitsNot, streaming.isOpen] at settled
  | waiting front waiting =>
    simp only [State.settled, waiting.waits, if_true] at settled
    split at settled
    · cases settled
      exact .inl decided
    · rename_i other
      have isDecision : some other = some decision := by
        split at settled
        · cases settled
          exact decided
        all_goals
          split at settled
          all_goals
            cases settled
            exact decided
      exact .inr ⟨isDecision, waiting.quiet⟩
  | allowed front allowed =>
    rw [settled_of_done allowed.isDone] at settled
    cases settled
    exact .inl decided
  | blocked front blocked =>
    rw [settled_of_done blocked.isDone] at settled
    cases settled
    exact .inl decided
  | failed front message failed =>
    rw [settled_of_done failed.isDone] at settled
    cases settled
    exact .inl decided

theorem decided_poll (kept : Kept sha256 created state) {decision : Option Decision}
    (decided : (poll sha256 receiver rest state).2.1.decided = some decision) :
    state.decided = some decision ∨
      receiver = some decision ∧ ∀ polled ∈ state.outputs, polled.isLast = false := by
  rcases exists_returns kept receiver rest with ⟨skipped, mid, left, rfl, keptMid, skips, returns⟩
  generalize poll sha256 receiver (skipped ++ left) state = outcome at returns decided
  rw [← skips.decided, ← skips.outputs]
  cases returns with
  | settled settled => exact decided_settled keptMid settled decided
  | exhausted streaming | pending streaming | failed streaming | frame streaming nonempty isHeld =>
    exact .inl decided

theorem exists_decision {decision : Option Decision} {receivers : List Receiver}
    (decided : (run sha256 created script receivers).1.decided = some decision) :
    ∃ earlier later, receivers = earlier ++ some decision :: later ∧
      ending (run sha256 created script earlier).1.outputs = none := by
  induction receivers using List.reverseRecOn with
  | nil => cases decided
  | append_singleton receivers receiver ih =>
    rw [run, List.foldl_concat] at decided
    rcases decided_poll (kept_run sha256 created script receivers).1 decided with
      before | ⟨now, quiet⟩
    · rcases ih before with ⟨earlier, later, isReceivers, isFirst⟩
      exact ⟨earlier, later ++ [receiver], by rw [isReceivers]; simp, isFirst⟩
    · exact ⟨receivers, [], by rw [now], ending_eq_none.mpr quiet⟩

theorem panicked_not_mem_of_quiet (quiet : ∀ polled ∈ outputs, polled.isLast = false) :
    .panicked ∉ outputs := by
  intro panicked
  cases quiet _ panicked

theorem outputs_poll (kept : Kept sha256 created state) (receiver : Receiver)
    (script : List Answer) : (poll sha256 receiver script state).2.1.outputs = state.outputs := by
  rcases exists_returns kept receiver script with ⟨skipped, mid, rest, rfl, _, skips, returns⟩
  generalize poll sha256 receiver (skipped ++ rest) state = outcome at returns
  rw [← skips.outputs]
  cases returns with
  | settled settled => exact (recorded_of_settled settled).2
  | exhausted streaming | pending streaming | failed streaming | frame streaming nonempty isHeld =>
    rfl

theorem length_outputs_run (sha256 : Bytes → String) (created : Bool) (script : List Answer)
    (receivers : List Receiver) :
    (run sha256 created script receivers).1.outputs.length = receivers.length := by
  induction receivers using List.reverseRecOn with
  | nil => rfl
  | append_singleton receivers receiver ih =>
    have same := outputs_poll (kept_run sha256 created script receivers).1 receiver
      (run sha256 created script receivers).2
    rw [run, List.foldl_concat, List.length_append, List.length_singleton, ← ih, ← same]
    exact List.length_append

section Run

variable (sha256 : Bytes → String) (created : Bool) (script : List Answer)
  (receivers : List Receiver)

/-- The answers that came before the end, and their chunks, of which the last one is held back. -/
structure HoldsBack (front : List Answer) (outputs : List Polled) : Prop where
  unended : ∀ answer ∈ front, answer.isLast = false
  relayed : frames outputs = (chunks front).dropLast

/-- The resolver is asked once, with the hash and the length of all that came. -/
def Asked (front : List Answer) (finished : List Finished) : Prop :=
  ∃ copy, CopyOf created front copy ∧
    finished = [⟨sha256 (chunks front).flatten, (chunks front).flatten.length, copy⟩]

/-- What a download has asked and returned, by the answers that it has taken from upstream. -/
inductive Judged (outputs : List Polled) (finished : List Finished) (rest : List Answer) : Prop
  | streaming (taken : List Answer) (isScript : taken ++ rest = script)
      (holdsBack : HoldsBack taken outputs) (goesOn : ending outputs = none)
      (unasked : finished = [])
  | waiting (front : List Answer) (isScript : front ++ .finish :: rest = script)
      (holdsBack : HoldsBack front outputs) (goesOn : ending outputs = none)
      (asked : Asked sha256 created front finished)
  | allowed (front : List Answer) (isScript : front ++ .finish :: rest = script)
      (unended : ∀ answer ∈ front, answer.isLast = false) (relayed : frames outputs = chunks front)
      (clean : ∀ polled ∈ outputs, polled.isLast = true → polled = .ended)
      (asked : Asked sha256 created front finished)
      (earlier later : List Receiver) (decision : Option Decision)
      (isReceivers : receivers = earlier ++ some decision :: later)
      (isFirst : ending (run sha256 created script earlier).1.outputs = none)
      (allows : isBlock decision = false)
  | blocked (front : List Answer) (isScript : front ++ .finish :: rest = script)
      (holdsBack : HoldsBack front outputs) (aborted : ending outputs = some (.failed .blocked))
      (asked : Asked sha256 created front finished)
      (earlier later : List Receiver) (decision : Option Decision)
      (isReceivers : receivers = earlier ++ some decision :: later)
      (isFirst : ending (run sha256 created script earlier).1.outputs = none)
      (blocks : isBlock decision = true)
  | failed (front : List Answer) (message : String)
      (isScript : front ++ .error message :: rest = script) (holdsBack : HoldsBack front outputs)
      (aborted : ending outputs = some (.failed (.upstream message))) (unasked : finished = [])

variable {sha256 created script receivers} {front rest : List Answer} {state : State}

theorem Accounts.holdsBack (accounts : Accounts front state) : HoldsBack front state.outputs :=
  ⟨accounts.unended, accounts.frames_eq_dropLast⟩

theorem Resolved.isScript (resolved : Resolved sha256 created front state)
    (whole : state.seen ++ rest = script) : front ++ .finish :: rest = script := by
  rw [resolved.seen, List.append_assoc] at whole
  exact whole

end Run

end Aavishield.HeldBack
