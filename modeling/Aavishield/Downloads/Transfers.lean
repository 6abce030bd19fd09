import Aavishield.Downloads.ScanJobs
import Aavishield.Lib.TransitionSystem

/-!
# Uploads of downloads

The agent keeps the offset that the server reports and sends the part from there, one request
at a time.  A request may reach the server late or twice, and its answer may be lost.  As long
as the job takes parts every answer brings the offset forward.  A job that takes no parts
any more does not say how much it has, and the agent reads that as nothing: it starts over,
and is refused again.
-/

namespace Aavishield.Transfers

open Downloads TransitionSystem

/-- The loop of `upload_and_scan`, with the number of answers that it has dealt with. -/
structure Client where
  offset : ℕ
  failures : ℕ
  answers : ℕ
  waiting : Bool
  ended : Bool

namespace Client

def initial : Client := ⟨0, 0, 0, false, false⟩

def fail (client : Client) : Client :=
  { client with
    failures := client.failures + 1
    answers := client.answers + 1
    waiting := false
    ended := 3 < client.failures + 1 }

def goOn (client : Client) (size offset : ℕ) : Client :=
  { client with
    offset := offset
    answers := client.answers + 1
    waiting := false
    ended := size ≤ offset }

def receive (client : Client) (size : ℕ) : PartAnswer → Client
  | .received count | .outOfOrder count => client.goOn size count
  -- `received` is missing in this answer, and has a default
  | .notAccepting _ => client.goOn size 0
  | .notStored | .notFound => client.fail

def giveUp (client : Client) : Client :=
  { client with answers := client.answers + 1, waiting := false, ended := true }

end Client

def partOf (file : List UInt8) (offset : ℕ) : List UInt8 :=
  (file.drop offset).take (min scanJobPartBytes (file.length - offset))

/--
A job and the upload that it was created for: the requests that were sent by their offsets, and
the answers under way by the numbers of the requests.  `listed` tells whether the job is still
in the table, and `accepted` are the parts that were written.
-/
structure Transfer where
  file : List UInt8
  job : ScanJob
  listed : Bool
  client : Client
  sent : List ℕ
  inbox : List (ℕ × PartAnswer)
  accepted : List (List UInt8)

inductive Event where
  | send
  /-- A request that was sent is handled, perhaps not for the first time.  When it was `held`, its
  job was looked up before it was dropped. -/
  | deliver (request : ℕ) (cut : Option ℕ) (held : Bool)
  /-- An answer to the request that the agent waits for arrives. -/
  | receive (index : ℕ)
  | fail
  | giveUp
  | complete (held : Bool)
  | scanned (verdict : FileVerdict)
  | poll (held : Bool)

namespace Transfer

variable (transfer : Transfer)

def create (deviceID : UUID) (file : List UInt8) (now : Time) : Transfer :=
  ⟨file, .create deviceID file.length now, true, .initial, [], [], []⟩

def IsCurrent (request : ℕ) : Prop :=
  transfer.client.waiting = true ∧ request + 1 = transfer.sent.length

instance (request : ℕ) : Decidable (transfer.IsCurrent request) :=
  inferInstanceAs (Decidable (_ ∧ _))

def deliver (request offset : ℕ) (cut : Option ℕ) (now : Time) : Transfer :=
  let body := partOf transfer.file offset
  let uploaded := transfer.job.uploadPart offset body cut now
  { transfer with
    job := uploaded.1
    inbox := transfer.inbox ++ [(request, uploaded.2)]
    accepted := match uploaded.2 with
      | .received count =>
        if transfer.job.received < count then transfer.accepted ++ [body] else transfer.accepted
      | _ => transfer.accepted }

def step (now : Time) : Event → Option Transfer
  | .send =>
    if transfer.client.waiting || transfer.client.ended then none
    else some { transfer with
      client := { transfer.client with waiting := true }
      sent := transfer.sent ++ [transfer.client.offset] }
  | .deliver request cut held =>
    match transfer.sent[request]? with
    | none => none
    | some offset =>
      if transfer.listed || held then some (transfer.deliver request offset cut now)
      else some { transfer with inbox := transfer.inbox ++ [(request, .notFound)] }
  | .receive index =>
    match transfer.inbox[index]? with
    | none => none
    | some (request, answer) =>
      if transfer.IsCurrent request then
        some { transfer with client := transfer.client.receive transfer.file.length answer }
      else none
  | .fail =>
    if transfer.client.waiting then some { transfer with client := transfer.client.fail } else none
  | .giveUp =>
    if transfer.client.waiting then some { transfer with client := transfer.client.giveUp }
    else none
  | .complete held =>
    if transfer.listed || held then some { transfer with job := transfer.job.complete now }
    else some transfer
  | .scanned verdict =>
    if transfer.job.state = .scanning then
      some { transfer with job := transfer.job.scanned verdict now }
    else none
  | .poll held =>
    if transfer.listed || held then some { transfer with job := transfer.job.poll now }
    else some transfer

/-- `sweepScanJobs`. -/
def sweep (now : Time) : Transfer :=
  if transfer.listed && transfer.job.isStale now then
    { transfer with job := { transfer.job with spool := none }, listed := false }
  else transfer

end Transfer

/-- The jobs, and requests that have passed the count. -/
structure State where
  transfers : List Transfer
  creating : List (UUID × List UInt8)
  now : Time

inductive Action where
  | elapse (duration : ℕ)
  /-- `CreateScanJob` up to where it gives the table free after counting. -/
  | count (deviceID : UUID) (file : List UInt8)
  /-- The rest of `CreateScanJob`. -/
  | insert (index : ℕ)
  | on (id : ℕ) (event : Event)

namespace State

variable (state : State)

def initial : State := ⟨[], [], 0⟩

def step : Action → Option State
  | .elapse duration => some { state with now := state.now + duration }
  | .count deviceID file =>
    if file.length = 0 ∨ maxScanJobBytes < file.length then some state
    else
      let transfers := state.transfers.map (Transfer.sweep · state.now)
      let inFlight := transfers.countP fun transfer =>
        transfer.listed && transfer.job.deviceID = deviceID && transfer.job.inFlight state.now
      if maxJobsPerDevice ≤ inFlight then some { state with transfers := transfers }
      else some { state with
        transfers := transfers, creating := state.creating ++ [(deviceID, file)] }
  | .insert index =>
    match state.creating[index]? with
    | none => none
    | some (deviceID, file) => some { state with
        transfers := state.transfers ++ [.create deviceID file state.now]
        creating := state.creating.eraseIdx index }
  | .on id event =>
    match state.transfers[id]? with
    | none => none
    | some transfer => (transfer.step state.now event).map fun moved =>
      { state with transfers := state.transfers.set id moved }

def unfinished (deviceID : UUID) : ℕ :=
  state.transfers.countP fun transfer =>
    transfer.listed && transfer.job.deviceID = deviceID && decide (transfer.job.state ≠ .done)

end State

/-- The bytes of a job are those of the file, in order, and the agent's loop has had few answers. -/
structure Transfer.Good (bound : ℕ → ℕ) (transfer : Transfer) : Prop where
  inOrder : ∀ bytes, transfer.job.spool = some bytes → bytes <+: transfer.file
  whole : transfer.job.state = .scanning → ∀ bytes, transfer.job.spool = some bytes →
    bytes = transfer.file
  counted : ∀ bytes, transfer.job.spool = some bytes → transfer.job.received = bytes.length ∧
    transfer.job.received = (transfer.accepted.map List.length).sum
  answers : transfer.client.answers ≤ bound transfer.file.length

/-- Every transfer is as it should be, and no device has too many. -/
structure State.Good (bound : ℕ → ℕ) (state : State) : Prop where
  transfers : ∀ transfer ∈ state.transfers, transfer.Good bound
  limited : ∀ deviceID, state.unfinished deviceID ≤ maxJobsPerDevice

/-- A verdict that was given stays. -/
def State.Lasting (state : State) : Prop :=
  ∀ (action : Action) (next : State), state.step action = some next →
    ∀ (id : ℕ) (transfer : Transfer), state.transfers[id]? = some transfer →
      transfer.job.state = .done →
        ∃ later : Transfer, next.transfers[id]? = some later ∧ later.job.state = .done ∧
          later.job.verdict = transfer.job.verdict

/-- A job is made while the device has fewer than the limit, and the part that an agent waits for
reaches a job that takes parts. -/
def State.Careful (state : State) : Action → Prop
  | .insert index =>
    ∀ request ∈ state.creating[index]?, state.unfinished request.1 < maxJobsPerDevice
  | .on id (.deliver request _ held) =>
    ∀ transfer ∈ state.transfers[id]?, transfer.IsCurrent request →
      (transfer.listed || held) = true → transfer.job.Accepting
  | _ => True

/-- What holds of an upload as long as its steps are careful. -/
structure Transfer.Sound (transfer : Transfer) : Prop where
  size : transfer.job.size = transfer.file.length
  spooled : ∀ bytes, transfer.job.spool = some bytes →
    bytes = transfer.file.take transfer.job.received ∧
      transfer.job.received = (transfer.accepted.map List.length).sum ∧
        transfer.job.received ≤ transfer.file.length
  whole : transfer.job.state = .scanning → transfer.job.received = transfer.file.length
  running : transfer.client.ended = false → transfer.client.offset < transfer.file.length
  behind : transfer.client.offset ≤ transfer.job.received
  sentBehind : ∀ offset ∈ transfer.sent,
    offset ≤ transfer.job.received ∧ offset < transfer.file.length
  current : transfer.client.waiting = true →
    transfer.sent[transfer.sent.length - 1]? = some transfer.client.offset
  forward : ∀ request count, (request, PartAnswer.received count) ∈ transfer.inbox →
    ∃ offset, transfer.sent[request]? = some offset ∧ offset < count ∧
      count ≤ transfer.job.received ∧ count ≤ transfer.file.length
  inTurn : ∀ request count, (request, PartAnswer.outOfOrder count) ∉ transfer.inbox
  fresh : ∀ request state, transfer.IsCurrent request →
    (request, PartAnswer.notAccepting state) ∉ transfer.inbox
  paced : transfer.client.ended = false →
    transfer.client.failures ≤ 3 ∧
      transfer.client.answers ≤ transfer.client.offset + transfer.client.failures
  answers : transfer.client.answers ≤ transfer.file.length + 4
  waits : transfer.client.waiting = true → transfer.client.ended = false
  known : ∀ answer ∈ transfer.inbox, answer.1 < transfer.sent.length

variable {transfer moved : Transfer} {now : Time} {event : Event}

theorem length_partOf (file : List UInt8) (offset : ℕ) :
    (partOf file offset).length = min scanJobPartBytes (file.length - offset) := by
  rw [partOf, List.length_take, List.length_drop]
  omega

theorem take_append_partOf (file : List UInt8) (offset : ℕ) :
    file.take offset ++ partOf file offset = file.take (offset + (partOf file offset).length) := by
  rw [length_partOf, partOf, List.take_add]

namespace Transfer.Sound

variable (sound : transfer.Sound)

include sound

theorem good : transfer.Good (· + 4) where
  inOrder bytes isSpool := by
    rw [(sound.spooled bytes isSpool).1]
    exact List.take_prefix _ _
  whole isScanning bytes isSpool := by
    rw [(sound.spooled bytes isSpool).1, sound.whole isScanning]
    exact List.take_length
  counted bytes isSpool := by
    rcases sound.spooled bytes isSpool with ⟨rfl, isSum, within⟩
    refine ⟨?_, isSum⟩
    rw [List.length_take]
    omega
  answers := sound.answers

theorem withJob (job : ScanJob) {listed : Bool} {accepted : List (List UInt8)}
    (size : job.size = transfer.job.size) (grows : transfer.job.received ≤ job.received)
    (spooled : ∀ bytes, job.spool = some bytes → bytes = transfer.file.take job.received ∧
      job.received = (accepted.map List.length).sum ∧ job.received ≤ transfer.file.length)
    (whole : job.state = .scanning → job.received = transfer.file.length) :
    ({ transfer with job := job, listed := listed, accepted := accepted } : Transfer).Sound where
  size := size.trans sound.size
  spooled := spooled
  whole := whole
  running := sound.running
  behind := sound.behind.trans grows
  sentBehind offset mem := by
    rcases sound.sentBehind offset mem with ⟨isBehind, isWithin⟩
    exact ⟨isBehind.trans grows, isWithin⟩
  current := sound.current
  forward request count mem := by
    rcases sound.forward request count mem with ⟨offset, isSent, ahead, counted, within⟩
    exact ⟨offset, isSent, ahead, counted.trans grows, within⟩
  inTurn := sound.inTurn
  fresh := sound.fresh
  paced := sound.paced
  answers := sound.answers
  waits := sound.waits
  known := sound.known

theorem send (goesOn : transfer.client.ended = false) :
    ({ transfer with
        client := { transfer.client with waiting := true }
        sent := transfer.sent ++ [transfer.client.offset] } : Transfer).Sound where
  size := sound.size
  spooled := sound.spooled
  whole := sound.whole
  running := sound.running
  behind := sound.behind
  sentBehind offset mem := by
    rcases List.mem_append.mp mem with earlier | now
    · exact sound.sentBehind offset earlier
    · rw [List.mem_singleton.mp now]
      exact ⟨sound.behind, sound.running goesOn⟩
  current _ := by simp
  forward request count mem := by
    rcases sound.forward request count mem with ⟨offset, isSent, ahead⟩
    exact ⟨offset, by rw [List.getElem?_append_left (sound.known _ mem)]; exact isSent, ahead⟩
  inTurn := sound.inTurn
  fresh request state isCurrent mem := by
    have earlier := sound.known _ mem
    have isLast := isCurrent.2
    simp only [List.length_append, List.length_singleton] at isLast
    dsimp only at earlier
    omega
  paced := sound.paced
  answers := sound.answers
  waits _ := goesOn
  known answer mem := by
    have earlier := sound.known answer mem
    rw [List.length_append, List.length_singleton]
    omega

theorem answered {request : ℕ} {answer : PartAnswer} (isKnown : request < transfer.sent.length)
    (forward : ∀ count, answer = .received count →
      ∃ offset, transfer.sent[request]? = some offset ∧ offset < count ∧
        count ≤ transfer.job.received ∧ count ≤ transfer.file.length)
    (inTurn : ∀ count, answer ≠ .outOfOrder count)
    (fresh : ∀ state, answer = .notAccepting state → ¬transfer.IsCurrent request) :
    ({ transfer with inbox := transfer.inbox ++ [(request, answer)] } : Transfer).Sound where
  size := sound.size
  spooled := sound.spooled
  whole := sound.whole
  running := sound.running
  behind := sound.behind
  sentBehind := sound.sentBehind
  current := sound.current
  forward other count mem := by
    rcases List.mem_append.mp mem with earlier | now
    · exact sound.forward other count earlier
    · cases List.mem_singleton.mp now
      exact forward count rfl
  inTurn other count mem := by
    rcases List.mem_append.mp mem with earlier | now
    · exact sound.inTurn other count earlier
    · cases List.mem_singleton.mp now
      exact inTurn count rfl
  fresh other state isCurrent mem := by
    rcases List.mem_append.mp mem with earlier | now
    · exact sound.fresh other state isCurrent earlier
    · cases List.mem_singleton.mp now
      exact fresh state rfl isCurrent
  paced := sound.paced
  answers := sound.answers
  waits := sound.waits
  known other mem := by
    rcases List.mem_append.mp mem with earlier | now
    · exact sound.known other earlier
    · cases List.mem_singleton.mp now
      exact isKnown

theorem deliver {request offset : ℕ} {cut : Option ℕ}
    (isSent : transfer.sent[request]? = some offset)
    (careful : transfer.IsCurrent request → transfer.job.Accepting) :
    (transfer.deliver request offset cut now).Sound := by
  rcases sound.sentBehind offset (List.mem_of_getElem? isSent) with ⟨isBehind, isWithin⟩
  have isKnown : request < transfer.sent.length := (List.getElem?_eq_some_iff.mp isSent).1
  have uploaded := @ScanJob.uploaded_uploadPart transfer.job offset
    (partOf transfer.file offset) cut now
  have touched : ({ transfer with job := { transfer.job with touched := now } } : Transfer).Sound :=
    sound.withJob _ rfl (Nat.le_refl _) sound.spooled sound.whole
  unfold Transfer.deliver
  dsimp only
  generalize transfer.job.uploadPart offset (partOf transfer.file offset) cut now = result
    at uploaded
  cases uploaded with
  | refused closed =>
    apply touched.answered isKnown
    · intro count impossible
      cases impossible
    · intro count impossible
      cases impossible
    · intro state _ isCurrent
      exact closed (careful isCurrent)
  | repeated accepting isRepeat =>
    rcases Option.isSome_iff_exists.mp accepting.2 with ⟨bytes, isSpool⟩
    simp only [if_neg (Nat.lt_irrefl transfer.job.received)]
    apply touched.answered isKnown
    · rintro count ⟨rfl⟩
      exact ⟨offset, isSent, isRepeat, Nat.le_refl _, (sound.spooled bytes isSpool).2.2⟩
    · intro count impossible
      cases impossible
    · intro state impossible
      cases impossible
  | ahead accepting isAhead =>
    exact absurd isAhead (Nat.not_lt_of_le isBehind)
  | lost accepting count grows =>
    have closed : ({ transfer with job := { transfer.job with
        touched := now, received := count, spool := none, state := .done,
        verdict := unscannedVerdict } } : Transfer).Sound := by
      apply sound.withJob { transfer.job with
        touched := now, received := count, spool := none, state := .done,
        verdict := unscannedVerdict } rfl grows
      · intro bytes isSpool
        cases isSpool
      · intro isScanning
        cases isScanning
    apply closed.answered isKnown
    · intro count impossible
      cases impossible
    · intro count impossible
      cases impossible
    · intro state impossible
      cases impossible
  | appended spooled isUploading isSpool inOrder fits =>
    have hasBytes : 0 < (partOf transfer.file offset).length := by
      have positive : 0 < scanJobPartBytes := by decide
      rw [length_partOf]
      omega
    have within : transfer.job.received + (partOf transfer.file offset).length ≤
        transfer.file.length := sound.size ▸ fits
    rcases sound.spooled spooled isSpool with ⟨isPrefix, isSum, -⟩
    have extended : ({ transfer with
        job := { transfer.job with
          touched := now
          received := transfer.job.received + (partOf transfer.file offset).length
          spool := some (spooled ++ partOf transfer.file offset) }
        accepted := transfer.accepted ++ [partOf transfer.file offset] } : Transfer).Sound := by
      apply sound.withJob { transfer.job with
        touched := now
        received := transfer.job.received + (partOf transfer.file offset).length
        spool := some (spooled ++ partOf transfer.file offset) } rfl (Nat.le_add_right _ _)
      · rintro bytes ⟨rfl⟩
        refine ⟨?_, ?_, within⟩
        · rw [isPrefix, inOrder]
          exact take_append_partOf _ _
        · simp [isSum]
      · intro isScanning
        rw [isUploading] at isScanning
        cases isScanning
    simp only [if_pos (Nat.lt_add_of_pos_right (n := transfer.job.received) hasBytes)]
    apply extended.answered isKnown
    · rintro count ⟨rfl⟩
      exact ⟨offset, isSent, inOrder ▸ Nat.lt_add_of_pos_right hasBytes, Nat.le_refl _, within⟩
    · intro count impossible
      cases impossible
    · intro state impossible
      cases impossible

theorem settle (client : Client) (waits : client.waiting = false)
    (behind : client.offset ≤ transfer.job.received)
    (running : client.ended = false → client.offset < transfer.file.length)
    (paced : client.ended = false →
      client.failures ≤ 3 ∧ client.answers ≤ client.offset + client.failures)
    (answers : client.answers ≤ transfer.file.length + 4) :
    ({ transfer with client := client } : Transfer).Sound where
  size := sound.size
  spooled := sound.spooled
  whole := sound.whole
  running := running
  behind := behind
  sentBehind := sound.sentBehind
  current isWaiting := by simp [waits] at isWaiting
  forward := sound.forward
  inTurn := sound.inTurn
  fresh request state isCurrent := by simp [IsCurrent, waits] at isCurrent
  paced := paced
  answers := answers
  waits isWaiting := by simp [waits] at isWaiting
  known := sound.known

theorem pending (isWaiting : transfer.client.waiting = true) :
    transfer.client.offset < transfer.file.length ∧ transfer.client.failures ≤ 3 ∧
      transfer.client.answers ≤ transfer.client.offset + transfer.client.failures := by
  have goesOn := sound.waits isWaiting
  exact ⟨sound.running goesOn, sound.paced goesOn⟩

theorem fail (isWaiting : transfer.client.waiting = true) :
    ({ transfer with client := transfer.client.fail } : Transfer).Sound := by
  rcases sound.pending isWaiting with ⟨isWithin, fewFailures, paced⟩
  apply sound.settle transfer.client.fail rfl sound.behind (fun _ => isWithin)
  · intro goesOn
    simp only [Client.fail, decide_eq_false_iff_not, Nat.not_lt] at goesOn ⊢
    omega
  · simp only [Client.fail]
    omega

theorem giveUp (isWaiting : transfer.client.waiting = true) :
    ({ transfer with client := transfer.client.giveUp } : Transfer).Sound := by
  rcases sound.pending isWaiting with ⟨isWithin, fewFailures, paced⟩
  apply sound.settle transfer.client.giveUp rfl sound.behind (fun _ => isWithin)
  · intro goesOn
    cases goesOn
  · simp only [Client.giveUp]
    omega

theorem receive {request : ℕ} {answer : PartAnswer} (mem : (request, answer) ∈ transfer.inbox)
    (isCurrent : transfer.IsCurrent request) :
    ({ transfer with client := transfer.client.receive transfer.file.length answer } :
      Transfer).Sound := by
  cases answer with
  | received count =>
    rcases sound.pending isCurrent.1 with ⟨isWithin, fewFailures, paced⟩
    rcases sound.forward request count mem with ⟨offset, isSent, ahead, counted, within⟩
    have isLast : request = transfer.sent.length - 1 := by
      have last := isCurrent.2
      omega
    rw [isLast, sound.current isCurrent.1, Option.some.injEq] at isSent
    apply sound.settle (transfer.client.goOn transfer.file.length count) rfl counted
    · intro goesOn
      simpa [Client.receive, Client.goOn] using goesOn
    · intro _
      simp only [Client.goOn]
      omega
    · simp only [Client.goOn]
      omega
  | outOfOrder count => exact absurd mem (sound.inTurn request count)
  | notAccepting state => exact absurd mem (sound.fresh request state isCurrent)
  | notStored | notFound => exact sound.fail isCurrent.1

theorem complete (now : Time) :
    ({ transfer with job := transfer.job.complete now } : Transfer).Sound := by
  unfold ScanJob.complete
  dsimp only
  split_ifs with stays
  · exact sound.withJob _ rfl (Nat.le_refl _) sound.spooled sound.whole
  · rw [not_or, not_not, not_not] at stays
    apply sound.withJob { transfer.job with touched := now, state := .scanning } rfl (Nat.le_refl _)
      sound.spooled
    intro _
    exact stays.2.trans sound.size

theorem scanned (verdict : FileVerdict) (now : Time) :
    ({ transfer with job := transfer.job.scanned verdict now } : Transfer).Sound := by
  apply sound.withJob (transfer.job.scanned verdict now) rfl (Nat.le_refl _)
  · intro bytes isSpool
    cases isSpool
  · intro isScanning
    cases isScanning

theorem sweep (now : Time) : (transfer.sweep now).Sound := by
  unfold Transfer.sweep
  split_ifs with isStale
  · apply sound.withJob { transfer.job with spool := none } rfl (Nat.le_refl _)
    · intro bytes isSpool
      cases isSpool
    · exact sound.whole
  · exact sound

/-- An event keeps an upload in order, when the part that the agent waits for is taken. -/
theorem step (stepped : transfer.step now event = some moved)
    (careful : ∀ request cut held, event = .deliver request cut held →
      transfer.IsCurrent request → (transfer.listed || held) = true → transfer.job.Accepting) :
    moved.Sound := by
  cases event with
  | send =>
    simp only [Transfer.step] at stepped
    split_ifs at stepped with stops
    cases stepped
    rw [Bool.or_eq_true, not_or, Bool.not_eq_true, Bool.not_eq_true] at stops
    exact sound.send stops.2
  | deliver request cut held =>
    simp only [Transfer.step] at stepped
    split at stepped
    · cases stepped
    · next offset isSent =>
        split_ifs at stepped with isFound
        · cases stepped
          exact sound.deliver isSent fun isCurrent =>
            careful request cut held rfl isCurrent isFound
        · cases stepped
          apply sound.answered (List.getElem?_eq_some_iff.mp isSent).1
          · intro count impossible
            cases impossible
          · intro count impossible
            cases impossible
          · intro state impossible
            cases impossible
  | receive index =>
    simp only [Transfer.step] at stepped
    split at stepped
    · cases stepped
    · next request answer found =>
        split_ifs at stepped with isCurrent
        cases stepped
        exact sound.receive (List.mem_of_getElem? found) isCurrent
  | fail =>
    simp only [Transfer.step] at stepped
    split_ifs at stepped with isWaiting
    cases stepped
    exact sound.fail isWaiting
  | giveUp =>
    simp only [Transfer.step] at stepped
    split_ifs at stepped with isWaiting
    cases stepped
    exact sound.giveUp isWaiting
  | complete held =>
    simp only [Transfer.step] at stepped
    split_ifs at stepped
    · cases stepped
      exact sound.complete now
    · cases stepped
      exact sound
  | scanned verdict =>
    simp only [Transfer.step] at stepped
    split_ifs at stepped
    cases stepped
    exact sound.scanned verdict now
  | poll held =>
    simp only [Transfer.step] at stepped
    split_ifs at stepped
    · cases stepped
      exact sound.withJob _ rfl (Nat.le_refl _) sound.spooled sound.whole
    · cases stepped
      exact sound

end Transfer.Sound

theorem Transfer.sound_create {deviceID : UUID} {file : List UInt8} (hasBytes : 0 < file.length) :
    (Transfer.create deviceID file now).Sound where
  size := rfl
  spooled bytes isSpool := by
    cases isSpool
    simp [create, ScanJob.create]
  whole isScanning := by cases isScanning
  running _ := hasBytes
  behind := Nat.le_refl 0
  sentBehind offset mem := by cases mem
  current isWaiting := by cases isWaiting
  forward request count mem := by cases mem
  inTurn request count mem := by cases mem
  fresh request state _ mem := by cases mem
  paced _ := by simp [create, Client.initial]
  answers := Nat.zero_le _
  waits isWaiting := by cases isWaiting
  known answer mem := by cases mem

end Aavishield.Transfers
