import Aavishield.Dataplane.Event
import Aavishield.Lib.TransitionSystem
import Mathlib.Data.List.DropRight

/-!
# The spool of held events

When an organization's own database is unreachable, `spoolEvents` seals the
events into a batch and pushes it on a Redis list; `flushOrg` later reads the
tail of the list, writes the batches to the tenant store and trims them away.

The Redis keys and the tenant stores of two organizations are disjoint, so the
model is one organization's list and store.  Every Redis command is one step,
and so is every write to the store, in whatever order the requests and the
flushes of any number of admin-api instances take them.
-/

namespace Aavishield.Dataplane.Spool

def spoolTTL : ℕ := 72 * 60 * 60 * 10 ^ 9

def spoolMaxBatches : ℕ := 20000

def flushBatches : ℕ := 50

/-- What a batch holds: `dedupeKey` is not part of an event's JSON and travels beside it. -/
structure SpooledBatch where
  events : List ActivityEvent
  dedupeKeys : List String

def dedupeKeys (events : List ActivityEvent) : List String :=
  events.map (·.dedupeKey)

/-- The batch as it survives `json.Marshal`, which leaves out every event's `dedupeKey`. -/
def marshal (events : List ActivityEvent) : SpooledBatch where
  events := events.map fun event => { event with dedupeKey := "" }
  dedupeKeys := dedupeKeys events

def restoreKeys (batch : SpooledBatch) : List ActivityEvent :=
  batch.events.mapIdx fun index event =>
    match batch.dedupeKeys[index]? with
    | some key => { event with dedupeKey := key }
    | none => event

/--
Sealing with AES-256-GCM under a process's key.  `openBatch` is `Open` followed by
`json.Unmarshal`; it fails for a value sealed under another key, and what it
returns is what was sealed, since the encryption is authenticated.
-/
structure Sealing (Key Sealed : Type) where
  sealBatch : Key → SpooledBatch → Option Sealed
  openBatch : Key → Sealed → Option SpooledBatch
  authentic : ∀ {sealKey openKey batch opened sealed}, sealBatch sealKey batch = some sealed →
    openBatch openKey sealed = some opened → opened = batch

/--
One element of the Redis list.  The code stores only the sealed text; the number
of the push and the events it was made of are kept to state what becomes of it.
-/
structure Held (Sealed : Type) where
  seq : ℕ
  events : List ActivityEvent
  sealed : Sealed

/-- How `InsertEvents` ends, with the number of rows that were written when it fails. -/
inductive InsertOutcome where
  | ok
  | duplicate (rows : ℕ)
  | failed (rows : ℕ)

/-- What a client knows of a command: carried out and answered, carried out unheard, or never sent. -/
inductive Reply where
  | answered
  | unanswered
  | unsent
  deriving DecidableEq

inductive Phase where
  | walk
  | retry (batch rest : List ActivityEvent)
  | trim

/-- The errors `flushOrg` ends with once it has read the list. -/
inductive FlushError where
  | trimFailed
  | stillWaiting (batches : ℕ)

/-- The local variables of one running `flushOrg`. -/
structure Flush (Key Sealed : Type) where
  key : Key
  items : List (Held Sealed)
  delivered : ℕ
  events : ℕ
  phase : Phase

/--
The organization's Redis list and tenant rows, the flushes that are running, and
the record of what happened to the batches pushed so far.
-/
structure State (Key Sealed : Type) where
  now : ℕ
  list : List (Held Sealed)
  expireAt : Option ℕ
  rows : List ActivityEvent
  flushes : ℕ → Option (Flush Key Sealed)
  pushed : List (Held Sealed)
  delivered : List ℕ
  unreadable : List ℕ
  cut : List (ℕ × List ℕ)
  expired : List ℕ
  results : List (ℕ × Option FlushError)

/-- A step of a report or of a flush, or time that passes. -/
inductive Action (Key : Type) where
  | spoolEvents (key : Key) (fresh : ℕ → UUID) (events : List ActivityEvent) (reply : Reply)
  | recordEvents (events : List ActivityEvent)
  | flushStart (flush : ℕ) (key : Key)
  | flushBatch (flush : ℕ) (outcome : InsertOutcome)
  | flushEvent (flush : ℕ) (outcome : InsertOutcome)
  | flushTrim (flush : ℕ) (reply : Reply)
  | tick (elapsed : ℕ)
  | expire

variable {Key Sealed : Type}

def State.initial : State Key Sealed where
  now := 0
  list := []
  expireAt := none
  rows := []
  flushes := fun _ => none
  pushed := []
  delivered := []
  unreadable := []
  cut := []
  expired := []
  results := []

/-- The identifier and creation time that `spoolEvents` gives to an event without them. -/
def stamp (fresh : UUID) (now : Time) (event : ActivityEvent) : ActivityEvent :=
  { event with
    id := if event.id = UUID.zero then fresh else event.id
    createdAt := if event.createdAt.isZero then now else event.createdAt }

/-- The transaction `LPUSH key sealed; LTRIM key 0 spoolMaxBatches-1; EXPIRE key spoolTTL`. -/
def State.push (state : State Key Sealed) (held : Held Sealed) : State Key Sealed :=
  let grown := held :: state.list
  let kept := grown.take spoolMaxBatches
  { state with
    list := kept
    expireAt := some (state.now + spoolTTL)
    pushed := held :: state.pushed
    cut := (grown.drop spoolMaxBatches).map (fun lost => (lost.seq, kept.map (·.seq))) ++
      state.cut }

/-- `spoolEvents`: events that cannot be sealed or sent are lost to the caller's error. -/
def State.spoolEvents (sealing : Sealing Key Sealed) (state : State Key Sealed) (key : Key)
    (fresh : ℕ → UUID) (events : List ActivityEvent) (reply : Reply) : State Key Sealed :=
  let stamped := events.mapIdx fun index event => stamp (fresh index) state.now event
  match sealing.sealBatch key (marshal stamped) with
  | none => state
  | some sealed =>
    if reply = .unsent then state else state.push ⟨state.pushed.length, stamped, sealed⟩

def State.setFlush (state : State Key Sealed) (id : ℕ) (flush : Option (Flush Key Sealed)) :
    State Key Sealed :=
  { state with flushes := Function.update state.flushes id flush }

/-- `LRANGE key -flushBatches -1`: the oldest batches, the newest of them first. -/
def State.flushStart (state : State Key Sealed) (id : ℕ) (key : Key) : State Key Sealed :=
  state.setFlush id (some ⟨key, state.list.rtake flushBatches, 0, 0, .walk⟩)

def Flush.current (flush : Flush Key Sealed) : Option (Held Sealed) :=
  flush.items.reverse[flush.delivered]?

def Flush.done (flush : Flush Key Sealed) : List (Held Sealed) :=
  flush.items.reverse.take flush.delivered

/-- A batch that cannot be opened is dropped rather than left to block the queue. -/
def State.skipUnreadable (state : State Key Sealed) (id : ℕ) (flush : Flush Key Sealed)
    (held : Held Sealed) : State Key Sealed :=
  { state.setFlush id (some { flush with delivered := flush.delivered + 1 }) with
    unreadable := held.seq :: state.unreadable }

def State.finishBatch (state : State Key Sealed) (id : ℕ) (flush : Flush Key Sealed)
    (held : Held Sealed) (batch : List ActivityEvent) : State Key Sealed :=
  { state.setFlush id (some { flush with
      delivered := flush.delivered + 1
      events := flush.events + batch.length
      phase := .walk }) with
    delivered := held.seq :: state.delivered }

/-- The rows a call of `InsertEvents` leaves in the store. -/
def State.insertEvents (state : State Key Sealed) (events : List ActivityEvent) :
    InsertOutcome → State Key Sealed
  | .ok => { state with rows := events ++ state.rows }
  | .duplicate rows | .failed rows => { state with rows := events.take rows ++ state.rows }

/-- One iteration of the loop over the fetched batches, up to the first `InsertEvents`. -/
def State.flushBatch (sealing : Sealing Key Sealed) (state : State Key Sealed) (id : ℕ)
    (flush : Flush Key Sealed) (held : Held Sealed) (outcome : InsertOutcome) :
    State Key Sealed :=
  match sealing.openBatch flush.key held.sealed with
  | none => state.skipUnreadable id flush held
  | some batch =>
    let events := restoreKeys batch
    let written := state.insertEvents events outcome
    match outcome with
    | .ok => written.finishBatch id flush held events
    | .duplicate _ => written.setFlush id (some { flush with phase := .retry events events })
    | .failed _ => written.setFlush id (some { flush with phase := .trim })

def State.flushEvent (state : State Key Sealed) (id : ℕ) (flush : Flush Key Sealed)
    (batch : List ActivityEvent) (event : ActivityEvent) (rest : List ActivityEvent)
    (outcome : InsertOutcome) : Option (State Key Sealed) :=
  let written := state.insertEvents [event] outcome
  let next := written.setFlush id (some { flush with phase := .retry batch rest })
  match outcome with
  | .ok => some next
  | .duplicate _ => if state.rows.any (·.id = event.id) then some next else none
  | .failed _ => some (written.setFlush id (some { flush with phase := .trim }))

/-- What `flushOrg` returns: the events it delivered, and why it stopped short of the rest. -/
def Flush.result (flush : Flush Key Sealed) (reply : Reply) : ℕ × Option FlushError :=
  if 0 < flush.delivered ∧ reply ≠ .answered then (flush.events, some .trimFailed)
  else if flush.delivered < flush.items.length then
    (flush.events, some (.stillWaiting (flush.items.length - flush.delivered)))
  else (flush.events, none)

/-- `LTRIM key 0 -delivered-1`: drops as many batches from the tail as the flush delivered. -/
def State.flushTrim (state : State Key Sealed) (id : ℕ) (flush : Flush Key Sealed)
    (reply : Reply) : State Key Sealed :=
  let returned := { state.setFlush id none with results := flush.result reply :: state.results }
  if 0 < flush.delivered ∧ reply ≠ .unsent then
    let kept := state.list.rdrop flush.delivered
    { returned with
      list := kept
      expireAt := if kept.isEmpty then none else state.expireAt }
  else returned

def Flush.pastLoop (flush : Flush Key Sealed) : Bool :=
  match flush.phase with
  | .trim => true
  | .walk => flush.delivered == flush.items.length
  | .retry _ _ => false

def State.expire (state : State Key Sealed) : Option (State Key Sealed) :=
  match state.expireAt with
  | some deadline =>
    if deadline ≤ state.now then
      some { state with
        list := []
        expireAt := none
        expired := state.list.map (·.seq) ++ state.expired }
    else none
  | none => none

/-- Flushes of several instances interleave. -/
def step (sealing : Sealing Key Sealed) (state : State Key Sealed) :
    Action Key → Option (State Key Sealed)
  | .spoolEvents key fresh events reply => some (state.spoolEvents sealing key fresh events reply)
  | .recordEvents events => some { state with rows := events ++ state.rows }
  | .flushStart id key =>
    match state.flushes id with
    | none => some (state.flushStart id key)
    | some _ => none
  | .flushBatch id outcome =>
    match state.flushes id with
    | some flush =>
      match flush.phase, flush.current with
      | .walk, some held => some (state.flushBatch sealing id flush held outcome)
      | _, _ => none
    | none => none
  | .flushEvent id outcome =>
    match state.flushes id with
    | some flush =>
      match flush.phase, flush.current with
      | .retry batch [], some held => some (state.finishBatch id flush held batch)
      | .retry batch (event :: rest), some _ =>
        state.flushEvent id flush batch event rest outcome
      | _, _ => none
    | none => none
  | .flushTrim id reply =>
    match state.flushes id with
    | some flush => if flush.pastLoop then some (state.flushTrim id flush reply) else none
    | none => none
  | .tick elapsed => some { state with now := state.now + elapsed }
  | .expire => state.expire

end Aavishield.Dataplane.Spool
