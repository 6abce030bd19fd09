import Aavishield.Dataplane.Tables
import Aavishield.Lib.Paging
import Aavishield.Lib.TransitionSystem

/-!
# Moving an organisation's history

`MoveHistory` copies what an organisation has in Aavishield's storage into the company's
own database, its own bucket, or both, and then deletes Aavishield's copy.  A step is one
query, one write, or the copying of one image; its label says how that comes out.  A run
may be followed by others, with whatever is connected by then.

The model has no other writer to the three tables: data residency is on before a move
starts, so that new data already goes to the company.
-/

namespace Aavishield.Dataplane.Mover

open Paging

/-- `eachBatch`, the size of a page of `EachEvent`. -/
def eachBatch : ℕ := 2000

def batchSize : ℕ := 500

def shotPage : ℕ := 200

/-- Where a page of `EachEvent` starts: strictly after a key, or at the first event. -/
abbrev Keyset := Option (ℤ ×ₗ ℕ)

inductive Phase where
  | counting
  | eventPage (last : Keyset)
  /-- Events of a page are still to be taken; then the next page starts at `next`, if any. -/
  | events (pending : List ActivityEvent) (next : Option Keyset)
  | flushing (pending : List ActivityEvent) (next : Option Keyset)
  /-- `insertSkippingDuplicates` one by one. -/
  | flushingEach (rows pending : List ActivityEvent) (next : Option Keyset)
  | readingSessions
  | sessions (pending : List WorkSession)
  | shotPage
  | shots (pending : List Screenshot) (full progressed : Bool)
  | deletingEvents
  | deletingScreenshots
  | deletingSessions
  | deletingImages (keys : List String)

structure Run where
  toDatabase : Bool
  moveImages : Bool
  phase : Phase
  batch : List ActivityEvent
  /-- `cursor` and `seenAtCursor`. -/
  position : Position UUID Time
  movedKeys : List String

/-- Both databases, both file stores and the run between them. -/
structure State where
  source : Tables
  destination : Tables
  primaryFiles : List String
  tenantFiles : List String
  run : Option Run
  /-- The source when the last run started, and whether it had a database to move to. -/
  original : Tables
  toDatabase : Bool
  /-- The last run has reached its delete step. -/
  removing : Bool

/-- What becomes of an image that `copyObject` is asked to copy. -/
inductive Copy where
  | gone
  /-- Reading it, resolving the company's bucket, or storing it fails. -/
  | failed
  /-- The company's bucket is not connected any more: it is put where it is. -/
  | kept
  | moved

structure Delete where
  deleted : Bool
  succeeds : Bool

/-- What a run asks of a database or a file store, and what it answers. -/
inductive Action where
  | start (toDatabase moveImages : Bool)
  | count (succeeds : Bool)
  | readEvents (succeeds : Bool)
  | takeEvent
  | flush (write : Write)
  | flushOne (write : Write)
  | readSessions (succeeds : Bool)
  | copySession (write : Write)
  /-- The rows a query for screenshots selects, in the order the database has them in. -/
  | readShots (answer : Option (List Screenshot))
  | takeShot (copy : Copy) (write : Write) (updated : Bool)
  | endPage
  | delete (outcome : Delete)
  | deleteImage (deleted : Bool)

def State.start (state : State) (toDatabase moveImages : Bool) : State :=
  { state with
    run := some
      { toDatabase, moveImages
        phase := if toDatabase then .counting else .shotPage
        batch := [], position := ⟨0, []⟩, movedKeys := [] }
    original := state.source
    toDatabase
    removing := false }

def State.finish (state : State) : State := { state with run := none }

def State.goto (state : State) (run : Run) (phase : Phase) : State :=
  { state with run := some { run with phase } }

def follows (last : Keyset) (event : ActivityEvent) : Bool :=
  match last with
  | none => true
  | some key => decide (key < event.orderKey)

def eventPage (events : Table ActivityEvent) (last : Keyset) : List ActivityEvent :=
  ((events.rows.filter (follows last)).insertionSort (·.orderKey ≤ ·.orderKey)).take eachBatch

def nextPage (page : List ActivityEvent) : Option Keyset :=
  if page.length < eachBatch then none
  else page.getLast?.map fun last =>
    if last.id = UUID.zero then none else some last.orderKey

def State.readEvents (state : State) (run : Run) (last : Keyset) : State :=
  let page := eventPage state.source.events last
  state.goto run (.events page (nextPage page))

/-- The callback of `EachEvent`, and after the last page what remains in the batch. -/
def State.takeEvent (state : State) (run : Run) (pending : List ActivityEvent)
    (next : Option Keyset) : State :=
  match pending with
  | event :: rest =>
    let batch := run.batch ++ [event]
    state.goto { run with batch } <|
      if batch.length = batchSize then .flushing rest next else .events rest next
  | [] =>
    match next with
    | some last => state.goto run (.eventPage last)
    | none => state.goto run (if run.batch = [] then .readingSessions else .flushing [] none)

def State.flush (state : State) (run : Run) (pending : List ActivityEvent)
    (next : Option Keyset) (write : Write) : State :=
  let events := write.apply state.destination.events run.batch
  let written := { state with destination := { state.destination with events } }
  match write with
  | .ok => written.goto { run with batch := [] } (.events pending next)
  | .duplicateKey _ => written.goto run (.flushingEach run.batch pending next)
  | .failed _ => written.finish

def State.flushOne (state : State) (run : Run) (event : ActivityEvent)
    (rest pending : List ActivityEvent) (next : Option Keyset) (write : Write) : State :=
  let events := write.apply state.destination.events [event]
  let written := { state with destination := { state.destination with events } }
  match write with
  | .failed _ => written.finish
  | _ => written.goto run (.flushingEach rest pending next)

def State.copySession (state : State) (run : Run) (session : WorkSession)
    (rest : List WorkSession) (write : Write) : State :=
  let sessions := write.apply state.destination.sessions [session]
  let written := { state with destination := { state.destination with sessions } }
  match write with
  | .failed _ => written.finish
  | _ => written.goto run (.sessions rest)

/-- `CapturedSince`, which does not restrict the query when it is the zero time. -/
def capturedSince (cursor : Time) (shot : Screenshot) : Bool :=
  decide (cursor = 0) || decide (cursor ≤ shot.capturedAt)

def ordered (rows : List Screenshot) (cursor : Time) (order : List Screenshot) : Bool :=
  decide (order.Perm (rows.filter (capturedSince cursor))) &&
    decide (order.Pairwise (·.capturedAt ≤ ·.capturedAt))

def State.readShots (state : State) (run : Run) (order : List Screenshot) : State :=
  let page := order.take shotPage
  state.goto run (.shots page (decide (page.length = shotPage)) false)

def State.moveImage (state : State) (run : Run) (shot : Screenshot) (copy : Copy) :
    Option (State × Run × StoredKey) :=
  match shot.storageKey with
  | .tenant _ => some (state, run, shot.storageKey)
  | .primary key =>
    if run.moveImages then
      match copy with
      | .gone => some (state, run, shot.storageKey)
      | .failed => none
      | .kept => some (state, { run with movedKeys := run.movedKeys ++ [key] }, shot.storageKey)
      | .moved => some ({ state with tenantFiles := key :: state.tenantFiles },
          { run with movedKeys := run.movedKeys ++ [key] }, .tenant key)
    else some (state, run, shot.storageKey)

/-- `Update("storage_key", …)`, whose error the mover does not look at. -/
def repoint (screenshots : Table Screenshot) (id : UUID) (storageKey : StoredKey)
    (updated : Bool) : Table Screenshot :=
  screenshots.update
    (fun row => if row.id = id ∧ updated = true then { row with storageKey } else row)
    fun row => by split_ifs <;> rfl

/-- The part that records the image: a row in the company's database, or a new key here. -/
def State.recordShot (state : State) (run : Run) (shot : Screenshot) (storageKey : StoredKey)
    (write : Write) (updated : Bool) (phase : Phase) : State :=
  if run.toDatabase then
    let screenshots := write.apply state.destination.screenshots [{ shot with storageKey }]
    let written := { state with destination := { state.destination with screenshots } }
    match write with
    | .failed _ => written.finish
    | _ => written.goto run phase
  else if storageKey = shot.storageKey then state.goto run phase
  else
    let screenshots := repoint state.source.screenshots shot.id storageKey updated
    { state.goto run phase with source := { state.source with screenshots } }

def State.takeShot (state : State) (run : Run) (shot : Screenshot) (rest : List Screenshot)
    (full progressed : Bool) (copy : Copy) (write : Write) (updated : Bool) : State :=
  if shot.id ∈ run.position.seen then state.goto run (.shots rest full progressed)
  else
    let position := run.position.visit Screenshot.id Screenshot.capturedAt shot
    match state.moveImage { run with position } shot copy with
    | none => state.finish
    | some (copied, run, storageKey) =>
      copied.recordShot run shot storageKey write updated (.shots rest full true)

def State.endPage (state : State) (run : Run) (full progressed : Bool) : State :=
  if progressed && full then state.goto run .shotPage
  else if run.toDatabase then { state.goto run .deletingEvents with removing := true }
  else { state.goto run (.deletingImages run.movedKeys) with removing := true }

def State.delete (state : State) (run : Run) (outcome : Delete) (emptied : Tables)
    (next : Phase) : State :=
  let deleted := if outcome.deleted then { state with source := emptied } else state
  if outcome.succeeds then deleted.goto run next else deleted.finish

def State.canTake (state : State) (run : Run) (shot : Screenshot) (copy : Copy)
    (write : Write) : Bool :=
  (match copy with
    | .kept | .moved => decide (shot.storageKey.object ∈ state.primaryFiles)
    | _ => true) &&
  (!run.toDatabase || write.possible state.destination.screenshots [shot])

/-- A run goes on from phase to phase. -/
def step (state : State) (action : Action) : Option State :=
  match state.run with
  | none =>
    match action with
    | .start toDatabase moveImages =>
      if toDatabase || moveImages then some (state.start toDatabase moveImages) else none
    | _ => none
  | some run =>
    match run.phase, action with
    | .counting, .count succeeds =>
      some (if succeeds then state.goto run (.eventPage none) else state.finish)
    | .eventPage last, .readEvents succeeds =>
      some (if succeeds then state.readEvents run last else state.finish)
    | .events pending next, .takeEvent => some (state.takeEvent run pending next)
    | .flushing pending next, .flush write =>
      if write.possible state.destination.events run.batch then
        some (state.flush run pending next write)
      else none
    | .flushingEach (event :: rest) pending next, .flushOne write =>
      if write.possible state.destination.events [event] then
        some (state.flushOne run event rest pending next write)
      else none
    | .flushingEach [] pending next, .takeEvent =>
      some (state.goto { run with batch := [] } (.events pending next))
    | .readingSessions, .readSessions succeeds =>
      some (if succeeds then state.goto run (.sessions state.source.sessions.rows)
        else state.finish)
    | .sessions (session :: rest), .copySession write =>
      if write.possible state.destination.sessions [session] then
        some (state.copySession run session rest write)
      else none
    | .sessions [], .endPage => some (state.goto run .shotPage)
    | .shotPage, .readShots none => some state.finish
    | .shotPage, .readShots (some order) =>
      if ordered state.source.screenshots.rows run.position.cursor order then
        some (state.readShots run order)
      else none
    | .shots (shot :: rest) full progressed, .takeShot copy write updated =>
      if state.canTake run shot copy write then
        some (state.takeShot run shot rest full progressed copy write updated)
      else none
    | .shots [] full progressed, .endPage => some (state.endPage run full progressed)
    | .deletingEvents, .delete outcome =>
      some (state.delete run outcome { state.source with events := .empty }
        .deletingScreenshots)
    | .deletingScreenshots, .delete outcome =>
      some (state.delete run outcome { state.source with screenshots := .empty }
        .deletingSessions)
    | .deletingSessions, .delete outcome =>
      some (state.delete run outcome { state.source with sessions := .empty }
        (.deletingImages run.movedKeys))
    | .deletingImages (key :: keys), .deleteImage deleted =>
      some { state.goto run (.deletingImages keys) with
        primaryFiles := if deleted then state.primaryFiles.erase key else state.primaryFiles }
    | .deletingImages [], .endPage => some state.finish
    | _, _ => none

def State.initial (source destination : Tables) (primaryFiles tenantFiles : List String) :
    State where
  source := source
  destination := destination
  primaryFiles := primaryFiles
  tenantFiles := tenantFiles
  run := none
  original := source
  toDatabase := false
  removing := false

end Aavishield.Dataplane.Mover
