import Aavishield.Dataplane.Mover

/-!
# Moving loses no row

Before the mover deletes anything it must have copied everything.  For events and sessions
it has.  Screenshots it pages by their capture time, and stops at a full page in which
nothing is new: so a page's worth of screenshots taken at one instant hides what follows.
-/

namespace Aavishield.Dataplane.Mover

open Paging TransitionSystem

/-- Everything that the delete step is about to remove is in the company's database. -/
structure Covered (source destination : Tables) : Prop where
  events : ∀ event ∈ source.events.rows, destination.events.Holds event.id
  sessions : ∀ session ∈ source.sessions.rows, destination.sessions.Holds session.id
  screenshots : ∀ shot ∈ source.screenshots.rows, destination.screenshots.Holds shot.id

structure SameRows (source original : Tables) : Prop where
  events : source.events = original.events
  sessions : source.sessions = original.sessions
  screenshots : source.screenshots.rows.map (fun shot => (shot.id, shot.capturedAt)) =
    original.screenshots.rows.map fun shot => (shot.id, shot.capturedAt)

def Phase.deletesRows : Phase → Bool
  | .deletingEvents | .deletingScreenshots | .deletingSessions => true
  | _ => false

/--
At the delete step everything is covered; and as long as a run has not reached it the
source is what it was, except that a move to a bucket alone re-points rows in place.
-/
structure State.LosesNothing (state : State) : Prop where
  covered : ∀ run, state.run = some run → run.phase.deletesRows = true →
    Covered state.source state.destination
  unchanged : state.removing = false → SameRows state.source state.original ∧
    (state.toDatabase = true → state.source = state.original)

/-- Whatever is in the company's storage, and however reads and writes come out. -/
def MovesWithoutLoss (source : Tables) : Prop :=
  ∀ destination primaryFiles tenantFiles trace final,
    exec step (State.initial source destination primaryFiles tenantFiles) trace = some final →
      final.LosesNothing

/-- More rows were made in one instant than fit on a page. -/
def CrowdedInstant (source : Tables) : Prop :=
  Crowded Screenshot.capturedAt shotPage source.screenshots.rows

def Ahead (next : Option Keyset) (event : ActivityEvent) : Prop :=
  ∃ last ∈ next, follows last event = true

def EventsAccounted (source destination : Tables) (hands : List ActivityEvent)
    (next : Option Keyset) : Prop :=
  ∀ event ∈ source.events.rows,
    destination.events.Holds event.id ∨ event ∈ hands ∨ Ahead next event

def SessionsAccounted (source destination : Tables) (hands : List WorkSession) : Prop :=
  ∀ session ∈ source.sessions.rows, destination.sessions.Holds session.id ∨ session ∈ hands

abbrev ShotsResting (source destination : Tables) (position : Position UUID Time) : Prop :=
  Resting Screenshot.id Screenshot.capturedAt capturedSince source.screenshots.rows
    destination.screenshots.Holds position

abbrev ShotsMidway (source destination : Tables) (position : Position UUID Time)
    (pending : List Screenshot) (full progressed : Bool) : Prop :=
  Midway Screenshot.id Screenshot.capturedAt capturedSince shotPage source.screenshots.rows
    destination.screenshots.Holds position pending full progressed

def Run.Accounts (run : Run) (source destination : Tables) : Prop :=
  match run.phase with
  | .counting => run.batch = [] ∧ run.position = ⟨0, []⟩
  | .eventPage last =>
    EventsAccounted source destination run.batch (some last) ∧ run.position = ⟨0, []⟩
  | .events pending next | .flushing pending next =>
    EventsAccounted source destination (run.batch ++ pending) next ∧ run.position = ⟨0, []⟩
  | .flushingEach rows pending next =>
    EventsAccounted source destination (rows ++ pending) next ∧ run.position = ⟨0, []⟩
  | .readingSessions =>
    EventsAccounted source destination [] none ∧ run.position = ⟨0, []⟩
  | .sessions pending =>
    EventsAccounted source destination [] none ∧ SessionsAccounted source destination pending ∧
      run.position = ⟨0, []⟩
  | .shotPage =>
    run.toDatabase = true → EventsAccounted source destination [] none ∧
      SessionsAccounted source destination [] ∧ ShotsResting source destination run.position
  | .shots pending full progressed =>
    run.toDatabase = true → EventsAccounted source destination [] none ∧
      SessionsAccounted source destination [] ∧
        ShotsMidway source destination run.position pending full progressed
  | .deletingEvents | .deletingScreenshots | .deletingSessions => Covered source destination
  | .deletingImages _ => True

def Phase.deletes : Phase → Bool
  | .deletingEvents | .deletingScreenshots | .deletingSessions | .deletingImages _ => true
  | _ => false

section Events

variable {source destination : Tables} {hands : List ActivityEvent} {next : Option Keyset}

theorem EventsAccounted.mono {events : Table ActivityEvent}
    (accounted : EventsAccounted source destination hands next)
    (grows : ∀ id, destination.events.Holds id → events.Holds id) :
    EventsAccounted source { destination with events } hands next := by
  intro event eventMem
  rcases accounted event eventMem with arrived | inHands | ahead
  · exact .inl (grows _ arrived)
  · exact .inr (.inl inHands)
  · exact .inr (.inr ahead)

theorem EventsAccounted.all (accounted : EventsAccounted source destination [] none) :
    ∀ event ∈ source.events.rows, destination.events.Holds event.id := by
  intro event eventMem
  rcases accounted event eventMem with arrived | inHands | ahead
  · exact arrived
  · cases inHands
  · rcases ahead with ⟨last, isNone, -⟩
    cases isNone

theorem sorted_strictly (events : Table ActivityEvent) (last : Keyset) :
    ((events.rows.filter (follows last)).insertionSort (·.orderKey ≤ ·.orderKey)).Pairwise
      (·.orderKey < ·.orderKey) := by
  have sorted := List.pairwise_insertionSort (fun first second : ActivityEvent =>
    first.orderKey ≤ second.orderKey) (events.rows.filter (follows last))
  have nodup : ((events.rows.filter (follows last)).insertionSort
      (·.orderKey ≤ ·.orderKey)).Nodup :=
    (List.perm_insertionSort _ _).nodup_iff.mpr (events.nodup.filter _)
  apply List.Pairwise.imp_of_mem _ (sorted.and nodup)
  intro first second firstMem secondMem ordered
  apply lt_of_le_of_ne ordered.1
  intro sameKey
  simp only [List.mem_insertionSort, List.mem_filter] at firstMem secondMem
  exact ordered.2 (events.eq_of_id_eq firstMem.1 secondMem.1
    (ActivityEvent.id_eq_of_orderKey_eq sameKey))

/-- Reading a page takes what lies ahead into the mover's hands, or leaves it ahead. -/
theorem EventsAccounted.readPage {last : Keyset}
    (accounted : EventsAccounted source destination hands (some last)) :
    EventsAccounted source destination (hands ++ eventPage source.events last)
      (nextPage (eventPage source.events last)) := by
  intro event eventMem
  rcases accounted event eventMem with arrived | inHands | ⟨key, isLast, ahead⟩
  · exact .inl arrived
  · exact .inr (.inl (List.mem_append_left _ inHands))
  · right
    cases isLast
    have selected : event ∈
        (source.events.rows.filter (follows last)).insertionSort (·.orderKey ≤ ·.orderKey) := by
      simpa using ⟨eventMem, ahead⟩
    have place : event ∈ eventPage source.events last ∨
        ∀ first ∈ eventPage source.events last, first.orderKey < event.orderKey :=
      mem_take_or_lt (sorted_strictly source.events last) selected
    rcases place with taken | after
    · left
      exact List.mem_append_right _ taken
    · by_cases short : (eventPage source.events last).length < eachBatch
      · left
        apply List.mem_append_right
        have whole : eventPage source.events last =
            (source.events.rows.filter (follows last)).insertionSort (·.orderKey ≤ ·.orderKey) := by
          apply List.take_of_length_le
          simp only [eventPage, List.length_take] at short
          omega
        rw [whole]
        exact selected
      · right
        have nonempty : eventPage source.events last ≠ [] := by
          intro empty
          simp [empty, eachBatch] at short
        have isLast := List.getLast?_eq_some_getLast nonempty
        simp only [nextPage, short, if_false, isLast, Option.map_some]
        refine ⟨_, rfl, ?_⟩
        split_ifs
        · rfl
        · exact decide_eq_true (after _ (List.getLast_mem nonempty))

theorem EventsAccounted.putDown {pending : List ActivityEvent} {events : Table ActivityEvent}
    (accounted : EventsAccounted source destination (hands ++ pending) next)
    (grows : ∀ id, destination.events.Holds id → events.Holds id)
    (arrived : ∀ event ∈ hands, events.Holds event.id) :
    EventsAccounted source { destination with events } pending next := by
  intro event eventMem
  rcases accounted.mono grows event eventMem with before | inHands | ahead
  · exact .inl before
  · rcases List.mem_append.mp inHands with now | later
    · exact .inl (arrived event now)
    · exact .inr (.inl later)
  · exact .inr (.inr ahead)

end Events

section Screenshots

variable {source destination : Tables} {position : Position UUID Time}

theorem SessionsAccounted.putDown {session : WorkSession} {rest : List WorkSession}
    {sessions : Table WorkSession}
    (accounted : SessionsAccounted source destination (session :: rest))
    (grows : ∀ id, destination.sessions.Holds id → sessions.Holds id)
    (arrived : sessions.Holds session.id) :
    SessionsAccounted source { destination with sessions } rest := by
  intro other otherMem
  rcases accounted other otherMem with before | inHands
  · exact .inl (grows _ before)
  · rcases List.mem_cons.mp inHands with rfl | later
    · exact .inl arrived
    · exact .inr later

theorem SessionsAccounted.all (accounted : SessionsAccounted source destination []) :
    ∀ session ∈ source.sessions.rows, destination.sessions.Holds session.id := by
  intro session sessionMem
  rcases accounted session sessionMem with arrived | inHands
  · exact arrived
  · cases inHands

theorem shotsResting_start : ShotsResting source destination ⟨0, []⟩ := by
  apply Resting.start
  · rfl
  · intro shot _
    simp [capturedSince]

theorem capturedSince_of_le (cursor : Time) (shot : Screenshot) (le : cursor ≤ shot.capturedAt) :
    capturedSince cursor shot = true := by
  simp [capturedSince, le]

theorem ShotsResting.readPage (resting : ShotsResting source destination position)
    {order : List Screenshot}
    (answered : ordered source.screenshots.rows position.cursor order = true) :
    ShotsMidway source destination position (order.take shotPage)
      (decide ((order.take shotPage).length = shotPage)) false := by
  simp only [ordered, Bool.and_eq_true, decide_eq_true_eq] at answered
  exact Resting.openPage resting source.screenshots.nodup answered.1 answered.2

theorem ShotsMidway.record {shot : Screenshot} {rest : List Screenshot} {full progressed : Bool}
    {screenshots : Table Screenshot}
    (midway : ShotsMidway source destination position (shot :: rest) full progressed)
    (grows : ∀ id, destination.screenshots.Holds id → screenshots.Holds id)
    (arrived : screenshots.Holds shot.id) :
    ShotsMidway source { destination with screenshots }
      (position.visit Screenshot.id Screenshot.capturedAt shot) rest full true :=
  Midway.visit midway capturedSince_of_le source.screenshots.distinct grows arrived

theorem repoint_rows (screenshots : Table Screenshot) (id : UUID) (storageKey : StoredKey)
    (updated : Bool) : ((repoint screenshots id storageKey updated).rows.map fun shot =>
      (shot.id, shot.capturedAt)) = screenshots.rows.map fun shot => (shot.id, shot.capturedAt) := by
  simp only [repoint, Table.update, List.map_map]
  apply List.map_congr_left
  intro row _
  simp only [Function.comp_apply]
  split_ifs <;> rfl

theorem crowdedInstant_repoint (id : UUID) (storageKey : StoredKey) (updated : Bool) :
    CrowdedInstant { source with
        screenshots := repoint source.screenshots id storageKey updated } ↔
      CrowdedInstant source := by
  apply crowded_map
  intro shot
  split_ifs <;> rfl

end Screenshots

/-- What does not depend on how far the run has come. -/
structure State.Sound (state : State) : Prop where
  uncrowded : ¬CrowdedInstant state.source
  unchanged : state.removing = false → SameRows state.source state.original ∧
    (state.toDatabase = true → state.source = state.original)

structure State.Accounts (state : State) (run : Run) : Prop where
  rows : run.Accounts state.source state.destination
  database : run.toDatabase = state.toDatabase
  removing : run.phase.deletes = true → state.removing = true

structure State.Invariant (state : State) : Prop extends State.Sound state where
  accounts : ∀ run, state.run = some run → state.Accounts run

section Invariant

variable {state : State} {run : Run} {phase : Phase}

theorem State.Invariant.losesNothing (holds : state.Invariant) : state.LosesNothing := by
  constructor
  · intro run isRun atDelete
    have rows := (holds.accounts run isRun).rows
    unfold Run.Accounts at rows
    split at rows
    all_goals simp_all [Phase.deletesRows]
  · exact holds.unchanged

theorem State.Sound.finish (sound : state.Sound) : state.finish.Invariant := by
  refine ⟨⟨sound.uncrowded, sound.unchanged⟩, ?_⟩
  intro run isRun
  cases isRun

theorem State.Sound.goto (sound : state.Sound) (accounts : state.Accounts { run with phase }) :
    (state.goto run phase).Invariant := by
  refine ⟨⟨sound.uncrowded, sound.unchanged⟩, ?_⟩
  intro other isRun
  cases isRun
  exact ⟨accounts.rows, accounts.database, accounts.removing⟩

theorem sameRows_refl (tables : Tables) : SameRows tables tables := ⟨rfl, rfl, rfl⟩

theorem State.Sound.start (sound : state.Sound) (toDatabase moveImages : Bool) :
    (state.start toDatabase moveImages).Invariant := by
  refine ⟨⟨sound.uncrowded, fun _ => ⟨sameRows_refl _, fun _ => rfl⟩⟩, ?_⟩
  intro run isRun
  cases isRun
  cases toDatabase with
  | true => exact ⟨⟨rfl, rfl⟩, rfl, fun deletes => by cases deletes⟩
  | false => exact ⟨fun database => (by cases database), rfl, fun deletes => by cases deletes⟩

theorem State.Accounts.onwards (old : state.Accounts run) {next : Run}
    (nextRows : next.Accounts state.source state.destination) (database : next.toDatabase = run.toDatabase) (before : next.phase.deletes = false) :
    state.Accounts next := by
  refine ⟨nextRows, database.trans old.database, ?_⟩
  intro deletes
  rw [before] at deletes
  cases deletes

theorem State.Sound.into (sound : state.Sound) (destination : Tables) :
    State.Sound { state with destination } :=
  ⟨sound.uncrowded, sound.unchanged⟩

theorem State.Invariant.readEvents {last : Keyset} (holds : state.Invariant)
    (isRun : state.run = some run) (isPhase : run.phase = .eventPage last) :
    (state.readEvents run last).Invariant := by
  have accounts := holds.accounts run isRun
  have rows := accounts.rows
  simp only [Run.Accounts, isPhase] at rows
  apply holds.toSound.goto
  exact accounts.onwards ⟨rows.1.readPage, rows.2⟩ rfl rfl

variable {next : Option Keyset}

theorem State.Invariant.takeEvent {pending : List ActivityEvent}
    (holds : state.Invariant) (isRun : state.run = some run)
    (isPhase : run.phase = .events pending next) :
    (state.takeEvent run pending next).Invariant := by
  have accounts := holds.accounts run isRun
  have rows := accounts.rows
  simp only [Run.Accounts, isPhase] at rows
  cases pending with
  | cons event rest =>
    apply holds.toSound.goto
    have moved : run.batch ++ event :: rest = (run.batch ++ [event]) ++ rest := by simp
    rw [moved] at rows
    split_ifs
    · exact accounts.onwards rows rfl rfl
    · exact accounts.onwards rows rfl rfl
  | nil =>
    rw [List.append_nil] at rows
    cases next with
    | some last => exact holds.toSound.goto (accounts.onwards rows rfl rfl)
    | none =>
      apply holds.toSound.goto
      split_ifs with empty
      · rw [empty] at rows
        exact accounts.onwards rows rfl rfl
      · exact accounts.onwards ⟨(List.append_nil run.batch).symm ▸ rows.1, rows.2⟩ rfl rfl

variable {write : Write}

theorem State.Invariant.flush {pending : List ActivityEvent}
    (holds : state.Invariant) (isRun : state.run = some run)
    (isPhase : run.phase = .flushing pending next) :
    (state.flush run pending next write).Invariant := by
  have accounts := holds.accounts run isRun
  have rows := accounts.rows
  simp only [Run.Accounts, isPhase] at rows
  have sound := holds.toSound.into
  have grows : ∀ id, state.destination.events.Holds id →
      (write.apply state.destination.events run.batch).Holds id :=
    fun id => Write.holds_apply write
  cases write with
  | ok =>
    apply (sound _).goto
    refine ⟨⟨?_, rows.2⟩, accounts.database, fun deletes => by cases deletes⟩
    exact rows.1.putDown grows fun event eventMem => Write.holds_of_ok eventMem
  | duplicateKey landed =>
    apply (sound _).goto
    exact ⟨⟨rows.1.mono grows, rows.2⟩, accounts.database, fun deletes => by cases deletes⟩
  | failed landed => exact (sound _).finish

theorem State.Invariant.flushOne {event : ActivityEvent} {rest pending : List ActivityEvent}
    (holds : state.Invariant)
    (isRun : state.run = some run) (isPhase : run.phase = .flushingEach (event :: rest) pending next)
    (possible : write.possible state.destination.events [event] = true) :
    (state.flushOne run event rest pending next write).Invariant := by
  have accounts := holds.accounts run isRun
  have rows := accounts.rows
  simp only [Run.Accounts, isPhase] at rows
  have grows : ∀ id, state.destination.events.Holds id →
      (write.apply state.destination.events [event]).Holds id :=
    fun id => Write.holds_apply write
  have further : (∀ landed, write ≠ .failed landed) → State.Accounts { state with
      destination := { state.destination with
        events := write.apply state.destination.events [event] } }
      { run with phase := .flushingEach rest pending next } := by
    intro succeeds
    refine ⟨⟨?_, rows.2⟩, accounts.database, fun deletes => by cases deletes⟩
    have inHand : EventsAccounted state.source state.destination ([event] ++ (rest ++ pending))
        next := rows.1
    apply inHand.putDown grows
    intro other otherMem
    cases List.mem_singleton.mp otherMem
    exact Write.holds_of_single possible succeeds
  cases write with
  | ok | duplicateKey landed => exact (holds.toSound.into _).goto (further (by simp))
  | failed landed => exact (holds.toSound.into _).finish

theorem State.Invariant.copySession {session : WorkSession} {rest : List WorkSession}
    (holds : state.Invariant) (isRun : state.run = some run)
    (isPhase : run.phase = .sessions (session :: rest))
    (possible : write.possible state.destination.sessions [session] = true) :
    (state.copySession run session rest write).Invariant := by
  have accounts := holds.accounts run isRun
  have rows := accounts.rows
  simp only [Run.Accounts, isPhase] at rows
  rcases rows with ⟨events, sessions, position⟩
  have next : (∀ landed, write ≠ .failed landed) → State.Accounts { state with
      destination := { state.destination with
        sessions := write.apply state.destination.sessions [session] } }
      { run with phase := .sessions rest } := by
    intro succeeds
    refine ⟨⟨events, ?_, position⟩, accounts.database, fun deletes => by cases deletes⟩
    exact sessions.putDown (fun id => Write.holds_apply write)
      (Write.holds_of_single possible succeeds)
  cases write with
  | ok | duplicateKey landed => exact (holds.toSound.into _).goto (next (by simp))
  | failed landed => exact (holds.toSound.into _).finish

theorem State.Invariant.readShots {order : List Screenshot} (holds : state.Invariant)
    (isRun : state.run = some run) (isPhase : run.phase = .shotPage)
    (answered : ordered state.source.screenshots.rows run.position.cursor order = true) :
    (state.readShots run order).Invariant := by
  have accounts := holds.accounts run isRun
  have rows := accounts.rows
  simp only [Run.Accounts, isPhase] at rows
  apply holds.toSound.goto
  refine accounts.onwards ?_ rfl rfl
  intro database
  rcases rows database with ⟨events, sessions, resting⟩
  exact ⟨events, sessions, resting.readPage answered⟩

variable {shot : Screenshot}

/-- Moving an image touches the company's bucket and the list of moved keys, nothing else. -/
theorem State.moveImage_frame {copied : State} {next : Run} {copy : Copy} {storageKey : StoredKey}
    (moved : state.moveImage run shot copy = some (copied, next, storageKey)) :
    copied = { state with tenantFiles := copied.tenantFiles } ∧
      next = { run with movedKeys := next.movedKeys } := by
  unfold State.moveImage at moved
  split at moved
  · cases moved
    exact ⟨rfl, rfl⟩
  · split at moved
    · cases copy with
      | failed => cases moved
      | gone | kept | moved =>
        cases moved
        exact ⟨rfl, rfl⟩
    · cases moved
      exact ⟨rfl, rfl⟩

theorem State.Sound.recordShot {storageKey : StoredKey}
    {updated : Bool} (sound : state.Sound) (database : run.toDatabase = state.toDatabase)
    (before : phase.deletes = false)
    (arrived : run.toDatabase = true → (∀ landed, write ≠ .failed landed) →
      { run with phase }.Accounts state.source { state.destination with
        screenshots := write.apply state.destination.screenshots [{ shot with storageKey }] })
    (inPlace : run.toDatabase = false → ∀ source, { run with phase }.Accounts source
      state.destination) :
    (state.recordShot run shot storageKey write updated phase).Invariant := by
  have notDeleting : phase.deletes = true → state.removing = true := by
    intro deletes
    rw [before] at deletes
    cases deletes
  unfold State.recordShot
  cases toDatabase : run.toDatabase with
  | true =>
    cases write with
    | ok | duplicateKey landed =>
      exact (sound.into _).goto ⟨arrived toDatabase (by simp), database, notDeleting⟩
    | failed landed => exact (sound.into _).finish
  | false =>
    simp only [Bool.false_eq_true, if_false]
    split_ifs with sameKey
    · exact sound.goto ⟨inPlace toDatabase _, database, notDeleting⟩
    · refine ⟨⟨?_, ?_⟩, ?_⟩
      · rw [crowdedInstant_repoint]
        exact sound.uncrowded
      · intro notRemoving
        have same := (sound.unchanged notRemoving).1
        refine ⟨⟨same.events, same.sessions, ?_⟩, ?_⟩
        · exact (repoint_rows _ _ _ _).trans same.screenshots
        · intro withDatabase
          cases toDatabase.symm.trans (database.trans withDatabase)
      · intro other isRun
        cases isRun
        exact ⟨inPlace toDatabase _, database, notDeleting⟩

theorem State.Invariant.takeShot {rest : List Screenshot}
    {full progressed : Bool} {copy : Copy} {updated : Bool}
    (holds : state.Invariant) (isRun : state.run = some run)
    (isPhase : run.phase = .shots (shot :: rest) full progressed)
    (possible : state.canTake run shot copy write = true) :
    (state.takeShot run shot rest full progressed copy write updated).Invariant := by
  have accounts := holds.accounts run isRun
  have rows := accounts.rows
  simp only [Run.Accounts, isPhase] at rows
  unfold State.takeShot
  split_ifs with seen
  · apply holds.toSound.goto
    refine accounts.onwards ?_ rfl rfl
    intro database
    rcases rows database with ⟨events, sessions, midway⟩
    exact ⟨events, sessions, midway.skip seen⟩
  · simp only
    split
    · exact holds.toSound.finish
    · rename_i copied next storageKey moved
      rcases State.moveImage_frame moved with ⟨sameState, sameRun⟩
      rw [sameState, sameRun]
      have sound : State.Sound { state with tenantFiles := copied.tenantFiles } :=
        ⟨holds.uncrowded, holds.unchanged⟩
      have database : Run.toDatabase { run with
          position := run.position.visit Screenshot.id Screenshot.capturedAt shot
          movedKeys := next.movedKeys } = state.toDatabase := accounts.database
      apply sound.recordShot database rfl
      · intro withDatabase succeeds _
        rcases rows withDatabase with ⟨events, sessions, midway⟩
        simp only [State.canTake, show run.toDatabase = true from withDatabase, Bool.and_eq_true,
          Bool.not_true, Bool.false_or] at possible
        have possible : write.possible state.destination.screenshots
            [{ shot with storageKey }] = true := possible.2
        refine ⟨events, sessions, ?_⟩
        apply midway.record (fun id => Write.holds_apply write)
        exact Write.holds_of_single possible succeeds
      · intro inPlace source database
        rw [database] at inPlace
        cases inPlace

theorem State.Invariant.endPage {full progressed : Bool} (holds : state.Invariant)
    (isRun : state.run = some run) (isPhase : run.phase = .shots [] full progressed) :
    (state.endPage run full progressed).Invariant := by
  have accounts := holds.accounts run isRun
  have rows := accounts.rows
  simp only [Run.Accounts, isPhase] at rows
  unfold State.endPage
  have removing : State.Sound { state with removing := true } :=
    ⟨holds.uncrowded, fun before => by cases before⟩
  split_ifs with goesOn database
  · apply holds.toSound.goto
    refine accounts.onwards ?_ rfl rfl
    intro database
    rcases rows database with ⟨events, sessions, midway⟩
    exact ⟨events, sessions, midway.toResting⟩
  · rcases rows database with ⟨events, sessions, midway⟩
    have stops : full = false ∨ progressed = false := by
      cases full with
      | false => exact .inl rfl
      | true => exact .inr (by simpa using goesOn)
    apply removing.goto
    refine ⟨⟨events.all, sessions.all, ?_⟩, accounts.database, fun _ => rfl⟩
    exact midway.finish (by decide) holds.uncrowded stops
  · exact removing.goto ⟨trivial, accounts.database, fun _ => rfl⟩

theorem State.Invariant.delete {outcome : Delete} {emptied : Tables} {next : Phase}
    (holds : state.Invariant) (isRun : state.run = some run) (deleting : run.phase.deletes = true)
    (uncrowded : ¬CrowdedInstant emptied)
    (rows : { run with phase := next }.Accounts state.source state.destination)
    (emptiedRows : { run with phase := next }.Accounts emptied state.destination) :
    (state.delete run outcome emptied next).Invariant := by
  have accounts := holds.accounts run isRun
  have removing := accounts.removing deleting
  have nowEmpty : State.Sound { state with source := emptied } := by
    refine ⟨uncrowded, ?_⟩
    intro before
    cases removing.symm.trans before
  rcases outcome with ⟨deleted, succeeds⟩
  cases deleted with
  | true =>
    cases succeeds with
    | true => exact nowEmpty.goto ⟨emptiedRows, accounts.database, fun _ => removing⟩
    | false => exact nowEmpty.finish
  | false =>
    cases succeeds with
    | true => exact holds.toSound.goto ⟨rows, accounts.database, fun _ => removing⟩
    | false => exact holds.toSound.finish

theorem not_crowdedInstant_empty (source : Tables) :
    ¬CrowdedInstant { source with screenshots := .empty } := by
  rintro ⟨shot, shotMem, -⟩
  cases shotMem

theorem State.Invariant.step {action : Action} {next : State} (holds : state.Invariant)
    (stepped : step state action = some next) : next.Invariant := by
  unfold Mover.step at stepped
  split at stepped
  · split at stepped
    · split_ifs at stepped
      cases stepped
      exact holds.toSound.start _ _
    · cases stepped
  · rename_i run isRun
    have accounts := holds.accounts run isRun
    have rows := accounts.rows
    split at stepped
    · rename_i succeeds isPhase
      cases stepped
      cases succeeds with
      | true =>
        simp only [Run.Accounts, isPhase] at rows
        apply holds.toSound.goto
        refine accounts.onwards ⟨?_, rows.2⟩ rfl rfl
        intro event _
        exact .inr (.inr ⟨none, rfl, rfl⟩)
      | false => exact holds.toSound.finish
    · rename_i last succeeds isPhase
      cases stepped
      cases succeeds with
      | true => exact holds.readEvents isRun isPhase
      | false => exact holds.toSound.finish
    · rename_i isPhase
      cases stepped
      exact holds.takeEvent isRun isPhase
    · rename_i isPhase
      split_ifs at stepped
      cases stepped
      exact holds.flush isRun isPhase
    · rename_i isPhase
      split_ifs at stepped with possible
      cases stepped
      exact holds.flushOne isRun isPhase possible
    · rename_i isPhase
      cases stepped
      simp only [Run.Accounts, isPhase] at rows
      exact holds.toSound.goto (accounts.onwards rows rfl rfl)
    · rename_i succeeds isPhase
      cases stepped
      cases succeeds with
      | true =>
        simp only [Run.Accounts, isPhase] at rows
        apply holds.toSound.goto
        refine accounts.onwards ⟨rows.1, ?_, rows.2⟩ rfl rfl
        intro session sessionMem
        exact .inr sessionMem
      | false => exact holds.toSound.finish
    · rename_i isPhase
      split_ifs at stepped with possible
      cases stepped
      exact holds.copySession isRun isPhase possible
    · rename_i isPhase
      cases stepped
      simp only [Run.Accounts, isPhase] at rows
      rcases rows with ⟨events, sessions, position⟩
      apply holds.toSound.goto
      refine accounts.onwards ?_ rfl rfl
      intro _
      exact ⟨events, sessions, position ▸ shotsResting_start⟩
    · cases stepped
      exact holds.toSound.finish
    · rename_i isPhase
      split_ifs at stepped with answered
      cases stepped
      exact holds.readShots isRun isPhase answered
    · rename_i isPhase
      split_ifs at stepped with possible
      cases stepped
      exact holds.takeShot isRun isPhase possible
    · rename_i isPhase
      cases stepped
      exact holds.endPage isRun isPhase
    · rename_i isPhase
      cases stepped
      simp only [Run.Accounts, isPhase] at rows
      apply holds.delete isRun (by rw [isPhase]; rfl)
      · exact holds.uncrowded
      · exact rows
      · exact ⟨fun _ none => (by cases none), rows.sessions, rows.screenshots⟩
    · rename_i isPhase
      cases stepped
      simp only [Run.Accounts, isPhase] at rows
      apply holds.delete isRun (by rw [isPhase]; rfl)
      · exact not_crowdedInstant_empty _
      · exact rows
      · exact ⟨rows.events, rows.sessions, fun _ none => (by cases none)⟩
    · rename_i isPhase
      cases stepped
      exact holds.delete isRun (by rw [isPhase]; rfl) holds.uncrowded trivial trivial
    · rename_i isPhase
      cases stepped
      have removing := accounts.removing (by rw [isPhase]; rfl)
      have sound := holds.toSound
      refine ⟨⟨sound.uncrowded, sound.unchanged⟩, ?_⟩
      intro other isOther
      cases isOther
      exact ⟨trivial, accounts.database, fun _ => removing⟩
    · cases stepped
      exact holds.toSound.finish
    · cases stepped

end Invariant

theorem movesWithoutLoss_of_not_crowded {source : Tables} (uncrowded : ¬CrowdedInstant source) :
    MovesWithoutLoss source := by
  intro destination primaryFiles tenantFiles trace final executed
  apply State.Invariant.losesNothing
  apply invariant_of_exec (fun _ _ _ holds stepped => State.Invariant.step holds stepped) _ executed
  refine ⟨⟨uncrowded, fun _ => ⟨sameRows_refl _, fun _ => rfl⟩⟩, ?_⟩
  intro run isRun
  cases isRun

end Aavishield.Dataplane.Mover
