import Aavishield.Monitoring.Ingest

/-!
# What agents may change

Agents name sessions by ids of their own choosing.  Starting a session and reporting activity
only ever touch rows of the sender's organisation and device.  Ending a session asks for the
sender's organisation but not for its device, and the rollup after an upload asks for
neither: both change another's session when the request names it.  No answer depends on
the rows of others.
-/

namespace Aavishield.Monitoring

open Dataplane (ActivityEvent Table)

inductive Place where
  | primary
  | tenant (connection : UUID)
  deriving DecidableEq

/-- The stores, and which of them an organisation uses. -/
structure World where
  stores : Place → Store
  route : UUID → Place
  settings : UUID → ScreenshotSettings

def World.storeOf (world : World) (agent : Agent) : Store := world.stores (world.route agent.orgID)

def World.serve (world : World) (agent : Agent) (around : Surroundings) (request : Request) :
    World × Response :=
  let answered := request.handle agent (world.settings agent.orgID) around (world.storeOf agent)
  ({ world with stores := Function.update world.stores (world.route agent.orgID) answered.1 },
    answered.2)

def Agent.Owns (agent : Agent) (orgID : UUID) (deviceID : Option UUID) : Prop :=
  orgID = agent.orgID ∧ deviceID = some agent.deviceID

instance (agent : Agent) (orgID : UUID) (deviceID : Option UUID) :
    Decidable (agent.Owns orgID deviceID) := inferInstanceAs (Decidable (_ ∧ _))

structure SameForOthers (agent : Agent) (before after : Store) : Prop where
  sessions : ∀ session : WorkSession, ¬agent.Owns session.orgID session.deviceID →
    (session ∈ after.sessions.rows ↔ session ∈ before.sessions.rows)
  screenshots : ∀ shot : Screenshot, ¬agent.Owns shot.orgID shot.deviceID →
    (shot ∈ after.screenshots.rows ↔ shot ∈ before.screenshots.rows)
  events : ∀ event : ActivityEvent, ¬agent.Owns event.orgID event.deviceID →
    (event ∈ after.events ↔ event ∈ before.events)

def Store.ownSessions (store : Store) (agent : Agent) : List WorkSession :=
  store.sessions.rows.filter fun session => agent.Owns session.orgID session.deviceID

structure SameForAgent (agent : Agent) (world other : World) : Prop where
  sessions : (other.storeOf agent).ownSessions agent = (world.storeOf agent).ownSessions agent
  settings : other.settings agent.orgID = world.settings agent.orgID

/-- The request changes no row of others, and its answer says nothing about their rows. -/
def StaysInTenant (agent : Agent) (request : Request) (world : World) : Prop :=
  ∀ around : Surroundings,
    (∀ place, SameForOthers agent (world.stores place)
      ((world.serve agent around request).1.stores place)) ∧
    ∀ other, SameForAgent agent world other →
      (other.serve agent around request).2 = (world.serve agent around request).2

def Upload.Taken (upload : Upload) (settings : ScreenshotSettings) : Prop :=
  settings.enabled = true ∧ upload.bytes ≤ maxSize ∧ upload.bytes ≠ 0

/-- A session that the request names is one of the agent's own. -/
def NamesOwn (agent : Agent) (request : Request) (world : World) : Prop :=
  match request with
  | .startSession _ | .reportActivity _ => True
  | .endSession named _ =>
    ∀ session ∈ (world.storeOf agent).sessions.rows, named = some session.id →
      session.orgID = agent.orgID → session.endedAt = none →
        session.deviceID = some agent.deviceID
  | .uploadScreenshot upload =>
    upload.Taken (world.settings agent.orgID) →
      ∀ session ∈ (world.storeOf agent).sessions.rows, upload.sessionID = some session.id →
        agent.Owns session.orgID session.deviceID

section Queries

variable {agent : Agent} {session : WorkSession} {sessionID : UUID} {now : Time}

theorem selects_endable : (endable agent sessionID).selects session = true ↔
    session.id = sessionID ∧ session.orgID = agent.orgID ∧ session.endedAt = none := by
  simp only [SessionQuery.selects_iff, endable, agent.orgID_ne, List.cons_ne_nil, List.mem_singleton]
  simp only [false_or, Option.all_some, decide_eq_true_eq, Option.isNone_iff_eq_none, true_or,
    and_true, true_and]
  exact and_left_comm

theorem owns_of_selects_resumable (selected : (resumable agent now).selects session = true) :
    agent.Owns session.orgID session.deviceID := by
  rcases SessionQuery.selects_iff.mp selected with ⟨sameOrg, -, sameDevice, -⟩
  simp only [resumable, agent.orgID_ne, reduceCtorEq, false_or] at sameOrg sameDevice
  exact ⟨sameOrg, sameDevice⟩

theorem findSessions_resumable (store : Store) :
    store.findSessions (resumable agent now) =
      ((store.ownSessions agent).filter (resumable agent now).selects).insertionSort
        fun first second => second.updatedAt ≤ first.updatedAt := by
  rw [Store.findSessions, Store.ownSessions, List.filter_filter]
  congr 1
  apply List.filter_congr
  intro session _
  cases selected : (resumable agent now).selects session with
  | false => simp
  | true => simp [owns_of_selects_resumable selected]

end Queries

section SameForOthers

variable {agent : Agent} {store before after : Store} {query : SessionQuery}
  {set : WorkSession → WorkSession} (keeps : ∀ session, (set session).id = session.id)

theorem SameForOthers.refl (agent : Agent) (store : Store) : SameForOthers agent store store :=
  ⟨fun _ _ => .rfl, fun _ _ => .rfl, fun _ _ => .rfl⟩

theorem SameForOthers.symm (same : SameForOthers agent before after) :
    SameForOthers agent after before where
  sessions session foreign := (same.sessions session foreign).symm
  screenshots shot foreign := (same.screenshots shot foreign).symm
  events event foreign := (same.events event foreign).symm

theorem SameForOthers.trans {middle : Store} (first : SameForOthers agent before middle)
    (second : SameForOthers agent middle after) : SameForOthers agent before after where
  sessions session foreign := (second.sessions session foreign).trans (first.sessions session foreign)
  screenshots shot foreign := (second.screenshots shot foreign).trans (first.screenshots shot foreign)
  events event foreign := (second.events event foreign).trans (first.events event foreign)

theorem sameForOthers_update (own : ∀ session ∈ store.sessions.rows, query.selects session = true →
      agent.Owns session.orgID session.deviceID)
    (stays : ∀ session, agent.Owns session.orgID session.deviceID →
      agent.Owns (set session).orgID (set session).deviceID) :
    SameForOthers agent store (store.updateSessions query set keeps) where
  screenshots _ _ := .rfl
  events _ _ := .rfl
  sessions := by
    intro session foreign
    rw [Store.mem_updateSessions keeps]
    constructor
    · rintro ⟨row, rowMem, rfl⟩
      cases selected : query.selects row with
      | false => simpa [selected] using rowMem
      | true =>
        rw [if_pos selected] at foreign
        exact absurd (stays row (own row rowMem selected)) foreign
    · intro mem
      refine ⟨session, mem, ?_⟩
      cases selected : query.selects session with
      | false => rfl
      | true => exact absurd (own session mem selected) foreign

theorem owns_of_sameForOthers_update {session : WorkSession} {now : Time}
    (stamps : ∀ row, (set row).updatedAt = now) (later : session.updatedAt ≠ now)
    (same : SameForOthers agent store (store.updateSessions query set keeps))
    (mem : session ∈ store.sessions.rows) (selected : query.selects session = true) :
    agent.Owns session.orgID session.deviceID := by
  by_contra foreign
  rcases (Store.mem_updateSessions keeps).mp ((same.sessions session foreign).mpr mem) with ⟨row, rowMem, after⟩
  have sameID : row.id = session.id := by
    rw [← after]
    split
    · exact (keeps row).symm
    · rfl
  have isRow : row = session := store.sessions.eq_of_id_eq rowMem mem sameID
  subst isRow
  rw [if_pos selected] at after
  exact later ((congrArg WorkSession.updatedAt after).symm.trans (stamps row))

theorem sameForOthers_insertSession {session : WorkSession}
    (own : agent.Owns session.orgID session.deviceID) :
    SameForOthers agent store (store.insertSession session) where
  screenshots _ _ := .rfl
  events _ _ := .rfl
  sessions _ foreign := Table.mem_insert_iff_of_ne fun same => foreign (same ▸ own)

theorem sameForOthers_insertScreenshot {shot : Screenshot}
    (own : agent.Owns shot.orgID shot.deviceID) :
    SameForOthers agent store (store.insertScreenshot shot) where
  sessions _ _ := .rfl
  events _ _ := .rfl
  screenshots _ foreign := Table.mem_insert_iff_of_ne fun same => foreign (same ▸ own)

theorem sameForOthers_record {events : List ActivityEvent}
    (own : ∀ event ∈ events, agent.Owns event.orgID event.deviceID) :
    SameForOthers agent store { store with events := store.events ++ events } where
  sessions _ _ := .rfl
  screenshots _ _ := .rfl
  events := by
    intro event foreign
    constructor
    · intro mem
      rcases List.mem_append.mp mem with before | new
      · exact before
      · exact absurd (own event new) foreign
    · exact List.mem_append_left _

end SameForOthers

section Requests

variable {agent : Agent} {settings : ScreenshotSettings} {around : Surroundings} {store : Store}
  {sessionID : UUID}

theorem startSession_keeps (request : StartRequest) :
    SameForOthers agent store (startSession agent around request store).1 := by
  unfold startSession
  split
  · exact .refl agent store
  · exact .refl agent store
  · split
    · exact .refl agent store
    · dsimp only
      split
      · exact .refl agent store
      · exact sameForOthers_insertSession ⟨rfl, rfl⟩

theorem endSession_keeps {endedAt : Option Time}
    (own : ∀ session ∈ store.sessions.rows, sessionID = session.id →
      session.orgID = agent.orgID → session.endedAt = none →
        session.deviceID = some agent.deviceID) :
    SameForOthers agent store (endSession agent around (some sessionID) endedAt store).1 := by
  simp only [endSession]
  split
  · exact .refl agent store
  · exact .refl agent store
  · refine sameForOthers_update (WorkSession.id_close _ _) ?_ fun session owned => owned
    intro session mem selected
    rcases selects_endable.mp selected with ⟨named, sameOrg, stillOpen⟩
    exact ⟨sameOrg, own session mem named.symm sameOrg stillOpen⟩

theorem refreshSessionRollup_keeps (own : ∀ session ∈ store.sessions.rows, sessionID = session.id →
      agent.Owns session.orgID session.deviceID) :
    SameForOthers agent store (refreshSessionRollup around sessionID store) := by
  unfold refreshSessionRollup
  split
  · refine sameForOthers_update (WorkSession.id_setTotals _ _) ?_ fun session owned => owned
    intro session mem selected
    exact own session mem (selects_rolledUp.mp selected).symm
  · exact .refl agent store

theorem uploadScreenshot_keeps {upload : Upload}
    (own : upload.Taken settings → ∀ session ∈ store.sessions.rows,
      upload.sessionID = some session.id → agent.Owns session.orgID session.deviceID) :
    SameForOthers agent store (uploadScreenshot agent settings around upload store).1 := by
  unfold uploadScreenshot
  split_ifs with disabled large nothing
  · exact .refl agent store
  · exact .refl agent store
  · exact .refl agent store
  · have taken : upload.Taken settings := by
      refine ⟨?_, Nat.le_of_not_lt large, nothing⟩
      simpa using disabled
    split
    · exact .refl agent store
    · exact .refl agent store
    · exact .refl agent store
    · exact .refl agent store
    · rename_i storedKey _ _ _
      have inserted : SameForOthers agent store (store.insertScreenshot
          (upload.screenshot around.now agent settings around.fresh storedKey)) :=
        sameForOthers_insertScreenshot ⟨rfl, rfl⟩
      cases named : upload.sessionID with
      | none => exact inserted
      | some sessionID =>
        apply inserted.trans
        apply refreshSessionRollup_keeps
        intro session mem same
        exact own taken session mem (named.trans (congrArg some same))

theorem owns_of_mem_completed {events : List ActivityEvent} {event : ActivityEvent}
    (mem : event ∈ events.mapIdx (completed agent around)) :
    agent.Owns event.orgID event.deviceID := by
  rcases List.mem_mapIdx.mp mem with ⟨index, inside, rfl⟩
  exact ⟨rfl, rfl⟩

theorem reportActivity_keeps (events : Option (List ActivityEvent)) :
    SameForOthers agent store (reportActivity agent around events store).1 := by
  cases events with
  | none => exact .refl agent store
  | some events =>
    simp only [reportActivity]
    split_ifs
    · exact .refl agent store
    · split
      · exact sameForOthers_record fun event mem => owns_of_mem_completed mem
      · exact sameForOthers_record fun event mem => owns_of_mem_completed (List.mem_of_mem_take mem)
      · exact sameForOthers_record fun event mem => owns_of_mem_completed (List.mem_of_mem_take mem)

theorem answer_eq {other : Store} (same : other.ownSessions agent = store.ownSessions agent)
    (request : Request) :
    (request.handle agent settings around other).2 =
      (request.handle agent settings around store).2 := by
  cases request with
  | startSession request =>
    simp only [Request.handle, startSession, findSessions_resumable, same]
    split
    · rfl
    · rfl
    · split
      · rfl
      · split <;> rfl
  | endSession named endedAt =>
    cases named with
    | none => rfl
    | some sessionID =>
      simp only [Request.handle, endSession]
      split <;> rfl
  | uploadScreenshot upload =>
    simp only [Request.handle, uploadScreenshot]
    split_ifs
    · rfl
    · rfl
    · rfl
    · split <;> rfl
  | reportActivity events =>
    cases events with
    | none => rfl
    | some events =>
      simp only [Request.handle, reportActivity]
      split_ifs
      · rfl
      · split <;> rfl

end Requests

section StaysInTenant

variable {agent : Agent} {request : Request} {world : World}

theorem sameForOthers_serve {around : Surroundings}
    (own : NamesOwn agent request world) (place : Place) :
    SameForOthers agent (world.stores place) ((world.serve agent around request).1.stores place) := by
  by_cases here : place = world.route agent.orgID
  · subst here
    simp only [World.serve, Function.update_self]
    cases request with
    | startSession request => exact startSession_keeps request
    | endSession named endedAt =>
      cases named with
      | none => exact .refl agent _
      | some sessionID =>
        apply endSession_keeps
        intro session mem same
        exact own session mem (congrArg some same)
    | uploadScreenshot upload => exact uploadScreenshot_keeps own
    | reportActivity events => exact reportActivity_keeps events
  · simp only [World.serve, Function.update_of_ne here]
    exact .refl agent _

theorem namesOwn_of_sameForOthers (same : ∀ now, SameForOthers agent (world.storeOf agent)
      (request.handle agent (world.settings agent.orgID) (calm now) (world.storeOf agent)).1) :
    NamesOwn agent request world := by
  cases request with
  | startSession request => trivial
  | reportActivity events => trivial
  | endSession named endedAt =>
    rintro session mem rfl sameOrg stillOpen
    have later : session.updatedAt ≠ session.updatedAt + 1 := (Int.lt_succ session.updatedAt).ne
    have selected := selects_endable.mpr ⟨rfl, sameOrg, stillOpen⟩
    exact (owns_of_sameForOthers_update (WorkSession.id_close _ _) (fun _ => rfl) later
      (same (session.updatedAt + 1)) mem selected).2
  | uploadScreenshot upload =>
    rintro ⟨enabled, small, something⟩ session mem named
    have later : session.updatedAt ≠ session.updatedAt + 1 := (Int.lt_succ session.updatedAt).ne
    have changed := same (session.updatedAt + 1)
    simp only [Request.handle, uploadScreenshot, enabled, Bool.not_true, Bool.false_eq_true,
      if_false, Nat.not_lt.mpr small, something, calm, named, refreshSessionRollup] at changed
    have inserted : SameForOthers agent (world.storeOf agent) ((world.storeOf agent).insertScreenshot
        (upload.screenshot (session.updatedAt + 1) agent (world.settings agent.orgID) .zero "")) :=
      sameForOthers_insertScreenshot ⟨rfl, rfl⟩
    exact owns_of_sameForOthers_update (WorkSession.id_setTotals _ _) (fun _ => rfl) later
      (inserted.symm.trans changed) mem (selects_rolledUp.mpr rfl)

theorem namesOwn_of_staysInTenant (stays : StaysInTenant agent request world) :
    NamesOwn agent request world := by
  apply namesOwn_of_sameForOthers
  intro now
  have same := (stays (calm now)).1 (world.route agent.orgID)
  simpa only [World.serve, Function.update_self, World.storeOf] using same

/--
A request of an agent changes no row of another organisation or another device, and has
the same answer whatever rows others have, exactly when a session that it names is the
agent's own.
-/
theorem staysInTenant_iff : StaysInTenant agent request world ↔ NamesOwn agent request world := by
  constructor
  · exact namesOwn_of_staysInTenant
  · intro own around
    refine ⟨sameForOthers_serve own, ?_⟩
    intro other same
    simp only [World.serve, same.settings]
    exact answer_eq same.sessions request

def AlwaysStaysInTenant : Prop :=
  ∀ agent request world, StaysInTenant agent request world

/-- An upload names a session of another organisation that keeps its data in the same store. -/
theorem not_alwaysStaysInTenant : ¬AlwaysStaysInTenant := by
  intro always
  let agent : Agent := ⟨⟨1⟩, ⟨7⟩, none, by decide⟩
  let session : WorkSession :=
    { id := ⟨5⟩, orgID := ⟨9⟩, employeeID := none, deviceID := some ⟨2⟩, startedAt := 0
      endedAt := none, hostname := "", ip := "", screenshotCount := 0, activeSeconds := 0
      trackedSeconds := 0, avgActivity := 0, updatedAt := 0 }
  let store : Store := Store.empty.insertSession session
  let world : World := ⟨fun _ => store, fun _ => .primary, fun _ => ⟨true, 1⟩⟩
  let upload : Upload := ⟨1, some ⟨5⟩, none, none, none, none, none, none⟩
  have own := namesOwn_of_staysInTenant (always agent (.uploadScreenshot upload) world)
  have taken : upload.Taken (world.settings agent.orgID) := ⟨rfl, by decide, by decide⟩
  have mem : session ∈ store.sessions.rows := List.mem_singleton_self session
  exact absurd (own taken session mem rfl) (by decide)

end StaysInTenant

end Aavishield.Monitoring
