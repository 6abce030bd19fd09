import Aavishield.Lib.TransitionSystem
import Aavishield.Monitoring.Ingest

/-!
# Totals of sessions

A session's totals are kept beside it.  Uploads and deletions change the screenshots in one
call of the store, aggregate them in a second and write the totals back in a third, and
the calls of several requests interleave.

What carries the proof is that a stale total is never forgotten: some request in
progress is about to recompute it, or to write back what is current.  The retention sweep
breaks this, since it deletes screenshots and recomputes nothing; so does writing totals
back that were read before another request changed the screenshots.
-/

namespace Aavishield.Monitoring

open Dataplane (Table)
open TransitionSystem

def sessionByID (orgID id : UUID) : SessionQuery where
  orgID := orgID
  ids := [id]

def shotByID (orgID id : UUID) : ScreenshotQuery where
  orgID := orgID
  ids := [id]

def shotsOfSession (orgID id : UUID) : ScreenshotQuery where
  orgID := orgID
  sessionID := some id

def oldShots (orgID : UUID) (cutoff : Time) : ScreenshotQuery where
  orgID := orgID
  capturedBefore := cutoff
  limit := 2000

def shotsByIDs (orgID : UUID) (ids : List UUID) : ScreenshotQuery where
  orgID := orgID
  ids := ids

def endedSessions (orgID : UUID) (cutoff : Time) : SessionQuery where
  orgID := orgID
  endedBefore := cutoff
  noScreenshots := true

inductive Call where
  /-- `UploadScreenshot` inserts. -/
  | insertShot (shot : Screenshot)
  /-- `refreshSessionRollup` aggregates, then writes back. -/
  | aggregate (sessionID : UUID)
  | writeBack (sessionID : UUID) (totals : Rollup)
  /-- `DeleteScreenshot` looks the row up, then deletes it. -/
  | findShot (orgID id : UUID)
  | deleteShot (orgID id : UUID) (sessionID : Option UUID)
  /-- `DeleteSession` looks the row up, lists its images, deletes their rows, then its own. -/
  | findSession (orgID id : UUID)
  | listShots (orgID id : UUID)
  | deleteShots (orgID id : UUID)
  | deleteSession (orgID id : UUID)
  /-- `sweepScreenshots` looks old rows up, deletes them, then sessions left empty. -/
  | findOld (orgID : UUID) (cutoff : Time)
  | deleteOld (orgID : UUID) (cutoff : Time) (ids : List UUID)
  | deleteEnded (orgID : UUID) (cutoff : Time)

def Call.isFirst : Call → Bool
  | .insertShot _ | .findShot _ _ | .findSession _ _ | .findOld _ _ => true
  | _ => false

def Call.ids : Call → List UUID
  | .insertShot shot => shot.sessionID.toList
  | .aggregate sessionID | .writeBack sessionID _ => [sessionID]
  | .findShot _ id => [id]
  | .deleteShot _ id sessionID => id :: sessionID.toList
  | .findSession _ id | .listShots _ id | .deleteShots _ id | .deleteSession _ id => [id]
  | .findOld _ _ | .deleteOld _ _ _ | .deleteEnded _ _ => []

def Call.succeed (now : Time) (fresh : UUID) (store : Store) : Call → Store × Option Call
  | .insertShot shot =>
    (store.insertScreenshot { shot with id := fresh }, shot.sessionID.map .aggregate)
  | .aggregate sessionID => (store, some (.writeBack sessionID (store.sessionRollup sessionID)))
  | .writeBack sessionID totals =>
    (store.updateSessions (rolledUp sessionID) (WorkSession.setTotals totals now) fun _ => rfl, none)
  | .findShot orgID id =>
    (store, (store.findScreenshots (shotByID orgID id)).head?.map fun shot =>
      .deleteShot orgID id shot.sessionID)
  | .deleteShot orgID id sessionID =>
    (store.deleteScreenshots (shotByID orgID id), sessionID.map .aggregate)
  | .findSession orgID id =>
    (store, (store.findSessions (sessionByID orgID id)).head?.map fun _ => .listShots orgID id)
  | .listShots orgID id => (store, some (.deleteShots orgID id))
  | .deleteShots orgID id =>
    (store.deleteScreenshots (shotsOfSession orgID id), some (.deleteSession orgID id))
  | .deleteSession orgID id => (store.deleteSessions (sessionByID orgID id), none)
  | .findOld orgID cutoff =>
    (store,
      match store.findScreenshots (oldShots orgID cutoff) with
      | [] => none
      | old => some (.deleteOld orgID cutoff (old.map Screenshot.id)))
  | .deleteOld orgID cutoff ids =>
    (store.deleteScreenshots (shotsByIDs orgID ids), some (.deleteEnded orgID cutoff))
  | .deleteEnded orgID cutoff => (store.deleteSessions (endedSessions orgID cutoff), none)

def Call.fail : Call → Option Call
  | .deleteOld orgID cutoff _ => some (.deleteEnded orgID cutoff)
  | _ => none

/-- The store, the calls to it and the identifiers in use. -/
structure State where
  store : Store
  requests : ℕ → Option Call
  known : List UUID

inductive Action where
  | start (number : ℕ) (call : Call)
  | call (number : ℕ) (succeeds : Bool) (now : Time) (fresh : UUID)
  /-- `StartSession` and `EndSession`, which make one call that changes rows. -/
  | startSession (agent : Agent) (around : Surroundings) (request : StartRequest)
  | endSession (agent : Agent) (around : Surroundings) (sessionID : Option UUID)
      (endedAt : Option Time)

def State.step (state : State) : Action → Option State
  | .start number call =>
    if state.requests number = none ∧ call.isFirst then
      some { state with
        requests := Function.update state.requests number (some call)
        known := call.ids ++ state.known }
    else none
  | .call number succeeds now fresh =>
    if fresh ∈ state.known then none
    else
      (state.requests number).map fun call =>
        if succeeds then
          let done := call.succeed now fresh state.store
          { store := done.1
            requests := Function.update state.requests number done.2
            known := fresh :: state.known }
        else { state with requests := Function.update state.requests number call.fail }
  | .startSession agent around request =>
    if around.fresh ∈ state.known then none
    else
      some { state with
        store := (Monitoring.startSession agent around request state.store).1
        known := around.fresh :: state.known }
  | .endSession agent around sessionID endedAt =>
    some { state with
      store := (Monitoring.endSession agent around sessionID endedAt state.store).1 }

def Call.Recomputes (sessionID : UUID) : Call → Prop
  | .aggregate named | .deleteSession _ named => named = sessionID
  | _ => False

/-- A request that will leave the session right, if nothing comes between. -/
def Call.Refreshes (store : Store) (sessionID : UUID) : Call → Prop
  | .aggregate named | .deleteSession _ named => named = sessionID
  | .writeBack named totals => named = sessionID ∧ totals = store.sessionRollup sessionID
  | _ => False

def Current (store : Store) (session : WorkSession) : Prop :=
  session.rollup = store.sessionRollup session.id

def Call.Remembers (store : Store) : Call → Prop
  | .deleteShot _ id sessionID =>
    ∀ shot ∈ store.screenshots.rows, shot.id = id → shot.sessionID = sessionID
  | .listShots orgID id | .deleteShots orgID id | .deleteSession orgID id =>
    ∀ session ∈ store.sessions.rows, session.id = id →
      (sessionByID orgID id).selects session = true
  | _ => True

namespace State

def LeftTo (state : State) (sees : Call → Prop) (number : ℕ) (sessionID : UUID) : Prop :=
  (∀ session ∈ state.store.sessions.rows, session.id ≠ sessionID) ∨
    ∃ other, other ≠ number ∧ ∃ call, state.requests other = some call ∧ sees call

def Covered (state : State) (session : WorkSession) : Prop :=
  Current state.store session ∨
    ∃ number call, state.requests number = some call ∧ call.Refreshes state.store session.id

def Careful (state : State) : Action → Prop
  | .call number succeeds _ _ =>
    match state.requests number with
    | some (.writeBack sessionID totals) =>
      succeeds = true ∧ totals = state.store.sessionRollup sessionID ∨
        succeeds = false ∧ (∀ session ∈ state.store.sessions.rows, session.id = sessionID →
          Current state.store session) ∨
        state.LeftTo (Call.Refreshes state.store sessionID) number sessionID
    | some (.aggregate sessionID) | some (.deleteSession _ sessionID) =>
      succeeds = true ∨
        (∀ session ∈ state.store.sessions.rows, session.id = sessionID →
          Current state.store session) ∨
        state.LeftTo (Call.Refreshes state.store sessionID) number sessionID
    | some (.deleteOld orgID _ ids) =>
      succeeds = true → ∀ shot ∈ state.store.screenshots.rows,
        (shotsByIDs orgID ids).selects shot = true → ∀ sessionID, shot.sessionID = some sessionID →
          state.LeftTo (Call.Recomputes sessionID) number sessionID
    | _ => True
  | _ => True

structure Sound (state : State) : Prop where
  shotKnown : ∀ shot ∈ state.store.screenshots.rows, shot.id ∈ state.known
  namedKnown : ∀ shot ∈ state.store.screenshots.rows, ∀ id, shot.sessionID = some id →
    id ∈ state.known
  callKnown : ∀ number call, state.requests number = some call → ∀ id ∈ call.ids, id ∈ state.known
  remembers : ∀ number call, state.requests number = some call → call.Remembers state.store
  covered : ∀ session ∈ state.store.sessions.rows, state.Covered session

/-- No request is under way. -/
def Quiet (state : State) : Prop := ∀ number, state.requests number = none

/-- The totals of every session are those of its images. -/
def TotalsMatch (state : State) : Prop :=
  ∀ session ∈ state.store.sessions.rows, Current state.store session

structure Starts (state : State) : Prop where
  quiet : state.Quiet
  totalsMatch : state.TotalsMatch
  shotKnown : ∀ shot ∈ state.store.screenshots.rows, shot.id ∈ state.known
  namedKnown : ∀ shot ∈ state.store.screenshots.rows, ∀ id, shot.sessionID = some id →
    id ∈ state.known

theorem Starts.sound {state : State} (starts : state.Starts) : state.Sound where
  shotKnown := starts.shotKnown
  namedKnown := starts.namedKnown
  callKnown number call found := by rw [starts.quiet number] at found; cases found
  remembers number call found := by rw [starts.quiet number] at found; cases found
  covered session mem := .inl (starts.totalsMatch session mem)

theorem Sound.totalsMatch {state : State} (sound : state.Sound) (quiet : state.Quiet) :
    state.TotalsMatch := by
  intro session mem
  rcases sound.covered session mem with current | ⟨number, call, found, -⟩
  · exact current
  · rw [quiet number] at found
    cases found

end State

section Rows

variable {store : Store} {shot : Screenshot} {session : WorkSession} {orgID id : UUID}
  {ids : List UUID}

theorem id_eq_of_shotByID (selected : (shotByID orgID id).selects shot = true) : shot.id = id := by
  simpa [shotByID] using (ScreenshotQuery.selects_iff.mp selected).2.1

theorem sessionID_eq_of_shotsOfSession (selected : (shotsOfSession orgID id).selects shot = true) :
    shot.sessionID = some id := by
  simpa [shotsOfSession] using (ScreenshotQuery.selects_iff.mp selected).2.2.1

theorem selects_sessionByID : (sessionByID orgID id).selects session = true ↔
    (orgID = .zero ∨ session.orgID = orgID) ∧ session.id = id := by
  simp [SessionQuery.selects_iff, sessionByID]

theorem mem_of_mem_findScreenshots {query : ScreenshotQuery} (mem : shot ∈ store.findScreenshots query) :
    shot ∈ store.screenshots.rows ∧ query.selects shot = true := by
  rw [← List.mem_filter, ← List.mem_insertionSort fun first second : Screenshot =>
    first.capturedAt ≤ second.capturedAt]
  simp only [Store.findScreenshots] at mem
  split at mem
  · exact mem
  · exact List.mem_of_mem_take mem

theorem mem_of_mem_findSessions {query : SessionQuery} (mem : session ∈ store.findSessions query) :
    session ∈ store.sessions.rows ∧ query.selects session = true := by
  rwa [← List.mem_filter, ← List.mem_insertionSort fun first second : WorkSession =>
    second.updatedAt ≤ first.updatedAt]

structure Follows (store next : Store) (fresh named : List UUID) : Prop where
  shots : ∀ shot ∈ next.screenshots.rows, shot ∈ store.screenshots.rows ∨
    shot.id ∈ fresh ∧ ∀ id, shot.sessionID = some id → id ∈ named
  sessions : ∀ session ∈ next.sessions.rows, session.id ∈ fresh ∨
    ∃ before ∈ store.sessions.rows, before.id = session.id ∧ before.orgID = session.orgID

namespace Follows

variable {fresh named : List UUID}

theorem refl (store : Store) : Follows store store fresh named where
  shots _ mem := .inl mem
  sessions session mem := .inr ⟨session, mem, rfl, rfl⟩

theorem insertScreenshot (isFresh : shot.id ∈ fresh)
    (isNamed : ∀ id, shot.sessionID = some id → id ∈ named) :
    Follows store (store.insertScreenshot shot) fresh named where
  sessions session mem := .inr ⟨session, mem, rfl, rfl⟩
  shots row mem := by
    rcases Table.mem_insert mem with ⟨rfl, -⟩ | before
    · right
      exact ⟨isFresh, isNamed⟩
    · left
      exact before

theorem deleteScreenshots (query : ScreenshotQuery) :
    Follows store (store.deleteScreenshots query) fresh named where
  sessions session mem := .inr ⟨session, mem, rfl, rfl⟩
  shots _ mem := .inl (Table.mem_delete.mp mem).1

theorem deleteSessions (query : SessionQuery) :
    Follows store (store.deleteSessions query) fresh named where
  shots _ mem := .inl mem
  sessions session mem := .inr ⟨session, (Table.mem_delete.mp mem).1, rfl, rfl⟩

theorem insertSession (isFresh : session.id ∈ fresh) :
    Follows store (store.insertSession session) fresh named where
  shots _ mem := .inl mem
  sessions row mem := by
    rcases Table.mem_insert mem with ⟨rfl, -⟩ | before
    · left
      exact isFresh
    · right
      exact ⟨row, before, rfl, rfl⟩

theorem updateSessions {query : SessionQuery} {set : WorkSession → WorkSession}
    (keeps : ∀ session, (set session).id = session.id)
    (keepsOrg : ∀ session, (set session).orgID = session.orgID) :
    Follows store (store.updateSessions query set keeps) fresh named where
  shots _ mem := .inl mem
  sessions row mem := by
    rcases (Store.mem_updateSessions keeps).mp mem with ⟨before, beforeMem, rfl⟩
    refine .inr ⟨before, beforeMem, ?_⟩
    split
    · exact ⟨(keeps before).symm, (keepsOrg before).symm⟩
    · exact ⟨rfl, rfl⟩

end Follows

theorem Call.follows (call : Call) (now : Time) (fresh : UUID) (store : Store) :
    Follows store (call.succeed now fresh store).1 [fresh] call.ids := by
  cases call with
  | insertShot shot =>
    refine .insertScreenshot (List.mem_singleton_self fresh) ?_
    intro id named
    exact Option.mem_toList.mpr named
  | writeBack => exact .updateSessions (WorkSession.id_setTotals _ _) fun _ => rfl
  | deleteShot | deleteShots | deleteOld => exact .deleteScreenshots _
  | deleteSession | deleteEnded => exact .deleteSessions _
  | aggregate | findShot | findSession | listShots | findOld => exact .refl store

theorem Call.Remembers.of_follows {call : Call} {next : Store} {fresh named : List UUID}
    (remembers : call.Remembers store) (follows : Follows store next fresh named)
    (isNew : ∀ id ∈ fresh, id ∉ call.ids) : call.Remembers next := by
  have ofSession : ∀ orgID id, id ∈ call.ids →
      (∀ session ∈ store.sessions.rows, session.id = id →
        (sessionByID orgID id).selects session = true) →
      ∀ session ∈ next.sessions.rows, session.id = id →
        (sessionByID orgID id).selects session = true := by
    intro orgID id named before session mem sameID
    rcases follows.sessions session mem with isFresh | ⟨earlier, earlierMem, same, sameOrg⟩
    · rw [sameID] at isFresh
      exact absurd named (isNew id isFresh)
    · have selected := selects_sessionByID.mp (before earlier earlierMem (same.trans sameID))
      rw [sameOrg] at selected
      exact selects_sessionByID.mpr ⟨selected.1, sameID⟩
  cases call with
  | deleteShot orgID id sessionID =>
    intro shot mem sameID
    rcases follows.shots shot mem with before | ⟨isFresh, -⟩
    · exact remembers shot before sameID
    · rw [sameID] at isFresh
      exact absurd (List.mem_cons_self ..) (isNew id isFresh)
  | listShots orgID id | deleteShots orgID id | deleteSession orgID id => exact ofSession orgID id (List.mem_singleton_self id) remembers
  | insertShot | aggregate | writeBack | findShot | findSession | findOld | deleteOld
  | deleteEnded => trivial

end Rows

namespace State

variable {state next : State} {number : ℕ} {call after : Call} {now : Time} {fresh sessionID : UUID}
  {before session : WorkSession}

theorem Covered.carry (covered : state.Covered before) (sameID : session.id = before.id)
    (sameTotals : session.rollup = before.rollup)
    (sameRollup : next.store.sessionRollup before.id = state.store.sessionRollup before.id)
    (kept : ∀ number call, state.requests number = some call →
      call.Refreshes state.store before.id →
        next.Covered session ∨ next.requests number = some call) : next.Covered session := by
  rcases covered with current | ⟨number, call, found, refreshes⟩
  · left
    rw [Current, sameTotals, sameID, sameRollup]
    exact current
  · rcases kept number call found refreshes with done | still
    · exact done
    · right
      refine ⟨number, call, still, ?_⟩
      rw [sameID]
      cases call with
      | writeBack named totals => exact ⟨refreshes.1, refreshes.2.trans sameRollup.symm⟩
      | aggregate | deleteSession => exact refreshes
      | insertShot | findShot | deleteShot | findSession | listShots | deleteShots | findOld
      | deleteOld | deleteEnded => exact refreshes.elim

theorem Covered.carry_call (covered : state.Covered session)
    (found : state.requests number = some call) {after : Option Call}
    (requests : next.requests = Function.update state.requests number after)
    (sameRollup : next.store.sessionRollup session.id = state.store.sessionRollup session.id)
    (hands : call.Refreshes state.store session.id → next.Covered session) :
    next.Covered session := by
  refine covered.carry rfl rfl sameRollup ?_
  intro other held heldFound refreshes
  by_cases same : other = number
  · left
    subst same
    cases found.symm.trans heldFound
    exact hands refreshes
  · right
    rw [requests, Function.update_of_ne same]
    exact heldFound

theorem Covered.of_after (requests : next.requests = Function.update state.requests number (some after))
    (refreshes : after.Refreshes next.store session.id) : next.Covered session :=
  .inr ⟨number, after, by rw [requests, Function.update_self], refreshes⟩

theorem LeftTo.covered {sees : Call → Prop} (left : state.LeftTo sees number session.id)
    (mem : ∃ before ∈ state.store.sessions.rows, before.id = session.id) {after : Option Call}
    (requests : next.requests = Function.update state.requests number after)
    (refreshes : ∀ call, sees call → call.Refreshes next.store session.id) : next.Covered session := by
  rcases left with gone | ⟨other, isOther, call, found, seen⟩
  · rcases mem with ⟨before, beforeMem, sameID⟩
    exact absurd sameID (gone before beforeMem)
  · right
    refine ⟨other, call, ?_, refreshes call seen⟩
    rw [requests, Function.update_of_ne isOther]
    exact found

theorem refreshes_of_recomputes {store : Store} (recomputes : call.Recomputes sessionID) :
    call.Refreshes store sessionID := by
  cases call with
  | aggregate | deleteSession => exact recomputes
  | insertShot | writeBack | findShot | deleteShot | findSession | listShots | deleteShots
  | findOld | deleteOld | deleteEnded => exact recomputes.elim

namespace Sound

variable (sound : state.Sound) (found : state.requests number = some call)

include sound found

theorem ids_after_known (follows : (call.succeed now fresh state.store).2 = some after) :
    ∀ id ∈ after.ids, id ∈ state.known := by
  have named := sound.callKnown number call found
  cases call with
  | insertShot shot =>
    rcases Option.map_eq_some_iff.mp follows with ⟨sessionID, ofShot, rfl⟩
    intro id mem
    rw [List.mem_singleton.mp mem]
    exact named sessionID (Option.mem_toList.mpr ofShot)
  | aggregate sessionID =>
    cases follows
    exact named
  | findShot orgID id =>
    rcases Option.map_eq_some_iff.mp follows with ⟨shot, isFirst, rfl⟩
    have shotMem := (mem_of_mem_findScreenshots (List.mem_of_mem_head? isFirst)).1
    intro other mem
    rcases List.mem_cons.mp mem with rfl | ofShot
    · exact named other (List.mem_singleton_self other)
    · exact sound.namedKnown shot shotMem other (Option.mem_toList.mp ofShot)
  | deleteShot orgID id sessionID =>
    rcases Option.map_eq_some_iff.mp follows with ⟨session, ofShot, rfl⟩
    intro other mem
    rw [List.mem_singleton.mp mem]
    exact named session (List.mem_cons_of_mem id (Option.mem_toList.mpr ofShot))
  | findSession orgID id =>
    rcases Option.map_eq_some_iff.mp follows with ⟨session, -, rfl⟩
    exact named
  | listShots | deleteShots =>
    cases follows
    exact named
  | findOld orgID cutoff =>
    simp only [Call.succeed] at follows
    split at follows
    · cases follows
    · cases follows
      exact fun id mem => absurd mem List.not_mem_nil
  | deleteOld =>
    cases follows
    exact fun id mem => absurd mem List.not_mem_nil
  | writeBack | deleteSession | deleteEnded => cases follows

theorem after_remembers (follows : (call.succeed now fresh state.store).2 = some after) :
    after.Remembers (call.succeed now fresh state.store).1 := by
  have remembers := sound.remembers number call found
  cases call with
  | insertShot shot =>
    rcases Option.map_eq_some_iff.mp follows with ⟨sessionID, -, rfl⟩
    trivial
  | aggregate sessionID | deleteOld =>
    cases follows
    trivial
  | findShot orgID id =>
    rcases Option.map_eq_some_iff.mp follows with ⟨shot, isFirst, rfl⟩
    rcases mem_of_mem_findScreenshots (List.mem_of_mem_head? isFirst) with ⟨shotMem, selected⟩
    intro other mem sameID
    have same : other = shot := state.store.screenshots.eq_of_id_eq mem shotMem
      (sameID.trans (id_eq_of_shotByID selected).symm)
    rw [same]
  | deleteShot orgID id sessionID =>
    rcases Option.map_eq_some_iff.mp follows with ⟨session, -, rfl⟩
    trivial
  | findSession orgID id =>
    rcases Option.map_eq_some_iff.mp follows with ⟨session, isFirst, rfl⟩
    rcases mem_of_mem_findSessions (List.mem_of_mem_head? isFirst) with ⟨sessionMem, selected⟩
    intro other mem sameID
    have same : other = session := state.store.sessions.eq_of_id_eq mem sessionMem
      (sameID.trans (selects_sessionByID.mp selected).2.symm)
    rw [same]
    exact selected
  | listShots orgID id | deleteShots orgID id =>
    cases follows
    exact remembers
  | findOld orgID cutoff =>
    simp only [Call.succeed] at follows
    split at follows
    · cases follows
    · cases follows
      trivial
  | writeBack | deleteSession | deleteEnded => cases follows

theorem covered_succeed (careful : state.Careful (.call number true now fresh))
    (store : next.store = (call.succeed now fresh state.store).1) (requests : next.requests =
      Function.update state.requests number (call.succeed now fresh state.store).2) :
    ∀ session ∈ next.store.sessions.rows, next.Covered session := by
  simp only [Careful, found] at careful
  have covered := sound.covered
  have remembers := sound.remembers number call found
  intro session mem
  cases call with
  | insertShot shot =>
    rw [store] at mem
    by_cases named : shot.sessionID = some session.id
    · simp only [Call.succeed, named, Option.map_some] at requests
      exact .of_after requests rfl
    · refine (covered session mem).carry_call found requests ?_ False.elim
      rw [store]
      exact Store.sessionRollup_insertScreenshot named
  | aggregate sessionID =>
    rw [store] at mem
    by_cases named : sessionID = session.id
    · apply Covered.of_after requests
      rw [store]
      exact ⟨named, by rw [named]; rfl⟩
    · refine (covered session mem).carry_call found requests ?_ fun same => absurd same named
      rw [store]
      rfl
  | writeBack sessionID totals =>
    rw [store] at mem
    rcases (Store.mem_updateSessions (WorkSession.id_setTotals totals now)).mp mem with
      ⟨before, beforeMem, rfl⟩
    by_cases selected : (rolledUp sessionID).selects before = true
    · have sameID := selects_rolledUp.mp selected
      rw [if_pos selected]
      rcases careful with ⟨-, isCurrent⟩ | ⟨fails, -⟩ | left
      · left
        rw [Current, store, WorkSession.rollup_setTotals, WorkSession.id_setTotals, sameID]
        exact isCurrent
      · cases fails
      · subst sameID
        refine LeftTo.covered left ⟨before, beforeMem, rfl⟩ requests ?_
        rw [store]
        exact fun call refreshes => refreshes
    · rw [if_neg selected]
      refine (covered before beforeMem).carry_call found requests ?_ ?_
      · rw [store]
        rfl
      · rintro ⟨named, -⟩
        exact absurd (selects_rolledUp.mpr named.symm) selected
  | deleteShot orgID id sessionID =>
    rw [store] at mem
    by_cases named : sessionID = some session.id
    · simp only [Call.succeed, named, Option.map_some] at requests
      exact .of_after requests rfl
    · refine (covered session mem).carry_call found requests ?_ False.elim
      rw [store]
      apply Store.sessionRollup_deleteScreenshots
      intro shot shotMem selected
      rw [remembers shot shotMem (id_eq_of_shotByID selected)]
      exact named
  | deleteShots orgID id =>
    rw [store] at mem
    by_cases named : id = session.id
    · exact .of_after requests named
    · refine (covered session mem).carry_call found requests ?_ False.elim
      rw [store]
      apply Store.sessionRollup_deleteScreenshots
      intro shot shotMem selected
      rw [sessionID_eq_of_shotsOfSession selected]
      exact fun same => named (Option.some.inj same)
  | deleteSession orgID id =>
    rw [store] at mem
    rcases Table.mem_delete.mp mem with ⟨beforeMem, kept⟩
    refine (covered session beforeMem).carry_call found requests ?_ ?_
    · rw [store]
      rfl
    · intro named
      rw [remembers session beforeMem named.symm] at kept
      cases kept
  | deleteOld orgID cutoff ids =>
    rw [store] at mem
    by_cases loses : ∃ shot ∈ state.store.screenshots.rows,
        (shotsByIDs orgID ids).selects shot = true ∧ shot.sessionID = some session.id
    · rcases loses with ⟨shot, shotMem, selected, named⟩
      exact LeftTo.covered (careful trivial shot shotMem selected session.id named)
        ⟨session, mem, rfl⟩ requests fun call => refreshes_of_recomputes
    · refine (covered session mem).carry_call found requests ?_ False.elim
      rw [store]
      apply Store.sessionRollup_deleteScreenshots
      intro shot shotMem selected named
      exact loses ⟨shot, shotMem, selected, named⟩
  | deleteEnded orgID cutoff =>
    rw [store] at mem
    refine (covered session (Table.mem_delete.mp mem).1).carry_call found requests ?_ False.elim
    rw [store]
    rfl
  | findShot | findSession | listShots | findOld =>
    rw [store] at mem
    refine (covered session mem).carry_call found requests ?_ False.elim
    rw [store]
    rfl

theorem covered_fail (careful : state.Careful (.call number false now fresh))
    (store : next.store = state.store)
    (requests : next.requests = Function.update state.requests number call.fail) :
    ∀ session ∈ next.store.sessions.rows, next.Covered session := by
  simp only [Careful, found] at careful
  intro session mem
  rw [store] at mem
  refine (sound.covered session mem).carry_call found requests (by rw [store]) ?_
  have settled : (∀ other ∈ state.store.sessions.rows, other.id = session.id →
      Current state.store other) ∨
        state.LeftTo (Call.Refreshes state.store session.id) number session.id →
          next.Covered session := by
    rintro (current | left)
    · left
      rw [Current, store]
      exact current session mem rfl
    · refine left.covered ⟨session, mem, rfl⟩ requests ?_
      rw [store]
      exact fun call refreshes => refreshes
  cases call with
  | aggregate sessionID | deleteSession orgID sessionID =>
    rintro rfl
    exact settled (careful.resolve_left Bool.false_ne_true)
  | writeBack sessionID totals =>
    rintro ⟨rfl, -⟩
    rcases careful with ⟨succeeds, -⟩ | ⟨-, current⟩ | left
    · cases succeeds
    · exact settled (.inl current)
    · exact settled (.inr left)
  | insertShot | findShot | deleteShot | findSession | listShots | deleteShots | findOld | deleteOld
  | deleteEnded => exact False.elim

omit found

theorem of_sessions {store : Store} {fresh : List UUID} (follows : Follows state.store store fresh [])
    (isNew : ∀ id ∈ fresh, id ∉ state.known) (sameShots : store.screenshots = state.store.screenshots)
    (totals : ∀ session ∈ store.sessions.rows,
      session.id ∈ fresh ∧ session.rollup = ⟨0, 0, 0, 0⟩ ∨
        ∃ before ∈ state.store.sessions.rows, before.id = session.id ∧
          before.rollup = session.rollup) :
    State.Sound { state with store := store, known := fresh ++ state.known } := by
  have sameRollup : ∀ id, store.sessionRollup id = state.store.sessionRollup id := by
    intro id
    apply Store.sessionRollup_congr
    rw [sameShots]
  constructor
  · intro shot mem
    rw [sameShots] at mem
    exact List.mem_append_right _ (sound.shotKnown shot mem)
  · intro shot mem id named
    rw [sameShots] at mem
    exact List.mem_append_right _ (sound.namedKnown shot mem id named)
  · intro number call found id mem
    exact List.mem_append_right _ (sound.callKnown number call found id mem)
  · intro number call found
    refine (sound.remembers number call found).of_follows follows ?_
    exact fun id isFresh named => isNew id isFresh (sound.callKnown number call found id named)
  · intro session mem
    rcases totals session mem with ⟨isFresh, empty⟩ | ⟨before, beforeMem, sameID, sameTotals⟩
    · left
      rw [Current, empty, sameRollup, Store.sessionRollup_of_unnamed]
      intro shot shotMem named
      exact isNew _ isFresh (sound.namedKnown shot shotMem _ named)
    · exact (sound.covered before beforeMem).carry sameID.symm sameTotals.symm (sameRollup before.id)
        fun number call found _ => .inr found

theorem startSession (agent : Agent) (around : Surroundings) (request : StartRequest)
    (isNew : around.fresh ∉ state.known) :
    State.Sound { state with
      store := (Monitoring.startSession agent around request state.store).1
      known := around.fresh :: state.known } := by
  have fresh : ∀ id ∈ [around.fresh], id ∉ state.known := by
    intro id mem
    rwa [List.mem_singleton.mp mem]
  rcases startSession_effect agent around request state.store with same | ⟨session, isFresh, empty, same⟩
  · rw [same]
    exact sound.of_sessions (.refl state.store) fresh rfl fun session mem => .inr ⟨session, mem, rfl, rfl⟩
  · rw [same]
    refine sound.of_sessions (.insertSession (List.mem_singleton.mpr isFresh)) fresh rfl ?_
    intro other mem
    rcases Table.mem_insert mem with ⟨rfl, -⟩ | before
    · left
      exact ⟨List.mem_singleton.mpr isFresh, empty⟩
    · right
      exact ⟨other, before, rfl, rfl⟩

theorem endSession (agent : Agent) (around : Surroundings) (sessionID : Option UUID)
    (endedAt : Option Time) :
    State.Sound { state with
      store := (Monitoring.endSession agent around sessionID endedAt state.store).1 } := by
  rcases endSession_effect agent around sessionID endedAt state.store with same | ⟨query, ended, same⟩
  · rw [same]
    exact sound
  · rw [same]
    refine sound.of_sessions (.updateSessions (WorkSession.id_close ended around.now) fun _ => rfl)
      (fun id mem => absurd mem List.not_mem_nil) rfl ?_
    intro session mem
    rcases (Store.mem_updateSessions (WorkSession.id_close ended around.now)).mp mem with
      ⟨before, beforeMem, rfl⟩
    right
    refine ⟨before, beforeMem, ?_⟩
    split
    · exact ⟨rfl, rfl⟩
    · exact ⟨rfl, rfl⟩

theorem start (isFirst : call.isFirst = true) (isFree : state.requests number = none) :
    State.Sound { state with
      requests := Function.update state.requests number (some call)
      known := call.ids ++ state.known } := by
  have remembers : call.Remembers state.store := by
    cases call with
    | insertShot | findShot | findSession | findOld => trivial
    | aggregate | writeBack | deleteShot | listShots | deleteShots | deleteSession | deleteOld
    | deleteEnded => cases isFirst
  constructor
  · intro shot mem
    exact List.mem_append_right _ (sound.shotKnown shot mem)
  · intro shot mem id named
    exact List.mem_append_right _ (sound.namedKnown shot mem id named)
  · intro other held heldFound id mem
    rcases party_update heldFound with ⟨-, rfl⟩ | ⟨-, before⟩
    · exact List.mem_append_left _ mem
    · exact List.mem_append_right _ (sound.callKnown other held before id mem)
  · intro other held heldFound
    rcases party_update heldFound with ⟨-, rfl⟩ | ⟨-, before⟩
    · exact remembers
    · exact sound.remembers other held before
  · intro session mem
    refine (sound.covered session mem).carry rfl rfl rfl ?_
    intro other held heldFound _
    right
    have isOther : other ≠ number := by
      rintro rfl
      rw [isFree] at heldFound
      cases heldFound
    dsimp only
    rw [Function.update_of_ne isOther]
    exact heldFound

include found

theorem succeed (careful : state.Careful (.call number true now fresh)) (isNew : fresh ∉ state.known) :
    State.Sound
      { store := (call.succeed now fresh state.store).1
        requests := Function.update state.requests number (call.succeed now fresh state.store).2
        known := fresh :: state.known } := by
  have follows := call.follows now fresh state.store
  constructor
  · intro shot mem
    rcases follows.shots shot mem with before | ⟨isFresh, -⟩
    · exact List.mem_cons_of_mem _ (sound.shotKnown shot before)
    · rw [List.mem_singleton.mp isFresh]
      exact List.mem_cons_self
  · intro shot mem id named
    rcases follows.shots shot mem with before | ⟨-, ofCall⟩
    · exact List.mem_cons_of_mem _ (sound.namedKnown shot before id named)
    · exact List.mem_cons_of_mem _ (sound.callKnown number call found id (ofCall id named))
  · intro other held heldFound id mem
    apply List.mem_cons_of_mem
    dsimp only at heldFound
    rw [Function.update_apply] at heldFound
    split at heldFound
    · exact sound.ids_after_known found heldFound id mem
    · exact sound.callKnown other held heldFound id mem
  · intro other held heldFound
    dsimp only at heldFound
    rw [Function.update_apply] at heldFound
    split at heldFound
    · exact sound.after_remembers found heldFound
    · refine (sound.remembers other held heldFound).of_follows follows ?_
      intro id isFresh named
      rw [List.mem_singleton.mp isFresh] at named
      exact isNew (sound.callKnown other held heldFound fresh named)
  · exact sound.covered_succeed found careful rfl rfl

theorem fail (careful : state.Careful (.call number false now fresh)) :
    State.Sound { state with requests := Function.update state.requests number call.fail } := by
  have ofFail : ∀ {after}, call.fail = some after → after.ids = [] ∧ after.Remembers state.store := by
    intro after failed
    cases call with
    | deleteOld =>
      cases failed
      exact ⟨rfl, trivial⟩
    | insertShot | aggregate | writeBack | findShot | deleteShot | findSession | listShots
    | deleteShots | deleteSession | findOld | deleteEnded => cases failed
  refine ⟨sound.shotKnown, sound.namedKnown, ?_, ?_, sound.covered_fail found careful rfl rfl⟩
  · intro other held heldFound id mem
    dsimp only at heldFound
    rw [Function.update_apply] at heldFound
    split at heldFound
    · rw [(ofFail heldFound).1] at mem
      cases mem
    · exact sound.callKnown other held heldFound id mem
  · intro other held heldFound
    dsimp only at heldFound
    rw [Function.update_apply] at heldFound
    split at heldFound
    · exact (ofFail heldFound).2
    · exact sound.remembers other held heldFound

end Sound

theorem Sound.step {action : Action} (sound : state.Sound) (careful : state.Careful action)
    (stepped : state.step action = some next) : next.Sound := by
  cases action with
  | start number call =>
    simp only [State.step, Option.ite_none_right_eq_some] at stepped
    rcases stepped with ⟨⟨isFree, isFirst⟩, same⟩
    cases same
    exact sound.start isFirst isFree
  | call number succeeds now fresh =>
    simp only [State.step, Option.ite_none_left_eq_some] at stepped
    rcases stepped with ⟨isNew, moved⟩
    rcases Option.map_eq_some_iff.mp moved with ⟨call, found, rfl⟩
    cases succeeds with
    | true => exact sound.succeed found careful isNew
    | false => exact sound.fail found careful
  | startSession agent around request =>
    simp only [State.step, Option.ite_none_left_eq_some] at stepped
    rcases stepped with ⟨isNew, same⟩
    cases same
    exact sound.startSession agent around request isNew
  | endSession agent around sessionID endedAt =>
    cases stepped
    exact sound.endSession agent around sessionID endedAt

/--
Whenever no request is in progress, the stored totals of every session are those of its
screenshots, in every run in which what a call leaves behind is either right or left to
another request.
-/
theorem totalsMatch_of_careful {final : State} {trace : List Action} (starts : state.Starts)
    (careful : AllSteps State.step State.Careful state trace)
    (executed : exec State.step state trace = some final) (quiet : final.Quiet) :
    final.TotalsMatch := by
  have sound : final.Sound :=
    invariant_of_allSteps (fun _ _ _ sound careful stepped => sound.step careful stepped)
      starts.sound careful executed
  exact sound.totalsMatch quiet

def Prompt (state : State) : Action → Bool
  | .call number succeeds _ _ =>
    match state.requests number with
    | some (.writeBack sessionID totals) =>
      succeeds && decide (totals = state.store.sessionRollup sessionID)
    | some (.aggregate _) | some (.deleteSession _ _) => succeeds
    | some (.deleteOld _ _ _) => false
    | _ => true
  | _ => true

theorem careful_of_prompt {action : Action} (prompt : state.Prompt action = true) :
    state.Careful action := by
  cases action with
  | call number succeeds now fresh =>
    simp only [Prompt] at prompt
    simp only [Careful]
    split at prompt
    · left
      simpa using prompt
    · left
      exact prompt
    · left
      exact prompt
    · cases prompt
    · trivial
  | start | startSession | endSession => trivial

def initial : State := ⟨.empty, fun _ => none, []⟩

theorem starts_initial : initial.Starts where
  quiet _ := rfl
  totalsMatch _ mem := absurd mem List.not_mem_nil
  shotKnown _ mem := absurd mem List.not_mem_nil
  namedKnown _ mem := absurd mem List.not_mem_nil

instance (state : State) : Decidable state.TotalsMatch :=
  inferInstanceAs (Decidable (∀ session ∈ state.store.sessions.rows,
    session.rollup = state.store.sessionRollup session.id))

def oneUpload : List Action :=
  let agent : Agent := ⟨⟨1⟩, ⟨9⟩, none, by decide⟩
  let shot : Screenshot :=
    { id := .zero, orgID := ⟨9⟩, employeeID := none, deviceID := some ⟨1⟩, sessionID := some ⟨5⟩
      capturedAt := 1, intervalStart := 1, intervalEnd := 1, storageKey := "", bytes := 1
      activityPercent := 50, activeSeconds := 30, intervalSeconds := 60, state := .active }
  [.startSession agent { calm 1 with fresh := ⟨5⟩ } ⟨"", "", none⟩, .start 0 (.insertShot shot),
    .call 0 true 1 ⟨11⟩, .call 0 true 1 ⟨12⟩, .call 0 true 1 ⟨13⟩]

theorem totalsMatch_oneUpload : ∃ final, exec State.step initial oneUpload = some final ∧
    final.Quiet ∧ final.TotalsMatch := by
  have runs : (exec State.step initial oneUpload).isSome = true := by decide +kernel
  have executed := (Option.some_get runs).symm
  have quiet : ((exec State.step initial oneUpload).get runs).Quiet := by
    intro number
    cases number with
    | zero => rfl
    | succ number => rfl
  have prompt : AllSteps State.step (fun state action => state.Prompt action = true) initial
      oneUpload := allSteps_of_checkSteps (by decide +kernel)
  exact ⟨_, executed, quiet, totalsMatch_of_careful starts_initial
    (prompt.mono fun _ _ => careful_of_prompt) executed quiet⟩

def sweptUpload : List Action :=
  oneUpload ++ [.start 1 (.findOld ⟨9⟩ 100), .call 1 true 100 ⟨14⟩, .call 1 true 100 ⟨15⟩,
    .call 1 true 100 ⟨16⟩]

def sweptState : State := (exec State.step initial sweptUpload).getD initial

def AlwaysTotalsMatch : Prop :=
  ∀ state trace final, state.Starts → exec State.step state trace = some final → final.Quiet →
    final.TotalsMatch

/-- The session still counts the screenshot that the sweep deleted. -/
theorem not_alwaysTotalsMatch : ¬AlwaysTotalsMatch := by
  intro always
  have executed : exec State.step initial sweptUpload = some sweptState := rfl
  have quiet : sweptState.Quiet := by
    intro number
    rcases number with _ | _ | number
    · rfl
    · rfl
    · rfl
  have stale : ¬sweptState.TotalsMatch := by decide +kernel
  exact stale (always initial sweptUpload sweptState starts_initial executed quiet)

end State

end Aavishield.Monitoring
