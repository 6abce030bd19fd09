import Aavishield.Dataplane.Tables
import Mathlib.Algebra.Field.Rat
import Mathlib.Data.List.Sort

/-!
# Sessions and screenshots in a data store

A store holds the work sessions, the screenshots and the activity events of the
organisations whose data it keeps: Aavishield's own store those of most of them, a company's
those of that company.  Every call selects its rows by a query, and a field of the query
that is not set selects nothing out, the organisation included.  The two implementations
of a store put the same conditions on the rows.
-/

namespace Aavishield.Monitoring

open Dataplane (ActivityEvent HasID Table)

/-- A stretch of work on one device (`models.WorkSession`); the totals are its screenshots'. -/
structure WorkSession where
  id : UUID
  orgID : UUID
  employeeID : Option UUID
  deviceID : Option UUID
  startedAt : Time
  endedAt : Option Time
  hostname : String
  ip : String
  screenshotCount : ℤ
  activeSeconds : ℤ
  trackedSeconds : ℤ
  avgActivity : ℚ
  updatedAt : Time
  deriving DecidableEq

inductive ActivityState where
  | active
  | idle
  deriving DecidableEq

/-- A captured screen and the activity since the previous one (`models.Screenshot`). -/
structure Screenshot where
  id : UUID
  orgID : UUID
  employeeID : Option UUID
  deviceID : Option UUID
  sessionID : Option UUID
  capturedAt : Time
  intervalStart : Time
  intervalEnd : Time
  storageKey : String
  bytes : ℕ
  activityPercent : ℤ
  activeSeconds : ℤ
  intervalSeconds : ℤ
  state : ActivityState
  deriving DecidableEq

instance : HasID WorkSession := ⟨WorkSession.id⟩
instance : HasID Screenshot := ⟨Screenshot.id⟩

structure Rollup where
  count : ℤ
  active : ℤ
  tracked : ℤ
  avgActivity : ℚ
  deriving DecidableEq

def WorkSession.rollup (session : WorkSession) : Rollup where
  count := session.screenshotCount
  active := session.activeSeconds
  tracked := session.trackedSeconds
  avgActivity := session.avgActivity

/-- The columns that a session's end sets; a store adds `updated_at`. -/
def WorkSession.close (ended now : Time) (session : WorkSession) : WorkSession :=
  { session with endedAt := some ended, updatedAt := now }

def WorkSession.setTotals (totals : Rollup) (now : Time) (session : WorkSession) : WorkSession :=
  { session with
    screenshotCount := totals.count
    activeSeconds := totals.active
    trackedSeconds := totals.tracked
    avgActivity := totals.avgActivity
    updatedAt := now }

@[simp]
theorem WorkSession.id_close (ended now : Time) (session : WorkSession) :
    (session.close ended now).id = session.id := rfl

@[simp]
theorem WorkSession.id_setTotals (totals : Rollup) (now : Time) (session : WorkSession) :
    (session.setTotals totals now).id = session.id := rfl

@[simp]
theorem WorkSession.rollup_setTotals (totals : Rollup) (now : Time) (session : WorkSession) :
    (session.setTotals totals now).rollup = totals := rfl

/-- The fields of `SessionQuery` that the monitoring handlers set. -/
structure SessionQuery where
  orgID : UUID := .zero
  ids : List UUID := []
  deviceID : Option UUID := none
  stillOpen : Option Bool := none
  updatedSince : Time := 0
  endedBefore : Time := 0
  noScreenshots : Bool := false
  employeeID : Option UUID := none
  updatedBefore : Time := 0
  startedBefore : Time := 0
  activeAfter : Time := 0

/-- `sessionScope` of the SQL stores and `sessionFilter` of the document store. -/
def SessionQuery.selects (query : SessionQuery) (session : WorkSession) : Bool :=
  (decide (query.orgID = .zero) || decide (session.orgID = query.orgID)) &&
    (query.ids.isEmpty || decide (session.id ∈ query.ids)) &&
    (query.deviceID.isNone || decide (session.deviceID = query.deviceID)) &&
    (match query.stillOpen with
    | none => true
    | some true => session.endedAt.isNone
    | some false => session.endedAt.isSome) &&
    (query.updatedSince.isZero || decide (query.updatedSince ≤ session.updatedAt)) &&
    (query.endedBefore.isZero || session.endedAt.any (· < query.endedBefore)) &&
    (!query.noScreenshots || decide (session.screenshotCount = 0)) &&
    (query.employeeID.isNone || decide (session.employeeID = query.employeeID)) &&
    (query.updatedBefore.isZero || decide (session.updatedAt < query.updatedBefore)) &&
    (query.startedBefore.isZero || decide (session.startedAt < query.startedBefore)) &&
    (query.activeAfter.isZero || session.endedAt.all (query.activeAfter ≤ ·))

theorem SessionQuery.selects_iff {query : SessionQuery} {session : WorkSession} :
    query.selects session = true ↔
      (query.orgID = .zero ∨ session.orgID = query.orgID) ∧
        (query.ids = [] ∨ session.id ∈ query.ids) ∧
        (query.deviceID = none ∨ session.deviceID = query.deviceID) ∧
        (query.stillOpen.all fun stillOpen => session.endedAt.isNone = stillOpen) ∧
        (query.updatedSince = 0 ∨ query.updatedSince ≤ session.updatedAt) ∧
        (query.endedBefore = 0 ∨ session.endedAt.any (· < query.endedBefore)) ∧
        (query.noScreenshots = false ∨ session.screenshotCount = 0) ∧
        (query.employeeID = none ∨ session.employeeID = query.employeeID) ∧
        (query.updatedBefore = 0 ∨ session.updatedAt < query.updatedBefore) ∧
        (query.startedBefore = 0 ∨ session.startedAt < query.startedBefore) ∧
        (query.activeAfter = 0 ∨ session.endedAt.all (query.activeAfter ≤ ·)) := by
  have opened : (match query.stillOpen with
      | none => true
      | some true => session.endedAt.isNone
      | some false => session.endedAt.isSome) =
      query.stillOpen.all fun stillOpen => session.endedAt.isNone = stillOpen := by
    rcases query.stillOpen with _ | _ | _
    · rfl
    · cases session.endedAt <;> rfl
    · cases session.endedAt <;> rfl
  simp only [SessionQuery.selects, opened, Bool.and_eq_true, Bool.or_eq_true, decide_eq_true_eq,
    List.isEmpty_iff, Option.isNone_iff_eq_none, Time.isZero, Bool.not_eq_true', and_assoc]

/-- The fields of `ScreenshotQuery` that the monitoring handlers set. -/
structure ScreenshotQuery where
  orgID : UUID := .zero
  ids : List UUID := []
  sessionID : Option UUID := none
  capturedBefore : Time := 0
  limit : ℕ := 0
  employeeID : Option UUID := none
  capturedSince : Time := 0

/-- `shotScope` of the SQL stores and `shotFilter` of the document store. -/
def ScreenshotQuery.selects (query : ScreenshotQuery) (shot : Screenshot) : Bool :=
  (decide (query.orgID = .zero) || decide (shot.orgID = query.orgID)) &&
    (query.ids.isEmpty || decide (shot.id ∈ query.ids)) &&
    (query.sessionID.isNone || decide (shot.sessionID = query.sessionID)) &&
    (query.capturedBefore.isZero || decide (shot.capturedAt < query.capturedBefore)) &&
    (query.employeeID.isNone || decide (shot.employeeID = query.employeeID)) &&
    (query.capturedSince.isZero || decide (query.capturedSince ≤ shot.capturedAt))

theorem ScreenshotQuery.selects_iff {query : ScreenshotQuery} {shot : Screenshot} :
    query.selects shot = true ↔
      (query.orgID = .zero ∨ shot.orgID = query.orgID) ∧
        (query.ids = [] ∨ shot.id ∈ query.ids) ∧
        (query.sessionID = none ∨ shot.sessionID = query.sessionID) ∧
        (query.capturedBefore = 0 ∨ shot.capturedAt < query.capturedBefore) ∧
        (query.employeeID = none ∨ shot.employeeID = query.employeeID) ∧
        (query.capturedSince = 0 ∨ query.capturedSince ≤ shot.capturedAt) := by
  simp only [ScreenshotQuery.selects, Bool.and_eq_true, Bool.or_eq_true, decide_eq_true_eq,
    List.isEmpty_iff, Option.isNone_iff_eq_none, Time.isZero, and_assoc]

structure Store where
  sessions : Table WorkSession
  screenshots : Table Screenshot
  events : List ActivityEvent

namespace Store

variable (store : Store)

def empty : Store := ⟨.empty, .empty, []⟩

/-- `FindSessions`, ordered by `updated_at_desc`. -/
def findSessions (query : SessionQuery) : List WorkSession :=
  (store.sessions.rows.filter query.selects).insertionSort fun first second =>
    second.updatedAt ≤ first.updatedAt

def insertSession (session : WorkSession) : Store :=
  { store with sessions := store.sessions.insert session }

/-- `UpdateSessions`; the columns that are set never hold the primary key. -/
def updateSessions (query : SessionQuery) (set : WorkSession → WorkSession)
    (keeps : ∀ session, (set session).id = session.id) : Store :=
  { store with
    sessions := store.sessions.update
      (fun session => if query.selects session then set session else session)
      (by intro session; split; exact keeps session; rfl) }

theorem mem_updateSessions {store : Store} {query : SessionQuery} {set : WorkSession → WorkSession}
    (keeps : ∀ session, (set session).id = session.id) {session : WorkSession} :
    session ∈ (store.updateSessions query set keeps).sessions.rows ↔
      ∃ row ∈ store.sessions.rows, (if query.selects row then set row else row) = session := by
  simp [updateSessions, Table.update]

def deleteSessions (query : SessionQuery) : Store :=
  { store with sessions := store.sessions.delete query.selects }

def insertScreenshot (shot : Screenshot) : Store :=
  { store with screenshots := store.screenshots.insert shot }

/-- `FindScreenshots`, the oldest first. -/
def findScreenshots (query : ScreenshotQuery) : List Screenshot :=
  let found := (store.screenshots.rows.filter query.selects).insertionSort fun first second =>
    first.capturedAt ≤ second.capturedAt
  if query.limit = 0 then found else found.take query.limit

def deleteScreenshots (query : ScreenshotQuery) : Store :=
  { store with screenshots := store.screenshots.delete query.selects }

/-- The average of whole numbers, zero when there are none (`COALESCE(AVG(..), 0)`). -/
def average (values : List ℤ) : ℚ := if values.isEmpty then 0 else values.sum / values.length

/-- `SessionRollup`: the totals of the screenshots that carry the session's id. -/
def sessionRollup (sessionID : UUID) : Rollup :=
  let query : ScreenshotQuery := { sessionID := some sessionID }
  let shots := store.screenshots.rows.filter query.selects
  { count := shots.length
    active := (shots.map Screenshot.activeSeconds).sum
    tracked := (shots.map Screenshot.intervalSeconds).sum
    avgActivity := average (shots.map Screenshot.activityPercent) }

section Rollup

variable {store : Store} {id : UUID} {shot : Screenshot}

theorem selects_bySession :
    ({ sessionID := some id } : ScreenshotQuery).selects =
      fun shot => decide (shot.sessionID = some id) := by
  funext shot
  simp [ScreenshotQuery.selects, Time.isZero]

theorem sessionRollup_congr {other : Store}
    (same : (other.screenshots.rows.filter fun shot => shot.sessionID = some id) =
      store.screenshots.rows.filter fun shot => shot.sessionID = some id) :
    other.sessionRollup id = store.sessionRollup id := by
  simp only [sessionRollup, selects_bySession, same]

theorem sessionRollup_insertScreenshot (elsewhere : shot.sessionID ≠ some id) :
    (store.insertScreenshot shot).sessionRollup id = store.sessionRollup id := by
  apply sessionRollup_congr
  simp only [insertScreenshot, Table.insert]
  split
  · rfl
  · exact List.filter_cons_of_neg (by simpa using elsewhere)

theorem sessionRollup_deleteScreenshots {query : ScreenshotQuery}
    (elsewhere : ∀ shot ∈ store.screenshots.rows, query.selects shot = true →
      shot.sessionID ≠ some id) :
    (store.deleteScreenshots query).sessionRollup id = store.sessionRollup id := by
  apply sessionRollup_congr
  simp only [deleteScreenshots, Table.delete, List.filter_filter]
  apply List.filter_congr
  intro shot mem
  cases selected : query.selects shot with
  | false => simp
  | true => simpa using elsewhere shot mem selected

theorem sessionRollup_of_unnamed
    (unnamed : ∀ shot ∈ store.screenshots.rows, shot.sessionID ≠ some id) :
    store.sessionRollup id = ⟨0, 0, 0, 0⟩ := by
  have none : (store.screenshots.rows.filter fun shot => shot.sessionID = some id) = [] := by
    rw [List.filter_eq_nil_iff]
    intro shot mem
    simpa using unnamed shot mem
  simp [sessionRollup, selects_bySession, none, average]

end Rollup

end Store

end Aavishield.Monitoring
