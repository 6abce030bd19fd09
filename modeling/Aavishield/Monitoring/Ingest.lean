import Aavishield.Monitoring.Store

/-!
# What agents send

The handlers of an authenticated agent's requests: it starts and ends work sessions, uploads
screenshots and reports activity.  Each handler resolves the store of the agent's
organisation and then makes its calls one after another.
-/

namespace Aavishield.Monitoring

open Dataplane (ActivityEvent)

/-- A request's sender, as its token says; an organisation's id is never the zero one. -/
structure Agent where
  deviceID : UUID
  orgID : UUID
  employeeID : Option UUID
  orgID_ne : orgID ≠ .zero

inductive StoreError where
  | unavailable
  | other
  deriving DecidableEq

/-- How the rows of a report end: a company's are kept aside when its store fails. -/
inductive Recording where
  | stored
  | spooled (landed : ℕ)
  | failed (landed : ℕ)
  deriving DecidableEq

/--
What a request meets: the clock, the identifiers generated for its rows (which are new), the
columns read of the device, and which of the calls fail.
-/
structure Surroundings where
  now : Time
  fresh : UUID
  freshEvent : ℕ → UUID
  clientIP : String
  deviceIP : String
  geoCountry : String
  geoCity : String
  resolveError : Option StoreError
  findError : Option StoreError
  insertError : Option StoreError
  updateError : Option StoreError
  rollupError : Option StoreError
  totalsError : Option StoreError
  storedKey : Except StoreError String
  recording : Recording

def calm (now : Time) : Surroundings where
  now := now
  fresh := .zero
  freshEvent _ := .zero
  clientIP := ""
  deviceIP := ""
  geoCountry := ""
  geoCity := ""
  resolveError := none
  findError := none
  insertError := none
  updateError := none
  rollupError := none
  totalsError := none
  storedKey := .ok ""
  recording := .stored

inductive Response where
  | session (id : UUID) (resumed : Bool)
  | ended
  | screenshot (id : UUID) (activityPercent : ℤ)
  | created (count : ℕ)
  | error (status : ℕ) (text : String)
  deriving DecidableEq

def respondStoreError : StoreError → Response
  | .unavailable =>
    .error 503 "Your company's database or file storage can't be reached right now. Check its status under Settings → Data residency."
  | .other => .error 500 "Could not load this data"

structure ScreenshotSettings where
  enabled : Bool
  idleThresholdPercent : ℤ

def staleSessionAfter : ℤ := 15 * 60 * 10 ^ 9

structure StartRequest where
  hostname : String
  ip : String
  startedAt : Option Time

def resumable (agent : Agent) (now : Time) : SessionQuery where
  orgID := agent.orgID
  deviceID := some agent.deviceID
  stillOpen := some true
  updatedSince := now - staleSessionAfter

def startSession (agent : Agent) (around : Surroundings) (request : StartRequest) (store : Store) :
    Store × Response :=
  match around.resolveError, around.findError with
  | some error, _ => (store, respondStoreError error)
  | none, some error => (store, respondStoreError error)
  | none, none =>
    match store.findSessions (resumable agent around.now) with
    | existing :: _ => (store, .session existing.id true)
    | [] =>
      let session : WorkSession :=
        { id := around.fresh
          orgID := agent.orgID
          employeeID := agent.employeeID
          deviceID := some agent.deviceID
          startedAt := request.startedAt.getD around.now
          endedAt := none
          hostname := request.hostname
          ip := if request.ip = "" then around.clientIP else request.ip
          screenshotCount := 0
          activeSeconds := 0
          trackedSeconds := 0
          avgActivity := 0
          updatedAt := around.now }
      match around.insertError with
      | some error => (store, respondStoreError error)
      | none => (store.insertSession session, .session session.id false)

theorem startSession_effect (agent : Agent) (around : Surroundings) (request : StartRequest)
    (store : Store) : (startSession agent around request store).1 = store ∨
      ∃ session : WorkSession, session.id = around.fresh ∧ session.rollup = ⟨0, 0, 0, 0⟩ ∧
        (startSession agent around request store).1 = store.insertSession session := by
  unfold startSession
  split
  · left
    rfl
  · left
    rfl
  · split
    · left
      rfl
    · dsimp only
      split
      · left
        rfl
      · right
        exact ⟨_, rfl, rfl, rfl⟩

def endable (agent : Agent) (sessionID : UUID) : SessionQuery where
  orgID := agent.orgID
  ids := [sessionID]
  stillOpen := some true

/-- `EndSession`; a session id that does not parse is `none`. -/
def endSession (agent : Agent) (around : Surroundings) (sessionID : Option UUID)
    (endedAt : Option Time) (store : Store) : Store × Response :=
  match sessionID with
  | none => (store, .error 400 "Invalid session_id")
  | some sessionID =>
    match around.resolveError, around.updateError with
    | some error, _ => (store, respondStoreError error)
    | none, some error => (store, respondStoreError error)
    | none, none =>
      (store.updateSessions (endable agent sessionID)
        (WorkSession.close (endedAt.getD around.now) around.now) (fun _ => rfl), .ended)

theorem endSession_effect (agent : Agent) (around : Surroundings) (sessionID : Option UUID)
    (endedAt : Option Time) (store : Store) :
    (endSession agent around sessionID endedAt store).1 = store ∨
      ∃ query ended, (endSession agent around sessionID endedAt store).1 =
        store.updateSessions query (WorkSession.close ended around.now) fun _ => rfl := by
  cases sessionID with
  | none =>
    left
    rfl
  | some sessionID =>
    simp only [endSession]
    split
    · left
      rfl
    · left
      rfl
    · right
      exact ⟨_, _, rfl⟩

structure Upload where
  bytes : ℕ
  sessionID : Option UUID
  capturedAt : Option Time
  intervalStart : Option Time
  intervalEnd : Option Time
  intervalSeconds : Option ℤ
  activeSeconds : Option ℤ
  activityPercent : Option ℤ

def maxSize : ℕ := 8 * 1024 * 1024

def clampPercent (percent : ℤ) : ℤ := if percent < 0 then 0 else if 100 < percent then 100 else percent

namespace Upload

variable (upload : Upload) (now : Time)

def captured : Time := upload.capturedAt.getD now

def started : Time := upload.intervalStart.getD (upload.captured now)

def finished : Time := upload.intervalEnd.getD (upload.captured now)

def seconds : ℤ :=
  upload.intervalSeconds.getD ((upload.finished now - upload.started now).tdiv (10 ^ 9))

def active : ℤ := upload.activeSeconds.getD 0

def percent : ℤ :=
  let sent := upload.activityPercent.getD 0
  if sent = 0 ∧ 0 < upload.seconds now then
    clampPercent ((upload.active * 100).tdiv (upload.seconds now))
  else sent

def screenshot (agent : Agent) (settings : ScreenshotSettings) (fresh : UUID) (storedKey : String) :
    Screenshot where
  id := fresh
  orgID := agent.orgID
  employeeID := agent.employeeID
  deviceID := some agent.deviceID
  sessionID := upload.sessionID
  capturedAt := upload.captured now
  intervalStart := upload.started now
  intervalEnd := upload.finished now
  storageKey := storedKey
  bytes := upload.bytes
  activityPercent := upload.percent now
  activeSeconds := upload.active
  intervalSeconds := upload.seconds now
  state := if upload.percent now < settings.idleThresholdPercent then .idle else .active

end Upload

def rolledUp (sessionID : UUID) : SessionQuery where
  ids := [sessionID]

theorem selects_rolledUp {session : WorkSession} {sessionID : UUID} :
    (rolledUp sessionID).selects session = true ↔ session.id = sessionID := by
  simp [SessionQuery.selects_iff, rolledUp]

/-- `refreshSessionRollup`; the errors of its two calls are not reported. -/
def refreshSessionRollup (around : Surroundings) (sessionID : UUID) (store : Store) : Store :=
  match around.rollupError, around.totalsError with
  | none, none =>
    store.updateSessions (rolledUp sessionID)
      (WorkSession.setTotals (store.sessionRollup sessionID) around.now) fun _ => rfl
  | _, _ => store

def uploadScreenshot (agent : Agent) (settings : ScreenshotSettings) (around : Surroundings)
    (upload : Upload) (store : Store) : Store × Response :=
  if !settings.enabled then
    (store, .error 403 "Screenshot capture is disabled for this organization")
  else if maxSize < upload.bytes then (store, .error 413 "Image too large")
  else if upload.bytes = 0 then (store, .error 400 "Empty image")
  else
    match around.resolveError, around.storedKey, around.insertError with
    | some error, _, _ => (store, respondStoreError error)
    | none, .error .unavailable, _ => (store, respondStoreError .unavailable)
    | none, .error .other, _ => (store, .error 502 "Failed to store the image")
    | none, .ok _, some error => (store, respondStoreError error)
    | none, .ok storedKey, none =>
      let shot := upload.screenshot around.now agent settings around.fresh storedKey
      let inserted := store.insertScreenshot shot
      (match upload.sessionID with
        | some sessionID => refreshSessionRollup around sessionID inserted
        | none => inserted,
      .screenshot shot.id shot.activityPercent)

def dropAllowedEvents (events : List ActivityEvent) : List ActivityEvent :=
  events.filter fun event => event.action ≠ "allowed"

def completed (agent : Agent) (around : Surroundings) (index : ℕ) (event : ActivityEvent) :
    ActivityEvent :=
  { event with
    id := around.freshEvent index
    orgID := agent.orgID
    deviceID := some agent.deviceID
    employeeID := event.employeeID <|> agent.employeeID
    timestamp := if event.timestamp.isZero then around.now else event.timestamp
    ipAddress := if event.ipAddress = "" then around.deviceIP else event.ipAddress
    geoCountry := if event.geoCountry = "" then around.geoCountry else event.geoCountry
    geoCity := if event.geoCity = "" then around.geoCity else event.geoCity }

/-- `ReportActivity`; a body that does not parse is `none`. -/
def reportActivity (agent : Agent) (around : Surroundings) (events : Option (List ActivityEvent))
    (store : Store) : Store × Response :=
  match events with
  | none => (store, .error 400 "invalid request body")
  | some events =>
    let kept := (dropAllowedEvents events).mapIdx (completed agent around)
    if kept.isEmpty then (store, .created 0)
    else
      match around.recording with
      | .stored => ({ store with events := store.events ++ kept }, .created kept.length)
      | .spooled landed =>
        ({ store with events := store.events ++ kept.take landed }, .created kept.length)
      | .failed landed =>
        ({ store with events := store.events ++ kept.take landed },
          .error 500 "Failed to save events")

/-- What an agent reports. -/
inductive Request where
  | startSession (request : StartRequest)
  | endSession (sessionID : Option UUID) (endedAt : Option Time)
  | uploadScreenshot (upload : Upload)
  | reportActivity (events : Option (List ActivityEvent))

def Request.handle (agent : Agent) (settings : ScreenshotSettings) (around : Surroundings) :
    Request → Store → Store × Response
  | .startSession request => Monitoring.startSession agent around request
  | .endSession sessionID endedAt => Monitoring.endSession agent around sessionID endedAt
  | .uploadScreenshot upload => Monitoring.uploadScreenshot agent settings around upload
  | .reportActivity events => Monitoring.reportActivity agent around events

end Aavishield.Monitoring
