import Aavishield.Agent.Endpoints
import Aavishield.Lib.TransitionSystem

/-!
# When the agent takes itself for unenrolled

The client of the agent sets one flag on a 401 or 403 of any endpoint, and from then on
nothing is enforced.  The file finds every request that such an answer can come from, and
follows the flag through the runs of an agent, the server and what changes on the server.
-/

namespace Aavishield.Agent

open TransitionSystem

variable (env : Primitives)

/-- The statuses on which `check_revoked` sets the flag. -/
def rejects (status : Status) : Prop := status = statusUnauthorized ∨ status = statusForbidden

instance : DecidablePred rejects := fun _ => inferInstanceAs (Decidable (_ ∨ _))

structure Config where
  deviceID : UUID
  agentKey : String

def Config.authHeader (config : Config) : Authorization :=
  .bearer config.deviceID config.agentKey

def Server.holdsKey (server : Server) (config : Config) : Bool :=
  server.db.agentTokens.any (·.admits config.deviceID (env.agentKeyHash config.agentKey))

/-- The credentials are looked up in a table that cannot be read. -/
def UnreadableKey (server : Server) (faults : Faults) (config : Config) (request : Request) :
    Prop :=
  request.limited = false ∧
    cachedToken faults (request.cache server) config.deviceID
      (env.agentKeyHash config.agentKey) = none ∧
    faults.failed .agentTokens = true

def RefusedRequest (db : Database) (faults : Faults) (identity : Identity) : Request → Prop
  | .authorizeUninstall _ email password =>
    email ≠ "" ∧ password ≠ "" ∧ deviceFound db faults identity = true ∧
      ∀ admin, first faults .users db.users (·.approves env identity.orgID email) =
        .ok admin → env.compareHashAndPassword admin.passwordHash password = false
  | .uploadScreenshot _ => (screenshotSettingsFor db faults identity.orgID).enabled = false
  | .casbAppControl domainGiven enabled reviewedBlock answer =>
    domainGiven = true ∧ enabled = true ∧ reviewedBlock = false ∧ ∃ status ∈ answer, rejects status
  | _ => False

/-- The server takes the device's key for good and yet the answer rejects it. -/
def Misleads (server : Server) (faults : Faults) (config : Config) (request : Request) : Prop :=
  server.holdsKey env config = true ∧
    (UnreadableKey env server faults config request ∨
      request.limited = false ∧
        ∃ identity, authAgent env server.db (request.cache server) faults config.authHeader =
          .ok identity ∧ RefusedRequest env server.db faults identity request)

theorem not_rejects_ok : ¬rejects statusOK := by decide

theorem not_rejects_ite {answered : Prop} [Decidable answered] {first second : Status}
    (notFirst : ¬rejects first) (notSecond : ¬rejects second) :
    ¬rejects (if answered then first else second) := by
  split_ifs
  · exact notFirst
  · exact notSecond

theorem not_rejects_respondStoreError (error : StoreError) : ¬rejects (respondStoreError error) := by
  cases error <;> decide

theorem not_rejects_storeStatus (result : Except StoreError Unit) :
    ¬rejects (storeStatus result) := by
  cases result with
  | ok _ => exact not_rejects_ok
  | error error => exact not_rejects_respondStoreError error

theorem not_rejects_reportActivity (bodyValid : Bool) (kept : ℕ) (recorded : Bool) :
    ¬rejects (reportActivity bodyValid kept recorded) := by
  unfold reportActivity
  split_ifs <;> decide

theorem not_rejects_reportDeduped (bodyValid recorded : Bool) :
    ¬rejects (reportDeduped bodyValid recorded) := by
  unfold reportDeduped
  split_ifs <;> decide

theorem not_rejects_createScanJob (sizeValid slotFree spooled : Bool) :
    ¬rejects (createScanJob sizeValid slotFree spooled) := by
  unfold createScanJob
  split_ifs <;> decide

theorem not_rejects_uploadScanJobPart (found offsetValid accepting : Bool) (part : ScanJobPart) :
    ¬rejects (uploadScanJobPart found offsetValid accepting part) := by
  unfold uploadScanJobPart
  split_ifs
  · decide
  · decide
  · decide
  · cases part with
    | repeated => decide
    | gap => decide
    | next stored => cases stored <;> decide

theorem not_rejects_completeScanJob (found uploading complete : Bool) :
    ¬rejects (completeScanJob found uploading complete) := by
  unfold completeScanJob
  split_ifs <;> decide

theorem not_rejects_startSession (resolved : Except StoreError OpenSession) :
    ¬rejects (startSession resolved) := by
  cases resolved with
  | error error => exact not_rejects_respondStoreError error
  | ok open_ =>
    cases open_ with
    | failed error => exact not_rejects_respondStoreError error
    | resumed => decide
    | absent inserted => exact not_rejects_storeStatus inserted

theorem not_rejects_endSession (bodyValid idValid : Bool)
    (resolved updated : Except StoreError Unit) :
    ¬rejects (endSession bodyValid idValid resolved updated) := by
  unfold endSession
  split_ifs
  · decide
  · decide
  · cases resolved with
    | error error => exact not_rejects_respondStoreError error
    | ok _ => exact not_rejects_storeStatus updated

theorem rejects_uploadScreenshot_iff (db : Database) (faults : Faults) (orgID : UUID)
    (upload : ScreenshotUpload) :
    rejects (uploadScreenshot db faults orgID upload) ↔
      (screenshotSettingsFor db faults orgID).enabled = false := by
  cases enabled : (screenshotSettingsFor db faults orgID).enabled with
  | false => simp [uploadScreenshot, enabled, rejects]
  | true =>
    suffices ¬rejects (uploadScreenshot db faults orgID upload) by simpa
    simp only [uploadScreenshot, enabled, Bool.not_true, Bool.false_eq_true, if_false]
    cases upload with
    | tooLarge => decide
    | empty => decide
    | unresolved error => exact not_rejects_respondStoreError error
    | fileFailed unavailable => cases unavailable <;> decide
    | stored inserted => exact not_rejects_storeStatus inserted

theorem not_rejects_getMITMConfig (db : Database) (faults : Faults) (orgID : UUID) :
    ¬rejects (getMITMConfig db faults orgID) := by
  unfold getMITMConfig
  split <;> decide

theorem not_rejects_signCert (bodyValid loaded issued : Bool) :
    ¬rejects (signCert bodyValid loaded issued) := by
  unfold signCert
  split_ifs <;> decide

theorem rejects_casbAppControl_iff (domainGiven enabled reviewedBlock : Bool)
    (answer : CASBAnswer) :
    rejects (casbAppControl domainGiven enabled reviewedBlock answer) ↔
      domainGiven = true ∧ enabled = true ∧ reviewedBlock = false ∧
        ∃ status ∈ answer, rejects status := by
  cases domainGiven with
  | false => simp +decide [casbAppControl, rejects]
  | true => cases enabled with
    | false => simp +decide [casbAppControl, rejects]
    | true => cases reviewedBlock with
      | true => simp +decide [casbAppControl, rejects]
      | false => cases answer with
        | none => exact iff_of_false not_rejects_ok (by simp)
        | some status =>
          simp only [casbAppControl, rejects, Option.mem_some_iff, exists_eq_left']
          split_ifs with outage <;> grind

theorem not_rejects_reportLifecycle (db : Database) (faults : Faults) (identity : Identity) :
    ¬rejects (reportLifecycle db faults identity) := by
  unfold reportLifecycle
  split_ifs <;> decide

theorem rejects_authorizeUninstall_iff (db : Database) (faults : Faults) (identity : Identity)
    (email password : String) :
    rejects (authorizeUninstall env db faults identity email password) ↔
      email ≠ "" ∧ password ≠ "" ∧ deviceFound db faults identity = true ∧
        ∀ admin, first faults .users db.users (·.approves env identity.orgID email) =
          .ok admin → env.compareHashAndPassword admin.passwordHash password = false := by
  by_cases incomplete : email = "" ∨ password = ""
  · have complete : ¬(email ≠ "" ∧ password ≠ "") := by tauto
    simp only [authorizeUninstall, incomplete, if_true]
    exact ⟨fun rejected => absurd rejected (by decide), fun asked => absurd ⟨asked.1, asked.2.1⟩ complete⟩
  · rcases not_or.mp incomplete with ⟨hasEmail, hasPassword⟩
    simp only [authorizeUninstall, ne_eq, hasEmail, hasPassword, or_self, if_false,
      not_false_eq_true, true_and]
    cases found : deviceFound db faults identity with
    | false => simp +decide [rejects]
    | true =>
      cases first faults .users db.users (·.approves env identity.orgID email) with
      | error _ => simp [rejects]
      | ok admin =>
        cases matched : env.compareHashAndPassword admin.passwordHash password <;>
          simp +decide [rejects, matched]

theorem rejects_respond_iff (db : Database) (faults : Faults) (identity : Identity)
    (request : Request) :
    rejects (request.respond env db faults identity) ↔
      RefusedRequest env db faults identity request := by
  cases request with
  | uploadScreenshot upload => exact rejects_uploadScreenshot_iff db faults identity.orgID upload
  | casbAppControl domainGiven enabled reviewedBlock answer =>
    exact rejects_casbAppControl_iff domainGiven enabled reviewedBlock answer
  | authorizeUninstall rateLimited email password =>
    exact rejects_authorizeUninstall_iff env db faults identity email password
  | reportActivity bodyValid kept recorded =>
    exact iff_of_false (not_rejects_reportActivity bodyValid kept recorded) id
  | reportAppBlock bodyValid recorded | reportBrowserExtension bodyValid recorded =>
    exact iff_of_false (not_rejects_reportDeduped bodyValid recorded) id
  | createScanJob sizeValid slotFree spooled =>
    exact iff_of_false (not_rejects_createScanJob sizeValid slotFree spooled) id
  | uploadScanJobPart found offsetValid accepting part =>
    exact iff_of_false (not_rejects_uploadScanJobPart found offsetValid accepting part) id
  | completeScanJob found uploading complete =>
    exact iff_of_false (not_rejects_completeScanJob found uploading complete) id
  | startSession resolved => exact iff_of_false (not_rejects_startSession resolved) id
  | endSession bodyValid idValid resolved updated =>
    exact iff_of_false (not_rejects_endSession bodyValid idValid resolved updated) id
  | getMITMConfig => exact iff_of_false (not_rejects_getMITMConfig db faults identity.orgID) id
  | signCert bodyValid loaded issued =>
    exact iff_of_false (not_rejects_signCert bodyValid loaded issued) id
  | deviceConnected | deviceDisconnected => exact iff_of_false (not_rejects_reportLifecycle db faults identity) id
  | heartbeat | getConfig | policyPublicKey | getAppControl | getBranding | reportOffline =>
    exact iff_of_false not_rejects_ok id
  | agentVersion answered | scanFile answered | scanHash answered | getScanJob answered
  | reportInventory answered | scanDLP answered | getCACert answered | threatLookup answered =>
    exact iff_of_false (not_rejects_ite (by decide) (by decide)) id
  | getRules encoded unchanged =>
    exact iff_of_false
      (not_rejects_ite (by decide) (not_rejects_ite (by decide) (by decide))) id
  | reportMITMRefusal bodyValid hostname =>
    exact iff_of_false (not_rejects_ite (by decide) (by decide)) id

theorem holdsKey_iff_first (server : Server) (faults : Faults) (config : Config)
    (readable : faults.failed .agentTokens = false) :
    server.holdsKey env config = true ↔
      ∃ token, first faults .agentTokens server.db.agentTokens
        (·.admits config.deviceID (env.agentKeyHash config.agentKey)) = .ok token := by
  simp only [first, readable, Bool.false_eq_true, if_false, Server.holdsKey]
  cases found : server.db.agentTokens.find?
      (·.admits config.deviceID (env.agentKeyHash config.agentKey)) with
  | none => simpa using found
  | some token =>
    simp only [Except.ok.injEq, exists_eq', iff_true, List.any_eq_true]
    exact ⟨token, List.mem_of_find?_eq_some found, (List.find?_eq_some_iff_append.mp found).1⟩

theorem not_rejects_identified {deviceID orgID : UUID} {status : Status}
    (answered : authAgent.identified deviceID orgID = .error status) : ¬rejects status := by
  unfold authAgent.identified at answered
  split_ifs at answered
  cases answered
  exact not_rejects_ok

theorem rejects_authAgent_iff {server : Server} {faults : Faults} {config : Config}
    {request : Request} {status : Status} (held : server.holdsKey env config = true)
    (answered : authAgent env server.db (request.cache server) faults config.authHeader =
      .error status) :
    rejects status ↔
      cachedToken faults (request.cache server) config.deviceID
        (env.agentKeyHash config.agentKey) = none ∧ faults.failed .agentTokens = true := by
  simp only [authAgent, Config.authHeader] at answered
  cases lookup : cachedToken faults (request.cache server) config.deviceID
      (env.agentKeyHash config.agentKey) with
  | some cached =>
    simp only [lookup] at answered
    exact iff_of_false (not_rejects_identified answered) (by simp)
  | none =>
    simp only [lookup] at answered
    cases readable : faults.failed .agentTokens with
    | true =>
      simp only [first, readable, if_true, Except.error.injEq] at answered
      subst answered
      simp [rejects]
    | false =>
      rcases (holdsKey_iff_first env server faults config readable).mp held with
        ⟨token, found⟩
      simp only [found] at answered
      exact iff_of_false (not_rejects_identified answered) (by simp)

theorem rejects_status_iff_misleads {server : Server} {faults : Faults} {config : Config}
    {request : Request} (held : server.holdsKey env config = true) :
    rejects (request.status env server faults config.authHeader) ↔
      Misleads env server faults config request := by
  simp only [Misleads, held, true_and, UnreadableKey, Request.status]
  cases limited : request.limited with
  | true =>
    rw [if_pos rfl]
    exact iff_of_false (by decide) (by simp)
  | false =>
    simp only [Bool.false_eq_true, if_false, true_and]
    cases answered : authAgent env server.db (request.cache server) faults
        config.authHeader with
    | error status => simp [rejects_authAgent_iff env held answered]
    | ok identity =>
      have admitted : ¬(cachedToken faults (request.cache server) config.deviceID
          (env.agentKeyHash config.agentKey) = none ∧
            faults.failed .agentTokens = true) := by
        rintro ⟨lookup, failed⟩
        simp [authAgent, Config.authHeader, lookup, first, failed] at answered
      simp [rejects_respond_iff, admitted]

structure Answer where
  status : Status
  keyHeld : Bool

inductive Cause where
  | rejected (keyHeld : Bool)
  | disconnected
  deriving DecidableEq

/-- `revoked` is the flag of `AgentRevoked`, with what set it. -/
structure State where
  server : Server
  config : Config
  inFlight : List Answer
  disconnecting : Bool
  revoked : Option Cause

/--
The agent sends a request, which the server answers; an answer arrives; the employee
clicks Disconnect, and `handle_disconnect` comes to its end; the process is started
again, with the credentials it then has; and anything else changes what the server
stores (an enrolment, a removal from the dashboard, settings, expiring cache entries).
-/
inductive Action where
  | send (request : Request) (faults : Faults)
  | receive (index : ℕ)
  | disconnect
  | finishDisconnect
  | restart (config : Config)
  | serverChanges (server : Server)

def State.checkRevoked (state : State) (answer : Answer) : State :=
  if rejects answer.status ∧ state.revoked = none then
    { state with revoked := some (.rejected answer.keyHeld) }
  else state

/-- Requests and their answers may overlap. -/
def step (state : State) : Action → Option State
  | .send request faults =>
    let header := state.config.authHeader
    some { state with
      server := request.effect env state.server faults header
      inFlight := state.inFlight ++ [
        { status := request.status env state.server faults header
          keyHeld := state.server.holdsKey env state.config }] }
  | .receive index => do
    let answer ← state.inFlight[index]?
    some ({ state with inFlight := state.inFlight.eraseIdx index }.checkRevoked answer)
  | .disconnect => some { state with disconnecting := true }
  | .finishDisconnect =>
    if state.disconnecting then some { state with revoked := some .disconnected } else none
  | .restart config =>
    some { state with config, inFlight := [], disconnecting := false, revoked := none }
  | .serverChanges server => some { state with server }

/-- An agent that has asked nothing yet. -/
def State.started (server : Server) (config : Config) : State where
  server := server
  config := config
  inFlight := []
  disconnecting := false
  revoked := none

/-- The flag is not set by an answer given while the server held the device's key. -/
def State.KeepsManaged (state : State) : Prop := state.revoked ≠ some (.rejected true)

/-- No request misleads the agent about its key. -/
def Clear (state : State) : Action → Prop
  | .send request faults => ¬Misleads env state.server faults state.config request
  | _ => True

/-- Nothing that is still to arrive will set the flag wrongly. -/
structure Invariant (state : State) : Prop where
  keepsManaged : state.KeepsManaged
  inFlight : ∀ answer ∈ state.inFlight, rejects answer.status → answer.keyHeld = false

theorem State.checkRevoked_inFlight (state : State) (answer : Answer) :
    (state.checkRevoked answer).inFlight = state.inFlight := by
  unfold State.checkRevoked
  split_ifs <;> rfl

theorem State.checkRevoked_keepsManaged {state : State} {answer : Answer}
    (keepsManaged : state.KeepsManaged) (truthful : rejects answer.status → answer.keyHeld = false) :
    (state.checkRevoked answer).KeepsManaged := by
  unfold State.checkRevoked
  split_ifs with rejected
  · simp [State.KeepsManaged, truthful rejected.1]
  · exact keepsManaged

theorem Invariant.step {state next : State} {action : Action} (invariant : Invariant state)
    (clear : Clear env state action) (stepped : step env state action = some next) :
    Invariant next := by
  cases action with
  | send request faults =>
    simp only [Agent.step, Option.some.injEq] at stepped
    subst stepped
    refine ⟨invariant.keepsManaged, ?_⟩
    intro answer answerMem rejected
    rcases List.mem_append.mp answerMem with before | added
    · exact invariant.inFlight answer before rejected
    · cases List.mem_singleton.mp added
      apply Bool.eq_false_iff.mpr
      intro held
      exact clear ((rejects_status_iff_misleads env held).mp rejected)
  | receive index =>
    simp only [Agent.step, Option.bind_eq_bind, Option.bind_eq_some_iff,
      Option.some.injEq] at stepped
    rcases stepped with ⟨answer, arrived, rfl⟩
    have answerMem : answer ∈ state.inFlight := List.mem_of_getElem? arrived
    constructor
    · exact State.checkRevoked_keepsManaged invariant.keepsManaged
        (invariant.inFlight answer answerMem)
    · intro other otherMem
      rw [State.checkRevoked_inFlight] at otherMem
      exact invariant.inFlight other (List.mem_of_mem_eraseIdx otherMem)
  | disconnect | serverChanges server =>
    cases stepped
    exact ⟨invariant.keepsManaged, invariant.inFlight⟩
  | finishDisconnect =>
    simp only [Agent.step, Option.ite_none_right_eq_some, Option.some.injEq] at stepped
    rcases stepped with ⟨-, rfl⟩
    exact ⟨by simp [State.KeepsManaged], invariant.inFlight⟩
  | restart config =>
    cases stepped
    exact ⟨by simp [State.KeepsManaged], by simp⟩

def UnmanagedOnlyWhenRejected : Prop :=
  ∀ server config trace final,
    exec (step env) (State.started server config) trace = some final → final.KeepsManaged

/--
In a run without a misleading request the flag is set only by an answer that the server
gave while it did not hold the device's key, or by the employee.
-/
theorem keepsManaged_of_clear {server : Server} {config : Config} {trace : List Action}
    {final : State}
    (clear : AllSteps (step env) (Clear env) (State.started server config) trace)
    (executed : exec (step env) (State.started server config) trace = some final) :
    final.KeepsManaged := by
  have initially : Invariant (State.started server config) :=
    ⟨by simp [State.KeepsManaged, State.started], by simp [State.started]⟩
  have finally_ : Invariant final :=
    invariant_of_allSteps
      (fun _ _ _ invariant clear stepped => invariant.step env clear stepped)
      initially clear executed
  exact finally_.keepsManaged

def samplePrimitives : Primitives where
  agentKeyHash := fun key =>
    if key = "dsa_00" then "aedf094360bc7d2b5828a519ac76517c788c2f5920a48dc472c5ab226977aa8c" else ""
  lower := id
  trimSpace := id
  compareHashAndPassword := fun _ password => password == "correct horse"

def sampleConfig : Config := ⟨⟨7⟩, "dsa_00"⟩

def sampleServer (revoked : Bool) : Server where
  db :=
    { agentTokens := [⟨⟨7⟩, ⟨1⟩, "aedf094360bc7d2b5828a519ac76517c788c2f5920a48dc472c5ab226977aa8c", revoked⟩]
      devices := [⟨⟨7⟩, ⟨1⟩⟩]
      users := [⟨⟨1⟩, "admin@example.com", true, .orgAdmin, "$2a$10$hash"⟩]
      screenshotSettings := []
      organizations := [⟨1⟩] }
  rdb := none

def noFaults : Faults := ⟨fun _ => false, false⟩

/-- The administrator removes the device, and its next heartbeat is rejected. -/
theorem removedDevice_keepsManaged :
    ∃ final,
      exec (step samplePrimitives) (State.started (sampleServer false) sampleConfig)
        [.serverChanges (sampleServer true), .send .heartbeat noFaults, .receive 0] = some final ∧
      final.revoked = some (.rejected false) ∧ final.KeepsManaged := by
  have clear : AllSteps (step samplePrimitives) (Clear samplePrimitives)
      (State.started (sampleServer false) sampleConfig)
      [.serverChanges (sampleServer true), .send .heartbeat noFaults, .receive 0] := by
    simp only [AllSteps, Clear, and_true, true_and, implies_true]
    intro next changed
    cases changed
    exact fun misleads => absurd misleads.1 (by decide)
  exact ⟨_, rfl, rfl, keepsManaged_of_clear samplePrimitives clear rfl⟩

/-- The person at the keyboard mistypes the administrator's password. -/
theorem not_unmanagedOnlyWhenRejected : ¬UnmanagedOnlyWhenRejected samplePrimitives := by
  intro claimed
  exact claimed (sampleServer false) sampleConfig
    [.send (.authorizeUninstall false "admin@example.com" "wrong") noFaults, .receive 0]
    _ rfl rfl

end Aavishield.Agent
