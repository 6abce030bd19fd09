import Aavishield.Lib.TransitionSystem
import Aavishield.Policy.AppControl

/-!
# Requests for access

An employee asks for access to something that was blocked, and an admin approves, denies or
revokes it.  Every statement to the database is a step of its own, and the steps of requests
interleave.
-/

namespace Aavishield.AccessRequests

open Dataplane (HasID Table)
open DomainRules (AccessRequestKind AccessRequestStatus)
open Text

structure Primitives extends toAppControl : AppControl.Primitives where
  /-- The name of the host of a URL, if it has one (`url.Parse` and `Hostname`). -/
  hostname : List Char → Option (List Char)

def Primitives.ascii : Primitives :=
  { AppControl.Primitives.ascii with hostname := fun _ => none }

structure AccessRequest extends toScoped : AppControl.AccessRequest where
  id : UUID
  label : List Char
  eventID : Option UUID
  policyID : Option UUID
  reason : List Char
  reviewedBy : Option UUID
  reviewedAt : Option Time
  reviewNote : List Char

instance : HasID AccessRequest := ⟨AccessRequest.id⟩

structure AuditLog where
  orgID : UUID
  userID : UUID
  action : AccessRequestStatus
  resourceID : UUID
  note : List Char

inductive EventType where
  | processStart
  | appLaunch
  | webRequest
  | dnsQuery
  | other
  deriving DecidableEq

inductive EventAction where
  | blocked
  | alerted
  | other
  deriving DecidableEq

structure Event where
  id : UUID
  eventType : EventType
  action : EventAction
  operation : List Char
  category : List Char
  target : List Char
  targetDomain : List Char
  policyID : Option UUID
  metadata : String → Option (List Char)

structure AccessTarget where
  kind : AccessRequestKind
  resource : List Char
  label : List Char

variable (env : Primitives)

def Event.text (event : Event) (name : String) : List Char :=
  trimSpace ((event.metadata name).getD [])

def eventHost (event : Event) : List Char :=
  DomainRules.normDomain env.toAppControl.toPrimitives
    (if event.targetDomain = [] then (env.hostname event.target).getD event.target
    else event.targetDomain)

def dlpLabel (event : Event) : List Char :=
  let described := ["service", "destination", "app_name"].map event.text ++ [event.targetDomain]
  let whereTo := (described.find? (· ≠ [])).getD []
  "Sensitive data sent".toList ++ (if whereTo = [] then [] else " to ".toList ++ whereTo) ++
    if event.target = [] then [] else " (".toList ++ event.target ++ ")".toList

def requestableFrom (event : Event) : Option AccessTarget :=
  let category := event.category.map env.lower
  if category = "malware".toList ∨ category = "malware_detection".toList then
    if event.action ≠ .blocked ∨ event.text "sha256" = [] then none
    else some {
      kind := .download
      resource := (event.text "sha256").map env.lower
      label := if event.target = [] then "Blocked download".toList else event.target }
  else if category = "dlp".toList then
    some { kind := .dlp, resource := event.id.text.toList, label := dlpLabel event }
  else if event.text "kind" = "browser_extension".toList then
    if event.operation ≠ "VPN browser extension installed".toList ∨ event.text "extension_id" = [] then
      none
    else some { kind := .extension, resource := event.text "extension_id", label := event.target }
  else if event.eventType = .processStart ∨ event.eventType = .appLaunch then
    if event.action ≠ .blocked ∧ event.action ≠ .alerted ∨
        (env.parseUUID (event.text "app_id")).isNone then none
    else some { kind := .application, resource := event.text "app_id", label := event.target }
  else if event.eventType = .webRequest ∨ event.eventType = .dnsQuery then
    if event.action ≠ .blocked ∨ eventHost env event = [] then none
    else some {
      kind := .website
      resource := eventHost env event
      label := eventHost env event }
  else none

inductive Grant where
  | website (host : List Char)
  | app (id : UUID)
  | extension (id : List Char)
  | download (sha : List Char)
  deriving DecidableEq

structure AccessGrants where
  websites : List (List Char)
  apps : List UUID
  extensions : List (List Char)
  downloads : List (List Char)

def AccessGrants.Has (grants : AccessGrants) : Grant → Prop
  | .website host => host ∈ grants.websites
  | .app id => id ∈ grants.apps
  | .extension id => id ∈ grants.extensions
  | .download sha => sha ∈ grants.downloads

def approvedGrants (requests : List AccessRequest) : Option UUID → AccessGrants
  | none => ⟨[], [], [], []⟩
  | some employeeID =>
    let approved := requests.filter fun request =>
      request.employeeID = employeeID ∧ request.status = .approved
    { websites := DomainRules.approvedWebsites env.toAppControl.toPrimitives
        (requests.map fun request => request.toScoped.toAccessRequest) employeeID
      apps := AppControl.approvedApps env.toAppControl
        (requests.map AccessRequest.toScoped) (some employeeID)
      extensions := (approved.filter fun request => request.kind = .extension).map fun request =>
        request.resource
      downloads := (approved.filter fun request => request.kind = .download).map fun request =>
        request.resource.map env.lower }

def AccessRequest.grant (request : AccessRequest) : Option Grant :=
  match request.kind with
  | .application => (env.parseUUID request.resource).map .app
  | .extension => some (.extension request.resource)
  | .download => some (.download (request.resource.map env.lower))
  | .dlp => none
  | .website | .unset =>
    (request.website env.toAppControl.toPrimitives).map .website

inductive Resolution where
  | approve
  | deny
  | revoke
  deriving DecidableEq

def Resolution.source : Resolution → AccessRequestStatus
  | .approve | .deny => .pending
  | .revoke => .approved

def Resolution.target : Resolution → AccessRequestStatus
  | .approve => .approved
  | .deny => .denied
  | .revoke => .revoked

structure CreateBody where
  eventID : List Char
  domain : List Char
  reason : List Char

inductive Answer where
  | rejected (status : ℕ) (error : String)
  | existing (request : AccessRequest)
  | created (request : AccessRequest)
  | withdrawn
  | resolved (request : AccessRequest)

inductive StoreError where
  | unavailable
  | other

/-- `respondStoreError`. -/
def StoreError.answer : StoreError → Answer
  | .unavailable => .rejected 503
      "Your company's database or file storage can't be reached right now. Check its status under Settings → Data residency."
  | .other => .rejected 500 "Could not load this data"

inductive Query where
  | event (id : UUID)
  | blockedWebsite (domain : List Char)

/-- What a step takes from outside: a primary key, and the store of the organisation's events. -/
structure Draw where
  id : UUID
  opens : Except StoreError Unit
  findEvents : Query → Except StoreError (List Event)

/-- What `Create` does next. -/
inductive CreatePhase where
  | finding
  | looking (event : Event) (target : AccessTarget)
  | counting (event : Event) (target : AccessTarget)
  | inserting (event : Event) (target : AccessTarget)

/-- What `resolve` does next. -/
inductive ResolvePhase where
  | finding
  | writing (request : AccessRequest)
  | auditing (request : AccessRequest)
  | reloading (request : AccessRequest)

inductive Call where
  | create (employeeID orgID : UUID) (body : Except String CreateBody) (phase : CreatePhase)
  | withdraw (employeeID : UUID) (id : Option UUID)
  | resolve (orgID userID : UUID) (id : Option UUID) (resolution : Resolution) (note : List Char)
      (phase : ResolvePhase)
  | finished (answer : Answer)

def Call.isNew : Call → Bool
  | .create _ _ _ .finding | .withdraw _ _ | .resolve _ _ _ _ _ .finding => true
  | _ => false

structure Database where
  now : Time
  requests : Table AccessRequest
  auditLogs : List AuditLog
  revoked : List (UUID × Grant)

def maxPendingPerEmployee : ℕ := 25

def first : List AccessRequest → Option AccessRequest
  | [] => none
  | request :: rest =>
    match first rest with
    | none => some request
    | some other =>
      if request.id.bits.toNat ≤ other.id.bits.toNat then some request else some other

def AccessRequest.isOpen (request : AccessRequest) : Bool :=
  request.status = .pending ∨ request.status = .approved

def AccessRequest.About (employeeID : UUID) (kind : AccessRequestKind) (resource : List Char)
    (request : AccessRequest) : Prop :=
  request.employeeID = employeeID ∧ request.kind = kind ∧ request.resource = resource

instance (employeeID : UUID) (kind : AccessRequestKind) (resource : List Char) :
    DecidablePred (AccessRequest.About employeeID kind resource) :=
  fun _ => inferInstanceAs (Decidable (_ ∧ _ ∧ _))

/-- The row that `Create` inserts. -/
def newRequest (employeeID orgID id : UUID) (event : Event) (target : AccessTarget)
    (reason : List Char) : AccessRequest where
  employeeID := employeeID
  orgID := orgID
  id := id
  kind := target.kind
  resource := target.resource
  domain := if target.kind = .website then target.resource else []
  label := target.label
  eventID := some event.id
  policyID := event.policyID
  reason := reason
  status := .pending
  reviewedBy := none
  reviewedAt := none
  reviewNote := []

def CreateBody.givenReason (body : CreateBody) : Option (List Char) :=
  let reason := trimSpace body.reason
  if reason.length < 5 then none else some (reason.take 1000)

def CreateBody.query (body : CreateBody) : Except Answer Query :=
  if body.eventID ≠ [] then
    match env.parseUUID body.eventID with
    | none => .error (.rejected 400 "Invalid event_id")
    | some id => .ok (.event id)
  else if body.domain ≠ [] then
    .ok (.blockedWebsite (DomainRules.normDomain env.toAppControl.toPrimitives body.domain))
  else .error (.rejected 400 "event_id is required")

/-- What `Create` finds out before it looks at requests. -/
def CreateBody.named (body : CreateBody) (draw : Draw) : Except Answer (Event × AccessTarget) := do
  if body.givenReason.isNone then
    throw (.rejected 400 "Tell your company why you need this (a few words at least)")
  draw.opens.mapError StoreError.answer
  let query ← body.query env
  match ← (draw.findEvents query).mapError StoreError.answer with
  | [] => throw (.rejected 404 "That activity was not found on your account")
  | event :: _ =>
    match requestableFrom env event with
    | none => throw (.rejected 422 "There is nothing to request for this activity")
    | some target => return (event, target)

namespace Database

variable (db : Database)

def existing (employeeID : UUID) (kind : AccessRequestKind) (resource : List Char) :
    Option AccessRequest :=
  first (db.requests.rows.filter fun request =>
    request.About employeeID kind resource ∧ request.isOpen)

def pending (employeeID : UUID) : ℕ :=
  db.requests.rows.countP fun request => request.employeeID = employeeID ∧ request.status = .pending

def insert (request : AccessRequest) : Database := { db with requests := db.requests.insert request }

def withdrawable (employeeID : UUID) (id : Option UUID) (request : AccessRequest) : Bool :=
  some request.id = id ∧ request.employeeID = employeeID ∧ request.status = .pending

def remove (employeeID : UUID) (id : Option UUID) : Database :=
  { db with requests := db.requests.delete (withdrawable employeeID id) }

def settled (resolution : Resolution) (request : AccessRequest) : List (UUID × Grant) :=
  match request.grant env, resolution with
  | some grant, .approve => db.revoked.filter (· ≠ (request.employeeID, grant))
  | some grant, .revoke => (request.employeeID, grant) :: db.revoked
  | _, _ => db.revoked

def awaiting (id : UUID) (resolution : Resolution) : Option AccessRequest :=
  db.requests.rows.find? fun request => request.id = id ∧ request.status = resolution.source

def reviewed (userID : UUID) (resolution : Resolution) (note : List Char) (request : AccessRequest) :
    AccessRequest :=
  { request with
    status := resolution.target
    reviewedBy := some userID
    reviewedAt := some db.now
    reviewNote := note }

/-- The conditional update of `resolve`. -/
def review (userID : UUID) (resolution : Resolution) (note : List Char) (request : AccessRequest) :
    Database :=
  { db with
    requests := db.requests.update
      (fun other =>
        if other.id = request.id ∧ other.status = resolution.source then
          db.reviewed userID resolution note other
        else other)
      (fun other => by dsimp only [HasID.id]; split <;> rfl)
    revoked := db.settled env resolution request }

/-- `Create`; the errors of the two queries before the insert are not looked at. -/
def create (employeeID orgID : UUID) (body : Except String CreateBody) (works : Bool) (draw : Draw) :
    CreatePhase → Call × Database
  | .finding =>
    match body with
    | .error error => (.finished (.rejected 400 error), db)
    | .ok named =>
      match named.named env draw with
      | .error answer => (.finished answer, db)
      | .ok (event, target) => (.create employeeID orgID body (.looking event target), db)
  | .looking event target =>
    match if works then db.existing employeeID target.kind target.resource else none with
    | some request => (.finished (.existing request), db)
    | none => (.create employeeID orgID body (.counting event target), db)
  | .counting event target =>
    if works ∧ maxPendingPerEmployee ≤ db.pending employeeID then
      (.finished (.rejected 429
        "You have too many requests waiting. Wait for your company to review them first."), db)
    else (.create employeeID orgID body (.inserting event target), db)
  | .inserting event target =>
    let reason := (body.toOption.bind CreateBody.givenReason).getD []
    let request := newRequest employeeID orgID draw.id event target reason
    if works ∧ ¬db.requests.Holds draw.id then (.finished (.created request), db.insert request)
    else (.finished (.rejected 500 "Failed to create access request"), db)

/-- `Withdraw`, which is one statement. -/
def withdraw (employeeID : UUID) (id : Option UUID) (works : Bool) : Call × Database :=
  if works ∧ ∃ request ∈ db.requests.rows, withdrawable employeeID id request then
    (.finished .withdrawn, db.remove employeeID id)
  else (.finished (.rejected 404 "No open request to withdraw"), db)

def resolve (orgID userID : UUID) (id : Option UUID) (resolution : Resolution) (note : List Char)
    (works : Bool) : ResolvePhase → Call × Database
  | .finding =>
    match if works then db.requests.rows.find? fun request =>
      some request.id = id ∧ request.orgID = orgID else none with
    | none => (.finished (.rejected 404 "Access request not found"), db)
    | some request =>
      if request.status ≠ resolution.source then
        (.finished (.rejected 409 ("This request is already " ++ statusText request.status)), db)
      else (.resolve orgID userID id resolution note (.writing request), db)
  | .writing request =>
    if works then
      match db.awaiting request.id resolution with
      | none => (.finished (.rejected 409 "Someone else just reviewed this request"), db)
      | some row =>
        (.resolve orgID userID id resolution note (.auditing request),
          db.review env userID resolution (trimSpace note) row)
    else (.finished (.rejected 500 "Failed to update access request"), db)
  | .auditing request =>
    (.resolve orgID userID id resolution note (.reloading request),
      if works then { db with
        auditLogs := ⟨orgID, userID, resolution.target, request.id, trimSpace note⟩ :: db.auditLogs }
      else db)
  | .reloading request =>
    let stored := if works then db.requests.rows.find? fun other => other.id = request.id else none
    (.finished (.resolved (stored.getD request)), db)
where
  statusText : AccessRequestStatus → String
    | .pending => "pending"
    | .approved => "approved"
    | .denied => "denied"
    | .revoked => "revoked"

def advance (works : Bool) (draw : Draw) : Call → Call × Database
  | .create employeeID orgID body phase =>
    db.create env employeeID orgID body works draw phase
  | .withdraw employeeID id => db.withdraw employeeID id works
  | .resolve orgID userID id resolution note phase =>
    db.resolve env orgID userID id resolution note works phase
  | .finished answer => (.finished answer, db)

end Database

/-- The tables, and the calls under way. -/
structure World where
  db : Database
  calls : ℕ → Option Call

inductive Action where
  | begin (call : ℕ) (asked : Call)
  | advance (call : ℕ) (works : Bool) (draw : Draw)
  | tick (elapsed : ℕ)

/-- Each step of a call is one access to the database. -/
def World.step (world : World) : Action → Option World
  | .begin number asked =>
    if (world.calls number).isNone ∧ asked.isNew then
      some { world with calls := Function.update world.calls number (some asked) }
    else none
  | .advance number works draw =>
    (world.calls number).map fun call =>
      let (next, db) := world.db.advance env works draw call
      ⟨db, Function.update world.calls number (some next)⟩
  | .tick elapsed => some { world with db := { world.db with now := world.db.now + elapsed } }

end Aavishield.AccessRequests
