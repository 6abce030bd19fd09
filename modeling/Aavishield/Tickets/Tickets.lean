import Aavishield.Basic
import Aavishield.Lib.TransitionSystem

/-!
# Support tickets

A handler loads the ticket, and what it writes from then on goes by that copy.  Every statement
to the database succeeds or fails on its own; only where a message is stored is the failure
looked at.  Between the statements of one handler come those of others.
-/

namespace Aavishield.Tickets

abbrev Bytes := List UInt8

def bytes (text : String) : Bytes := text.toList.flatMap String.utf8EncodeChar

inductive TicketStatus where
  | opened
  | inProgress
  | resolved
  | closed
  deriving DecidableEq

inductive TicketPriority where
  | low
  | normal
  | high
  | urgent
  deriving DecidableEq

inductive Side where
  | customer
  | support
  | system
  deriving DecidableEq

inductive Source where
  | web
  | email (messageID : Bytes)
  deriving DecidableEq

structure Ticket where
  id : UUID
  orgID : Option UUID
  status : TicketStatus
  priority : TicketPriority
  assignedToID : Option UUID
  lastMessageAt : Option Time
  lastMessageSide : Side
  customerReadAt : Option Time
  supportReadAt : Option Time
  resolvedAt : Option Time
  deriving DecidableEq

structure Message where
  id : UUID
  authorID : UUID
  side : Side
  internal : Bool
  source : Source
  body : Bytes
  deriving DecidableEq

structure Attachment where
  messageID : UUID
  fileName : Bytes
  deriving DecidableEq

structure Conversation where
  ticket : Ticket
  messages : List Message
  attachments : List Attachment

/-- Who acts, with the name to be shown (`userName`). -/
structure Author where
  id : UUID
  name : Bytes

structure MessageInput where
  body : Bytes
  internal : Bool
  status : String
  files : List Bytes

def TicketStatus.isDone : TicketStatus → Bool
  | .resolved | .closed => true
  | .opened | .inProgress => false

def TicketStatus.label : TicketStatus → String
  | .opened => "Open"
  | .inProgress => "In progress"
  | .resolved => "Resolved"
  | .closed => "Closed"

def readStatus : String → Option TicketStatus
  | "open" => some .opened
  | "in_progress" => some .inProgress
  | "resolved" => some .resolved
  | "closed" => some .closed
  | _ => none

def priorityOf : String → TicketPriority
  | "low" => .low
  | "high" => .high
  | "urgent" => .urgent
  | _ => .normal

/-- `mailer.Titleish` of a priority. -/
def TicketPriority.title : TicketPriority → String
  | .low => "Low"
  | .normal => "Normal"
  | .high => "High"
  | .urgent => "Urgent"

def firstName (full : Bytes) : Bytes :=
  let first := full.takeWhile (· ≠ 32)
  if first = [] then full else first

inductive Statement where
  | create (message : Message)
  | attach (attachment : Attachment)
  | setStatus (status : TicketStatus)
  | customerWrote
  | supportWrote (internal : Bool) (owner : Option UUID)
  | setPriority (priority : TicketPriority)
  | assign (owner : Option UUID)
  deriving DecidableEq

def Statement.apply (now : Time) (conversation : Conversation) : Statement → Conversation
  | .create message => { conversation with messages := conversation.messages ++ [message] }
  | .attach attachment => { conversation with attachments := conversation.attachments ++ [attachment] }
  | .setStatus status => { conversation with
      ticket.status := status
      ticket.resolvedAt := if status.isDone then some now else none }
  | .customerWrote => { conversation with
      ticket.lastMessageAt := some now
      ticket.lastMessageSide := .customer
      ticket.customerReadAt := some now }
  | .supportWrote true _ => { conversation with ticket.supportReadAt := some now }
  | .supportWrote false owner => { conversation with
      ticket.supportReadAt := some now
      ticket.lastMessageAt := some now
      ticket.lastMessageSide := .support
      ticket.assignedToID := owner.or conversation.ticket.assignedToID }
  | .setPriority priority => { conversation with ticket.priority := priority }
  | .assign owner => { conversation with ticket.assignedToID := owner }

structure Planned where
  statement : Statement
  required : Bool

section Handlers

-- The identifiers that the database gives to new messages.
variable (newID : ℕ → UUID)

def systemNote (number : ℕ) (author : Author) (body : Bytes) : Planned :=
  ⟨.create ⟨newID number, author.id, .system, false, .web, body⟩, false⟩

def saveAttachments (messageID : UUID) (files : List Bytes) : List Planned :=
  files.map fun file => ⟨.attach ⟨messageID, file⟩, false⟩

def customerReply (t : Ticket) (author : Author) (input : MessageInput) (source : Source) :
    List Planned :=
  (if t.status.isDone then
    [systemNote newID 1 author (bytes "Reopened by " ++ author.name), ⟨.setStatus .opened, false⟩]
  else []) ++
    ⟨.create ⟨newID 0, author.id, .customer, false, source, input.body⟩, true⟩ ::
    saveAttachments (newID 0) input.files ++ [⟨.customerWrote, false⟩]

def setStatus (t : Ticket) (author : Author) (text : String) : List Planned :=
  match readStatus text with
  | none => []
  | some status =>
    if status = t.status then []
    else [⟨.setStatus status, false⟩, systemNote newID 1 author
      (bytes "Status changed to " ++ bytes status.label ++ bytes " by " ++ firstName author.name)]

def supportReply (t : Ticket) (author : Author) (input : MessageInput) (source : Source) :
    List Planned :=
  let status := if input.internal = false ∧ t.status = .opened ∧ input.status = "" then "in_progress"
    else input.status
  ⟨.create ⟨newID 0, author.id, .support, input.internal, source, input.body⟩, true⟩ ::
    saveAttachments (newID 0) input.files ++
    [⟨.supportWrote input.internal (if t.assignedToID = none then some author.id else none), false⟩] ++
    if status = "" then [] else setStatus newID t author status

def resolve (t : Ticket) (author : Author) : List Planned :=
  if t.status.isDone then []
  else [⟨.setStatus .resolved, false⟩,
    systemNote newID 1 author (bytes "Marked as resolved by " ++ author.name)]

def updateStatus (t : Ticket) (author : Author) (status priority : String)
    (assignee : Option (Option Author)) : List Planned :=
  (if status = "" then [] else setStatus newID t author status) ++
  (if priority = "" ∨ priorityOf priority = t.priority then []
  else [⟨.setPriority (priorityOf priority), false⟩, systemNote newID 2 author
    (bytes "Priority set to " ++ bytes (priorityOf priority).title ++ bytes " by " ++ firstName author.name)]) ++
  match assignee with
  | none => []
  | some none => [⟨.assign none, false⟩]
  | some (some owner) => [⟨.assign (some owner.id), false⟩, systemNote newID 3 author
      (bytes "Assigned to " ++ firstName owner.name ++ bytes " by " ++ firstName author.name)]

end Handlers

inductive Call where
  | reply (side : Side) (input : MessageInput) (source : Source)
  | resolve
  | updateStatus (status priority : String) (assignee : Option (Option Author))

def Call.plan (newID : ℕ → UUID) (author : Author) (t : Ticket) : Call → Option (List Planned)
  | .reply side input source =>
    if source = .web ∧ input.body = [] then none
    else some <| if side = .customer then customerReply newID t author input source
      else supportReply newID t author input source
  | .resolve => some (Tickets.resolve newID t author)
  | .updateStatus status priority assignee =>
    some (Tickets.updateStatus newID t author status priority assignee)

inductive Request where
  | called (call : Call) (author : Author) (newID : ℕ → UUID)
  | running (planned : List Planned)
  | answered (failed : Bool)

def Request.statement? : Request → Option Planned
  | .running (planned :: _) => some planned
  | _ => none

def Request.advance (t : Ticket) (ok : Bool) : Request → Request
  | .called call author newID =>
    if ok then match call.plan newID author t with
      | none => .answered true
      | some planned => .running planned
    else .answered true
  | .running [] => .answered false
  | .running (planned :: rest) => if !ok && planned.required then .answered true else .running rest
  | .answered failed => .answered failed

structure Written where
  number : ℕ
  statement : Statement

/-- A ticket, the requests under way and what they wrote. -/
structure World where
  conversation : Conversation
  requests : ℕ → Option Request
  log : List Written

def World.created (id : UUID) (orgID : Option UUID) (priority : TicketPriority) (message : Message)
    (now : Time) : World where
  conversation :=
    { ticket := ⟨id, orgID, .opened, priority, none, some now, message.side, some now, none, none⟩
      messages := [message]
      attachments := [] }
  requests _ := none
  log := []

inductive Action where
  | receive (number : ℕ) (call : Call) (author : Author) (newID : ℕ → UUID)
  | advance (number : ℕ) (ok : Bool) (now : Time)

def World.write (world : World) (number : ℕ) (statement : Statement) (now : Time) : World :=
  { world with
    conversation := statement.apply now world.conversation
    log := ⟨number, statement⟩ :: world.log }

/-- Each step of a request is one statement. -/
def step (world : World) : Action → Option World
  | .receive number call author newID =>
    match world.requests number with
    | some _ => none
    | none => some { world with
        requests := Function.update world.requests number (some (.called call author newID)) }
  | .advance number ok now =>
    (world.requests number).map fun request =>
      let later := request.advance world.conversation.ticket ok
      let written := match request.statement? with
        | none => world
        | some planned => if ok then world.write number planned.statement now else world
      { written with requests := Function.update world.requests number (some later) }

end Aavishield.Tickets
