import Aavishield.Dataplane.Tables
import Aavishield.Lib.Text
import Aavishield.Tickets.Tickets

/-!
# Replies by email

A poller reads the mailbox and adds every reply to its ticket.  The folders are read one after
another, the headers of a folder before its messages, and what stands in the mailbox is whatever
strangers have sent.
-/

namespace Aavishield.Tickets

open Dataplane (HasID Table)

structure RawFile where
  /-- The name, with every byte that is not UTF-8 read as U+FFFD. -/
  name : List Char
  data : Bytes
  deriving DecidableEq

/-- A mail as it was parsed. -/
structure InboundMail where
  messageID : Bytes
  sender : Bytes
  subject : Bytes
  inReplyTo : Bytes
  references : Bytes
  autoReply : Bool
  dmarcFailed : Bool
  text : Bytes
  files : List RawFile
  deriving DecidableEq

structure Header where
  messageID : Bytes
  inReplyTo : Bytes
  references : Bytes

structure Mail where
  header : Option Header
  parsed : Option InboundMail

inductive Thread where
  | customer
  | team
  deriving DecidableEq

structure MailPrimitives where
  /-- `mailer.ParseThreadID`, the ticket of the first signed name of a thread. -/
  parseThreadID : Bytes → Bytes → Option (UUID × Thread)
  /-- The first twelve bytes of the SHA-256 of a text, in hexadecimal. -/
  sum : Bytes → Bytes
  equalFold : Bytes → Bytes → Bool
  toLower : Bytes → Bytes
  trimSpace : Bytes → Bytes
  trimSpace_ne_nil : ∀ text, (∃ byte ∈ text, 33 ≤ byte ∧ byte < 127) → trimSpace text ≠ []
  /-- Where the earliest of `quoteStarts` is found. -/
  quoteStart : Bytes → Option ℕ
  detectContentType : Bytes → String
  accepts : Bytes → Bool
  fromEmail : Bytes

def encode (text : List Char) : Bytes := text.flatMap String.utf8EncodeChar

/-- `filepath.Base`. -/
def baseName (path : List Char) : List Char :=
  if path = [] then ['.']
  else match (path.reverse.dropWhile (· = '/')).reverse with
  | [] => ['/']
  | stripped => Text.afterLast '/' stripped

/-- `filepath.Ext` of a name without slashes. -/
def fileExt (name : Bytes) : Bytes :=
  if 46 ∈ name then 46 :: (name.reverse.takeWhile (· ≠ 46)).reverse else []

def cleanName (name : List Char) : Bytes :=
  encode <| (baseName (name.map fun letter => if letter = '\\' then '/' else letter)).map fun letter =>
    if letter.toNat < 32 ∨ letter ∈ "/\\:*?\"<>|".toList then '_' else letter

def safeFileName (name : List Char) : Option Bytes :=
  let name := cleanName name
  if name.length > 120 then
    let ext := fileExt name
    -- The slice would end before it begins.
    if ext.length > 120 then none else some (name.take (120 - ext.length) ++ ext)
  else some (if name = [] ∨ name = bytes "." then bytes "file" else name)

def allowedAttachments : List (String × String) :=
  [(".png", "image/png"), (".jpg", "image/jpeg"), (".jpeg", "image/jpeg"), (".gif", "image/gif"),
    (".webp", "image/webp"), (".pdf", "application/pdf"), (".txt", "text/plain"),
    (".log", "text/plain"), (".csv", "text/csv"), (".zip", "application/zip")]

def maxAttachments : ℕ := 5

def maxAttachmentSize : ℕ := 10 * 2 ^ 20

structure PendingFile where
  name : Bytes
  ext : Bytes
  contentType : String
  data : Bytes

section Mail

variable (env : MailPrimitives)

def sniffOK (ext head : Bytes) : Bool :=
  let detected := env.detectContentType head
  if [".png", ".jpg", ".jpeg", ".gif", ".webp"].any fun image => decide (ext = bytes image) then
    "image/".toList.isPrefixOf detected.toList
  else if ext = bytes ".pdf" then detected = "application/pdf"
  else if ext = bytes ".zip" then detected = "application/zip"
  else "text/plain".toList.isPrefixOf detected.toList

def addFile (sorted : List PendingFile × List Bytes) (file : RawFile) :
    Option (List PendingFile × List Bytes) :=
  (safeFileName file.name).map fun name =>
    let ext := env.toLower (fileExt name)
    match allowedAttachments.find? fun allowed => bytes allowed.1 = ext with
    | none => (sorted.1, sorted.2 ++ [name])
    | some (_, contentType) =>
      if file.data.length = 0 ∨ file.data.length > maxAttachmentSize ∨
          !sniffOK env ext (file.data.take 512) ∨ sorted.1.length ≥ maxAttachments then
        (sorted.1, sorted.2 ++ [name])
      else (sorted.1 ++ [⟨name, ext, contentType, file.data⟩], sorted.2)

def emailAttachments (files : List RawFile) : Option (List PendingFile × List Bytes) :=
  files.foldlM (addFile env) ([], [])

def replaceLineEnds : Bytes → Bytes
  | 13 :: 10 :: rest => 10 :: replaceLineEnds rest
  | byte :: rest => byte :: replaceLineEnds rest
  | [] => []

def extractReply (text : Bytes) : Bytes :=
  let text := replaceLineEnds text
  let lines := (text.take ((env.quoteStart text).getD text.length)).splitOn 10
  let kept := (lines.reverse.dropWhile fun line =>
    let line := env.trimSpace line
    line = [] || line.head? = some 62).reverse
  (env.trimSpace (List.intercalate [10] kept)).take 20000

def replyBody (m : InboundMail) (dropped : List Bytes) : Bytes :=
  let body := extractReply env m.text
  if dropped = [] then body
  else env.trimSpace (body ++ bytes "\n\n(Not attached, unsupported or too large: " ++
    List.intercalate (bytes ", ") dropped ++ bytes ")")

def InboundMail.key (m : InboundMail) : Bytes :=
  if m.messageID = [] then
    bytes "<sha-" ++ env.sum (m.sender ++ bytes "|" ++ m.subject ++ bytes "|" ++ m.text) ++
      bytes "@inbound>"
  else m.messageID

end Mail

instance : HasID Conversation := ⟨fun conversation => conversation.ticket.id⟩

structure User where
  id : UUID
  name : Bytes
  email : Bytes
  orgID : Option UUID
  isSuperAdmin : Bool
  active : Bool

structure InboundEmail where
  messageID : Bytes
  fromAddr : Bytes
  ticketID : UUID
  result : String

/-- The tickets, and the mail that was handled. -/
structure Office where
  tickets : Table Conversation
  inbound : List InboundEmail

structure Outcomes where
  countsHeader : Bool
  counts : Bool
  findsTicket : Bool
  findsUser : Bool
  carries : Statement → Bool
  records : Bool
  now : Time
  newID : ℕ → UUID

/-- The unseen mail by folder, with what becomes of each. -/
abbrev Mailbox := List (List (Mail × Outcomes))

section Ingestion

variable (env : MailPrimitives) (users : List User)

def Statement.acceptable : Statement → Bool
  | .create message => env.accepts message.body
  | .attach attachment => env.accepts attachment.fileName
  | _ => true

def carryOut (outcomes : Outcomes) (conversation : Conversation) :
    List Planned → Conversation × Bool
  | [] => (conversation, true)
  | planned :: rest =>
    if planned.statement.acceptable env && outcomes.carries planned.statement then
      carryOut outcomes (planned.statement.apply outcomes.now conversation) rest
    else if planned.required then (conversation, false)
    else carryOut outcomes conversation rest

theorem carryOut_id (outcomes : Outcomes) (conversation : Conversation) (planned : List Planned) :
    (carryOut env outcomes conversation planned).1.ticket.id = conversation.ticket.id := by
  induction planned generalizing conversation with
  | nil => rfl
  | cons first rest ih =>
    rw [carryOut]
    split_ifs
    · rw [ih]
      cases first.statement with
      | supportWrote internal owner => cases internal <;> rfl
      | _ => rfl
    · rfl
    · exact ih conversation

namespace Office

variable (office : Office)

def findTicket (id : UUID) : Option Conversation :=
  office.tickets.rows.find? fun conversation => conversation.ticket.id == id

def hasRecord (key : Bytes) : Bool := office.inbound.any fun row => row.messageID == key

def record (key : Bytes) (m : InboundMail) (ticketID : UUID) (outcomes : Outcomes) (result : String) :
    Office × String :=
  if outcomes.records && env.accepts key && env.accepts m.sender && !office.hasRecord key then
    ({ office with inbound := ⟨key, m.sender, ticketID, result⟩ :: office.inbound }, result)
  else (office, result)

def reply (id : UUID) (outcomes : Outcomes) (planned : List Planned) : Office :=
  let rewrite conversation := if conversation.ticket.id = id then
    (carryOut env outcomes conversation planned).1 else conversation
  let keeps conversation : (rewrite conversation).ticket.id = conversation.ticket.id := by
    dsimp only [rewrite]
    split_ifs
    · exact carryOut_id env outcomes conversation planned
    · rfl
  ⟨office.tickets.update rewrite keeps, office.inbound⟩

/-- `LOWER(email) = ? AND status = 'active'`. -/
def findUser (sender : Bytes) : Option User :=
  users.find? fun user => env.toLower user.email == sender && user.active

def refusal (thread : Thread) (t : Ticket) (user : User) : Option String :=
  if thread = .customer ∧ (t.orgID = none ∨ user.orgID = none ∨ user.orgID ≠ t.orgID) then
    some "ignored: sender is not in this ticket's organization"
  else if thread = .team ∧ !user.isSuperAdmin then
    some "ignored: sender is not on the Aavishield team"
  else none

def plannedReply (newID : ℕ → UUID) (thread : Thread) (t : Ticket) (author : Author) (input : MessageInput)
    (source : Source) : List Planned :=
  match thread with
  | .customer => customerReply newID t author input source
  | .team => supportReply newID t author input source

def addReply (key : Bytes) (m : InboundMail) (conversation : Conversation) (thread : Thread) (user : User)
    (outcomes : Outcomes) (files : List PendingFile) (body : Bytes) : Office × String :=
  let input : MessageInput :=
    ⟨if body = [] then bytes "(Sent attachments by email)" else body, false, "", files.map PendingFile.name⟩
  let author : Author := ⟨user.id, user.name⟩
  let planned := plannedReply outcomes.newID thread conversation.ticket author input (.email key)
  let written := office.reply env conversation.ticket.id outcomes planned
  if (carryOut env outcomes conversation planned).2 then
    written.record env key m conversation.ticket.id outcomes "added"
  else (written, "error")

def ingestEmail (m : InboundMail) (outcomes : Outcomes) : Option (Office × String) :=
  match env.parseThreadID m.inReplyTo m.references with
  | none => some (office, "not a ticket reply")
  | some (id, thread) =>
    let key := m.key env
    let record := office.record env key m id outcomes
    if outcomes.counts && env.accepts key && office.hasRecord key then
      some (office, "already processed")
    else if env.equalFold m.sender env.fromEmail then
      some (record "ignored: sent by our own mailbox")
    else if m.autoReply then some (record "ignored: automatic reply")
    else if m.dmarcFailed then some (record "ignored: sender failed DMARC")
    else match if outcomes.findsTicket then office.findTicket id else none with
    | none => some (record "ignored: ticket not found")
    | some conversation => match if outcomes.findsUser then findUser env users m.sender else none with
      | none => some (record "ignored: sender is not a Aavishield user")
      | some user => match refusal thread conversation.ticket user with
        | some result => some (record result)
        | none => (emailAttachments env m.files).map fun (files, dropped) =>
          let body := replyBody env m dropped
          if body = [] ∧ files = [] then record "ignored: empty reply"
          else office.addReply env key m conversation thread user outcomes files body

def wants (mail : Mail) (outcomes : Outcomes) : Bool :=
  mail.header.any fun header =>
    (env.parseThreadID header.inReplyTo header.references).isSome &&
      (header.messageID = [] || !(outcomes.countsHeader && env.accepts header.messageID &&
        office.hasRecord header.messageID))

end Office

def ingestAll : Office → List (Mail × Outcomes) → Office × Bool
  | office, [] => (office, true)
  | office, (mail, outcomes) :: rest => match mail.parsed with
    | none => ingestAll office rest
    | some m => match office.ingestEmail env users m outcomes with
      | none => (office, false)
      | some (later, _) => ingestAll later rest

def readFolder (office : Office) (folder : List (Mail × Outcomes)) : Office × Bool :=
  ingestAll env users office (folder.filter fun entry => office.wants env entry.1 entry.2)

/-- The rest of a poll is given up where the process panics (`pollTicketMail` recovers). -/
def readMailbox : Office → Mailbox → Office × Bool
  | office, [] => (office, true)
  | office, folder :: rest =>
    let (later, done) := readFolder env users office folder
    if done then readMailbox later rest else (later, false)

/-- A poll reads the mail of all folders. -/
def pollStep (office : Office) (mailbox : Mailbox) : Option Office :=
  some (readMailbox env users office mailbox).1

end Ingestion

end Aavishield.Tickets
