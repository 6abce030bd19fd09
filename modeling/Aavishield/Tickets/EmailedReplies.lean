import Aavishield.Tickets.Mail

/-!
# Emailed replies are added once

A reply by email is added to its ticket, with its files, once and not more, as long as none of
its texts is cut badly and nothing fails between its message and the record of it.
-/

namespace Aavishield.Tickets

open Dataplane (HasID Table)
open TransitionSystem

variable (env : MailPrimitives) (users : List User)

def Conversation.letters (conversation : Conversation) (key : Bytes) : List Message :=
  conversation.messages.filter fun message => message.source = .email key

def Office.letters (office : Office) (key : Bytes) : List Message :=
  office.tickets.rows.flatMap fun conversation => conversation.letters key

def Delivered (office : Office) (m : InboundMail) (id : UUID) : Prop :=
  ∃ conversation ∈ office.tickets.rows, conversation.ticket.id = id ∧
    ∃ message ∈ conversation.letters (m.key env), ∀ files dropped,
      emailAttachments env m.files = some (files, dropped) →
        ∀ file ∈ files, ⟨message.id, file.name⟩ ∈ conversation.attachments

structure Admitted (office : Office) (m : InboundMail) (id : UUID) (thread : Thread) : Prop where
  addressed : env.parseThreadID m.inReplyTo m.references = some (id, thread)
  foreign : env.equalFold m.sender env.fromEmail = false
  personal : m.autoReply = false
  authentic : m.dmarcFailed = false
  allowed : ∃ conversation user, office.findTicket id = some conversation ∧
    Office.findUser env users m.sender = some user ∧
      Office.refusal thread conversation.ticket user = none
  filled : extractReply env m.text ≠ [] ∨ m.files ≠ []

def Mail.Reads (mail : Mail) (m : InboundMail) : Prop :=
  mail.parsed = some m ∧ ∃ header, mail.header = some header ∧ header.messageID = m.messageID ∧
    (env.parseThreadID header.inReplyTo header.references).isSome = true

def Outcomes.Stores (outcomes : Outcomes) (m : InboundMail) : Prop :=
  ∀ message, message.source = .email (m.key env) → outcomes.carries (.create message) = true

/-- Nothing is added twice, and every poll adds what it finds and can store. -/
structure OnceEach (start : Office) (trace : List Mailbox) : Prop where
  once : ∀ reached, Visits (pollStep env users) start trace reached →
    ∀ key, (reached.letters key).length ≤ 1
  each : ∀ first mailbox rest earlier later, trace = first ++ mailbox :: rest →
    exec (pollStep env users) start first = some earlier →
    pollStep env users earlier mailbox = some later →
      ∀ folder ∈ mailbox, ∀ entry ∈ folder, ∀ m id thread, entry.1.Reads env m →
        Admitted env users earlier m id thread → entry.2.Stores env m →
          Delivered env later m id

def NameFits (name : List Char) : Prop :=
  (cleanName name).length ≤ 120 ∨ (fileExt (cleanName name)).length ≤ 120

/-- No text of an email is refused by the database, and no file name is cut before its start. -/
structure Fits (m : InboundMail) : Prop where
  names : ∀ file ∈ m.files, NameFits file.name
  key : env.accepts (m.key env) = true
  sender : env.accepts m.sender = true
  body : ∀ files dropped, emailAttachments env m.files = some (files, dropped) →
    env.accepts (if replyBody env m dropped = [] then bytes "(Sent attachments by email)"
      else replyBody env m dropped) = true
  files : ∀ files dropped, emailAttachments env m.files = some (files, dropped) →
    ∀ file ∈ files, env.accepts file.name = true

/-- Nothing is misread, and the files and the record of a reply are written. -/
structure Served (outcomes : Outcomes) : Prop where
  counts : outcomes.counts = true
  findsTicket : outcomes.findsTicket = true
  findsUser : outcomes.findsUser = true
  attaches : ∀ attachment, outcomes.carries (.attach attachment) = true
  records : outcomes.records = true

/-- The messages of a folder are known apart, and what is a reply among them fits and is served. -/
def UntroubledFolder (mailOf : Bytes → InboundMail) (office : Office) (folder : List (Mail × Outcomes)) :
    Prop :=
  ∀ entry ∈ folder, ∀ m, entry.1.parsed = some m → mailOf (m.key env) = m ∧
    ∀ id thread, Admitted env users office m id thread → Fits env m ∧ Served entry.2

/-- No mail of the poll meets trouble. -/
def Untroubled (mailOf : Bytes → InboundMail) (office : Office) (mailbox : Mailbox) : Prop :=
  ∀ folder ∈ mailbox, UntroubledFolder env users mailOf office folder

variable {env users} {office later : Office} {m : InboundMail} {outcomes : Outcomes} {id : UUID}
  {thread : Thread} {key : Bytes} {conversation : Conversation} {planned : List Planned}

theorem safeFileName_isSome {name : List Char} (fits : NameFits name) : (safeFileName name).isSome = true := by
  simp only [safeFileName]
  split_ifs with isLong tooLong
  · rcases fits with isShort | isShort <;> omega
  all_goals rfl

variable {sorted out : List PendingFile × List Bytes}

theorem addFile_length {file : RawFile} (added : addFile env sorted file = some out) :
    out.1.length + out.2.length = sorted.1.length + sorted.2.length + 1 := by
  rw [addFile] at added
  rcases Option.map_eq_some_iff.mp added with ⟨name, -, rfl⟩
  dsimp only
  split
  · simp
    omega
  · split_ifs
    · simp
      omega
    · simp
      omega

theorem foldlM_addFile_length {files : List RawFile}
    (added : files.foldlM (addFile env) sorted = some out) :
    out.1.length + out.2.length = sorted.1.length + sorted.2.length + files.length := by
  induction files generalizing sorted with
  | nil =>
    cases added
    rfl
  | cons file rest ih =>
    rw [List.foldlM_cons] at added
    rcases Option.bind_eq_some_iff.mp added with ⟨middle, first, rest'⟩
    rw [ih rest', addFile_length first, List.length_cons]
    omega

theorem emailAttachments_isSome {files : List RawFile} (fit : ∀ file ∈ files, NameFits file.name) :
    (emailAttachments env files).isSome = true := by
  rw [emailAttachments]
  generalize (([], []) : List PendingFile × List Bytes) = sorted
  induction files generalizing sorted with
  | nil => rfl
  | cons file rest ih =>
    rw [List.foldlM_cons]
    rcases Option.isSome_iff_exists.mp (safeFileName_isSome (fit file List.mem_cons_self)) with
      ⟨name, isName⟩
    rw [addFile, isName]
    exact ih (fun other otherMem => fit other (List.mem_cons_of_mem _ otherMem)) _

theorem not_filled {files : List PendingFile} {dropped : List Bytes}
    (attached : emailAttachments env m.files = some (files, dropped))
    (isEmpty : replyBody env m dropped = [] ∧ files = []) :
    extractReply env m.text = [] ∧ m.files = [] := by
  have counted := foldlM_addFile_length attached
  have noneDropped : dropped = [] := by
    by_contra some
    have isBlank := isEmpty.1
    rw [replyBody, if_neg some] at isBlank
    apply env.trimSpace_ne_nil _ _ isBlank
    exact ⟨41, List.mem_append_right _ (by decide), by decide, by decide⟩
  rw [noneDropped, isEmpty.2] at counted
  constructor
  · have isBlank := isEmpty.1
    rwa [replyBody, if_pos noneDropped] at isBlank
  · apply List.length_eq_zero_iff.mp
    simpa using counted.symm

theorem apply_messages_subset (now : Time) (conversation : Conversation) (statement : Statement) :
    conversation.messages ⊆ (statement.apply now conversation).messages ∧
      conversation.attachments ⊆ (statement.apply now conversation).attachments ∧
        (statement.apply now conversation).ticket.orgID = conversation.ticket.orgID := by
  cases statement with
  | create message => exact ⟨List.subset_append_left _ _, List.Subset.refl _, rfl⟩
  | attach attachment => exact ⟨List.Subset.refl _, List.subset_append_left _ _, rfl⟩
  | supportWrote internal owner =>
    cases internal <;> exact ⟨List.Subset.refl _, List.Subset.refl _, rfl⟩
  | setStatus status | customerWrote | setPriority priority | assign owner => exact ⟨List.Subset.refl _, List.Subset.refl _, rfl⟩

theorem carryOut_subset (conversation : Conversation) (planned : List Planned) :
    conversation.messages ⊆ (carryOut env outcomes conversation planned).1.messages ∧
      conversation.attachments ⊆ (carryOut env outcomes conversation planned).1.attachments ∧
        (carryOut env outcomes conversation planned).1.ticket.orgID = conversation.ticket.orgID := by
  induction planned generalizing conversation with
  | nil => exact ⟨List.Subset.refl _, List.Subset.refl _, rfl⟩
  | cons first rest ih =>
    rw [carryOut]
    split_ifs
    · rcases apply_messages_subset outcomes.now conversation first.statement with
        ⟨messages, attachments, sameOrg⟩
      rcases ih (first.statement.apply outcomes.now conversation) with ⟨messages', attachments', sameOrg'⟩
      exact ⟨List.Subset.trans messages messages', List.Subset.trans attachments attachments',
        sameOrg'.trans sameOrg⟩
    · exact ⟨List.Subset.refl _, List.Subset.refl _, rfl⟩
    · exact ih conversation

theorem carryOut_append (conversation : Conversation) (first second : List Planned) :
    carryOut env outcomes conversation (first ++ second) =
      if (carryOut env outcomes conversation first).2 then
        carryOut env outcomes (carryOut env outcomes conversation first).1 second
      else carryOut env outcomes conversation first := by
  induction first generalizing conversation with
  | nil => rfl
  | cons planned rest ih =>
    rw [List.cons_append, carryOut, carryOut]
    by_cases carried : (planned.statement.acceptable env && outcomes.carries planned.statement) = true
    · rw [if_pos carried, if_pos carried, ih]
    · rw [if_neg carried, if_neg carried]
      cases planned.required with
      | true => simp
      | false => simpa using ih conversation

/-- Statements that no handler needs and that store nothing of an email. -/
def Quiet (planned : List Planned) : Prop :=
  ∀ each ∈ planned, each.required = false ∧ ∀ message, each.statement = .create message →
    message.source = .web

theorem Quiet.append {first second : List Planned} (quiet : Quiet first) (quiet' : Quiet second) :
    Quiet (first ++ second) := by
  intro each eachMem
  rcases List.mem_append.mp eachMem with eachMem | eachMem
  · exact quiet each eachMem
  · exact quiet' each eachMem

theorem apply_letters (now : Time) (conversation : Conversation) {statement : Statement}
    (quiet : ∀ message, statement = .create message → message.source = .web) :
    (statement.apply now conversation).letters key = conversation.letters key := by
  cases statement with
  | create message =>
    rw [Conversation.letters, Statement.apply, List.filter_append]
    simp [Conversation.letters, quiet message rfl]
  | supportWrote internal owner => cases internal <;> rfl
  | attach attachment | setStatus status | customerWrote | setPriority priority | assign owner => rfl

theorem Quiet.carryOut (quiet : Quiet planned) (conversation : Conversation) :
    (carryOut env outcomes conversation planned).2 = true ∧
      (carryOut env outcomes conversation planned).1.letters key = conversation.letters key := by
  induction planned generalizing conversation with
  | nil => exact ⟨rfl, rfl⟩
  | cons first rest ih =>
    rcases List.forall_mem_cons.mp quiet with ⟨firstQuiet, restQuiet⟩
    rw [Tickets.carryOut, firstQuiet.1]
    split_ifs with carried needed
    · rcases ih restQuiet (first.statement.apply outcomes.now conversation) with ⟨done, letters⟩
      exact ⟨done, letters.trans (apply_letters outcomes.now conversation firstQuiet.2)⟩
    · cases needed
    · exact ih restQuiet conversation

theorem carryOut_saveAttachments {messageID : UUID} {names : List Bytes}
    (accepted : ∀ name ∈ names, env.accepts name = true)
    (attaches : ∀ attachment, outcomes.carries (.attach attachment) = true) (conversation : Conversation) :
    ∀ name ∈ names, (⟨messageID, name⟩ : Attachment) ∈
      (carryOut env outcomes conversation (saveAttachments messageID names)).1.attachments := by
  induction names generalizing conversation with
  | nil => simp
  | cons first rest ih =>
    have restAccepted : ∀ name ∈ rest, env.accepts name = true := fun name nameMem =>
      accepted name (List.mem_cons_of_mem _ nameMem)
    have carried : (Statement.acceptable env (.attach ⟨messageID, first⟩) &&
        outcomes.carries (.attach ⟨messageID, first⟩)) = true := by
      rw [Statement.acceptable, accepted first List.mem_cons_self, attaches]
      rfl
    rw [saveAttachments, List.map_cons, carryOut, if_pos carried]
    intro name nameMem
    rcases List.mem_cons.mp nameMem with rfl | nameMem
    · apply (carryOut_subset _ _).2.1
      exact List.mem_append_right _ (List.mem_singleton.mpr rfl)
    · exact ih restAccepted _ name nameMem

theorem quiet_saveAttachments (messageID : UUID) (names : List Bytes) :
    Quiet (saveAttachments messageID names) := by
  intro each eachMem
  rcases List.mem_map.mp eachMem with ⟨name, -, rfl⟩
  refine ⟨rfl, ?_⟩
  intro message isCreate
  cases isCreate

/-- What the two handlers of replies have in common: one message, and its files after it. -/
structure IsReply (planned : List Planned) (message : Message) (names : List Bytes) : Prop where
  parts : ∃ before after, Quiet before ∧ Quiet after ∧
    planned = before ++ ⟨.create message, true⟩ :: (saveAttachments message.id names ++ after)

theorem isReply_customerReply (newID : ℕ → UUID) (t : Ticket) (author : Author) (input : MessageInput)
    (source : Source) : IsReply (customerReply newID t author input source)
      ⟨newID 0, author.id, .customer, false, source, input.body⟩ input.files := by
  refine ⟨if t.status.isDone then
      [systemNote newID 1 author (bytes "Reopened by " ++ author.name), ⟨.setStatus .opened, false⟩] else [],
    [⟨.customerWrote, false⟩], ?_, ?_, by rw [customerReply, List.append_assoc]; rfl⟩
  · intro each eachMem
    split_ifs at eachMem
    · rcases List.mem_pair.mp eachMem with rfl | rfl
      · refine ⟨rfl, ?_⟩
        intro message isCreate
        cases isCreate
        rfl
      · refine ⟨rfl, ?_⟩
        intro message isCreate
        cases isCreate
    · cases eachMem
  · intro each eachMem
    cases List.mem_singleton.mp eachMem
    refine ⟨rfl, ?_⟩
    intro message isCreate
    cases isCreate

theorem quiet_setStatus (newID : ℕ → UUID) (t : Ticket) (author : Author) (text : String) :
    Quiet (setStatus newID t author text) := by
  intro each eachMem
  rw [setStatus] at eachMem
  cases read : readStatus text with
  | none =>
    rw [read] at eachMem
    cases eachMem
  | some status =>
    simp only [read] at eachMem
    split_ifs at eachMem
    · cases eachMem
    · rcases List.mem_pair.mp eachMem with rfl | rfl
      · refine ⟨rfl, ?_⟩
        intro message isCreate
        cases isCreate
      · refine ⟨rfl, ?_⟩
        intro message isCreate
        cases isCreate
        rfl

theorem isReply_supportReply (newID : ℕ → UUID) (t : Ticket) (author : Author) (input : MessageInput)
    (source : Source) : IsReply (supportReply newID t author input source)
      ⟨newID 0, author.id, .support, input.internal, source, input.body⟩ input.files := by
  rw [supportReply]
  refine ⟨[], _, ?_, ?_, (by simp only [List.append_assoc, List.cons_append, List.nil_append]; rfl)⟩
  · intro each eachMem
    cases eachMem
  · intro each eachMem
    rcases List.mem_cons.mp eachMem with rfl | eachMem
    · refine ⟨rfl, ?_⟩
      intro message isCreate
      cases isCreate
    · split_ifs at eachMem
      · cases eachMem
      · exact quiet_setStatus newID t author _ each eachMem
      · cases eachMem
      · exact quiet_setStatus newID t author _ each eachMem

variable {message : Message} {names : List Bytes}

theorem IsReply.carryOut (isReply : IsReply planned message names) (conversation : Conversation) :
    ((carryOut env outcomes conversation planned).2 = true ∧
      (∀ key, (carryOut env outcomes conversation planned).1.letters key =
        conversation.letters key ++ if message.source = .email key then [message] else []) ∧
      ((∀ name ∈ names, env.accepts name = true) →
        (∀ attachment, outcomes.carries (.attach attachment) = true) → ∀ name ∈ names,
          ⟨message.id, name⟩ ∈ (carryOut env outcomes conversation planned).1.attachments)) ∨
    (carryOut env outcomes conversation planned).2 = false ∧
      (∀ key, (carryOut env outcomes conversation planned).1.letters key = conversation.letters key) ∧
      ¬(env.accepts message.body = true ∧ outcomes.carries (.create message) = true) := by
  rcases isReply.parts with ⟨before, after, quietBefore, quietAfter, rfl⟩
  rw [carryOut_append, if_pos (@Quiet.carryOut env outcomes [] before quietBefore conversation).1]
  generalize opened : (Tickets.carryOut env outcomes conversation before).1 = middle
  have middleLetters : ∀ key, middle.letters key = conversation.letters key := by
    intro key
    rw [← opened]
    exact (quietBefore.carryOut conversation).2
  rw [Tickets.carryOut]
  split_ifs with carried needed
  · left
    have quiet : Quiet (saveAttachments message.id names ++ after) :=
      (quiet_saveAttachments message.id names).append quietAfter
    refine ⟨(@Quiet.carryOut env outcomes [] _ quiet _).1, ?_, ?_⟩
    · intro key
      rw [(quiet.carryOut _).2, Conversation.letters, Statement.apply, List.filter_append,
        ← middleLetters key]
      by_cases isKey : message.source = .email key <;> simp [Conversation.letters, isKey]
    · intro accepted attaches name nameMem
      rw [carryOut_append, if_pos (@Quiet.carryOut env outcomes [] _ (quiet_saveAttachments _ _) _).1]
      apply (carryOut_subset _ _).2.1
      exact carryOut_saveAttachments accepted attaches _ name nameMem
  · right
    refine ⟨rfl, middleLetters, ?_⟩
    rw [Bool.and_eq_true] at carried
    exact carried
  · exact absurd rfl needed

def SameOrgs (office later : Office) : Prop :=
  ∀ id, (later.findTicket id).map (·.ticket.orgID) = (office.findTicket id).map (·.ticket.orgID)

theorem Admitted.of_sameOrgs (same : SameOrgs office later)
    (admitted : Admitted env users office m id thread) :
    Admitted env users later m id thread := by
  rcases admitted.allowed with ⟨conversation, user, found, isUser, notRefused⟩
  refine ⟨admitted.addressed, admitted.foreign, admitted.personal, admitted.authentic, ?_,
    admitted.filled⟩
  have sameOrg := same id
  rw [found] at sameOrg
  rcases Option.map_eq_some_iff.mp sameOrg with ⟨other, foundOther, sameID⟩
  refine ⟨other, user, foundOther, isUser, ?_⟩
  rw [← notRefused, Office.refusal, Office.refusal, sameID]

theorem Admitted.of_tickets (admitted : Admitted env users office m id thread)
    (same : later.tickets = office.tickets) :
    Admitted env users later m id thread := by
  apply admitted.of_sameOrgs
  intro ticketID
  rw [Office.findTicket, Office.findTicket, same]

theorem SameOrgs.symm (same : SameOrgs office later) : SameOrgs later office := fun id => (same id).symm

theorem SameOrgs.trans {last : Office} (same : SameOrgs office later) (same' : SameOrgs later last) :
    SameOrgs office last := fun id => (same' id).trans (same id)

def rewriteTicket (env : MailPrimitives) (id : UUID) (outcomes : Outcomes) (planned : List Planned)
    (conversation : Conversation) : Conversation :=
  if conversation.ticket.id = id then (carryOut env outcomes conversation planned).1 else conversation

theorem reply_rows : (office.reply env id outcomes planned).tickets.rows =
    office.tickets.rows.map (rewriteTicket env id outcomes planned) := rfl

theorem rewriteTicket_subset (conversation : Conversation) :
    conversation.messages ⊆ (rewriteTicket env id outcomes planned conversation).messages ∧
      conversation.attachments ⊆ (rewriteTicket env id outcomes planned conversation).attachments ∧
      (rewriteTicket env id outcomes planned conversation).ticket.orgID = conversation.ticket.orgID ∧
      (rewriteTicket env id outcomes planned conversation).ticket.id = conversation.ticket.id := by
  rw [rewriteTicket]
  split_ifs
  · rcases @carryOut_subset env outcomes conversation planned with ⟨messages, attachments, sameOrg⟩
    exact ⟨messages, attachments, sameOrg, carryOut_id env outcomes conversation planned⟩
  · exact ⟨List.Subset.refl _, List.Subset.refl _, rfl, rfl⟩

theorem sameOrgs_reply : SameOrgs office (office.reply env id outcomes planned) := by
  intro other
  rw [Office.findTicket, reply_rows, List.find?_map, Option.map_map, Office.findTicket]
  have sameID : ((fun conversation : Conversation => conversation.ticket.id == other) ∘
      rewriteTicket env id outcomes planned) =
      fun conversation : Conversation => conversation.ticket.id == other := by
    funext conversation
    rw [Function.comp_apply, (rewriteTicket_subset conversation).2.2.2]
  rw [sameID]
  congr 1
  funext conversation
  exact (rewriteTicket_subset conversation).2.2.1

theorem Delivered.reply {other : InboundMail} {ticketID : UUID}
    (delivered : Delivered env office other ticketID) :
    Delivered env (office.reply env id outcomes planned) other ticketID := by
  rcases delivered with ⟨conversation, conversationMem, isTicket, message, messageMem, attached⟩
  rcases @rewriteTicket_subset env outcomes id planned conversation with
    ⟨messages, attachments, -, sameID⟩
  refine ⟨_, List.mem_map_of_mem conversationMem, sameID.trans isTicket, message, ?_, ?_⟩
  · rcases List.mem_filter.mp messageMem with ⟨messageMem, isKey⟩
    exact List.mem_filter.mpr ⟨messages messageMem, isKey⟩
  · intro files dropped kept file fileMem
    exact attachments (attached files dropped kept file fileMem)

theorem record_cases (result : String) :
    (office.record env key m id outcomes result).1 = office ∨
      (office.record env key m id outcomes result).1 =
        { office with inbound := ⟨key, m.sender, id, result⟩ :: office.inbound } := by
  rw [Office.record]
  split_ifs
  · right
    rfl
  · left
    rfl

theorem hasRecord_cons {row : InboundEmail} {other : Bytes} :
    Office.hasRecord { office with inbound := row :: office.inbound } other = true ↔
      row.messageID = other ∨ office.hasRecord other = true := by
  rw [Office.hasRecord, List.any_cons, Bool.or_eq_true, beq_iff_eq, Office.hasRecord]

structure Orderly (env : MailPrimitives) (users : List User) (mailOf : Bytes → InboundMail)
    (office : Office) : Prop where
  once : ∀ key, (office.letters key).length ≤ 1
  recorded : ∀ key, office.letters key ≠ [] → office.hasRecord key = true
  delivered : ∀ m id thread, mailOf (m.key env) = m →
    office.hasRecord (m.key env) = true → Admitted env users office m id thread →
      Delivered env office m id

variable {mailOf : Bytes → InboundMail}

theorem Orderly.insertRecord (sound : Orderly env users mailOf office)
    (isMail : mailOf (m.key env) = m) {row : InboundEmail} (isKey : row.messageID = m.key env)
    (delivered : ∀ id thread, Admitted env users office m id thread →
      Delivered env office m id) :
    Orderly env users mailOf { office with inbound := row :: office.inbound } := by
  refine ⟨sound.once, ?_, ?_⟩
  · intro key some
    rw [hasRecord_cons]
    right
    exact sound.recorded key some
  · intro other id thread isOther isRecorded admitted
    have before : Admitted env users office other id thread := admitted.of_tickets rfl
    rw [hasRecord_cons] at isRecorded
    rcases isRecorded with sameKey | isRecorded
    · have sameMail : other = m := by rw [← isOther, ← sameKey, isKey, isMail]
      rw [sameMail] at before ⊢
      exact delivered id thread before
    · exact sound.delivered other id thread isOther isRecorded before

theorem Orderly.record (sound : Orderly env users mailOf office) (isMail : mailOf (m.key env) = m)
    (result : String) (delivered : ∀ id thread, Admitted env users office m id thread →
      Delivered env office m id) :
    Orderly env users mailOf (office.record env (m.key env) m id outcomes result).1 := by
  rcases @record_cases env office m outcomes id (m.key env) result with same | isRecorded
  · rw [same]
    exact sound
  · rw [isRecorded]
    exact sound.insertRecord isMail rfl delivered

theorem length_flatMap_le_one {Row Value : Type} {rows : List Row} {idOf : Row → UUID}
    {values : Row → List Value} (distinct : (rows.map idOf).Nodup)
    (only : ∀ row ∈ rows, (values row).length ≤ if idOf row = id then 1 else 0) :
    (rows.flatMap values).length ≤ 1 := by
  induction rows with
  | nil => exact Nat.zero_le 1
  | cons row rest ih =>
    rw [List.map_cons, List.nodup_cons] at distinct
    rcases List.forall_mem_cons.mp only with ⟨first, others⟩
    rw [List.flatMap_cons, List.length_append]
    split_ifs at first with isRow
    · have none : rest.flatMap values = [] := by
        rw [List.flatMap_eq_nil_iff]
        intro other otherMem
        have few := others other otherMem
        rw [if_neg] at few
        · exact List.length_eq_zero_iff.mp (Nat.le_zero.mp few)
        · rintro rfl
          exact distinct.1 (isRow ▸ List.mem_map_of_mem otherMem)
      rw [none, List.length_nil]
      exact first
    · have few := ih distinct.2 others
      omega

theorem letters_reply (isReply : IsReply planned message names) (isKey : message.source = .email key)
    (conversationMem : conversation ∈ office.tickets.rows) (isTicket : conversation.ticket.id = id) :
    (∀ other, other ≠ key → (office.reply env id outcomes planned).letters other =
      office.letters other) ∧
    (office.letters key = [] → ((office.reply env id outcomes planned).letters key).length ≤ 1) ∧
    ((carryOut env outcomes conversation planned).2 = false →
      (office.reply env id outcomes planned).letters key = office.letters key) := by
  have rewritten : ∀ row ∈ office.tickets.rows, row.ticket.id = id →
      rewriteTicket env id outcomes planned row =
        (carryOut env outcomes conversation planned).1 ∧ row = conversation := by
    intro row rowMem isRow
    cases office.tickets.eq_of_id_eq rowMem conversationMem (isRow.trans isTicket.symm)
    exact ⟨if_pos isRow, rfl⟩
  have untouched : ∀ row : Conversation, row.ticket.id ≠ id →
      rewriteTicket env id outcomes planned row = row := fun row other => if_neg other
  have outcome := @IsReply.carryOut env outcomes planned message names isReply conversation
  simp only [Office.letters, reply_rows, List.flatMap_map]
  refine ⟨?_, ?_, ?_⟩
  · intro other isOther
    apply List.flatMap_congr
    intro row rowMem
    by_cases isRow : row.ticket.id = id
    · rcases rewritten row rowMem isRow with ⟨isRewritten, rfl⟩
      rw [isRewritten]
      rcases outcome with ⟨-, letters, -⟩ | ⟨-, letters, -⟩
      · rw [letters, isKey, if_neg, List.append_nil]
        intro same
        injection same with same
        exact isOther same.symm
      · exact letters other
    · rw [untouched row isRow]
  · intro none
    rw [List.flatMap_eq_nil_iff] at none
    apply @length_flatMap_le_one id _ _ office.tickets.rows HasID.id _ office.tickets.distinct
    intro row rowMem
    by_cases isRow : row.ticket.id = id
    · rcases rewritten row rowMem isRow with ⟨isRewritten, rfl⟩
      rw [if_pos (show HasID.id row = id from isRow), isRewritten]
      rcases outcome with ⟨-, letters, -⟩ | ⟨-, letters, -⟩
      · rw [letters, none row rowMem, if_pos isKey]
        exact Nat.le_refl 1
      · rw [letters, none row rowMem]
        exact Nat.zero_le 1
    · rw [untouched row isRow, none row rowMem]
      exact Nat.zero_le _
  · intro failed
    apply List.flatMap_congr
    intro row rowMem
    by_cases isRow : row.ticket.id = id
    · rcases rewritten row rowMem isRow with ⟨isRewritten, rfl⟩
      rw [isRewritten]
      rcases outcome with ⟨done, -⟩ | ⟨-, letters, -⟩
      · rw [failed] at done
        cases done
      · exact letters key
    · rw [untouched row isRow]

structure Ingested (env : MailPrimitives) (users : List User) (mailOf : Bytes → InboundMail)
    (office later : Office) (m : InboundMail) (outcomes : Outcomes) : Prop where
  sound : Orderly env users mailOf later
  sameOrgs : SameOrgs office later
  keeps : ∀ other id, Delivered env office other id → Delivered env later other id
  adds : ∀ id thread, Admitted env users office m id thread → outcomes.Stores env m →
    Delivered env later m id

theorem Ingested.of_record (sound : Orderly env users mailOf office)
    (isMail : mailOf (m.key env) = m) (result : String)
    (refused : ∀ id thread, ¬Admitted env users office m id thread) :
    Ingested env users mailOf office
      (office.record env (m.key env) m id outcomes result).1 m outcomes := by
  have soundLater := @Orderly.record env users office m outcomes id mailOf sound isMail result
    fun id thread admitted => absurd admitted (refused id thread)
  have sameTickets : (office.record env (m.key env) m id outcomes result).1.tickets =
      office.tickets := by
    rcases @record_cases env office m outcomes id (m.key env) result with same | recorded
    · rw [same]
    · rw [recorded]
  refine ⟨soundLater, ?_, ?_, ?_⟩
  · intro other
    rw [Office.findTicket, sameTickets]
    rfl
  · intro other ticketID delivered
    rw [Delivered, sameTickets]
    exact delivered
  · intro id thread admitted
    exact absurd admitted (refused id thread)

theorem findTicket_mem (found : office.findTicket id = some conversation) :
    conversation ∈ office.tickets.rows ∧ conversation.ticket.id = id := by
  refine ⟨List.mem_of_find?_eq_some found, ?_⟩
  simpa using List.find?_some found

theorem record_added (served : Served outcomes) (acceptsKey : env.accepts key = true)
    (acceptsSender : env.accepts m.sender = true) (unrecorded : office.hasRecord key = false)
    (result : String) : (office.record env key m id outcomes result).1 =
      { office with inbound := ⟨key, m.sender, id, result⟩ :: office.inbound } := by
  rw [Office.record, if_pos]
  rw [served.records, acceptsKey, acceptsSender, unrecorded]
  rfl

theorem exists_isReply (newID : ℕ → UUID) (thread : Thread) (t : Ticket) (author : Author)
    (input : MessageInput) (source : Source) :
    ∃ message, IsReply (Office.plannedReply newID thread t author input source) message input.files ∧
      message.source = source ∧ message.body = input.body := by
  cases thread with
  | customer => exact ⟨_, isReply_customerReply _ _ _ _ _, rfl, rfl⟩
  | team => exact ⟨_, isReply_supportReply _ _ _ _ _, rfl, rfl⟩

theorem Orderly.letters_eq_nil (sound : Orderly env users mailOf office)
    (unrecorded : office.hasRecord key = false) : office.letters key = [] := by
  by_contra some
  rw [sound.recorded key some] at unrecorded
  cases unrecorded

theorem Orderly.reply_failed (sound : Orderly env users mailOf office)
    (isReply : IsReply planned message names) (isKey : message.source = .email key)
    (conversationMem : conversation ∈ office.tickets.rows) (isTicket : conversation.ticket.id = id)
    (failed : (carryOut env outcomes conversation planned).2 = false) :
    Orderly env users mailOf (office.reply env id outcomes planned) := by
  rcases @letters_reply env office outcomes id key conversation planned message names isReply isKey
    conversationMem isTicket with ⟨others, -, same⟩
  have letters : ∀ other, (office.reply env id outcomes planned).letters other =
      office.letters other := by
    intro other
    by_cases isOther : other = key
    · rw [isOther]
      exact same failed
    · exact others other isOther
  refine ⟨?_, ?_, ?_⟩
  · intro other
    rw [letters]
    exact sound.once other
  · intro other some
    rw [letters] at some
    exact sound.recorded other some
  · intro other ticketID thread isOther isRecorded admitted
    exact (sound.delivered other ticketID thread isOther isRecorded
      (admitted.of_sameOrgs sameOrgs_reply.symm)).reply

theorem delivered_reply {files : List PendingFile} {dropped : List Bytes} (fits : Fits env m)
    (served : Served outcomes) (attached : emailAttachments env m.files = some (files, dropped))
    (isReply : IsReply planned message (files.map PendingFile.name))
    (isKey : message.source = .email (m.key env)) (conversationMem : conversation ∈ office.tickets.rows)
    (isTicket : conversation.ticket.id = id)
    (done : (carryOut env outcomes conversation planned).2 = true) :
    Delivered env (office.reply env id outcomes planned) m id := by
  rcases @IsReply.carryOut env outcomes planned message _ isReply conversation with
    ⟨-, letters, attaches⟩ | ⟨failed, -⟩
  · have isRewritten : rewriteTicket env id outcomes planned conversation =
        (carryOut env outcomes conversation planned).1 := if_pos isTicket
    have rowMem : rewriteTicket env id outcomes planned conversation ∈
        (office.reply env id outcomes planned).tickets.rows := List.mem_map_of_mem conversationMem
    rw [isRewritten] at rowMem
    refine ⟨_, rowMem, ?_, message, ?_, ?_⟩
    · rw [carryOut_id]
      exact isTicket
    · rw [letters, if_pos isKey]
      exact List.mem_append_right _ (List.mem_singleton.mpr rfl)
    · intro files' dropped' attached' file fileMem
      cases attached.symm.trans attached'
      apply attaches _ served.attaches _ (List.mem_map_of_mem fileMem)
      intro name nameMem
      rcases List.mem_map.mp nameMem with ⟨kept, keptMem, rfl⟩
      exact fits.files files dropped attached kept keptMem
  · rw [failed] at done
    cases done

section

variable (sound : Orderly env users mailOf office)

include sound

section

variable (isMail : mailOf (m.key env) = m)

include isMail

theorem ingested_addReply {files : List PendingFile} {dropped : List Bytes}
    (unrecorded : office.hasRecord (m.key env) = false)
    (found : office.findTicket id = some conversation)
    (addressed : env.parseThreadID m.inReplyTo m.references = some (id, thread)) (user : User)
    (fits : Fits env m) (served : Served outcomes)
    (attached : emailAttachments env m.files = some (files, dropped)) :
    Ingested env users mailOf office
      (office.addReply env (m.key env) m conversation thread user outcomes files
        (replyBody env m dropped)).1 m outcomes := by
  rcases findTicket_mem found with ⟨conversationMem, isTicket⟩
  unfold Office.addReply
  dsimp only
  generalize isInput : (⟨if replyBody env m dropped = [] then bytes "(Sent attachments by email)"
    else replyBody env m dropped, false, "", files.map PendingFile.name⟩ : MessageInput) = input
  have inputFiles : input.files = files.map PendingFile.name := by rw [← isInput]
  have acceptsBody : env.accepts input.body = true := by
    rw [← isInput]
    exact fits.body files dropped attached
  rcases exists_isReply outcomes.newID thread conversation.ticket ⟨user.id, user.name⟩ input
    (.email (m.key env)) with ⟨message, isReply, isKey, isBody⟩
  generalize Office.plannedReply outcomes.newID thread conversation.ticket ⟨user.id, user.name⟩ input
    (.email (m.key env)) = planned at isReply ⊢
  rw [inputFiles] at isReply
  rw [isTicket]
  cases done : (carryOut env outcomes conversation planned).2 with
  | false =>
    rw [if_neg Bool.false_ne_true]
    refine ⟨sound.reply_failed isReply isKey conversationMem isTicket done, sameOrgs_reply,
      fun other ticketID delivered => delivered.reply, ?_⟩
    intro ticketID thread admitted stores
    exfalso
    rcases @IsReply.carryOut env outcomes planned message _ isReply conversation with
      ⟨isDone, -⟩ | ⟨-, -, notStored⟩
    · rw [done] at isDone
      cases isDone
    · apply notStored
      rw [isBody]
      exact ⟨acceptsBody, stores message isKey⟩
  | true =>
    have delivered := @delivered_reply env office m outcomes id conversation planned message files
      dropped fits served attached isReply isKey conversationMem isTicket done
    have unrecordedLater : (office.reply env id outcomes planned).hasRecord (m.key env) =
      false := unrecorded
    rw [if_pos rfl, record_added served fits.key fits.sender unrecordedLater]
    rcases @letters_reply env office outcomes id _ conversation planned message _ isReply isKey
      conversationMem isTicket with ⟨others, fresh, -⟩
    have deliveredHere : ∀ ticketID thread', Admitted env users office m ticketID thread' →
        Delivered env (office.reply env id outcomes planned) m ticketID := by
      intro ticketID thread' admitted
      cases addressed.symm.trans admitted.addressed
      exact delivered
    refine ⟨⟨?_, ?_, ?_⟩, ?_, ?_, ?_⟩
    · intro other
      by_cases isOther : other = m.key env
      · rw [isOther]
        exact fresh (sound.letters_eq_nil unrecorded)
      · exact (others other isOther).symm ▸ sound.once other
    · intro other some
      rw [hasRecord_cons]
      by_cases isOther : other = m.key env
      · left
        exact isOther.symm
      · right
        exact sound.recorded other (others other isOther ▸ some)
    · intro other ticketID thread' isOther isRecorded admitted
      have replied : Admitted env users (office.reply env id outcomes planned) other ticketID
        thread' := admitted.of_tickets rfl
      have before : Admitted env users office other ticketID thread' :=
        replied.of_sameOrgs sameOrgs_reply.symm
      rw [hasRecord_cons] at isRecorded
      rcases isRecorded with sameKey | isRecorded
      · have sameMail : other = m := by rw [← isOther, ← sameKey, isMail]
        rw [sameMail] at before ⊢
        exact deliveredHere ticketID thread' before
      · exact (sound.delivered other ticketID thread' isOther isRecorded before).reply
    · exact sameOrgs_reply
    · intro other ticketID isDelivered
      exact isDelivered.reply
    · intro ticketID thread' admitted stores
      exact deliveredHere ticketID thread' admitted

theorem ingestEmail_refused (refused : ∀ id thread, ¬Admitted env users office m id thread) :
    ∃ later result, office.ingestEmail env users m outcomes = some (later, result) ∧
      Ingested env users mailOf office later m outcomes := by
  have unchanged : Ingested env users mailOf office office m outcomes :=
    ⟨sound, fun _ => rfl, fun _ _ delivered => delivered,
      fun id thread admitted => absurd admitted (refused id thread)⟩
  have recorded : ∀ id result, ∃ later text,
      some (office.record env (m.key env) m id outcomes result) = some (later, text) ∧
        Ingested env users mailOf office later m outcomes := fun id result =>
    ⟨_, _, rfl, .of_record sound isMail result refused⟩
  unfold Office.ingestEmail
  cases addressed : env.parseThreadID m.inReplyTo m.references with
  | none => exact ⟨office, _, rfl, unchanged⟩
  | some name =>
    rcases name with ⟨id, thread⟩
    dsimp only
    generalize isFound : (if outcomes.findsTicket = true then office.findTicket id else none) = ticket
    generalize isUser : (if outcomes.findsUser = true then
      Office.findUser env users m.sender else none) = sender
    split_ifs with known own automatic failed
    · exact ⟨office, _, rfl, unchanged⟩
    · exact recorded id _
    · exact recorded id _
    · exact recorded id _
    · cases ticket with
      | none => exact recorded id _
      | some conversation => cases sender with
        | none => exact recorded id _
        | some user => cases notRefused : Office.refusal thread conversation.ticket user with
          | some result =>
            dsimp only
            rw [notRefused]
            exact recorded id _
          | none =>
            have found : office.findTicket id = some conversation := by
              split_ifs at isFound
              exact isFound
            have foundUser : Office.findUser env users m.sender = some user := by
              split_ifs at isUser
              exact isUser
            have isEmpty : ¬(extractReply env m.text ≠ [] ∨ m.files ≠ []) := fun filled =>
              refused id thread ⟨addressed, by simpa using own, by simpa using automatic,
                by simpa using failed, ⟨conversation, user, found, foundUser, notRefused⟩, filled⟩
            have noFiles : m.files = [] := by
              by_contra some
              exact isEmpty (.inr some)
            have noBody : extractReply env m.text = [] := by
              by_contra some
              exact isEmpty (.inl some)
            have nothing : emailAttachments env m.files = some ([], []) := by
              rw [noFiles]
              rfl
            have isBlank : replyBody env m [] = [] := by
              rw [replyBody, if_pos rfl]
              exact noBody
            dsimp only
            rw [notRefused, nothing, Option.map_some]
            dsimp only
            rw [if_pos ⟨isBlank, rfl⟩]
            exact recorded id _

theorem ingestEmail_admitted (admitted : Admitted env users office m id thread)
    (fits : Fits env m) (served : Served outcomes) :
    ∃ later result, office.ingestEmail env users m outcomes = some (later, result) ∧
      Ingested env users mailOf office later m outcomes := by
  rcases admitted.allowed with ⟨conversation, user, found, isUser, notRefused⟩
  rcases Option.isSome_iff_exists.mp (@emailAttachments_isSome env m.files fits.names) with
    ⟨⟨files, dropped⟩, attached⟩
  unfold Office.ingestEmail
  rw [admitted.addressed]
  dsimp only
  rw [served.counts, fits.key, admitted.foreign, admitted.personal, admitted.authentic, served.findsTicket,
    served.findsUser, if_pos rfl, if_pos rfl, found, isUser]
  dsimp only
  rw [notRefused, attached]
  cases isRecorded : office.hasRecord (m.key env) with
  | true =>
    refine ⟨office, _, rfl, sound, fun _ => rfl, fun _ _ delivered => delivered, ?_⟩
    intro ticketID thread' admitted' _
    exact sound.delivered m ticketID thread' isMail isRecorded admitted'
  | false =>
    have notEmpty : ¬(replyBody env m dropped = [] ∧ files = []) := by
      intro isEmpty
      rcases not_filled attached isEmpty with ⟨noText, noFiles⟩
      rcases admitted.filled with some | some
      · exact some noText
      · exact some noFiles
    simp only [Bool.and_false, Bool.false_eq_true, if_false, Option.map_some, notEmpty]
    exact ⟨_, _, rfl, ingested_addReply sound isMail isRecorded found admitted.addressed user fits served
      attached⟩

theorem exists_ingested (untroubled : ∀ id thread, Admitted env users office m id thread →
      Fits env m ∧ Served outcomes) :
    ∃ later result, office.ingestEmail env users m outcomes = some (later, result) ∧
      Ingested env users mailOf office later m outcomes := by
  by_cases isReply : ∃ id thread, Admitted env users office m id thread
  · rcases isReply with ⟨id, thread, admitted⟩
    rcases untroubled id thread admitted with ⟨fits, served⟩
    exact ingestEmail_admitted sound isMail admitted fits served
  · apply ingestEmail_refused sound isMail
    intro id thread admitted
    exact isReply ⟨id, thread, admitted⟩

end

end

/-- What is guaranteed when the wanted ones among some messages have been read. -/
structure Polled (env : MailPrimitives) (users : List User) (mailOf : Bytes → InboundMail)
    (wanted : Mail → InboundMail → Prop) (office later : Office) (entries : List (Mail × Outcomes)) :
    Prop where
  sound : Orderly env users mailOf later
  sameOrgs : SameOrgs office later
  keeps : ∀ other id, Delivered env office other id → Delivered env later other id
  adds : ∀ entry ∈ entries, ∀ m id thread, wanted entry.1 m → Admitted env users office m id thread →
    entry.2.Stores env m → Delivered env later m id

variable {folder : List (Mail × Outcomes)}

theorem UntroubledFolder.of_sameOrgs (same : SameOrgs office later)
    (untroubled : UntroubledFolder env users mailOf office folder) :
    UntroubledFolder env users mailOf later folder := by
  intro entry entryMem m isParsed
  rcases untroubled entry entryMem m isParsed with ⟨isMail, fitting⟩
  refine ⟨isMail, ?_⟩
  intro id thread admitted
  exact fitting id thread (admitted.of_sameOrgs same.symm)

theorem polled_ingestAll {entries : List (Mail × Outcomes)} (sound : Orderly env users mailOf office)
    (untroubled : UntroubledFolder env users mailOf office entries) :
    (ingestAll env users office entries).2 = true ∧
      Polled env users mailOf (fun mail m => mail.parsed = some m) office
        (ingestAll env users office entries).1 entries := by
  induction entries generalizing office with
  | nil =>
    refine ⟨rfl, sound, fun _ => rfl, fun _ _ delivered => delivered, ?_⟩
    intro entry entryMem
    cases entryMem
  | cons entry rest ih =>
    rcases entry with ⟨mail, outcomes⟩
    rcases List.forall_mem_cons.mp untroubled with ⟨first, others⟩
    rw [ingestAll]
    cases isParsed : mail.parsed with
    | none =>
      rcases ih sound others with ⟨done, polled⟩
      refine ⟨done, polled.sound, polled.sameOrgs, polled.keeps, ?_⟩
      rw [List.forall_mem_cons]
      refine ⟨?_, polled.adds⟩
      intro m id thread isOther
      cases isParsed.symm.trans isOther
    | some m =>
      rcases first m isParsed with ⟨isMail, fitting⟩
      rcases exists_ingested sound isMail fitting with ⟨later, result, isRead, ingested⟩
      rcases ih ingested.sound (UntroubledFolder.of_sameOrgs ingested.sameOrgs others) with
        ⟨done, polled⟩
      dsimp only
      rw [isRead]
      refine ⟨done, polled.sound, ingested.sameOrgs.trans polled.sameOrgs, ?_, ?_⟩
      · intro other id delivered
        exact polled.keeps other id (ingested.keeps other id delivered)
      · rw [List.forall_mem_cons]
        constructor
        · intro other id thread isOther admitted stores
          cases isParsed.symm.trans isOther
          exact polled.keeps m id (ingested.adds id thread admitted stores)
        · intro entry entryMem other id thread isOther admitted stores
          exact polled.adds entry entryMem other id thread isOther
            (admitted.of_sameOrgs ingested.sameOrgs) stores

theorem hasRecord_of_not_wants {mail : Mail} (reads : mail.Reads env m)
    (unwanted : office.wants env mail outcomes = false) :
    office.hasRecord (m.key env) = true := by
  rcases reads with ⟨-, header, isHeader, sameID, isThread⟩
  rw [Office.wants, isHeader, Option.any_some, isThread, sameID, Bool.true_and] at unwanted
  rw [InboundMail.key]
  by_cases unnamed : m.messageID = []
  · simp [unnamed] at unwanted
  · rw [if_neg unnamed]
    simp only [unnamed, decide_false, Bool.false_or, Bool.not_eq_false', Bool.and_eq_true] at unwanted
    exact unwanted.2

section

variable (sound : Orderly env users mailOf office)

include sound

theorem polled_readFolder
    (untroubled : UntroubledFolder env users mailOf office folder) :
    (readFolder env users office folder).2 = true ∧
      Polled env users mailOf (Mail.Reads env) office
        (readFolder env users office folder).1 folder := by
  rcases @polled_ingestAll env users office mailOf
    (folder.filter fun entry => office.wants env entry.1 entry.2) sound
    (fun entry entryMem => untroubled entry (List.mem_of_mem_filter entryMem)) with ⟨done, polled⟩
  refine ⟨done, polled.sound, polled.sameOrgs, polled.keeps, ?_⟩
  intro entry entryMem m id thread reads admitted stores
  cases isWanted : office.wants env entry.1 entry.2 with
  | true =>
    have filtered : entry ∈ folder.filter fun entry => office.wants env entry.1 entry.2 :=
      List.mem_filter.mpr ⟨entryMem, isWanted⟩
    exact polled.adds entry filtered m id thread reads.1 admitted stores
  | false =>
    have isMail := (untroubled entry entryMem m reads.1).1
    exact polled.keeps m id (sound.delivered m id thread isMail (hasRecord_of_not_wants reads isWanted)
      admitted)

theorem polled_readMailbox {mailbox : Mailbox}
    (untroubled : Untroubled env users mailOf office mailbox) :
    Polled env users mailOf (Mail.Reads env) office
      (readMailbox env users office mailbox).1 mailbox.flatten := by
  induction mailbox generalizing office with
  | nil =>
    refine ⟨sound, fun _ => rfl, fun _ _ delivered => delivered, ?_⟩
    intro entry entryMem
    cases entryMem
  | cons folder rest ih =>
    rcases List.forall_mem_cons.mp untroubled with ⟨first, others⟩
    rcases polled_readFolder sound first with ⟨done, polled⟩
    rw [readMailbox]
    dsimp only
    rw [if_pos done]
    have polledRest := ih polled.sound fun folder folderMem => (others folder folderMem).of_sameOrgs polled.sameOrgs
    refine ⟨polledRest.sound, polled.sameOrgs.trans polledRest.sameOrgs, ?_, ?_⟩
    · intro other id delivered
      exact polledRest.keeps other id (polled.keeps other id delivered)
    · intro entry entryMem m id thread reads admitted stores
      rw [List.flatten_cons] at entryMem
      rcases List.mem_append.mp entryMem with entryMem | entryMem
      · exact polledRest.keeps m id (polled.adds entry entryMem m id thread reads admitted stores)
      · exact polledRest.adds entry entryMem m id thread reads (admitted.of_sameOrgs polled.sameOrgs) stores

theorem sound_pollStep {mailbox : Mailbox}
    (untroubled : Untroubled env users mailOf office mailbox)
    (stepped : pollStep env users office mailbox = some later) :
    Orderly env users mailOf later := by
  cases stepped
  exact (polled_readMailbox sound untroubled).sound

end

/-- Tickets to which no mail has come. -/
def Office.opened (tickets : Table Conversation) : Office := ⟨tickets, []⟩

theorem sound_opened {tickets : Table Conversation}
    (unread : ∀ conversation ∈ tickets.rows, ∀ message ∈ conversation.messages, message.source = .web) :
    Orderly env users mailOf (.opened tickets) := by
  have none : ∀ key, (Office.opened tickets).letters key = [] := by
    intro key
    rw [Office.letters, List.flatMap_eq_nil_iff]
    intro conversation conversationMem
    rw [Conversation.letters, List.filter_eq_nil_iff]
    intro message messageMem isKey
    rw [unread conversation conversationMem message messageMem] at isKey
    simp at isKey
  refine ⟨?_, ?_, ?_⟩
  · intro key
    rw [none]
    exact Nat.zero_le 1
  · intro key some
    exact absurd (none key) some
  · intro m id thread _ isRecorded
    cases isRecorded

/-- Every reply is added once in a run of polls that no reply troubles. -/
theorem onceEach_of_untroubled {tickets : Table Conversation} {trace : List Mailbox} {final : Office}
    (mailOf : Bytes → InboundMail)
    (unread : ∀ conversation ∈ tickets.rows, ∀ message ∈ conversation.messages, message.source = .web)
    (executed : exec (pollStep env users) (.opened tickets) trace = some final)
    (untroubled : AllSteps (pollStep env users) (Untroubled env users mailOf)
      (.opened tickets) trace) :
    OnceEach env users (.opened tickets) trace := by
  have started := @sound_opened env users mailOf tickets unread
  constructor
  · rintro reached ⟨seen, ⟨rest, rfl⟩, executedSeen⟩
    have sound := invariant_of_allSteps
      (fun _ _ _ sound untroubled stepped => sound_pollStep sound untroubled stepped) started
      ((allSteps_append executedSeen).mp untroubled).1 executedSeen
    exact sound.once
  · rintro first mailbox rest earlier later rfl executedFirst stepped folder folderMem entry entryMem m id
      thread reads admitted stores
    rw [allSteps_append executedFirst] at untroubled
    have sound := invariant_of_allSteps
      (fun _ _ _ sound untroubled stepped => sound_pollStep sound untroubled stepped) started
      untroubled.1 executedFirst
    have polled := polled_readMailbox sound untroubled.2.1
    cases stepped
    exact polled.adds entry (List.mem_flatten.mpr ⟨folder, folderMem, entryMem⟩) m id thread reads admitted
      stores

def isBlank (byte : UInt8) : Bool := byte ∈ [9, 10, 11, 12, 13, 32]

theorem dropWhile_ne_nil {text : Bytes} (seen : ∃ byte ∈ text, isBlank byte = false) :
    text.dropWhile isBlank ≠ [] := by
  intro none
  rcases seen with ⟨byte, byteMem, notBlank⟩
  rw [List.dropWhile_eq_nil_iff] at none
  rw [none byte byteMem] at notBlank
  cases notBlank

def rootName : Bytes := bytes "<t.00000000-0000-0000-0000-000000000001.customer.0123456789abcdef01234567@aavishield.com>"

def MailPrimitives.ascii : MailPrimitives where
  parseThreadID inReplyTo _ := if inReplyTo = rootName then some (⟨1⟩, .customer) else none
  sum _ := []
  equalFold first second := first == second
  toLower := List.map fun byte => if 65 ≤ byte ∧ byte ≤ 90 then byte + 32 else byte
  trimSpace text := ((text.dropWhile isBlank).reverse.dropWhile isBlank).reverse
  trimSpace_ne_nil := by
    rintro text ⟨byte, byteMem, visible, -⟩
    have notBlank : isBlank byte = false := by
      simp only [isBlank, decide_eq_false_iff_not]
      intro blankMem
      simp only [List.mem_cons, List.not_mem_nil, or_false] at blankMem
      rcases blankMem with rfl | rfl | rfl | rfl | rfl | rfl <;> exact absurd visible (by decide)
    have started := dropWhile_ne_nil ⟨byte, byteMem, notBlank⟩
    rw [Ne, List.reverse_eq_nil_iff]
    apply dropWhile_ne_nil
    have first := List.head_dropWhile_not isBlank started
    exact ⟨_, List.mem_reverse.mpr (List.head_mem started), first⟩
  quoteStart _ := none
  detectContentType _ := "text/plain; charset=utf-8"
  accepts text := text.all fun byte => 0 < byte && byte < 128
  fromEmail := bytes "support@aavishield.com"

def anna : User := ⟨⟨7⟩, bytes "Anna Berg", bytes "anna@acme.com", some ⟨9⟩, false, true⟩

def desk : Table Conversation :=
  Table.empty.insert (World.created ⟨1⟩ (some ⟨9⟩) .normal
    ⟨⟨2⟩, ⟨7⟩, .customer, false, .web, bytes "It does not start"⟩ 0).conversation

def letter (name : String) (files : List RawFile) : InboundMail where
  messageID := bytes name
  sender := bytes "anna@acme.com"
  subject := bytes "Re: It does not start"
  inReplyTo := rootName
  references := []
  autoReply := false
  dmarcFailed := false
  text := bytes "Here is the log."
  files := files

def InboundMail.arrives (m : InboundMail) : Mail × Outcomes :=
  (⟨some ⟨m.messageID, m.inReplyTo, m.references⟩, some m⟩,
    ⟨true, true, true, true, fun _ => true, true, 5, fun number => ⟨number + 100⟩⟩)

def withLog : InboundMail := letter "<a@acme.com>" [⟨"start.log".toList, [79, 75]⟩]

theorem untroubled_withLog (office : Office) :
    Untroubled .ascii [anna] (fun _ => withLog) office [[withLog.arrives]] := by
  intro folder folderMem entry entryMem m isParsed
  cases List.mem_singleton.mp folderMem
  cases List.mem_singleton.mp entryMem
  cases isParsed
  refine ⟨rfl, ?_⟩
  intro id thread _
  refine ⟨⟨?_, by decide, by decide, ?_, ?_⟩, ⟨rfl, rfl, rfl, fun _ => rfl, rfl⟩⟩
  · intro file fileMem
    cases List.mem_singleton.mp fileMem
    left
    decide
  · intro files dropped attached
    cases attached
    decide
  · intro files dropped attached file fileMem
    cases attached
    cases List.mem_singleton.mp fileMem
    decide

/-- The mailbox is read twice. -/
theorem onceEach_withLog :
    OnceEach .ascii [anna] (.opened desk) [[[withLog.arrives]], [[withLog.arrives]]] := by
  apply @onceEach_of_untroubled .ascii [anna] desk [[[withLog.arrives]], [[withLog.arrives]]] _
    (fun _ => withLog) _ rfl
  · exact ⟨untroubled_withLog _, fun next _ => ⟨untroubled_withLog next, fun _ _ => trivial⟩⟩
  · intro conversation conversationMem message messageMem
    cases List.mem_singleton.mp conversationMem
    cases List.mem_singleton.mp messageMem
    rfl

def strange : InboundMail := letter "<b@acme.com>" [⟨'.' :: List.replicate 125 'a', [79, 75]⟩]

/-- An attachment's name has its only dot at the front, far from its end. -/
theorem not_alwaysOnceEach : ¬∀ env users tickets trace final,
    (∀ conversation ∈ tickets.rows, ∀ message ∈ conversation.messages, message.source = .web) →
      exec (pollStep env users) (.opened tickets) trace = some final →
        OnceEach env users (.opened tickets) trace := by
  intro always
  have onceEach := always .ascii [anna] desk [[[strange.arrives, withLog.arrives]]] _ (by
    intro conversation conversationMem message messageMem
    cases List.mem_singleton.mp conversationMem
    cases List.mem_singleton.mp messageMem
    rfl) rfl
  have delivered := onceEach.each [] [[strange.arrives, withLog.arrives]] [] _ _ rfl rfl rfl
    [strange.arrives, withLog.arrives] (List.mem_singleton.mpr rfl) withLog.arrives (by simp) withLog ⟨1⟩
    .customer ⟨rfl, _, rfl, rfl, rfl⟩
    ⟨rfl, rfl, rfl, rfl, ⟨_, anna, rfl, rfl, rfl⟩, .inr (List.cons_ne_nil _ _)⟩ fun _ _ => rfl
  rcases delivered with ⟨conversation, conversationMem, -, message, messageMem, -⟩
  have none : (readMailbox .ascii [anna] (.opened desk) [[strange.arrives, withLog.arrives]]).1.letters
      (withLog.key .ascii) = [] := by decide +kernel
  rw [Office.letters, List.flatMap_eq_nil_iff] at none
  rw [none conversation conversationMem] at messageMem
  cases messageMem

end Aavishield.Tickets
