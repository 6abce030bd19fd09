import Aavishield.Compliance.Purge

/-!
# What a purge leaves

A purge that answers that it is done has erased the organisation when no statement failed, no
row outside its list of tables names the organisation or what belongs to it, and none of the
credentials that are checked without the tables is still good.  A statement that fails leaves
everything as it was, and the answer is the same.
-/

namespace Aavishield.Compliance

open Auth (Rejection Token authRequired portalRequired)
open Deletions
open TokenCache (CachedAgentToken)

variable {env : Primitives} {request : PurgeRequest} {world : World} {db : Database}
  {entryID orgID : UUID} {failing : Option TableName} {table : TableName} {row : Row}

def Erased (db after : Database) (orgID : UUID) : Prop :=
  ∀ table, ∀ row ∈ after.rows table, db.RefersTo orgID table row →
    table = .auditLogs ∧ row ∉ db.rows .auditLogs

/-- Neither the tables nor what is beside them lets anybody in for the organisation. -/
structure NoneAccepted (env : Primitives) (db : Database) (after : World) (orgID : UUID) :
    Prop where
  refresh : ∀ token user, after.refresh env token = .ok user →
    ¬db.Belongs orgID .user user.id
  portalRefresh : ∀ token employee, after.portalRefresh env token = .ok employee →
    ¬db.Belongs orgID .employee employee.id
  session : ∀ token ∈ after.issued, ∀ later ≥ after.now, ∀ claims,
    authRequired ⟨some token, none⟩ later = .ok claims → claims.orgID ≠ some orgID
  portalSession : ∀ token ∈ after.issued, ∀ later ≥ after.now, ∀ identity,
    portalRequired ⟨some token, none⟩ later = .ok identity → identity.orgID ≠ orgID
  agent : ∀ header agent, after.authAgent env header = .ok agent → agent.2.orgID ≠ orgID
  enrolment : ∀ token row, after.enroll token = .ok row → row.uuid .orgID ≠ some orgID
  reset : ∀ token row, after.resetPassword env .userID token = .ok row →
    ∀ user, row.uuid .userID = some user → ¬db.Belongs orgID .user user
  portalReset : ∀ token row, after.resetPassword env .employeeID token = .ok row →
    ∀ employee, row.uuid .employeeID = some employee → ¬db.Belongs orgID .employee employee

inductive Database.Owns (db : Database) (other : UUID) (table : TableName) (row : Row) : Prop where
  | ofOrg (owner : row.uuid .orgID = some other)
  | itself (isOrganization : table = .organizations) (same : row.id = other)
  | ofTicket (ticket : Row) (ticketMem : ticket ∈ db.rows .supportTickets)
      (owner : ticket.uuid .orgID = some other) (named : row.uuid .ticketID = some ticket.id)
  | naming (noOrg : Column.orgID ∉ table.columns) (noTicket : Column.ticketID ∉ table.columns)
      (apart : table ≠ .organizations) (refers : db.RefersTo other table row)

/-- A purge that says it is done is done, and one that fails has done nothing. -/
structure Honest (env : Primitives) (request : PurgeRequest) (world : World)
    (entryID : UUID) (failing : Option TableName) (orgID : UUID) : Prop where
  erased : (purge env request world.db entryID failing).2.isOk = true →
    Erased world.db (purge env request world.db entryID failing).1 orgID
  noneAccepted : (purge env request world.db entryID failing).2.isOk = true →
    NoneAccepted env world.db
      { world with db := (purge env request world.db entryID failing).1 } orgID
  wholeOrNot : (∃ deletion ∈ deletions orgID, failing = some deletion.table) →
    (∀ table, ∀ row ∈ world.db.rows table,
      row ∈ (purge env request world.db entryID failing).1.rows table) ∧
        (purge env request world.db entryID failing).2.isOk = false
  others : ∀ other ≠ orgID, ∀ table row, world.db.Owns other table row →
    (row ∈ (purge env request world.db entryID failing).1.rows table ↔
      row ∈ world.db.rows table)

/-- Nothing fails, nothing is outside the list of tables, and no credential outlives its row. -/
structure Erasable (env : Primitives) (world : World) (failing : Option TableName)
    (orgID : UUID) : Prop where
  works : ∀ deletion ∈ deletions orgID, failing ≠ some deletion.table
  listed : ∀ table, ∀ row ∈ world.db.rows table, world.db.RefersTo orgID table row →
    ∃ deletion ∈ deletions orgID, deletion.table = table ∧
      deletion.selects world.db.rows row = true
  expired : ∀ token ∈ world.issued, ∀ later ≥ world.now, ∀ claims,
    Auth.parseAccessToken token later = .ok claims → claims.orgID ≠ some orgID
  uncached : ∀ device agentKey token, device ≠ [] → ':' ∉ device →
    world.agentCache (String.ofList device, env.agentKeyHash agentKey) = some token →
      token.orgID ≠ orgID

theorem purge_of_refused {rejection : Rejection}
    (refused : purgeable env request db = .error rejection) :
    purge env request db entryID failing = (db, .error rejection) := by
  simp only [purge, refused]

theorem isOk_purge : (purge env request db entryID failing).2.isOk =
    (purgeable env request db).isOk := by
  unfold purge
  cases purgeable env request db <;> rfl

variable {deletion : Deletion TableName Row}

theorem apart_of_deletions (deletionMem : deletion ∈ deletions orgID) :
    TableName.auditLogs ∉ deletion.reads ∧ deletion.table ≠ .auditLogs := by
  revert deletion
  simp [deletions, ofOrg, itself, ofFlags, ofTickets]

section Purged

variable {org : Row} (admitted : purgeable env request db = .ok org)

include admitted

theorem id_of_purgeable : env.parseUUID request.id = some org.id := by
  unfold purgeable at admitted
  split at admitted
  · cases admitted
  · rename_i orgID parsed
    split at admitted
    · cases admitted
    · rename_i found look
      have same : found.id = orgID := by simpa using List.find?_some look
      split_ifs at admitted
      split at admitted
      · cases admitted
      · split_ifs at admitted
        cases admitted
        rw [parsed, same]

theorem mem_of_mem_purge
    (rowMem : row ∈ (purge env request db entryID failing).1.rows table) :
    row ∈ db.rows table ∨ table = .auditLogs ∧ row = purgeEntry request org entryID ∧
      row ∉ db.rows .auditLogs := by
  simp only [purge, admitted] at rowMem
  have audited := transact_sublist.subset rowMem
  rcases Database.mem_insert.mp audited with before | ⟨rfl, rfl, fresh⟩
  · exact .inl before
  · exact .inr ⟨rfl, rfl, fun there => fresh (List.mem_map_of_mem there)⟩

theorem mem_purge_of_fails (rowMem : row ∈ db.rows table) {deletion : Deletion TableName Row}
    (deletionMem : deletion ∈ deletions org.id) (failed : failing = some deletion.table) :
    row ∈ (purge env request db entryID failing).1.rows table := by
  simp only [purge, admitted]
  show row ∈ transact _ _ _ _
  rw [transact_of_fails deletionMem (by simp [failed])]
  exact Database.mem_insert.mpr (.inl rowMem)

theorem mem_purge_of_works (works : ∀ deletion ∈ deletions org.id, failing ≠ some deletion.table)
    (rowMem : row ∈ db.rows table) :
    row ∈ (purge env request db entryID failing).1.rows table ↔
      ∀ deletion ∈ deletions org.id, deletion.table = table →
        deletion.selects db.rows row = false := by
  have unheard : ∀ deletion ∈ deletions org.id,
      deletion.selects (db.insert .auditLogs (purgeEntry request org entryID)
        (purgeEntry_fits request org entryID)).rows row = deletion.selects db.rows row := by
    intro deletion deletionMem
    apply congrFun (deletion.readsOnly _ db.rows _)
    intro name nameMem
    apply Database.rows_insert_of_ne
    exact ne_of_mem_of_not_mem nameMem (apart_of_deletions deletionMem).1
  simp only [purge, admitted]
  show row ∈ transact _ _ _ _ ↔ _
  rw [transact_of_works (by simpa using works), mem_runAll (ordered_deletions org.id)]
  constructor
  · rintro ⟨-, kept⟩ deletion deletionMem named
    rw [← unheard deletion deletionMem]
    exact kept deletion deletionMem named
  · intro kept
    refine ⟨Database.mem_insert.mpr (.inl rowMem), ?_⟩
    intro deletion deletionMem named
    rw [unheard deletion deletionMem]
    exact kept deletion deletionMem named

end Purged

theorem deletions_cases (deletionMem : deletion ∈ deletions orgID)
    (named : deletion.table = table) (selected : deletion.selects db.rows row = true) :
    row.uuid .orgID = some orgID ∧ .orgID ∈ table.columns ∧ .ticketID ∉ table.columns ∧
        table ≠ .organizations ∨
      row.id = orgID ∧ table = .organizations ∨
      (∃ ticket ∈ db.rows .supportTickets, ticket.uuid .orgID = some orgID ∧
        row.uuid .ticketID = some ticket.id) ∧ .orgID ∉ table.columns ∧
          .ticketID ∈ table.columns ∧ table ≠ .organizations := by
  subst named
  simp only [deletions, List.mem_cons, List.not_mem_nil, or_false] at deletionMem
  rcases deletionMem with rfl | rfl | rfl | rfl | rfl | rfl | rfl | rfl | rfl | rfl | rfl | rfl |
    rfl | rfl | rfl | rfl
  all_goals
    simp [ofOrg, itself, ofFlags, ofTickets, TableName.columns] at selected ⊢
    tauto

variable {other : UUID}

theorem owner_of_selects (deletionMem : deletion ∈ deletions orgID) (named : deletion.table = table)
    (selected : deletion.selects db.rows row = true) (rowMem : row ∈ db.rows table)
    (owned : db.Owns other table row) : other = orgID := by
  rcases deletions_cases deletionMem named selected with
    ⟨stated, hasOrg, noTicket, apart⟩ | ⟨same, isOrganization⟩ |
      ⟨⟨ticket, ticketMem, stated, names⟩, noOrg, hasTicket, apart⟩
  · cases owned with
    | ofOrg owner => exact Option.some.inj (owner.symm.trans stated)
    | itself isOrganization => exact absurd isOrganization apart
    | ofTicket _ _ _ named => simp [Database.uuid_eq_none rowMem noTicket] at named
    | naming noOrg => exact absurd hasOrg noOrg
  · subst isOrganization
    cases owned with
    | ofOrg owner => simp [Database.uuid_eq_none rowMem (show Column.orgID ∉ _ by decide)] at owner
    | itself _ sameOther => exact sameOther.symm.trans same
    | ofTicket _ _ _ named =>
      simp [Database.uuid_eq_none rowMem (show Column.ticketID ∉ _ by decide)] at named
    | naming _ _ apart => exact absurd rfl apart
  · cases owned with
    | ofOrg owner => simp [Database.uuid_eq_none rowMem noOrg] at owner
    | itself isOrganization => exact absurd isOrganization apart
    | ofTicket _ otherMem owner named =>
      have same := Option.some.inj (named.symm.trans names)
      rw [Database.eq_of_id_eq otherMem ticketMem same] at owner
      exact Option.some.inj (owner.symm.trans stated)
    | naming _ noTicket => exact absurd hasTicket noTicket

theorem not_owns_purgeEntry {org : Row} :
    ¬db.Owns other .auditLogs (purgeEntry request org entryID) := by
  have unowned : (purgeEntry request org entryID).uuid .orgID = none ∧
      (purgeEntry request org entryID).uuid .ticketID = none := by
    rcases request with ⟨_, _ | userID, _, _, _⟩ <;> exact ⟨rfl, rfl⟩
  intro owned
  cases owned with
  | ofOrg owner => simp [unowned.1] at owner
  | itself isOrganization => cases isOrganization
  | ofTicket _ _ _ named => simp [unowned.2] at named
  | naming without => exact without (by decide)

theorem mem_purge_of_owns (parsed : env.parseUUID request.id = some orgID)
    (apart : other ≠ orgID) (owned : db.Owns other table row) :
    row ∈ (purge env request db entryID failing).1.rows table ↔ row ∈ db.rows table := by
  cases admitted : purgeable env request db with
  | error rejection => rw [purge_of_refused admitted]
  | ok org =>
    have same : org.id = orgID := Option.some.inj ((id_of_purgeable admitted).symm.trans parsed)
    subst same
    constructor
    · intro left
      rcases mem_of_mem_purge admitted left with before | ⟨rfl, rfl, -⟩
      · exact before
      · exact absurd owned not_owns_purgeEntry
    · intro before
      by_cases failed : ∃ deletion ∈ deletions org.id, failing = some deletion.table
      · rcases failed with ⟨deletion, deletionMem, failed⟩
        exact mem_purge_of_fails admitted before deletionMem failed
      · push Not at failed
        refine (mem_purge_of_works admitted failed before).mpr ?_
        intro deletion deletionMem named
        by_contra selected
        simp only [Bool.not_eq_false] at selected
        exact apart (owner_of_selects deletionMem named selected before owned)

theorem erased_iff {org : Row} (admitted : purgeable env request db = .ok org)
    (works : ∀ deletion ∈ deletions org.id, failing ≠ some deletion.table) :
    Erased db (purge env request db entryID failing).1 org.id ↔
      ∀ table, ∀ row ∈ db.rows table, db.RefersTo org.id table row →
        ∃ deletion ∈ deletions org.id, deletion.table = table ∧
          deletion.selects db.rows row = true := by
  constructor
  · intro erased table row rowMem refers
    by_contra unlisted
    push Not at unlisted
    have left : row ∈ (purge env request db entryID failing).1.rows table := by
      refine (mem_purge_of_works admitted works rowMem).mpr ?_
      intro deletion deletionMem named
      simpa using unlisted deletion deletionMem named
    rcases erased table row left refers with ⟨rfl, fresh⟩
    exact fresh rowMem
  · intro listed table row left refers
    rcases mem_of_mem_purge admitted left with before | ⟨rfl, -, fresh⟩
    · rcases listed table row before refers with ⟨deletion, deletionMem, named, selected⟩
      have kept := (mem_purge_of_works admitted works before).mp left deletion deletionMem named
      simp [selected] at kept
    · exact ⟨rfl, fresh⟩

theorem authRequired_eq_ok {token : Token} {later : ℤ} {claims : Auth.Claims} :
    authRequired ⟨some token, none⟩ later = .ok claims ↔
      Auth.parseAccessToken token later = .ok claims := by
  unfold authRequired
  rw [show Auth.Request.extractToken ⟨some token, none⟩ = some token from rfl]
  cases parsed : Auth.parseAccessToken token later with
  | ok found => simp [parsed]
  | error failure => cases failure <;> simp [parsed]

theorem claims_of_portalRequired {token : Token} {later : ℤ} {identity : Auth.PortalIdentity}
    (accepted : portalRequired ⟨some token, none⟩ later = .ok identity) :
    ∃ claims, Auth.parseAccessToken token later = .ok claims ∧
      claims.orgID = some identity.orgID := by
  unfold portalRequired at accepted
  rw [show Auth.Request.extractToken ⟨some token, none⟩ = some token from rfl] at accepted
  cases parsed : Auth.parseAccessToken token later with
  | error failure => simp [parsed] at accepted
  | ok claims =>
    refine ⟨claims, rfl, ?_⟩
    cases employee : claims.employeeID <;> cases org : claims.orgID <;>
      simp [parsed, employee, org] at accepted
    rw [← accepted]

section Accepted

variable {after : World}

theorem Erased.not_refersTo {left : Database} (erased : Erased db left orgID)
    (rowMem : row ∈ left.rows table) (other : table ≠ .auditLogs) : ¬db.RefersTo orgID table row := by
  intro refers
  exact other (erased table row rowMem refers).1

theorem refersTo_of_orgID (owner : row.uuid .orgID = some orgID) : db.RefersTo orgID table row :=
  .naming .orgID .organization orgID rfl owner rfl

theorem Erased.not_belongs {left : Database} (erased : Erased db left orgID) {entity : Entity}
    (account : entity = .user ∨ entity = .employee) (rowMem : row ∈ left.rows entity.table)
    (before : row ∈ db.rows entity.table) : ¬db.Belongs orgID entity row.id := by
  intro belongs
  have owned : ∃ other ∈ db.rows entity.table, other.id = row.id ∧ other.uuid .orgID = some orgID := by
    rcases account with rfl | rfl <;> exact belongs
  rcases owned with ⟨other, otherMem, same, owner⟩
  rw [Database.eq_of_id_eq otherMem before same] at owner
  refine erased.not_refersTo rowMem ?_ (refersTo_of_orgID owner)
  rcases account with rfl | rfl <;> decide

theorem noneAccepted_of_erased (erased : Erased db after.db orgID)
    (fewer : ∀ table ≠ .auditLogs, ∀ row ∈ after.db.rows table, row ∈ db.rows table)
    (expired : ∀ token ∈ after.issued, ∀ later ≥ after.now, ∀ claims,
      Auth.parseAccessToken token later = .ok claims → claims.orgID ≠ some orgID)
    (uncached : ∀ device agentKey token, device ≠ [] → ':' ∉ device →
      after.agentCache (String.ofList device, env.agentKeyHash agentKey) = some token →
        token.orgID ≠ orgID) :
    NoneAccepted env db after orgID where
  refresh token user accepted := by
    have userMem := World.mem_of_refresh accepted
    exact erased.not_belongs (.inl rfl) userMem (fewer _ (by decide) user userMem)
  portalRefresh token employee accepted := by
    have employeeMem := World.mem_of_portalRefresh accepted
    exact erased.not_belongs (.inr rfl) employeeMem (fewer _ (by decide) employee employeeMem)
  session token tokenMem later ahead claims accepted :=
    expired token tokenMem later ahead claims (authRequired_eq_ok.mp accepted)
  portalSession token tokenMem later ahead identity accepted := by
    rintro rfl
    rcases claims_of_portalRequired accepted with ⟨claims, parsed, owner⟩
    exact expired token tokenMem later ahead claims parsed owner
  agent header agent accepted := by
    rcases World.token_of_authAgent accepted with ⟨device, agentKey, nonempty, noColon, look⟩
    rcases World.agentToken_cases look with cached | ⟨row, rowMem, owner⟩
    · exact uncached device agentKey agent.2 nonempty noColon cached
    · rintro rfl
      exact erased.not_refersTo rowMem (by decide) (refersTo_of_orgID owner)
  enrolment token row accepted owner :=
    erased.not_refersTo (World.mem_of_enroll accepted) (by decide) (refersTo_of_orgID owner)
  reset token row accepted user named belongs :=
    erased.not_refersTo (World.mem_of_resetPassword accepted) (by decide)
      (.naming .userID .user user rfl named belongs)
  portalReset token row accepted employee named belongs :=
    erased.not_refersTo (World.mem_of_resetPassword accepted) (by decide)
      (.naming .employeeID .employee employee rfl named belongs)

theorem NoneAccepted.expired (accepted : NoneAccepted env db after orgID) {token : Token}
    (tokenMem : token ∈ after.issued) {later : ℤ} (ahead : later ≥ after.now) {claims : Auth.Claims}
    (parsed : Auth.parseAccessToken token later = .ok claims) : claims.orgID ≠ some orgID :=
  accepted.session token tokenMem later ahead claims (authRequired_eq_ok.mpr parsed)

theorem NoneAccepted.uncached (accepted : NoneAccepted env db after orgID)
    {device : List Char} {agentKey : String} {token : CachedAgentToken} (nonempty : device ≠ [])
    (noColon : ':' ∉ device)
    (cached : after.agentCache (String.ofList device, env.agentKeyHash agentKey) = some token) :
    token.orgID ≠ orgID := by
  have look : after.agentToken env (String.ofList device)
      (env.agentKeyHash agentKey) = some token := by
    simp only [World.agentToken, cached]
  exact accepted.agent _ _ (World.authAgent_of_token nonempty noColon look)

end Accepted

def AlwaysHonest : Prop :=
  ∀ (env : Primitives) (request : PurgeRequest) (world : World) (entryID : UUID)
    (failing : Option TableName) (orgID : UUID), env.parseUUID request.id = some orgID →
      Honest env request world entryID failing orgID

theorem honest_of_refused {rejection : Rejection} (parsed : env.parseUUID request.id = some orgID)
    (refused : purgeable env request world.db = .error rejection) :
    Honest env request world entryID failing orgID where
  erased answered := by simp [purge_of_refused refused, Except.isOk, Except.toBool] at answered
  noneAccepted answered := by simp [purge_of_refused refused, Except.isOk, Except.toBool] at answered
  wholeOrNot _ := by
    rw [purge_of_refused refused]
    exact ⟨fun _ _ rowMem => rowMem, rfl⟩
  others _ apart _ _ owned := mem_purge_of_owns parsed apart owned

theorem honest_iff_erasable {org : Row} (admitted : purgeable env request world.db = .ok org) :
    Honest env request world entryID failing org.id ↔
      Erasable env world failing org.id := by
  have answered : (purge env request world.db entryID failing).2.isOk = true := by
    rw [isOk_purge, admitted]
    rfl
  constructor
  · intro honest
    have works : ∀ deletion ∈ deletions org.id, failing ≠ some deletion.table := by
      intro deletion deletionMem failed
      have said := (honest.wholeOrNot ⟨deletion, deletionMem, failed⟩).2
      simp [answered] at said
    have accepted := honest.noneAccepted answered
    exact {
      works := works
      listed := (erased_iff admitted works).mp (honest.erased answered)
      expired := fun _ tokenMem _ ahead _ parsed => accepted.expired tokenMem ahead parsed
      uncached := fun _ _ _ nonempty noColon cached => accepted.uncached nonempty noColon cached }
  · intro erasable
    have erased : Erased world.db (purge env request world.db entryID failing).1 org.id :=
      (erased_iff admitted erasable.works).mpr erasable.listed
    have fewer : ∀ table ≠ .auditLogs,
        ∀ row ∈ (purge env request world.db entryID failing).1.rows table,
          row ∈ world.db.rows table := by
      intro table other row rowMem
      rcases mem_of_mem_purge admitted rowMem with before | ⟨same, -⟩
      · exact before
      · exact absurd same other
    exact {
      erased := fun _ => erased
      noneAccepted := fun _ =>
        noneAccepted_of_erased erased fewer erasable.expired erasable.uncached
      wholeOrNot := fun ⟨deletion, deletionMem, failed⟩ =>
        absurd failed (erasable.works deletion deletionMem)
      others := fun _ apart _ _ owned =>
        mem_purge_of_owns (id_of_purgeable admitted) apart owned }

/-- A purge keeps its promise when it is refused, and otherwise in just the states that it needs. -/
theorem honest_iff :
    (∀ orgID, env.parseUUID request.id = some orgID →
        Honest env request world entryID failing orgID) ↔
      ∀ org, purgeable env request world.db = .ok org →
        Erasable env world failing org.id := by
  constructor
  · intro honest org admitted
    exact (honest_iff_erasable admitted).mp (honest org.id (id_of_purgeable admitted))
  · intro erasable orgID parsed
    cases admitted : purgeable env request world.db with
    | error rejection => exact honest_of_refused parsed admitted
    | ok org =>
      have same : org.id = orgID := Option.some.inj ((id_of_purgeable admitted).symm.trans parsed)
      exact same ▸ (honest_iff_erasable admitted).mpr (erasable org admitted)

def retiredRows : Store TableName Row
  | .organizations =>
    [⟨⟨1⟩, [(.name, .text "Acme"), (.slug, .text "acme"), (.deletedAt, .instant 0)]⟩]
  | .devices => [⟨⟨2⟩, [(.orgID, .id ⟨1⟩)]⟩]
  | .agentTokens =>
    [⟨⟨3⟩, [(.deviceID, .id ⟨2⟩), (.orgID, .id ⟨1⟩), (.tokenHash, .text "key")]⟩]
  | _ => []

def retired : World where
  db :=
    { rows := retiredRows
      distinct := by
        intro table
        cases table <;> decide
      known := by
        intro table
        cases table <;> decide }
  now := 0
  issued := []
  agentCache _ := none

def plainPrimitives : Primitives where
  parseUUID text := [⟨1⟩, ⟨2⟩].find? fun id => UUID.text id = text
  readUUID text := [⟨1⟩, ⟨2⟩].find? fun id => UUID.text id = text
  hashRefreshToken := id
  agentKeyHash := id

def purgeAcme : PurgeRequest where
  id := "00000000-0000-0000-0000-000000000001"
  userID := none
  confirm := .ok "acme"
  clientIP := "192.0.2.1"
  userAgent := ""

def laptopKey : List Char := "Bearer 00000000-0000-0000-0000-000000000002:key".toList

/-- The organisation is gone, and the key of its laptop still lets an agent in. -/
theorem not_alwaysHonest : ¬AlwaysHonest := by
  intro always
  have honest := always plainPrimitives purgeAcme retired ⟨4⟩ none ⟨1⟩ (by decide +kernel)
  have accepted : NoneAccepted plainPrimitives retired.db
      { retired with db := (purge plainPrimitives purgeAcme retired.db ⟨4⟩ none).1 } ⟨1⟩ :=
    honest.noneAccepted (by decide +kernel)
  have letIn : (World.authAgent { retired with
      db := (purge plainPrimitives purgeAcme retired.db ⟨4⟩ none).1 } plainPrimitives
        laptopKey).toOption.map (fun agent => agent.2.orgID) = some ⟨1⟩ := by
    decide +kernel
  rcases Option.map_eq_some_iff.mp letIn with ⟨agent, answered, owner⟩
  refine accepted.agent laptopKey agent ?_ owner
  revert answered
  cases World.authAgent _ plainPrimitives laptopKey <;> simp [Except.toOption]

end Aavishield.Compliance
