import Aavishield.Policy.AccessRequests
import Mathlib.Data.List.Dedup

/-!
# Revoked grants

An employee has one open request for a thing and a grant that was revoked stays so, as long as
no two requests for the thing are inserted side by side and none opens what another one opens.
-/

namespace Aavishield.AccessRequests

open TransitionSystem
open Dataplane (HasID Table)
open DomainRules (AccessRequestKind AccessRequestStatus)

variable (env : Primitives)

def OneOpen (db : Database) : Prop :=
  ∀ first ∈ db.requests.rows, ∀ second ∈ db.requests.rows, first.isOpen = true →
    second.isOpen = true → first.About second.employeeID second.kind second.resource → first = second

def StaysRevoked (db : Database) : Prop :=
  ∀ entry ∈ db.revoked, ¬(approvedGrants env db.requests.rows (some entry.1)).Has entry.2

instance (grants : AccessGrants) (grant : Grant) : Decidable (grants.Has grant) :=
  match grant with
  | .website _ | .app _ | .extension _ | .download _ => inferInstanceAs (Decidable (_ ∈ _))

instance (db : Database) : Decidable (StaysRevoked env db) :=
  inferInstanceAs (Decidable (∀ entry ∈ db.revoked, ¬(approvedGrants _ _ _).Has _))

/-- A resource has one open request at most, and what was revoked stays so. -/
structure Sound (db : Database) : Prop where
  oneOpen : OneOpen db
  staysRevoked : StaysRevoked env db

def Moves (before after : AccessRequestStatus) : Prop :=
  before = after ∨
    (before, after) ∈ [(.pending, .approved), (.pending, .denied), (.approved, .revoked)]

/-- Requests change their status as they may, or are new. -/
def MovesOnly (before after : Database) : Prop :=
  ∀ row ∈ after.requests.rows,
    (∃ old ∈ before.requests.rows, old.id = row.id ∧ Moves old.status row.status) ∨
      ¬before.requests.Holds row.id ∧ row.status = .pending

def OnlyGrant (db : Database) (row : AccessRequest) : Prop :=
  ∀ grant ∈ row.grant env, ∀ other ∈ db.requests.rows, other.employeeID = row.employeeID →
    other.status = .approved → other.grant env = some grant → other.id = row.id

def CarefulStatement (db : Database) (works : Bool) (draw : Draw) : Call → Prop
  | .create employeeID _ _ (.inserting _ target) =>
    works = true → ¬db.requests.Holds draw.id →
      db.existing employeeID target.kind target.resource = none
  | .resolve _ _ _ .revoke _ (.writing request) =>
    works = true → ∀ row ∈ db.awaiting request.id .revoke, OnlyGrant env db row
  | _ => True

def Careful (world : World) : Action → Prop
  | .advance number works draw =>
    ∀ call ∈ world.calls number, CarefulStatement env world.db works draw call
  | .begin _ _ | .tick _ => True

variable {env} {db : Database} {request row : AccessRequest} {employeeID userID : UUID}
  {grant : Grant} {requests : List AccessRequest} {resolution : Resolution} {works : Bool}
  {draw : Draw} {note : List Char} {world next final : World} {trace : List Action}

theorem has_approvedGrants :
    (approvedGrants env requests (some employeeID)).Has grant ↔
      ∃ row ∈ requests, row.employeeID = employeeID ∧ row.status = .approved ∧
        row.grant env = some grant := by
  cases grant with
  | website host =>
    simp only [AccessGrants.Has, approvedGrants, DomainRules.approvedWebsites, List.mem_dedup,
      List.mem_filterMap, List.mem_filter, List.mem_map, decide_eq_true_eq]
    constructor
    · rintro ⟨_, ⟨⟨row, mem, rfl⟩, sameEmployee, approved⟩, website⟩
      refine ⟨row, mem, sameEmployee, approved, ?_⟩
      cases kind : row.kind <;>
        simp_all [AccessRequest.grant, DomainRules.AccessRequest.website] <;> rintro rfl <;> simp_all
    · rintro ⟨row, mem, sameEmployee, approved, granted⟩
      refine ⟨_, ⟨⟨row, mem, rfl⟩, sameEmployee, approved⟩, ?_⟩
      cases kind : row.kind <;> simp_all [AccessRequest.grant]
  | app id =>
    simp only [AccessGrants.Has, approvedGrants, AppControl.approvedApps, List.mem_filterMap,
      List.mem_filter, List.mem_map, decide_eq_true_eq]
    constructor
    · rintro ⟨_, ⟨⟨row, mem, rfl⟩, sameEmployee, approved, isApp⟩, parsed⟩
      exact ⟨row, mem, sameEmployee, approved, by simp [AccessRequest.grant, isApp, parsed]⟩
    · rintro ⟨row, mem, sameEmployee, approved, granted⟩
      refine ⟨_, ⟨⟨row, mem, rfl⟩, sameEmployee, approved, ?_⟩, ?_⟩ <;>
        cases kind : row.kind <;> simp_all [AccessRequest.grant]
  | extension id =>
    simp only [AccessGrants.Has, approvedGrants, List.mem_filter, List.mem_map, decide_eq_true_eq]
    constructor
    · rintro ⟨row, ⟨⟨mem, sameEmployee, approved⟩, isExtension⟩, rfl⟩
      exact ⟨row, mem, sameEmployee, approved, by simp [AccessRequest.grant, isExtension]⟩
    · rintro ⟨row, mem, sameEmployee, approved, granted⟩
      refine ⟨row, ⟨⟨mem, sameEmployee, approved⟩, ?_⟩, ?_⟩ <;>
        cases kind : row.kind <;> simp_all [AccessRequest.grant]
  | download sha =>
    simp only [AccessGrants.Has, approvedGrants, List.mem_filter, List.mem_map, decide_eq_true_eq]
    constructor
    · rintro ⟨row, ⟨⟨mem, sameEmployee, approved⟩, isDownload⟩, rfl⟩
      exact ⟨row, mem, sameEmployee, approved, by simp [AccessRequest.grant, isDownload]⟩
    · rintro ⟨row, mem, sameEmployee, approved, granted⟩
      refine ⟨row, ⟨⟨mem, sameEmployee, approved⟩, ?_⟩, ?_⟩ <;>
        cases kind : row.kind <;> simp_all [AccessRequest.grant]

theorem first_eq_none : first requests = none ↔ requests = [] := by
  cases requests with
  | nil => simp [first]
  | cons request rest =>
    simp only [first]
    split
    · simp
    · split <;> simp

theorem existing_eq_none {kind : AccessRequestKind} {resource : List Char} :
    db.existing employeeID kind resource = none ↔
      ∀ request ∈ db.requests.rows, request.About employeeID kind resource →
        request.isOpen = false := by
  simp [Database.existing, first_eq_none, List.filter_eq_nil_iff]

theorem awaiting_eq_some {id : UUID} (found : db.awaiting id resolution = some row) :
    row ∈ db.requests.rows ∧ row.id = id ∧ row.status = resolution.source := by
  have matching := List.find?_some found
  simp only [decide_eq_true_eq] at matching
  exact ⟨List.mem_of_find?_eq_some found, matching⟩

theorem mem_review (mem : row ∈ db.requests.rows) (awaits : row.status = resolution.source)
    {other : AccessRequest} :
    other ∈ (db.review env userID resolution note row).requests.rows ↔
      other = db.reviewed userID resolution note row ∨ other ∈ db.requests.rows ∧ other.id ≠ row.id := by
  simp only [Database.review, Table.update, List.mem_map]
  constructor
  · rintro ⟨before, beforeMem, rfl⟩
    by_cases sameID : before.id = row.id
    · have same : before = row := Table.eq_of_id_eq beforeMem mem sameID
      simp [same, awaits]
    · simp [sameID, beforeMem]
  · rintro (rfl | ⟨otherMem, apart⟩)
    · exact ⟨row, mem, by simp [awaits]⟩
    · exact ⟨other, otherMem, by simp [apart]⟩

theorem isOpen_of_source (awaits : row.status = resolution.source) : row.isOpen = true := by
  cases resolution <;> simp [AccessRequest.isOpen, awaits, Resolution.source]

theorem sound_insert (sound : Sound env db) (fresh : ¬db.requests.Holds request.id)
    (pending : request.status = .pending) :
    Sound env (db.insert request) ↔
      db.existing request.employeeID request.kind request.resource = none := by
  have rows : ∀ other, other ∈ (db.insert request).requests.rows ↔
      other = request ∨ other ∈ db.requests.rows := by
    intro other
    exact Table.mem_insert_of_new fresh
  have isOpen : request.isOpen = true := by simp [AccessRequest.isOpen, pending]
  constructor
  · intro inserted
    apply existing_eq_none.mpr
    intro other mem about
    by_contra opened
    have same := inserted.oneOpen other ((rows other).mpr (.inr mem)) request
      ((rows request).mpr (.inl rfl)) (by simpa using opened) isOpen about
    exact fresh (same ▸ Table.holds_of_mem mem)
  · intro none
    have closed := existing_eq_none.mp none
    constructor
    · intro first firstMem second secondMem firstOpen secondOpen about
      have reversed : second.About first.employeeID first.kind first.resource :=
        ⟨about.1.symm, about.2.1.symm, about.2.2.symm⟩
      rcases (rows first).mp firstMem with isFirst | wasFirst
      · rcases (rows second).mp secondMem with isSecond | wasSecond
        · exact isFirst.trans isSecond.symm
        · simp [closed second wasSecond (isFirst ▸ reversed)] at secondOpen
      · rcases (rows second).mp secondMem with isSecond | wasSecond
        · simp [closed first wasFirst (isSecond ▸ about)] at firstOpen
        · exact sound.oneOpen first wasFirst second wasSecond firstOpen secondOpen about
    · intro entry revoked granted
      rcases has_approvedGrants.mp granted with ⟨row, mem, sameEmployee, approved, grants⟩
      rcases (rows row).mp mem with rfl | mem
      · simp [pending] at approved
      · exact sound.staysRevoked entry revoked
          (has_approvedGrants.mpr ⟨row, mem, sameEmployee, approved, grants⟩)

theorem sound_remove {id : Option UUID} (sound : Sound env db) :
    Sound env (db.remove employeeID id) := by
  have rows : ∀ other ∈ (db.remove employeeID id).requests.rows, other ∈ db.requests.rows := by
    intro other mem
    exact (Table.mem_delete.mp mem).1
  constructor
  · intro first firstMem second secondMem
    exact sound.oneOpen first (rows first firstMem) second (rows second secondMem)
  · intro entry revoked granted
    rcases has_approvedGrants.mp granted with ⟨row, mem, rest⟩
    exact sound.staysRevoked entry revoked (has_approvedGrants.mpr ⟨row, rows row mem, rest⟩)

theorem oneOpen_review (oneOpen : OneOpen db) (mem : row ∈ db.requests.rows)
    (awaits : row.status = resolution.source) :
    OneOpen (db.review env userID resolution note row) := by
  have wasOpen := isOpen_of_source awaits
  intro first firstMem second secondMem firstOpen secondOpen about
  rcases (mem_review mem awaits).mp firstMem with rfl | ⟨wasFirst, apartFirst⟩
  · rcases (mem_review mem awaits).mp secondMem with rfl | ⟨wasSecond, apartSecond⟩
    · rfl
    · have same := oneOpen row mem second wasSecond wasOpen secondOpen about
      exact absurd (congrArg AccessRequest.id same.symm) apartSecond
  · rcases (mem_review mem awaits).mp secondMem with rfl | ⟨wasSecond, apartSecond⟩
    · have same := oneOpen first wasFirst row mem firstOpen wasOpen about
      exact absurd (congrArg AccessRequest.id same) apartFirst
    · exact oneOpen first wasFirst second wasSecond firstOpen secondOpen about

theorem has_review (mem : row ∈ db.requests.rows) (awaits : row.status = resolution.source) :
    (approvedGrants env (db.review env userID resolution note row).requests.rows
        (some employeeID)).Has grant ↔
      (resolution = .approve ∧ row.employeeID = employeeID ∧ row.grant env = some grant) ∨
        ∃ other ∈ db.requests.rows, other.id ≠ row.id ∧ other.employeeID = employeeID ∧
          other.status = .approved ∧ other.grant env = some grant := by
  simp only [has_approvedGrants, mem_review mem awaits]
  constructor
  · rintro ⟨other, rfl | ⟨otherMem, apart⟩, sameEmployee, approved, grants⟩
    · left
      refine ⟨?_, sameEmployee, grants⟩
      cases resolution <;> simp_all [Database.reviewed, Resolution.target]
    · right
      exact ⟨other, otherMem, apart, sameEmployee, approved, grants⟩
  · rintro (⟨rfl, sameEmployee, grants⟩ | ⟨other, otherMem, apart, sameEmployee, approved, grants⟩)
    · exact ⟨_, .inl rfl, sameEmployee, rfl, grants⟩
    · exact ⟨other, .inr ⟨otherMem, apart⟩, sameEmployee, approved, grants⟩

theorem mem_revoked_review {entry : UUID × Grant} :
    entry ∈ (db.review env userID resolution note row).revoked ↔
      resolution = .revoke ∧ entry.1 = row.employeeID ∧ row.grant env = some entry.2 ∨
        entry ∈ db.revoked ∧
          ¬(resolution = .approve ∧ entry.1 = row.employeeID ∧ row.grant env = some entry.2) := by
  rcases entry with ⟨employeeID, grant⟩
  cases granted : row.grant env with
  | none => simp [Database.review, Database.settled, granted]
  | some own =>
    cases resolution with
    | approve | revoke =>
      simp [Database.review, Database.settled, granted]
      grind
    | deny => simp [Database.review, Database.settled, granted]

theorem staysRevoked_review (staysRevoked : StaysRevoked env db)
    (mem : row ∈ db.requests.rows) (awaits : row.status = resolution.source) :
    StaysRevoked env (db.review env userID resolution note row) ↔
      (resolution = .revoke → OnlyGrant env db row) := by
  constructor
  · rintro after rfl grant granted other otherMem sameEmployee approved grants
    by_contra apart
    apply after (row.employeeID, grant) (mem_revoked_review.mpr (.inl ⟨rfl, rfl, granted⟩))
    exact (has_review mem awaits).mpr (.inr ⟨other, otherMem, apart, sameEmployee, approved, grants⟩)
  · rintro only ⟨employeeID, grant⟩ revoked granted
    rcases (has_review mem awaits).mp granted with ⟨rfl, sameEmployee, grants⟩ | others
    · rcases mem_revoked_review.mp revoked with ⟨isRevoke, -⟩ | ⟨-, notThis⟩
      · cases isRevoke
      · exact notThis ⟨rfl, sameEmployee.symm, grants⟩
    · rcases others with ⟨other, otherMem, apart, sameEmployee, approved, grants⟩
      rcases mem_revoked_review.mp revoked with ⟨isRevoke, ofRow, own⟩ | ⟨before, -⟩
      · exact apart (only isRevoke grant own other otherMem (sameEmployee.trans ofRow) approved grants)
      · exact staysRevoked _ before
          (has_approvedGrants.mpr ⟨other, otherMem, sameEmployee, approved, grants⟩)

theorem sound_review (sound : Sound env db) (mem : row ∈ db.requests.rows)
    (awaits : row.status = resolution.source) :
    Sound env (db.review env userID resolution note row) ↔
      (resolution = .revoke → OnlyGrant env db row) :=
  ⟨fun after => (staysRevoked_review sound.staysRevoked mem awaits).mp after.staysRevoked,
    fun only => ⟨oneOpen_review sound.oneOpen mem awaits,
      (staysRevoked_review sound.staysRevoked mem awaits).mpr only⟩⟩

inductive Advance (env : Primitives) (db : Database) (works : Bool) (draw : Draw) (call : Call) :
    Database → Prop where
  | quiet (after : Database) (requests : after.requests = db.requests)
      (revoked : after.revoked = db.revoked)
      (careful : CarefulStatement env db works draw call) :
      Advance env db works draw call after
  | insert (employeeID orgID : UUID) (body : Except String CreateBody) (event : Event)
      (target : AccessTarget) (reason : List Char)
      (isCall : call = .create employeeID orgID body (.inserting event target)) (succeeds : works = true)
      (fresh : ¬db.requests.Holds draw.id) :
      Advance env db works draw call
        (db.insert (newRequest employeeID orgID draw.id event target reason))
  | remove (employeeID : UUID) (id : Option UUID) (isCall : call = .withdraw employeeID id) :
      Advance env db works draw call (db.remove employeeID id)
  | review (orgID userID : UUID) (id : Option UUID) (resolution : Resolution) (note : List Char)
      (request row : AccessRequest)
      (isCall : call = .resolve orgID userID id resolution note (.writing request))
      (succeeds : works = true) (found : db.awaiting request.id resolution = some row) :
      Advance env db works draw call
        (db.review env userID resolution (Text.trimSpace note) row)

theorem carefulStatement_resolve {orgID : UUID} {id : Option UUID} {phase : ResolvePhase}
    (elsewhere : ∀ request, phase ≠ .writing request) :
    CarefulStatement env db works draw (.resolve orgID userID id resolution note phase) := by
  cases phase with
  | writing request => exact absurd rfl (elsewhere request)
  | finding | auditing request | reloading request => cases resolution <;> trivial

theorem advance_cases (db : Database) (works : Bool) (draw : Draw) (call : Call) :
    Advance env db works draw call (db.advance env works draw call).2 := by
  cases call with
  | finished answer => exact .quiet _ rfl rfl trivial
  | create employeeID orgID body phase =>
    cases phase with
    | finding =>
      simp only [Database.advance, Database.create]
      split
      · exact .quiet _ rfl rfl trivial
      · split <;> exact .quiet _ rfl rfl trivial
    | looking event target | counting event target =>
      simp only [Database.advance, Database.create]
      split <;> exact .quiet _ rfl rfl trivial
    | inserting event target =>
      simp only [Database.advance, Database.create]
      split
      · rename_i inserts
        exact .insert employeeID orgID body event target _ rfl inserts.1 inserts.2
      · rename_i refused
        exact .quiet _ rfl rfl fun works fresh => absurd ⟨works, fresh⟩ refused
  | withdraw employeeID id =>
    simp only [Database.advance, Database.withdraw]
    split
    · exact .remove employeeID id rfl
    · exact .quiet _ rfl rfl trivial
  | resolve orgID userID id resolution note phase =>
    cases phase with
    | finding =>
      simp only [Database.advance, Database.resolve]
      split
      · exact .quiet _ rfl rfl (carefulStatement_resolve (by simp))
      · split <;> exact .quiet _ rfl rfl (carefulStatement_resolve (by simp))
    | writing request =>
      simp only [Database.advance, Database.resolve]
      split
      · split
        · rename_i works missing
          refine .quiet _ rfl rfl ?_
          cases resolution with
          | approve | deny => trivial
          | revoke =>
            intro _ row found
            simp [missing] at found
        · rename_i succeeds _ row found
          exact .review orgID userID id resolution note request row rfl succeeds found
      · rename_i fails
        refine .quiet _ rfl rfl ?_
        cases resolution with
        | approve | deny => trivial
        | revoke => exact fun works => absurd works fails
    | auditing request =>
      cases works <;> exact .quiet _ rfl rfl (carefulStatement_resolve (by simp))
    | reloading request =>
      exact .quiet _ rfl rfl (carefulStatement_resolve (by simp))

theorem sound_congr {other : Database} (requests : other.requests = db.requests)
    (revoked : other.revoked = db.revoked) :
    Sound env other ↔ Sound env db := by
  constructor
  all_goals
    rintro ⟨oneOpen, staysRevoked⟩
    exact ⟨by simpa only [OneOpen, requests] using oneOpen,
      by simpa only [StaysRevoked, requests, revoked] using staysRevoked⟩

theorem sound_advance (sound : Sound env db) {call : Call} :
    Sound env (db.advance env works draw call).2 ↔
      CarefulStatement env db works draw call := by
  have moved : Advance env db works draw call (db.advance env works draw call).2 :=
    advance_cases db works draw call
  generalize (db.advance env works draw call).2 = after at moved
  cases moved with
  | quiet _ requests revoked careful =>
    simp only [sound_congr requests revoked, sound, careful]
  | insert employeeID orgID body event target reason isCall succeeds fresh =>
    subst isCall
    simp only [CarefulStatement, succeeds, fresh, not_false_eq_true, forall_const]
    exact sound_insert sound fresh rfl
  | remove employeeID id isCall =>
    subst isCall
    simp only [sound_remove sound, CarefulStatement]
  | review orgID userID id resolution note request row isCall succeeds found =>
    subst isCall
    rcases awaiting_eq_some found with ⟨mem, -, awaits⟩
    simp only [sound_review sound mem awaits]
    cases resolution with
    | approve | deny => simp [CarefulStatement]
    | revoke => simp [CarefulStatement, succeeds, found]

theorem moves_review : Moves resolution.source resolution.target := by
  cases resolution <;> simp [Moves, Resolution.source, Resolution.target]

theorem movesOnly_advance {call : Call} :
    MovesOnly db (db.advance env works draw call).2 := by
  have moved : Advance env db works draw call (db.advance env works draw call).2 :=
    advance_cases db works draw call
  generalize (db.advance env works draw call).2 = after at moved
  cases moved with
  | quiet _ requests revoked careful =>
    intro row mem
    exact .inl ⟨row, requests ▸ mem, rfl, .inl rfl⟩
  | insert employeeID orgID body event target reason isCall succeeds fresh =>
    intro row mem
    rcases (Table.mem_insert_of_new fresh).mp mem with rfl | before
    · exact .inr ⟨fresh, rfl⟩
    · exact .inl ⟨row, before, rfl, .inl rfl⟩
  | remove employeeID id isCall =>
    intro row mem
    exact .inl ⟨row, (Table.mem_delete.mp mem).1, rfl, .inl rfl⟩
  | review orgID userID id resolution note request row isCall succeeds found =>
    rcases awaiting_eq_some found with ⟨wasRow, -, awaits⟩
    intro other mem
    rcases (mem_review wasRow awaits).mp mem with rfl | ⟨before, -⟩
    · exact .inl ⟨row, wasRow, rfl, awaits ▸ moves_review⟩
    · exact .inl ⟨other, before, rfl, .inl rfl⟩

theorem sound_step (sound : Sound env world.db) {action : Action}
    (stepped : world.step env action = some next) :
    Sound env next.db ↔ Careful env world action := by
  cases action with
  | begin number asked =>
    simp only [World.step, Option.ite_none_right_eq_some, Option.some.injEq] at stepped
    rcases stepped with ⟨-, rfl⟩
    simp [Careful, sound]
  | tick elapsed =>
    simp only [World.step, Option.some.injEq] at stepped
    subst stepped
    have same : Sound env { world.db with now := world.db.now + elapsed } ↔
        Sound env world.db := sound_congr rfl rfl
    simp only [Careful, same, sound]
  | advance number works draw =>
    rcases Option.map_eq_some_iff.mp stepped with ⟨call, found, rfl⟩
    simp [Careful, found, sound_advance sound]

theorem movesOnly_step {action : Action} (stepped : world.step env action = some next) :
    MovesOnly world.db next.db := by
  cases action with
  | begin number asked =>
    simp only [World.step, Option.ite_none_right_eq_some, Option.some.injEq] at stepped
    rcases stepped with ⟨-, rfl⟩
    exact fun row mem => .inl ⟨row, mem, rfl, .inl rfl⟩
  | tick elapsed =>
    simp only [World.step, Option.some.injEq] at stepped
    subst stepped
    exact fun row mem => .inl ⟨row, mem, rfl, .inl rfl⟩
  | advance number works draw =>
    rcases Option.map_eq_some_iff.mp stepped with ⟨call, found, rfl⟩
    exact movesOnly_advance

/-- All along a run an employee has one open request for a thing, statuses move as they may, and
what was revoked stays so, exactly if every statement of the run is careful. -/
theorem sound_iff_careful (sound : Sound env world.db)
    (executed : exec (World.step env) world trace = some final) :
    ((∀ reached, Visits (World.step env) world trace reached →
        Sound env reached.db) ∧
      AllSteps (World.step env) (fun before action => ∀ after,
        before.step env action = some after → MovesOnly before.db after.db) world trace) ↔
      AllSteps (World.step env) (Careful env) world trace := by
  have runs : (∀ reached, Visits (World.step env) world trace reached →
      Sound env reached.db) ↔
      AllSteps (World.step env) (Careful env) world trace :=
    forall_visits_iff_allSteps (fun _ sound => sound)
      (fun _ _ _ sound careful stepped => (sound_step sound stepped).mpr careful)
      (fun _ _ _ sound stepped after => (sound_step sound stepped).mp after) sound executed
  constructor
  · rintro ⟨always, -⟩
    exact runs.mp always
  · intro careful
    exact ⟨runs.mpr careful, allSteps_of_forall (fun _ _ _ => movesOnly_step) world trace⟩

def nothingAsked : World where
  db := { now := 0, requests := .empty, auditLogs := [], revoked := [] }
  calls := fun _ => none

theorem sound_nothingAsked : Sound env nothingAsked.db where
  oneOpen first mem := by simp [nothingAsked, Table.empty] at mem
  staysRevoked entry mem := by simp [nothingAsked] at mem

def blockedSite : Event where
  id := ⟨9⟩
  eventType := .webRequest
  action := .blocked
  operation := []
  category := []
  target := []
  targetDomain := "example.com".toList
  policyID := none
  metadata := fun _ => none

def stopped (id : UUID) : Draw where
  id := id
  opens := .ok ()
  findEvents := fun _ => .ok [blockedSite]

def asking : Call :=
  .create ⟨3⟩ ⟨4⟩ (.ok { eventID := [], domain := "example.com".toList, reason := "for work".toList })
    .finding

def reviewing (call : ℕ) (id : UUID) (resolution : Resolution) : List Action := [
  .begin call (.resolve ⟨4⟩ ⟨5⟩ (some id) resolution [] .finding),
  .advance call true (stopped id),
  .advance call true (stopped id)]

def onceAround : List Action :=
  [.begin 0 asking, .advance 0 true (stopped ⟨1⟩), .advance 0 true (stopped ⟨1⟩),
    .advance 0 true (stopped ⟨1⟩), .advance 0 true (stopped ⟨1⟩)] ++
  reviewing 1 ⟨1⟩ .approve ++ reviewing 2 ⟨1⟩ .revoke

theorem sound_iff_careful_onceAround :
    ((∀ reached, Visits (World.step .ascii) nothingAsked onceAround reached →
        Sound .ascii reached.db) ∧
      AllSteps (World.step .ascii) (fun before action => ∀ after,
        before.step .ascii action = some after → MovesOnly before.db after.db) nothingAsked
          onceAround) ↔
      AllSteps (World.step .ascii) (Careful .ascii) nothingAsked onceAround := by
  have runs : (exec (World.step .ascii) nothingAsked onceAround).isSome = true := by decide +kernel
  rcases Option.isSome_iff_exists.mp runs with ⟨final, executed⟩
  exact sound_iff_careful sound_nothingAsked executed

def twins : List Action :=
  [.begin 0 asking, .begin 1 asking] ++
  (List.range 4).flatMap (fun _ =>
    [.advance 0 true (stopped ⟨1⟩), .advance 1 true (stopped ⟨2⟩)]) ++
  reviewing 2 ⟨1⟩ .approve ++ reviewing 3 ⟨2⟩ .approve ++ reviewing 4 ⟨1⟩ .revoke

/-- A double click makes two requests, of which one is revoked. -/
theorem not_alwaysSound : ¬∀ (world final : World) (trace : List Action), Sound .ascii world.db →
    exec (World.step .ascii) world trace = some final → Sound .ascii final.db := by
  intro always
  have granted : (exec (World.step .ascii) nothingAsked twins).map
      (fun final => decide (StaysRevoked .ascii final.db)) = some false := by
    decide +kernel
  rcases Option.map_eq_some_iff.mp granted with ⟨final, executed, lost⟩
  exact of_decide_eq_false lost (always _ _ _ sound_nothingAsked executed).staysRevoked

end Aavishield.AccessRequests
