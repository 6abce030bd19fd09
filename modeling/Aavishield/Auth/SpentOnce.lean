import Aavishield.Auth.CredentialSteps
import Aavishield.Lib.Redeeming

/-!
# Credentials are spent once

Every endpoint that takes a credential looks whether it is spent, does what it is for and
marks it as spent, in separate statements.  Requests that are let in one at a time redeem
credentials as tickets are redeemed at counters.
-/

namespace Aavishield.Credentials

open Auth (Rejection)
open Dataplane (HasID Table)
open Redeeming TransitionSystem

def Request.hold : Request → Option (Hold Credential)
  | .enroll _ phase =>
    match phase with
    | .checking => none
    | .findingMachine row | .findingAddress row | .saving row _ _ | .replacing row _
    | .keying row _ => some ⟨.enrollmentToken row.id, false, false⟩
    | .marking row => some ⟨.enrollmentToken row.id, true, false⟩
  | .setPassword _ _ phase =>
    match phase with
    | .validating row | .changing _ _ (some row) => some ⟨.resetToken row.id, false, false⟩
    | .marking _ row changed => some ⟨.resetToken row.id, changed, false⟩
    | _ => none
  | .impersonateConsume _ phase =>
    match phase with
    | .checking => none
    | .marking row => some ⟨.impersonationToken row.id, false, false⟩
    | .loading row => some ⟨.impersonationToken row.id, false, true⟩
  | .refresh .. | .finished .. => none

def Request.resetting : Request → Option (UUID × Owner)
  | .setPassword _ _ phase =>
    match phase with
    | .validating row => some (row.id, row.owner)
    | .changing owner _ (some row) => some (row.id, owner)
    | _ => none
  | _ => none

def Request.presents (env : Primitives) (db : Database) : Request → Credential → Prop
  | .enroll request .checking, .enrollmentToken id =>
    ∃ row ∈ db.enrollmentTokens.rows, row.id = id ∧ row.token = request.token
  | .setPassword (.resetPassword _ token) _ .checking, .resetToken id =>
    ∃ row ∈ db.resetTokens.rows, row.id = id ∧ row.tokenHash = env.hashRefreshToken token
  | .impersonateConsume code .checking, .impersonationToken id =>
    ∃ row ∈ db.impersonationTokens.rows, row.id = id ∧ row.code = code
  | _, _ => False

def Request.marks : Request → Bool
  | .enroll _ (.marking _) | .setPassword _ _ (.marking ..) | .impersonateConsume _ (.marking _) =>
    true
  | _ => false

def Request.impersonates : Request → Option UUID
  | .impersonateConsume _ (.loading row) => some row.targetUserID
  | _ => none

def Deed.credential : Deed → Option Credential
  | .enrolled token _ => some (.enrollmentToken token)
  | .reset token _ => some (.resetToken token)
  | .impersonated token _ => some (.impersonationToken token)
  | _ => none

def isMarked {Row : Type} [HasID Row] (table : Table Row) (marked : Row → Bool) (id : UUID) :
    Bool :=
  table.rows.any fun row => decide (HasID.id row = id) && marked row

namespace Database

variable (db : Database)

def has : Credential → Prop
  | .enrollmentToken id => db.enrollmentTokens.Holds id
  | .resetToken id => db.resetTokens.Holds id
  | .impersonationToken id => db.impersonationTokens.Holds id

def spent : Credential → Bool
  | .enrollmentToken id => isMarked db.enrollmentTokens (·.usedAt.isSome) id
  | .resetToken id => isMarked db.resetTokens (·.used) id
  | .impersonationToken id => isMarked db.impersonationTokens (·.consumedAt.isSome) id

def uses (credential : Credential) : ℕ :=
  db.history.countP fun deed => deed.credential = some credential

end Database

def ResetSince (history : List Deed) (token : UUID) (owner : Owner) : Prop :=
  ∃ other, .reset other owner ∈ history.takeWhile (· ≠ .issued (.resetToken token))

def World.office (world : World) : Office Credential where
  holds number := (world.requests number).bind Request.hold
  spent := world.db.spent
  uses := world.db.uses

@[simp]
theorem World.office_spent (world : World) : world.office.spent = world.db.spent := rfl

@[simp]
theorem World.office_uses (world : World) : world.office.uses = world.db.uses := rfl

def World.Free (world : World) (credential : Credential) : Prop :=
  ∀ number hold, world.office.holds number = some hold → hold.ticket ≠ credential

/-- A credential is used once, the newest alone, and a failed use costs nothing. -/
structure SpentOnce (world : World) : Prop where
  once : ∀ credential, world.db.uses credential ≤ 1
  newest : ∀ token owner older, .reset token owner :: older <:+ world.db.history →
    ¬ResetSince older token owner
  intact : ∀ number failure credential,
    world.requests number ≠ some (.finished (.error failure) (some credential))

variable (env : Primitives)

/-- The next step of a request is no way to spend a credential twice, or for nothing. -/
structure Heedful (world : World) (request : Request) (works : Bool) : Prop where
  free : ∀ credential, request.presents env world.db credential → world.Free credential
  /-- A reset token is checked while no other reset of the account is under way, and if none was
  since the token was issued. -/
  newest : ∀ row ∈ world.db.resetTokens.rows,
    request.presents env world.db (.resetToken row.id) →
      ¬ResetSince world.db.history row.id row.owner ∧
      ∀ number other token, world.requests number = some other →
        other.resetting ≠ some (token, row.owner)
  marks : request.marks = true → works = true
  active : ∀ id, request.impersonates = some id →
    ∃ user, world.db.person ⟨.dashboard, id⟩ = some user ∧ user.status = "active"

/-- Every step of a request is careful with what it spends. -/
def Heeds (world : World) : Action → Prop
  | .advance number works _ =>
    ∀ request, world.requests number = some request → Heedful env world request works
  | _ => True

section Marks

variable {Row : Type} [HasID Row] {table : Table Row} {marked : Row → Bool} {id : UUID}

theorem isMarked_update {mark : Row → Row}
    {keeps : ∀ row, HasID.id (if HasID.id row = id then mark row else row) = HasID.id row}
    (held : table.Holds id) (marks : ∀ row, marked (mark row) = true) (other : UUID) :
    isMarked (table.update (fun row => if HasID.id row = id then mark row else row) keeps) marked
      other = if other = id then true else isMarked table marked other := by
  rw [isMarked, Table.update, List.any_map]
  split_ifs with same
  · subst same
    rcases List.mem_map.mp held with ⟨row, rowMem, isRow⟩
    apply List.any_eq_true.mpr
    exact ⟨row, rowMem, by simpa [isRow, marks] using keeps row⟩
  · rw [isMarked]
    refine List.any_congr rfl fun row => ?_
    simp only [Function.comp_apply, keeps]
    by_cases isRow : HasID.id row = id
    · have isOther : HasID.id row ≠ other := fun isOther => same (isOther.symm.trans isRow)
      simp [isOther]
    · rw [if_neg isRow]

theorem isMarked_insert {row : Row} (unmarked : marked row = false) (other : UUID) :
    isMarked (table.insert row) marked other = isMarked table marked other := by
  rw [isMarked, isMarked, Table.insert]
  split_ifs
  · rfl
  · simp [unmarked]

theorem isMarked_of_mem {row : Row} (rowMem : row ∈ table.rows) :
    isMarked table marked (HasID.id row) = marked row := by
  rcases isIt : marked row with _ | _
  · rw [isMarked, List.any_eq_false]
    intro other otherMem both
    simp only [Bool.and_eq_true, decide_eq_true_eq] at both
    rw [table.eq_of_id_eq otherMem rowMem both.1, isIt] at both
    exact absurd both.2 (by simp)
  · apply List.any_eq_true.mpr
    exact ⟨row, rowMem, by simp [isIt]⟩

end Marks

theorem uses_record {db : Database} (deed : Deed) : (db.record deed).uses =
    deed.credential.elim db.uses
      fun credential => Function.update db.uses credential (db.uses credential + 1) := by
  funext credential
  simp only [Database.uses, Database.record, List.countP_cons, decide_eq_true_eq]
  rcases deed.credential with _ | used
  · simp [Database.uses]
  · simp only [Option.some.injEq, Option.elim_some, Function.update_apply, Database.uses]
    by_cases same : used = credential
    · simp [same]
    · simp [same, Ne.symm same]

inductive Moves (presents : Credential → Prop) (db after : Database) :
    Option (Hold Credential) → Option (Hold Credential) → Prop
  | stay {hold : Option (Hold Credential)} : after.has = db.has → after.spent = db.spent →
      after.uses = db.uses → Moves presents db after hold hold
  | take {credential : Credential} : presents credential → db.has credential →
      db.spent credential = false → after.has = db.has → after.spent = db.spent →
      after.uses = db.uses → Moves presents db after none (some ⟨credential, false, false⟩)
  | leave {credential : Credential} {marked : Bool} : after.has = db.has →
      after.spent = db.spent → after.uses = db.uses →
      Moves presents db after (some ⟨credential, false, marked⟩) none
  | use {credential : Credential} : after.has = db.has → after.spent = db.spent →
      after.uses = Function.update db.uses credential (db.uses credential + 1) →
      Moves presents db after (some ⟨credential, false, false⟩) (some ⟨credential, true, false⟩)
  | mark {credential : Credential} {used : Bool} : after.has = db.has →
      after.spent = Function.update db.spent credential true → after.uses = db.uses →
      Moves presents db after (some ⟨credential, used, false⟩) (some ⟨credential, used, true⟩)
  | markAndLeave {credential : Credential} {used : Bool} : after.has = db.has →
      after.spent = Function.update db.spent credential true → after.uses = db.uses →
      Moves presents db after (some ⟨credential, used, false⟩) none
  | useAndLeave {credential : Credential} : after.has = db.has → after.spent = db.spent →
      after.uses = Function.update db.uses credential (db.uses credential + 1) →
      Moves presents db after (some ⟨credential, false, true⟩) none

variable {presents : Credential → Prop} {db after : Database}

theorem Moves.has_eq
    {before next : Option (Hold Credential)} (moves : Moves presents db after before next) :
    after.has = db.has := by
  cases moves <;> assumption

theorem Moves.hold_has
    {before next : Option (Hold Credential)} (moves : Moves presents db after before next)
    (known : ∀ hold, before = some hold → db.has hold.ticket) :
    ∀ hold, next = some hold → after.has hold.ticket := by
  intro hold isHold
  rw [moves.has_eq]
  cases moves with
  | stay => exact known hold isHold
  | take _ held =>
    cases isHold
    exact held
  | leave | markAndLeave | useAndLeave => simp at isHold
  | use | mark =>
    cases isHold
    have held := known _ rfl
    exact held

theorem has_eq (enrollment : ∀ id, after.enrollmentTokens.Holds id ↔ db.enrollmentTokens.Holds id)
    (reset : ∀ id, after.resetTokens.Holds id ↔ db.resetTokens.Holds id)
    (impersonation : ∀ id, after.impersonationTokens.Holds id ↔ db.impersonationTokens.Holds id) :
    after.has = db.has := by
  funext credential
  cases credential with
  | enrollmentToken id => exact propext (enrollment id)
  | resetToken id => exact propext (reset id)
  | impersonationToken id => exact propext (impersonation id)

variable {env} {world : World} {number : ℕ} {works : Bool} {draw : Draw}

theorem spent_enrollment_update {row : EnrollmentToken} {instant : ℤ}
    (held : db.enrollmentTokens.Holds row.id) :
    ({ db with
      enrollmentTokens := db.enrollmentTokens.update
        (fun other => if other.id = row.id then { other with usedAt := some instant } else other)
        (fun other => by split <;> rfl) } : Database).spent =
      Function.update db.spent (.enrollmentToken row.id) true := by
  funext credential
  cases credential with
  | enrollmentToken id =>
    simp only [Database.spent, Function.update_apply, Credential.enrollmentToken.injEq]
    exact isMarked_update held (fun _ => rfl) id
  | resetToken id | impersonationToken id => simp [Database.spent]

theorem spent_reset_update {row : PasswordResetToken} (held : db.resetTokens.Holds row.id) :
    ({ db with
      resetTokens := db.resetTokens.update
        (fun other => if other.id = row.id then { other with used := true } else other)
        (fun other => by split <;> rfl) } : Database).spent =
      Function.update db.spent (.resetToken row.id) true := by
  funext credential
  cases credential with
  | resetToken id =>
    simp only [Database.spent, Function.update_apply, Credential.resetToken.injEq]
    exact isMarked_update held (fun _ => rfl) id
  | enrollmentToken id | impersonationToken id => simp [Database.spent]

theorem spent_impersonation_update {row : ImpersonationToken} {instant : ℤ}
    (held : db.impersonationTokens.Holds row.id) :
    ({ db with
      impersonationTokens := db.impersonationTokens.update
        (fun other =>
          if other.id = row.id then { other with consumedAt := some instant } else other)
        (fun other => by split <;> rfl) } : Database).spent =
      Function.update db.spent (.impersonationToken row.id) true := by
  funext credential
  cases credential with
  | impersonationToken id =>
    simp only [Database.spent, Function.update_apply, Credential.impersonationToken.injEq]
    exact isMarked_update held (fun _ => rfl) id
  | enrollmentToken id | resetToken id => simp [Database.spent]

def Quiet (db after : Database) : Prop :=
  ∃ deeds, after.history = deeds ++ db.history ∧ ∀ token owner, .reset token owner ∉ deeds

theorem Quiet.refl (db : Database) : Quiet db db := ⟨[], rfl, by simp⟩

theorem quiet_record {deed : Deed} (added : after.history = deed :: db.history)
    (noReset : ∀ token owner, deed ≠ .reset token owner) : Quiet db after := by
  refine ⟨[deed], added, fun token owner isReset => ?_⟩
  exact noReset token owner (List.mem_singleton.mp isReset).symm

structure Keeping (db after : Database) (next : Request) : Prop where
  has : after.has = db.has
  spent : after.spent = db.spent
  uses : after.uses = db.uses
  quiet : Quiet db after
  hold : next.hold = none
  resetting : next.resetting = none
  intact : ∀ failure credential, next ≠ .finished (.error failure) (some credential)

theorem Keeping.refl {next : Request} (hold : next.hold = none) (resetting : next.resetting = none)
    (intact : ∀ failure credential, next ≠ .finished (.error failure) (some credential)) :
    Keeping db db next :=
  ⟨rfl, rfl, rfl, .refl db, hold, resetting, intact⟩

theorem keeping_refresh (surface : Surface) (token : String) (phase : RefreshPhase) :
    Keeping db (db.refresh env surface token works draw phase).2
      (db.refresh env surface token works draw phase).1 := by
  cases phase with
  | checking =>
    simp only [Database.refresh]
    split
    · exact .refl rfl rfl (by simp [Request.failed])
    · split_ifs <;> exact .refl rfl rfl (by simp [Request.failed])
  | loading row =>
    rw [Database.refresh]
    split
    case h_1 refused isRefused =>
      rcases refreshRefused_failed isRefused with ⟨failure, rfl⟩
      exact .refl rfl rfl (by simp)
    case h_2 => exact .refl rfl rfl (by simp)
  | rotating row =>
    simp only [Database.refresh]
    split_ifs <;> exact ⟨rfl, rfl, rfl, ⟨[], rfl, by simp⟩, rfl, rfl, by simp⟩
  | minting row =>
    simp only [Database.refresh]
    split
    case h_1 added isAdded =>
      rw [Option.ite_none_right_eq_some] at isAdded
      rcases exists_of_addRefreshToken isAdded.2 with ⟨-, -, -, rfl⟩
      exact ⟨rfl, rfl, uses_record _, quiet_record rfl (by simp), rfl, rfl, by simp [Request.done]⟩
    case h_2 =>
      exact ⟨rfl, rfl, uses_record _, quiet_record rfl (by simp), rfl, rfl, by simp [Request.done]⟩
    case h_3 => exact .refl rfl rfl (by simp [Request.failed])

theorem moves_enroll {request : EnrollRequest} {phase : EnrollPhase}
    (known : ∀ hold, (Request.enroll request phase).hold = some hold → db.has hold.ticket)
    (marks : (Request.enroll request phase).marks = true → works = true) :
    Moves ((Request.enroll request phase).presents env db) db
      (db.enroll env request works draw phase).2 (Request.enroll request phase).hold
      (db.enroll env request works draw phase).1.hold := by
  cases phase with
  | checking =>
    rw [Database.enroll]
    split
    case h_1 row found =>
      have rowMem := List.mem_of_find?_eq_some found
      have isRow := List.find?_some found
      simp only [decide_eq_true_eq] at isRow
      refine .take ⟨row, rowMem, rfl, isRow.1⟩ (Table.holds_of_mem rowMem) ?_ rfl rfl rfl
      exact (isMarked_of_mem rowMem).trans (by rw [isRow.2.1]; rfl)
    case h_2 => exact .stay rfl rfl rfl
  | findingMachine row =>
    simp only [Database.enroll]
    split <;> exact .stay rfl rfl rfl
  | findingAddress row =>
    rw [Database.enroll]
    split <;> exact .stay rfl rfl rfl
  | saving row device isNewDevice =>
    simp only [Database.enroll]
    split_ifs
    · exact .stay rfl rfl rfl
    · exact .leave rfl rfl rfl
    · exact .stay rfl rfl rfl
    · exact .leave rfl rfl rfl
  | replacing row device =>
    simp only [Database.enroll]
    split_ifs <;> exact .stay rfl rfl rfl
  | keying row device =>
    simp only [Database.enroll]
    split_ifs
    · exact .use rfl rfl (uses_record _)
    · exact .leave rfl rfl rfl
  | marking row =>
    rw [Database.enroll, if_pos (marks rfl)]
    exact .markAndLeave
      (has_eq (fun _ => by simp) (fun _ => Iff.rfl) fun _ => Iff.rfl)
      (spent_enrollment_update (known _ rfl)) rfl

theorem moves_impersonateConsume {code : String} {phase : ImpersonatePhase}
    (known : ∀ hold, (Request.impersonateConsume code phase).hold = some hold →
      db.has hold.ticket)
    (marks : (Request.impersonateConsume code phase).marks = true → works = true) :
    Moves ((Request.impersonateConsume code phase).presents env db) db
      (db.impersonateConsume code works phase).2
      (Request.impersonateConsume code phase).hold
      (db.impersonateConsume code works phase).1.hold := by
  cases phase with
  | checking =>
    rw [Database.impersonateConsume]
    split
    case h_1 => exact .stay rfl rfl rfl
    case h_2 row found =>
      have rowMem := List.mem_of_find?_eq_some found
      have isRow := List.find?_some found
      simp only [decide_eq_true_eq] at isRow
      split_ifs with consumed
      · exact .stay rfl rfl rfl
      · exact .stay rfl rfl rfl
      · refine .take ⟨row, rowMem, rfl, isRow⟩ (Table.holds_of_mem rowMem) ?_ rfl rfl rfl
        exact (isMarked_of_mem rowMem).trans (by simpa using consumed)
  | marking row =>
    rw [Database.impersonateConsume, if_pos (marks rfl)]
    exact .mark (has_eq (fun _ => Iff.rfl) (fun _ => Iff.rfl) fun _ => by simp)
      (spent_impersonation_update (known _ rfl)) rfl
  | loading row =>
    simp only [Database.impersonateConsume]
    split
    · exact .leave rfl rfl rfl
    · split_ifs
      · exact .leave rfl rfl rfl
      · exact .useAndLeave rfl rfl (uses_record _)

theorem moves_setPassword {setter : Setter} {password : String} {phase : PasswordPhase}
    (known : ∀ hold, (Request.setPassword setter password phase).hold = some hold →
      db.has hold.ticket)
    (marks : (Request.setPassword setter password phase).marks = true → works = true) :
    Moves ((Request.setPassword setter password phase).presents env db) db
      (db.setPassword env number setter password works phase).2
      (Request.setPassword setter password phase).hold
      (db.setPassword env number setter password works phase).1.hold := by
  cases phase with
  | checking =>
    rw [Database.setPassword]
    rcases @checkSetter_cases env db setter password with
      ⟨answer, ended⟩ | ⟨owner, hash, known⟩ | ⟨surface, token, rfl, row, rowMem, unused, same, found⟩
    · rw [ended]
      exact .stay rfl rfl rfl
    · rw [known]
      exact .stay rfl rfl rfl
    · rw [found]
      refine .take ⟨row, rowMem, rfl, same⟩ (Table.holds_of_mem rowMem) ?_ rfl rfl rfl
      exact (isMarked_of_mem rowMem).trans unused
  | validating row =>
    simp only [Database.setPassword]
    split_ifs
    · exact .leave rfl rfl rfl
    · split
      · exact .leave rfl rfl rfl
      · exact .stay rfl rfl rfl
  | changing owner hash row =>
    rcases row with _ | row
    · simp only [Database.setPassword]
      split_ifs <;> exact .stay rfl rfl rfl
    · simp only [Database.setPassword]
      split_ifs with isWorking
      · rw [isWorking]
        exact .use rfl rfl ((uses_record _).trans (by rw [uses_record]; rfl))
      · rw [eq_false_of_ne_true isWorking]
        exact .stay rfl rfl rfl
  | marking owner row changed =>
    rw [Database.setPassword, if_pos (marks rfl)]
    have sameKeys : ∀ id, (db.resetTokens.update
        (fun other => if other.id = row.id then { other with used := true } else other)
        (fun other => by split <;> rfl)).Holds id ↔ db.resetTokens.Holds id :=
      fun _ => by simp
    dsimp only
    split_ifs
    all_goals
      exact .markAndLeave (has_eq (fun _ => Iff.rfl) sameKeys fun _ => Iff.rfl)
        (spent_reset_update (known _ rfl)) rfl
  | revoking owner =>
    rw [Database.setPassword]
    split_ifs <;> exact .stay rfl rfl rfl
  | returning => exact .stay rfl rfl (uses_record _)

variable {request : Request}

theorem moves_advance (known : ∀ hold, request.hold = some hold → db.has hold.ticket)
    (marks : request.marks = true → works = true) :
    Moves (request.presents env db) db
      (db.advance env number works draw request).2 request.hold
      (db.advance env number works draw request).1.hold := by
  cases request with
  | enroll request phase => exact moves_enroll known marks
  | setPassword setter password phase => exact moves_setPassword known marks
  | impersonateConsume code phase => exact moves_impersonateConsume known marks
  | refresh surface token phase =>
    have keeping := @keeping_refresh env db works draw surface token phase
    rw [Database.advance, keeping.hold]
    exact .stay keeping.has keeping.spent keeping.uses
  | finished answer spent => exact .stay rfl rfl rfl

theorem office_of_moves {request next : Request} (asked : world.requests number = some request)
    (moves : Moves presents world.db after request.hold next.hold)
    (free : ∀ credential, presents credential → world.Free credential) :
    ∃ motions, AllSteps Office.step Careful world.office motions ∧
      exec Office.step world.office motions =
        some (World.office ⟨after, Function.update world.requests number (some next)⟩) := by
  have held : world.office.holds number = request.hold := by simp [World.office, asked]
  have result : World.office ⟨after, Function.update world.requests number (some next)⟩ =
      ⟨Function.update world.office.holds number next.hold, after.spent, after.uses⟩ := by
    rw [World.office]
    congr 1
    funext other
    simp only [Function.update_apply, World.office]
    split_ifs <;> rfl
  rw [result]
  generalize request.hold = before at moves held
  generalize next.hold = later at moves
  cases moves with
  | stay _ spent uses =>
    refine ⟨[], trivial, ?_⟩
    rw [spent, uses, ← held, Function.update_eq_self]
    rfl
  | @take credential presented _ unspent _ spent uses =>
    refine ⟨[.take number credential], ⟨free credential presented, fun _ _ => trivial⟩, ?_⟩
    simp [exec, Office.step, held, spent, uses, unspent]
  | leave _ spent uses =>
    refine ⟨[.leave number], ⟨?_, fun _ _ => trivial⟩, ?_⟩
    · intro hold isHold used
      rw [held, Option.some.injEq] at isHold
      rw [← isHold] at used
      exact absurd used (by simp)
    · simp [exec, Office.step, spent, uses]
  | use _ spent uses =>
    refine ⟨[.use number], ⟨trivial, fun _ _ => trivial⟩, ?_⟩
    simp [exec, Office.step, held, spent, uses]
  | mark _ spent uses =>
    refine ⟨[.mark number], ⟨trivial, fun _ _ => trivial⟩, ?_⟩
    simp [exec, Office.step, held, spent, uses]
  | markAndLeave _ spent uses =>
    refine ⟨[.mark number, .leave number], ⟨trivial, ?_⟩, ?_⟩
    · intro middle stepped
      refine ⟨?_, fun _ _ => trivial⟩
      simp only [Office.step, held, Option.some.injEq] at stepped
      intro hold isHold _
      rw [← stepped] at isHold
      simp only [Function.update_self, Option.some.injEq] at isHold
      rw [← isHold]
    · simp [exec, Office.step, held, spent, uses]
  | useAndLeave _ spent uses =>
    refine ⟨[.use number, .leave number], ⟨trivial, ?_⟩, ?_⟩
    · intro middle stepped
      refine ⟨?_, fun _ _ => trivial⟩
      simp only [Office.step, held, Option.some.injEq] at stepped
      intro hold isHold _
      rw [← stepped] at isHold
      simp only [Function.update_self, Option.some.injEq] at isHold
      rw [← isHold]
    · simp [exec, Office.step, held, spent, uses]

inductive Resets (presents : Credential → Prop) (db after : Database) :
    Option (UUID × Owner) → Option (UUID × Owner) → Prop
  | stay {resetting : Option (UUID × Owner)} : Quiet db after →
      Resets presents db after resetting resetting
  | give {resetting : Option (UUID × Owner)} : Quiet db after →
      Resets presents db after resetting none
  | take {row : PasswordResetToken} : row ∈ db.resetTokens.rows →
      presents (.resetToken row.id) → Quiet db after →
      Resets presents db after none (some (row.id, row.owner))
  | reset {token : UUID} {owner : Owner} {number : ℕ} {session : Option ℕ} :
      after.history = .reset token owner :: .passwordSet number owner session :: db.history →
      Resets presents db after (some (token, owner)) none

theorem Apart.resets {next : Request}
    {resetting : Option (UUID × Owner)} (apart : Apart db after next) :
    Resets presents db after resetting next.resetting := by
  have isNone : next.resetting = none := by
    have isExchange := apart.request
    cases next with
    | enroll | impersonateConsume | refresh | finished => rfl
    | setPassword => simp [Request.isExchange] at isExchange
  rw [isNone]
  rcases apart.history with ⟨deeds, added, exchanges⟩
  refine .give ⟨deeds, added, fun token owner isReset => ?_⟩
  have isExchange := exchanges _ isReset
  simp [Deed.isExchange] at isExchange

theorem resets_setPassword {setter : Setter} {password : String} {phase : PasswordPhase} :
    Resets ((Request.setPassword setter password phase).presents env db) db
      (db.setPassword env number setter password works phase).2
      (Request.setPassword setter password phase).resetting
      (db.setPassword env number setter password works phase).1.resetting := by
  cases phase with
  | checking =>
    rw [Database.setPassword]
    rcases @checkSetter_cases env db setter password with
      ⟨answer, ended⟩ | ⟨owner, hash, known⟩ | ⟨surface, token, rfl, row, rowMem, unused, same, found⟩
    · rw [ended]
      exact .stay (.refl _)
    · rw [known]
      exact .stay (.refl _)
    · rw [found]
      exact .take rowMem ⟨row, rowMem, rfl, same⟩ (.refl _)
  | validating row =>
    simp only [Database.setPassword]
    split_ifs
    · exact .give (.refl _)
    · split
      · exact .give (.refl _)
      · exact .stay (.refl _)
  | changing owner hash row =>
    rcases row with _ | row
    · simp only [Database.setPassword]
      split_ifs
      · exact .stay (quiet_record rfl (by simp))
      · exact .stay (quiet_record rfl (by simp))
      · exact .stay (.refl _)
      · exact .stay (.refl _)
    · simp only [Database.setPassword]
      split_ifs
      · exact .reset rfl
      · exact .give (.refl _)
  | marking owner row changed | revoking owner =>
    simp only [Database.setPassword]
    split_ifs <;> exact .stay ⟨[], rfl, by simp⟩
  | returning => exact .stay (quiet_record rfl (by simp))

theorem resets_advance (request : Request) :
    Resets (request.presents env db) db
      (db.advance env number works draw request).2 request.resetting
      (db.advance env number works draw request).1.resetting := by
  cases request with
  | enroll request phase => exact (apart_enroll request phase).resets
  | setPassword setter password phase => exact resets_setPassword
  | impersonateConsume code phase => exact (apart_impersonateConsume code phase).resets
  | refresh surface token phase =>
    rw [Database.advance, (keeping_refresh surface token phase).resetting]
    exact .stay (keeping_refresh surface token phase).quiet
  | finished answer spent => exact .stay (.refl _)

theorem intact_advance (intact : ∀ failure credential,
      request ≠ .finished (.error failure) (some credential))
    (active : ∀ id, request.impersonates = some id →
      ∃ user, db.person ⟨.dashboard, id⟩ = some user ∧ user.status = "active")
    (failure : Rejection) (credential : Credential) :
    (db.advance env number works draw request).1 ≠
      .finished (.error failure) (some credential) := by
  cases request with
  | enroll request phase =>
    cases phase <;> simp only [Database.advance, Database.enroll] <;> (repeat' split) <;>
      simp [Request.failed, Request.done]
  | setPassword setter password phase =>
    cases phase with
    | checking =>
      simp only [Database.advance, Database.setPassword]
      rcases @checkSetter_cases env db setter password with
        ⟨answer, ended⟩ | ⟨owner, hash, known⟩ | ⟨surface, token, rfl, row, -, -, -, found⟩
      · simp [ended]
      · simp [known]
      · simp [found]
    | changing owner hash row =>
      rcases row with _ | row <;> simp [Database.advance, Database.setPassword]
    | _ =>
      simp only [Database.advance, Database.setPassword]
      repeat' split
      all_goals simp [Request.failed, Request.done]
  | impersonateConsume code phase =>
    cases phase with
    | loading row =>
      rcases active _ rfl with ⟨user, found, isActive⟩
      simp [Database.advance, Database.impersonateConsume, found, isActive, Request.done]
    | _ =>
      simp only [Database.advance, Database.impersonateConsume]
      repeat' split
      all_goals simp [Request.failed]
  | refresh surface token phase => exact (keeping_refresh surface token phase).intact _ _
  | finished answer spent => exact intact failure credential

structure Sound (world : World) : Prop where
  known : ∀ number request hold, world.requests number = some request →
    request.hold = some hold → world.db.has hold.ticket
  orderly : Orderly world.office
  alone : ∀ first second request other token another owner,
    world.requests first = some request → world.requests second = some other →
    request.resetting = some (token, owner) → other.resetting = some (another, owner) →
      first = second
  fresh : ∀ number request token owner, world.requests number = some request →
    request.resetting = some (token, owner) → ¬ResetSince world.db.history token owner
  newest : ∀ token owner older, .reset token owner :: older <:+ world.db.history →
    ¬ResetSince older token owner
  intact : ∀ number failure credential,
    world.requests number ≠ some (.finished (.error failure) (some credential))

variable {token : UUID} {owner : Owner}

theorem resetSince_of_append {deeds history : List Deed}
    (noResets : ∀ token owner, .reset token owner ∉ deeds)
    (since : ResetSince (deeds ++ history) token owner) : ResetSince history token owner := by
  induction deeds with
  | nil => exact since
  | cons deed rest ih =>
    apply ih
    · intro token owner resetMem
      exact noResets token owner (List.mem_cons_of_mem _ resetMem)
    · rcases since with ⟨other, resetMem⟩
      rw [List.cons_append, List.takeWhile_cons] at resetMem
      split_ifs at resetMem
      · rcases List.mem_cons.mp resetMem with isDeed | resetMem
        · exact absurd (isDeed ▸ List.mem_cons_self) (noResets other owner)
        · exact ⟨other, resetMem⟩
      · simp at resetMem

theorem suffix_of_append {deeds history older : List Deed}
    (noResets : ∀ token owner, .reset token owner ∉ deeds)
    (suffix : .reset token owner :: older <:+ deeds ++ history) :
    .reset token owner :: older <:+ history := by
  induction deeds with
  | nil => exact suffix
  | cons deed rest ih =>
    apply ih
    · intro token owner resetMem
      exact noResets token owner (List.mem_cons_of_mem _ resetMem)
    · rcases List.suffix_cons_iff.mp suffix with same | suffix
      · have isDeed := (List.cons.inj same).1
        exact absurd (isDeed ▸ List.mem_cons_self) (noResets token owner)
      · exact suffix

variable {requests : ℕ → Option Request}

theorem Quiet.resetSince (quiet : Quiet db after)
    (since : ResetSince after.history token owner) : ResetSince db.history token owner := by
  rcases quiet with ⟨deeds, added, noResets⟩
  rw [added] at since
  exact resetSince_of_append noResets since

theorem Quiet.newest (quiet : Quiet db after)
    (newest : ∀ token owner older, .reset token owner :: older <:+ db.history →
      ¬ResetSince older token owner) :
    ∀ token owner older, .reset token owner :: older <:+ after.history →
      ¬ResetSince older token owner := by
  intro token owner older suffix
  rcases quiet with ⟨deeds, added, noResets⟩
  rw [added] at suffix
  exact newest token owner older (suffix_of_append noResets suffix)

theorem Sound.beside (sound : Sound ⟨db, requests⟩)
    (has : ∀ credential, db.has credential → after.has credential)
    (spent : after.spent = db.spent) (uses : after.uses = db.uses) (quiet : Quiet db after) :
    Sound ⟨after, requests⟩ where
  known number request hold asked held := has _ (sound.known number request hold asked held)
  orderly := by
    have same : World.office ⟨after, requests⟩ = World.office ⟨db, requests⟩ := by
      simp only [World.office, spent, uses]
    rw [same]
    exact sound.orderly
  alone := sound.alone
  fresh number request token owner asked resetting since :=
    sound.fresh number request token owner asked resetting (quiet.resetSince since)
  newest := quiet.newest sound.newest
  intact := sound.intact

theorem Request.unheld_of_isNew (isNew : request.isNew = true) :
    request.hold = none ∧ request.resetting = none := by
  rcases request with ⟨_, phase⟩ | ⟨_, _, phase⟩ | ⟨_, phase⟩ | ⟨_, _, phase⟩ | ⟨_, _⟩
  all_goals try cases phase
  all_goals first | exact ⟨rfl, rfl⟩ | simp [Request.isNew] at isNew

theorem sound_begin (sound : Sound ⟨db, requests⟩)
    (isFree : requests number = none) (isNew : request.isNew = true) :
    Sound ⟨db, Function.update requests number (some request)⟩ where
  known other asked hold isAsked held := by
    rcases party_update isAsked with ⟨-, rfl⟩ | ⟨-, before⟩
    · rw [(Request.unheld_of_isNew isNew).1] at held
      simp at held
    · exact sound.known other asked hold before held
  orderly := by
    have same : World.office ⟨db, Function.update requests number (some request)⟩ =
        World.office ⟨db, requests⟩ := by
      rw [World.office, World.office]
      congr 1
      funext other
      dsimp only
      rw [Function.update_apply]
      split_ifs with same
      · rw [same, isFree]
        exact (Request.unheld_of_isNew isNew).1
      · rfl
    rw [same]
    exact sound.orderly
  alone first second one other token another owner firstAsked secondAsked resetting otherResetting := by
    rcases party_update firstAsked with ⟨-, rfl⟩ | ⟨-, firstBefore⟩
    · rw [(Request.unheld_of_isNew isNew).2] at resetting
      simp at resetting
    · rcases party_update secondAsked with ⟨-, rfl⟩ | ⟨-, secondBefore⟩
      · rw [(Request.unheld_of_isNew isNew).2] at otherResetting
        simp at otherResetting
      · exact sound.alone first second one other token another owner firstBefore secondBefore
          resetting otherResetting
  fresh other asked token owner isAsked resetting := by
    rcases party_update isAsked with ⟨-, rfl⟩ | ⟨-, before⟩
    · rw [(Request.unheld_of_isNew isNew).2] at resetting
      simp at resetting
    · exact sound.fresh other asked token owner before resetting
  newest := sound.newest
  intact other failure credential isFinished := by
    rcases party_update isFinished with ⟨-, rfl⟩ | ⟨-, before⟩
    · simp [Request.isNew] at isNew
    · exact sound.intact other failure credential before

theorem Resets.before {before later : Option (UUID × Owner)}
    (resets : Resets presents db after before later) (isLater : later = some (token, owner)) :
    Quiet db after ∧ (before = some (token, owner) ∨
      ∃ row ∈ db.resetTokens.rows, presents (.resetToken row.id) ∧
        row.id = token ∧ row.owner = owner) := by
  cases resets with
  | stay quiet => exact ⟨quiet, .inl isLater⟩
  | give => simp at isLater
  | @take row rowMem presented quiet =>
    cases isLater
    exact ⟨quiet, .inr ⟨row, rowMem, presented, rfl, rfl⟩⟩
  | reset => simp at isLater

theorem Resets.happened {before later : Option (UUID × Owner)}
    (resets : Resets presents db after before later) : Quiet db after ∨
      ∃ token owner number session, before = some (token, owner) ∧
        after.history = .reset token owner :: .passwordSet number owner session :: db.history := by
  cases resets with
  | stay quiet | give quiet | take _ _ quiet => exact .inl quiet
  | reset added => exact .inr ⟨_, _, _, _, rfl, added⟩

theorem noResets_passwordSet (number : ℕ) (owner : Owner) (session : Option ℕ) :
    ∀ token other, .reset token other ∉ [Deed.passwordSet number owner session] := by
  simp

section MovesOn

variable {next : Request}

theorem alone_of_resets (sound : Sound ⟨db, requests⟩) (asked : requests number = some request)
    (newest : ∀ row ∈ db.resetTokens.rows, presents (.resetToken row.id) →
      ¬ResetSince db.history row.id row.owner ∧
      ∀ number other token, requests number = some other →
        other.resetting ≠ some (token, row.owner))
    (resets : Resets presents db after request.resetting next.resetting) {second : ℕ}
    {other : Request} {token another : UUID} {owner : Owner} (isOther : second ≠ number)
    (otherAsked : requests second = some other) (resetting : next.resetting = some (token, owner)) :
    other.resetting ≠ some (another, owner) := by
  intro otherResetting
  rcases (resets.before resetting).2 with before | ⟨row, rowMem, presented, rfl, rfl⟩
  · exact isOther (sound.alone second number other request another token owner otherAsked asked
      otherResetting before)
  · exact (newest row rowMem presented).2 second other another otherAsked otherResetting

theorem fresh_of_resets (sound : Sound ⟨db, requests⟩) (asked : requests number = some request)
    (resets : Resets presents db after request.resetting next.resetting) {second : ℕ}
    {other : Request} {token : UUID} {owner : Owner} (isOther : second ≠ number)
    (otherAsked : requests second = some other) (resetting : other.resetting = some (token, owner)) :
    ¬ResetSince after.history token owner := by
  intro since
  have notSince := sound.fresh second other token owner otherAsked resetting
  rcases resets.happened with quiet | ⟨ticket, account, setter, session, before, added⟩
  · exact notSince (quiet.resetSince since)
  · rcases since with ⟨earlier, resetMem⟩
    rw [added, List.takeWhile_cons_of_pos (by simp)] at resetMem
    rcases List.mem_cons.mp resetMem with isNow | resetMem
    · rcases (Deed.reset.injEq ..).mp isNow with ⟨-, rfl⟩
      exact isOther
        (sound.alone second number other request token ticket owner otherAsked asked resetting before)
    · exact notSince (resetSince_of_append (noResets_passwordSet _ _ _) ⟨earlier, resetMem⟩)

theorem Sound.moves_on (sound : Sound ⟨db, requests⟩) (asked : requests number = some request)
    (free : ∀ credential, presents credential → World.Free ⟨db, requests⟩ credential)
    (newest : ∀ row ∈ db.resetTokens.rows, presents (.resetToken row.id) →
      ¬ResetSince db.history row.id row.owner ∧
      ∀ number other token, requests number = some other →
        other.resetting ≠ some (token, row.owner))
    (moves : Moves presents db after request.hold next.hold)
    (resets : Resets presents db after request.resetting next.resetting)
    (intact : ∀ failure credential, next ≠ .finished (.error failure) (some credential)) :
    Sound ⟨after, Function.update requests number (some next)⟩ where
  known other one hold isAsked held := by
    rcases party_update isAsked with ⟨-, rfl⟩ | ⟨-, before⟩
    · exact moves.hold_has (fun hold held => sound.known number request hold asked held) hold held
    · rw [moves.has_eq]
      exact sound.known other one hold before held
  orderly := by
    rcases office_of_moves asked moves free with ⟨motions, careful, executed⟩
    exact orderly_of_careful sound.orderly careful executed
  alone first second one other token another owner firstAsked secondAsked resetting otherResetting := by
    rcases party_update firstAsked with ⟨isFirst, rfl⟩ | ⟨notFirst, firstBefore⟩
    · by_contra different
      rcases party_update secondAsked with ⟨isSecond, -⟩ | ⟨notSecond, secondBefore⟩
      · exact different (isFirst.trans isSecond.symm)
      · exact alone_of_resets sound asked newest resets notSecond secondBefore resetting
          otherResetting
    · rcases party_update secondAsked with ⟨-, rfl⟩ | ⟨-, secondBefore⟩
      · exact absurd resetting
          (alone_of_resets sound asked newest resets notFirst firstBefore otherResetting)
      · exact sound.alone first second one other token another owner firstBefore secondBefore
          resetting otherResetting
  fresh other one token owner isAsked resetting := by
    rcases party_update isAsked with ⟨-, rfl⟩ | ⟨isOther, before⟩
    · intro since
      rcases resets.before resetting with ⟨quiet, before | ⟨row, rowMem, presented, rfl, rfl⟩⟩
      · exact sound.fresh number request token owner asked before (quiet.resetSince since)
      · exact (newest row rowMem presented).1 (quiet.resetSince since)
    · exact fresh_of_resets sound asked resets isOther before resetting
  newest := by
    rcases resets.happened with quiet | ⟨ticket, account, setter, session, before, added⟩
    · exact quiet.newest sound.newest
    · intro token owner older suffix since
      rw [added] at suffix
      rcases List.suffix_cons_iff.mp suffix with same | suffix
      · cases same
        exact sound.fresh number request _ _ asked before
          (resetSince_of_append (noResets_passwordSet _ _ _) since)
      · exact sound.newest token owner older
          (suffix_of_append (noResets_passwordSet setter account session) suffix) since
  intact other failure credential isFinished := by
    rcases party_update isFinished with ⟨-, same⟩ | ⟨-, before⟩
    · exact intact failure credential same.symm
    · exact sound.intact other failure credential before

end MovesOn

theorem sound_advance (sound : Sound ⟨db, requests⟩) (asked : requests number = some request)
    (heedful : Heedful env ⟨db, requests⟩ request works) :
    Sound ⟨(db.advance env number works draw request).2, Function.update requests number
      (some (db.advance env number works draw request).1)⟩ := by
  apply sound.moves_on asked heedful.free heedful.newest
  · apply moves_advance
    · intro hold held
      exact sound.known number request hold asked held
    · exact heedful.marks
  · exact resets_advance request
  · apply intact_advance
    · rintro failure credential rfl
      exact sound.intact number failure credential asked
    · exact heedful.active

theorem sound_issue {credential : Credential} {fresh : Bool} {next : World}
    (sound : Sound world) (issued : world.issue credential fresh db = some next)
    (has : ∀ credential, world.db.has credential → db.has credential)
    (spent : fresh = true → db.spent = world.db.spent)
    (history : db.history = world.db.history) : Sound next := by
  rw [World.issue, Option.ite_none_right_eq_some, Option.some.injEq] at issued
  rcases issued with ⟨isFresh, rfl⟩
  have sameUses : (db.record (.issued credential)).uses = world.db.uses := by
    rw [uses_record]
    funext other
    simp [Deed.credential, Database.uses, history]
  have sameSpent : (db.record (.issued credential)).spent = world.db.spent := spent isFresh
  exact sound.beside has sameSpent sameUses (quiet_record (congrArg _ history) (by simp))

theorem sound_step {action : Action} {next : World} (sound : Sound world)
    (heeds : Heeds env world action) (stepped : world.step env action = some next) :
    Sound next := by
  cases action with
  | begin number asked =>
    simp only [World.step, Option.ite_none_right_eq_some, Option.some.injEq,
      Option.isNone_iff_eq_none] at stepped
    rcases stepped with ⟨⟨isFree, isNew⟩, rfl⟩
    exact sound_begin sound isFree isNew
  | advance number works draw =>
    rw [World.step, Option.map_eq_some_iff] at stepped
    rcases stepped with ⟨request, asked, rfl⟩
    exact sound_advance sound asked (heeds request asked)
  | issueEnrollmentToken row =>
    apply sound_issue sound stepped
    · intro credential held
      cases credential with
      | enrollmentToken id => exact Table.holds_insert.mpr (.inr held)
      | _ => exact held
    · intro fresh
      simp only [Bool.and_eq_true, Option.isNone_iff_eq_none] at fresh
      funext credential
      cases credential with
      | enrollmentToken id => exact isMarked_insert (by rw [fresh.1.2]; rfl) id
      | _ => rfl
    · rfl
  | issueResetToken row =>
    apply sound_issue sound stepped
    · intro credential held
      cases credential with
      | resetToken id => exact Table.holds_insert.mpr (.inr held)
      | _ => exact held
    · intro fresh
      simp only [Bool.and_eq_true, Bool.not_eq_true'] at fresh
      funext credential
      cases credential with
      | resetToken id => exact isMarked_insert fresh.1.2 id
      | _ => rfl
    · rfl
  | issueImpersonationToken row =>
    apply sound_issue sound stepped
    · intro credential held
      cases credential with
      | impersonationToken id => exact Table.holds_insert.mpr (.inr held)
      | _ => exact held
    · intro fresh
      simp only [Bool.and_eq_true, Option.isNone_iff_eq_none] at fresh
      funext credential
      cases credential with
      | impersonationToken id => exact isMarked_insert (by rw [fresh.1.2]; rfl) id
      | _ => rfl
    · rfl
  | signIn owner draw =>
    rw [World.step, Option.map_eq_some_iff] at stepped
    rcases stepped with ⟨added, isAdded, rfl⟩
    rcases exists_of_addRefreshToken isAdded with ⟨row, -, -, rfl⟩
    have quiet : Quiet world.db ({ world.db with
        refreshTokens := world.db.refreshTokens.insert row
        sessions := world.db.sessions + 1 }.record (.signedIn world.db.sessions owner)) :=
      quiet_record rfl (by simp)
    exact sound.beside (fun _ => id) rfl rfl quiet
  | logout token | changePeople people | tick elapsed =>
    cases stepped
    exact sound.beside (fun _ => id) rfl rfl ⟨[], rfl, by simp⟩

variable {now : ℤ} {people : List Person} {devices : Table Device} {agentTokens : List AgentToken}

theorem sound_initial : Sound (World.initial now people devices agentTokens) where
  known number request hold asked := by simp [World.initial] at asked
  orderly := by
    have same : World.office (World.initial now people devices agentTokens) = Office.new := by
      rw [World.office, Office.new]
      congr 1
      funext credential
      cases credential <;> rfl
    rw [same]
    exact orderly_new
  alone first second request other token another owner asked := by
    simp [World.initial] at asked
  fresh number request token owner asked := by simp [World.initial] at asked
  newest token owner older suffix := by simp [World.initial] at suffix
  intact number failure credential asked := by simp [World.initial] at asked

theorem heeds_of_alone (alone : ∀ other, other ≠ number → world.requests other = none)
    (newest : ∀ token owner, ¬ResetSince world.db.history token owner)
    (active : ∀ request id, world.requests number = some request →
      request.impersonates = some id →
        ∃ user, world.db.person ⟨.dashboard, id⟩ = some user ∧ user.status = "active") :
    Heeds env world (.advance number true draw) := by
  intro request asked
  have unheld : ∀ {credential}, request.presents env world.db credential →
      request.hold = none ∧ request.resetting = none := by
    intro credential presented
    unfold Request.presents at presented
    split at presented
    · exact ⟨rfl, rfl⟩
    · exact ⟨rfl, rfl⟩
    · exact ⟨rfl, rfl⟩
    · exact absurd presented id
  have only : ∀ {other asker}, world.requests other = some asker → asker = request := by
    intro other asker isAsked
    by_cases same : other = number
    · rw [same, asked] at isAsked
      exact (Option.some.inj isAsked).symm
    · rw [alone other same] at isAsked
      simp at isAsked
  constructor
  · intro credential presented other hold held
    rw [World.office, Option.bind_eq_some_iff] at held
    rcases held with ⟨asker, isAsked, held⟩
    rw [only isAsked, (unheld presented).1] at held
    simp at held
  · intro row _ presented
    refine ⟨newest _ _, fun other asker token isAsked => ?_⟩
    rw [only isAsked, (unheld presented).2]
    simp
  · exact fun _ => rfl
  · intro id impersonated
    exact active request id asked impersonated

def impersonationCode : ImpersonationToken := ⟨⟨1⟩, "code", ⟨2⟩, 60, none⟩

def impersonation : List Action :=
  [.issueImpersonationToken impersonationCode, .begin 0 (.impersonateConsume "code" .checking),
    .advance 0 true ⟨⟨0⟩, ""⟩, .advance 0 true ⟨⟨0⟩, ""⟩, .advance 0 true ⟨⟨0⟩, ""⟩]

def impersonating (steps : ℕ) : World :=
  let world := World.initial 0 [admin] .empty []
  (exec (World.step plainPrimitives) world (impersonation.take steps)).getD world

theorem heeds_impersonating (steps : ℕ) (request : Request)
    (requests : (impersonating steps).requests =
      Function.update (impersonating (steps - 1)).requests 0 (some request))
    (alone : ∀ other, other ≠ 0 → (impersonating (steps - 1)).requests other = none)
    (history : (impersonating steps).db.history = [.issued (.impersonationToken ⟨1⟩)])
    (people : (impersonating steps).db.people = [admin])
    (target : ∀ id, request.impersonates = some id → id = ⟨2⟩) :
    (∀ other, other ≠ 0 → (impersonating steps).requests other = none) ∧
      Heeds plainPrimitives (impersonating steps) (.advance 0 true ⟨⟨0⟩, ""⟩) := by
  have stillAlone : ∀ other, other ≠ 0 → (impersonating steps).requests other = none := by
    intro other isOther
    rw [requests, Function.update_of_ne isOther]
    exact alone other isOther
  refine ⟨stillAlone, heeds_of_alone stillAlone ?_ ?_⟩
  · simp [history, ResetSince]
  · intro asked id isAsked impersonated
    rw [requests, Function.update_self] at isAsked
    cases isAsked
    rw [target id impersonated]
    exact ⟨admin, by simp [Database.person, people, admin], rfl⟩

def AlwaysSpentOnce : Prop :=
  ∀ (env : Primitives) (now : ℤ) (people : List Person) (devices : Table Device)
    (agentTokens : List AgentToken) (trace : List Action) (final : World),
    exec (World.step env) (World.initial now people devices agentTokens) trace =
      some final → SpentOnce final

def enrollmentToken : EnrollmentToken := ⟨⟨1⟩, ⟨3⟩, none, "token", none, 60⟩

def enrollment (hostname : String) : Request :=
  .enroll ⟨"token", hostname, "", "", hostname, "", "", ""⟩ .checking

def bothCheckFirst : List Action :=
  [.issueEnrollmentToken enrollmentToken,
    .begin 0 (enrollment "first"), .begin 1 (enrollment "second"),
    .advance 0 true ⟨⟨0⟩, ""⟩, .advance 1 true ⟨⟨0⟩, ""⟩,
    .advance 0 true ⟨⟨0⟩, ""⟩, .advance 0 true ⟨⟨4⟩, ""⟩, .advance 0 true ⟨⟨0⟩, ""⟩,
    .advance 0 true ⟨⟨0⟩, "key"⟩, .advance 0 true ⟨⟨0⟩, ""⟩,
    .advance 1 true ⟨⟨0⟩, ""⟩, .advance 1 true ⟨⟨5⟩, ""⟩, .advance 1 true ⟨⟨0⟩, ""⟩,
    .advance 1 true ⟨⟨0⟩, "other key"⟩]

end Aavishield.Credentials
