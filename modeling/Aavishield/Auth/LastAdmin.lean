import Aavishield.Auth.OrgUsers

/-!
# The last admin of an organisation

An organisation keeps an active admin as long as nobody ends the administration of the last one.
Only a demotion and a removal look for other admins, and they do so before they write.
-/

namespace Aavishield.OrgUsers

open TransitionSystem
open Dataplane (HasID Table)

def User.IsAdminOf (orgID : UUID) (user : User) : Prop :=
  user.orgID = some orgID ∧ user.role = .orgAdmin ∧ user.status = .active

instance (orgID : UUID) : DecidablePred (User.IsAdminOf orgID) := fun _ =>
  inferInstanceAs (Decidable (_ ∧ _ ∧ _))

def Database.HasAdmin (db : Database) (orgID : UUID) : Prop :=
  ∃ user ∈ db.users.rows, user.IsAdminOf orgID

instance (db : Database) (orgID : UUID) : Decidable (db.HasAdmin orgID) :=
  inferInstanceAs (Decidable (∃ user ∈ db.users.rows, user.IsAdminOf orgID))

def Request.ends : Request → Option UUID
  | .update _ _ _ (.writing user _ updates) =>
    if updates.role.any (· ≠ .orgAdmin) || updates.status.any (· ≠ .active) then some user.id
    else none
  | .delete _ _ (.removing user) => some user.id
  | _ => none

/-- Whoever a write ends as an admin is not the last one when it is done. -/
def Careful (orgID : UUID) (world : World) : Action → Prop
  | .begin _ _ => True
  | .advance number works => works = true → ∀ request ∈ world.requests number,
      ∀ id ∈ request.ends, (∃ user ∈ world.db.users.rows, user.id = id ∧ user.IsAdminOf orgID) →
        world.db.lastAdmin (some orgID) id = false

variable {generate : String → Option String} {orgID id : UUID} {db : Database} {world next : World}
  {request : Request} {works : Bool} {user : User} {updates : Updates}

theorem lastAdmin_eq_false_iff : db.lastAdmin (some orgID) id = false ↔
    ∃ other ∈ db.users.rows, other.IsAdminOf orgID ∧ other.id ≠ id := by
  simp only [Database.lastAdmin, List.all_eq_false, User.IsAdminOf]
  apply exists_congr
  intro other
  simp
  tauto

theorem users_advance : (db.advance generate works request).2.users = db.users ∨
    works = true ∧
      ((∃ actor id body user asked updates,
          request = .update actor id body (.writing user asked updates) ∧
          (db.advance generate works request).2.users = (db.updates user.id updates).users) ∨
        ∃ actor id user, request = .delete actor id (.removing user) ∧
          (db.advance generate works request).2.users = (db.remove user.id).users) := by
  have checked : ∀ actor id body user asked role,
      (Database.update.go db generate actor id body user asked role).2.users = db.users := by
    intro actor id body user asked role
    unfold Database.update.go
    split <;> rfl
  cases request with
  | finished answer => exact .inl rfl
  | update actor id body phase =>
    cases phase with
    | finding =>
      left
      simp only [Database.advance, Database.update]
      split
      · rfl
      · rfl
      · split
        · rfl
        · split
          · rfl
          · exact checked _ _ _ _ _ _
        · exact checked _ _ _ _ _ _
    | counting user asked role =>
      left
      simp only [Database.advance, Database.update]
      split
      · rfl
      · exact checked _ _ _ _ _ _
    | writing user asked updates =>
      cases works with
      | false => exact .inl rfl
      | true => exact .inr ⟨rfl, .inl ⟨actor, id, body, user, asked, updates, rfl, rfl⟩⟩
    | unlinking user role teamIDs | inserting user team teamIDs =>
      left
      cases works <;> rfl
    | linking user teamIDs =>
      left
      cases teamIDs with
      | nil => rfl
      | cons teamID teamIDs =>
        simp only [Database.advance, Database.update]
        split <;> rfl
    | reloading user => exact .inl rfl
  | delete actor id phase =>
    cases phase with
    | finding =>
      left
      simp only [Database.advance, Database.delete]
      split
      · rfl
      · split
        · rfl
        · split <;> rfl
    | counting user =>
      left
      simp only [Database.advance, Database.delete]
      split <;> rfl
    | unlinking user | revoking user =>
      left
      cases works <;> rfl
    | removing user =>
      cases works with
      | false => exact .inl rfl
      | true => exact .inr ⟨rfl, .inr ⟨actor, id, user, rfl, rfl⟩⟩

theorem mem_updates {other : User} : other ∈ (db.updates id updates).users.rows ↔
    ∃ user ∈ db.users.rows, (if user.id = id then updates.apply user else user) = other := by
  simp [Database.updates, Table.update]

theorem mem_remove {other : User} :
    other ∈ (db.remove id).users.rows ↔ other ∈ db.users.rows ∧ other.id ≠ id := by
  simp [Database.remove]

theorem isAdminOf_apply (isAdmin : user.IsAdminOf orgID) :
    (updates.apply user).IsAdminOf orgID ↔
      ¬(updates.role.any (· ≠ .orgAdmin) || updates.status.any (· ≠ .active)) = true := by
  rcases isAdmin with ⟨ofOrg, admin, active⟩
  cases role : updates.role <;> cases status : updates.status <;>
    simp [User.IsAdminOf, Updates.apply, role, status, ofOrg, admin, active]

theorem hasAdmin_updates (hasAdmin : db.HasAdmin orgID)
    (other : (∃ user ∈ db.users.rows, user.id = id ∧ user.IsAdminOf orgID ∧
      ¬(updates.apply user).IsAdminOf orgID) → db.lastAdmin (some orgID) id = false) :
    (db.updates id updates).HasAdmin orgID := by
  rcases hasAdmin with ⟨user, mem, isAdmin⟩
  by_cases same : user.id = id
  · by_cases stays : (updates.apply user).IsAdminOf orgID
    · exact ⟨_, mem_updates.mpr ⟨user, mem, if_pos same⟩, stays⟩
    · rcases lastAdmin_eq_false_iff.mp (other ⟨user, mem, same, isAdmin, stays⟩) with
        ⟨second, secondMem, isSecond, apart⟩
      exact ⟨second, mem_updates.mpr ⟨second, secondMem, if_neg apart⟩, isSecond⟩
  · exact ⟨user, mem_updates.mpr ⟨user, mem, if_neg same⟩, isAdmin⟩

theorem lastAdmin_of_hasAdmin_updates (hasAdmin : (db.updates id updates).HasAdmin orgID)
    (mem : user ∈ db.users.rows) (same : user.id = id)
    (ends : ¬(updates.apply user).IsAdminOf orgID) : db.lastAdmin (some orgID) id = false := by
  rcases hasAdmin with ⟨written, writtenMem, isAdmin⟩
  rcases mem_updates.mp writtenMem with ⟨other, otherMem, rfl⟩
  by_cases written : other.id = id
  · have isUser : other = user := Table.eq_of_id_eq otherMem mem (written.trans same.symm)
    simp only [isUser, same, if_true] at isAdmin
    exact absurd isAdmin ends
  · simp only [written, if_false] at isAdmin
    exact lastAdmin_eq_false_iff.mpr ⟨other, otherMem, isAdmin, written⟩

theorem hasAdmin_remove (hasAdmin : db.HasAdmin orgID)
    (other : (∃ user ∈ db.users.rows, user.id = id ∧ user.IsAdminOf orgID) →
      db.lastAdmin (some orgID) id = false) : (db.remove id).HasAdmin orgID := by
  rcases hasAdmin with ⟨user, mem, isAdmin⟩
  by_cases same : user.id = id
  · rcases lastAdmin_eq_false_iff.mp (other ⟨user, mem, same, isAdmin⟩) with
      ⟨second, secondMem, isSecond, apart⟩
    exact ⟨second, mem_remove.mpr ⟨secondMem, apart⟩, isSecond⟩
  · exact ⟨user, mem_remove.mpr ⟨mem, same⟩, isAdmin⟩

theorem lastAdmin_of_hasAdmin_remove (hasAdmin : (db.remove id).HasAdmin orgID) :
    db.lastAdmin (some orgID) id = false := by
  rcases hasAdmin with ⟨other, mem, isAdmin⟩
  rcases mem_remove.mp mem with ⟨otherMem, apart⟩
  exact lastAdmin_eq_false_iff.mpr ⟨other, otherMem, isAdmin, apart⟩

theorem hasAdmin_congr {other : Database} (same : db.users = other.users) :
    db.HasAdmin orgID ↔ other.HasAdmin orgID := by
  simp [Database.HasAdmin, same]

theorem step_advance {number : ℕ} (stepped : world.step generate (.advance number works) = some next) :
    ∃ request ∈ world.requests number,
      next.db = (world.db.advance generate works request).2 := by
  rcases Option.map_eq_some_iff.mp stepped with ⟨request, found, rfl⟩
  exact ⟨request, found, rfl⟩

theorem hasAdmin_step {action : Action} (hasAdmin : world.db.HasAdmin orgID)
    (careful : Careful orgID world action) (stepped : world.step generate action = some next) :
    next.db.HasAdmin orgID := by
  cases action with
  | begin number asked =>
    simp only [World.step, Option.ite_none_right_eq_some, Option.some.injEq] at stepped
    rcases stepped with ⟨-, rfl⟩
    exact hasAdmin
  | advance number works =>
    rcases step_advance stepped with ⟨request, found, moved⟩
    simp only [moved]
    rcases users_advance with same | ⟨works, written | removed⟩
    · exact (hasAdmin_congr same).mpr hasAdmin
    · rcases written with ⟨actor, id, body, user, asked, updates, rfl, same⟩
      apply (hasAdmin_congr same).mpr
      apply hasAdmin_updates hasAdmin
      rintro ⟨row, mem, isRow, isAdmin, ends⟩
      have takes := not_not.mp (mt (isAdminOf_apply isAdmin).mpr ends)
      exact careful works _ found user.id (by simp only [Request.ends, takes]; rfl)
        ⟨row, mem, isRow, isAdmin⟩
    · rcases removed with ⟨actor, id, user, rfl, same⟩
      apply (hasAdmin_congr same).mpr
      apply hasAdmin_remove hasAdmin
      intro isAdmin
      exact careful works _ found user.id rfl isAdmin

theorem careful_of_hasAdmin {action : Action} (stepped : world.step generate action = some next)
    (hasAdmin : next.db.HasAdmin orgID) : Careful orgID world action := by
  cases action with
  | begin number asked => trivial
  | advance number works =>
    rintro rfl request found id ends ⟨row, mem, isRow, isAdmin⟩
    rcases step_advance stepped with ⟨other, isOther, moved⟩
    obtain rfl : request = other := Option.some.inj (found.symm.trans isOther)
    cases request with
    | finished answer => simp [Request.ends] at ends
    | update actor target body phase =>
      cases phase with
      | writing user asked updates =>
        simp only [Request.ends, Option.mem_def, Option.ite_none_right_eq_some,
          Option.some.injEq] at ends
        rcases ends with ⟨takes, rfl⟩
        simp only [moved] at hasAdmin
        apply lastAdmin_of_hasAdmin_updates hasAdmin mem isRow
        intro stays
        exact (isAdminOf_apply isAdmin).mp stays takes
      | _ => simp [Request.ends] at ends
    | delete actor target phase =>
      cases phase with
      | removing user =>
        obtain rfl : user.id = id := by simpa [Request.ends] using ends
        simp only [moved] at hasAdmin
        exact lastAdmin_of_hasAdmin_remove hasAdmin
      | _ => simp [Request.ends] at ends

/-- An organisation has an active admin all along a run exactly if no statement of the run ends
the administration of the last one. -/
theorem hasAdmin_iff_careful {final : World} {trace : List Action}
    (hasAdmin : world.db.HasAdmin orgID)
    (executed : exec (World.step generate) world trace = some final) :
    (∀ reached, Visits (World.step generate) world trace reached → reached.db.HasAdmin orgID) ↔
      AllSteps (World.step generate) (Careful orgID) world trace :=
  forall_visits_iff_allSteps (fun _ hasAdmin => hasAdmin)
    (fun _ _ _ hasAdmin careful stepped => hasAdmin_step hasAdmin careful stepped)
    (fun _ _ _ _ stepped hasAdmin => careful_of_hasAdmin stepped hasAdmin) hasAdmin executed

def admin (number : ℕ) : User where
  id := ⟨BitVec.ofNat 128 number⟩
  orgID := some ⟨7⟩
  passwordHash := ""
  firstName := ""
  lastName := ""
  jobTitle := ""
  role := .orgAdmin
  status := .active

def twoAdmins : World where
  db :=
    { users := ⟨[admin 1, admin 2], by decide⟩
      teams := []
      userTeams := []
      refreshTokens := [] }
  requests := fun _ => none

def suspension (number : ℕ) (actor other : User) : List Action := [
  .begin number (.update ⟨actor.id, actor.orgID, actor.role⟩ other.id
    (.ok ⟨"", "", "", "", "", "suspended", none⟩) .finding),
  .advance number true,
  .advance number true]

theorem hasAdmin_iff_careful_suspension :
    (∀ reached, Visits (World.step some) twoAdmins (suspension 0 (admin 1) (admin 2)) reached →
      reached.db.HasAdmin ⟨7⟩) ↔
    AllSteps (World.step some) (Careful ⟨7⟩) twoAdmins (suspension 0 (admin 1) (admin 2)) := by
  have runs : (exec (World.step some) twoAdmins (suspension 0 (admin 1) (admin 2))).isSome = true := by
    decide
  rcases Option.isSome_iff_exists.mp runs with ⟨final, executed⟩
  exact hasAdmin_iff_careful (by decide) executed

/-- The second admin's token is accepted after the suspension, and nobody counts admins when a
status is changed. -/
theorem not_alwaysHasAdmin : ¬∀ (world final : World) (trace : List Action) (orgID : UUID),
    world.db.HasAdmin orgID → exec (World.step some) world trace = some final →
      final.db.HasAdmin orgID := by
  intro always
  have ends : (exec (World.step some) twoAdmins
      (suspension 0 (admin 1) (admin 2) ++ suspension 1 (admin 2) (admin 1))).map
        (fun final => decide (final.db.HasAdmin ⟨7⟩)) = some false := by
    decide
  rcases Option.map_eq_some_iff.mp ends with ⟨final, executed, lost⟩
  exact of_decide_eq_false lost (always _ _ _ _ (by decide) executed)

end Aavishield.OrgUsers
