import Aavishield.Auth.Credentials

/-!
# What the steps of requests leave as it is

Enrolment and impersonation have nothing to do with passwords and refresh tokens.
-/

namespace Aavishield.Credentials

def Request.isExchange : Request → Bool
  | .enroll .. | .impersonateConsume .. | .finished .. => true
  | .setPassword .. | .refresh .. => false

def Deed.isExchange : Deed → Bool
  | .enrolled .. | .impersonated .. => true
  | _ => false

structure Apart (db after : Database) (next : Request) : Prop where
  now : after.now = db.now
  people : after.people = db.people
  resetTokens : after.resetTokens = db.resetTokens
  refreshTokens : after.refreshTokens = db.refreshTokens
  sessions : after.sessions = db.sessions
  history : ∃ deeds, after.history = deeds ++ db.history ∧
    ∀ deed ∈ deeds, deed.isExchange = true
  request : next.isExchange = true

variable {env : Primitives} {db : Database} {works : Bool} {draw : Draw}

theorem Apart.quiet {next : Request} (request : next.isExchange = true) : Apart db db next where
  now := rfl
  people := rfl
  resetTokens := rfl
  refreshTokens := rfl
  sessions := rfl
  history := ⟨[], rfl, by simp⟩
  request := request

theorem apart_enroll (request : EnrollRequest) (phase : EnrollPhase) :
    Apart db (db.enroll env request works draw phase).2
      (db.enroll env request works draw phase).1 := by
  cases phase with
  | checking | findingAddress row =>
    rw [Database.enroll]
    split <;> exact .quiet rfl
  | findingMachine row =>
    simp only [Database.enroll]
    split <;> exact .quiet rfl
  | saving row device isNewDevice =>
    simp only [Database.enroll]
    split_ifs
    · exact ⟨rfl, rfl, rfl, rfl, rfl, ⟨[], rfl, by simp⟩, rfl⟩
    · exact .quiet rfl
    · exact ⟨rfl, rfl, rfl, rfl, rfl, ⟨[], rfl, by simp⟩, rfl⟩
    · exact .quiet rfl
  | replacing row device | marking row =>
    simp only [Database.enroll]
    split_ifs
    · exact ⟨rfl, rfl, rfl, rfl, rfl, ⟨[], rfl, by simp⟩, rfl⟩
    · exact .quiet rfl
  | keying row device =>
    simp only [Database.enroll]
    split_ifs
    · exact ⟨rfl, rfl, rfl, rfl, rfl,
        ⟨[.enrolled row.id device.id], rfl, by simp [Deed.isExchange]⟩, rfl⟩
    · exact .quiet rfl

theorem apart_impersonateConsume (code : String) (phase : ImpersonatePhase) :
    Apart db (db.impersonateConsume code works phase).2
      (db.impersonateConsume code works phase).1 := by
  cases phase with
  | checking =>
    rw [Database.impersonateConsume]
    split
    · exact .quiet rfl
    · split_ifs <;> exact .quiet rfl
  | marking row =>
    simp only [Database.impersonateConsume]
    split_ifs
    · exact ⟨rfl, rfl, rfl, rfl, rfl, ⟨[], rfl, by simp⟩, rfl⟩
    · exact .quiet rfl
  | loading row =>
    simp only [Database.impersonateConsume]
    split
    · exact .quiet rfl
    case h_2 user _ =>
      split_ifs
      · exact .quiet rfl
      · exact ⟨rfl, rfl, rfl, rfl, rfl,
          ⟨[.impersonated row.id user.owner.id], rfl, by simp [Deed.isExchange]⟩, rfl⟩

theorem refreshRefused_failed {surface : Surface} {person : Option Person} {refused : Request}
    (isRefused : Database.refreshRefused surface person = some refused) :
    ∃ failure, refused = .finished (.error failure) none := by
  unfold Database.refreshRefused at isRefused
  split at isRefused
  · cases isRefused
    exact ⟨_, rfl⟩
  · split_ifs at isRefused
    cases isRefused
    exact ⟨_, rfl⟩
  · split_ifs at isRefused
    cases isRefused
    exact ⟨_, rfl⟩

theorem exists_of_addRefreshToken {owner : Owner} {session : ℕ} {added : Database}
    (isAdded : db.addRefreshToken env owner session draw = some added) :
    ∃ row : RefreshToken, row.session = session ∧ row.owner = owner ∧
      added = { db with refreshTokens := db.refreshTokens.insert row } := by
  simp only [Database.addRefreshToken, Option.ite_none_right_eq_some, Option.some.injEq] at isAdded
  exact ⟨_, rfl, rfl, isAdded.2.symm⟩

theorem checkSetter_cases (setter : Setter) (password : String) :
    (∃ answer, db.checkSetter env setter password = .finished answer none) ∨
    (∃ owner hash, db.checkSetter env setter password =
      .setPassword setter password (.changing owner hash none)) ∨
    ∃ surface token, setter = .resetPassword surface token ∧
      ∃ row ∈ db.resetTokens.rows, row.used = false ∧
        row.tokenHash = env.hashRefreshToken token ∧
        db.checkSetter env setter password =
          .setPassword setter password (.validating row) := by
  cases setter with
  | changePassword owner current session =>
    rw [Database.checkSetter]
    split
    · left
      split <;> exact ⟨_, rfl⟩
    · dsimp only
      split
      · exact .inl ⟨_, rfl⟩
      · exact .inr (.inl ⟨_, _, rfl⟩)
  | resetPassword surface token =>
    rw [Database.checkSetter]
    split
    case h_1 => exact .inl ⟨_, rfl⟩
    case h_2 row found =>
      right
      right
      have isRow := List.find?_some found
      simp only [decide_eq_true_eq] at isRow
      exact ⟨surface, token, rfl, row, List.mem_of_find?_eq_some found, isRow.2.1, isRow.1, rfl⟩
  | update orgID userID =>
    rw [Database.checkSetter]
    split
    · exact .inl ⟨_, rfl⟩
    · split_ifs
      · exact .inl ⟨_, rfl⟩
      · exact .inl ⟨_, rfl⟩
      · split
        · exact .inl ⟨_, rfl⟩
        · exact .inr (.inl ⟨_, _, rfl⟩)

def plainPrimitives : Primitives where
  upper := Char.toUpper
  lower := Char.toLower
  hmacSHA1 _ _ := Vector.replicate 20 0
  hashRefreshToken text := "hash of " ++ text
  compareHashAndPassword hash password := hash == "hash of " ++ password
  encrypt nonce secret := nonce ++ secret
  decrypt _ := none
  generateFromPassword password := some ("hash of " ++ password)
  validatePassword _ _ := ""
  agentKeyHash key := "hash of " ++ key
  refreshExpiry := 7 * 24 * 60 * 60 * 10 ^ 9

def admin : Person := ⟨⟨.dashboard, ⟨2⟩⟩, none, "admin@example.com", "", "active"⟩

end Aavishield.Credentials
