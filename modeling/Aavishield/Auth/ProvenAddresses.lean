import Aavishield.Auth.Registration
import Aavishield.Auth.SecondFactor

/-!
# Proven addresses

Which runs of the registration endpoints leave every address with one account at most, and every
account with a code that was mailed to its address and accepted.
-/

namespace Aavishield.Registration

open Auth (address)
open Dataplane (HasID Table)
open TransitionSystem

variable (env : Primitives)

/-- The account came from a code that was mailed to its address and accepted; it has the password
of that registration, and the policy has nothing against the password. -/
def Vouched (history : List Deed) (user : User) : Prop :=
  ∃ code password salt, .opened user.id (some code) ∈ history ∧ .accepted code ∈ history ∧
    registered code history = some (user.email, password) ∧
    env.generateFromPassword salt password = some user.passwordHash ∧
    validatePassword env password user.email = ""

/-- No two users have one address, whatever its case. -/
def OneEach (users : Table User) : Prop :=
  ∀ first ∈ users.rows, ∀ second ∈ users.rows,
    lowered env first.email = lowered env second.email → first.id = second.id

/-- The accounts that were there before the run are not asked for a code. -/
structure Sound (seeded : Table User) (db : Database) : Prop where
  oneEach : OneEach env db.users
  proven : ∀ user ∈ db.users.rows, user ∈ seeded.rows ∨ Vouched env db.history user

/-- No account has the address yet, and the password of the registration is good enough. -/
structure MayOpen (db : Database) (otp : OTP) : Prop where
  free : ∀ user ∈ db.users.rows, lowered env user.email ≠ lowered env otp.email
  acceptable : ∀ password, registered otp.id db.history = some (otp.email, password) →
    validatePassword env password otp.email = ""

/-- A transaction of `Register` does not go through, and one of `VerifyRegistration` only if the
account may be opened. -/
def CarefulCall (db : Database) (works : Bool) (draw : Draw) : Call → Prop
  | .register (some _) (.creating slug _) => ¬(works = true ∧ db.admits slug draw = true)
  | .verifyRegistration _ (.creating otp slug) =>
    works = true ∧ db.admits slug draw = true → MayOpen env db otp
  | _ => True

/-- Every transaction that opens an account may do so. -/
def Careful (world : World) : Action → Prop
  | .advance number works draw =>
    ∀ call, world.calls number = some call → CarefulCall env world.db works draw call
  | _ => True

def Traced (history : List Deed) (otp : OTP) : Prop :=
  ∃ password salt, registered otp.id history = some (otp.email, password) ∧
    env.generateFromPassword salt password = some otp.payload.passwordHash

def Call.Traced (history : List Deed) : Call → Prop
  | .startRegistration (some request) (.retiring hashed)
  | .startRegistration (some request) (.creating hashed _) =>
    ∃ salt, env.generateFromPassword salt request.password = some hashed
  | .resendRegistration (some requested) (.cooling pending)
  | .resendRegistration (some requested) (.retiring pending)
  | .resendRegistration (some requested) (.creating pending _) =>
    pending.email = address env.toPrimitives requested ∧
      Registration.Traced env history pending
  | .verifyRegistration _ (.counting otp) | .verifyRegistration _ (.consuming otp) =>
    Registration.Traced env history otp
  | .verifyRegistration _ (.checking otp) | .verifyRegistration _ (.slugging otp _ _)
  | .verifyRegistration _ (.creating otp _) =>
    Registration.Traced env history otp ∧ .accepted otp.id ∈ history
  | _ => True

structure Kept (seeded : Table User) (world : World) : Prop where
  users : ∀ user ∈ seeded.rows, user ∈ world.db.users.rows
  opened : ∀ id code, .opened id code ∈ world.db.history → world.db.users.Holds id
  mailed : ∀ id email password, .mailed id email password ∈ world.db.history →
    world.db.otps.Holds id
  rows : ∀ otp ∈ world.db.otps.rows, Traced env world.db.history otp
  calls : ∀ number call, world.calls number = some call → call.Traced env world.db.history

variable {env : Primitives} {seeded : Table User} {world next final : World}
variable {db after : Database} {call later : Call} {works : Bool} {draw : Draw} {otp : OTP}
variable {history : List Deed} {code : UUID} {email password : String} {trace : List Action}

theorem registered_mailed_self :
    registered code (.mailed code email password :: history) = some (email, password) := by
  simp [registered]

theorem registered_mailed_of_ne {other : UUID} (different : other ≠ code) :
    registered code (.mailed other email password :: history) = registered code history := by
  simp [registered, different]

theorem mailed_of_registered (known : registered code history = some (email, password)) :
    .mailed code email password ∈ history := by
  obtain ⟨deed, mem, named⟩ := List.exists_of_findSome?_eq_some known
  cases deed with
  | mailed other address secret =>
    simp only [Option.ite_none_right_eq_some, Option.some.injEq, Prod.mk.injEq] at named
    rcases named with ⟨rfl, rfl, rfl⟩
    exact mem
  | accepted | opened => simp at named

structure Grows (before after : List Deed) : Prop where
  deeds : ∀ deed ∈ before, deed ∈ after
  registered : ∀ code found, registered code before = some found → registered code after = some found

theorem Grows.refl (history : List Deed) : Grows history history :=
  ⟨fun _ mem => mem, fun _ _ known => known⟩

theorem grows_accepted : Grows history (.accepted code :: history) :=
  ⟨fun _ mem => List.mem_cons_of_mem _ mem, fun _ _ known => known⟩

theorem grows_opened {user : UUID} {code : Option UUID} : Grows history (.opened user code :: history) :=
  ⟨fun _ mem => List.mem_cons_of_mem _ mem, fun _ _ known => known⟩

theorem grows_mailed (new : ∀ email password, .mailed code email password ∉ history) :
    Grows history (.mailed code email password :: history) where
  deeds _ mem := List.mem_cons_of_mem _ mem
  registered other found known := by
    have different : code ≠ other := by
      rintro rfl
      exact new _ _ (mailed_of_registered known)
    rw [registered_mailed_of_ne different, known]

theorem Traced.mono {later : List Deed} (grows : Grows history later)
    (traced : Traced env history otp) : Traced env later otp := by
  rcases traced with ⟨password, salt, known, hashed⟩
  exact ⟨password, salt, grows.registered _ _ known, hashed⟩

theorem Call.Traced.mono {later : List Deed} (grows : Grows history later)
    (traced : call.Traced env history) : call.Traced env later := by
  unfold Call.Traced at traced ⊢
  split at traced <;> first
    | trivial
    | exact traced
    | exact traced.mono grows
    | exact ⟨traced.1, traced.2.mono grows⟩
    | exact ⟨traced.1.mono grows, grows.deeds _ traced.2⟩

theorem Vouched.mono {later : List Deed} {user : User} (grows : Grows history later)
    (vouched : Vouched env history user) : Vouched env later user := by
  rcases vouched with ⟨code, password, salt, opened, accepted, known, hashed, acceptable⟩
  exact ⟨code, password, salt, grows.deeds _ opened, grows.deeds _ accepted,
    grows.registered _ _ known, hashed, acceptable⟩

theorem mem_of_newest {otps : List OTP} (found : Database.newest otps = some otp) : otp ∈ otps := by
  obtain ⟨_, -, same⟩ := Option.bind_eq_some_iff.mp found
  exact List.mem_of_find?_eq_some same

inductive Advance (env : Primitives) (db : Database) (works : Bool) (draw : Draw) :
    Call → Call → Database → Prop where
  | quiet {call later : Call} (careful : CarefulCall env db works draw call)
      (traced : (∀ otp ∈ db.otps.rows, Traced env db.history otp) →
        call.Traced env db.history → later.Traced env db.history) :
      Advance env db works draw call later db
  | rewritten {call later : Call} (rewrite : OTP → OTP)
      (keeps : ∀ otp, HasID.id (rewrite otp) = HasID.id otp)
      (same : ∀ otp, (rewrite otp).email = otp.email ∧ (rewrite otp).payload = otp.payload)
      (careful : CarefulCall env db works draw call)
      (traced : call.Traced env db.history → later.Traced env db.history) :
      Advance env db works draw call later { db with otps := db.otps.update rewrite keeps }
  | consumed (body : Option (String × String)) (otp : OTP) :
      Advance env db works draw (.verifyRegistration body (.consuming otp))
        (Database.afterCode body otp) (db.consume otp)
  | issued {call : Call} (email password : String) (payload : Payload) (started : ℤ)
      (careful : CarefulCall env db works draw call) (fresh : ¬db.otps.Holds draw.id)
      (traced : call.Traced env db.history →
        ∃ salt, env.generateFromPassword salt password = some payload.passwordHash) :
      Advance env db works draw call .done
        (db.issue env email payload password started draw)
  | opened {call : Call} (email slug : String) (details : Payload) (code : Option UUID)
      (succeeds : works = true ∧ db.admits slug draw = true)
      (origin : (∃ request hashed, code = none ∧ call = .register (some request) (.creating slug hashed)) ∨
        ∃ body otp, code = some otp.id ∧ email = otp.email ∧ details = otp.payload ∧
          call = .verifyRegistration body (.creating otp slug)) :
      Advance env db works draw call .done (db.createAccount email slug details code draw)

theorem same_retired (otp : OTP) :
    (if otp.pending email otpPurposeRegister then { otp with consumedAt := some db.now }
      else otp).email = otp.email ∧
    (if otp.pending email otpPurposeRegister then { otp with consumedAt := some db.now }
      else otp).payload = otp.payload := by
  split_ifs <;> exact ⟨rfl, rfl⟩

theorem same_counted (other : OTP) :
    (if other.id = otp.id then { other with attempts := otp.attempts + 1 } else other).email =
      other.email ∧
    (if other.id = otp.id then { other with attempts := otp.attempts + 1 } else other).payload =
      other.payload := by
  split_ifs <;> exact ⟨rfl, rfl⟩

theorem same_consumed (other : OTP) :
    (if other.id = otp.id ∧ other.consumedAt.isNone then { other with consumedAt := some db.now }
      else other).email = other.email ∧
    (if other.id = otp.id ∧ other.consumedAt.isNone then { other with consumedAt := some db.now }
      else other).payload = other.payload := by
  split_ifs <;> exact ⟨rfl, rfl⟩

theorem advance_register (body : Option RegisterRequest) (phase : RegisterPhase) :
    Advance env db works draw (.register body phase)
      (db.register env body works draw phase).1
      (db.register env body works draw phase).2 := by
  cases phase with
  | checking =>
    simp only [Database.register]
    split
    · exact .quiet (by cases body <;> trivial) fun _ _ => trivial
    · split_ifs <;> exact .quiet (by cases body <;> trivial) fun _ _ => trivial
  | slugging slug number =>
    simp only [Database.register]
    split
    · exact .quiet trivial fun _ _ => trivial
    · split_ifs
      · exact .quiet trivial fun _ _ => trivial
      · split <;> exact .quiet trivial fun _ _ => trivial
  | creating slug hashed =>
    simp only [Database.register]
    split
    · exact .quiet trivial fun _ _ => trivial
    · split_ifs with succeeds
      · exact .opened _ slug _ none succeeds (.inl ⟨_, hashed, rfl, rfl⟩)
      · exact .quiet succeeds fun _ _ => trivial

theorem advance_startRegistration (body : Option RegisterRequest) (phase : StartPhase) :
    Advance env db works draw (.startRegistration body phase)
      (db.startRegistration env body works draw phase).1
      (db.startRegistration env body works draw phase).2 := by
  cases body with
  | none => exact .quiet trivial fun _ _ => trivial
  | some request =>
    cases phase with
    | checking =>
      simp only [Database.startRegistration]
      split_ifs <;> exact .quiet trivial fun _ _ => trivial
    | cooling =>
      simp only [Database.startRegistration]
      split
      · exact .quiet trivial fun _ _ => trivial
      · split
        · exact .quiet trivial fun _ _ => trivial
        · next hashed secured => exact .quiet trivial fun _ _ => ⟨draw.salt, secured⟩
    | retiring hashed =>
      simp only [Database.startRegistration]
      split_ifs
      · exact .rewritten _ _ same_retired trivial id
      · exact .quiet trivial fun _ traced => traced
    | creating hashed started =>
      simp only [Database.startRegistration]
      split_ifs with succeeds
      · exact .issued _ _ _ started trivial succeeds.2 id
      · exact .quiet trivial fun _ _ => trivial

theorem advance_resendRegistration (body : Option String) (phase : ResendPhase) :
    Advance env db works draw (.resendRegistration body phase)
      (db.resendRegistration env body works draw phase).1
      (db.resendRegistration env body works draw phase).2 := by
  cases body with
  | none => exact .quiet trivial fun _ _ => trivial
  | some requested =>
    cases phase with
    | finding =>
      simp only [Database.resendRegistration]
      split
      · exact .quiet trivial fun _ _ => trivial
      · split
        · exact .quiet trivial fun _ _ => trivial
        · next pending found =>
            have row : pending ∈ db.codesFor (address env.toPrimitives requested) := by
              split_ifs at found
              · exact mem_of_newest found
              · exact absurd (mem_of_newest found) List.not_mem_nil
            simp only [Database.codesFor, List.mem_filter, Bool.and_eq_true, beq_iff_eq] at row
            exact .quiet trivial fun rows _ => ⟨row.2.1, rows pending row.1⟩
    | cooling pending =>
      simp only [Database.resendRegistration]
      split
      · exact .quiet trivial fun _ _ => trivial
      · exact .quiet trivial fun _ traced => traced
    | retiring pending =>
      simp only [Database.resendRegistration]
      split_ifs
      · exact .rewritten _ _ same_retired trivial id
      · exact .quiet trivial fun _ traced => traced
    | creating pending started =>
      simp only [Database.resendRegistration]
      split_ifs with succeeds
      · refine .issued _ _ _ started trivial succeeds.2 ?_
        rintro ⟨-, password, salt, known, hashed⟩
        simpa [known] using ⟨salt, hashed⟩
      · exact .quiet trivial fun _ _ => trivial

theorem advance_verifyRegistration (body : Option (String × String)) (phase : VerifyPhase) :
    Advance env db works draw (.verifyRegistration body phase)
      (db.verifyRegistration env body works draw phase).1
      (db.verifyRegistration env body works draw phase).2 := by
  cases phase with
  | choosing =>
    simp only [Database.verifyRegistration]
    split
    · exact .quiet trivial fun _ _ => trivial
    · split
      · exact .quiet trivial fun _ _ => trivial
      · split
        · exact .quiet trivial fun _ _ => trivial
        · next otp found =>
            have row : otp ∈ db.otps.rows := by
              split_ifs at found
              · exact List.mem_of_mem_filter (mem_of_newest found)
              · exact absurd (mem_of_newest found) List.not_mem_nil
            split_ifs
            · exact .quiet trivial fun _ _ => trivial
            · exact .quiet trivial fun _ _ => trivial
            · exact .quiet trivial fun rows _ => rows otp row
            · exact .quiet trivial fun rows _ => rows otp row
  | counting otp =>
    simp only [Database.verifyRegistration]
    split_ifs
    all_goals first
      | exact .rewritten _ _ same_counted trivial fun _ => trivial
      | exact .quiet trivial fun _ _ => trivial
  | consuming otp =>
    simp only [Database.verifyRegistration]
    split_ifs
    · exact .consumed body otp
    · exact .quiet trivial fun _ _ => trivial
  | checking otp =>
    simp only [Database.verifyRegistration]
    split_ifs
    · exact .quiet trivial fun _ _ => trivial
    · exact .quiet trivial fun _ _ => trivial
    · exact .quiet trivial fun _ traced => traced
  | slugging otp slug number =>
    simp only [Database.verifyRegistration]
    split_ifs <;> exact .quiet trivial fun _ traced => ⟨traced.1, traced.2⟩
  | creating otp slug =>
    simp only [Database.verifyRegistration]
    split_ifs with succeeds
    · exact .opened _ slug _ _ succeeds (.inr ⟨body, otp, rfl, rfl, rfl, rfl⟩)
    · have careful : CarefulCall env db works draw
          (.verifyRegistration body (.creating otp slug)) := by
        intro goesThrough
        exact absurd goesThrough succeeds
      exact .quiet careful fun _ _ => trivial

theorem advance_cases (db : Database) (works : Bool) (draw : Draw) (call : Call) :
    Advance env db works draw call (db.advance env works draw call).1
      (db.advance env works draw call).2 := by
  cases call with
  | finished answer => exact .quiet trivial fun _ _ => trivial
  | register body phase => exact advance_register body phase
  | startRegistration body phase => exact advance_startRegistration body phase
  | resendRegistration body phase => exact advance_resendRegistration body phase
  | verifyRegistration body phase => exact advance_verifyRegistration body phase

theorem grows_advance (moved : Advance env db works draw call later after)
    (mailed : ∀ id email password, .mailed id email password ∈ db.history → db.otps.Holds id) :
    Grows db.history after.history := by
  cases moved with
  | quiet | rewritten => exact Grows.refl db.history
  | consumed => exact grows_accepted
  | issued email password payload started careful fresh =>
    exact grows_mailed fun email password mem => fresh (mailed _ email password mem)
  | opened => exact grows_opened

theorem traced_update {otps : Table OTP} {rewrite : OTP → OTP}
    (keeps : ∀ otp, HasID.id (rewrite otp) = HasID.id otp)
    (same : ∀ otp, (rewrite otp).email = otp.email ∧ (rewrite otp).payload = otp.payload)
    (traced : ∀ otp ∈ otps.rows, Traced env history otp) :
    ∀ otp ∈ (otps.update rewrite keeps).rows, Traced env history otp := by
  intro otp mem
  obtain ⟨old, oldMem, rfl⟩ := List.mem_map.mp mem
  have sameID : (rewrite old).id = old.id := keeps old
  rw [Traced, sameID, (same old).1, (same old).2]
  exact traced old oldMem

theorem traced_afterCode {body : Option (String × String)} (traced : Traced env history otp)
    (accepted : .accepted otp.id ∈ history) :
    (Database.afterCode body otp).Traced env history := by
  unfold Database.afterCode
  split_ifs
  · trivial
  · exact ⟨traced, accepted⟩

theorem traced_of_isNew (isNew : call.isNew = true) : call.Traced env history := by
  unfold Call.isNew at isNew
  split at isNew
  · trivial
  · next body => cases body <;> trivial
  · next email => cases email <;> trivial
  · trivial
  · simp at isNew

theorem kept_advance {calls : ℕ → Option Call} {number : ℕ}
    (kept : Kept env seeded ⟨db, calls⟩) (found : calls number = some call)
    (moved : Advance env db works draw call later after) :
    Kept env seeded ⟨after, Function.update calls number (some later)⟩ := by
  have grows : Grows db.history after.history := grows_advance moved kept.mailed
  have others : later.Traced env after.history → ∀ which other,
      Function.update calls number (some later) which = some other →
        other.Traced env after.history := by
    intro traced which other there
    by_cases same : which = number
    · subst same
      simp only [Function.update_self, Option.some.injEq] at there
      exact there ▸ traced
    · rw [Function.update_of_ne same] at there
      exact (kept.calls which other there).mono grows
  cases moved with
  | quiet careful traced =>
    exact ⟨kept.users, kept.opened, kept.mailed, kept.rows,
      others (traced kept.rows (kept.calls number call found))⟩
  | rewritten rewrite keeps same careful traced =>
    refine ⟨kept.users, kept.opened, ?_, ?_, others (traced (kept.calls number call found))⟩
    · intro id email password mem
      simpa using kept.mailed id email password mem
    · exact traced_update keeps same kept.rows
  | consumed body otp =>
    have traced : Traced env (.accepted otp.id :: db.history) otp :=
      (show Traced env db.history otp from kept.calls number _ found).mono grows
    refine ⟨kept.users, ?_, ?_, ?_, others (traced_afterCode traced List.mem_cons_self)⟩
    · intro id code mem
      exact kept.opened id code (by simpa [Database.consume, Database.record] using mem)
    · intro id email password mem
      simp only [Database.consume, Database.record, List.mem_cons, reduceCtorEq, false_or] at mem
      simpa [Database.consume, Database.record] using kept.mailed id email password mem
    · refine traced_update (fun other => ?_) same_consumed
        fun other mem => (kept.rows other mem).mono grows
      dsimp only [HasID.id]
      split <;> rfl
  | issued email password payload started careful fresh traced =>
    obtain ⟨salt, secured⟩ := traced (kept.calls number call found)
    refine ⟨kept.users, ?_, ?_, ?_, others trivial⟩
    · intro id code mem
      exact kept.opened id code (by simpa [Database.issue, Database.record] using mem)
    · intro id address secret mem
      simp only [Database.issue, Database.record, List.mem_cons, Deed.mailed.injEq] at mem
      rcases mem with ⟨rfl, -, -⟩ | before
      · exact Table.holds_insert.mpr (.inl rfl)
      · exact Table.holds_insert.mpr (.inr (kept.mailed id address secret before))
    · intro otp mem
      rcases (Table.mem_insert_of_new (by exact fresh)).mp mem with rfl | before
      · exact ⟨password, salt, registered_mailed_self, secured⟩
      · exact (kept.rows otp before).mono grows
  | opened email slug details code succeeds origin =>
    refine ⟨?_, ?_, ?_, ?_, others trivial⟩
    · intro user mem
      exact Table.mem_insert_of_mem (kept.users user mem)
    · intro id other mem
      simp only [Database.createAccount, Database.record, List.mem_cons, Deed.opened.injEq] at mem
      rcases mem with ⟨rfl, -⟩ | before
      · exact Table.holds_insert.mpr (.inl rfl)
      · exact Table.holds_insert.mpr (.inr (kept.opened id other before))
    · intro id address secret mem
      exact kept.mailed id address secret
        (by simpa [Database.createAccount, Database.record] using mem)
    · intro otp mem
      exact (kept.rows otp mem).mono grows

theorem kept_step {action : Action} (kept : Kept env seeded world)
    (stepped : world.step env action = some next) : Kept env seeded next := by
  cases action with
  | begin number asked =>
    simp only [World.step, Option.ite_none_right_eq_some, Option.some.injEq] at stepped
    rcases stepped with ⟨⟨-, isNew⟩, rfl⟩
    refine ⟨kept.users, kept.opened, kept.mailed, kept.rows, ?_⟩
    intro which call there
    by_cases same : which = number
    · subst same
      simp only [Function.update_self, Option.some.injEq] at there
      exact there ▸ traced_of_isNew isNew
    · simp only [Function.update_of_ne same] at there
      exact kept.calls which call there
  | advance number works draw =>
    rcases Option.map_eq_some_iff.mp stepped with ⟨call, found, rfl⟩
    exact kept_advance kept found (advance_cases world.db works draw call)
  | tick elapsed =>
    simp only [World.step, Option.some.injEq] at stepped
    subst stepped
    exact ⟨kept.users, kept.opened, kept.mailed, kept.rows, kept.calls⟩

theorem Sound.mono (sound : Sound env seeded db) (users : after.users = db.users)
    (grows : Grows db.history after.history) : Sound env seeded after where
  oneEach := by simpa only [users] using sound.oneEach
  proven user mem := (sound.proven user (users ▸ mem)).imp_right (Vouched.mono grows)

theorem fresh_of_admits {slug : String} (admitted : db.admits slug draw = true) :
    ¬db.users.Holds draw.id := by
  simp only [Database.admits, Bool.and_eq_true, decide_eq_true_eq] at admitted
  exact admitted.2

section Opened

variable {slug : String} {details : Payload} {origin : Option UUID}

theorem mem_createAccount {user : User} (admitted : db.admits slug draw = true) :
    user ∈ (db.createAccount email slug details origin draw).users.rows ↔
      user = Database.administrator email details draw ∨ user ∈ db.users.rows := by
  have fresh : ¬db.users.Holds (Database.administrator email details draw).id :=
    fresh_of_admits admitted
  exact Table.mem_insert_of_new fresh

theorem origin_of_proven (kept : Kept env seeded world)
    (admitted : world.db.admits slug draw = true)
    (proven : Database.administrator email details draw ∈ seeded.rows ∨
      Vouched env (world.db.createAccount email slug details origin draw).history
        (Database.administrator email details draw)) :
    ∃ code password, origin = some code ∧
      registered code world.db.history = some (email, password) ∧
      validatePassword env password email = "" := by
  have fresh : ¬world.db.users.Holds draw.id := fresh_of_admits admitted
  rcases proven with old | ⟨code, password, salt, opened, -, known, -, acceptable⟩
  · exact absurd (Table.holds_of_mem (kept.users _ old)) fresh
  · simp only [Database.createAccount, Database.record, List.mem_cons, Deed.opened.injEq] at opened
    rcases opened with ⟨-, same⟩ | before
    · exact ⟨code, password, same.symm, known, acceptable⟩
    · exact absurd (kept.opened _ _ before) fresh

theorem oneEach_createAccount (admitted : db.admits slug draw = true)
    (oneEach : OneEach env db.users) :
    OneEach env (db.createAccount email slug details origin draw).users ↔
      ∀ user ∈ db.users.rows, lowered env user.email ≠ lowered env email := by
  simp only [OneEach, mem_createAccount admitted]
  constructor
  · intro all user mem same
    apply fresh_of_admits admitted
    have sameID : user.id = draw.id := all user (.inr mem) _ (.inl rfl) same
    exact sameID ▸ Table.holds_of_mem mem
  · rintro free first (rfl | firstMem) second (rfl | secondMem) same
    · rfl
    · exact absurd same.symm (free second secondMem)
    · exact absurd same (free first firstMem)
    · exact oneEach first firstMem second secondMem same

end Opened

theorem sound_advance {calls : ℕ → Option Call} {number : ℕ}
    (kept : Kept env seeded ⟨db, calls⟩) (sound : Sound env seeded db)
    (found : calls number = some call) (moved : Advance env db works draw call later after) :
    Sound env seeded after ↔ CarefulCall env db works draw call := by
  have grows : Grows db.history after.history := grows_advance moved kept.mailed
  cases moved with
  | quiet careful => exact iff_of_true sound careful
  | rewritten _ _ _ careful | issued _ _ _ _ careful => exact iff_of_true (sound.mono rfl grows) careful
  | consumed => exact iff_of_true (sound.mono rfl grows) trivial
  | opened email slug details code succeeds origin =>
    have admitted : db.admits slug draw = true := succeeds.2
    rcases origin with ⟨request, hashed, rfl, rfl⟩ | ⟨body, otp, rfl, rfl, rfl, rfl⟩
    · refine iff_of_false ?_ (not_not_intro succeeds)
      intro after
      obtain ⟨code, -, none, -⟩ := origin_of_proven kept admitted
        (after.proven _ ((mem_createAccount admitted).mpr (.inl rfl)))
      simp at none
    · obtain ⟨⟨password, salt, known, hashed⟩, accepted⟩ := kept.calls number _ found
      constructor
      · intro after
        refine fun _ => ⟨(oneEach_createAccount admitted sound.oneEach).mp after.oneEach, ?_⟩
        obtain ⟨code, secret, same, ofCode, acceptable⟩ := origin_of_proven kept admitted
          (after.proven _ ((mem_createAccount admitted).mpr (.inl rfl)))
        intro other ofOther
        obtain rfl := Option.some.inj same
        obtain rfl := (Prod.mk.inj (Option.some.inj (ofCode.symm.trans ofOther))).2
        exact acceptable
      · intro careful
        have mayOpen : MayOpen env db otp := careful succeeds
        refine ⟨(oneEach_createAccount admitted sound.oneEach).mpr mayOpen.free, ?_⟩
        intro user mem
        rcases (mem_createAccount admitted).mp mem with rfl | before
        · exact .inr ⟨otp.id, password, salt, List.mem_cons_self, grows.deeds _ accepted, known,
            hashed, mayOpen.acceptable password known⟩
        · exact (sound.proven user before).imp_right (Vouched.mono grows)

theorem sound_step {action : Action} (kept : Kept env seeded world)
    (sound : Sound env seeded world.db) (stepped : world.step env action = some next) :
    Sound env seeded next.db ↔ Careful env world action := by
  cases action with
  | begin number asked =>
    simp only [World.step, Option.ite_none_right_eq_some, Option.some.injEq] at stepped
    rcases stepped with ⟨-, rfl⟩
    exact iff_of_true sound trivial
  | tick elapsed =>
    simp only [World.step, Option.some.injEq] at stepped
    subst stepped
    exact iff_of_true (sound.mono rfl (Grows.refl _)) trivial
  | advance number works draw =>
    rcases Option.map_eq_some_iff.mp stepped with ⟨call, found, rfl⟩
    simpa [Careful, found] using
      sound_advance kept sound found (advance_cases world.db works draw call)

theorem kept_initial (now : ℤ) (organizations : Table Organization) :
    Kept env seeded (.initial now seeded organizations) where
  users _ mem := mem
  opened _ _ mem := absurd mem List.not_mem_nil
  mailed _ _ _ mem := absurd mem List.not_mem_nil
  rows _ mem := absurd mem List.not_mem_nil
  calls _ _ there := absurd there (by simp [World.initial])

theorem sound_initial {now : ℤ} {organizations : Table Organization} :
    Sound env seeded (World.initial now seeded organizations).db ↔
      OneEach env seeded :=
  ⟨Sound.oneEach, fun oneEach => ⟨oneEach, fun _ mem => .inl mem⟩⟩

/-- All along a run an address has one account at most, and every account that was opened came
from a mailed code that was accepted, exactly if the accounts before the run had different
addresses and every statement of the run is careful. -/
theorem proven_iff_careful {now : ℤ} {organizations : Table Organization}
    (executed : exec (World.step env) (.initial now seeded organizations) trace = some final) :
    (∀ reached, Visits (World.step env) (.initial now seeded organizations) trace reached →
        Sound env seeded reached.db) ↔
      OneEach env seeded ∧
        AllSteps (World.step env) (Careful env) (.initial now seeded organizations)
          trace := by
  have runs : OneEach env seeded →
      ((∀ reached, Visits (World.step env) (.initial now seeded organizations) trace reached →
        Sound env seeded reached.db) ↔
      AllSteps (World.step env) (Careful env) (.initial now seeded organizations)
        trace) := by
    intro oneEach
    have preserved : ∀ before action next,
        Kept env seeded before ∧ Sound env seeded before.db →
        Careful env before action → before.step env action = some next →
        Kept env seeded next ∧ Sound env seeded next.db := by
      intro before action next holds careful stepped
      exact ⟨kept_step holds.1 stepped, (sound_step holds.1 holds.2 stepped).mpr careful⟩
    apply forall_visits_iff_allSteps (fun _ holds => holds.2) preserved
    · intro before action next holds stepped after
      exact (sound_step holds.1 holds.2 stepped).mp after
    · exact ⟨kept_initial now organizations, sound_initial.mpr oneEach⟩
    · exact executed
  constructor
  · intro always
    have oneEach : OneEach env seeded :=
      sound_initial.mp (always _ ⟨[], List.nil_prefix, rfl⟩)
    exact ⟨oneEach, (runs oneEach).mp always⟩
  · rintro ⟨oneEach, careful⟩
    exact (runs oneEach).mpr careful

def plainPrimitives : Primitives where
  toPrimitives := Auth.plainPrimitives
  generateFromPassword salt password := some (salt ++ password)
  isLower := Char.isLower
  isUpper := Char.isUpper
  isDigit := Char.isDigit
  pwnedCount := none
  isEmail email := email.toList.contains '@'
  bindingError := "invalid request"

def company : RegisterRequest where
  companyName := "Example Inc."
  firstName := "Ada"
  lastName := "Example"
  email := "Ada@example.com"
  password := "Correct-Horse-42"

def drawn (id : UUID) : Draw := ⟨id, id, "012345", "salt"⟩

def codeFirst : List Action :=
  .begin 0 (.startRegistration (some company) .checking) ::
    List.replicate 4 (.advance 0 true (drawn ⟨1⟩)) ++
  .begin 1 (.verifyRegistration (some ("ada@example.com", "012345")) .choosing) ::
    List.replicate 5 (.advance 1 true (drawn ⟨2⟩))

theorem proven_iff_careful_codeFirst :
    (∀ reached, Visits (World.step plainPrimitives) (.initial 0 .empty .empty) codeFirst reached →
        Sound plainPrimitives .empty reached.db) ↔
      OneEach plainPrimitives .empty ∧
        AllSteps (World.step plainPrimitives) (Careful plainPrimitives) (.initial 0 .empty .empty)
          codeFirst := by
  have runs : (exec (World.step plainPrimitives) (.initial 0 .empty .empty) codeFirst).isSome =
      true := by
    decide +kernel
  rcases Option.isSome_iff_exists.mp runs with ⟨final, executed⟩
  exact proven_iff_careful executed

def atOnce : List Action :=
  .begin 0 (.register (some company) .checking) ::
    List.replicate 3 (.advance 0 true (drawn ⟨1⟩))

/-- The direct endpoint asks for no code. -/
theorem not_alwaysProven : ¬∀ (final : World) (trace : List Action),
    exec (World.step plainPrimitives) (.initial 0 .empty .empty) trace = some final →
      Sound plainPrimitives .empty final.db := by
  intro always
  have opened : (exec (World.step plainPrimitives) (.initial 0 .empty .empty) atOnce).map
      (fun final => (final.db.users.rows.map User.email, final.db.history)) =
        some (["Ada@example.com"], [.opened ⟨1⟩ none]) := by
    decide +kernel
  rcases Option.map_eq_some_iff.mp opened with ⟨final, executed, left⟩
  obtain ⟨emails, history⟩ := Prod.mk.inj left
  have there : "Ada@example.com" ∈ final.db.users.rows.map User.email := by simp [emails]
  obtain ⟨user, mem, -⟩ := List.mem_map.mp there
  rcases (always final atOnce executed).proven user mem with old | ⟨code, _, _, -, accepted, -⟩
  · exact absurd old List.not_mem_nil
  · simp [history] at accepted

end Aavishield.Registration
