import Aavishield.Auth.CredentialSteps

/-!
# A new password ends sessions

A session is a sign-in with the refresh tokens that go back to it: a refresh hands its
session on.  An operation that sets a password ends the sessions that were there before it
if it revokes the tokens of the account, and if no refresh is under way as it does so.
-/

namespace Aavishield.Credentials

open Dataplane (HasID Table)
open TransitionSystem

/-- After a password was set, no session from before is continued but the exempt one. -/
def EndsSessions (world : World) : Prop :=
  ∀ session owner older, .exchanged session owner :: older <:+ world.db.history →
    ∀ number exempt before, .passwordSet number owner exempt :: before <:+ older →
      .passwordReturned number ∈ older → .signedIn session owner ∈ before →
        exempt = some session

def Request.refreshing : Request → Option RefreshToken
  | .refresh _ _ phase =>
    match phase with
    | .checking => none
    | .loading row | .rotating row | .minting row => some row
  | _ => none

def Request.ending : Request → Option Owner
  | .setPassword setter _ (.marking owner _ _) => if setter.revokes then some owner else none
  | .setPassword _ _ (.revoking owner) => some owner
  | _ => none

/-- The next step of a request leaves no session behind. -/
structure EndsOthers (world : World) (request : Request) (works : Bool) : Prop where
  /-- A password is set by an operation that revokes refresh tokens, or of an account that never
  signed in. -/
  revokes : ∀ setter password owner hash row,
    request = .setPassword setter password (.changing owner hash row) →
      setter.revokes = true ∨ ∀ session, .signedIn session owner ∉ world.db.history
  /-- Refresh tokens are revoked while no refresh of the account is under way. -/
  alone : ∀ setter password owner, request = .setPassword setter password (.revoking owner) →
    works = true ∧ ∀ number other row, world.requests number = some other →
      other.refreshing = some row → row.owner ≠ owner

/-- Every step that sets a password ends the other sessions. -/
def EndsAll (world : World) : Action → Prop
  | .advance number works _ =>
    ∀ request, world.requests number = some request → EndsOthers world request works
  | _ => True

def World.Carries (world : World) (session : ℕ) (owner : Owner) : Prop :=
  (∃ row ∈ world.db.refreshTokens.rows, row.session = session ∧ row.owner = owner) ∨
  ∃ number request row, world.requests number = some request ∧ request.refreshing = some row ∧
    row.session = session ∧ row.owner = owner

def World.Ends (world : World) (number : ℕ) (owner : Owner) : Prop :=
  ∃ request, world.requests number = some request ∧ request.ending = some owner

def World.HasFinished (world : World) (number : ℕ) : Prop :=
  ∃ answer spent, world.requests number = some (.finished answer spent)

structure Ordered (world : World) : Prop where
  begun : ∀ session owner, world.Carries session owner →
    .signedIn session owner ∈ world.db.history
  bounded : ∀ session owner, .signedIn session owner ∈ world.db.history →
    session < world.db.sessions
  ended : ∀ number owner exempt before,
    .passwordSet number owner exempt :: before <:+ world.db.history →
      world.Ends number owner ∨
        ∀ session, .signedIn session owner ∈ before → ¬world.Carries session owner
  returned : ∀ number, .passwordReturned number ∈ world.db.history → world.HasFinished number
  endsSessions : EndsSessions world

def Deed.isCalm : Deed → Bool
  | .issued _ | .enrolled .. | .reset .. | .impersonated .. => true
  | _ => false

theorem suffix_of_calm {deeds history older : List Deed} {deed : Deed}
    (calm : ∀ deed ∈ deeds, deed.isCalm = true) (isNot : deed.isCalm = false)
    (suffix : deed :: older <:+ deeds ++ history) : deed :: older <:+ history := by
  induction deeds with
  | nil => exact suffix
  | cons first rest ih =>
    apply ih
    · intro other otherMem
      exact calm other (List.mem_cons_of_mem _ otherMem)
    · rcases List.suffix_cons_iff.mp suffix with same | suffix
      · have isCalm := calm first List.mem_cons_self
        rw [← (List.cons.inj same).1, isNot] at isCalm
        exact absurd isCalm (by decide)
      · exact suffix

theorem mem_of_calm {deeds history : List Deed} {deed : Deed}
    (calm : ∀ deed ∈ deeds, deed.isCalm = true) (isNot : deed.isCalm = false)
    (deedMem : deed ∈ deeds ++ history) : deed ∈ history := by
  rcases List.mem_append.mp deedMem with isNew | before
  · have isCalm := calm deed isNew
    rw [isNot] at isCalm
    exact absurd isCalm (by decide)
  · exact before

structure Calm (world next : World) : Prop where
  carries : ∀ session owner, next.Carries session owner → world.Carries session owner
  sessions : next.db.sessions = world.db.sessions
  history : ∃ deeds, next.db.history = deeds ++ world.db.history ∧
    ∀ deed ∈ deeds, deed.isCalm = true
  ends : ∀ number owner, world.Ends number owner → next.Ends number owner
  finished : ∀ number, world.HasFinished number → next.HasFinished number

variable {env : Primitives} {world next : World}

theorem Ordered.calm (ordered : Ordered world) (calm : Calm world next) : Ordered next := by
  rcases calm.history with ⟨deeds, added, areCalm⟩
  have signedIn : ∀ session owner, .signedIn session owner ∈ next.db.history →
      .signedIn session owner ∈ world.db.history := by
    intro session owner signedMem
    rw [added] at signedMem
    exact mem_of_calm areCalm rfl signedMem
  constructor
  · intro session owner carried
    rw [added]
    exact List.mem_append_right _ (ordered.begun session owner (calm.carries session owner carried))
  · intro session owner signedMem
    rw [calm.sessions]
    exact ordered.bounded session owner (signedIn session owner signedMem)
  · intro number owner exempt before suffix
    rw [added] at suffix
    rcases ordered.ended number owner exempt before (suffix_of_calm areCalm rfl suffix) with
      ends | gone
    · exact .inl (calm.ends number owner ends)
    · right
      intro session signedMem carried
      exact gone session signedMem (calm.carries session owner carried)
  · intro number returnedMem
    rw [added] at returnedMem
    exact calm.finished number (ordered.returned number (mem_of_calm areCalm rfl returnedMem))
  · intro session owner older suffix
    rw [added] at suffix
    exact ordered.endsSessions session owner older (suffix_of_calm areCalm rfl suffix)

section Step

variable {db after : Database} {requests : ℕ → Option Request} {request later : Request}
variable {number : ℕ} {works : Bool} {draw : Draw}

section

variable (asked : requests number = some request)

include asked

theorem carries_of_step
    (rows : ∀ row ∈ after.refreshTokens.rows, ∃ old, (old ∈ db.refreshTokens.rows ∨
      request.refreshing = some old) ∧ old.session = row.session ∧ old.owner = row.owner)
    (refreshing : ∀ row, later.refreshing = some row →
      request.refreshing = some row ∨ row ∈ db.refreshTokens.rows) :
    ∀ session owner,
      World.Carries ⟨after, Function.update requests number (some later)⟩ session owner →
        World.Carries ⟨db, requests⟩ session owner := by
  have inUse : ∀ {row : RefreshToken}, request.refreshing = some row →
      World.Carries ⟨db, requests⟩ row.session row.owner :=
    fun {row} isUsed => .inr ⟨number, request, row, asked, isUsed, rfl, rfl⟩
  have isThere : ∀ {row : RefreshToken}, row ∈ db.refreshTokens.rows →
      World.Carries ⟨db, requests⟩ row.session row.owner :=
    fun {row} rowMem => .inl ⟨row, rowMem, rfl, rfl⟩
  rintro session owner (⟨row, rowMem, rfl, rfl⟩ | ⟨other, asker, row, isAsked, isUsed, rfl, rfl⟩)
  · rcases rows row rowMem with ⟨old, before, sameSession, sameOwner⟩
    rw [← sameSession, ← sameOwner]
    rcases before with oldMem | isUsed
    · exact isThere oldMem
    · exact inUse isUsed
  · rcases party_update isAsked with ⟨-, rfl⟩ | ⟨-, before⟩
    · rcases refreshing row isUsed with before | rowMem
      · exact inUse before
      · exact isThere rowMem
    · exact .inr ⟨other, asker, row, before, isUsed, rfl, rfl⟩

theorem calm_of_step
    (rows : ∀ row ∈ after.refreshTokens.rows, ∃ old, (old ∈ db.refreshTokens.rows ∨
      request.refreshing = some old) ∧ old.session = row.session ∧ old.owner = row.owner)
    (refreshing : ∀ row, later.refreshing = some row →
      request.refreshing = some row ∨ row ∈ db.refreshTokens.rows)
    (sessions : after.sessions = db.sessions)
    (history : ∃ deeds, after.history = deeds ++ db.history ∧
      ∀ deed ∈ deeds, deed.isCalm = true)
    (ending : ∀ owner, request.ending = some owner → later.ending = some owner)
    (finished : ∀ answer spent, request = .finished answer spent → later = request) :
    Calm ⟨db, requests⟩ ⟨after, Function.update requests number (some later)⟩ where
  carries := carries_of_step asked rows refreshing
  sessions := sessions
  history := history
  ends := by
    rintro other owner ⟨asker, isAsked, isEnding⟩
    by_cases same : other = number
    · subst same
      cases asked.symm.trans isAsked
      exact ⟨later, Function.update_self _ _ _, ending owner isEnding⟩
    · exact ⟨asker, (Function.update_of_ne same _ _).trans isAsked, isEnding⟩
  finished := by
    rintro other ⟨answer, spent, isFinished⟩
    by_cases same : other = number
    · subst same
      cases asked.symm.trans isFinished
      exact ⟨answer, spent, (Function.update_self _ _ _).trans
        (congrArg some (finished answer spent rfl))⟩
    · exact ⟨answer, spent, (Function.update_of_ne same _ _).trans isFinished⟩

theorem calm_of_still (noEnd : request.ending = none)
    (goesOn : ∀ answer spent, request ≠ .finished answer spent)
    (refreshing : ∀ row, later.refreshing = some row →
      request.refreshing = some row ∨ row ∈ db.refreshTokens.rows) :
    Calm ⟨db, requests⟩ ⟨db, Function.update requests number (some later)⟩ := by
  apply calm_of_step asked _ refreshing rfl ⟨[], rfl, by simp⟩ (by simp [noEnd])
  · exact fun answer spent isFinished => absurd isFinished (goesOn answer spent)
  · exact fun row rowMem => ⟨row, .inl rowMem, rfl, rfl⟩

theorem Apart.calm (apart : Apart db after later)
    (noEnd : request.ending = none)
    (finished : ∀ answer spent, request = .finished answer spent → later = request) :
    Calm ⟨db, requests⟩ ⟨after, Function.update requests number (some later)⟩ := by
  apply calm_of_step asked
  · intro row rowMem
    rw [apart.refreshTokens] at rowMem
    exact ⟨row, .inl rowMem, rfl, rfl⟩
  · intro row isUsed
    have isExchange := apart.request
    cases later with
    | refresh => simp [Request.isExchange] at isExchange
    | _ => simp [Request.refreshing] at isUsed
  · exact apart.sessions
  · rcases apart.history with ⟨deeds, added, exchanges⟩
    refine ⟨deeds, added, fun deed deedMem => ?_⟩
    have isExchange := exchanges deed deedMem
    cases deed <;> simp_all [Deed.isExchange, Deed.isCalm]
  · simp [noEnd]
  · exact finished

end

theorem not_ends_of_finished (finished : world.HasFinished number) (owner : Owner) :
    ¬world.Ends number owner := by
  rcases finished with ⟨answer, spent, isFinished⟩
  rintro ⟨request, asked, isEnding⟩
  cases asked.symm.trans isFinished
  simp [Request.ending] at isEnding

theorem Ordered.record {deed : Deed} (ordered : Ordered ⟨db, requests⟩)
    (noSignIn : ∀ session owner, .signedIn session owner ≠ deed)
    (exchanged : ∀ session owner, .exchanged session owner = deed →
      World.Carries ⟨db, requests⟩ session owner)
    (set : ∀ number owner exempt, .passwordSet number owner exempt = deed →
      World.Ends ⟨db, requests⟩ number owner ∨ ∀ session, .signedIn session owner ∉ db.history)
    (returned : ∀ number, .passwordReturned number = deed →
      World.HasFinished ⟨db, requests⟩ number) : Ordered ⟨db.record deed, requests⟩ where
  begun session owner carried := List.mem_cons_of_mem _ (ordered.begun session owner carried)
  bounded session owner signedMem :=
    ordered.bounded session owner (List.mem_of_ne_of_mem (noSignIn _ _) signedMem)
  ended number owner exempt before suffix := by
    rcases List.suffix_cons_iff.mp suffix with same | suffix
    · rcases List.cons.inj same with ⟨isDeed, rfl⟩
      rcases set number owner exempt isDeed with ends | never
      · exact .inl ends
      · right
        intro session signedMem
        exact absurd signedMem (never session)
    · exact ordered.ended number owner exempt before suffix
  returned number returnedMem := by
    rcases List.mem_cons.mp returnedMem with isDeed | returnedMem
    · exact returned number isDeed
    · exact ordered.returned number returnedMem
  endsSessions session owner older suffix number exempt before isSet returnedMem signedMem := by
    rcases List.suffix_cons_iff.mp suffix with same | suffix
    · rcases List.cons.inj same with ⟨isDeed, rfl⟩
      have finished := ordered.returned number returnedMem
      rcases ordered.ended number owner exempt before isSet with ends | gone
      · exact absurd ends (not_ends_of_finished finished owner)
      · exact absurd (exchanged session owner isDeed) (gone session signedMem)
    · exact ordered.endsSessions session owner older suffix number exempt before isSet returnedMem
        signedMem

theorem ordered_refresh {surface : Surface} {token : String} {phase : RefreshPhase}
    (ordered : Ordered ⟨db, requests⟩)
    (asked : requests number = some (.refresh surface token phase)) :
    Ordered ⟨(db.refresh env surface token works draw phase).2, Function.update requests
      number (some (db.refresh env surface token works draw phase).1)⟩ := by
  cases phase with
  | checking =>
    apply ordered.calm
    simp only [Database.refresh]
    split
    · exact calm_of_still asked rfl (by simp) (by simp [Request.refreshing, Request.failed])
    case h_2 row found =>
      split_ifs
      · exact calm_of_still asked rfl (by simp) (by simp [Request.refreshing, Request.failed])
      · refine calm_of_still asked rfl (by simp) ?_
        intro taken isTaken
        cases isTaken
        exact .inr (List.mem_of_find?_eq_some found)
  | loading row =>
    apply ordered.calm
    rw [Database.refresh]
    split
    case h_1 refused isRefused =>
      rcases refreshRefused_failed isRefused with ⟨failure, rfl⟩
      exact calm_of_still asked rfl (by simp) (by simp [Request.refreshing])
    case h_2 =>
      exact calm_of_still asked rfl (by simp) (fun _ => .inl)
  | rotating row =>
    apply ordered.calm
    simp only [Database.refresh]
    split_ifs
    · refine calm_of_step asked ?_ (fun _ => .inl) rfl ⟨[], rfl, by simp⟩
        (by simp [Request.ending]) (by simp)
      intro rotated rotatedMem
      rcases List.mem_map.mp rotatedMem with ⟨old, oldMem, rfl⟩
      refine ⟨old, .inl oldMem, ?_⟩
      split_ifs <;> exact ⟨rfl, rfl⟩
    · exact calm_of_still asked rfl (by simp) (fun _ => .inl)
  | minting row =>
    have exchanged : Ordered ⟨db.record (.exchanged row.session row.owner), requests⟩ := by
      apply ordered.record
      · simp
      · intro session owner same
        cases same
        exact .inr ⟨number, _, row, asked, rfl, rfl, rfl⟩
      · simp
      · simp
    simp only [Database.refresh]
    split
    case h_1 added isAdded =>
      rw [Option.ite_none_right_eq_some] at isAdded
      rcases exists_of_addRefreshToken isAdded.2 with ⟨fresh, sameSession, sameOwner, rfl⟩
      apply exchanged.calm
      refine calm_of_step asked ?_ (by simp [Request.refreshing, Request.done]) rfl
        ⟨[], rfl, by simp⟩ (by simp [Request.ending]) (by simp)
      intro minted mintedMem
      rcases Table.mem_insert mintedMem with ⟨rfl, -⟩ | oldMem
      · exact ⟨row, .inr rfl, sameSession.symm, sameOwner.symm⟩
      · exact ⟨minted, .inl oldMem, rfl, rfl⟩
    case h_2 =>
      apply exchanged.calm
      exact calm_of_step asked (fun minted mintedMem => ⟨minted, .inl mintedMem, rfl, rfl⟩)
        (by simp [Request.refreshing, Request.done]) rfl
        ⟨[], rfl, by simp⟩ (by simp [Request.ending]) (by simp)
    case h_3 =>
      apply ordered.calm
      exact calm_of_still asked rfl (by simp) (by simp [Request.refreshing, Request.failed])

section

variable (ordered : Ordered ⟨db, requests⟩)

include ordered

theorem ordered_revoking {setter : Setter} {password : String} {owner : Owner}
    (asked : requests number = some (.setPassword setter password (.revoking owner)))
    (alone : ∀ other asker row, requests other = some asker → asker.refreshing = some row →
      row.owner ≠ owner)
    (tokens : ∀ row ∈ after.refreshTokens.rows, row ∈ db.refreshTokens.rows ∧ row.owner ≠ owner)
    (sessions : after.sessions = db.sessions) (history : after.history = db.history) :
    Ordered ⟨after, Function.update requests number
      (some (.setPassword setter password .returning))⟩ := by
  have carries : ∀ session owner, World.Carries ⟨after, Function.update requests number
      (some (.setPassword setter password .returning))⟩ session owner →
        World.Carries ⟨db, requests⟩ session owner :=
    carries_of_step asked (fun row rowMem => ⟨row, .inl (tokens row rowMem).1, rfl, rfl⟩)
      (by simp [Request.refreshing])
  constructor
  · intro session other carried
    rw [history]
    exact ordered.begun session other (carries session other carried)
  · intro session other signedMem
    rw [history] at signedMem
    rw [sessions]
    exact ordered.bounded session other signedMem
  · intro other another exempt before suffix
    rw [history] at suffix
    rcases ordered.ended other another exempt before suffix with ⟨asker, isAsked, isEnding⟩ | gone
    · by_cases same : other = number
      · subst same
        cases asked.symm.trans isAsked
        cases isEnding
        right
        rintro session - (⟨row, rowMem, -, isOwner⟩ | ⟨one, user, row, isUser, isUsed, -, isOwner⟩)
        · exact (tokens row rowMem).2 isOwner
        · rcases party_update isUser with ⟨-, rfl⟩ | ⟨-, before⟩
          · simp [Request.refreshing] at isUsed
          · exact alone one user row before isUsed isOwner
      · exact .inl ⟨asker, (Function.update_of_ne same _ _).trans isAsked, isEnding⟩
    · right
      intro session signedMem carried
      exact gone session signedMem (carries session another carried)
  · intro other returnedMem
    rw [history] at returnedMem
    rcases ordered.returned other returnedMem with ⟨answer, spent, finished⟩
    have isOther : other ≠ number := by
      rintro rfl
      cases asked.symm.trans finished
    exact ⟨answer, spent, (Function.update_of_ne isOther _ _).trans finished⟩
  · intro session other older suffix
    rw [history] at suffix
    exact ordered.endsSessions session other older suffix

theorem ordered_changing {setter : Setter} {password hash : String} {owner : Owner}
    {row : Option PasswordResetToken}
    (asked : requests number = some (.setPassword setter password (.changing owner hash row)))
    (revokes : setter.revokes = true ∨ ∀ session, .signedIn session owner ∉ db.history)
    (noToken : later.refreshing = none)
    (ending : setter.revokes = true → later.ending = some owner) :
    Ordered ⟨(db.setPasswordHash owner hash).record (.passwordSet number owner setter.session),
      Function.update requests number (some later)⟩ := by
  have moved : Ordered ⟨db.setPasswordHash owner hash,
      Function.update requests number (some later)⟩ := by
    apply ordered.calm
    exact calm_of_step asked (fun row rowMem => ⟨row, .inl rowMem, rfl, rfl⟩) (by simp [noToken])
      rfl ⟨[], rfl, by simp⟩ (by simp [Request.ending]) (by simp)
  apply moved.record
  · simp
  · simp
  · intro other another exempt same
    cases same
    rcases revokes with revokes | never
    · exact .inl ⟨later, Function.update_self _ _ _, ending revokes⟩
    · exact .inr never
  · simp

theorem ordered_setPassword {setter : Setter} {password : String} {phase : PasswordPhase}
    (asked : requests number = some (.setPassword setter password phase))
    (ends : EndsOthers ⟨db, requests⟩ (.setPassword setter password phase) works) :
    Ordered ⟨(db.setPassword env number setter password works phase).2,
      Function.update requests number
        (some (db.setPassword env number setter password works phase).1)⟩ := by
  cases phase with
  | checking =>
    apply ordered.calm
    rw [Database.setPassword]
    rcases @checkSetter_cases env db setter password with
      ⟨answer, ended⟩ | ⟨owner, hash, known⟩ | ⟨surface, token, rfl, row, -, -, -, found⟩
    · rw [ended]
      exact calm_of_still asked rfl (by simp) (by simp [Request.refreshing])
    · rw [known]
      exact calm_of_still asked rfl (by simp) (by simp [Request.refreshing])
    · rw [found]
      exact calm_of_still asked rfl (by simp) (by simp [Request.refreshing])
  | validating row =>
    apply ordered.calm
    simp only [Database.setPassword]
    split_ifs
    · exact calm_of_still asked rfl (by simp) (by simp [Request.refreshing, Request.failed])
    · split
      · exact calm_of_still asked rfl (by simp) (by simp [Request.refreshing, Request.failed])
      · exact calm_of_still asked rfl (by simp) (by simp [Request.refreshing])
  | changing owner hash row =>
    have revokes := ends.revokes setter password owner hash row rfl
    rcases row with _ | row
    · cases works with
      | true =>
        apply ordered_changing ordered asked revokes rfl
        intro isRevoking
        simp [Database.setPassword, Request.ending, isRevoking]
      | false =>
        apply ordered.calm
        exact calm_of_still asked rfl (by simp) (by simp [Database.setPassword, Request.refreshing])
    · cases works with
      | true =>
        have set : Ordered
            ⟨(db.setPasswordHash owner hash).record (.passwordSet number owner setter.session),
              Function.update requests number
                (some (.setPassword setter password (.marking owner row true)))⟩ :=
          ordered_changing ordered asked revokes rfl fun isRevoking => if_pos isRevoking
        apply set.record
        · simp
        · simp
        · simp
        · simp
      | false =>
        apply ordered.calm
        exact calm_of_still asked rfl (by simp) (by simp [Database.setPassword, Request.refreshing])
  | marking owner row changed =>
    apply ordered.calm
    have ending : ∀ account,
        (Request.setPassword setter password (.marking owner row changed)).ending = some account →
          (Request.setPassword setter password
            (if setter.revokes then .revoking owner else .returning)).ending = some account := by
      intro account isEnding
      simp only [Request.ending, Option.ite_none_right_eq_some] at isEnding
      simp [Request.ending, isEnding]
    cases works with
    | true | false =>
      exact calm_of_step asked (fun kept keptMem => ⟨kept, .inl keptMem, rfl, rfl⟩)
        (by simp [Database.setPassword, Request.refreshing]) rfl ⟨[], rfl, by simp⟩ ending
        (by simp)
  | revoking owner =>
    rcases ends.alone setter password owner rfl with ⟨isWorking, alone⟩
    rw [Database.setPassword, if_pos isWorking]
    apply ordered_revoking ordered asked alone
    · intro row rowMem
      simpa using List.mem_filter.mp rowMem
    · rfl
    · rfl
  | returning =>
    have finished : Ordered ⟨db, Function.update requests number (some .done)⟩ := by
      apply ordered.calm
      exact calm_of_still asked rfl (by simp) (by simp [Request.refreshing, Request.done])
    apply finished.record
    · simp
    · simp
    · simp
    · intro other same
      cases same
      exact ⟨_, _, Function.update_self _ _ _⟩

theorem ordered_advance (asked : requests number = some request)
    (ends : EndsOthers ⟨db, requests⟩ request works) :
    Ordered ⟨(db.advance env number works draw request).2, Function.update requests number
      (some (db.advance env number works draw request).1)⟩ := by
  cases request with
  | enroll request phase =>
    exact ordered.calm ((apart_enroll request phase).calm asked rfl (by simp))
  | setPassword setter password phase => exact ordered_setPassword ordered asked ends
  | impersonateConsume code phase =>
    exact ordered.calm ((apart_impersonateConsume code phase).calm asked rfl (by simp))
  | refresh surface token phase => exact ordered_refresh ordered asked
  | finished answer spent =>
    exact ordered.calm ((Apart.quiet rfl).calm asked rfl (fun _ _ _ => rfl))

end

theorem calm_begin (isFree : requests number = none) (isNew : request.isNew = true) :
    Calm ⟨db, requests⟩ ⟨db, Function.update requests number (some request)⟩ where
  carries := by
    rintro session owner (⟨row, rowMem, same⟩ | ⟨other, asker, row, isAsked, isUsed, same⟩)
    · exact .inl ⟨row, rowMem, same⟩
    · rcases party_update isAsked with ⟨-, rfl⟩ | ⟨-, before⟩
      · rcases asker with ⟨_, _⟩ | ⟨_, _, _⟩ | ⟨_, _⟩ | ⟨_, _, _ | _ | _ | _⟩ | ⟨_, _⟩
        all_goals simp_all [Request.refreshing, Request.isNew]
      · exact .inr ⟨other, asker, row, before, isUsed, same⟩
  sessions := rfl
  history := ⟨[], rfl, by simp⟩
  ends := by
    rintro other owner ⟨asker, isAsked, isEnding⟩
    have isOther : other ≠ number := by
      rintro rfl
      cases isFree.symm.trans isAsked
    exact ⟨asker, (Function.update_of_ne isOther _ _).trans isAsked, isEnding⟩
  finished := by
    rintro other ⟨answer, spent, isFinished⟩
    have isOther : other ≠ number := by
      rintro rfl
      cases isFree.symm.trans isFinished
    exact ⟨answer, spent, (Function.update_of_ne isOther _ _).trans isFinished⟩

theorem calm_beside (rows : ∀ row ∈ after.refreshTokens.rows, row ∈ db.refreshTokens.rows)
    (sessions : after.sessions = db.sessions)
    (history : ∃ deeds, after.history = deeds ++ db.history ∧
      ∀ deed ∈ deeds, deed.isCalm = true) : Calm ⟨db, requests⟩ ⟨after, requests⟩ where
  carries := by
    rintro session owner (⟨row, rowMem, same⟩ | used)
    · exact .inl ⟨row, rows row rowMem, same⟩
    · exact .inr used
  sessions := sessions
  history := history
  ends _ _ := id
  finished _ := id

end Step

variable {draw : Draw} {owner : Owner}

theorem ordered_signIn {db added : Database} {requests : ℕ → Option Request}
    (ordered : Ordered ⟨db, requests⟩)
    (isAdded : db.addRefreshToken env owner db.sessions draw = some added) :
    Ordered ⟨{ added with sessions := added.sessions + 1 }.record (.signedIn db.sessions owner),
      requests⟩ := by
  rcases exists_of_addRefreshToken isAdded with ⟨row, isSession, isOwner, rfl⟩
  have carries : ∀ session other, World.Carries
      ⟨{ db with
        refreshTokens := db.refreshTokens.insert row
        sessions := db.sessions + 1 }.record (.signedIn db.sessions owner), requests⟩ session other →
        session = db.sessions ∧ other = owner ∨ World.Carries ⟨db, requests⟩ session other := by
    rintro session other (⟨carrier, carrierMem, same⟩ | used)
    · rcases Table.mem_insert carrierMem with ⟨rfl, -⟩ | oldMem
      · left
        exact ⟨same.1.symm.trans isSession, same.2.symm.trans isOwner⟩
      · exact .inr (.inl ⟨carrier, oldMem, same⟩)
    · exact .inr (.inr used)
  constructor
  · intro session other carried
    rcases carries session other carried with ⟨rfl, rfl⟩ | before
    · exact List.mem_cons_self
    · exact List.mem_cons_of_mem _ (ordered.begun session other before)
  · intro session other signedMem
    rcases List.mem_cons.mp signedMem with same | before
    · cases same
      exact Nat.lt_succ_self _
    · exact Nat.lt_succ_of_lt (ordered.bounded session other before)
  · intro number other exempt before suffix
    rcases List.suffix_cons_iff.mp suffix with same | suffix
    · simp at same
    · rcases ordered.ended number other exempt before suffix with ends | gone
      · exact .inl ends
      · right
        intro session signedMem carried
        rcases carries session other carried with ⟨rfl, -⟩ | carriedBefore
        · have inHistory := suffix.subset (List.mem_cons_of_mem _ signedMem)
          exact absurd (ordered.bounded _ _ inHistory) (lt_irrefl _)
        · exact gone session signedMem carriedBefore
  · intro number returnedMem
    exact ordered.returned number (List.mem_of_ne_of_mem (by simp) returnedMem)
  · intro session other older suffix
    rcases List.suffix_cons_iff.mp suffix with same | suffix
    · simp at same
    · exact ordered.endsSessions session other older suffix

theorem calm_issue {credential : Credential} {fresh : Bool} {db : Database}
    (issued : world.issue credential fresh db = some next)
    (refreshTokens : db.refreshTokens = world.db.refreshTokens)
    (sessions : db.sessions = world.db.sessions) (history : db.history = world.db.history) :
    Calm world next := by
  rw [World.issue, Option.ite_none_right_eq_some, Option.some.injEq] at issued
  rcases issued with ⟨-, rfl⟩
  apply calm_beside
  · intro row rowMem
    rw [← refreshTokens]
    exact rowMem
  · exact sessions
  · exact ⟨[.issued credential], congrArg _ history, by simp [Deed.isCalm]⟩

theorem ordered_step {action : Action} (ordered : Ordered world) (ends : EndsAll world action)
    (stepped : world.step env action = some next) : Ordered next := by
  cases action with
  | begin number asked =>
    simp only [World.step, Option.ite_none_right_eq_some, Option.some.injEq,
      Option.isNone_iff_eq_none] at stepped
    rcases stepped with ⟨⟨isFree, isNew⟩, rfl⟩
    exact ordered.calm (calm_begin isFree isNew)
  | advance number works draw =>
    rw [World.step, Option.map_eq_some_iff] at stepped
    rcases stepped with ⟨request, asked, rfl⟩
    exact ordered_advance ordered asked (ends request asked)
  | issueEnrollmentToken row | issueResetToken row | issueImpersonationToken row => exact ordered.calm (calm_issue stepped rfl rfl rfl)
  | signIn owner draw =>
    rw [World.step, Option.map_eq_some_iff] at stepped
    rcases stepped with ⟨added, isAdded, rfl⟩
    exact ordered_signIn ordered isAdded
  | logout token =>
    cases stepped
    apply ordered.calm
    exact calm_beside (fun row rowMem => List.mem_of_mem_filter rowMem) rfl ⟨[], rfl, by simp⟩
  | changePeople people | tick elapsed =>
    cases stepped
    exact ordered.calm (calm_beside (fun _ => id) rfl ⟨[], rfl, by simp⟩)

variable {now : ℤ} {people : List Person} {devices : Table Device} {agentTokens : List AgentToken}

theorem ordered_initial : Ordered (World.initial now people devices agentTokens) where
  begun session owner carried := by
    rcases carried with ⟨row, rowMem, -⟩ | ⟨number, request, row, asked, -⟩
    · simp [World.initial, Table.empty] at rowMem
    · simp [World.initial] at asked
  bounded session owner signedMem := by simp [World.initial] at signedMem
  ended number owner exempt before suffix := by simp [World.initial] at suffix
  returned number returnedMem := by simp [World.initial] at returnedMem
  endsSessions session owner older suffix := by simp [World.initial] at suffix

/-- A new password ends the other sessions in every run that sets passwords only by operations
that revoke refresh tokens, or of accounts that never signed in, and that revokes them while no
refresh of the account is under way. -/
theorem endsSessions_of_endsAll {trace : List Action} {final : World}
    (ends : AllSteps (World.step env) EndsAll
      (World.initial now people devices agentTokens) trace)
    (executed : exec (World.step env) (World.initial now people devices agentTokens) trace =
      some final) : EndsSessions final := by
  have ordered : Ordered final := invariant_of_allSteps
    (fun _ _ _ ordered isEnding stepped => ordered_step ordered isEnding stepped) ordered_initial ends
    executed
  exact ordered.endsSessions

theorem endsAll_of_revokes {before : ℕ → Option Request} {number : ℕ} {setter : Setter}
    {password : String} {phase : PasswordPhase} (revokes : setter.revokes = true)
    (alone : ∀ other, other ≠ number → before other = none) (requests : world.requests =
      Function.update before number (some (.setPassword setter password phase))) :
    (∀ other, other ≠ number → world.requests other = none) ∧
      EndsAll world (.advance number true draw) := by
  have stillAlone : ∀ other, other ≠ number → world.requests other = none := by
    intro other isOther
    rw [requests, Function.update_of_ne isOther]
    exact alone other isOther
  have only : ∀ {other request}, world.requests other = some request →
      request = .setPassword setter password phase := by
    intro other request asked
    rw [requests] at asked
    rcases party_update asked with ⟨-, same⟩ | ⟨isOther, isBefore⟩
    · exact same
    · rw [alone other isOther] at isBefore
      simp at isBefore
  refine ⟨stillAlone, fun request asked => ?_⟩
  rw [only asked]
  constructor
  · intro other another owner hash row same
    cases same
    exact .inl revokes
  · intro other another owner same
    refine ⟨rfl, fun asker refresh row isAsked isUsed => ?_⟩
    rw [only isAsked] at isUsed
    simp [Request.refreshing] at isUsed

def adminChange : Setter := .changePassword admin.owner "old" none

def dashboardChange : List Action :=
  [.signIn admin.owner ⟨⟨1⟩, "token"⟩, .begin 0 (.setPassword adminChange "new" .checking),
    .advance 0 true ⟨⟨0⟩, ""⟩, .advance 0 true ⟨⟨0⟩, ""⟩, .advance 0 true ⟨⟨0⟩, ""⟩,
    .advance 0 true ⟨⟨0⟩, ""⟩]

def changing (steps : ℕ) : World :=
  let world := World.initial 0 [{ admin with passwordHash := "hash of old" }] .empty []
  (exec (World.step plainPrimitives) world (dashboardChange.take steps)).getD world

theorem endsSessions_dashboardChange : EndsSessions (changing 6) := by
  have first : World.step plainPrimitives (changing 0)
      (.signIn admin.owner ⟨⟨1⟩, "token"⟩) = some (changing 1) := rfl
  have second : World.step plainPrimitives (changing 1)
      (.begin 0 (.setPassword adminChange "new" .checking)) = some (changing 2) := rfl
  have third : World.step plainPrimitives (changing 2) (.advance 0 true ⟨⟨0⟩, ""⟩) =
      some (changing 3) := rfl
  have fourth : World.step plainPrimitives (changing 3) (.advance 0 true ⟨⟨0⟩, ""⟩) =
      some (changing 4) := rfl
  have fifth : World.step plainPrimitives (changing 4) (.advance 0 true ⟨⟨0⟩, ""⟩) =
      some (changing 5) := rfl
  have sixth : World.step plainPrimitives (changing 5) (.advance 0 true ⟨⟨0⟩, ""⟩) =
      some (changing 6) := rfl
  have revokes : adminChange.revokes = true := rfl
  have asked : (changing 2).requests = Function.update (changing 1).requests 0
      (some (.setPassword adminChange "new" .checking)) := rfl
  have checked : (changing 3).requests = Function.update (changing 2).requests 0
      (some (.setPassword adminChange "new" (.changing admin.owner "hash of new" none))) := rfl
  have changed : (changing 4).requests = Function.update (changing 3).requests 0
      (some (.setPassword adminChange "new" (.revoking admin.owner))) := rfl
  have revoked : (changing 5).requests = Function.update (changing 4).requests 0
      (some (.setPassword adminChange "new" .returning)) := rfl
  rcases endsAll_of_revokes revokes (fun _ _ => rfl) asked with ⟨alone, checks⟩
  rcases endsAll_of_revokes revokes alone checked with ⟨alone, changes⟩
  rcases endsAll_of_revokes revokes alone changed with ⟨alone, revokesAll⟩
  rcases endsAll_of_revokes revokes alone revoked with ⟨-, returns⟩
  have ends : AllSteps (World.step plainPrimitives) EndsAll (changing 0) dashboardChange := by
    apply (allSteps_cons first).mpr ⟨trivial, _⟩
    apply (allSteps_cons second).mpr ⟨trivial, _⟩
    apply (allSteps_cons third).mpr ⟨checks, _⟩
    apply (allSteps_cons fourth).mpr ⟨changes, _⟩
    apply (allSteps_cons fifth).mpr ⟨revokesAll, _⟩
    exact (allSteps_cons sixth).mpr ⟨returns, trivial⟩
  exact endsSessions_of_endsAll ends rfl

def AlwaysEndsSessions : Prop :=
  ∀ (env : Primitives) (now : ℤ) (people : List Person) (devices : Table Device)
    (agentTokens : List AgentToken) (trace : List Action) (final : World),
    exec (World.step env) (World.initial now people devices agentTokens) trace =
      some final → EndsSessions final

def employee : Person := ⟨⟨.portal, ⟨2⟩⟩, none, "employee@example.com", "hash of old", "active"⟩

def portalChange : List Action :=
  [.signIn employee.owner ⟨⟨1⟩, "here"⟩, .signIn employee.owner ⟨⟨2⟩, "there"⟩,
    .begin 0 (.setPassword (.changePassword employee.owner "old" (some 0)) "new" .checking),
    .advance 0 true ⟨⟨0⟩, ""⟩, .advance 0 true ⟨⟨0⟩, ""⟩, .advance 0 true ⟨⟨0⟩, ""⟩,
    .begin 1 (.refresh .portal "there" .checking),
    .advance 1 true ⟨⟨0⟩, ""⟩, .advance 1 true ⟨⟨0⟩, ""⟩, .advance 1 true ⟨⟨0⟩, ""⟩,
    .advance 1 true ⟨⟨3⟩, "again"⟩]

/-- After an employee has changed the password, another session goes on. -/
theorem not_alwaysEndsSessions : ¬AlwaysEndsSessions := by
  intro always
  have goesOn : (exec (World.step plainPrimitives) (World.initial 0 [employee] .empty [])
      portalChange).map (·.db.history) = some [.exchanged 1 employee.owner, .passwordReturned 0,
        .passwordSet 0 employee.owner (some 0), .signedIn 1 employee.owner,
        .signedIn 0 employee.owner] := by decide +kernel
  rcases Option.map_eq_some_iff.mp goesOn with ⟨final, executed, isHistory⟩
  have ends := always plainPrimitives 0 [employee] .empty [] portalChange final executed
  have same := ends 1 employee.owner _ (by rw [isHistory]) 0 (some 0) _
    (List.suffix_cons _ _) List.mem_cons_self List.mem_cons_self
  simp at same

end Aavishield.Credentials
