import Aavishield.Auth.SignInSteps

/-!
# The second factor

Session tokens are returned only once a second factor was given, in every run in which no
call succeeds with a challenge that was meant for another step.
-/

namespace Aavishield.Auth

open Dataplane (HasID Table)
open TransitionSystem

variable (env : Primitives) (deployment : Deployment)

def Event.Proves (start : Server) (account : Account) : Event → Prop
  | .acceptedTOTP userID secret =>
    userID = account.id ∧ openSealed env account.mfaSecret = some secret
  | .acceptedRecoveryCode userID codeHash => userID = account.id ∧
      ∃ row ∈ start.recoveryCodes, row.userID = userID ∧ row.codeHash = codeHash ∧ row.usedAt = none
  | _ => False

def EmailedSince (history : List Event) (challenge : Minted) (email codeHash : String) : Prop :=
  ∃ later before, history = later ++ Event.passed .otp challenge :: before ∧
    Event.emailed email codeHash ∈ later

def AnsweredLast (account : Account) (challenge : Minted) (history : List Event) : Prop :=
  ∃ codeHash before,
    history = .acceptedOTP challenge.token (address env account.email) codeHash :: before ∧
      EmailedSince before challenge (address env account.email) codeHash

/-- Sessions are issued only to those who have given the second factor that the account asks for. -/
structure NotSkipped (start : Server) (history : List Event) : Prop where
  enrolled : ∀ account ∈ start.users.rows, account.mfaEnabled = true →
    ∀ challenge access mfaEnabled earlier, .session challenge access mfaEnabled :: earlier <:+ history →
      access.subject = account.id → ∃ event ∈ earlier, event.Proves env start account
  emailed : ∀ account ∈ start.users.rows, account.mfaEnabled = false →
    orgRequiresMFA deployment account.orgID = false →
      ∀ challenge access mfaEnabled earlier,
        .session challenge access mfaEnabled :: earlier <:+ history → access.subject = account.id →
          ∃ login answered, login.subject = account.id ∧ answered <:+ earlier ∧
            AnsweredLast env account login answered
  everyTime : ∀ account ∈ start.users.rows, orgRequiresMFA deployment account.orgID = false →
    ∀ challenge access earlier, .session challenge access false :: earlier <:+ history →
      access.subject = account.id → ∃ login, login.subject = account.id ∧ login.token = challenge ∧
        AnsweredLast env account login earlier

def NeverSkips : Prop :=
  ∀ start calls server, start.history = [] →
    exec (Server.step env deployment) start calls = some server →
      NotSkipped env deployment start server.history

/-- Nothing has got past the second factor that the account has at the start. -/
structure Shut (start : Server) (account : Account) (server : Server) : Prop where
  row : ∀ user ∈ server.users.rows, user.id = account.id → user = account
  codes : ∀ row ∈ server.recoveryCodes, row.userID = account.id → row.usedAt = none →
    row ∈ start.recoveryCodes
  branch : ∀ branch challenge, .passed branch challenge ∈ server.history →
    challenge.subject = account.id → branch = .mfa
  noSession : ¬server.HasSession account.id

/-- Nobody has signed in to an account that has no second factor. -/
structure Unopened (account : Account) (server : Server) : Prop where
  row : ∀ user ∈ server.users.rows, user.id = account.id → user.mfaEnabled = false
  branch : ∀ challenge, .passed .mfa challenge ∈ server.history → challenge.subject ≠ account.id
  noSession : ¬server.HasSession account.id

structure Guarded (start server : Server) : Prop where
  legible : server.AllLegible
  rows : ∀ user ∈ server.users.rows, ∃ original ∈ start.users.rows, user.toUser = original.toUser
  fresh : ∀ challenge, .passed .otp challenge ∈ server.history →
    ∀ user ∈ server.users.rows, user.id = challenge.subject →
      ∀ otp ∈ server.otps, otp.pending (address env user.email) otpPurposeLogin = true →
        EmailedSince server.history challenge otp.email otp.codeHash
  shut : ∀ account ∈ start.users.rows, account.mfaEnabled = true →
    (∃ event ∈ server.history, event.Proves env start account) ∨ Shut start account server
  unopened : ∀ account ∈ start.users.rows, account.mfaEnabled = false →
    orgRequiresMFA deployment account.orgID = false →
      (∃ login answered, login.subject = account.id ∧ answered <:+ server.history ∧
        AnsweredLast env account login answered) ∨ Unopened account server
  notSkipped : NotSkipped env deployment start server.history

variable {env deployment} {start server next : Server}

theorem EmailedSince.cons {history : List Event} {challenge : Minted} {email codeHash : String}
    (since : EmailedSince history challenge email codeHash) (event : Event) :
    EmailedSince (event :: history) challenge email codeHash := by
  rcases since with ⟨later, before, rfl, emailedMem⟩
  exact ⟨event :: later, before, rfl, List.mem_cons_of_mem _ emailedMem⟩

variable {challenge : Minted}

theorem emailedSince_emailed {history : List Event} {email codeHash : String}
    (passedMem : Event.passed .otp challenge ∈ history) :
    EmailedSince (.emailed email codeHash :: history) challenge email codeHash := by
  rcases List.append_of_mem passedMem with ⟨later, before, rfl⟩
  exact ⟨_ :: later, before, rfl, List.mem_cons_self⟩

def Event.opens : Event → Bool
  | .session .. => true
  | _ => false

theorem NotSkipped.cons {history : List Event} (kept : NotSkipped env deployment start history)
    {event : Event} (quiet : event.opens = false) :
    NotSkipped env deployment start (event :: history) where
  enrolled account accountMem enabled challenge access mfaEnabled earlier isSuffix := by
    rcases List.suffix_cons_iff.mp isSuffix with same | isSuffix
    · cases same
      cases quiet
    · exact kept.enrolled account accountMem enabled challenge access mfaEnabled earlier isSuffix
  emailed account accountMem without free challenge access mfaEnabled earlier isSuffix := by
    rcases List.suffix_cons_iff.mp isSuffix with same | isSuffix
    · cases same
      cases quiet
    · exact kept.emailed account accountMem without free challenge access mfaEnabled earlier isSuffix
  everyTime account accountMem free challenge access earlier isSuffix := by
    rcases List.suffix_cons_iff.mp isSuffix with same | isSuffix
    · cases same
      cases quiet
    · exact kept.everyTime account accountMem free challenge access earlier isSuffix

variable {mfaEnabled : Bool}

theorem NotSkipped.session {history : List Event}
    (kept : NotSkipped env deployment start history) {challenge : Token} {access : Minted}
    (enrolled : ∀ account ∈ start.users.rows, account.mfaEnabled = true →
      access.subject = account.id → ∃ event ∈ history, event.Proves env start account)
    (emailed : ∀ account ∈ start.users.rows, account.mfaEnabled = false →
      orgRequiresMFA deployment account.orgID = false → access.subject = account.id →
        ∃ login answered, login.subject = account.id ∧ answered <:+ history ∧
          AnsweredLast env account login answered)
    (everyTime : ∀ account ∈ start.users.rows, orgRequiresMFA deployment account.orgID = false →
      access.subject = account.id → mfaEnabled = false →
        ∃ login, login.subject = account.id ∧ login.token = challenge ∧
          AnsweredLast env account login history) :
    NotSkipped env deployment start (.session challenge access mfaEnabled :: history) where
  enrolled account accountMem enabled other otherAccess otherEnabled earlier isSuffix := by
    rcases List.suffix_cons_iff.mp isSuffix with same | isSuffix
    · cases same
      exact enrolled account accountMem enabled
    · exact kept.enrolled account accountMem enabled other otherAccess otherEnabled earlier isSuffix
  emailed account accountMem without free other otherAccess otherEnabled earlier isSuffix := by
    rcases List.suffix_cons_iff.mp isSuffix with same | isSuffix
    · cases same
      exact emailed account accountMem without free
    · exact kept.emailed account accountMem without free other otherAccess otherEnabled earlier
        isSuffix
  everyTime account accountMem free other otherAccess earlier isSuffix := by
    rcases List.suffix_cons_iff.mp isSuffix with same | isSuffix
    · cases same
      intro subject
      exact everyTime account accountMem free subject rfl
    · exact kept.everyTime account accountMem free other otherAccess earlier isSuffix

section

variable (legible : server.AllLegible)

include legible

theorem Server.AllLegible.record {event : Event}
    (added : ∀ minted, event.returned = some minted → Legible minted) :
    (server.record event).AllLegible := by
  intro found foundMem
  rcases List.mem_cons.mp foundMem with rfl | foundMem
  · exact added
  · exact legible found foundMem

theorem Server.AllLegible.quiet {event : Event}
    (quiet : event.returned = none) : (server.record event).AllLegible := by
  apply legible.record
  intro minted returned
  cases quiet.symm.trans returned

theorem Server.AllLegible.opened (challenge : Token) (user : Account)
    (tokenID : UUID) : (server.opened challenge user tokenID).AllLegible := by
  apply legible.record
  intro minted returned
  cases returned
  exact legible_access _ _ _

theorem Server.AllLegible.passed (branch : Branch) (user : Account) :
    (server.record (.passed branch (.mfaChallenge user.toUser server.now))).AllLegible := by
  apply legible.record
  intro minted returned
  cases returned
  exact legible_mfaChallenge _ _

theorem Server.AllLegible.effect
    (effect : Effect env deployment server next) : next.AllLegible := by
  cases effect with
  | refused | elapsed _ | counted _ _ | tried _ _ | setUp | enabled | disabled => exact legible
  | passed branch user => exact legible.passed branch user
  | emailed user code => exact (legible.passed .otp user).quiet rfl
  | resent user code => exact legible.quiet rfl
  | verifiedLogin token user otp otps tokenID =>
    have accepted : (({ server with otps } : Server).record
      (.acceptedOTP token otp.email otp.codeHash)).AllLegible := legible.quiet rfl
    exact accepted.opened token user tokenID
  | verified token user recoveryCodes proof tokenID userMem spends quiet =>
    have accepted : (({ server with recoveryCodes } : Server).record proof).AllLegible :=
      legible.quiet quiet
    exact accepted.opened token user tokenID

end

variable {user : Account} {mfaSecret : String} {enrolled : mfaEnabled = true → mfaSecret ≠ ""}

variable {id : UUID}

theorem mem_updateMFA
    (userMem : user ∈ (server.updateMFA id mfaEnabled mfaSecret enrolled).users.rows) :
    ∃ original ∈ server.users.rows, user.toUser = original.toUser ∧
      (user.id = id → user.mfaEnabled = mfaEnabled) ∧ (user.id ≠ id → user = original) := by
  rcases List.mem_map.mp userMem with ⟨original, originalMem, rfl⟩
  refine ⟨original, originalMem, ?_⟩
  split_ifs with same
  · exact ⟨rfl, fun _ => rfl, fun other => absurd same other⟩
  · exact ⟨rfl, fun same' => absurd same' same, fun _ => rfl⟩

theorem Effect.rows (effect : Effect env deployment server next)
    (userMem : user ∈ next.users.rows) :
    ∃ original ∈ server.users.rows, user.toUser = original.toUser := by
  cases effect with
  | setUp | enabled | disabled =>
    rcases mem_updateMFA userMem with ⟨original, originalMem, same, -⟩
    exact ⟨original, originalMem, same⟩
  | _ => exact ⟨user, userMem, rfl⟩

variable {otp : EmailOTP}

theorem mem_issueOTP {email purpose code : String} {userID : Option UUID}
    (otpMem : otp ∈ (server.issueOTP env email purpose userID code).otps)
    (pending : otp.consumedAt = none) :
    (otp.email = address env email ∧ otp.codeHash = hashOTP env code) ∨
      otp ∈ server.otps ∧ ¬(otp.email = address env email ∧ otp.purpose = purpose) := by
  rcases List.mem_cons.mp otpMem with rfl | otpMem
  · exact .inl ⟨rfl, rfl⟩
  · right
    rcases List.mem_map.mp otpMem with ⟨original, originalMem, rfl⟩
    split_ifs at pending ⊢ with was
    refine ⟨originalMem, ?_⟩
    rintro ⟨sameEmail, samePurpose⟩
    apply was
    simp [EmailOTP.pending, sameEmail, samePurpose, pending]

theorem EmailOTP.pending_iff {email purpose : String} :
    otp.pending email purpose = true ↔
      otp.email = email ∧ otp.purpose = purpose ∧ otp.consumedAt = none := by
  simp [EmailOTP.pending, and_assoc]

/-- What `fresh` says, of one challenge. -/
def FreshFor (env : Primitives) (server : Server) (challenge : Minted) : Prop :=
  ∀ user ∈ server.users.rows, user.id = challenge.subject →
    ∀ otp ∈ server.otps, otp.pending (address env user.email) otpPurposeLogin = true →
      EmailedSince server.history challenge otp.email otp.codeHash

theorem FreshFor.of_retires (fresh : FreshFor env server challenge)
    (rows : ∀ user ∈ next.users.rows, ∃ original ∈ server.users.rows, user.toUser = original.toUser)
    (retires : Retires server.otps next.otps) (events : List Event)
    (history : next.history = events ++ server.history) : FreshFor env next challenge := by
  intro user userMem subject otp otpMem pending
  rcases rows user userMem with ⟨original, originalMem, same⟩
  have sameID : user.id = original.id := congrArg User.id same
  have sameEmail : user.email = original.email := congrArg User.email same
  rcases retires otp otpMem _ _ pending with ⟨earlier, earlierMem, was, sameHash⟩
  rw [sameEmail] at was pending
  have since := fresh original originalMem (sameID ▸ subject) earlier earlierMem was
  rw [EmailOTP.pending_iff] at was pending
  rw [was.1, sameHash, ← pending.1] at since
  rw [history]
  clear history
  induction events with
  | nil => exact since
  | cons event events ih => exact ih.cons event

theorem FreshFor.sendLoginOTP {code : String}
    (passedMem : Event.passed .otp challenge ∈ server.history)
    (fresh : ∀ other ∈ server.users.rows, other.id = challenge.subject →
      ∀ otp ∈ server.otps, otp.pending (address env other.email) otpPurposeLogin = true →
        ¬(otp.email = address env user.email ∧ otp.purpose = otpPurposeLogin) →
          EmailedSince server.history challenge otp.email otp.codeHash) :
    FreshFor env (server.sendLoginOTP env user code) challenge := by
  intro other otherMem subject otp otpMem pending
  have consumedAt := (EmailOTP.pending_iff.mp pending).2.2
  rcases mem_issueOTP otpMem consumedAt with ⟨sameEmail, sameHash⟩ | ⟨otpMem, differs⟩
  · rw [sameEmail, sameHash]
    exact emailedSince_emailed passedMem
  · exact (fresh other otherMem subject otp otpMem pending differs).cons _

theorem Guarded.fresh_effect (guarded : Guarded env deployment start server)
    (effect : Effect env deployment server next) :
    ∀ challenge, .passed .otp challenge ∈ next.history → FreshFor env next challenge := by
  intro challenge passedMem
  have old : .passed .otp challenge ∈ server.history → FreshFor env server challenge :=
    fun passedMem => guarded.fresh challenge passedMem
  have rows : ∀ user ∈ next.users.rows,
      ∃ original ∈ server.users.rows, user.toUser = original.toUser :=
    fun _ userMem => effect.rows userMem
  cases effect with
  | refused | elapsed _ | tried _ _ => exact old passedMem
  | counted otps retires => exact (old passedMem).of_retires rows retires [] rfl
  | passed branch user userMem other isMFA =>
    rcases List.mem_cons.mp passedMem with same | passedMem
    · cases same
      exact absurd rfl other
    · exact (old passedMem).of_retires rows (retires_refl _) [_] rfl
  | emailed user code userMem without =>
    rcases List.mem_cons.mp passedMem with same | passedMem
    · cases same
    refine FreshFor.sendLoginOTP passedMem ?_
    intro other otherMem subject otp otpMem pending differs
    rcases List.mem_cons.mp passedMem with same | passedMem
    · cases same
      -- the code of this very login has retired the others
      have sameUser : other = user := server.users.eq_of_id_eq otherMem userMem subject
      subst sameUser
      rw [EmailOTP.pending_iff] at pending
      exact absurd ⟨pending.1, pending.2.1⟩ differs
    · exact (old passedMem other otherMem subject otp otpMem pending).cons _
  | resent user code userMem =>
    rcases List.mem_cons.mp passedMem with same | passedMem
    · cases same
    refine FreshFor.sendLoginOTP passedMem ?_
    intro other otherMem subject otp otpMem pending differs
    exact old passedMem other otherMem subject otp otpMem pending
  | verifiedLogin token user otp otps tokenID userMem otpMem pending retires meant =>
    rcases List.mem_cons.mp passedMem with same | passedMem
    · cases same
    rcases List.mem_cons.mp passedMem with same | passedMem
    · cases same
    exact (old passedMem).of_retires rows retires [_, _] rfl
  | verified token user recoveryCodes proof tokenID userMem spends quiet meant =>
    rcases List.mem_cons.mp passedMem with same | passedMem
    · cases same
    rcases List.mem_cons.mp passedMem with same | passedMem
    · subst same
      cases quiet
    exact (old passedMem).of_retires rows (retires_refl _) [_, _] rfl
  | setUp | enabled | disabled => exact (old passedMem).of_retires rows (retires_refl _) [] rfl

theorem Effect.history (effect : Effect env deployment server next) :
    server.history <:+ next.history := by
  cases effect with
  | refused | elapsed | counted | tried | setUp | enabled | disabled => exact List.suffix_refl _
  | passed | resent => exact List.suffix_cons _ _
  | emailed | verifiedLogin | verified =>
    exact (List.suffix_cons _ _).trans (List.suffix_cons _ _)

theorem hasSession_opened {challenge : Token} {tokenID id : UUID} {event : Event}
    (quiet : event.returned = none)
    (session : ((server.record event).opened challenge user tokenID).HasSession id) :
    user.id = id ∨ server.HasSession id := by
  rcases session with ⟨token, access, mfaEnabled, sessionMem, subject⟩
  rcases List.mem_cons.mp sessionMem with same | sessionMem
  · cases same
    exact .inl subject
  · rcases List.mem_cons.mp sessionMem with rfl | sessionMem
    · cases quiet
    · exact .inr ⟨token, access, mfaEnabled, sessionMem, subject⟩

theorem hasSession_record {event : Event} (quiet : event.opens = false)
    (session : (server.record event).HasSession id) : server.HasSession id := by
  rcases session with ⟨token, access, mfaEnabled, sessionMem, subject⟩
  rcases List.mem_cons.mp sessionMem with same | sessionMem
  · subst same
    cases quiet
  · exact ⟨token, access, mfaEnabled, sessionMem, subject⟩

variable {account : Account}

theorem row_updateMFA (other : id ≠ account.id)
    (row : ∀ user ∈ server.users.rows, user.id = account.id → user = account) :
    ∀ user ∈ (server.updateMFA id mfaEnabled mfaSecret enrolled).users.rows,
      user.id = account.id → user = account := by
  intro user userMem same
  rcases mem_updateMFA userMem with ⟨original, originalMem, -, -, unchanged⟩
  have isOriginal := unchanged fun isOther => other (isOther.symm.trans same)
  subst isOriginal
  exact row user originalMem same

theorem Effect.passed_cases (effect : Effect env deployment server next) {branch : Branch}
    (passedMem : .passed branch challenge ∈ next.history) :
    .passed branch challenge ∈ server.history ∨ ∃ user ∈ server.users.rows,
      user.id = challenge.subject ∧ (branch = .mfa ↔ user.mfaEnabled = true) := by
  cases effect with
  | refused | elapsed | counted | tried | setUp | enabled | disabled => exact .inl passedMem
  | passed branch user userMem other isMFA =>
    rcases List.mem_cons.mp passedMem with same | passedMem
    · cases same
      exact .inr ⟨user, userMem, rfl, isMFA⟩
    · exact .inl passedMem
  | emailed user code userMem without =>
    rcases List.mem_cons.mp passedMem with same | passedMem
    · cases same
    rcases List.mem_cons.mp passedMem with same | passedMem
    · cases same
      exact .inr ⟨user, userMem, rfl, by simp [without]⟩
    · exact .inl passedMem
  | resent => exact .inl ((List.mem_cons.mp passedMem).resolve_left nofun)
  | verifiedLogin =>
    have earlier := (List.mem_cons.mp passedMem).resolve_left nofun
    exact .inl ((List.mem_cons.mp earlier).resolve_left nofun)
  | verified token user recoveryCodes proof tokenID userMem spends quiet meant =>
    rcases List.mem_cons.mp ((List.mem_cons.mp passedMem).resolve_left nofun) with isProof | earlier
    · subst isProof
      cases quiet
    · exact .inl earlier

theorem Shut.proves (shut : Shut start account server) {proof : Event}
    (accepted : (∃ secret, proof = .acceptedTOTP account.id secret ∧
        openSealed env account.mfaSecret = some secret) ∨
      ∃ row ∈ server.recoveryCodes, proof = .acceptedRecoveryCode account.id row.codeHash ∧
        row.userID = account.id ∧ row.usedAt = none) : proof.Proves env start account := by
  rcases accepted with ⟨secret, rfl, opened⟩ | ⟨row, rowMem, rfl, owner, unused⟩
  · exact ⟨rfl, opened⟩
  · exact ⟨rfl, row, shut.codes row rowMem owner unused, owner, rfl, unused⟩

theorem Shut.effect (shut : Shut start account server)
    (enabled : account.mfaEnabled = true) (effect : Effect env deployment server next) :
    (∃ event ∈ next.history, event.Proves env start account) ∨ Shut start account next := by
  have enabled_of_row : ∀ user ∈ server.users.rows, user.id = account.id → user.mfaEnabled = true := by
    intro user userMem same
    rw [shut.row user userMem same]
    exact enabled
  have other_of_without : ∀ user ∈ server.users.rows, user.mfaEnabled = false →
      user.id ≠ account.id := by
    intro user userMem without same
    cases without.symm.trans (enabled_of_row user userMem same)
  have branch : ∀ branch challenge, .passed branch challenge ∈ next.history →
      challenge.subject = account.id → branch = .mfa := by
    intro branch challenge passedMem subject
    rcases effect.passed_cases passedMem with old | ⟨user, userMem, isUser, isMFA⟩
    · exact shut.branch branch challenge old subject
    · exact isMFA.mpr (enabled_of_row user userMem (isUser.trans subject))
  cases effect with
  | refused | elapsed | counted => exact .inr ⟨shut.row, shut.codes, branch, shut.noSession⟩
  | tried recoveryCodes spends =>
    right
    refine ⟨shut.row, ?_, branch, shut.noSession⟩
    intro row rowMem owner unused
    exact shut.codes row (spends row rowMem unused) owner unused
  | passed | resent =>
    right
    exact ⟨shut.row, shut.codes, branch, fun session => shut.noSession (hasSession_record rfl session)⟩
  | emailed =>
    right
    exact ⟨shut.row, shut.codes, branch, fun session => shut.noSession
      (hasSession_record rfl (hasSession_record rfl session))⟩
  | verifiedLogin token user otp otps tokenID userMem otpMem pending retires meant =>
    right
    refine ⟨shut.row, shut.codes, branch, fun session => ?_⟩
    rcases hasSession_opened rfl session with same | session
    · rcases meant (.inl (enabled_of_row user userMem same)) with
        ⟨challenge, challengeMem, -, subject⟩
      cases shut.branch .otp challenge challengeMem (subject.trans same)
    · exact shut.noSession session
  | verified token user recoveryCodes proof tokenID userMem spends quiet meant =>
    by_cases same : user.id = account.id
    · left
      have isAccount := shut.row user userMem same
      subst isAccount
      exact ⟨proof, List.mem_cons_of_mem _ List.mem_cons_self,
        shut.proves (meant (.inl enabled)).2.2⟩
    · right
      refine ⟨shut.row, ?_, branch, fun session => ?_⟩
      · intro row rowMem owner unused
        exact shut.codes row (spends row rowMem unused) owner unused
      · rcases hasSession_opened quiet session with isAccount | session
        · exact same isAccount
        · exact shut.noSession session
  | setUp user secret userMem without off =>
    right
    exact ⟨row_updateMFA (other_of_without user userMem without) shut.row, shut.codes, branch,
      shut.noSession⟩
  | enabled user codes userMem without enrolled signedIn =>
    right
    have other := other_of_without user userMem without
    refine ⟨row_updateMFA other shut.row, ?_, branch, shut.noSession⟩
    intro row rowMem owner unused
    rcases List.mem_append.mp rowMem with issued | kept
    · rcases List.mem_map.mp issued with ⟨code, -, rfl⟩
      exact absurd owner other
    · exact shut.codes row (List.mem_of_mem_filter kept) owner unused
  | disabled user userMem off signedIn =>
    right
    have other : user.id ≠ account.id := by
      intro same
      exact shut.noSession (same ▸ signedIn (enabled_of_row user userMem same))
    refine ⟨row_updateMFA other shut.row, ?_, branch, shut.noSession⟩
    intro row rowMem owner unused
    exact shut.codes row (List.mem_of_mem_filter rowMem) owner unused

section

variable (guarded : Guarded env deployment start server)

include guarded

theorem Guarded.toUser_eq
    (accountMem : account ∈ start.users.rows)
    (userMem : user ∈ server.users.rows) (same : user.id = account.id) :
    user.toUser = account.toUser := by
  rcases guarded.rows user userMem with ⟨original, originalMem, isOriginal⟩
  have sameAccount : original = account := by
    apply start.users.eq_of_id_eq originalMem accountMem
    exact (congrArg User.id isOriginal).symm.trans same
  rw [isOriginal, sameAccount]

theorem Guarded.answeredLast
    (accountMem : account ∈ start.users.rows)
    (userMem : user ∈ server.users.rows) (same : user.id = account.id) (otpMem : otp ∈ server.otps)
    (pending : otp.pending (address env user.email) otpPurposeLogin = true) {login : Minted}
    (passedMem : .passed .otp login ∈ server.history) (subject : login.subject = user.id) :
    AnsweredLast env account login
      (.acceptedOTP login.token otp.email otp.codeHash :: server.history) := by
  have since := guarded.fresh login passedMem user userMem subject.symm otp otpMem pending
  have sameEmail : user.email = account.email :=
    congrArg User.email (guarded.toUser_eq accountMem userMem same)
  rw [EmailOTP.pending_iff, sameEmail] at pending
  rw [pending.1] at since ⊢
  exact ⟨otp.codeHash, server.history, rfl, since⟩

theorem Guarded.covered
    (accountMem : account ∈ start.users.rows)
    (free : orgRequiresMFA deployment account.orgID = false)
    (userMem : user ∈ server.users.rows) (same : user.id = account.id) :
    Covered deployment user := by
  right
  rw [show user.orgID = account.orgID from
    congrArg User.orgID (guarded.toUser_eq accountMem userMem same)]
  exact free

end

theorem row_without_updateMFA (without : id = account.id → mfaEnabled = false)
    (row : ∀ user ∈ server.users.rows, user.id = account.id → user.mfaEnabled = false) :
    ∀ user ∈ (server.updateMFA id mfaEnabled mfaSecret enrolled).users.rows,
      user.id = account.id → user.mfaEnabled = false := by
  intro user userMem same
  rcases mem_updateMFA userMem with ⟨original, originalMem, -, rewritten, unchanged⟩
  by_cases isOther : user.id = id
  · rw [rewritten isOther]
    exact without (isOther.symm.trans same)
  · have isOriginal := unchanged isOther
    subst isOriginal
    exact row user originalMem same

theorem Unopened.effect (unopened : Unopened account server)
    (guarded : Guarded env deployment start server) (accountMem : account ∈ start.users.rows)
    (free : orgRequiresMFA deployment account.orgID = false)
    (effect : Effect env deployment server next) :
    (∃ login answered, login.subject = account.id ∧ answered <:+ next.history ∧
      AnsweredLast env account login answered) ∨ Unopened account next := by
  have branch : ∀ challenge, .passed .mfa challenge ∈ next.history →
      challenge.subject ≠ account.id := by
    intro challenge passedMem subject
    rcases effect.passed_cases passedMem with old | ⟨user, userMem, isUser, isMFA⟩
    · exact unopened.branch challenge old subject
    · cases (unopened.row user userMem (isUser.trans subject)).symm.trans (isMFA.mp rfl)
  cases effect with
  | refused | elapsed | counted | tried => exact .inr ⟨unopened.row, branch, unopened.noSession⟩
  | passed | resent =>
    right
    exact ⟨unopened.row, branch, fun session => unopened.noSession (hasSession_record rfl session)⟩
  | emailed =>
    right
    exact ⟨unopened.row, branch, fun session => unopened.noSession
      (hasSession_record rfl (hasSession_record rfl session))⟩
  | verifiedLogin token user otp otps tokenID userMem otpMem pending retires meant =>
    by_cases same : user.id = account.id
    · left
      rcases meant (guarded.covered accountMem free userMem same) with
        ⟨login, passedMem, rfl, subject⟩
      refine ⟨login, _, subject.trans same, List.suffix_cons _ _, ?_⟩
      exact guarded.answeredLast accountMem userMem same otpMem pending passedMem subject
    · right
      refine ⟨unopened.row, branch, fun session => ?_⟩
      rcases hasSession_opened rfl session with isAccount | session
      · exact same isAccount
      · exact unopened.noSession session
  | verified token user recoveryCodes proof tokenID userMem spends quiet meant =>
    right
    refine ⟨unopened.row, branch, fun session => ?_⟩
    rcases hasSession_opened quiet session with isAccount | session
    · have enabled := (meant (guarded.covered accountMem free userMem isAccount)).1
      cases (unopened.row user userMem isAccount).symm.trans enabled
    · exact unopened.noSession session
  | setUp user secret userMem without off | disabled user userMem off signedIn =>
    right
    exact ⟨row_without_updateMFA (fun _ => rfl) unopened.row, branch, unopened.noSession⟩
  | enabled user codes userMem without enrolled signedIn =>
    right
    refine ⟨row_without_updateMFA (fun same => ?_) unopened.row, branch, unopened.noSession⟩
    have session := signedIn (guarded.covered accountMem free userMem same)
    exact absurd (same ▸ session) unopened.noSession

theorem NotSkipped.effect (guarded : Guarded env deployment start server)
    (effect : Effect env deployment server next) :
    NotSkipped env deployment start next.history := by
  have skipped := guarded.notSkipped
  cases effect with
  | refused | elapsed | counted | tried | setUp | enabled | disabled => exact skipped
  | passed | resent => exact skipped.cons rfl
  | emailed => exact (skipped.cons rfl).cons rfl
  | verifiedLogin token user otp otps tokenID userMem otpMem pending retires meant =>
    have answered : ∀ account ∈ start.users.rows, orgRequiresMFA deployment account.orgID = false →
        user.id = account.id → ∃ login, login.subject = account.id ∧ login.token = token ∧
          AnsweredLast env account login
            (.acceptedOTP token otp.email otp.codeHash :: server.history) := by
      intro account accountMem free same
      rcases meant (guarded.covered accountMem free userMem same) with
        ⟨login, passedMem, rfl, subject⟩
      refine ⟨login, subject.trans same, rfl, ?_⟩
      exact guarded.answeredLast accountMem userMem same otpMem pending passedMem subject
    refine (skipped.cons rfl).session ?_ ?_ ?_
    · intro account accountMem enabled same
      rcases guarded.shut account accountMem enabled with ⟨event, eventMem, proves⟩ | shut
      · exact ⟨event, List.mem_cons_of_mem _ eventMem, proves⟩
      · have isAccount := shut.row user userMem same
        subst isAccount
        rcases meant (.inl enabled) with ⟨login, passedMem, -, subject⟩
        cases shut.branch .otp login passedMem subject
    · intro account accountMem _ free same
      rcases answered account accountMem free same with ⟨login, subject, -, last⟩
      exact ⟨login, _, subject, List.suffix_refl _, last⟩
    · intro account accountMem free same _
      exact answered account accountMem free same
  | verified token user recoveryCodes proof tokenID userMem spends quiet meant =>
    have silent : proof.opens = false := by
      cases proof with
      | session => cases quiet
      | _ => rfl
    refine (skipped.cons silent).session ?_ ?_ ?_
    · intro account accountMem enabled same
      rcases guarded.shut account accountMem enabled with ⟨event, eventMem, proves⟩ | shut
      · exact ⟨event, List.mem_cons_of_mem _ eventMem, proves⟩
      · have isAccount := shut.row user userMem same
        subst isAccount
        exact ⟨proof, List.mem_cons_self, shut.proves (meant (.inl enabled)).2.2⟩
    · intro account accountMem without free same
      rcases guarded.unopened account accountMem without free with
        ⟨login, answered, subject, isSuffix, last⟩ | unopened
      · exact ⟨login, answered, subject, isSuffix.trans (List.suffix_cons _ _), last⟩
      · have enabled := (meant (guarded.covered accountMem free userMem same)).1
        cases (unopened.row user userMem same).symm.trans enabled
    · intro account accountMem free same without
      have enabled := (meant (guarded.covered accountMem free userMem same)).1
      cases without.symm.trans enabled

theorem Guarded.step (guarded : Guarded env deployment start server) {call : Call}
    (keeps : ¬Strays env deployment server call)
    (stepped : server.step env deployment call = some next) :
    Guarded env deployment start next := by
  have effect := effect_of_step guarded.legible keeps stepped
  constructor
  case legible => exact guarded.legible.effect effect
  case rows =>
    intro user userMem
    rcases effect.rows userMem with ⟨middle, middleMem, same⟩
    rcases guarded.rows middle middleMem with ⟨original, originalMem, isOriginal⟩
    exact ⟨original, originalMem, same.trans isOriginal⟩
  case fresh => exact guarded.fresh_effect effect
  case shut =>
    intro account accountMem enabled
    rcases guarded.shut account accountMem enabled with ⟨event, eventMem, proves⟩ | shut
    · exact .inl ⟨event, effect.history.subset eventMem, proves⟩
    · exact shut.effect enabled effect
  case unopened =>
    intro account accountMem without free
    rcases guarded.unopened account accountMem without free with
      ⟨login, answered, subject, isSuffix, last⟩ | unopened
    · exact .inl ⟨login, answered, subject, isSuffix.trans effect.history, last⟩
    · exact unopened.effect guarded accountMem free effect
  case notSkipped => exact NotSkipped.effect guarded effect

theorem Guarded.initial (fresh : start.history = []) : Guarded env deployment start start where
  legible event eventMem := by simp [fresh] at eventMem
  rows user userMem := ⟨user, userMem, rfl⟩
  fresh challenge passedMem := by simp [fresh] at passedMem
  shut account accountMem enabled := by
    right
    refine ⟨fun user userMem same => ?_, fun row rowMem _ _ => rowMem, ?_, ?_⟩
    · exact start.users.eq_of_id_eq userMem accountMem same
    · simp [fresh]
    · simp [Server.HasSession, fresh]
  unopened account accountMem without _ := by
    right
    refine ⟨fun user userMem same => ?_, ?_, ?_⟩
    · rw [start.users.eq_of_id_eq userMem accountMem same]
      exact without
    · simp [fresh]
    · simp [Server.HasSession, fresh]
  notSkipped := by
    constructor <;> simp [fresh]

/-- In every run whose calls keep to the tokens meant for them, the second factor is not skipped. -/
theorem notSkipped_of_keeps {calls : List Call} (fresh : start.history = [])
    (keeps : AllSteps (Server.step env deployment)
      (fun server call => ¬Strays env deployment server call) start calls)
    (executed : exec (Server.step env deployment) start calls = some server) :
    NotSkipped env deployment start server.history := by
  have guarded : Guarded env deployment start server := by
    apply invariant_of_allSteps _ (Guarded.initial fresh) keeps executed
    intro state call next guarded keeps stepped
    exact guarded.step keeps stepped
  exact guarded.notSkipped

def plainPrimitives : Primitives where
  upper := Char.toUpper
  lower := Char.toLower
  hmacSHA1 _ _ := Vector.replicate 20 0
  hashRefreshToken text := "hash of " ++ text
  compareHashAndPassword hash password := hash == "hash of " ++ password
  encrypt nonce secret := nonce ++ secret
  decrypt _ := none

def plainDeployment : Deployment where
  mfaRequired _ := false
  requireSuperadminTOTP := false

def sampleAccount (mfaEnabled : Bool) : Account where
  toUser := someUser
  passwordHash := "hash of open sesame"
  status := "active"
  mfaEnabled := mfaEnabled
  mfaSecret := "JBSWY3DPEHPK3PXP"
  enrolled _ := by decide

def sampleServer (mfaEnabled : Bool) : Server where
  now := 0
  users := ⟨[sampleAccount mfaEnabled], List.nodup_singleton _⟩
  otps := []
  recoveryCodes := []
  history := []

def sampleChallenge : Token := generateMFAChallenge someUser 0

def passwordStep : Call := .login "admin@example.com" "open sesame" "company" false "123456"

/-- Without a second factor, a session is issued for the code that the password step emailed. -/
theorem emailedCode_notSkipped :
    ∃ server, exec (Server.step plainPrimitives plainDeployment) (sampleServer false)
      [passwordStep, .verifyLogin sampleChallenge "123 456" ⟨3⟩] = some server ∧
        server.HasSession someUser.id ∧
          NotSkipped plainPrimitives plainDeployment (sampleServer false) server.history := by
  rcases (⟨_, rfl⟩ : ∃ server, exec (Server.step plainPrimitives plainDeployment)
    (sampleServer false) [passwordStep, .verifyLogin sampleChallenge "123 456" ⟨3⟩] =
      some server) with ⟨server, executed⟩
  refine ⟨server, executed, ?_, notSkipped_of_keeps rfl ?_ executed⟩
  · cases executed
    exact ⟨_, _, _, List.mem_cons_self, rfl⟩
  · refine ⟨id, fun afterLogin loggedIn => ⟨?_, fun _ _ => trivial⟩⟩
    cases loggedIn
    rintro ⟨user, otp, -, -, -, stray⟩
    exact stray ⟨.mfaChallenge someUser 0, List.mem_cons_of_mem _ List.mem_cons_self, rfl⟩

/-- The code that is resent for the challenge of an account with a second factor does as well. -/
theorem not_neverSkips : ¬NeverSkips plainPrimitives plainDeployment := by
  intro never
  rcases (⟨_, rfl⟩ : ∃ server, exec (Server.step plainPrimitives plainDeployment) (sampleServer true)
    [passwordStep, .resendLogin sampleChallenge "654321", .verifyLogin sampleChallenge "654321" ⟨3⟩] =
      some server) with ⟨server, executed⟩
  have skipped := never _ _ _ rfl executed
  have history : server.history = [.session sampleChallenge (.access someUser ⟨3⟩ 0) true,
      .acceptedOTP sampleChallenge "admin@example.com" "hash of 654321",
      .emailed "admin@example.com" "hash of 654321", .passed .mfa (.mfaChallenge someUser 0)] := by
    cases executed
    rfl
  rw [history] at skipped
  rcases skipped.enrolled (sampleAccount true) List.mem_cons_self rfl _ _ _ _ (List.suffix_refl _) rfl
    with ⟨event, eventMem, proves⟩
  simp only [List.mem_cons, List.not_mem_nil, or_false] at eventMem
  rcases eventMem with rfl | rfl | rfl <;> exact proves

end Aavishield.Auth
