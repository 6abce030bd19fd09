import Aavishield.Auth.SignIn

/-!
# Steps of a sign-in

What a call can do to the server as long as it presents a token that was meant for it.
-/

namespace Aavishield.Auth

open Dataplane (HasID Table)

variable (env : Primitives) (deployment : Deployment)

def Server.challenged (server : Server) (token : Token) : Option Account :=
  match parseMFAChallenge token server.now with
  | .error _ => none
  | .ok userID => (server.account userID).filter (·.status == "active")

/-- `Login` returned the challenge for this next step. -/
def Server.MeantFor (server : Server) (branch : Branch) (token : Token) : Prop :=
  ∃ challenge, Event.passed branch challenge ∈ server.history ∧ challenge.token = token

def Server.SignedIn (server : Server) (request : Request) : Prop :=
  ∃ challenge access mfaEnabled, Event.session challenge access mfaEnabled ∈ server.history ∧
    request.extractToken = some access.token

/-- An account that has a second factor, or is not told by its organization to get one. -/
def Covered (user : Account) : Prop :=
  user.mfaEnabled = true ∨ orgRequiresMFA deployment user.orgID = false

inductive Server.Accepts (server : Server) (user : Account) (code : String) : Prop where
  | timed (valid : verifyTOTP env (mfaSecret env user.mfaSecret) code server.now = true)
  | recovery (unused : (server.consumeRecoveryCode env user.id code).1 = true)

def Server.Readable (server : Server) (user : Account) (code : String) : Prop :=
  verifyTOTP env (mfaSecret env user.mfaSecret) code server.now = true →
    (openSealed env user.mfaSecret).isSome = true

/--
A call that succeeds with a token that was not meant for it: a code is accepted for a
challenge of another branch, or the second factor changed on the strength of a challenge.
-/
def Strays (server : Server) : Call → Prop
  | .verifyLogin token code _ => ∃ user otp, server.challenged token = some user ∧
      Covered deployment user ∧
        (server.consumeOTP env user.email otpPurposeLogin code).1 = .ok otp ∧
          ¬server.MeantFor .otp token
  | .verify token code _ => ∃ user, server.challenged token = some user ∧
      Covered deployment user ∧ server.Accepts env user code ∧
        ¬(server.MeantFor .mfa token ∧ user.mfaEnabled = true ∧
          server.Readable env user code)
  | .enable request code _ => ∃ user, server.currentUser request = .ok user ∧
      Covered deployment user ∧ user.mfaEnabled = false ∧ user.mfaSecret ≠ "" ∧
        verifyTOTP env user.mfaSecret code server.now = true ∧ ¬server.SignedIn request
  | .disable request password => ∃ user, server.currentUser request = .ok user ∧
      user.mfaEnabled = true ∧ orgRequiresMFA deployment user.orgID = false ∧
        env.compareHashAndPassword user.passwordHash password = true ∧
          ¬server.SignedIn request
  | .login .. | .resendLogin .. | .setup .. | .tick _ => False

def Retires (before after : List EmailOTP) : Prop :=
  ∀ otp ∈ after, ∀ email purpose, otp.pending email purpose = true →
    ∃ earlier ∈ before, earlier.pending email purpose = true ∧ earlier.codeHash = otp.codeHash

def Spends (before after : List MFARecoveryCode) : Prop :=
  ∀ row ∈ after, row.usedAt = none → row ∈ before

def Server.HasSession (server : Server) (id : UUID) : Prop :=
  ∃ challenge access mfaEnabled, Event.session challenge access mfaEnabled ∈ server.history ∧
    access.subject = id

def Server.opened (server : Server) (challenge : Token) (user : Account) (tokenID : UUID) : Server :=
  server.record (.session challenge (.access user.toUser tokenID server.now) user.mfaEnabled)

inductive Effect (server : Server) : Server → Prop where
  | refused : Effect server server
  | elapsed (time : ℕ) : Effect server { server with now := server.now + time }
  | counted (otps : List EmailOTP) (retires : Retires server.otps otps) :
      Effect server { server with otps }
  | tried (recoveryCodes : List MFARecoveryCode) (spends : Spends server.recoveryCodes recoveryCodes) :
      Effect server { server with recoveryCodes }
  | passed (branch : Branch) (user : Account) (userMem : user ∈ server.users.rows)
      (other : branch ≠ .otp) (isMFA : branch = .mfa ↔ user.mfaEnabled = true) :
      Effect server (server.record (.passed branch (.mfaChallenge user.toUser server.now)))
  | emailed (user : Account) (code : String) (userMem : user ∈ server.users.rows)
      (without : user.mfaEnabled = false) :
      Effect server ((server.record (.passed .otp (.mfaChallenge user.toUser server.now))).sendLoginOTP
        env user code)
  | resent (user : Account) (code : String) (userMem : user ∈ server.users.rows) :
      Effect server (server.sendLoginOTP env user code)
  | verifiedLogin (token : Token) (user : Account) (otp : EmailOTP) (otps : List EmailOTP)
      (tokenID : UUID) (userMem : user ∈ server.users.rows) (otpMem : otp ∈ server.otps)
      (pending : otp.pending (address env user.email) otpPurposeLogin = true)
      (retires : Retires server.otps otps)
      (meant : Covered deployment user → ∃ challenge, Event.passed .otp challenge ∈ server.history ∧
        challenge.token = token ∧ challenge.subject = user.id) :
      Effect server ((({ server with otps } : Server).record
        (.acceptedOTP token otp.email otp.codeHash)).opened token user tokenID)
  | verified (token : Token) (user : Account) (recoveryCodes : List MFARecoveryCode) (proof : Event)
      (tokenID : UUID) (userMem : user ∈ server.users.rows)
      (spends : Spends server.recoveryCodes recoveryCodes) (quiet : proof.returned = none)
      (meant : Covered deployment user → user.mfaEnabled = true ∧
        (∃ challenge, Event.passed .mfa challenge ∈ server.history ∧ challenge.subject = user.id) ∧
          ((∃ secret, proof = .acceptedTOTP user.id secret ∧
            openSealed env user.mfaSecret = some secret) ∨
          ∃ row ∈ server.recoveryCodes, proof = .acceptedRecoveryCode user.id row.codeHash ∧
            row.userID = user.id ∧ row.usedAt = none)) :
      Effect server ((({ server with recoveryCodes } : Server).record proof).opened token user tokenID)
  | setUp (user : Account) (secret : String) (userMem : user ∈ server.users.rows)
      (without : user.mfaEnabled = false) (off : false = true → secret ≠ "") :
      Effect server (server.updateMFA user.id false secret off)
  | enabled (user : Account) (codes : List String) (userMem : user ∈ server.users.rows)
      (without : user.mfaEnabled = false) (enrolled : true = true → user.mfaSecret ≠ "")
      (signedIn : Covered deployment user → server.HasSession user.id) :
      Effect server ((server.updateMFA user.id true user.mfaSecret enrolled).issueRecoveryCodes
        env user.id codes)
  | disabled (user : Account) (userMem : user ∈ server.users.rows)
      (off : false = true → "" ≠ "")
      (signedIn : user.mfaEnabled = true → server.HasSession user.id) :
      Effect server { server.updateMFA user.id false "" off with
        recoveryCodes := server.recoveryCodes.filter (·.userID ≠ user.id) }

variable {env deployment} {server : Server}

/-- Everything that the client has been given is a token the parsers read as they should. -/
def Server.AllLegible (server : Server) : Prop :=
  ∀ event ∈ server.history, ∀ minted, event.returned = some minted → Legible minted

theorem retires_refl (otps : List EmailOTP) : Retires otps otps := by
  intro otp otpMem email purpose pending
  exact ⟨otp, otpMem, pending, rfl⟩

theorem retires_changePending {change : EmailOTP → EmailOTP} {email purpose : String}
    (keeps : ∀ otp email purpose, (change otp).pending email purpose = true →
      otp.pending email purpose = true ∧ otp.codeHash = (change otp).codeHash)
    (otps : List EmailOTP) : Retires otps (Server.changePending email purpose change otps) := by
  induction otps with
  | nil => exact retires_refl []
  | cons first rest ih =>
    unfold Server.changePending
    split
    · intro otp otpMem email purpose pending
      rcases List.mem_cons.mp otpMem with rfl | otpMem
      · rcases keeps first email purpose pending with ⟨was, same⟩
        exact ⟨first, List.mem_cons_self, was, same⟩
      · exact ⟨otp, List.mem_cons_of_mem _ otpMem, pending, rfl⟩
    · intro otp otpMem email purpose pending
      rcases List.mem_cons.mp otpMem with rfl | otpMem
      · exact ⟨_, List.mem_cons_self, pending, rfl⟩
      · rcases ih otp otpMem email purpose pending with ⟨earlier, earlierMem, was, same⟩
        exact ⟨earlier, List.mem_cons_of_mem _ earlierMem, was, same⟩

theorem consumeOTP_cases (email purpose code : String) :
    (∃ failure otps, server.consumeOTP env email purpose code =
      (.error failure, { server with otps }) ∧ Retires server.otps otps) ∨
    ∃ otp otps, server.consumeOTP env email purpose code = (.ok otp, { server with otps }) ∧
      Retires server.otps otps ∧ otp ∈ server.otps ∧
        otp.pending (address env email) purpose = true := by
  unfold Server.consumeOTP
  cases found : server.pendingOTP env email purpose with
  | none =>
    left
    exact ⟨_, _, rfl, retires_refl _⟩
  | some otp =>
    have counts : Retires server.otps (Server.changePending (address env email) purpose
        (fun otp => { otp with attempts := otp.attempts + 1 }) server.otps) := by
      apply retires_changePending
      intro otp email purpose pending
      exact ⟨pending, rfl⟩
    have consumes : Retires server.otps (Server.changePending (address env email) purpose
        (fun otp => { otp with consumedAt := some server.now }) server.otps) := by
      apply retires_changePending
      intro otp email purpose pending
      simp [EmailOTP.pending] at pending
    dsimp only
    split_ifs
    · left
      exact ⟨_, _, rfl, retires_refl _⟩
    · left
      exact ⟨_, _, rfl, retires_refl _⟩
    · left
      exact ⟨_, _, rfl, counts⟩
    · left
      exact ⟨_, _, rfl, counts⟩
    · right
      refine ⟨_, _, rfl, consumes, List.mem_of_find?_eq_some found, ?_⟩
      simpa only using List.find?_some found

theorem consumeRecoveryCode_cases (env : Primitives) (userID : UUID) (code : String) :
    ∃ spent recoveryCodes, server.consumeRecoveryCode env userID code =
      (spent, { server with recoveryCodes }) ∧ Spends server.recoveryCodes recoveryCodes ∧
        (spent = true → ∃ row ∈ server.recoveryCodes, row.userID = userID ∧ row.usedAt = none ∧
          row.codeHash = hashRecoveryCode env (normalizeRecoveryCode env code)) := by
  unfold Server.consumeRecoveryCode
  dsimp only
  split_ifs with empty
  · refine ⟨false, server.recoveryCodes, rfl, ?_, Bool.false_ne_true.elim⟩
    intro row rowMem _
    exact rowMem
  · refine ⟨_, _, rfl, ?_, ?_⟩
    · intro row rowMem unused
      rcases List.mem_map.mp rowMem with ⟨earlier, earlierMem, rfl⟩
      split_ifs at unused ⊢
      exact earlierMem
    · intro single
      rw [beq_iff_eq] at single
      rcases List.exists_mem_of_length_pos (single ▸ Nat.one_pos) with ⟨row, rowMem⟩
      rcases List.mem_filter.mp rowMem with ⟨rowMem, redeemed⟩
      simp only [Server.redeems, Bool.and_eq_true, beq_iff_eq, Option.isNone_iff_eq_none] at redeemed
      exact ⟨row, rowMem, redeemed.1.1, redeemed.2, redeemed.1.2⟩

variable {user : Account}

theorem mem_of_account {id : UUID} (found : server.account id = some user) :
    user ∈ server.users.rows ∧ user.id = id := by
  constructor
  · exact List.mem_of_find?_eq_some found
  · simpa using List.find?_some found

theorem mem_of_findUser {email panel : String}
    (found : server.findUser email panel = some user) : user ∈ server.users.rows :=
  List.mem_of_find?_eq_some found

theorem challenged_eq {token : Token} {userID : UUID}
    (parsed : parseMFAChallenge token server.now = .ok userID)
    (found : server.account userID = some user) (active : user.status = "active") :
    server.challenged token = some user := by
  simp [Server.challenged, parsed, found, active]

theorem exists_passed_of_meantFor {branch : Branch} {token : Token} {userID : UUID}
    (legible : server.AllLegible) (parsed : parseMFAChallenge token server.now = .ok userID)
    (meant : server.MeantFor branch token) :
    ∃ challenge, Event.passed branch challenge ∈ server.history ∧ challenge.token = token ∧
      challenge.subject = userID := by
  rcases meant with ⟨challenge, challengeMem, rfl⟩
  refine ⟨challenge, challengeMem, rfl, ?_⟩
  rw [(legible _ challengeMem challenge rfl).parseMFAChallenge] at parsed
  split_ifs at parsed
  exact Except.ok.inj parsed

variable {request : Request}

theorem exists_claims_of_currentUser (current : server.currentUser request = .ok user) :
    ∃ claims, authRequired request server.now = .ok claims ∧
      server.account claims.userID = some user := by
  unfold Server.currentUser at current
  split at current
  · cases current
  · rename_i claims admitted
    split at current
    · cases current
    · rename_i account found
      cases current
      exact ⟨claims, admitted, found⟩

theorem mem_of_currentUser
    (current : server.currentUser request = .ok user) : user ∈ server.users.rows := by
  rcases exists_claims_of_currentUser current with ⟨claims, -, found⟩
  exact (mem_of_account found).1

theorem hasSession_of_signedIn (legible : server.AllLegible)
    (current : server.currentUser request = .ok user) (signedIn : server.SignedIn request) :
    server.HasSession user.id := by
  rcases signedIn with ⟨challenge, access, mfaEnabled, sessionMem, extracted⟩
  rcases exists_claims_of_currentUser current with ⟨claims, admitted, found⟩
  rw [authRequired_eq_ok extracted] at admitted
  rcases (legible _ sessionMem access rfl).parseAccessToken server.now with ⟨read, subject, -, parsed⟩
  rw [parsed] at admitted
  split_ifs at admitted
  cases admitted
  exact ⟨challenge, access, mfaEnabled, sessionMem,
    subject.symm.trans (mem_of_account found).2.symm⟩

theorem effect_passed_setup (userMem : user ∈ server.users.rows) (without : user.mfaEnabled = false) :
    Effect env deployment server
      (server.record (.passed .setup (.mfaChallenge user.toUser server.now))) := by
  refine .passed .setup user userMem (by decide) ⟨fun same => ?_, fun enabled => ?_⟩
  · cases same
  · exact absurd (enabled.symm.trans without) (by decide)

theorem effect_login (email password panel : String) (locked : Bool) (code : String) :
    Effect env deployment server
      (server.login env deployment email password panel locked code).2 := by
  unfold Server.login
  cases found : server.findUser email panel with
  | none => exact .refused
  | some user =>
    have userMem := mem_of_findUser found
    dsimp only
    split_ifs with locked wrong inactive second superadmin free
    · exact .refused
    · exact .refused
    · exact .refused
    · refine .passed .mfa user userMem (by decide) ⟨fun _ => ?_, fun _ => rfl⟩
      exact (Bool.and_eq_true_iff.mp second).1
    all_goals have without : user.mfaEnabled = false :=
      Bool.eq_false_iff.mpr fun enabled => second (by simp [enabled, user.enrolled enabled])
    · exact effect_passed_setup userMem without
    · exact .emailed user code userMem without
    · exact effect_passed_setup userMem without

theorem effect_resendLogin (token : Token) (code : String) :
    Effect env deployment server (server.resendLogin env token code).2 := by
  unfold Server.resendLogin
  split
  · exact .refused
  · split
    · exact .refused
    · rename_i user found
      split
      · exact .refused
      · exact .resent user code (mem_of_account found).1

theorem effect_verifyLogin (legible : server.AllLegible) (token : Token) (code : String)
    (tokenID : UUID)
    (keeps : ¬Strays env deployment server (.verifyLogin token code tokenID)) :
    Effect env deployment server (server.verifyLogin env token code tokenID).2 := by
  unfold Server.verifyLogin
  cases parsed : parseMFAChallenge token server.now with
  | error _ => exact .refused
  | ok userID =>
    cases found : server.account userID with
    | none => simpa only [found] using .refused
    | some user =>
      dsimp only
      rw [found]
      dsimp only
      split_ifs with inactive
      · exact .refused
      · rcases consumeOTP_cases user.email otpPurposeLogin code with
          ⟨failure, otps, consumed, retires⟩ | ⟨otp, otps, consumed, retires, otpMem, pending⟩
        · rw [consumed]
          exact .counted otps retires
        · rw [consumed]
          refine .verifiedLogin token user otp otps tokenID (mem_of_account found).1 otpMem
            pending retires ?_
          intro covered
          have meant : server.MeantFor .otp token := by
            by_contra stray
            apply keeps
            refine ⟨user, otp, challenged_eq parsed found (not_not.mp inactive), covered, ?_, stray⟩
            rw [consumed]
          rw [(mem_of_account found).2]
          exact exists_passed_of_meantFor legible parsed meant

theorem effect_setup (request : Request) (secret nonce : String) :
    Effect env deployment server (server.setup env request secret nonce).2 := by
  unfold Server.setup
  split
  · exact .refused
  · rename_i user current
    split_ifs with already
    · exact .refused
    · exact .setUp user _ (mem_of_currentUser current) (Bool.not_eq_true _ ▸ already) _

theorem effect_enable (legible : server.AllLegible) (request : Request) (code : String)
    (codes : List String)
    (keeps : ¬Strays env deployment server (.enable request code codes)) :
    Effect env deployment server (server.enable env request code codes).2 := by
  unfold Server.enable
  split
  · exact .refused
  · rename_i user current
    split_ifs with already noSecret wrong
    · exact .refused
    · exact .refused
    · exact .refused
    · have without : user.mfaEnabled = false := Bool.not_eq_true _ ▸ already
      refine .enabled user codes (mem_of_currentUser current) without (fun _ => noSecret) ?_
      intro covered
      by_contra noSession
      apply keeps
      refine ⟨user, current, covered, without, noSecret, by simpa using wrong, fun signedIn => ?_⟩
      exact noSession (hasSession_of_signedIn legible current signedIn)

theorem effect_disable (legible : server.AllLegible) (request : Request) (password : String)
    (keeps : ¬Strays env deployment server (.disable request password)) :
    Effect env deployment server (server.disable env deployment request password).2 := by
  unfold Server.disable
  split
  · exact .refused
  · rename_i user current
    split_ifs with wrong required
    · exact .refused
    · exact .refused
    · refine .disabled user (mem_of_currentUser current) _ ?_
      intro enabled
      by_contra noSession
      apply keeps
      refine ⟨user, current, enabled, by simpa using required, by simpa using wrong,
        fun signedIn => ?_⟩
      exact noSession (hasSession_of_signedIn legible current signedIn)

theorem mfaSecret_of_openSealed {stored secret : String} (present : stored ≠ "")
    (opened : openSealed env stored = some secret) : mfaSecret env stored = secret := by
  simp [mfaSecret, present, opened]

theorem effect_verify (legible : server.AllLegible) (token : Token) (code : String) (tokenID : UUID)
    (keeps : ¬Strays env deployment server (.verify token code tokenID)) :
    Effect env deployment server (server.verify env token code tokenID).2 := by
  unfold Server.verify
  cases parsed : parseMFAChallenge token server.now with
  | error _ => exact .refused
  | ok userID =>
    cases found : server.account userID with
    | none => simpa only [found] using .refused
    | some user =>
      dsimp only
      rw [found]
      dsimp only
      split_ifs with inactive valid
      · exact .refused
      all_goals
        have meant : Covered deployment user → server.Accepts env user code →
            server.MeantFor .mfa token ∧ user.mfaEnabled = true ∧
              server.Readable env user code := by
          intro covered accepts
          by_contra stray
          exact keeps ⟨user, challenged_eq parsed found (not_not.mp inactive), covered, accepts,
            stray⟩
      · refine .verified token user server.recoveryCodes _ tokenID (mem_of_account found).1
          (fun row rowMem _ => rowMem) rfl ?_
        intro covered
        rcases meant covered (.timed valid) with ⟨meant, enabled, readable⟩
        rcases exists_passed_of_meantFor legible parsed meant with
          ⟨challenge, challengeMem, -, subject⟩
        rcases Option.isSome_iff_exists.mp (readable valid) with ⟨secret, opened⟩
        refine ⟨enabled, ⟨challenge, challengeMem, ?_⟩, .inl ⟨secret, ?_, opened⟩⟩
        · exact subject.trans (mem_of_account found).2.symm
        · rw [mfaSecret_of_openSealed (user.enrolled enabled) opened]
      · rcases consumeRecoveryCode_cases env user.id code with
          ⟨spent, recoveryCodes, consumed, spends, unused⟩
        rw [consumed]
        cases spent with
        | false => exact .tried recoveryCodes spends
        | true =>
          refine .verified token user recoveryCodes _ tokenID (mem_of_account found).1 spends
            rfl ?_
          intro covered
          rcases meant covered (.recovery (by rw [consumed])) with ⟨meant, enabled, -⟩
          rcases exists_passed_of_meantFor legible parsed meant with
            ⟨challenge, challengeMem, -, subject⟩
          rcases unused rfl with ⟨row, rowMem, owner, unused, same⟩
          refine ⟨enabled, ⟨challenge, challengeMem, ?_⟩, .inr ⟨row, rowMem, ?_, owner, unused⟩⟩
          · exact subject.trans (mem_of_account found).2.symm
          · rw [same]

theorem effect_of_step {next : Server} {call : Call} (legible : server.AllLegible)
    (keeps : ¬Strays env deployment server call)
    (stepped : server.step env deployment call = some next) :
    Effect env deployment server next := by
  simp only [Server.step, Option.ite_none_right_eq_some, Option.some.injEq] at stepped
  rcases stepped with ⟨-, rfl⟩
  cases call with
  | login email password panel locked code => exact effect_login email password panel locked code
  | resendLogin token code => exact effect_resendLogin token code
  | verifyLogin token code tokenID => exact effect_verifyLogin legible token code tokenID keeps
  | setup request secret nonce => exact effect_setup request secret nonce
  | enable request code codes => exact effect_enable legible request code codes keeps
  | disable request password => exact effect_disable legible request password keeps
  | verify token code tokenID => exact effect_verify legible token code tokenID keeps
  | tick time => exact .elapsed time

end Aavishield.Auth
