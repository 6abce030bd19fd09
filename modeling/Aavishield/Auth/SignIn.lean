import Aavishield.Auth.Codes
import Aavishield.Auth.TokenKinds
import Aavishield.Dataplane.Tables

/-!
# Signing in

The endpoints that take somebody who knows a password to a session, and those by which
an account enrols a second factor or gives it up.

The history is for the record only; no endpoint reads it.
-/

namespace Aavishield.Auth

open Dataplane (HasID Table)

/--
A row of `users`.  The flag is never set without a secret: `Enable` requires one, `Setup`
refuses to replace it while the flag is set, and `Disable` clears both.
-/
structure Account extends User where
  passwordHash : String
  status : String
  mfaEnabled : Bool
  mfaSecret : String
  enrolled : mfaEnabled = true → mfaSecret ≠ ""

instance : HasID Account := ⟨fun account => account.id⟩

def otpPurposeLogin : String := "login"

/-- A row of `email_otps`. -/
structure EmailOTP where
  email : String
  codeHash : String
  purpose : String
  userID : Option UUID
  attempts : ℕ
  expiresAt : ℤ
  consumedAt : Option ℤ
  createdAt : ℤ

def EmailOTP.pending (otp : EmailOTP) (email purpose : String) : Bool :=
  otp.email == email && otp.purpose == purpose && otp.consumedAt.isNone

/-- A row of `mfa_recovery_codes`. -/
structure MFARecoveryCode where
  userID : UUID
  codeHash : String
  usedAt : Option ℤ

/-- What `Login` sends its caller on to. -/
inductive Branch where
  | mfa
  | setup
  | otp
  deriving DecidableEq

/-- What a sign-in has come through, for the record. -/
inductive Event where
  | passed (branch : Branch) (challenge : Minted)
  | emailed (email codeHash : String)
  | acceptedOTP (challenge : Token) (email codeHash : String)
  | acceptedTOTP (userID : UUID) (secret : String)
  | acceptedRecoveryCode (userID : UUID) (codeHash : String)
  | session (challenge : Token) (access : Minted) (mfaEnabled : Bool)

def Event.returned : Event → Option Minted
  | .passed _ challenge => some challenge
  | .session _ access _ => some access
  | _ => none

/-- The tables that a sign-in reads and writes. -/
structure Server where
  now : ℤ
  users : Table Account
  otps : List EmailOTP
  recoveryCodes : List MFARecoveryCode
  history : List Event

/-- The settings that ask for a second factor. -/
structure Deployment where
  /-- `settings["mfa_required"]` of an organization. -/
  mfaRequired : UUID → Bool
  requireSuperadminTOTP : Bool

inductive Answer where
  | challenge (branch : Branch) (challenge : Token)
  | sent
  | secret (secret : String)
  | enabled (recoveryCodes : List String)
  | disabled
  | session (access : Token)
  | elapsed
  deriving DecidableEq

abbrev Handled := Except Rejection Answer × Server

def otpValidity : ℤ := 10 * 60 * 10 ^ 9

def maxOTPAttempts : ℕ := 5

def resendCooldown : ℤ := 45 * 10 ^ 9

variable (env : Primitives) (deployment : Deployment)

def requiresTOTPSetup (user : Account) : Bool :=
  user.role == roleSuperAdmin && deployment.requireSuperadminTOTP

def orgRequiresMFA (orgID : Option UUID) : Bool := orgID.any deployment.mfaRequired

namespace Server

variable (server : Server)

def refuse (status : ℕ) (error : String) (code : Option String) : Handled :=
  (.error ⟨status, error, code⟩, server)

def record (event : Event) : Server := { server with history := event :: server.history }

def account (id : UUID) : Option Account := server.users.rows.find? fun account => account.id == id

def issueOTP (email purpose : String) (userID : Option UUID) (code : String) : Server :=
  let email := address env email
  let retired := server.otps.map fun otp =>
    if otp.pending email purpose then { otp with consumedAt := some server.now } else otp
  let otp : EmailOTP :=
    { email, purpose, userID
      codeHash := hashOTP env code
      attempts := 0
      expiresAt := server.now + otpValidity
      consumedAt := none
      createdAt := server.now }
  { server with otps := otp :: retired }

def sendLoginOTP (user : Account) (code : String) : Server :=
  (server.issueOTP env user.email otpPurposeLogin (some user.id) code).record
    (.emailed (address env user.email) (hashOTP env code))

def pendingOTP (email purpose : String) : Option EmailOTP :=
  server.otps.find? fun otp => otp.pending (address env email) purpose

def changePending (email purpose : String) (change : EmailOTP → EmailOTP) :
    List EmailOTP → List EmailOTP
  | [] => []
  | otp :: rest =>
    if otp.pending email purpose then change otp :: rest
    else otp :: changePending email purpose change rest

def attemptsLeft (left : ℕ) : String :=
  let plural := if left = 1 then "" else "s"
  s!"that code is not correct ({left} attempt{plural} left)"

def consumeOTP (email purpose code : String) : Except String EmailOTP × Server :=
  match server.pendingOTP env email purpose with
  | none => (.error "no code pending for this address — request a new one", server)
  | some otp =>
    if otp.expiresAt < server.now then
      (.error "that code has expired — request a new one", server)
    else if maxOTPAttempts ≤ otp.attempts then
      (.error "too many incorrect attempts — request a new code", server)
    else if otp.codeHash ≠ hashOTP env code then
      let counted := { server with
        otps := changePending (address env email) purpose
          (fun otp => { otp with attempts := otp.attempts + 1 }) server.otps }
      if maxOTPAttempts ≤ otp.attempts + 1 then
        (.error "too many incorrect attempts — request a new code", counted)
      else (.error (attemptsLeft (maxOTPAttempts - (otp.attempts + 1))), counted)
    else
      (.ok otp, { server with
        otps := changePending (address env email) purpose
          (fun otp => { otp with consumedAt := some server.now }) server.otps })

/-- Whether enough time has passed since the last code to send another, or how long to wait. -/
def cooldownRemaining (email purpose : String) : Except ℤ Unit :=
  let key := String.ofList (email.toList.map env.lower)
  match server.otps.find? fun otp => otp.email == key && otp.purpose == purpose with
  | none => .ok ()
  | some last =>
    let elapsed := server.now - last.createdAt
    if resendCooldown ≤ elapsed then .ok ()
    else .error ((resendCooldown - elapsed) / 10 ^ 9 + 1)

/-- Whether the update of `consumeRecoveryCode` affects this row. -/
def redeems (row : MFARecoveryCode) (userID : UUID) (codeHash : String) : Bool :=
  row.userID == userID && row.codeHash == codeHash && row.usedAt.isNone

def consumeRecoveryCode (userID : UUID) (code : String) : Bool × Server :=
  let normalized := normalizeRecoveryCode env code
  if normalized = "" then (false, server)
  else
    let codeHash := hashRecoveryCode env normalized
    ((server.recoveryCodes.filter (redeems · userID codeHash)).length == 1,
      { server with
        recoveryCodes := server.recoveryCodes.map fun row =>
          if redeems row userID codeHash then { row with usedAt := some server.now } else row })

def issueRecoveryCodes (userID : UUID) (codes : List String) : Server :=
  { server with
    recoveryCodes := (codes.map fun code => ⟨userID, hashRecoveryCode env code, none⟩) ++
      server.recoveryCodes.filter (·.userID ≠ userID) }

def issueSession (challenge : Token) (user : Account) (tokenID : UUID) : Handled :=
  (.ok (.session (generateAccessToken user.toUser tokenID server.now)),
    server.record (.session challenge (.access user.toUser tokenID server.now) user.mfaEnabled))

/-- The account that `Login` looks up; the rows stand in the order of the primary key. -/
def findUser (email panel : String) : Option Account :=
  server.users.rows.find? fun user =>
    user.email == email && (panel != "company" || user.orgID.isSome) &&
      (panel != "superadmin" || user.role == roleSuperAdmin)

def challenge (branch : Branch) (user : Account) : Handled :=
  (.ok (.challenge branch (generateMFAChallenge user.toUser server.now)),
    server.record (.passed branch (.mfaChallenge user.toUser server.now)))

def login (email password panel : String) (locked : Bool) (code : String) : Handled :=
  match server.findUser email panel with
  | none => server.refuse 401 "Invalid email or password" none
  | some user =>
    if locked then server.refuse 429 "Too many failed sign-ins. Try again in a few minutes." none
    else if !env.compareHashAndPassword user.passwordHash password then
      server.refuse 401 "Invalid email or password" none
    else if user.status ≠ "active" then
      server.refuse 403 ("Account is " ++ user.status) none
    else if user.mfaEnabled && user.mfaSecret != "" then server.challenge .mfa user
    else if requiresTOTPSetup deployment user then server.challenge .setup user
    else if !orgRequiresMFA deployment user.orgID then
      let (answer, passed) := server.challenge .otp user
      (answer, passed.sendLoginOTP env user code)
    else server.challenge .setup user

def challengeExpired (code : String) : Handled :=
  server.refuse 401 "This sign-in attempt expired. Enter your email and password again." (some code)

def resendLogin (token : Token) (code : String) : Handled :=
  match parseMFAChallenge token server.now with
  | .error _ => server.challengeExpired "OTP_CHALLENGE_EXPIRED"
  | .ok userID =>
    match server.account userID with
    | none => server.refuse 401 "Invalid sign-in attempt" none
    | some user =>
      match server.cooldownRemaining env user.email otpPurposeLogin with
      | .error wait =>
        server.refuse 429 s!"A code was just sent. Try again in {wait} seconds." none
      | .ok () => (.ok .sent, server.sendLoginOTP env user code)

def verifyLogin (token : Token) (code : String) (tokenID : UUID) : Handled :=
  match parseMFAChallenge token server.now with
  | .error _ => server.challengeExpired "OTP_CHALLENGE_EXPIRED"
  | .ok userID =>
    match server.account userID with
    | none => server.refuse 401 "Invalid sign-in attempt" none
    | some user =>
      if user.status ≠ "active" then server.refuse 403 ("Account is " ++ user.status) none
      else
        match server.consumeOTP env user.email otpPurposeLogin code with
        | (.error failure, counted) => counted.refuse 401 failure none
        | (.ok otp, consumed) =>
          (consumed.record (.acceptedOTP token otp.email otp.codeHash)).issueSession token user
            tokenID

/-- The account of the session that a request to an endpoint behind `AuthRequired` carries. -/
def currentUser (request : Request) : Except Rejection Account :=
  match authRequired request server.now with
  | .error rejection => .error rejection
  | .ok claims =>
    match server.account claims.userID with
    | none => .error ⟨404, "User not found", none⟩
    | some user => .ok user

def updateMFA (id : UUID) (mfaEnabled : Bool) (mfaSecret : String)
    (enrolled : mfaEnabled = true → mfaSecret ≠ "") : Server :=
  { server with
    users := server.users.update
      (fun user => if user.id = id then { user with mfaEnabled, mfaSecret, enrolled } else user)
      (fun user => by dsimp only [HasID.id]; split <;> rfl) }

def setup (request : Request) (secret nonce : String) : Handled :=
  match server.currentUser request with
  | .error rejection => (.error rejection, server)
  | .ok user =>
    if user.mfaEnabled then
      server.refuse 409 "Two-factor authentication is already on. Turn it off first to re-enrol." none
    else
      (.ok (.secret secret), server.updateMFA user.id false (sealSecret env nonce secret)
        (fun enabled => absurd enabled Bool.false_ne_true))

def enable (request : Request) (code : String) (codes : List String) : Handled :=
  match server.currentUser request with
  | .error rejection => (.error rejection, server)
  | .ok user =>
    if user.mfaEnabled then server.refuse 409 "Two-factor authentication is already on" none
    else if noSecret : user.mfaSecret = "" then server.refuse 400 "Start setup first" none
    else if !verifyTOTP env user.mfaSecret code server.now then
      server.refuse 400 ("That code didn't match. Check your authenticator app's clock and " ++
        "try the current code.") none
    else
      (.ok (.enabled codes),
        (server.updateMFA user.id true user.mfaSecret fun _ => noSecret).issueRecoveryCodes
          env user.id codes)

def disable (request : Request) (password : String) : Handled :=
  match server.currentUser request with
  | .error rejection => (.error rejection, server)
  | .ok user =>
    if !env.compareHashAndPassword user.passwordHash password then
      server.refuse 401 "That password is incorrect" none
    else if orgRequiresMFA deployment user.orgID then
      server.refuse 403 ("Your organization requires two-factor authentication. " ++
        "An administrator must turn off the requirement first.") none
    else
      let off := server.updateMFA user.id false "" fun enabled => absurd enabled Bool.false_ne_true
      (.ok .disabled,
        { off with recoveryCodes := server.recoveryCodes.filter (·.userID ≠ user.id) })

def verify (token : Token) (code : String) (tokenID : UUID) : Handled :=
  match parseMFAChallenge token server.now with
  | .error _ => server.challengeExpired "MFA_CHALLENGE_EXPIRED"
  | .ok userID =>
    match server.account userID with
    | none => server.refuse 401 "Invalid sign-in attempt" none
    | some user =>
      let secret := mfaSecret env user.mfaSecret
      if user.status ≠ "active" then server.refuse 403 ("Account is " ++ user.status) none
      else if verifyTOTP env secret code server.now then
        (server.record (.acceptedTOTP user.id secret)).issueSession token user tokenID
      else
        match server.consumeRecoveryCode env user.id code with
        | (false, tried) => tried.refuse 401 "That code is not valid" none
        | (true, spent) =>
          (spent.record (.acceptedRecoveryCode user.id
            (hashRecoveryCode env (normalizeRecoveryCode env code)))).issueSession
              token user tokenID

end Server

/-- A request to a sign-in endpoint, with what is drawn at random for it. -/
inductive Call where
  | login (email password panel : String) (locked : Bool) (code : String)
  | resendLogin (token : Token) (code : String)
  | verifyLogin (token : Token) (code : String) (tokenID : UUID)
  | setup (request : Request) (secret nonce : String)
  | enable (request : Request) (code : String) (codes : List String)
  | disable (request : Request) (password : String)
  | verify (token : Token) (code : String) (tokenID : UUID)
  | tick (elapsed : ℕ)

def Call.tokens : Call → List Token
  | .resendLogin token _ | .verifyLogin token _ _ | .verify token _ _ => [token]
  | .setup request _ _ | .enable request _ _ | .disable request _ =>
    request.header.toList ++ request.cookie.toList
  | .login .. | .tick _ => []

def Server.handle (server : Server) : Call → Handled
  | .login email password panel locked code =>
    server.login env deployment email password panel locked code
  | .resendLogin token code => server.resendLogin env token code
  | .verifyLogin token code tokenID => server.verifyLogin env token code tokenID
  | .setup request secret nonce => server.setup env request secret nonce
  | .enable request code codes => server.enable env request code codes
  | .disable request password => server.disable env deployment request password
  | .verify token code tokenID => server.verify env token code tokenID
  | .tick elapsed => (.ok .elapsed, { server with now := server.now + elapsed })

def Server.gave (server : Server) (token : Token) : Bool :=
  server.history.any fun event => event.returned.any fun minted => minted.token == token

/-- Nobody presents a token that was not given out. -/
def Server.step (server : Server) (call : Call) : Option Server :=
  if call.tokens.all server.gave then some (server.handle env deployment call).2 else none

end Aavishield.Auth
