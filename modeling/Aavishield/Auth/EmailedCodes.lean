import Aavishield.Auth.SignIn

/-!
# Emailed codes

The sign-in codes that are sent by email, by requests that overlap.  Every statement to the
database is a step of its own, and the steps of requests interleave.
-/

namespace Aavishield.EmailedCodes

open Auth (Account Deployment EmailOTP Primitives Rejection Server Token)
open Dataplane (HasID Table)

/-- A row of `email_otps`, with its primary key. -/
structure OTP extends EmailOTP where
  id : UUID

instance : HasID OTP := ⟨OTP.id⟩

inductive Deed where
  | issued (id : UUID) (email purpose : String)
  | compared (id : UUID)
  | accepted (id : UUID) (email purpose : String)
  deriving DecidableEq

structure Database where
  now : ℤ
  users : Table Account
  otps : Table OTP
  history : List Deed

/-- What `Login` and `ResendLogin` do next. -/
inductive SendPhase where
  | checking
  | cooling (user : Account)
  | retiring (user : Account)
  | creating (email purpose : String) (userID : UUID) (started : ℤ)

/-- What `VerifyLogin` does next. -/
inductive VerifyPhase where
  | checking
  | choosing (user : Account)
  | counting (otp : OTP)
  | consuming (otp : OTP)

inductive Request where
  | login (email password panel : String) (locked : Bool) (phase : SendPhase)
  | resendLogin (token : Token) (phase : SendPhase)
  | verifyLogin (token : Token) (code : String) (phase : VerifyPhase)
  | finished (answer : Except Rejection Unit)

def Request.isNew : Request → Bool
  | .login _ _ _ _ .checking | .resendLogin _ .checking | .verifyLogin _ _ .checking => true
  | _ => false

def Request.failed (status : ℕ) (error : String) : Request := .finished (.error ⟨status, error, none⟩)

def Request.done : Request := .finished (.ok ())

def Request.challengeExpired : Request :=
  .finished (.error ⟨401, "This sign-in attempt expired. Enter your email and password again.",
    some "OTP_CHALLENGE_EXPIRED"⟩)

structure Draw where
  id : UUID
  code : String

namespace Database

variable (env : Primitives) (deployment : Deployment) (db : Database)

def record (deed : Deed) : Database := { db with history := deed :: db.history }

def accounts : Server := { now := db.now, users := db.users, otps := [], recoveryCodes := [], history := [] }

/-- `ORDER BY created_at DESC`, and by the primary key. -/
def precedes (first second : OTP) : Bool :=
  decide (second.createdAt < first.createdAt) ||
    first.createdAt == second.createdAt && decide (first.id.bits.toNat < second.id.bits.toNat)

def newest : List OTP → Option OTP
  | [] => none
  | otp :: rest =>
    match newest rest with
    | none => some otp
    | some other => if precedes otp other then some otp else some other

def cooldownRemaining (email purpose : String) : Except ℤ Unit :=
  let key := String.ofList (email.toList.map env.lower)
  match newest (db.otps.rows.filter fun otp => otp.email == key && otp.purpose == purpose) with
  | none => .ok ()
  | some last =>
    let elapsed := db.now - last.createdAt
    if Auth.resendCooldown ≤ elapsed then .ok ()
    else .error ((Auth.resendCooldown - elapsed) / 10 ^ 9 + 1)

/-- The first statement of `issueOTP`. -/
def retire (email purpose : String) : Database :=
  { db with
    otps := db.otps.update
      (fun otp => if otp.pending email purpose then { otp with consumedAt := some db.now } else otp)
      (fun otp => by dsimp only [HasID.id]; split <;> rfl) }

def create (email purpose : String) (userID : UUID) (started : ℤ) (draw : Draw) : Database :=
  let otp : OTP :=
    { email, purpose
      userID := some userID
      id := draw.id
      codeHash := Auth.hashOTP env draw.code
      attempts := 0
      expiresAt := started + Auth.otpValidity
      consumedAt := none
      createdAt := db.now }
  { db with otps := db.otps.insert otp }.record (.issued draw.id email purpose)

/-- `SendLoginOTP`, statement by statement; the error of the first one is not looked at. -/
def sendLoginOTP (request : SendPhase → Request) (error : String) (works : Bool) (draw : Draw) :
    SendPhase → Request × Database
  | .creating email purpose userID started =>
    if works ∧ ¬db.otps.Holds draw.id then
      (.done, db.create env email purpose userID started draw)
    else (.failed 500 error, db)
  | .checking | .cooling _ => (.done, db)
  | .retiring user =>
    let email := Auth.address env user.email
    (request (.creating email Auth.otpPurposeLogin user.id db.now),
      if works then db.retire email Auth.otpPurposeLogin else db)

/-- `Login`: the password step sends on those whose second factor is an emailed code. -/
def login (email password panel : String) (locked works : Bool) (draw : Draw) :
    SendPhase → Request × Database
  | .checking =>
    match (db.accounts.login env deployment email password panel locked "").1,
      db.accounts.findUser email panel with
    | .error rejection, _ => (.finished (.error rejection), db)
    | .ok (.challenge .otp _), some user =>
      (.login email password panel locked (.retiring user), db)
    | .ok _, _ => (.done, db)
  | phase =>
    db.sendLoginOTP env (.login email password panel locked)
      "Could not send your sign-in code" works draw phase

def resendLogin (token : Token) (works : Bool) (draw : Draw) : SendPhase → Request × Database
  | .checking =>
    match Auth.parseMFAChallenge token db.now with
    | .error _ => (.challengeExpired, db)
    | .ok userID =>
      match db.accounts.account userID with
      | none => (.failed 401 "Invalid sign-in attempt", db)
      | some user => (.resendLogin token (.cooling user), db)
  | .cooling user =>
    match db.cooldownRemaining env user.email Auth.otpPurposeLogin with
    | .error wait => (.failed 429 s!"A code was just sent. Try again in {wait} seconds.", db)
    | .ok () => (.resendLogin token (.retiring user), db)
  | phase =>
    db.sendLoginOTP env (.resendLogin token) "Could not send the code" works draw phase

def pendingOTP (email purpose : String) : Option OTP :=
  newest (db.otps.rows.filter fun otp => otp.pending email purpose)

def count (otp : OTP) : Database :=
  { db with
    otps := db.otps.update
      (fun other => if other.id = otp.id then { other with attempts := otp.attempts + 1 } else other)
      (fun other => by dsimp only [HasID.id]; split <;> rfl) }

def isPending (id : UUID) : Bool :=
  db.otps.rows.any fun other => other.id == id && other.consumedAt.isNone

def consume (otp : OTP) : Database :=
  { db with
    otps := db.otps.update
      (fun other =>
        if other.id = otp.id ∧ other.consumedAt.isNone then { other with consumedAt := some db.now }
        else other)
      (fun other => by dsimp only [HasID.id]; split <;> rfl) }.record
    (.accepted otp.id otp.email otp.purpose)

/-- `VerifyLogin` with its `consumeOTP`; a code that is right goes on to a session. -/
def verifyLogin (token : Token) (code : String) (works : Bool) : VerifyPhase → Request × Database
  | .checking =>
    match Auth.parseMFAChallenge token db.now with
    | .error _ => (.challengeExpired, db)
    | .ok userID =>
      match db.accounts.account userID with
      | none => (.failed 401 "Invalid sign-in attempt", db)
      | some user =>
        if user.status ≠ "active" then (.failed 403 ("Account is " ++ user.status), db)
        else (.verifyLogin token code (.choosing user), db)
  | .choosing user =>
    match db.pendingOTP (Auth.address env user.email) Auth.otpPurposeLogin with
    | none => (.failed 401 "no code pending for this address — request a new one", db)
    | some otp =>
      if otp.expiresAt < db.now then
        (.failed 401 "that code has expired — request a new one", db)
      else if Auth.maxOTPAttempts ≤ otp.attempts then
        (.failed 401 "too many incorrect attempts — request a new code", db)
      else
        let phase := if otp.codeHash ≠ Auth.hashOTP env code then VerifyPhase.counting otp
          else .consuming otp
        (.verifyLogin token code phase, db.record (.compared otp.id))
  | .counting otp =>
    let error := if Auth.maxOTPAttempts ≤ otp.attempts + 1 then
        "too many incorrect attempts — request a new code"
      else Server.attemptsLeft (Auth.maxOTPAttempts - (otp.attempts + 1))
    (.failed 401 error, if works then db.count otp else db)
  | .consuming otp =>
    if works ∧ db.isPending otp.id then (.done, db.consume otp)
    else (.failed 401 "that code has already been used", db)

def advance (works : Bool) (draw : Draw) : Request → Request × Database
  | .login email password panel locked phase =>
    db.login env deployment email password panel locked works draw phase
  | .resendLogin token phase => db.resendLogin env token works draw phase
  | .verifyLogin token code phase => db.verifyLogin env token code works phase
  | .finished answer => (.finished answer, db)

end Database

/-- The database, and the requests that are being handled. -/
structure World where
  db : Database
  requests : ℕ → Option Request

inductive Action where
  | begin (request : ℕ) (asked : Request)
  | advance (request : ℕ) (works : Bool) (draw : Draw)
  | changeUsers (users : Table Account)
  | tick (elapsed : ℕ)

variable (env : Primitives) (deployment : Deployment)

/-- Each step of a request is one access to the database. -/
def World.step (world : World) : Action → Option World
  | .begin number asked =>
    if (world.requests number).isNone ∧ asked.isNew then
      some { world with requests := Function.update world.requests number (some asked) }
    else none
  | .advance number works draw =>
    (world.requests number).map fun request =>
      let (next, db) := world.db.advance env deployment works draw request
      ⟨db, Function.update world.requests number (some next)⟩
  | .changeUsers users => some { world with db := { world.db with users } }
  | .tick elapsed => some { world with db := { world.db with now := world.db.now + elapsed } }

def World.initial (now : ℤ) (users : Table Account) : World where
  db := { now, users, otps := .empty, history := [] }
  requests := fun _ => none

end Aavishield.EmailedCodes
