import Aavishield.Auth.EmailedCodes
import Aavishield.Auth.OrgUsers

/-!
# Registration

The endpoints by which a company signs itself up, by requests that overlap.  `Register` is the
older one; the others prove the address first, and the details wait beside the code that was
mailed.  Every statement to the database is a step of its own.
-/

namespace Aavishield.Registration

open Auth (EmailOTP Rejection maxOTPAttempts)
open Dataplane (HasID Table)
open OrgUsers (trimmed)
open Text

/-- What registration takes from libraries. -/
structure Primitives extends Auth.Primitives where
  /-- `bcrypt.GenerateFromPassword`, of a salt and a password. -/
  generateFromPassword : String → String → Option String
  /-- `unicode.IsLower`, `unicode.IsUpper` and `unicode.IsDigit`. -/
  isLower : Char → Bool
  isUpper : Char → Bool
  isDigit : Char → Bool
  /-- How often a password is in the corpus of breaches, if that is asked for. -/
  pwnedCount : Option (String → ℕ)
  /-- The `email` rule of a binding. -/
  isEmail : String → Bool
  bindingError : String

def minPasswordLength : ℕ := 10

def commonPasswords : List String :=
  ["password", "password1", "password@1", "password123", "admin@123", "admin@1234", "admin1234",
    "administrator", "welcome@1", "welcome123", "qwerty@123", "changeme", "letmein", "iloveyou",
    "aavishield", "aavishield@1", "superadmin@123", "employee@123", "test@1234", "passw0rd"]

section Passwords

variable (env : Primitives)

def classOf (letter : Char) : ℕ :=
  if env.isLower letter then 0
  else if env.isUpper letter then 1
  else if env.isDigit letter then 2
  else 3

def emailLocalPart (email : String) : List Char :=
  let letters := (Auth.address env.toPrimitives email).toList
  if '@' ∈ letters then letters.takeWhile (· ≠ '@') else []

def validatePassword (password email : String) : String :=
  let classes := (password.toList.map (classOf env)).dedup.length
  let norm := Auth.address env.toPrimitives password
  let name := emailLocalPart env email
  if password.length < minPasswordLength then s!"Use at least {minPasswordLength} characters."
  else if 200 < password.utf8ByteSize then "That password is too long."
  else if classes < 3 ∧ password.length < 14 then
    "Mix upper- and lower-case letters, a number and a symbol (or use a longer passphrase)."
  else if norm ∈ commonPasswords then
    "That password is too common. Choose something harder to guess."
  else if 3 ≤ (String.ofList name).utf8ByteSize ∧ contains norm.toList name then
    "Your password should not contain your email address."
  else if env.pwnedCount.any fun count => decide (0 < count password) then
    "That password has appeared in a known data breach. Choose a different one."
  else ""

end Passwords

structure User extends OrgUsers.User where
  email : String

instance : HasID User := ⟨fun user => user.id⟩

structure Organization where
  id : UUID
  name : String
  slug : String

instance : HasID Organization := ⟨Organization.id⟩

structure Payload where
  companyName : String
  firstName : String
  lastName : String
  passwordHash : String

structure OTP extends EmailedCodes.OTP where
  payload : Payload

instance : HasID OTP := ⟨fun otp => otp.id⟩

def otpPurposeRegister : String := "register"

inductive Deed where
  | mailed (code : UUID) (email password : String)
  | accepted (code : UUID)
  | opened (user : UUID) (code : Option UUID)
  deriving DecidableEq

structure Database where
  now : ℤ
  users : Table User
  organizations : Table Organization
  otps : Table OTP
  history : List Deed

def registered (code : UUID) (history : List Deed) : Option (String × String) :=
  history.findSome? fun deed =>
    match deed with
    | .mailed other email password => if other = code then some (email, password) else none
    | _ => none

structure RegisterRequest where
  companyName : String
  firstName : String
  lastName : String
  email : String
  password : String

def lowered (env : Primitives) (email : String) : String :=
  String.ofList (email.toList.map env.lower)

/-- What `Register` does next; a slug is tried with its number. -/
inductive RegisterPhase where
  | checking
  | slugging (slug : String) (number : ℕ)
  | creating (slug hashed : String)

inductive StartPhase where
  | checking
  | cooling
  | retiring (hashed : String)
  | creating (hashed : String) (started : ℤ)

inductive ResendPhase where
  | finding
  | cooling (pending : OTP)
  | retiring (pending : OTP)
  | creating (pending : OTP) (started : ℤ)

inductive VerifyPhase where
  | choosing
  | counting (otp : OTP)
  | consuming (otp : OTP)
  | checking (otp : OTP)
  | slugging (otp : OTP) (slug : String) (number : ℕ)
  | creating (otp : OTP) (slug : String)

inductive Call where
  | register (body : Option RegisterRequest) (phase : RegisterPhase)
  | startRegistration (body : Option RegisterRequest) (phase : StartPhase)
  | resendRegistration (email : Option String) (phase : ResendPhase)
  | verifyRegistration (body : Option (String × String)) (phase : VerifyPhase)
  | finished (answer : Except Rejection Unit)

def Call.isNew : Call → Bool
  | .register _ .checking | .startRegistration _ .checking | .resendRegistration _ .finding
  | .verifyRegistration _ .choosing => true
  | _ => false

def Call.failed (status : ℕ) (error : String) : Call := .finished (.error ⟨status, error, none⟩)

def Call.done : Call := .finished (.ok ())

structure Draw where
  id : UUID
  orgID : UUID
  code : String
  salt : String

section Bindings

variable (env : Primitives)

def bindsAddress (email : String) : Bool := email != "" && env.isEmail email

def RegisterRequest.binds (needsLastName : Bool) (request : RegisterRequest) : Bool :=
  request.companyName != "" && request.firstName != "" &&
    (!needsLastName || request.lastName != "") && bindsAddress env request.email &&
    decide (8 ≤ request.password.length)

end Bindings

def isSlugLetter (letter : Char) : Bool := letter.isLower || letter.isDigit

def dashed (inRun : Bool) : List Char → List Char
  | [] => []
  | letter :: rest =>
    if isSlugLetter letter then letter :: dashed false rest
    else if inRun then dashed true rest
    else '-' :: dashed true rest

def slugify (env : Primitives) (value : String) : String :=
  let letters := dashed false ((trimSpace value.toList).map env.lower)
  String.ofList ((letters.dropWhile (· == '-')).reverse.dropWhile (· == '-')).reverse

namespace Database

variable (env : Primitives) (db : Database)

def record (deed : Deed) : Database := { db with history := deed :: db.history }

def slugTaken (slug : String) : Bool := db.organizations.rows.any fun org => org.slug == slug

def newest (otps : List OTP) : Option OTP :=
  (EmailedCodes.Database.newest (otps.map OTP.toOTP)).bind fun otp =>
    otps.find? fun other => other.id == otp.id

def codesFor (email : String) : List OTP :=
  db.otps.rows.filter fun otp => otp.email == email && otp.purpose == otpPurposeRegister

def cooldownRemaining (email : String) (works : Bool) : Except ℤ Unit :=
  match newest (if works then db.codesFor (lowered env email) else []) with
  | none => .ok ()
  | some last =>
    let elapsed := db.now - last.createdAt
    if Auth.resendCooldown ≤ elapsed then .ok ()
    else .error ((Auth.resendCooldown - elapsed) / 10 ^ 9 + 1)

def tooSoon (wait : ℤ) : Call :=
  .failed 429 s!"A code was just sent. Try again in {wait} seconds."

/-- The first statement of `issueOTP`. -/
def retire (email : String) : Database :=
  { db with
    otps := db.otps.update
      (fun otp =>
        if otp.pending email otpPurposeRegister then { otp with consumedAt := some db.now } else otp)
      (fun otp => by dsimp only [HasID.id]; split <;> rfl) }

def issue (email : String) (payload : Payload) (password : String) (started : ℤ) (draw : Draw) :
    Database :=
  let otp : OTP :=
    { email, payload
      id := draw.id
      purpose := otpPurposeRegister
      userID := none
      codeHash := Auth.hashOTP env.toPrimitives draw.code
      attempts := 0
      expiresAt := started + Auth.otpValidity
      consumedAt := none
      createdAt := db.now }
  { db with otps := db.otps.insert otp }.record (.mailed draw.id email password)

def count (otp : OTP) : Database :=
  { db with
    otps := db.otps.update
      (fun other => if other.id = otp.id then { other with attempts := otp.attempts + 1 } else other)
      (fun other => by dsimp only [HasID.id]; split <;> rfl) }

def isPending (id : UUID) : Bool :=
  db.otps.rows.any fun other => other.id == id && other.consumedAt.isNone

def consume (otp : OTP) : Database :=
  { db with
    otps := db.otps.update
      (fun other =>
        if other.id = otp.id ∧ other.consumedAt.isNone then { other with consumedAt := some db.now }
        else other)
      (fun other => by dsimp only [HasID.id]; split <;> rfl) }.record (.accepted otp.id)

def administrator (email : String) (details : Payload) (draw : Draw) : User where
  id := draw.id
  orgID := some draw.orgID
  email := email
  passwordHash := details.passwordHash
  firstName := details.firstName
  lastName := details.lastName
  jobTitle := ""
  role := .orgAdmin
  status := .active

def admits (slug : String) (draw : Draw) : Bool :=
  !db.slugTaken slug && decide (¬db.organizations.Holds draw.orgID) &&
    decide (¬db.users.Holds draw.id)

def createAccount (email slug : String) (details : Payload) (code : Option UUID) (draw : Draw) :
    Database :=
  { db with
    organizations := db.organizations.insert ⟨draw.orgID, details.companyName, slug⟩
    users := db.users.insert (administrator email details draw) }.record (.opened draw.id code)

/-- `Register`; the session that follows the transaction is left out. -/
def register (body : Option RegisterRequest) (works : Bool) (draw : Draw) :
    RegisterPhase → Call × Database
  | .checking =>
    match body.filter (RegisterRequest.binds env true) with
    | none => (.failed 400 env.bindingError, db)
    | some request =>
      if works ∧ db.users.rows.any (fun user => user.email == request.email) then
        (.failed 409 "An account with this email already exists", db)
      else
        let reason := validatePassword env request.password request.email
        let base := slugify env request.companyName
        if reason ≠ "" then (.failed 400 reason, db)
        else if base = "" then (.failed 400 "Please enter a valid company name", db)
        else (.register body (.slugging base 2), db)
  | .slugging slug number =>
    match body with
    | none => (.failed 400 env.bindingError, db)
    | some request =>
      if works ∧ db.slugTaken slug then
        let next := s!"{slugify env request.companyName}-{number}"
        (.register body (.slugging next (number + 1)), db)
      else
        match env.generateFromPassword draw.salt request.password with
        | none => (.failed 500 "Failed to hash password", db)
        | some hashed => (.register body (.creating slug hashed), db)
  | .creating slug hashed =>
    match body with
    | none => (.failed 400 env.bindingError, db)
    | some request =>
      if works ∧ db.admits slug draw then
        (.done, db.createAccount request.email slug
          ⟨request.companyName, request.firstName, request.lastName, hashed⟩ none draw)
      else (.failed 500 "Failed to create organization", db)

def detailsOf (request : RegisterRequest) (hashed : String) : Payload :=
  ⟨trimmed request.companyName, trimmed request.firstName, trimmed request.lastName, hashed⟩

def startRegistration (body : Option RegisterRequest) (works : Bool) (draw : Draw) :
    StartPhase → Call × Database :=
  match body with
  | none => fun _ => (.failed 400 env.bindingError, db)
  | some request =>
    let email := Auth.address env.toPrimitives request.email
    fun
    | .checking =>
      if !request.binds env false then (.failed 400 env.bindingError, db)
      else if works ∧ db.users.rows.any (fun user => lowered env user.email == email) then
        (.failed 409 "An account with this email already exists", db)
      else (.startRegistration body .cooling, db)
    | .cooling =>
      match db.cooldownRemaining env email works with
      | .error wait => (tooSoon wait, db)
      | .ok () =>
        match env.generateFromPassword draw.salt request.password with
        | none => (.failed 500 "Failed to secure the password", db)
        | some hashed => (.startRegistration body (.retiring hashed), db)
    | .retiring hashed =>
      (.startRegistration body (.creating hashed db.now), if works then db.retire email else db)
    | .creating hashed started =>
      if works ∧ ¬db.otps.Holds draw.id then
        (.done, db.issue env email (detailsOf request hashed) request.password started draw)
      else (.failed 500 "Could not start registration", db)

def resendRegistration (body : Option String) (works : Bool) (draw : Draw) :
    ResendPhase → Call × Database :=
  match body with
  | none => fun _ => (.failed 400 env.bindingError, db)
  | some requested =>
    let email := Auth.address env.toPrimitives requested
    fun
    | .finding =>
      if !bindsAddress env requested then (.failed 400 env.bindingError, db)
      else
        match newest (if works then db.codesFor email else []) with
        | none =>
          (.failed 400 "Start registration again — we have nothing pending for this address.",
            db)
        | some pending => (.resendRegistration body (.cooling pending), db)
    | .cooling pending =>
      match db.cooldownRemaining env email works with
      | .error wait => (tooSoon wait, db)
      | .ok () => (.resendRegistration body (.retiring pending), db)
    | .retiring pending =>
      (.resendRegistration body (.creating pending db.now), if works then db.retire email else db)
    | .creating pending started =>
      if works ∧ ¬db.otps.Holds draw.id then
        let password := ((registered pending.id db.history).map Prod.snd).getD ""
        (.done, db.issue env email pending.payload password started draw)
      else (.failed 500 "Could not send the code", db)

def afterCode (body : Option (String × String)) (otp : OTP) : Call :=
  if otp.payload.companyName = "" ∨ otp.payload.passwordHash = "" then
    .failed 400 "That registration is incomplete — please start again."
  else .verifyRegistration body (.checking otp)

/-- `VerifyRegistration` with its `consumeOTP`. -/
def verifyRegistration (body : Option (String × String)) (works : Bool) (draw : Draw) :
    VerifyPhase → Call × Database
  | .choosing =>
    match body with
    | none => (.failed 400 env.bindingError, db)
    | some (requested, code) =>
      let email := Auth.address env.toPrimitives requested
      let pending := db.otps.rows.filter fun otp => otp.pending email otpPurposeRegister
      if !bindsAddress env requested || code == "" then
        (.failed 400 env.bindingError, db)
      else
        match newest (if works then pending else []) with
        | none => (.failed 401 "no code pending for this address — request a new one", db)
        | some otp =>
          if otp.expiresAt < db.now then
            (.failed 401 "that code has expired — request a new one", db)
          else if maxOTPAttempts ≤ otp.attempts then
            (.failed 401 "too many incorrect attempts — request a new code", db)
          else if otp.codeHash ≠ Auth.hashOTP env.toPrimitives code then
            (.verifyRegistration body (.counting otp), db)
          else (.verifyRegistration body (.consuming otp), db)
  | .counting otp =>
    let error := if maxOTPAttempts ≤ otp.attempts + 1 then
        "too many incorrect attempts — request a new code"
      else Auth.Server.attemptsLeft (maxOTPAttempts - (otp.attempts + 1))
    (.failed 401 error, if works then db.count otp else db)
  | .consuming otp =>
    if works ∧ db.isPending otp.id then (afterCode body otp, db.consume otp)
    else (.failed 401 "that code has already been used", db)
  | .checking otp =>
    let base := slugify env otp.payload.companyName
    if works ∧ db.users.rows.any (fun user => lowered env user.email == otp.email) then
      (.failed 409 "An account with this email already exists", db)
    else if base = "" then (.failed 400 "Please enter a valid company name", db)
    else (.verifyRegistration body (.slugging otp base 2), db)
  | .slugging otp slug number =>
    if works ∧ db.slugTaken slug then
      let next := s!"{slugify env otp.payload.companyName}-{number}"
      (.verifyRegistration body (.slugging otp next (number + 1)), db)
    else (.verifyRegistration body (.creating otp slug), db)
  | .creating otp slug =>
    if works ∧ db.admits slug draw then
      (.done, db.createAccount otp.email slug otp.payload (some otp.id) draw)
    else (.failed 500 "Failed to create the organization", db)

def advance (works : Bool) (draw : Draw) : Call → Call × Database
  | .register body phase => db.register env body works draw phase
  | .startRegistration body phase => db.startRegistration env body works draw phase
  | .resendRegistration body phase => db.resendRegistration env body works draw phase
  | .verifyRegistration body phase => db.verifyRegistration env body works draw phase
  | .finished answer => (.finished answer, db)

end Database

/-- The database, and the calls under way. -/
structure World where
  db : Database
  calls : ℕ → Option Call

inductive Action where
  | begin (call : ℕ) (asked : Call)
  | advance (call : ℕ) (works : Bool) (draw : Draw)
  | tick (elapsed : ℕ)

variable (env : Primitives)

/-- Each step of a call is one access to the database. -/
def World.step (world : World) : Action → Option World
  | .begin number asked =>
    if (world.calls number).isNone ∧ asked.isNew then
      some { world with calls := Function.update world.calls number (some asked) }
    else none
  | .advance number works draw =>
    (world.calls number).map fun call =>
      let (next, db) := world.db.advance env works draw call
      ⟨db, Function.update world.calls number (some next)⟩
  | .tick elapsed => some { world with db := { world.db with now := world.db.now + elapsed } }

def World.initial (now : ℤ) (users : Table User) (organizations : Table Organization) : World where
  db := { now, users, organizations, otps := .empty, history := [] }
  calls := fun _ => none

end Aavishield.Registration
