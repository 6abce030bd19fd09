import Aavishield.Basic

/-!
# Signed tokens

The three kinds of token the server signs, the parsers that read them back, and the
middleware that admits requests on their strength.  Signatures are symbolic: a
signature says what was signed under which secret.

Instants are nanoseconds from the Unix epoch; the dates in a token are whole seconds.
-/

namespace Aavishield.Auth

inductive ClaimValue where
  | null
  | uuid (id : UUID)
  | text (value : String)
  | date (seconds : ℤ)
  deriving DecidableEq

abbrev Payload := List (String × ClaimValue)

/-- A field of type `uuid.UUID`, left at zero when it is absent or null. -/
def Payload.uuid (payload : Payload) (name : String) : Option UUID :=
  match payload.lookup name with
  | none | some .null => some UUID.zero
  | some (.uuid id) => some id
  | some _ => none

/-- A field of type `*uuid.UUID`. -/
def Payload.uuidPointer (payload : Payload) (name : String) : Option (Option UUID) :=
  match payload.lookup name with
  | none | some .null => some none
  | some (.uuid id) => some (some id)
  | some _ => none

def Payload.string (payload : Payload) (name : String) : Option String :=
  match payload.lookup name with
  | none | some .null => some ""
  | some (.text value) => some value
  | some (.uuid id) => some id.text
  | some _ => none

/-- A field of type `*jwt.NumericDate`. -/
def Payload.numericDate (payload : Payload) (name : String) : Option (Option ℤ) :=
  match payload.lookup name with
  | none | some .null => some none
  | some (.date seconds) => some (some seconds)
  | some _ => none

/-- A string field with the option `omitempty`. -/
def omitEmpty (name value : String) : Payload :=
  if value = "" then [] else [(name, .text value)]

/-- A pointer field with the option `omitempty`. -/
def omitNil {α : Type} (name : String) (wrap : α → ClaimValue) (value : Option α) : Payload :=
  match value with
  | none => []
  | some value => [(name, wrap value)]

/-- The standard claims that a payload carries beside its own (`jwt.RegisteredClaims`). -/
structure RegisteredClaims where
  issuer : String
  subject : String
  expiresAt : Option ℤ
  notBefore : Option ℤ
  issuedAt : Option ℤ
  deriving DecidableEq

def RegisteredClaims.encode (claims : RegisteredClaims) : Payload :=
  omitEmpty "iss" claims.issuer ++ omitEmpty "sub" claims.subject ++
    omitNil "exp" .date claims.expiresAt ++ omitNil "nbf" .date claims.notBefore ++
      omitNil "iat" .date claims.issuedAt

def RegisteredClaims.decode (payload : Payload) : Option RegisteredClaims := do
  let issuer ← payload.string "iss"
  let subject ← payload.string "sub"
  let expiresAt ← payload.numericDate "exp"
  let notBefore ← payload.numericDate "nbf"
  let issuedAt ← payload.numericDate "iat"
  return { issuer, subject, expiresAt, notBefore, issuedAt }

/-- The claims of access and portal tokens. -/
structure Claims where
  userID : UUID
  orgID : Option UUID
  employeeID : Option UUID
  email : String
  role : String
  superAdminLevel : String
  tokenID : String
  registered : RegisteredClaims
  deriving DecidableEq

def Claims.encode (claims : Claims) : Payload :=
  [("user_id", .uuid claims.userID), ("org_id", claims.orgID.elim .null .uuid)] ++
    omitNil "employee_id" .uuid claims.employeeID ++
      [("email", .text claims.email), ("role", .text claims.role)] ++
        omitEmpty "superadmin_level" claims.superAdminLevel ++
          [("jti", .text claims.tokenID)] ++ claims.registered.encode

def Claims.decode (payload : Payload) : Option Claims := do
  let userID ← payload.uuid "user_id"
  let orgID ← payload.uuidPointer "org_id"
  let employeeID ← payload.uuidPointer "employee_id"
  let email ← payload.string "email"
  let role ← payload.string "role"
  let superAdminLevel ← payload.string "superadmin_level"
  let tokenID ← payload.string "jti"
  let registered ← RegisteredClaims.decode payload
  return { userID, orgID, employeeID, email, role, superAdminLevel, tokenID, registered }

/-- The claims of a challenge. -/
structure MFAChallengeClaims where
  userID : UUID
  purpose : String
  registered : RegisteredClaims
  deriving DecidableEq

def MFAChallengeClaims.encode (claims : MFAChallengeClaims) : Payload :=
  [("user_id", .uuid claims.userID), ("purpose", .text claims.purpose)] ++ claims.registered.encode

def MFAChallengeClaims.decode (payload : Payload) : Option MFAChallengeClaims := do
  let userID ← payload.uuid "user_id"
  let purpose ← payload.string "purpose"
  let registered ← RegisteredClaims.decode payload
  return { userID, purpose, registered }

inductive SigningMethod where
  | hs256
  | hs384
  | hs512
  | other (name : String)
  deriving DecidableEq

/-- Whether a method is one of `*jwt.SigningMethodHMAC`. -/
def SigningMethod.isHMAC : SigningMethod → Bool
  | .hs256 | .hs384 | .hs512 => true
  | .other _ => false

/-- A key for signing; `access` is the server's `JWT_ACCESS_SECRET`. -/
inductive Secret where
  | access
  | other (text : String)
  deriving DecidableEq

inductive Signature where
  | hmac (secret : Secret) (method : SigningMethod) (payload : Payload)
  | other (text : String)
  deriving DecidableEq

structure Token where
  method : SigningMethod
  payload : Payload
  signature : Signature
  deriving DecidableEq

def Token.verifies (token : Token) (secret : Secret) : Bool :=
  token.signature == .hmac secret token.method token.payload

/-- `SignedString(accessSecret())` with HS256. -/
def signedString (payload : Payload) : Token where
  method := .hs256
  payload := payload
  signature := .hmac .access .hs256 payload

inductive TokenError where
  | invalid
  | expired
  deriving DecidableEq

def RegisteredClaims.validate (claims : RegisteredClaims) (now : ℤ) : Except TokenError Unit :=
  if claims.expiresAt.any fun seconds => decide (seconds * 10 ^ 9 ≤ now) then .error .expired
  else if claims.notBefore.any fun seconds => decide (now < seconds * 10 ^ 9) then .error .invalid
  else .ok ()

/-- `jwt.ParseWithClaims` under the access secret: decode, check the method, verify, validate. -/
def parseWithClaims {α : Type} (decode : Payload → Option α) (registered : α → RegisteredClaims)
    (token : Token) (now : ℤ) : Except TokenError α :=
  match decode token.payload with
  | none => .error .invalid
  | some claims =>
    if token.method.isHMAC && token.verifies .access then
      (registered claims).validate now |>.map fun _ => claims
    else .error .invalid

/-- The columns of a dashboard user that go into a token (`models.User`). -/
structure User where
  id : UUID
  orgID : Option UUID
  email : String
  role : String
  superAdminLevel : String

/-- The columns of an employee that go into a token (`models.Employee`). -/
structure Employee where
  id : UUID
  orgID : UUID
  email : String

def roleSuperAdmin : String := "superadmin"

def accessExpiry : ℤ := 15 * 60 * 10 ^ 9

def mfaChallengeTTL : ℤ := 10 * 60 * 10 ^ 9

def portalExpiry : ℤ := 8 * 60 * 60 * 10 ^ 9

def mfaChallengePurpose : String := "mfa_challenge"

/-- `jwt.NewNumericDate`, which drops the fraction of a second. -/
def newNumericDate (instant : ℤ) : ℤ := instant / 10 ^ 9

def issued (issuer : String) (subject : UUID) (now expiry : ℤ) : RegisteredClaims where
  issuer := issuer
  subject := subject.text
  expiresAt := some (newNumericDate (now + expiry))
  notBefore := none
  issuedAt := some (newNumericDate now)

def accessClaims (user : User) (tokenID : UUID) (now : ℤ) : Claims where
  userID := user.id
  orgID := user.orgID
  employeeID := none
  email := user.email
  role := user.role
  superAdminLevel := if user.role = roleSuperAdmin then user.superAdminLevel else ""
  tokenID := tokenID.text
  registered := issued "aavishield" user.id now accessExpiry

def generateAccessToken (user : User) (tokenID : UUID) (now : ℤ) : Token :=
  signedString (accessClaims user tokenID now).encode

def portalClaims (employee : Employee) (tokenID : UUID) (now : ℤ) : Claims where
  userID := employee.id
  orgID := some employee.orgID
  employeeID := some employee.id
  email := employee.email
  role := "employee"
  superAdminLevel := ""
  tokenID := tokenID.text
  registered := issued "aavishield-portal" employee.id now portalExpiry

def generatePortalToken (employee : Employee) (tokenID : UUID) (now : ℤ) : Token :=
  signedString (portalClaims employee tokenID now).encode

def mfaChallengeClaims (user : User) (now : ℤ) : MFAChallengeClaims where
  userID := user.id
  purpose := mfaChallengePurpose
  registered := issued "aavishield-mfa" user.id now mfaChallengeTTL

def generateMFAChallenge (user : User) (now : ℤ) : Token :=
  signedString (mfaChallengeClaims user now).encode

def parseAccessToken (token : Token) (now : ℤ) : Except TokenError Claims :=
  parseWithClaims Claims.decode (·.registered) token now

def parseMFAChallenge (token : Token) (now : ℤ) : Except TokenError UUID :=
  match parseWithClaims MFAChallengeClaims.decode (·.registered) token now with
  | .error failure => .error failure
  | .ok claims => if claims.purpose = mfaChallengePurpose then .ok claims.userID else .error .invalid

/-- The tokens of a request: its `Authorization: Bearer` header and its `access_token` cookie. -/
structure Request where
  header : Option Token
  cookie : Option Token

def Request.extractToken (request : Request) : Option Token :=
  request.header <|> request.cookie

/-- An answer that refuses. -/
structure Rejection where
  status : ℕ
  error : String
  code : Option String
  deriving DecidableEq

def authRequired (request : Request) (now : ℤ) : Except Rejection Claims :=
  match request.extractToken with
  | none => .error ⟨401, "Authorization token required", none⟩
  | some token =>
    match parseAccessToken token now with
    | .error .expired => .error ⟨401, "Token expired", some "TOKEN_EXPIRED"⟩
    | .error .invalid => .error ⟨401, "Invalid token", none⟩
    | .ok claims => .ok claims

structure PortalIdentity where
  employeeID : UUID
  orgID : UUID
  email : String
  deriving DecidableEq

def portalRequired (request : Request) (now : ℤ) : Except Rejection PortalIdentity :=
  match request.extractToken with
  | none => .error ⟨401, "Authorization required", none⟩
  | some token =>
    match parseAccessToken token now with
    | .error _ => .error ⟨401, "Invalid or expired token", none⟩
    | .ok claims =>
      match claims.employeeID, claims.orgID with
      | none, _ => .error ⟨403, "Employee portal token required", none⟩
      | some _, none => .error ⟨500, "", none⟩
      | some employeeID, some orgID => .ok ⟨employeeID, orgID, claims.email⟩

end Aavishield.Auth
