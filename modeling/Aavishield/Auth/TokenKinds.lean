import Aavishield.Auth.Jwt
import Aavishield.Lib.TransitionSystem
import Mathlib.Data.Int.Order.Basic

/-!
# Which token passes for what

All three kinds of token are signed with the same secret, so the parsers tell them
apart by their payloads alone.  The file computes what each parser makes of each kind,
and follows the tokens through the runs of the endpoints that mint them.
-/

namespace Aavishield.Auth

open TransitionSystem

theorem lookup_omitEmpty_of_ne {name key : String} (value : String) (other : key ≠ name) :
    (omitEmpty name value).lookup key = none := by
  by_cases absent : value = ""
  · simp [omitEmpty, absent]
  · simp [omitEmpty, absent, List.lookup_cons, beq_false_of_ne other]

variable {α : Type}

theorem lookup_omitNil_of_ne {name key : String} (wrap : α → ClaimValue)
    (value : Option α) (other : key ≠ name) : (omitNil name wrap value).lookup key = none := by
  cases value with
  | none => rfl
  | some value => simp [omitNil, List.lookup_cons, beq_false_of_ne other]

def registeredNames : List String := ["iss", "sub", "exp", "nbf", "iat"]

theorem lookup_registered_encode (claims : RegisteredClaims) {key : String}
    (other : key ∉ registeredNames) : claims.encode.lookup key = none := by
  simp only [registeredNames, List.mem_cons, List.not_mem_nil, or_false, not_or] at other
  rcases other with ⟨iss, sub, exp, nbf, iat⟩
  simp [RegisteredClaims.encode, List.lookup_append, lookup_omitEmpty_of_ne, lookup_omitNil_of_ne,
    iss, sub, exp, nbf, iat]

theorem decode_append_registered (claims : RegisteredClaims) {payload : Payload}
    (unused : ∀ name ∈ registeredNames, payload.lookup name = none) :
    RegisteredClaims.decode (payload ++ claims.encode) = some claims := by
  simp only [registeredNames, List.forall_mem_cons] at unused
  rcases unused with ⟨iss, sub, exp, nbf, iat, -⟩
  rcases claims with ⟨issuer, subject, expiresAt, notBefore, issuedAt⟩
  by_cases noIssuer : issuer = "" <;> by_cases noSubject : subject = "" <;>
    cases expiresAt <;> cases notBefore <;> cases issuedAt <;>
      simp [RegisteredClaims.decode, Payload.string, Payload.numericDate,
        RegisteredClaims.encode, omitEmpty, omitNil, List.lookup_append, List.lookup_cons,
        iss, sub, exp, nbf, iat, noIssuer, noSubject]

/-- The fields of `Claims` but the standard ones. -/
def Claims.front (claims : Claims) : Payload :=
  [("user_id", .uuid claims.userID), ("org_id", claims.orgID.elim .null .uuid)] ++
    omitNil "employee_id" .uuid claims.employeeID ++
      [("email", .text claims.email), ("role", .text claims.role)] ++
        omitEmpty "superadmin_level" claims.superAdminLevel ++ [("jti", .text claims.tokenID)]

theorem Claims.encode_eq (claims : Claims) :
    claims.encode = claims.front ++ claims.registered.encode := rfl

theorem Claims.registered_decode_encode (claims : Claims) :
    RegisteredClaims.decode claims.encode = some claims.registered := by
  apply decode_append_registered
  simp [registeredNames, List.lookup_append, List.lookup_cons, lookup_omitEmpty_of_ne,
    lookup_omitNil_of_ne]

theorem Claims.decode_encode (claims : Claims) : Claims.decode claims.encode = some claims := by
  have registered := claims.registered_decode_encode
  rcases claims with ⟨userID, orgID, employeeID, email, role, level, tokenID, standard⟩
  simp only [Claims.decode, registered]
  by_cases noLevel : level = "" <;> cases orgID <;> cases employeeID <;>
    simp [Claims.encode_eq, Claims.front, Payload.uuid, Payload.uuidPointer, Payload.string,
      omitEmpty, omitNil, List.lookup_cons, noLevel,
      lookup_registered_encode, registeredNames]

theorem MFAChallengeClaims.registered_decode_encode (claims : MFAChallengeClaims) :
    RegisteredClaims.decode claims.encode = some claims.registered := by
  apply decode_append_registered
  simp [registeredNames, List.lookup_cons]

theorem MFAChallengeClaims.decode_encode (claims : MFAChallengeClaims) :
    MFAChallengeClaims.decode claims.encode = some claims := by
  simp only [MFAChallengeClaims.decode, claims.registered_decode_encode]
  simp [MFAChallengeClaims.encode, Payload.uuid, Payload.string, List.lookup_cons]

/-- What is left of a challenge that is read as access claims. -/
def MFAChallengeClaims.asClaims (claims : MFAChallengeClaims) : Claims where
  userID := claims.userID
  orgID := none
  employeeID := none
  email := ""
  role := ""
  superAdminLevel := ""
  tokenID := ""
  registered := claims.registered

theorem MFAChallengeClaims.decode_asClaims (claims : MFAChallengeClaims) :
    Claims.decode claims.encode = some claims.asClaims := by
  simp only [Claims.decode, claims.registered_decode_encode]
  simp [MFAChallengeClaims.encode, MFAChallengeClaims.asClaims, Payload.uuid, Payload.uuidPointer,
    Payload.string, List.lookup_cons, lookup_registered_encode, registeredNames]

/-- What access and portal tokens look like to the parser of challenges: no purpose. -/
theorem Claims.decode_asChallenge (claims : Claims) :
    MFAChallengeClaims.decode claims.encode = some ⟨claims.userID, "", claims.registered⟩ := by
  simp only [MFAChallengeClaims.decode, claims.registered_decode_encode]
  simp [Claims.encode_eq, Claims.front, Payload.uuid, Payload.string, List.lookup_append,
    List.lookup_cons, lookup_omitEmpty_of_ne, lookup_omitNil_of_ne, lookup_registered_encode,
    registeredNames]

/-- Both kinds of claims are read back, and what a challenge is as access claims. -/
theorem decode_either (claims : Claims) (challenge : MFAChallengeClaims) :
    Claims.decode claims.encode = some claims ∧
      MFAChallengeClaims.decode challenge.encode = some challenge ∧
        Claims.decode challenge.encode = some challenge.asClaims :=
  ⟨claims.decode_encode, challenge.decode_encode, challenge.decode_asClaims⟩

variable {registered : α → RegisteredClaims} {decode : Payload → Option α}

theorem parseWithClaims_signedString {payload : Payload} {claims : α}
    (decoded : decode payload = some claims) (now : ℤ) :
    parseWithClaims decode registered (signedString payload) now =
      ((registered claims).validate now).map fun _ => claims := by
  simp [parseWithClaims, signedString, decoded, SigningMethod.isHMAC, Token.verifies]

variable {token : Token} {now : ℤ}

theorem verifies_of_parseWithClaims {claims : α}
    (parsed : parseWithClaims decode registered token now = .ok claims) :
    token.verifies .access := by
  simp only [parseWithClaims] at parsed
  split at parsed
  · cases parsed
  · split at parsed
    · rename_i admitted
      exact (Bool.and_eq_true_iff.mp admitted).2
    · cases parsed

theorem validate_issued (issuer : String) (subject : UUID) (start expiry now : ℤ) :
    (issued issuer subject start expiry).validate now =
      if newNumericDate (start + expiry) * 10 ^ 9 ≤ now then .error .expired else .ok () := by
  simp [RegisteredClaims.validate, issued]

inductive TokenKind where
  | access
  | mfaChallenge
  | portal
  deriving DecidableEq

structure Minted where
  kind : TokenKind
  subject : UUID
  token : Token
  expiresAt : ℤ

def Minted.access (user : User) (tokenID : UUID) (now : ℤ) : Minted where
  kind := .access
  subject := user.id
  token := generateAccessToken user tokenID now
  expiresAt := newNumericDate (now + accessExpiry)

def Minted.mfaChallenge (user : User) (now : ℤ) : Minted where
  kind := .mfaChallenge
  subject := user.id
  token := generateMFAChallenge user now
  expiresAt := newNumericDate (now + mfaChallengeTTL)

def Minted.portal (employee : Employee) (tokenID : UUID) (now : ℤ) : Minted where
  kind := .portal
  subject := employee.id
  token := generatePortalToken employee tokenID now
  expiresAt := newNumericDate (now + portalExpiry)

/-- The clock, and the tokens that were given out. -/
structure State where
  now : ℤ
  minted : List Minted

/--
The endpoints: the password step of `Login`; the endpoints that complete a sign-in
on other evidence (registration, refresh, social sign-in, impersonation); the second
step of a sign-in, which takes a challenge; and the employee portal.
-/
inductive Action where
  | login (user : User)
  | session (user : User) (tokenID : UUID)
  | secondStep (challenge : Token) (user : User) (tokenID : UUID)
  | portalSession (employee : Employee) (tokenID : UUID)
  | tick (elapsed : ℕ)

/-- Nobody forges a signature under the secret. -/
def State.presentable (state : State) (token : Token) : Bool :=
  match token.signature with
  | .hmac .access _ _ => state.minted.any fun minted => minted.token.signature == token.signature
  | _ => true

def State.mint (state : State) (minted : Minted) : State :=
  { state with minted := minted :: state.minted }

/-- The endpoints that give out tokens. -/
def step (state : State) : Action → Option State
  | .login user => some (state.mint (.mfaChallenge user state.now))
  | .session user tokenID => some (state.mint (.access user tokenID state.now))
  | .secondStep challenge user tokenID =>
    match parseMFAChallenge challenge state.now with
    | .ok userID =>
      if state.presentable challenge && userID == user.id then
        some (state.mint (.access user tokenID state.now))
      else none
    | .error _ => none
  | .portalSession employee tokenID => some (state.mint (.portal employee tokenID state.now))
  | .tick elapsed => some { state with now := state.now + elapsed }

def State.initial (now : ℤ) : State where
  now := now
  minted := []

/-- What both parsers read from a token the server has signed. -/
structure Legible (minted : Minted) : Prop where
  claims : ∃ claims, Claims.decode minted.token.payload = some claims ∧
    claims.userID = minted.subject ∧
      claims.employeeID = (if minted.kind = .portal then some minted.subject else none) ∧
        ∀ now, claims.registered.validate now =
          if minted.expiresAt * 10 ^ 9 ≤ now then .error .expired else .ok ()
  challenge : ∃ claims, MFAChallengeClaims.decode minted.token.payload = some claims ∧
    claims.userID = minted.subject ∧
      claims.purpose = (if minted.kind = .mfaChallenge then mfaChallengePurpose else "") ∧
        ∀ now, claims.registered.validate now =
          if minted.expiresAt * 10 ^ 9 ≤ now then .error .expired else .ok ()
  signed : minted.token = signedString minted.token.payload

theorem legible_access (user : User) (tokenID : UUID) (now : ℤ) :
    Legible (.access user tokenID now) where
  claims := ⟨accessClaims user tokenID now, Claims.decode_encode _, rfl, rfl,
    fun _ => validate_issued _ _ _ _ _⟩
  challenge := ⟨_, Claims.decode_asChallenge _, rfl, rfl, fun _ => validate_issued _ _ _ _ _⟩
  signed := rfl

theorem legible_portal (employee : Employee) (tokenID : UUID) (now : ℤ) :
    Legible (.portal employee tokenID now) where
  claims := ⟨portalClaims employee tokenID now, Claims.decode_encode _, rfl, rfl,
    fun _ => validate_issued _ _ _ _ _⟩
  challenge := ⟨_, Claims.decode_asChallenge _, rfl, rfl, fun _ => validate_issued _ _ _ _ _⟩
  signed := rfl

theorem legible_mfaChallenge (user : User) (now : ℤ) : Legible (.mfaChallenge user now) where
  claims := ⟨_, MFAChallengeClaims.decode_asClaims _, rfl, rfl, fun _ => validate_issued _ _ _ _ _⟩
  challenge := ⟨mfaChallengeClaims user now, MFAChallengeClaims.decode_encode _, rfl, rfl,
    fun _ => validate_issued _ _ _ _ _⟩
  signed := rfl

def State.AllLegible (state : State) : Prop :=
  ∀ minted ∈ state.minted, Legible minted

variable {state : State} {minted : Minted}

theorem State.AllLegible.mint (legible : state.AllLegible)
    (added : Legible minted) : (state.mint minted).AllLegible := by
  simp only [State.AllLegible, State.mint, List.forall_mem_cons]
  exact ⟨added, legible⟩

theorem State.AllLegible.step {state next : State} {action : Action} (legible : state.AllLegible)
    (stepped : step state action = some next) : next.AllLegible := by
  cases action with
  | login user =>
    cases stepped
    exact legible.mint (legible_mfaChallenge user _)
  | session user tokenID =>
    cases stepped
    exact legible.mint (legible_access user tokenID _)
  | secondStep challenge user tokenID =>
    simp only [Auth.step] at stepped
    split at stepped
    · split at stepped
      · cases stepped
        exact legible.mint (legible_access user tokenID _)
      · cases stepped
    · cases stepped
  | portalSession employee tokenID =>
    cases stepped
    exact legible.mint (legible_portal employee tokenID _)
  | tick elapsed =>
    cases stepped
    exact legible

theorem allLegible_of_exec {start : ℤ} {trace : List Action}
    (executed : exec step (.initial start) trace = some state) : state.AllLegible := by
  apply invariant_of_exec (fun _ _ _ legible stepped => State.AllLegible.step legible stepped) _
    executed
  simp [State.AllLegible, State.initial]

theorem exists_minted_of_verifies (legible : state.AllLegible)
    (presentable : state.presentable token) (verifies : token.verifies .access) :
    ∃ minted ∈ state.minted, minted.token = token := by
  simp only [Token.verifies, beq_iff_eq] at verifies
  simp only [State.presentable, verifies, List.any_eq_true, beq_iff_eq] at presentable
  rcases presentable with ⟨minted, mintedMem, sameSignature⟩
  refine ⟨minted, mintedMem, ?_⟩
  have signed := (legible minted mintedMem).signed
  rw [signed] at sameSignature
  simp only [signedString, Signature.hmac.injEq, true_and] at sameSignature
  rcases token with ⟨method, payload, signature⟩
  simp only at verifies sameSignature
  rw [signed, signedString, verifies, sameSignature.1, sameSignature.2]

theorem Legible.kind_eq {first second : Minted} (firstLegible : Legible first)
    (secondLegible : Legible second) (same : first.token = second.token) :
    first.kind = second.kind := by
  rcases firstLegible.claims with ⟨firstClaims, firstDecoded, _, firstEmployee, _⟩
  rcases secondLegible.claims with ⟨secondClaims, secondDecoded, _, secondEmployee, _⟩
  rcases firstLegible.challenge with ⟨firstChallenge, firstRead, _, firstPurpose, _⟩
  rcases secondLegible.challenge with ⟨secondChallenge, secondRead, _, secondPurpose, _⟩
  rw [same] at firstDecoded firstRead
  cases firstDecoded.symm.trans secondDecoded
  cases firstRead.symm.trans secondRead
  have distinct : mfaChallengePurpose ≠ "" := by decide
  cases firstKind : first.kind <;> cases secondKind : second.kind <;>
    simp_all

/-- A token is accepted only as what it was minted for. -/
structure KindsKept (state : State) (token : Token) : Prop where
  dashboard : ∀ request claims, request.extractToken = some token →
    authRequired request state.now = .ok claims →
      ∃ minted ∈ state.minted, minted.token = token ∧ minted.kind = .access ∧
        minted.subject = claims.userID
  challenge : ∀ userID, parseMFAChallenge token state.now = .ok userID →
    ∃ minted ∈ state.minted, minted.token = token ∧ minted.kind = .mfaChallenge ∧
      minted.subject = userID
  portal : ∀ request identity, request.extractToken = some token →
    portalRequired request state.now = .ok identity →
      ∃ minted ∈ state.minted, minted.token = token ∧ minted.kind = .portal ∧
        minted.subject = identity.employeeID

def KeepsKinds : Prop :=
  ∀ start trace state, exec step (.initial start) trace = some state →
    ∀ token, state.presentable token → KindsKept state token

/-- A token that is of another kind than a session's, and has not expired. -/
def Confusable (state : State) (token : Token) : Prop :=
  ∃ minted ∈ state.minted, minted.token = token ∧ minted.kind ≠ .access ∧
    state.now < minted.expiresAt * 10 ^ 9

theorem authRequired_eq_ok {request : Request} {claims : Claims}
    (extracted : request.extractToken = some token) :
    authRequired request now = .ok claims ↔ parseAccessToken token now = .ok claims := by
  simp only [authRequired, extracted]
  cases parseAccessToken token now with
  | ok parsed => simp
  | error failure => cases failure <;> simp

theorem Legible.parseAccessToken (legible : Legible minted) (now : ℤ) :
    ∃ claims, claims.userID = minted.subject ∧
      claims.employeeID = (if minted.kind = .portal then some minted.subject else none) ∧
        parseAccessToken minted.token now =
          if minted.expiresAt * 10 ^ 9 ≤ now then .error .expired else .ok claims := by
  rcases legible.claims with ⟨claims, decoded, subject, employee, validate⟩
  refine ⟨claims, subject, employee, ?_⟩
  rw [Auth.parseAccessToken, legible.signed, parseWithClaims_signedString decoded, validate]
  split <;> rfl

theorem Legible.parseMFAChallenge (legible : Legible minted) (now : ℤ) :
    parseMFAChallenge minted.token now =
      if minted.expiresAt * 10 ^ 9 ≤ now then .error .expired
      else if minted.kind = .mfaChallenge then .ok minted.subject else .error .invalid := by
  rcases legible.challenge with ⟨claims, decoded, subject, purpose, validate⟩
  rw [Auth.parseMFAChallenge, legible.signed, parseWithClaims_signedString decoded, validate]
  have distinct : "" ≠ mfaChallengePurpose := by decide
  by_cases lapsed : minted.expiresAt * 10 ^ 9 ≤ now
  · simp only [lapsed, if_true, Except.map]
  · simp only [lapsed, if_false, Except.map]
    by_cases isChallenge : minted.kind = .mfaChallenge
    · simp [purpose, isChallenge, subject]
    · simp [purpose, isChallenge, distinct]

theorem verifies_of_parseMFAChallenge {userID : UUID}
    (parsed : parseMFAChallenge token now = .ok userID) : token.verifies .access := by
  simp only [parseMFAChallenge] at parsed
  split at parsed
  · cases parsed
  · rename_i claims inner
    exact verifies_of_parseWithClaims inner

theorem portalRequired_eq_ok {request : Request}
    {identity : PortalIdentity} (extracted : request.extractToken = some token)
    (admitted : portalRequired request now = .ok identity) :
    ∃ claims, parseAccessToken token now = .ok claims ∧
      claims.employeeID = some identity.employeeID := by
  simp only [portalRequired, extracted] at admitted
  split at admitted
  · cases admitted
  · rename_i claims parsed
    split at admitted
    · cases admitted
    · cases admitted
    · rename_i employeeID orgID isEmployee _
      cases admitted
      exact ⟨claims, parsed, isEmployee⟩

theorem kindsKept_of_not_confusable (legible : state.AllLegible)
    (presentable : state.presentable token) (safe : ¬Confusable state token) :
    KindsKept state token where
  dashboard request claims extracted admitted := by
    rw [authRequired_eq_ok extracted] at admitted
    rcases exists_minted_of_verifies legible presentable (verifies_of_parseWithClaims admitted) with
      ⟨minted, mintedMem, rfl⟩
    rcases (legible minted mintedMem).parseAccessToken state.now with
      ⟨read, subject, _, parsed⟩
    rw [parsed] at admitted
    split at admitted
    · cases admitted
    · rename_i unexpired
      cases admitted
      refine ⟨minted, mintedMem, rfl, ?_, subject.symm⟩
      by_contra other
      exact safe ⟨minted, mintedMem, rfl, other, not_le.mp unexpired⟩
  challenge userID admitted := by
    rcases exists_minted_of_verifies legible presentable
      (verifies_of_parseMFAChallenge admitted) with ⟨minted, mintedMem, rfl⟩
    rw [(legible minted mintedMem).parseMFAChallenge] at admitted
    split at admitted
    · cases admitted
    · split at admitted
      · rename_i isChallenge
        cases admitted
        exact ⟨minted, mintedMem, rfl, isChallenge, rfl⟩
      · cases admitted
  portal request identity extracted admitted := by
    rcases portalRequired_eq_ok extracted admitted with ⟨claims, parsed, isEmployee⟩
    rcases exists_minted_of_verifies legible presentable (verifies_of_parseWithClaims parsed) with
      ⟨minted, mintedMem, rfl⟩
    rcases (legible minted mintedMem).parseAccessToken state.now with
      ⟨read, _, employee, readParsed⟩
    rw [readParsed] at parsed
    split at parsed
    · cases parsed
    · cases parsed
      rw [employee] at isEmployee
      split at isEmployee
      · rename_i isPortal
        exact ⟨minted, mintedMem, rfl, isPortal, Option.some.inj isEmployee⟩
      · cases isEmployee

/-- A challenge or a portal token opens the dashboard as long as it lasts. -/
theorem not_kindsKept_of_confusable (legible : state.AllLegible)
    (confusable : Confusable state token) : ¬KindsKept state token := by
  rcases confusable with ⟨minted, mintedMem, rfl, other, unexpired⟩
  intro kept
  rcases (legible minted mintedMem).parseAccessToken state.now with ⟨claims, _, _, parsed⟩
  rw [if_neg (not_le.mpr unexpired)] at parsed
  rcases kept.dashboard ⟨some minted.token, none⟩ claims rfl
    ((authRequired_eq_ok rfl).mpr parsed) with ⟨access, accessMem, same, isAccess, _⟩
  exact other (((legible minted mintedMem).kind_eq (legible access accessMem) same.symm).trans isAccess)

/--
In every run of the endpoints, a token passes only for what it is exactly when it is
not a challenge or a portal token that is still valid.
-/
theorem kindsKept_iff_not_confusable {start : ℤ} {trace : List Action} {state : State}
    (executed : exec step (.initial start) trace = some state) {token : Token}
    (presentable : state.presentable token) :
    KindsKept state token ↔ ¬Confusable state token :=
  have legible := allLegible_of_exec executed
  ⟨fun kept confusable => not_kindsKept_of_confusable legible confusable kept,
    kindsKept_of_not_confusable legible presentable⟩

def someUser : User where
  id := ⟨1⟩
  orgID := some ⟨2⟩
  email := "admin@example.com"
  role := "org_admin"
  superAdminLevel := ""

/-- A second later, the access token of a completed sign-in is presented. -/
theorem session_kindsKept :
    ∃ state, exec step (.initial 0) [.session someUser ⟨3⟩, .tick (10 ^ 9)] = some state ∧
      KindsKept state (generateAccessToken someUser ⟨3⟩ 0) := by
  rcases (⟨_, rfl⟩ : ∃ state, exec step (.initial 0)
    [.session someUser ⟨3⟩, .tick (10 ^ 9)] = some state) with ⟨state, executed⟩
  refine ⟨state, executed, (kindsKept_iff_not_confusable executed ?_).mpr ?_⟩
  · cases executed
    simp [State.presentable, State.initial, State.mint, Minted.access, generateAccessToken,
      signedString]
  · cases executed
    rintro ⟨minted, mintedMem, _, other, _⟩
    cases List.mem_singleton.mp mintedMem
    exact other rfl

/-- A person who has passed the password step opens the dashboard with the challenge alone. -/
theorem not_keepsKinds : ¬KeepsKinds := by
  intro keeps
  have executed : exec step (.initial 0) [.login someUser] =
      some ((State.initial 0).mint (.mfaChallenge someUser 0)) := rfl
  refine not_kindsKept_of_confusable (allLegible_of_exec executed) ?_
    (keeps 0 _ _ executed (generateMFAChallenge someUser 0) ?_)
  · exact ⟨_, List.mem_cons_self, rfl, by decide, by decide⟩
  · simp [State.presentable, State.mint, Minted.mfaChallenge, generateMFAChallenge, signedString]

end Aavishield.Auth
