import Aavishield.Auth.SecondFactor

/-!
# Enrolling an authenticator

A secret is generated and sealed by `Setup`, is to be confirmed by a first code, and is read
again at each sign-in.
-/

namespace Aavishield.Auth

open Dataplane (HasID Table)
open Text

/-- `base32.StdEncoding.EncodeToString`. -/
def base32Encode (bytes : List UInt8) : List Char :=
  let digits := bytes.flatMap fun byte => bits 8 byte.toNat
  let letters := (List.range ((digits.length + 4) / 5)).map fun index =>
    let group := (digits.drop (5 * index)).take 5
    base32Alphabet.getD (ofBits (group ++ List.replicate (5 - group.length) false)) 'A'
  letters ++ List.replicate ((8 - letters.length % 8) % 8) '='

/-- The base32 text of the drawn bytes, without its padding. -/
def generateTOTPSecret (bytes : Vector UInt8 20) : String :=
  String.ofList ((base32Encode bytes.toList).reverse.dropWhile (· == '=')).reverse

/-- `CA_KEY_ENCRYPTION_KEY`, empty where it is not set, and AES-GCM under the key that is
derived from it, of a nonce and a plaintext. -/
structure Secretbox where
  key : String
  gcmSeal : String → String → String → String
  gcmOpen : String → String → Option String

def Primitives.boxed (env : Primitives) (box : Secretbox) : Primitives :=
  { env with
    encrypt := box.gcmSeal box.key
    decrypt := fun text => if box.key = "" then none else box.gcmOpen box.key text }

/-- `secretbox.Seal`, which fails without a key. -/
def Secretbox.sealText (box : Secretbox) (env : Primitives) (nonce secret : String) :
    Option String :=
  if box.key = "" then none else some (sealSecret (env.boxed box) nonce secret)

namespace Server

variable (env : Primitives) (box : Secretbox) (server : Server)

def later (elapsed : ℕ) : Server := { server with now := server.now + elapsed }

/-- `Setup`, whether or not there is a key to seal the secret under. -/
def setupBoxed (request : Request) (secret nonce : String) : Handled :=
  match server.currentUser request with
  | .error rejection => (.error rejection, server)
  | .ok user =>
    if user.mfaEnabled then
      server.refuse 409 "Two-factor authentication is already on. Turn it off first to re-enrol." none
    else
      match box.sealText env nonce secret with
      | none => server.refuse 500 "Could not start setup" none
      | some stored =>
        (.ok (.secret secret), server.updateMFA user.id false stored
          (fun enabled => absurd enabled Bool.false_ne_true))

end Server

def Accepted (handled : Handled) : Prop := ∃ answer, handled.1 = .ok answer

/-- The codes of the secret sign the account in and turn its second factor off. -/
structure SignsIn (env : Primitives) (deployment : Deployment) (server : Server) (id : UUID)
    (secret : String) : Prop where
  verify : ∀ token user code tokenID, parseMFAChallenge token server.now = .ok id →
    server.account id = some user → user.status = "active" →
      (Accepted (server.verify env token code tokenID) ↔
        verifyTOTP env secret code server.now = true ∨
          (server.consumeRecoveryCode env id code).1 = true)
  disable : ∀ request user code, server.currentUser request = .ok user → user.id = id →
    (Accepted (server.disable env deployment request code) ↔
      verifyTOTP env secret code server.now = true)

structure Confirms (env : Primitives) (deployment : Deployment) (server : Server)
    (request : Request) (id : UUID) (secret : String) : Prop where
  enable : ∀ code codes, Accepted (server.enable env request code codes) ↔
    verifyTOTP env secret code server.now = true
  counts : ∀ code codes elapsed, Accepted (server.enable env request code codes) →
    SignsIn env deployment
      ((server.enable env request code codes).2.later elapsed) id secret

/-- If `Setup` returns a secret, then its codes confirm the enrolment at any later time. -/
def WorksToTheEnd (env : Primitives) (deployment : Deployment) (box : Secretbox)
    (server : Server) (request : Request) (secret nonce : String) : Prop :=
  ∀ answer started user, server.currentUser request = .ok user →
    server.setupBoxed env box request secret nonce = (.ok answer, started) →
      ∀ elapsed asked account, (started.later elapsed).currentUser asked = .ok account →
        account.id = user.id →
          Confirms (env.boxed box) deployment (started.later elapsed) asked user.id secret

/-- `Setup` stores nothing: the caller has the second factor on, or there is no key. -/
def StoresNothing (box : Secretbox) (server : Server) (request : Request) : Prop :=
  ∀ user, server.currentUser request = .ok user → user.mfaEnabled = true ∨ box.key = ""

theorem mem_base32Alphabet_getD (index : ℕ) : base32Alphabet.getD index 'A' ∈ base32Alphabet := by
  rw [List.getD_eq_getElem?_getD]
  rcases found : base32Alphabet[index]? with _ | letter
  · decide
  · exact List.mem_of_getElem? found

theorem length_bits (width number : ℕ) : (bits width number).length = width := by
  simp [bits]

theorem base32Encode_letters {bytes : List UInt8} (twenty : bytes.length = 20) :
    (base32Encode bytes).length = 32 ∧
      ∀ letter ∈ base32Encode bytes, letter ∈ base32Alphabet := by
  have digits : (bytes.flatMap fun byte => bits 8 byte.toNat).length = 160 := by
    simp [List.length_flatMap, length_bits, twenty]
  constructor
  · simp [base32Encode, digits]
  · intro letter letterMem
    simp only [base32Encode, digits, List.length_map, List.length_range, List.mem_append,
      List.mem_map] at letterMem
    rcases letterMem with ⟨index, -, rfl⟩ | isPadding
    · exact mem_base32Alphabet_getD _
    · simp at isPadding

theorem reverse_dropWhile_padding {text : List Char}
    (letters : ∀ letter ∈ text, letter ∈ base32Alphabet) :
    (text.reverse.dropWhile (· == '=')).reverse = text := by
  have untrimmed : text.reverse.dropWhile (· == '=') = text.reverse := by
    apply List.dropWhile_eq_self_iff.mpr
    intro nonempty isPadding
    have isLetter := letters _ (List.mem_reverse.mp (List.getElem_mem nonempty))
    rw [beq_iff_eq.mp isPadding] at isLetter
    exact absurd isLetter (by decide)
  rw [untrimmed, List.reverse_reverse]

theorem toList_generateTOTPSecret (bytes : Vector UInt8 20) :
    (generateTOTPSecret bytes).toList = base32Encode bytes.toList := by
  have letters := (base32Encode_letters bytes.length_toList).2
  rw [generateTOTPSecret, reverse_dropWhile_padding letters, String.toList_ofList]

section Keys

variable {env : Primitives}

theorem exists_base32Decode {text : List Char} (whole : text.length % 8 = 0)
    (letters : ∀ letter ∈ text, letter ∈ base32Alphabet) :
    ∃ key, base32Decode text = some key := by
  have unbroken : (text.filter fun letter => letter ≠ '\r' ∧ letter ≠ '\n') = text := by
    apply List.filter_eq_self.mpr
    intro letter letterMem
    have isLetter := letters letter letterMem
    apply decide_eq_true
    constructor
    · rintro rfl
      exact absurd isLetter (by decide)
    · rintro rfl
      exact absurd isLetter (by decide)
  have unpadded : text.takeWhile (· ≠ '=') = text := by
    apply List.takeWhile_eq_self_iff.mpr
    intro letter letterMem
    apply decide_eq_true
    rintro rfl
    exact absurd (letters _ letterMem) (by decide)
  rw [base32Decode]
  simp only [unbroken, unpadded]
  rw [if_pos]
  · exact ⟨_, rfl⟩
  · refine ⟨.inl ⟨List.drop_length, whole⟩, List.all_eq_true.mpr fun letter letterMem => ?_⟩
    exact decide_eq_true (letters letter letterMem)

theorem exists_totpKey (upper : ∀ letter ∈ base32Alphabet, env.upper letter = letter)
    (bytes : Vector UInt8 20) :
    ∃ key, totpKey env (generateTOTPSecret bytes) = some key := by
  rcases base32Encode_letters bytes.length_toList with ⟨length, letters⟩
  have ungrouped_eq : ungrouped (base32Encode bytes.toList) = base32Encode bytes.toList := by
    apply List.filter_eq_self.mpr
    intro letter letterMem
    have isLetter := letters letter letterMem
    apply decide_eq_true
    constructor
    · rintro rfl
      exact absurd isLetter (by decide)
    · rintro rfl
      exact absurd isLetter (by decide)
  have normalized : (ungrouped (base32Encode bytes.toList)).map env.upper =
      base32Encode bytes.toList := by
    rw [ungrouped_eq, List.map_congr_left (fun letter letterMem => upper letter (letters letter letterMem)),
      List.map_id']
  rw [totpKey, toList_generateTOTPSecret, normalized, length]
  simp only [Nat.reduceMod, if_true, List.replicate_zero, List.append_nil]
  exact exists_base32Decode (by rw [length]) letters

/-- A sign among the first three that is no letter is reached before any padding may stand. -/
theorem base32Decode_of_colon {front : List Char} (short : front.length ≤ 2) (back : List Char) :
    base32Decode (front ++ ':' :: back) = none := by
  have shorter := (List.length_filter_le (fun letter => decide (letter ≠ '\r' ∧ letter ≠ '\n'))
    front).trans short
  rw [base32Decode]
  simp only [List.filter_append]
  rw [List.filter_cons_of_pos (by decide)]
  generalize front.filter _ = front at shorter ⊢
  generalize back.filter _ = back
  apply if_neg
  rintro ⟨filled, letters⟩
  by_cases padded : ∃ letter ∈ front, letter = '='
  · obtain ⟨_, letterMem, rfl⟩ := padded
    obtain ⟨before, after, rfl⟩ := List.append_of_mem letterMem
    have few : ((before ++ '=' :: after ++ ':' :: back).takeWhile (· ≠ '=')).length ≤
        before.length := by
      rw [List.append_assoc, List.takeWhile_append]
      split_ifs
      · simp
      · exact (List.takeWhile_prefix _).length_le
    rw [List.length_append, List.length_cons] at shorter
    rcases filled with ⟨none, -⟩ | ⟨group, -⟩
    · have covers := List.drop_eq_nil_iff.mp none
      rw [List.length_append, List.length_append, List.length_cons] at covers
      omega
    · simp only [List.mem_cons, List.not_mem_nil, or_false] at group
      omega
  · have reached : (front ++ ':' :: back).takeWhile (· ≠ '=') =
        front ++ ':' :: back.takeWhile (· ≠ '=') := by
      rw [List.takeWhile_append_of_pos, List.takeWhile_cons_of_pos (by decide)]
      intro letter letterMem
      exact decide_eq_true fun same => padded ⟨letter, letterMem, same⟩
    rw [reached] at letters
    have isLetter := List.all_eq_true.mp letters ':' (by simp)
    exact absurd isLetter (by decide)

theorem totpKey_sealSecret (upper : env.upper ':' = ':') (nonce secret : String) :
    totpKey env (sealSecret env nonce secret) = none := by
  have marked : ∃ back, (ungrouped (sealSecret env nonce secret).toList).map
      env.upper = [env.upper 'v', env.upper '1'] ++ ':' :: back := by
    simp [sealSecret, sealedPrefix, ungrouped, upper]
  obtain ⟨back, isMarked⟩ := marked
  simp only [totpKey, isMarked, List.append_assoc, List.cons_append]
  exact @base32Decode_of_colon [env.upper 'v', env.upper '1'] le_rfl _

theorem verifyTOTP_of_no_key {secret : String} (noKey : totpKey env secret = none)
    (code : String) (now : ℤ) : verifyTOTP env secret code now = false := by
  simp [verifyTOTP, totpAt, noKey]

theorem sixDigits_digits {number : ℕ} (bounded : number < 10 ^ 6) :
    (sixDigits number).length = 6 ∧ ∀ digit ∈ sixDigits number, digit.isDigit = true := by
  have digits : (toString number).toList = Nat.toDigits 10 number := Nat.toList_repr
  have short : (Nat.toDigits 10 number).length ≤ 6 :=
    (Nat.length_toDigits_le_iff (by decide) (by decide)).mpr bounded
  constructor
  · simp only [sixDigits, digits, totpDigits, List.length_append, List.length_replicate]
    omega
  · intro digit digitMem
    simp only [sixDigits, digits, List.mem_append] at digitMem
    rcases digitMem with isZero | digitMem
    · rw [List.eq_of_mem_replicate isZero]
      decide
    · exact Nat.isDigit_of_mem_toDigits (by decide) (by decide) digitMem

theorem toNat_of_isDigit {digit : Char} (isDigit : digit.isDigit = true) :
    48 ≤ digit.toNat ∧ digit.toNat ≤ 57 := by
  simp only [Char.isDigit, Bool.and_eq_true, decide_eq_true_eq, ge_iff_le,
    UInt32.le_iff_toNat_le] at isDigit
  exact isDigit

theorem utf8ByteSize_digits {digits : List Char} (areDigits : ∀ digit ∈ digits, digit.isDigit = true) :
    (String.ofList digits).utf8ByteSize = digits.length := by
  induction digits with
  | nil => simp
  | cons digit rest ih =>
    have small := (toNat_of_isDigit (areDigits digit List.mem_cons_self)).2
    have single : digit.utf8Size = 1 := by
      apply Char.utf8Size_eq_one_iff.mpr
      apply UInt32.le_iff_toNat_le.mpr
      exact Nat.le_trans small (by decide)
    rw [← List.singleton_append, String.ofList_append, String.utf8ByteSize_append,
      ih fun other otherMem => areDigits other (List.mem_cons_of_mem _ otherMem),
      ← String.singleton_eq_ofList, String.utf8ByteSize_singleton, single]
    simp [Nat.add_comm]

theorem isSpace_of_isDigit {digit : Char} (isDigit : digit.isDigit = true) :
    isSpace digit = false := by
  rcases toNat_of_isDigit isDigit with ⟨least, most⟩
  simp [isSpace]
  omega

theorem exists_verified {secret : String} {key : List UInt8}
    (isKey : totpKey env secret = some key) (now : ℤ) :
    ∃ code, verifyTOTP env secret code now = true := by
  have shown : ∃ number, number < 10 ^ 6 ∧ totpAt env secret
      (UInt64.ofInt ((now / 10 ^ 9).tdiv totpPeriod + 0)) = some (sixDigits number) := by
    rw [totpAt, isKey]
    exact ⟨_, Nat.mod_lt _ (by decide), rfl⟩
  rcases shown with ⟨number, bounded, shown⟩
  rcases sixDigits_digits bounded with ⟨length, areDigits⟩
  have noSpace : ∀ digit ∈ sixDigits number, isSpace digit = false :=
    fun digit digitMem => isSpace_of_isDigit (areDigits digit digitMem)
  have kept : (sixDigits number).filter (· ≠ ' ') = sixDigits number := by
    apply List.filter_eq_self.mpr
    intro digit digitMem
    apply decide_eq_true
    rintro rfl
    exact absurd (areDigits _ digitMem) (by decide)
  refine ⟨String.ofList (sixDigits number), ?_⟩
  simp only [verifyTOTP, String.toList_ofList, kept, trimSpace_eq_self noSpace,
    utf8ByteSize_digits areDigits, length, Bool.and_eq_true]
  refine ⟨rfl, List.any_eq_true.mpr ⟨0, by simp, ?_⟩⟩
  rw [shown]
  exact beq_self_eq_true _

end Keys

section Endpoints

variable {env : Primitives} {deployment : Deployment} {box : Secretbox} {server : Server}
variable {request : Request} {user : Account} {secret nonce : String}

theorem account_updateMFA {id : UUID} {mfaEnabled : Bool} {mfaSecret : String}
    {enrolled : mfaEnabled = true → mfaSecret ≠ ""} (found : server.account id = some user) :
    (server.updateMFA user.id mfaEnabled mfaSecret enrolled).account id =
      some { user with mfaEnabled, mfaSecret, enrolled } := by
  have sameTest : ((fun account : Account => account.id == id) ∘ fun account =>
      if account.id = user.id then { account with mfaEnabled, mfaSecret, enrolled } else account) =
        fun account => account.id == id := by
    funext account
    dsimp only [Function.comp_apply]
    split <;> rfl
  rw [Server.account] at found
  rw [Server.account, Server.updateMFA, Table.update, List.find?_map, sameTest, found]
  simp

theorem currentUser_updateMFA {mfaEnabled : Bool} {mfaSecret : String}
    {enrolled : mfaEnabled = true → mfaSecret ≠ ""} (current : server.currentUser request = .ok user) :
    (server.updateMFA user.id mfaEnabled mfaSecret enrolled).currentUser request =
      .ok { user with mfaEnabled, mfaSecret, enrolled } := by
  rcases exists_claims_of_currentUser current with ⟨claims, admitted, found⟩
  have sameNow : (server.updateMFA user.id mfaEnabled mfaSecret enrolled).now = server.now := rfl
  simp only [Server.currentUser, sameNow, admitted, account_updateMFA found]

theorem not_accepted_enable {code : String} {codes : List String}
    (upper : env.upper ':' = ':') (current : server.currentUser request = .ok user)
    (sealedSecret : user.mfaSecret = sealSecret env nonce secret) :
    ¬Accepted (server.enable env request code codes) := by
  have refused : verifyTOTP env user.mfaSecret code server.now = false := by
    rw [sealedSecret]
    exact verifyTOTP_of_no_key (totpKey_sealSecret upper nonce secret) code server.now
  rintro ⟨answer, accepted⟩
  simp only [Server.enable, current, refused] at accepted
  split_ifs at accepted with isOn isEmpty verified
  · simp [Server.refuse] at accepted
  · simp [Server.refuse] at accepted
  · simp [Server.refuse] at accepted
  · exact verified rfl

/-- The codes of a generated secret confirm no enrolment: one works only if nothing is stored. -/
theorem worksToTheEnd_iff {bytes : Vector UInt8 20}
    (upper : ∀ letter ∈ ':' :: base32Alphabet, env.upper letter = letter) :
    WorksToTheEnd env deployment box server request (generateTOTPSecret bytes) nonce ↔
      StoresNothing box server request := by
  constructor
  · intro works user current
    by_contra stores
    rcases not_or.mp stores with ⟨without, isKey⟩
    have started : server.setupBoxed env box request (generateTOTPSecret bytes) nonce =
        (.ok (.secret (generateTOTPSecret bytes)), server.updateMFA user.id false
          (sealSecret (env.boxed box) nonce (generateTOTPSecret bytes))
          (fun enabled => absurd enabled Bool.false_ne_true)) := by
      simp [Server.setupBoxed, current, without, Secretbox.sealText, isKey]
    rcases exists_totpKey (fun letter letterMem => upper letter (List.mem_cons_of_mem _ letterMem))
      bytes with ⟨key, isTheKey⟩
    rcases @exists_verified (env.boxed box) _ _ isTheKey server.now with ⟨code, verified⟩
    have later : ∀ started : Server, started.later 0 = started := by
      intro started
      simp [Server.later]
    have confirms := works _ _ user current started 0 request
    rw [later] at confirms
    have accepted := ((confirms _ (currentUser_updateMFA current) rfl).enable code []).mpr verified
    have isColon : (env.boxed box).upper ':' = ':' := upper ':' List.mem_cons_self
    exact @not_accepted_enable _ _ _ _ (generateTOTPSecret bytes) nonce _ _ isColon
      (currentUser_updateMFA current) rfl accepted
  · intro stores answer started user current setUp
    rcases stores user current with already | noKey
    · simp [Server.setupBoxed, current, already, Server.refuse] at setUp
    · simp only [Server.setupBoxed, current, Secretbox.sealText, noKey, if_true] at setUp
      split_ifs at setUp <;> simp [Server.refuse] at setUp

end Endpoints

def plainBox (key : String) : Secretbox where
  key
  gcmSeal _ nonce plain := nonce ++ plain
  gcmOpen _ text := some text

def sampleRequest : Request := ⟨some (generateAccessToken someUser ⟨3⟩ 0), none⟩

def zeroSecret : String := generateTOTPSecret (Vector.replicate 20 0)

/-- Without a key, `Setup` stores nothing that would have to be confirmed. -/
theorem worksToTheEnd_without_key : WorksToTheEnd plainPrimitives plainDeployment (plainBox "")
    (sampleServer false) sampleRequest zeroSecret "" := by
  apply (worksToTheEnd_iff (forall_mem_of_all (by decide))).mpr
  intro user current
  exact .inr rfl

/-- `Enable` refuses the code that the authenticator shows for the secret of `Setup`. -/
theorem not_worksToTheEnd : ¬WorksToTheEnd plainPrimitives plainDeployment (plainBox "key")
    (sampleServer false) sampleRequest zeroSecret "" := by
  intro works
  have confirms := works _ _ _ rfl rfl 0 sampleRequest _ rfl rfl
  have shown : verifyTOTP (plainPrimitives.boxed (plainBox "key")) zeroSecret "000000" 0 = true := by
    decide +kernel
  have accepted := (confirms.enable "000000" []).mpr shown
  exact @not_accepted_enable _ _ _ _ zeroSecret "" _ _ rfl rfl rfl accepted

end Aavishield.Auth
