import Aavishield.Auth.EmailedCodes
import Aavishield.Auth.SecondFactor

/-!
# Guessing emailed codes

A run in which the submissions for one address follow each other, and the sendings to it as
well, gives nobody more than a few guesses at a code, accepts a code once and accepts only
the newest one.
-/

namespace Aavishield.EmailedCodes

open Auth (Account Deployment EmailOTP Primitives Rejection Token maxOTPAttempts)
open Dataplane (HasID Table)
open TransitionSystem

def newestIssue (email purpose : String) (history : List Deed) : Option UUID :=
  history.findSome? fun deed =>
    match deed with
    | .issued id address use => if address = email ∧ use = purpose then some id else none
    | _ => none

def comparisons (id : UUID) (history : List Deed) : ℕ := history.count (.compared id)

def Deed.accepts (id : UUID) : Deed → Bool
  | .accepted other _ _ => other == id
  | _ => false

def acceptances (id : UUID) (history : List Deed) : ℕ := history.countP (Deed.accepts id)

/-- A code is compared a few times, accepted once, and only as the newest. -/
structure ResistsGuessing (history : List Deed) : Prop where
  bounded : ∀ id, comparisons id history ≤ maxOTPAttempts
  once : ∀ id, acceptances id history ≤ 1
  newest : ∀ id email purpose older, .accepted id email purpose :: older <:+ history →
    newestIssue email purpose older = some id

def Request.choosing (env : Primitives) : Request → Option String
  | .verifyLogin _ _ (.choosing user) => some (Auth.address env user.email)
  | _ => none

def Request.holding : Request → Option OTP
  | .verifyLogin _ _ (.counting otp) | .verifyLogin _ _ (.consuming otp) => some otp
  | _ => none

def Request.retiring (env : Primitives) : Request → Option String
  | .login _ _ _ _ (.retiring user) | .resendLogin _ (.retiring user) =>
    some (Auth.address env user.email)
  | _ => none

def Request.issuing : Request → Option (String × String)
  | .login _ _ _ _ (.creating email purpose _ _) | .resendLogin _ (.creating email purpose _ _) =>
    some (email, purpose)
  | _ => none

structure KeepsClear (env : Primitives) (world : World) (request : Request) (works : Bool) :
    Prop where
  /-- A code is read while no other submission for the address is being dealt with. -/
  guess : ∀ email, request.choosing env = some email → ∀ number other otp,
    world.requests number = some other → other.holding = some otp → otp.email ≠ email
  writes : ∀ otp, request.holding = some otp → works = true
  /-- The codes of an address are retired, while no other code for it is about to be issued. -/
  issue : ∀ email, request.retiring env = some email → works = true ∧
    ∀ number other address, world.requests number = some other → other.issuing = some address →
      address.1 ≠ email

/-- No step of a request crosses one of another. -/
def AllKeepClear (env : Primitives) (world : World) : Action → Prop
  | .advance number works _ =>
    ∀ request, world.requests number = some request → KeepsClear env world request works
  | _ => True

section Effects

variable (env : Primitives)

/-- What a step of a request does, in a run whose requests keep clear of each other. -/
inductive Effect (db : Database) : Request → Database → Request → Prop where
  | quiet {request later : Request} (unheld : request.holding = none)
      (noHold : later.holding = none) (noIssue : later.issuing = none) : Effect db request db later
  | compared {request later : Request} (email : String) (otp : OTP)
      (unheld : request.holding = none) (choosing : request.choosing env = some email)
      (found : db.pendingOTP email Auth.otpPurposeLogin = some otp)
      (left : otp.attempts < maxOTPAttempts) (holds : later.holding = some otp)
      (noIssue : later.issuing = none) : Effect db request (db.record (.compared otp.id)) later
  | counted {request later : Request} (otp : OTP) (held : request.holding = some otp)
      (noHold : later.holding = none) (noIssue : later.issuing = none) :
      Effect db request (db.count otp) later
  | refused {request later : Request} (otp : OTP) (held : request.holding = some otp)
      (gone : db.isPending otp.id = false) (noHold : later.holding = none)
      (noIssue : later.issuing = none) : Effect db request db later
  | consumed {request later : Request} (otp : OTP) (held : request.holding = some otp)
      (there : db.isPending otp.id = true) (noHold : later.holding = none)
      (noIssue : later.issuing = none) : Effect db request (db.consume otp) later
  | retired {request later : Request} (email : String) (unheld : request.holding = none)
      (retiring : request.retiring env = some email) (noHold : later.holding = none)
      (issues : later.issuing = some (email, Auth.otpPurposeLogin)) :
      Effect db request (db.retire email Auth.otpPurposeLogin) later
  | created {request later : Request} (email purpose : String) (userID : UUID) (started : ℤ)
      (draw : Draw) (unheld : request.holding = none)
      (issuing : request.issuing = some (email, purpose)) (new : ¬db.otps.Holds draw.id)
      (noHold : later.holding = none) (noIssue : later.issuing = none) :
      Effect db request (db.create env email purpose userID started draw) later

end Effects

variable {env : Primitives} {deployment : Deployment} {world : World} {db : Database}
variable {works : Bool} {draw : Draw}

variable {phase : SendPhase}

theorem effect_sendLoginOTP {asks : SendPhase → Request} (error : String)
    (draw : Draw) (sends : (∃ email password panel locked, asks = .login email password panel locked) ∨
      ∃ token, asks = .resendLogin token)
    (clear : KeepsClear env world (asks phase) works) :
    Effect env db (asks phase) (db.sendLoginOTP env asks error works draw phase).2
      (db.sendLoginOTP env asks error works draw phase).1 := by
  have unheld : ∀ phase, (asks phase).holding = none := by
    intro phase
    rcases sends with ⟨_, _, _, _, rfl⟩ | ⟨_, rfl⟩ <;> rfl
  cases phase with
  | checking | cooling => exact .quiet (unheld _) rfl rfl
  | retiring user =>
    have retiring : (asks (.retiring user)).retiring env =
        some (Auth.address env user.email) := by
      rcases sends with ⟨_, _, _, _, rfl⟩ | ⟨_, rfl⟩ <;> rfl
    have isWorking := (clear.issue _ retiring).1
    rw [Database.sendLoginOTP, if_pos isWorking]
    apply Effect.retired _ (unheld _) retiring (unheld _)
    · rcases sends with ⟨_, _, _, _, rfl⟩ | ⟨_, rfl⟩ <;> rfl
  | creating email purpose userID started =>
    have issuing : (asks (.creating email purpose userID started)).issuing =
        some (email, purpose) := by
      rcases sends with ⟨_, _, _, _, rfl⟩ | ⟨_, rfl⟩ <;> rfl
    rw [Database.sendLoginOTP]
    split_ifs with isNew
    · exact .created email purpose userID started draw (unheld _) issuing isNew.2 rfl rfl
    · exact .quiet (unheld _) rfl rfl

theorem effect_login {email password panel : String} {locked : Bool}
    (clear : KeepsClear env world (.login email password panel locked phase) works) :
    Effect env db (.login email password panel locked phase)
      (db.login env deployment email password panel locked works draw phase).2
      (db.login env deployment email password panel locked works draw phase).1 := by
  cases phase with
  | checking =>
    simp only [Database.login]
    split <;> exact .quiet rfl rfl rfl
  | cooling user => exact .quiet rfl rfl rfl
  | retiring user => exact effect_sendLoginOTP "" draw (.inl ⟨_, _, _, _, rfl⟩) clear
  | creating address purpose userID started =>
    exact effect_sendLoginOTP _ draw (.inl ⟨_, _, _, _, rfl⟩) clear

theorem effect_resendLogin {token : Token}
    (clear : KeepsClear env world (.resendLogin token phase) works) :
    Effect env db (.resendLogin token phase)
      (db.resendLogin env token works draw phase).2
      (db.resendLogin env token works draw phase).1 := by
  cases phase with
  | checking =>
    simp only [Database.resendLogin]
    split
    · exact .quiet rfl rfl rfl
    · split <;> exact .quiet rfl rfl rfl
  | cooling user =>
    simp only [Database.resendLogin]
    split <;> exact .quiet rfl rfl rfl
  | retiring user => exact effect_sendLoginOTP "" draw (.inr ⟨_, rfl⟩) clear
  | creating email purpose userID started =>
    exact effect_sendLoginOTP _ draw (.inr ⟨_, rfl⟩) clear

theorem effect_verifyLogin {token : Token} {code : String} {phase : VerifyPhase}
    (clear : KeepsClear env world (.verifyLogin token code phase) works) :
    Effect env db (.verifyLogin token code phase)
      (db.verifyLogin env token code works phase).2
      (db.verifyLogin env token code works phase).1 := by
  cases phase with
  | checking =>
    simp only [Database.verifyLogin]
    split
    · exact .quiet rfl rfl rfl
    · split
      · exact .quiet rfl rfl rfl
      · split_ifs <;> exact .quiet rfl rfl rfl
  | choosing user =>
    simp only [Database.verifyLogin]
    split
    · exact .quiet rfl rfl rfl
    case h_2 otp found =>
      split_ifs with expired used wrong
      · exact .quiet rfl rfl rfl
      · exact .quiet rfl rfl rfl
      · exact .compared _ otp rfl rfl found (Nat.lt_of_not_le used) rfl rfl
      · exact .compared _ otp rfl rfl found (Nat.lt_of_not_le used) rfl rfl
  | counting otp =>
    rw [Database.verifyLogin, if_pos (clear.writes otp rfl)]
    exact .counted otp rfl rfl rfl
  | consuming otp =>
    rw [Database.verifyLogin]
    rcases there : db.isPending otp.id with _ | _
    · rw [if_neg (by simp)]
      exact .refused otp rfl there rfl rfl
    · rw [if_pos ⟨clear.writes otp rfl, rfl⟩]
      exact .consumed otp rfl there rfl rfl

theorem effect_advance {request : Request} (clear : KeepsClear env world request works) :
    Effect env db request (db.advance env deployment works draw request).2
      (db.advance env deployment works draw request).1 := by
  cases request with
  | login email password panel locked phase => exact effect_login clear
  | resendLogin token phase => exact effect_resendLogin clear
  | verifyLogin token code phase => exact effect_verifyLogin clear
  | finished answer => exact .quiet rfl rfl rfl

/-- What holds all along a run whose requests keep clear of each other. -/
structure Sound (world : World) : Prop where
  held : ∀ {number request otp}, world.requests number = some request →
    request.holding = some otp → otp.attempts < maxOTPAttempts ∧
      comparisons otp.id world.db.history ≤ otp.attempts + 1 ∧
      ∃ row ∈ world.db.otps.rows, row.id = otp.id ∧ row.email = otp.email ∧
        row.purpose = otp.purpose
  alone : ∀ {first second request asker otp other}, world.requests first = some request →
    world.requests second = some asker → request.holding = some otp → asker.holding = some other →
      otp.email = other.email → first = second
  counted : ∀ row ∈ world.db.otps.rows, row.consumedAt = none →
    (∀ number request otp, world.requests number = some request → request.holding = some otp →
      otp.id ≠ row.id) → comparisons row.id world.db.history ≤ row.attempts
  unknown : ∀ id, ¬world.db.otps.Holds id →
    comparisons id world.db.history = 0 ∧ acceptances id world.db.history = 0
  current : ∀ row ∈ world.db.otps.rows, row.consumedAt = none →
    newestIssue row.email row.purpose world.db.history = some row.id ∧
      acceptances row.id world.db.history = 0
  cleared : ∀ {number request address}, world.requests number = some request →
    request.issuing = some address → ∀ row ∈ world.db.otps.rows, row.email = address.1 →
      row.purpose = address.2 → row.consumedAt ≠ none
  sender : ∀ {first second request asker address other}, world.requests first = some request →
    world.requests second = some asker → request.issuing = some address →
      asker.issuing = some other → address.1 = other.1 → first = second
  resists : ResistsGuessing world.db.history

variable {deed : Deed}

theorem comparisons_record (id : UUID) :
    comparisons id (db.record deed).history =
      comparisons id db.history + if deed = .compared id then 1 else 0 := by
  simp [comparisons, Database.record, List.count_cons]

theorem acceptances_record (id : UUID) :
    acceptances id (db.record deed).history =
      acceptances id db.history + if deed.accepts id = true then 1 else 0 := by
  simp [acceptances, Database.record, List.countP_cons]

theorem newestIssue_record (email purpose : String)
    (noIssue : ∀ id, deed ≠ .issued id email purpose) :
    newestIssue email purpose (db.record deed).history = newestIssue email purpose db.history := by
  rw [newestIssue, Database.record, List.findSome?_cons]
  cases deed with
  | issued id address use =>
    have other : ¬(address = email ∧ use = purpose) := by
      rintro ⟨rfl, rfl⟩
      exact noIssue id rfl
    simp only [if_neg other]
    rfl
  | compared id => rfl
  | accepted id address use => rfl

theorem mem_newest {otps : List OTP} {otp : OTP} (found : Database.newest otps = some otp) :
    otp ∈ otps := by
  induction otps with
  | nil => simp [Database.newest] at found
  | cons first rest ih =>
    rw [Database.newest] at found
    split at found
    · cases found
      exact List.mem_cons_self
    case h_2 other isOther =>
      split_ifs at found
      · cases found
        exact List.mem_cons_self
      · cases found
        exact List.mem_cons_of_mem _ (ih isOther)

theorem mem_pendingOTP {email purpose : String} {otp : OTP}
    (found : db.pendingOTP email purpose = some otp) :
    otp ∈ db.otps.rows ∧ otp.email = email ∧ otp.purpose = purpose ∧ otp.consumedAt = none := by
  have otpMem := mem_newest found
  rw [List.mem_filter] at otpMem
  simpa [EmailOTP.pending, and_assoc] using otpMem

section Step

variable {requests : ℕ → Option Request} {number : ℕ} {request later : Request}

/-- A request moves on that holds no code from then on.  What it held is consumed or has counted
the submission, and an address for which it is to issue a code has none. -/
theorem sound_move (sound : Sound ⟨db, requests⟩)
    (paid : ∀ request otp, requests number = some request → request.holding = some otp →
      ∀ row ∈ db.otps.rows, row.id = otp.id → row.consumedAt = none →
        comparisons row.id db.history ≤ row.attempts)
    (noHold : later.holding = none) (issues : ∀ address, later.issuing = some address →
      (∀ row ∈ db.otps.rows, row.email = address.1 → row.purpose = address.2 →
        row.consumedAt ≠ none) ∧
      ∀ other asker another, requests other = some asker → asker.issuing = some another →
        another.1 ≠ address.1) :
    Sound ⟨db, Function.update requests number (some later)⟩ := by
  have held : ∀ {other asker otp}, Function.update requests number (some later) other = some asker →
      asker.holding = some otp → requests other = some asker := by
    intro other asker otp isAsked holds
    rcases party_update isAsked with ⟨-, rfl⟩ | ⟨-, before⟩
    · simp [noHold] at holds
    · exact before
  constructor
  · intro other asker otp isAsked holds
    exact sound.held (held isAsked holds) holds
  · intro first second one another otp other firstAsked secondAsked holds otherHolds
    exact sound.alone (held firstAsked holds) (held secondAsked otherHolds) holds otherHolds
  · intro row rowMem pending free
    by_cases isHeld : ∃ request otp, requests number = some request ∧
      request.holding = some otp ∧ otp.id = row.id
    · rcases isHeld with ⟨request, otp, asked, holds, same⟩
      exact paid request otp asked holds row rowMem same.symm pending
    · apply sound.counted row rowMem pending
      intro other asker otp isAsked holds same
      by_cases isNumber : other = number
      · exact isHeld ⟨asker, otp, isNumber ▸ isAsked, holds, same⟩
      · exact free other asker otp ((Function.update_of_ne isNumber _ _).trans isAsked) holds same
  · exact sound.unknown
  · exact sound.current
  · intro other asker address isAsked isIssuing
    rcases party_update isAsked with ⟨-, rfl⟩ | ⟨-, before⟩
    · exact (issues address isIssuing).1
    · exact sound.cleared before isIssuing
  · intro first second one another address other firstAsked secondAsked firstIssues secondIssues same
    rcases party_update firstAsked with ⟨rfl, rfl⟩ | ⟨-, firstBefore⟩
    · rcases party_update secondAsked with ⟨rfl, -⟩ | ⟨-, secondBefore⟩
      · rfl
      · exact absurd same.symm ((issues address firstIssues).2 _ _ _ secondBefore secondIssues)
    · rcases party_update secondAsked with ⟨rfl, rfl⟩ | ⟨-, secondBefore⟩
      · exact absurd same ((issues other secondIssues).2 _ _ _ firstBefore firstIssues)
      · exact sound.sender firstBefore secondBefore firstIssues secondIssues same
  · exact sound.resists

theorem sound_update {rewrite : OTP → OTP} {keeps : ∀ row, HasID.id (rewrite row) = HasID.id row}
    (sound : Sound ⟨db, requests⟩)
    (address : ∀ row, (rewrite row).email = row.email ∧ (rewrite row).purpose = row.purpose)
    (pending : ∀ row, (rewrite row).consumedAt = none → row.consumedAt = none)
    (counts : ∀ row ∈ db.otps.rows, row.attempts ≤ (rewrite row).attempts ∨
      comparisons row.id db.history ≤ (rewrite row).attempts) :
    Sound ⟨{ db with otps := db.otps.update rewrite keeps }, requests⟩ := by
  have sameID : ∀ row, (rewrite row).id = row.id := keeps
  constructor
  · intro other asker otp asked holds
    rcases sound.held asked holds with ⟨left, few, row, rowMem, isRow, isEmail, isPurpose⟩
    refine ⟨left, few, rewrite row, List.mem_map_of_mem rowMem, ?_, ?_, ?_⟩
    · rw [sameID, isRow]
    · rw [(address row).1, isEmail]
    · rw [(address row).2, isPurpose]
  · exact sound.alone
  · intro row rowMem isPending free
    rcases List.mem_map.mp rowMem with ⟨old, oldMem, rfl⟩
    simp only [sameID] at free ⊢
    rcases counts old oldMem with grown | counted
    · exact Nat.le_trans (sound.counted old oldMem (pending old isPending) free) grown
    · exact counted
  · intro id unknown
    rw [Table.holds_update] at unknown
    exact sound.unknown id unknown
  · intro row rowMem isPending
    rcases List.mem_map.mp rowMem with ⟨old, oldMem, rfl⟩
    rw [sameID, (address old).1, (address old).2]
    exact sound.current old oldMem (pending old isPending)
  · intro other asker email asked issues row rowMem isEmail isPurpose isPending
    rcases List.mem_map.mp rowMem with ⟨old, oldMem, rfl⟩
    rw [(address old).1] at isEmail
    rw [(address old).2] at isPurpose
    exact sound.cleared asked issues old oldMem isEmail isPurpose (pending old isPending)
  · exact sound.sender
  · exact sound.resists

variable {otp : OTP}

theorem sound_count (sound : Sound ⟨db, requests⟩) (asked : requests number = some request)
    (holds : request.holding = some otp) : Sound ⟨db.count otp, requests⟩ := by
  have few := (sound.held asked holds).2.1
  apply sound_update sound
  · intro row
    split <;> exact ⟨rfl, rfl⟩
  · intro row pending
    split at pending <;> exact pending
  · intro row rowMem
    split
    case isTrue same =>
      right
      rw [same]
      exact few
    case isFalse => exact .inl (Nat.le_refl _)

theorem sound_retire (sound : Sound ⟨db, requests⟩) (email purpose : String) :
    Sound ⟨db.retire email purpose, requests⟩ := by
  apply sound_update sound
  · intro row
    split <;> exact ⟨rfl, rfl⟩
  · intro row pending
    split at pending
    · simp at pending
    · exact pending
  · intro row rowMem
    left
    split <;> exact Nat.le_refl _

theorem sound_compare {email : String} (sound : Sound ⟨db, requests⟩)
    (asked : requests number = some request) (noHold : request.holding = none)
    (clear : ∀ other asker held, requests other = some asker → asker.holding = some held →
      held.email ≠ email)
    (found : db.pendingOTP email Auth.otpPurposeLogin = some otp)
    (left : otp.attempts < maxOTPAttempts) (holds : later.holding = some otp)
    (noIssue : later.issuing = none) :
    Sound ⟨db.record (.compared otp.id), Function.update requests number (some later)⟩ := by
  rcases mem_pendingOTP found with ⟨otpMem, isEmail, isPurpose, pending⟩
  have free : ∀ {other asker held}, requests other = some asker → asker.holding = some held →
      held.id ≠ otp.id := by
    intro other asker held isAsked isHeld same
    rcases sound.held isAsked isHeld with ⟨-, -, row, rowMem, isRow, sameEmail, -⟩
    have sameRow : row = otp := db.otps.eq_of_id_eq rowMem otpMem (isRow.trans same)
    rw [sameRow, isEmail] at sameEmail
    exact clear other asker held isAsked isHeld sameEmail.symm
  have counted : comparisons otp.id db.history ≤ otp.attempts :=
    sound.counted otp otpMem pending fun _ _ _ isAsked isHeld => free isAsked isHeld
  have one : comparisons otp.id (db.record (.compared otp.id)).history =
      comparisons otp.id db.history + 1 := by
    rw [comparisons_record, if_pos rfl]
  have others : ∀ {id}, id ≠ otp.id →
      comparisons id (db.record (.compared otp.id)).history = comparisons id db.history := by
    intro id isOther
    rw [comparisons_record, if_neg, Nat.add_zero]
    intro same
    exact isOther (Deed.compared.inj same).symm
  have sameAcceptances : ∀ id, acceptances id (db.record (.compared otp.id)).history =
      acceptances id db.history := by
    intro id
    rw [acceptances_record]
    rfl
  constructor
  · intro other asker taken isAsked isTaken
    rcases party_update isAsked with ⟨-, rfl⟩ | ⟨-, before⟩
    · cases holds.symm.trans isTaken
      refine ⟨left, ?_, otp, otpMem, rfl, rfl, rfl⟩
      rw [one]
      exact Nat.succ_le_succ counted
    · rcases sound.held before isTaken with ⟨few, bounded, there⟩
      refine ⟨few, ?_, there⟩
      rw [others (free before isTaken)]
      exact bounded
  · intro first second one another held other firstAsked secondAsked firstHolds secondHolds same
    rcases party_update firstAsked with ⟨rfl, rfl⟩ | ⟨-, firstBefore⟩
    · rcases party_update secondAsked with ⟨rfl, -⟩ | ⟨-, secondBefore⟩
      · rfl
      · cases holds.symm.trans firstHolds
        exact absurd (same.symm.trans isEmail) (clear _ _ _ secondBefore secondHolds)
    · rcases party_update secondAsked with ⟨rfl, rfl⟩ | ⟨-, secondBefore⟩
      · cases holds.symm.trans secondHolds
        exact absurd (same.trans isEmail) (clear _ _ _ firstBefore firstHolds)
      · exact sound.alone firstBefore secondBefore firstHolds secondHolds same
  · intro row rowMem isPending unheld
    have isOther : row.id ≠ otp.id :=
      (unheld number later otp (Function.update_self _ _ _) holds).symm
    rw [others isOther]
    apply sound.counted row rowMem isPending
    intro other asker held isAsked isHeld
    by_cases isNumber : other = number
    · subst isNumber
      cases asked.symm.trans isAsked
      simp [noHold] at isHeld
    · exact unheld other asker held ((Function.update_of_ne isNumber _ _).trans isAsked) isHeld
  · intro id unknown
    have isOther : id ≠ otp.id := by
      rintro rfl
      exact unknown (Table.holds_of_mem otpMem)
    rw [others isOther, sameAcceptances]
    exact sound.unknown id unknown
  · intro row rowMem isPending
    rw [newestIssue_record _ _ (by simp), sameAcceptances]
    exact sound.current row rowMem isPending
  · intro other asker address isAsked issues
    rcases party_update isAsked with ⟨-, rfl⟩ | ⟨-, before⟩
    · simp [noIssue] at issues
    · exact sound.cleared before issues
  · intro first second one another address other firstAsked secondAsked firstIssues secondIssues
    rcases party_update firstAsked with ⟨-, rfl⟩ | ⟨-, firstBefore⟩
    · simp [noIssue] at firstIssues
    · rcases party_update secondAsked with ⟨-, rfl⟩ | ⟨-, secondBefore⟩
      · simp [noIssue] at secondIssues
      · exact sound.sender firstBefore secondBefore firstIssues secondIssues
  · constructor
    · intro id
      by_cases isOther : id = otp.id
      · subst isOther
        rw [one]
        exact Nat.succ_le_of_lt (Nat.lt_of_le_of_lt counted left)
      · rw [others isOther]
        exact sound.resists.bounded id
    · intro id
      rw [sameAcceptances]
      exact sound.resists.once id
    · intro id email purpose older suffix
      rcases List.suffix_cons_iff.mp suffix with same | suffix
      · simp at same
      · exact sound.resists.newest id email purpose older suffix

theorem not_pending_consume : ∀ row ∈ (db.consume otp).otps.rows, row.id = otp.id →
    row.consumedAt ≠ none := by
  intro row rowMem same
  rcases List.mem_map.mp rowMem with ⟨old, -, rfl⟩
  split
  · simp
  case isFalse notRewritten =>
    rw [if_neg notRewritten] at same
    intro pending
    exact notRewritten ⟨same, by simp [pending]⟩

theorem sound_consume (sound : Sound ⟨db, requests⟩)
    (asked : requests number = some request) (holds : request.holding = some otp)
    (there : db.isPending otp.id = true) : Sound ⟨db.consume otp, requests⟩ := by
  have consumed : Sound ⟨{ db with
      otps := (db.consume otp).otps }, requests⟩ := by
    apply sound_update sound
    · intro row
      split <;> exact ⟨rfl, rfl⟩
    · intro row pending
      split at pending
      · simp at pending
      · exact pending
    · intro row rowMem
      left
      split <;> exact Nat.le_refl _
    · intro row
      dsimp only [HasID.id]
      split <;> rfl
  have current : newestIssue otp.email otp.purpose db.history = some otp.id ∧
      acceptances otp.id db.history = 0 := by
    rw [Database.isPending, List.any_eq_true] at there
    rcases there with ⟨row, rowMem, isPending⟩
    rw [Bool.and_eq_true, beq_iff_eq, Option.isNone_iff_eq_none] at isPending
    rcases sound.held asked holds with ⟨-, -, other, otherMem, isOther, isEmail, isPurpose⟩
    cases db.otps.eq_of_id_eq otherMem rowMem (isOther.trans isPending.1.symm)
    have current := sound.current row rowMem isPending.2
    rw [isEmail, isPurpose, isPending.1] at current
    exact current
  have sameComparisons : ∀ id, comparisons id (db.consume otp).history = comparisons id db.history := by
    intro id
    rw [Database.consume, comparisons_record]
    rfl
  have acceptances_eq : ∀ id, acceptances id (db.consume otp).history =
      acceptances id db.history + if otp.id = id then 1 else 0 := by
    intro id
    rw [Database.consume, acceptances_record]
    simp [Deed.accepts]
  have sameIssue : ∀ email purpose, newestIssue email purpose (db.consume otp).history =
      newestIssue email purpose db.history := by
    intro email purpose
    exact newestIssue_record email purpose (by simp)
  constructor
  · intro other asker held isAsked isHeld
    rw [sameComparisons]
    exact consumed.held isAsked isHeld
  · exact sound.alone
  · intro row rowMem isPending free
    rw [sameComparisons]
    exact consumed.counted row rowMem isPending free
  · intro id unknown
    have isOther : otp.id ≠ id := by
      rintro rfl
      rcases sound.held asked holds with ⟨-, -, row, rowMem, isRow, -, -⟩
      apply unknown
      rw [Database.consume, Database.record, Table.holds_update, ← isRow]
      exact Table.holds_of_mem rowMem
    rw [sameComparisons, acceptances_eq, if_neg isOther]
    exact consumed.unknown id unknown
  · intro row rowMem isPending
    have isOther : otp.id ≠ row.id := fun same =>
      not_pending_consume row rowMem same.symm isPending
    rw [sameIssue, acceptances_eq, if_neg isOther]
    exact consumed.current row rowMem isPending
  · exact consumed.cleared
  · exact sound.sender
  · constructor
    · intro id
      rw [sameComparisons]
      exact sound.resists.bounded id
    · intro id
      rw [acceptances_eq]
      split_ifs with same
      · rw [← same, current.2]
      · exact sound.resists.once id
    · intro id email purpose older suffix
      rcases List.suffix_cons_iff.mp suffix with same | suffix
      · cases same
        exact current.1
      · exact sound.resists.newest id email purpose older suffix

theorem sound_create {email purpose : String} {userID : UUID} {started : ℤ}
    (sound : Sound ⟨db, requests⟩) (new : ¬db.otps.Holds draw.id)
    (cleared : ∀ row ∈ db.otps.rows, row.email = email → row.purpose = purpose →
      row.consumedAt ≠ none)
    (sender : ∀ other asker address, requests other = some asker → asker.issuing = some address →
      address.1 ≠ email) :
    Sound ⟨db.create env email purpose userID started draw, requests⟩ := by
  have unknown := sound.unknown draw.id new
  have rows : ∀ row ∈ (db.create env email purpose userID started draw).otps.rows,
      row.id = draw.id ∧ row.email = email ∧ row.purpose = purpose ∨
        row.id ≠ draw.id ∧ row ∈ db.otps.rows := by
    intro row rowMem
    rcases Table.mem_insert rowMem with ⟨rfl, -⟩ | oldMem
    · exact .inl ⟨rfl, rfl, rfl⟩
    · right
      refine ⟨fun same => new ?_, oldMem⟩
      rw [← same]
      exact Table.holds_of_mem oldMem
  have sameComparisons : ∀ id, comparisons id
      (db.create env email purpose userID started draw).history =
        comparisons id db.history := by
    intro id
    rw [Database.create, comparisons_record]
    rfl
  have sameAcceptances : ∀ id, acceptances id
      (db.create env email purpose userID started draw).history =
        acceptances id db.history := by
    intro id
    rw [Database.create, acceptances_record]
    rfl
  constructor
  · intro other asker otp asked holds
    rcases sound.held asked holds with ⟨left, few, row, rowMem, same⟩
    rw [sameComparisons]
    exact ⟨left, few, row, Table.mem_insert_of_mem rowMem, same⟩
  · exact sound.alone
  · intro row rowMem isPending free
    rw [sameComparisons]
    rcases rows row rowMem with ⟨isNew, -, -⟩ | ⟨-, oldMem⟩
    · rw [isNew, unknown.1]
      exact Nat.zero_le _
    · exact sound.counted row oldMem isPending free
  · intro id notThere
    rw [sameComparisons, sameAcceptances]
    apply sound.unknown
    intro holds
    exact notThere (Table.holds_insert.mpr (.inr holds))
  · intro row rowMem isPending
    rw [sameAcceptances]
    rcases rows row rowMem with ⟨isNew, isEmail, isPurpose⟩ | ⟨-, oldMem⟩
    · rw [isNew, isEmail, isPurpose]
      exact ⟨by simp [newestIssue, Database.create, Database.record], unknown.2⟩
    · have isOther : ∀ id, Deed.issued draw.id email purpose ≠ .issued id row.email row.purpose := by
        intro id same
        cases same
        exact cleared row oldMem rfl rfl isPending
      rw [Database.create, newestIssue_record _ _ isOther]
      exact sound.current row oldMem isPending
  · intro other asker address asked issues row rowMem isEmail isPurpose isPending
    rcases rows row rowMem with ⟨-, newEmail, -⟩ | ⟨-, oldMem⟩
    · exact sender other asker address asked issues (isEmail.symm.trans newEmail)
    · exact sound.cleared asked issues row oldMem isEmail isPurpose isPending
  · exact sound.sender
  · constructor
    · intro id
      rw [sameComparisons]
      exact sound.resists.bounded id
    · intro id
      rw [sameAcceptances]
      exact sound.resists.once id
    · intro id address use older suffix
      rcases List.suffix_cons_iff.mp suffix with same | suffix
      · simp at same
      · exact sound.resists.newest id address use older suffix

theorem sound_advance (sound : Sound ⟨db, requests⟩) (asked : requests number = some request)
    (clear : KeepsClear env ⟨db, requests⟩ request works) :
    Sound ⟨(db.advance env deployment works draw request).2, Function.update requests number
      (some (db.advance env deployment works draw request).1)⟩ := by
  have effect : Effect env db request
      (db.advance env deployment works draw request).2
      (db.advance env deployment works draw request).1 := effect_advance clear
  revert effect
  generalize (db.advance env deployment works draw request).2 = after
  generalize (db.advance env deployment works draw request).1 = later
  intro effect
  cases effect with
  | quiet unheld noHold noIssue =>
    apply sound_move sound
    · intro asker otp isAsked holds
      cases asked.symm.trans isAsked
      simp [unheld] at holds
    · exact noHold
    · simp [noIssue]
  | compared email otp unheld choosing found left holds noIssue =>
    exact sound_compare sound asked unheld (clear.guess email choosing) found left holds noIssue
  | counted otp held noHold noIssue =>
    have counted : Sound ⟨db.count otp, requests⟩ := sound_count sound asked held
    apply sound_move counted
    · intro asker other isAsked otherHeld row rowMem isRow isPending
      cases asked.symm.trans isAsked
      cases held.symm.trans otherHeld
      rcases List.mem_map.mp rowMem with ⟨old, -, rfl⟩
      split at isRow
      case isTrue same =>
        rw [if_pos same]
        exact same ▸ (sound.held asked held).2.1
      case isFalse isOther => exact absurd isRow isOther
    · exact noHold
    · simp [noIssue]
  | refused otp held gone noHold noIssue =>
    apply sound_move sound
    · intro asker other isAsked otherHeld row rowMem isRow isPending
      cases asked.symm.trans isAsked
      cases held.symm.trans otherHeld
      rw [Database.isPending, List.any_eq_false] at gone
      exact absurd (by simp [isRow, isPending]) (gone row rowMem)
    · exact noHold
    · simp [noIssue]
  | consumed otp held there noHold noIssue =>
    apply sound_move (sound_consume sound asked held there)
    · intro asker other isAsked otherHeld row rowMem isRow isPending
      cases asked.symm.trans isAsked
      cases held.symm.trans otherHeld
      exact absurd isPending (not_pending_consume row rowMem isRow)
    · exact noHold
    · simp [noIssue]
  | retired email unheld retiring noHold issues =>
    apply sound_move (sound_retire sound email Auth.otpPurposeLogin)
    · intro asker otp isAsked holds
      cases asked.symm.trans isAsked
      simp [unheld] at holds
    · exact noHold
    · intro address isAddress
      cases issues.symm.trans isAddress
      refine ⟨fun row rowMem isEmail isPurpose isPending => ?_, (clear.issue email retiring).2⟩
      rcases List.mem_map.mp rowMem with ⟨old, -, rfl⟩
      split at isPending
      case isTrue => simp at isPending
      case isFalse notPending =>
        rw [if_neg notPending] at isEmail isPurpose
        exact notPending (by simp [EmailOTP.pending, isEmail, isPurpose, isPending])
  | created email purpose userID started draw unheld issuing new noHold noIssue =>
    have moved : Sound ⟨db, Function.update requests number (some later)⟩ := by
      apply sound_move sound
      · intro asker otp isAsked holds
        cases asked.symm.trans isAsked
        simp [unheld] at holds
      · exact noHold
      · simp [noIssue]
    apply sound_create moved new
    · intro row rowMem isEmail isPurpose
      exact sound.cleared asked issuing row rowMem isEmail isPurpose
    · intro other asker address isAsked isIssuing same
      rcases party_update isAsked with ⟨-, rfl⟩ | ⟨isOther, before⟩
      · simp [noIssue] at isIssuing
      · exact isOther (sound.sender before asked isIssuing issuing same)

end Step

theorem idle_of_isNew {asked : Request} (isNew : asked.isNew = true) :
    asked.holding = none ∧ asked.issuing = none := by
  unfold Request.isNew at isNew
  split at isNew
  · exact ⟨rfl, rfl⟩
  · exact ⟨rfl, rfl⟩
  · exact ⟨rfl, rfl⟩
  · simp at isNew

theorem sound_step {action : Action} {next : World} (sound : Sound world)
    (clear : AllKeepClear env world action)
    (stepped : world.step env deployment action = some next) : Sound next := by
  cases action with
  | begin number asked =>
    simp only [World.step, Option.ite_none_right_eq_some, Option.some.injEq,
      Option.isNone_iff_eq_none] at stepped
    rcases stepped with ⟨⟨isFree, isNew⟩, rfl⟩
    rcases idle_of_isNew isNew with ⟨noHold, noIssue⟩
    apply sound_move sound
    · simp [isFree]
    · exact noHold
    · simp [noIssue]
  | advance number works draw =>
    rw [World.step, Option.map_eq_some_iff] at stepped
    rcases stepped with ⟨request, asked, rfl⟩
    exact sound_advance sound asked (clear request asked)
  | changeUsers users | tick elapsed =>
    cases stepped
    exact ⟨sound.held, sound.alone, sound.counted, sound.unknown, sound.current, sound.cleared,
      sound.sender, sound.resists⟩

variable {now : ℤ} {users : Table Account}

theorem sound_initial : Sound (World.initial now users) where
  held asked := by simp [World.initial] at asked
  alone asked := by simp [World.initial] at asked
  counted row rowMem := by simp [World.initial, Table.empty] at rowMem
  unknown id _ := ⟨rfl, rfl⟩
  current row rowMem := by simp [World.initial, Table.empty] at rowMem
  cleared asked := by simp [World.initial] at asked
  sender asked := by simp [World.initial] at asked
  resists :=
    { bounded := fun id => Nat.zero_le _
      once := fun id => Nat.zero_le _
      newest := fun id email purpose older suffix => by simp [World.initial] at suffix }

/-- Codes resist guessing in every run in which submissions for an address follow each other, and
sendings to it as well, and in which the statements between them work. -/
theorem resistsGuessing_of_allKeepClear {trace : List Action} {final : World}
    (clear : AllSteps (World.step env deployment) (AllKeepClear env)
      (World.initial now users) trace)
    (executed : exec (World.step env deployment) (World.initial now users) trace =
      some final) : ResistsGuessing final.db.history := by
  have sound : Sound final := invariant_of_allSteps
    (fun _ _ _ sound isClear stepped => sound_step sound isClear stepped) sound_initial clear executed
  exact sound.resists

def Idle (requests : ℕ → Option Request) (number : ℕ) : Prop :=
  ∀ other request, other ≠ number → requests other = some request →
    request.holding = none ∧ request.issuing = none

variable {before : ℕ → Option Request}

theorem idle_update {number : ℕ} (request : Request)
    (updated : world.requests = Function.update before number (some request))
    (idle : Idle before number) : Idle world.requests number := by
  intro other asker isOther asked
  rw [updated, Function.update_of_ne isOther] at asked
  exact idle other asker isOther asked

theorem idle_finished {number : ℕ} (answer : Except Rejection Unit)
    (updated : world.requests = Function.update before number (some (.finished answer))) (next : ℕ)
    (idle : Idle before number) : Idle world.requests next := by
  intro other asker _ asked
  rw [updated] at asked
  rcases party_update asked with ⟨-, rfl⟩ | ⟨isOther, before⟩
  · exact ⟨rfl, rfl⟩
  · exact idle other asker isOther before

theorem allKeepClear_of_idle {number : ℕ} (idle : Idle world.requests number) :
    AllKeepClear env world (.advance number true draw) := by
  intro request asked
  constructor
  · intro email choosing other asker otp isAsked holds
    by_cases isNumber : other = number
    · subst isNumber
      cases asked.symm.trans isAsked
      unfold Request.choosing at choosing
      split at choosing
      · simp [Request.holding] at holds
      · simp at choosing
    · simp [(idle other asker isNumber isAsked).1] at holds
  · exact fun _ _ => rfl
  · intro email retiring
    refine ⟨rfl, fun other asker address isAsked issues => ?_⟩
    by_cases isNumber : other = number
    · subst isNumber
      cases asked.symm.trans isAsked
      unfold Request.retiring at retiring
      split at retiring
      · simp [Request.issuing] at issues
      · simp [Request.issuing] at issues
      · simp at retiring
    · simp [(idle other asker isNumber isAsked).2] at issues

def passwordLogin : Request :=
  .login "admin@example.com" "open sesame" "company" false .checking

def submission (code : String) : Request := .verifyLogin Auth.sampleChallenge code .checking

def noDraw : Draw := ⟨⟨0⟩, ""⟩

def signIn : List Action :=
  [.begin 0 passwordLogin, .advance 0 true noDraw, .advance 0 true noDraw,
    .advance 0 true ⟨⟨1⟩, "123456"⟩]

def guessing (number : ℕ) (code : String) : List Action :=
  [.begin number (submission code), .advance number true noDraw, .advance number true noDraw]

def signingIn (steps : ℕ) : World :=
  let world := World.initial 0 (Auth.sampleServer false).users
  let trace := signIn ++ guessing 1 "123456" ++ [.advance 1 true noDraw]
  (exec (World.step Auth.plainPrimitives Auth.plainDeployment) world (trace.take steps)).getD world

theorem resistsGuessing_signingIn : ResistsGuessing (signingIn 8).db.history := by
  have asked : Idle (signingIn 1).requests 0 :=
    idle_update passwordLogin rfl fun _ _ _ before => by simp [World.initial] at before
  have checked : Idle (signingIn 2).requests 0 := idle_update _ rfl asked
  have retired : Idle (signingIn 3).requests 0 := idle_update _ rfl checked
  have sent : Idle (signingIn 4).requests 1 := idle_finished _ rfl 1 retired
  have submitted : Idle (signingIn 5).requests 1 := idle_update _ rfl sent
  have found : Idle (signingIn 6).requests 1 := idle_update _ rfl submitted
  have compared : Idle (signingIn 7).requests 1 := idle_update _ rfl found
  have clear : AllSteps (World.step Auth.plainPrimitives Auth.plainDeployment)
      (AllKeepClear Auth.plainPrimitives) (signingIn 0)
        (signIn ++ guessing 1 "123456" ++ [.advance 1 true noDraw]) := by
    apply (@allSteps_cons _ _ _ _ _ (signingIn 1) _ _ rfl).mpr ⟨trivial, _⟩
    apply (@allSteps_cons _ _ _ _ _ (signingIn 2) _ _ rfl).mpr ⟨allKeepClear_of_idle asked, _⟩
    apply (@allSteps_cons _ _ _ _ _ (signingIn 3) _ _ rfl).mpr ⟨allKeepClear_of_idle checked, _⟩
    apply (@allSteps_cons _ _ _ _ _ (signingIn 4) _ _ rfl).mpr ⟨allKeepClear_of_idle retired, _⟩
    apply (@allSteps_cons _ _ _ _ _ (signingIn 5) _ _ rfl).mpr ⟨trivial, _⟩
    apply (@allSteps_cons _ _ _ _ _ (signingIn 6) _ _ rfl).mpr ⟨allKeepClear_of_idle submitted, _⟩
    apply (@allSteps_cons _ _ _ _ _ (signingIn 7) _ _ rfl).mpr ⟨allKeepClear_of_idle found, _⟩
    apply (@allSteps_cons _ _ _ _ _ (signingIn 8) _ _ rfl).mpr ⟨allKeepClear_of_idle compared, _⟩
    trivial
  exact resistsGuessing_of_allKeepClear clear rfl

def AlwaysResistsGuessing : Prop :=
  ∀ (env : Primitives) (deployment : Deployment) (now : ℤ) (users : Table Account)
    (trace : List Action) (final : World),
    exec (World.step env deployment) (World.initial now users) trace = some final →
      ResistsGuessing final.db.history

def parallelGuesses : List Action :=
  signIn ++ (List.range 6).flatMap fun number => guessing (number + 1) "000000"

/-- Submissions in parallel are all compared with the code. -/
theorem not_alwaysResistsGuessing : ¬AlwaysResistsGuessing := by
  intro always
  have compared : (exec (World.step Auth.plainPrimitives Auth.plainDeployment)
      (World.initial 0 (Auth.sampleServer false).users) parallelGuesses).map
        (fun world => comparisons ⟨1⟩ world.db.history) = some 6 := by
    decide +kernel
  rcases Option.map_eq_some_iff.mp compared with ⟨final, executed, isSix⟩
  have bounded := (always _ _ _ _ _ _ executed).bounded ⟨1⟩
  rw [isSix] at bounded
  exact absurd bounded (by decide)

end Aavishield.EmailedCodes
