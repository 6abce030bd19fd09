import Aavishield.Auth.SecondFactor
import Mathlib.Data.List.AList

/-!
# Lockout

The failed sign-ins of an account are counted in Redis, and an account with too many of them is
locked for a while.  Every command to Redis is a step of its own, and the steps of attempts
interleave.
-/

namespace Aavishield.Lockout

open Auth (Account Primitives Rejection)
open Dataplane (Table)
open TransitionSystem

def maxFailures : ℕ := 8

def failureWindow : ℤ := 15 * 60 * 10 ^ 9

def lockDuration : ℤ := 15 * 60 * 10 ^ 9

/-- The surfaces of `Login`. -/
inductive Scope where
  | company
  | superadmin
  deriving DecidableEq

/-- What `lockout:<scope>:<identity>` names; its counter and its lock are kept apart. -/
structure Key where
  scope : Scope
  identity : String
  deriving DecidableEq

structure Counter where
  count : ℕ
  /-- Until `Expire`, a counter has no end. -/
  expiresAt : Option ℤ

inductive Deed where
  | refused (key : Key)
  | admitted (key : Key)
  | compared (key : Key) (right : Bool)
  | recorded (key : Key)
  | locked (key : Key)
  | cleared (key : Key)
  | reset (key : Key)
  | counterExpired (key : Key)
  | lockExpired (key : Key)
  deriving DecidableEq

def Deed.key : Deed → Key
  | .refused key | .admitted key | .compared key _ | .recorded key | .locked key | .cleared key
  | .reset key | .counterExpired key | .lockExpired key => key

/-- Redis, with the deeds of the attempts for the record. -/
structure Store where
  now : ℤ
  fails : AList fun _ : Key => Counter
  locks : AList fun _ : Key => ℤ
  history : List Deed

namespace Store

variable (store : Store) (key : Key)

def record (deed : Deed) : Store := { store with history := deed :: store.history }

def count : ℕ := (store.fails.lookup key).elim 0 Counter.count

/-- `Locked`: what `PTTL` says is positive. -/
def locked : Bool := (store.locks.lookup key).any fun expiresAt => 0 < expiresAt - store.now

def incr : Store :=
  { store with
    fails := store.fails.insert key
      ⟨store.count key + 1, (store.fails.lookup key).bind Counter.expiresAt⟩ }.record (.recorded key)

def expire : Store :=
  match store.fails.lookup key with
  | none => store
  | some counter =>
    { store with fails := store.fails.insert key ⟨counter.count, some (store.now + failureWindow)⟩ }

def lock : Store :=
  { store with locks := store.locks.insert key (store.now + lockDuration) }.record (.locked key)

def clear : Store := { store with fails := store.fails.erase key }.record (.cleared key)

def reset : Store :=
  { store with
    fails := store.fails.erase key
    locks := store.locks.erase key }.record (.reset key)

def endsBy (time : ℤ) : Bool :=
  store.fails.entries.all (fun entry => entry.2.expiresAt.all fun expiresAt => time ≤ expiresAt) &&
    store.locks.entries.all fun entry => time ≤ entry.2

end Store

inductive Phase where
  | comparing (user : Account) (password : String)
  | counting
  | expiring
  | locking
  | clearing
  | resetting (user : Account)
  /-- Refused, or through to what `Login` asks for next. -/
  | finished (answer : Except Rejection Account)

def Phase.isRunning : Phase → Bool
  | .finished _ => false
  | _ => true

structure Attempt where
  key : Key
  phase : Phase

def unauthorized : Phase := .finished (.error ⟨401, "Invalid email or password", none⟩)

section Model

variable (env : Primitives) (users : Table Account)
  /- What is wrong with the fields of a request, for `ShouldBindJSON`. -/
  (bindError : String → String → Option String)

def scopeOf (panel : String) : Scope := if panel = "superadmin" then .superadmin else .company

def keyOf (email panel : String) : Key := ⟨scopeOf panel, Auth.address env email⟩

def findUser (email panel : String) : Option Account :=
  Auth.Server.findUser ⟨0, users, [], [], []⟩ email panel

/-- `Login` up to its first command; what precedes that reads nothing that attempts change. -/
def Store.start (store : Store) (email password panel : String) (works : Bool) : Phase × Store :=
  match bindError email password with
  | some error => (.finished (.error ⟨400, error, none⟩), store)
  | none =>
    match findUser users email panel with
    | none => (.counting, store)
    | some user =>
      let key := keyOf env email panel
      if works && store.locked key then
        (.finished (.error
          ⟨429, "Too many failed sign-ins. Try again in a few minutes.", none⟩),
          store.record (.refused key))
      else (.comparing user password, store.record (.admitted key))

def Store.advance (store : Store) (works : Bool) (key : Key) : Phase → Phase × Store
  | .comparing user password =>
    if env.compareHashAndPassword user.passwordHash password then
      (.resetting user, store.record (.compared key true))
    else (.counting, store.record (.compared key false))
  | .counting =>
    if works then
      let n := store.count key + 1
      -- The first failure is never the last one that is allowed.
      let next := if n = 1 then .expiring else if maxFailures ≤ n then .locking else unauthorized
      (next, store.incr key)
    else (unauthorized, store)
  | .expiring => (unauthorized, if works then store.expire key else store)
  | .locking => (.clearing, if works then store.lock key else store)
  | .clearing => (unauthorized, if works then store.clear key else store)
  | .resetting user => (.finished (.ok user), if works then store.reset key else store)
  | .finished answer => (.finished answer, store)

/-- Redis, and the attempts under way. -/
structure World where
  store : Store
  attempts : ℕ → Option Attempt

/-- A step of an attempt, or the end of a key. -/
inductive Action where
  | start (number : ℕ) (email password panel : String) (works : Bool)
  | advance (number : ℕ) (works : Bool)
  | tick (elapsed : ℕ)
  | expireCounter (key : Key)
  | expireLock (key : Key)

/-- Keys expire on time: the clock stands until they have. -/
def World.step (world : World) : Action → Option World
  | .start number email password panel works =>
    if world.store.endsBy (world.store.now + 1) ∧ (world.attempts number).isNone then
      let (phase, store) := world.store.start env users bindError email password panel works
      some ⟨store, Function.update world.attempts number
        (some ⟨keyOf env email panel, phase⟩)⟩
    else none
  | .advance number works =>
    if world.store.endsBy (world.store.now + 1) then
      (world.attempts number).map fun attempt =>
        let (phase, store) := world.store.advance env works attempt.key attempt.phase
        ⟨store, Function.update world.attempts number (some ⟨attempt.key, phase⟩)⟩
    else none
  | .tick elapsed =>
    if world.store.endsBy (world.store.now + elapsed) then
      some { world with store := { world.store with now := world.store.now + elapsed } }
    else none
  | .expireCounter key =>
    if ((world.store.fails.lookup key).bind Counter.expiresAt).any (· ≤ world.store.now) then
      some { world with
        store := { world.store with fails := world.store.fails.erase key }.record
          (.counterExpired key) }
    else none
  | .expireLock key =>
    if (world.store.locks.lookup key).any (· ≤ world.store.now) then
      some { world with
        store := { world.store with locks := world.store.locks.erase key }.record
          (.lockExpired key) }
    else none

end Model

def World.initial (now : ℤ) : World := ⟨⟨now, ∅, ∅, []⟩, fun _ => none⟩

section Requirement

variable (key : Key) (identity : String)

def failures : List Deed → ℕ
  | [] => 0
  | deed :: older =>
    if deed.key = key then
      match deed with
      | .recorded _ => failures older + 1
      | .cleared _ | .reset _ | .counterExpired _ => 0
      | _ => failures older
    else failures older

def holds : List Deed → Bool
  | [] => false
  | deed :: older =>
    if deed.key = key then
      match deed with
      | .locked _ => true
      | .reset _ | .lockExpired _ => false
      | _ => holds older
    else holds older

def exceeded : List Deed → Bool
  | [] => false
  | deed :: older =>
    if deed.key = key then
      match deed with
      | .recorded _ => maxFailures ≤ failures key older + 1
      | .cleared _ | .reset _ => false
      | _ => exceeded older
    else exceeded older

/-- The wrong passwords compared for an address, whatever the surface, since its counter expired,
a sign-in succeeded or a lock was set. -/
def guesses : List Deed → ℕ
  | [] => 0
  | deed :: older =>
    if deed.key.identity = identity then
      match deed with
      | .compared _ false => guesses older + 1
      | .compared _ true | .counterExpired _ | .locked _ => 0
      | _ => guesses older
    else guesses older

end Requirement

/-- An attempt is let in only when no lock holds, is refused only for a lock, and a lock is set
only for too many failures. -/
def Warranted : Deed → List Deed → Prop
  | .admitted key, older => ∀ scope, holds ⟨scope, key.identity⟩ older = false
  | .refused key, older => holds key older = true
  | .locked key, older => exceeded key older = true
  | _, _ => True

/-- Few wrong passwords are compared before a lock, and locks are neither missed nor made up. -/
structure BoundsGuessing (history : List Deed) : Prop where
  bounded : ∀ identity, guesses identity history ≤ maxFailures
  warranted : ∀ deed older, deed :: older <:+ history → Warranted deed older

def World.Attempted (world : World) (identity : String) : Prop :=
  ∃ number attempt, world.attempts number = some attempt ∧ attempt.phase.isRunning = true ∧
    attempt.key.identity = identity

/-- Redis answers, and attempts for an address come one by one to one surface. -/
def Orderly (env : Primitives) (home : String → Scope) (world : World) : Action → Prop
  | .start _ email _ panel works =>
    works = true ∧ scopeOf panel = home (Auth.address env email) ∧
      ¬world.Attempted (Auth.address env email)
  | .advance _ works => works = true
  | _ => True

variable {key : Key} {identity : String} {deed : Deed} {history : List Deed} {store : Store}

theorem failures_cons_of_ne (other : deed.key ≠ key) :
    failures key (deed :: history) = failures key history := by
  simp [failures, other]

theorem holds_cons_of_ne (other : deed.key ≠ key) : holds key (deed :: history) = holds key history := by
  simp [holds, other]

theorem exceeded_cons_of_ne (other : deed.key ≠ key) :
    exceeded key (deed :: history) = exceeded key history := by
  simp [exceeded, other]

theorem guesses_cons_of_ne (other : deed.key.identity ≠ identity) :
    guesses identity (deed :: history) = guesses identity history := by
  simp [guesses, other]

structure Tracked (store : Store) : Prop where
  counted : ∀ key, store.count key = failures key store.history
  held : ∀ key, (store.locks.lookup key).isSome = holds key store.history

def Deed.isCount : Deed → Bool
  | .recorded _ | .cleared _ | .reset _ | .counterExpired _ => true
  | _ => false

def Deed.isLock : Deed → Bool
  | .locked _ | .reset _ | .lockExpired _ => true
  | _ => false

theorem failures_cons_of_not_isCount (neutral : deed.isCount = false) :
    failures key (deed :: history) = failures key history := by
  cases deed <;> simp_all [failures, Deed.isCount]

theorem holds_cons_of_not_isLock (neutral : deed.isLock = false) :
    holds key (deed :: history) = holds key history := by
  cases deed <;> simp_all [holds, Deed.isLock]

section

variable (tracked : Tracked store)

include tracked

theorem tracked_record (notCount : deed.isCount = false)
    (notLock : deed.isLock = false) : Tracked (store.record deed) where
  counted other := (tracked.counted other).trans (failures_cons_of_not_isCount notCount).symm
  held other := (tracked.held other).trans (holds_cons_of_not_isLock notLock).symm

theorem tracked_incr : Tracked (store.incr key) where
  counted other := by
    have before := tracked.counted other
    unfold Store.count at before
    by_cases same : other = key
    · subst same
      simp [Store.incr, Store.record, Store.count, failures, Deed.key, before]
    · rw [Store.incr, Store.record, failures_cons_of_ne (Ne.symm same)]
      simpa only [Store.count, AList.lookup_insert_ne same] using before
  held other := (tracked.held other).trans (holds_cons_of_not_isLock rfl).symm

theorem tracked_expire : Tracked (store.expire key) := by
  unfold Store.expire
  split
  · exact tracked
  · next counter found =>
      refine ⟨fun other => ?_, tracked.held⟩
      have before := tracked.counted other
      unfold Store.count at before ⊢
      by_cases same : other = key
      · subst same
        simpa [found] using before
      · simpa only [AList.lookup_insert_ne same] using before

theorem tracked_lock : Tracked (store.lock key) where
  counted other := (tracked.counted other).trans (failures_cons_of_not_isCount rfl).symm
  held other := by
    by_cases same : other = key
    · subst same
      simp [Store.lock, Store.record, holds, Deed.key]
    · rw [Store.lock, Store.record, holds_cons_of_ne (Ne.symm same)]
      simpa only [AList.lookup_insert_ne same] using tracked.held other

theorem counted_erase (ends : ∀ older, failures key (deed :: older) = 0)
    (isKey : deed.key = key) (other : Key) :
    ({ store with fails := store.fails.erase key, history := deed :: store.history } : Store).count
      other = failures other (deed :: store.history) := by
  by_cases same : other = key
  · subst same
    simp [Store.count, ends]
  · rw [failures_cons_of_ne (isKey.trans_ne (Ne.symm same))]
    simpa only [Store.count, AList.lookup_erase_ne same] using tracked.counted other

theorem held_erase (ends : ∀ older, holds key (deed :: older) = false)
    (isKey : deed.key = key) (other : Key) :
    ((store.locks.erase key).lookup other).isSome = holds other (deed :: store.history) := by
  by_cases same : other = key
  · subst same
    simp [ends]
  · rw [holds_cons_of_ne (isKey.trans_ne (Ne.symm same)), AList.lookup_erase_ne same]
    exact tracked.held other

theorem tracked_clear : Tracked (store.clear key) where
  counted := counted_erase tracked (fun _ => by simp [failures, Deed.key]) rfl
  held other := (tracked.held other).trans (holds_cons_of_not_isLock rfl).symm

theorem tracked_reset : Tracked (store.reset key) where
  counted := counted_erase tracked (fun _ => by simp [failures, Deed.key]) rfl
  held := held_erase tracked (fun _ => by simp [holds, Deed.key]) rfl

theorem tracked_expireCounter :
    Tracked ({ store with fails := store.fails.erase key }.record (.counterExpired key)) where
  counted := counted_erase tracked (fun _ => by simp [failures, Deed.key]) rfl
  held other := (tracked.held other).trans (holds_cons_of_not_isLock rfl).symm

theorem tracked_expireLock :
    Tracked ({ store with locks := store.locks.erase key }.record (.lockExpired key)) where
  counted other := (tracked.counted other).trans (failures_cons_of_not_isCount rfl).symm
  held := held_erase tracked (fun _ => by simp [holds, Deed.key]) rfl

end

/-- What is known of the guesses for an address while an attempt for it is under way. -/
def Fits (key : Key) (history : List Deed) : Phase → Prop
  | .counting =>
    guesses key.identity history ≤ failures key history + 1 ∧ failures key history < maxFailures
  | .locking => guesses key.identity history ≤ maxFailures ∧ exceeded key history = true
  | .clearing | .resetting _ => guesses key.identity history = 0
  | _ => guesses key.identity history ≤ failures key history ∧ failures key history < maxFailures

structure Fair (home : String → Scope) (world : World) : Prop where
  tracked : Tracked world.store
  warranted : ∀ deed older, deed :: older <:+ world.store.history → Warranted deed older
  atHome : ∀ key, holds key world.store.history = true → key.scope = home key.identity
  running : ∀ number attempt, world.attempts number = some attempt →
    attempt.phase.isRunning = true → attempt.key.scope = home attempt.key.identity ∧
      Fits attempt.key world.store.history attempt.phase
  alone : ∀ number other first second, world.attempts number = some first →
    world.attempts other = some second → first.phase.isRunning = true →
      second.phase.isRunning = true → first.key.identity = second.key.identity → number = other
  quiet : ∀ identity, ¬world.Attempted identity →
    Fits ⟨home identity, identity⟩ world.store.history unauthorized

variable {home : String → Scope} {world : World} {attempts : ℕ → Option Attempt} {after : Store}
  {number : ℕ} {next : Attempt} {phase : Phase}

theorem fits_cons_of_ne (other : deed.key.identity ≠ key.identity) :
    Fits key (deed :: history) phase ↔ Fits key history phase := by
  have otherKey : deed.key ≠ key := fun same => other (congrArg Key.identity same)
  cases phase <;> simp only [Fits, guesses_cons_of_ne other, failures_cons_of_ne otherKey,
    exceeded_cons_of_ne otherKey]

theorem guesses_le_of_fits (fits : Fits key history phase) :
    guesses key.identity history ≤ maxFailures := by
  cases phase <;> simp only [Fits] at fits <;> omega

theorem fair_move (fair : Fair home ⟨store, attempts⟩) (tracked : Tracked after)
    (grows : after.history = store.history ∨
      ∃ deed, after.history = deed :: store.history ∧ deed.key = next.key ∧
        Warranted deed store.history)
    (free : ∀ other attempt, attempts other = some attempt → attempt.phase.isRunning = true →
      attempt.key.identity = next.key.identity → other = number)
    (own : ∀ attempt, attempts number = some attempt → attempt.phase.isRunning = true →
      attempt.key.identity = next.key.identity)
    (homely : next.key.scope = home next.key.identity)
    (fits : Fits next.key after.history next.phase) :
    Fair home ⟨after, Function.update attempts number (some next)⟩ := by
  have elsewhere : ∀ key phase, key.identity ≠ next.key.identity →
      Fits key store.history phase → Fits key after.history phase := by
    intro key phase other known
    rcases grows with same | ⟨deed, grown, ofNext, -⟩
    · rwa [same]
    · rw [grown]
      exact (fits_cons_of_ne (by rw [ofNext]; exact other.symm)).2 known
  constructor
  case tracked => exact tracked
  case warranted =>
    intro deed older isSuffix
    rcases grows with same | ⟨newest, grown, -, warrants⟩
    · exact fair.warranted deed older (same ▸ isSuffix)
    · dsimp only at isSuffix
      rw [grown] at isSuffix
      rcases List.suffix_cons_iff.1 isSuffix with isNewest | isOlder
      · cases isNewest
        exact warrants
      · exact fair.warranted deed older isOlder
  case atHome =>
    intro key held
    dsimp only at held
    rcases grows with same | ⟨deed, grown, ofNext, -⟩
    · exact fair.atHome key (same ▸ held)
    · by_cases isNext : next.key = key
      · rw [← isNext]
        exact homely
      · rw [grown, holds_cons_of_ne (ofNext.trans_ne isNext)] at held
        exact fair.atHome key held
  case running =>
    intro other attempt found isRunning
    rcases party_update found with ⟨-, rfl⟩ | ⟨differs, before⟩
    · exact ⟨homely, fits⟩
    · obtain ⟨isHome, known⟩ := fair.running other attempt before isRunning
      have away : attempt.key.identity ≠ next.key.identity :=
        fun same => differs (free other attempt before isRunning same)
      exact ⟨isHome, elsewhere _ _ away known⟩
  case alone =>
    intro one two first second firstFound secondFound firstRuns secondRuns same
    rcases party_update firstFound with ⟨isOne, rfl⟩ | ⟨-, firstBefore⟩
    · rcases party_update secondFound with ⟨isTwo, -⟩ | ⟨-, secondBefore⟩
      · rw [isOne, isTwo]
      · rw [isOne, free two second secondBefore secondRuns same.symm]
    · rcases party_update secondFound with ⟨isTwo, rfl⟩ | ⟨-, secondBefore⟩
      · rw [isTwo, free one first firstBefore firstRuns same]
      · exact fair.alone one two first second firstBefore secondBefore firstRuns secondRuns same
  case quiet =>
    intro identity idle
    by_cases isNext : next.key.identity = identity
    · have finished : next.phase.isRunning = false :=
        Bool.eq_false_iff.2 fun runs => idle ⟨number, next, by simp, runs, isNext⟩
      obtain ⟨⟨scope, _⟩, phase⟩ := next
      cases isNext
      dsimp only at homely
      subst homely
      cases phase <;> first | exact fits | cases finished
    · apply elsewhere _ _ (Ne.symm isNext)
      apply fair.quiet
      rintro ⟨other, attempt, found, runs, rfl⟩
      by_cases moved : other = number
      · rw [moved] at found
        exact isNext (own attempt found runs).symm
      · exact idle ⟨other, attempt, by simpa [Function.update_of_ne moved] using found, runs, rfl⟩

theorem fair_expire (fair : Fair home ⟨store, attempts⟩) (tracked : Tracked after)
    (grown : after.history = deed :: store.history) (warrants : Warranted deed store.history)
    (unheld : ∀ key, holds key (deed :: store.history) = true → holds key store.history = true)
    (fits : ∀ key phase, Fits key store.history phase → Fits key (deed :: store.history) phase) :
    Fair home ⟨after, attempts⟩ := by
  constructor
  case tracked => exact tracked
  case warranted =>
    intro older rest isSuffix
    dsimp only at isSuffix
    rw [grown] at isSuffix
    rcases List.suffix_cons_iff.1 isSuffix with isNewest | isOlder
    · cases isNewest
      exact warrants
    · exact fair.warranted older rest isOlder
  case atHome =>
    intro key held
    dsimp only at held
    rw [grown] at held
    exact fair.atHome key (unheld key held)
  case running =>
    intro number attempt found runs
    obtain ⟨isHome, known⟩ := fair.running number attempt found runs
    dsimp only
    rw [grown]
    exact ⟨isHome, fits _ _ known⟩
  case alone => exact fair.alone
  case quiet =>
    intro identity idle
    dsimp only
    rw [grown]
    exact fits _ _ (fair.quiet identity idle)

theorem fits_of_le {longer : List Deed}
    (fewer : guesses key.identity longer ≤ guesses key.identity history)
    (sameCount : failures key longer = failures key history)
    (sameExcess : exceeded key longer = exceeded key history) (known : Fits key history phase) :
    Fits key longer phase := by
  cases phase <;> simp only [Fits, sameCount, sameExcess] at known ⊢
  case locking => exact ⟨fewer.trans known.1, known.2⟩
  all_goals omega

theorem fits_counterExpired (other : Key) (known : Fits key history phase) :
    Fits key (.counterExpired other :: history) phase := by
  by_cases same : other = key
  · subst same
    cases phase <;> simp_all [Fits, guesses, failures, exceeded, Deed.key, maxFailures]
  · have otherKey : (Deed.counterExpired other).key ≠ key := same
    apply fits_of_le ?_ (failures_cons_of_ne otherKey) (exceeded_cons_of_ne otherKey) known
    rw [guesses]
    split_ifs
    · exact Nat.zero_le _
    · rfl

theorem fits_lockExpired (other : Key) (known : Fits key history phase) :
    Fits key (.lockExpired other :: history) phase := by
  apply fits_of_le ?_ (failures_cons_of_not_isCount rfl) ?_ known
  · simp [guesses]
  · simp [exceeded]

theorem fair_initial (now : ℤ) : Fair home (World.initial now) where
  tracked := ⟨fun _ => rfl, fun _ => rfl⟩
  warranted deed older isSuffix := by simp [World.initial] at isSuffix
  atHome key held := by cases held
  running number attempt found := by cases found
  alone number other first second found := by cases found
  quiet _ _ := ⟨Nat.zero_le 0, Nat.zero_lt_succ 7⟩

variable {env : Primitives} {users : Table Account}
  {bindError : String → String → Option String} {email password panel : String}

theorem locked_eq_holds (tracked : Tracked store) (punctual : store.endsBy (store.now + 1) = true)
    (key : Key) : store.locked key = holds key store.history := by
  rw [← tracked.held key, Store.locked]
  cases found : store.locks.lookup key with
  | none => rfl
  | some expiresAt =>
    simp only [Store.endsBy, Bool.and_eq_true, List.all_eq_true] at punctual
    have later := punctual.2 _ (AList.mem_lookup_iff.1 found)
    have sooner : store.now < expiresAt := of_decide_eq_true later
    simpa using sooner

theorem fair_start (fair : Fair home ⟨store, attempts⟩)
    (punctual : store.endsBy (store.now + 1) = true) (isNew : attempts number = none)
    (homely : scopeOf panel = home (Auth.address env email))
    (idle : ¬World.Attempted ⟨store, attempts⟩ (Auth.address env email)) :
    Fair home ⟨(store.start env users bindError email password panel true).2,
      Function.update attempts number (some ⟨keyOf env email panel,
        (store.start env users bindError email password panel true).1⟩)⟩ := by
  have own : ∀ attempt, attempts number = some attempt → attempt.phase.isRunning = true →
      attempt.key.identity = (keyOf env email panel).identity := by
    intro attempt found
    rw [isNew] at found
    cases found
  have free : ∀ other attempt, attempts other = some attempt → attempt.phase.isRunning = true →
      attempt.key.identity = (keyOf env email panel).identity → other = number :=
    fun other attempt found runs same => absurd ⟨other, attempt, found, runs, same⟩ idle
  have known : Fits (keyOf env email panel) store.history unauthorized := by
    have quiet := fair.quiet _ idle
    rw [← homely] at quiet
    exact quiet
  unfold Store.start
  split
  case h_1 error _ => exact fair_move fair fair.tracked (.inl rfl) free own homely known
  case h_2 =>
    split
    case h_1 =>
      apply fair_move fair fair.tracked (.inl rfl) free own homely
      exact ⟨known.1.trans (Nat.le_succ _), known.2⟩
    case h_2 user _ =>
      simp only [Bool.true_and]
      rw [locked_eq_holds fair.tracked punctual]
      split_ifs with held
      · apply fair_move fair (tracked_record fair.tracked rfl rfl) ?_ free own homely
        · exact fits_of_le (by simp [Store.record, guesses]) (failures_cons_of_not_isCount rfl)
            (by simp [Store.record, exceeded]) known
        · exact .inr ⟨_, rfl, rfl, held⟩
      · apply fair_move fair (tracked_record fair.tracked rfl rfl) ?_ free own homely
        · exact fits_of_le (by simp [Store.record, guesses]) (failures_cons_of_not_isCount rfl)
            (by simp [Store.record, exceeded]) known
        · refine .inr ⟨_, rfl, rfl, fun scope => Bool.eq_false_iff.2 fun locked => held ?_⟩
          have same : scope = (keyOf env email panel).scope :=
            (fair.atHome _ locked).trans homely.symm
          rwa [same] at locked

theorem fair_advance (fair : Fair home ⟨store, attempts⟩) {attempt : Attempt}
    (found : attempts number = some attempt) :
    Fair home ⟨(store.advance env true attempt.key attempt.phase).2,
      Function.update attempts number (some ⟨attempt.key,
        (store.advance env true attempt.key attempt.phase).1⟩)⟩ := by
  obtain ⟨key, phase⟩ := attempt
  by_cases runs : phase.isRunning = true
  case neg =>
    cases phase <;> first | exact absurd rfl runs | skip
    simp only [Store.advance]
    rwa [← found, Function.update_eq_self]
  obtain ⟨homely, known⟩ := fair.running number _ found runs
  dsimp only at homely known
  have own : ∀ other, attempts number = some other → other.phase.isRunning = true →
      other.key.identity = key.identity := by
    intro other same _
    rw [found] at same
    cases same
    rfl
  have free : ∀ other second, attempts other = some second → second.phase.isRunning = true →
      second.key.identity = key.identity → other = number :=
    fun other second there isRunning same =>
      fair.alone other number second _ there found isRunning runs same
  cases phase with
  | comparing user password =>
    simp only [Store.advance]
    split_ifs
    · apply fair_move fair (tracked_record fair.tracked rfl rfl) ?_ free own homely
      · simp [Fits, Store.record, guesses, Deed.key]
      · exact .inr ⟨_, rfl, rfl, trivial⟩
    · apply fair_move fair (tracked_record fair.tracked rfl rfl) ?_ free own homely
      · simp only [Fits] at known
        simp [Fits, Store.record, guesses, failures, Deed.key, known.1, known.2]
      · exact .inr ⟨_, rfl, rfl, trivial⟩
  | counting =>
    simp only [Fits] at known
    have more : guesses key.identity (.recorded key :: store.history) ≤
        failures key (.recorded key :: store.history) := by
      simp [guesses, failures, Deed.key, known.1]
    have counted := fair.tracked.counted key
    have oneMore : failures key (.recorded key :: store.history) = store.count key + 1 := by
      simp [failures, Deed.key, counted]
    apply fair_move fair (tracked_incr fair.tracked) ?_ free own homely
    · simp only [Store.advance, if_true]
      split_ifs with isFirst isLast
      · refine ⟨more, ?_⟩
        show failures key (.recorded key :: store.history) < maxFailures
        rw [oneMore, isFirst]
        decide
      · refine ⟨more.trans ?_, ?_⟩
        · rw [oneMore, counted]
          exact known.2
        · show exceeded key (.recorded key :: store.history) = true
          simpa [exceeded, Deed.key, counted] using isLast
      · refine ⟨more, ?_⟩
        show failures key (.recorded key :: store.history) < maxFailures
        rw [oneMore]
        exact Nat.lt_of_not_le isLast
    · exact .inr ⟨_, rfl, rfl, trivial⟩
  | expiring =>
    have same : (store.expire key).history = store.history := by
      unfold Store.expire
      split <;> rfl
    apply fair_move fair (tracked_expire fair.tracked) (.inl same) free own homely
    dsimp only [Store.advance, if_true]
    rw [same]
    exact known
  | locking =>
    simp only [Store.advance, if_true]
    apply fair_move fair (tracked_lock fair.tracked) ?_ free own homely
    · show guesses key.identity (.locked key :: store.history) = 0
      simp [guesses, Deed.key]
    · exact .inr ⟨_, rfl, rfl, known.2⟩
  | clearing =>
    simp only [Store.advance, if_true]
    apply fair_move fair (tracked_clear fair.tracked) ?_ free own homely
    · have none : guesses key.identity (.cleared key :: store.history) = 0 := by
        simp only [guesses, ite_self]
        exact known
      refine ⟨none.trans_le (Nat.zero_le _), ?_⟩
      show failures key (.cleared key :: store.history) < maxFailures
      simp [failures, Deed.key, maxFailures]
    · exact .inr ⟨_, rfl, rfl, trivial⟩
  | resetting user =>
    simp only [Store.advance, if_true]
    apply fair_move fair (tracked_reset fair.tracked) ?_ free own homely
    · have none : guesses key.identity (.reset key :: store.history) = 0 := by
        simp only [guesses, ite_self]
        exact known
      refine ⟨none.trans_le (Nat.zero_le _), ?_⟩
      show failures key (.reset key :: store.history) < maxFailures
      simp [failures, Deed.key, maxFailures]
    · exact .inr ⟨_, rfl, rfl, trivial⟩
  | finished answer => cases runs

theorem fair_step {action : Action} {following : World} (fair : Fair home world)
    (orderly : Orderly env home world action)
    (stepped : world.step env users bindError action = some following) :
    Fair home following := by
  obtain ⟨store, attempts⟩ := world
  cases action with
  | start number email password panel works =>
    obtain ⟨rfl, homely, idle⟩ := orderly
    simp only [World.step, Option.isNone_iff_eq_none] at stepped
    split_ifs at stepped with enabled
    cases stepped
    exact fair_start fair enabled.1 enabled.2 homely idle
  | advance number works =>
    cases orderly
    simp only [World.step] at stepped
    split_ifs at stepped
    obtain ⟨attempt, found, rfl⟩ := Option.map_eq_some_iff.1 stepped
    exact fair_advance fair found
  | tick elapsed =>
    simp only [World.step] at stepped
    split_ifs at stepped
    cases stepped
    exact { fair with tracked := ⟨fair.tracked.counted, fair.tracked.held⟩ }
  | expireCounter key =>
    simp only [World.step] at stepped
    split_ifs at stepped
    cases stepped
    refine fair_expire fair (tracked_expireCounter fair.tracked) rfl trivial ?_ ?_
    · exact fun other held => (holds_cons_of_not_isLock rfl).symm.trans held
    · exact fun other phase known => fits_counterExpired key known
  | expireLock key =>
    simp only [World.step] at stepped
    split_ifs at stepped
    cases stepped
    refine fair_expire fair (tracked_expireLock fair.tracked) rfl trivial ?_ ?_
    · intro other held
      by_cases same : key = other
      · subst same
        simp [holds, Deed.key] at held
      · have otherKey : (Deed.lockExpired key).key ≠ other := same
        rwa [holds_cons_of_ne otherKey] at held
    · exact fun other phase known => fits_lockExpired key known

theorem boundsGuessing_of_fair (fair : Fair home world) : BoundsGuessing world.store.history where
  bounded identity := by
    by_cases attempted : world.Attempted identity
    · obtain ⟨number, attempt, found, runs, rfl⟩ := attempted
      exact guesses_le_of_fits (fair.running number attempt found runs).2
    · exact guesses_le_of_fits (fair.quiet identity attempted)
  warranted := fair.warranted

/-- As long as Redis answers and the attempts for an address follow each other on one surface,
they are locked out as they should be. -/
theorem boundsGuessing_of_allOrderly (home : String → Scope) {now : ℤ} {trace : List Action} {final : World}
    (executed : exec (World.step env users bindError) (World.initial now) trace = some final)
    (orderly : AllSteps (World.step env users bindError) (Orderly env home)
      (World.initial now) trace) :
    BoundsGuessing final.store.history :=
  boundsGuessing_of_fair (invariant_of_allSteps
    (fun _ _ _ fair permitted stepped => fair_step fair permitted stepped)
    (fair_initial now) orderly executed)

def guessing (number : ℕ) : Action := .start number "admin@example.com" "sesame" "company" true

/-- Eight wrong passwords, one attempt after the other, and a ninth attempt. -/
def nineGuesses : List Action :=
  (List.range 8).flatMap (fun number => guessing number :: List.replicate 4 (.advance number true)) ++
    [guessing 8]

/-- Of nine attempts at a company account, none is running where one starts. -/
def inTurn (world : World) : Action → Bool
  | .start number _ _ panel works => works && panel == "company" && number < 9 &&
      (List.range 9).all fun other => (world.attempts other).all fun attempt => !attempt.phase.isRunning
  | .advance number works => works && number < 9
  | _ => true

def AtMostNine (world : World) : Prop := ∀ number, 9 ≤ number → world.attempts number = none

theorem AtMostNine.step {action : Action} {next : World} (nine : AtMostNine world)
    (turn : inTurn world action = true)
    (stepped : World.step env users bindError world action = some next) : AtMostNine next := by
  intro number large
  cases action with
  | start started email password panel works =>
    simp only [inTurn, Bool.and_eq_true, decide_eq_true_eq] at turn
    simp only [World.step, Option.ite_none_right_eq_some, Option.some.injEq] at stepped
    rw [← stepped.2]
    exact (Function.update_of_ne (by omega) _ _).trans (nine number large)
  | advance advanced works =>
    simp only [inTurn, Bool.and_eq_true, decide_eq_true_eq] at turn
    simp only [World.step, Option.ite_none_right_eq_some, Option.map_eq_some_iff] at stepped
    obtain ⟨-, attempt, -, rfl⟩ := stepped
    exact (Function.update_of_ne (by omega) _ _).trans (nine number large)
  | tick | expireCounter | expireLock =>
    simp only [World.step, Option.ite_none_right_eq_some, Option.some.injEq] at stepped
    rw [← stepped.2]
    exact nine number large

theorem orderly_of_inTurn {action : Action} (nine : AtMostNine world)
    (turn : inTurn world action = true) : Orderly env (fun _ => .company) world action := by
  cases action with
  | start started email password panel works =>
    simp only [inTurn, Bool.and_eq_true, decide_eq_true_eq, beq_iff_eq, List.all_eq_true,
      List.mem_range, Option.all_eq_true, Bool.not_eq_true'] at turn
    obtain ⟨⟨⟨works, rfl⟩, -⟩, finished⟩ := turn
    refine ⟨works, rfl, ?_⟩
    rintro ⟨number, attempt, found, runs, -⟩
    by_cases small : number < 9
    · simp [finished number small attempt found] at runs
    · rw [nine number (by omega)] at found
      cases found
  | advance advanced works =>
    simp only [inTurn, Bool.and_eq_true] at turn
    exact turn.1
  | tick | expireCounter | expireLock => trivial

def oneAccount : Table Account := ⟨[Auth.sampleAccount false], List.nodup_singleton _⟩

theorem orderly_nineGuesses :
    AllSteps (World.step Auth.plainPrimitives oneAccount fun _ _ => none)
      (Orderly Auth.plainPrimitives fun _ => .company) (World.initial 0) nineGuesses := by
  have turns : AllSteps (World.step Auth.plainPrimitives oneAccount fun _ _ => none)
      (fun world action => inTurn world action = true) (World.initial 0) nineGuesses :=
    allSteps_of_checkSteps (by decide +kernel)
  exact allSteps_of_invariant
    (fun world action next (nine : AtMostNine world) turn stepped => nine.step turn stepped)
    (fun _ _ nine turn => orderly_of_inTurn nine turn) (fun _ _ => rfl) turns

/-- Eight wrong passwords are recorded, and the ninth attempt is refused. -/
theorem boundsGuessing_nineGuesses :
    ∃ final, exec (World.step Auth.plainPrimitives oneAccount fun _ _ => none) (World.initial 0)
        nineGuesses = some final ∧
      final.store.history.head? = some (.refused ⟨.company, "admin@example.com"⟩) ∧
      BoundsGuessing final.store.history := by
  have last : (exec (World.step Auth.plainPrimitives oneAccount fun _ _ => none) (World.initial 0)
      nineGuesses).map (·.store.history.head?) =
      some (some (.refused ⟨.company, "admin@example.com"⟩)) := by
    decide +kernel
  obtain ⟨final, executed, refused⟩ := Option.map_eq_some_iff.mp last
  exact ⟨final, executed, refused, boundsGuessing_of_allOrderly _ executed orderly_nineGuesses⟩

def spray : List Action :=
  (List.range 9).map guessing ++ (List.range 9).map fun number => .advance number true

/-- Nine attempts look for a lock before the first one is counted. -/
theorem not_boundsGuessing_spray :
    ¬∀ env users bindError now trace final,
      exec (World.step env users bindError) (World.initial now) trace = some final →
        BoundsGuessing final.store.history := by
  intro bounds
  rcases (⟨_, rfl⟩ : ∃ final, exec (World.step Auth.plainPrimitives oneAccount fun _ _ => none)
      (World.initial 0) spray = some final) with ⟨final, executed⟩
  have bounded := (bounds _ _ _ _ _ final executed).bounded "admin@example.com"
  cases executed
  exact absurd bounded (by decide)

end Aavishield.Lockout
