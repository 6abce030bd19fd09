import Aavishield.Basic
import Aavishield.Lib.TransitionSystem

/-!
# Agent keys and their cache

`authAgent` looks a key up in the cache and then in `agent_tokens`, and fills the cache
from the table.  Revoking a device and enrolling it again take its key out of the table.
Requests run side by side, and each command to the database or to the cache is a step, which may
fail; where the code drops its error, the call goes on.
-/

namespace Aavishield.TokenCache

open TransitionSystem

/-- A row of `agent_tokens`; a unique index allows one for each device. -/
structure AgentToken where
  orgID : UUID
  employeeID : Option UUID
  tokenHash : String
  revoked : Bool

structure CachedAgentToken where
  orgID : UUID
  employeeID : Option UUID

/--
The text of a device in a request and the hash of its key (`agentTokenCacheKey`).  The
database reads the text as an identifier, while the cache takes it as it stands.
-/
abbrev CacheKey := String × String

abbrev AgentKey := UUID × String

inductive Phase where
  | idle
  /-- `authAgent`; the flag says that the key had been revoked when the request arrived. -/
  | arrived (key : CacheKey) (late : Bool)
  | missed (key : CacheKey) (late : Bool)
  | found (key : CacheKey) (late : Bool) (token : CachedAgentToken)
  /-- `revokeAgentToken`, with the hash that it read and the key that its update is to revoke. -/
  | revoking (device : UUID)
  | queried (device : UUID) (tokenHash : Option String)
  | updated (device : UUID) (tokenHash : Option String) (removed : Option AgentKey)
  | cleared (removed : Option AgentKey)
  /-- `Enroll` of a device that is there already, with the key that it deleted. -/
  | enrolling (device : UUID)
  | deleted (device : UUID) (removed : Option AgentKey)
  | created (removed : Option AgentKey)
  | finished

structure Admission where
  key : CacheKey
  late : Bool

/-- The table, the cache before it, and the calls under way. -/
structure State where
  tokens : UUID → Option AgentToken
  cache : CacheKey → Option CachedAgentToken
  phase : ℕ → Phase
  issued : List String
  /-- The keys taken out of the table by calls that have returned, for the record only. -/
  dead : List AgentKey
  admitted : List Admission

def State.initial (tokens : UUID → Option AgentToken) (cache : CacheKey → Option CachedAgentToken)
    (issued : List String) : State where
  tokens := tokens
  cache := cache
  phase _ := .idle
  issued := issued
  dead := []
  admitted := []

/-- One step of a call; an answer may fail to come. -/
inductive Step where
  | request (call : ℕ) (key : CacheKey)
  | readCache (call : ℕ) (answered : Bool)
  | queryToken (call : ℕ) (answered : Bool)
  | fillCache (call : ℕ) (answered : Bool)
  | revoke (call : ℕ) (device : UUID)
  | queryDevice (call : ℕ) (answered : Bool)
  | updateTokens (call : ℕ) (answered : Bool)
  | deleteCached (call : ℕ) (answered : Bool)
  | returnRevoked (call : ℕ)
  | enroll (call : ℕ) (device : UUID)
  | deleteTokens (call : ℕ) (answered : Bool)
  | createToken (call : ℕ) (token : AgentToken) (answered : Bool)
  | returnEnrolled (call : ℕ)
  | expire (key : CacheKey)

def State.moveTo (state : State) (call : ℕ) (phase : Phase) : State :=
  { state with phase := Function.update state.phase call phase }

def State.letThrough (state : State) (call : ℕ) (key : CacheKey) (late : Bool) : State :=
  { state.moveTo call .finished with admitted := ⟨key, late⟩ :: state.admitted }

-- how the database reads the text of a device (`device_id = ?`)
variable (readUUID : String → Option UUID)

def Bears (key : CacheKey) (agentKey : AgentKey) : Prop :=
  readUUID key.1 = some agentKey.1 ∧ key.2 = agentKey.2

def agentKey (key : CacheKey) : Option AgentKey :=
  (readUUID key.1).map fun device => (device, key.2)

def State.valid (state : State) (key : CacheKey) : Option AgentToken :=
  (readUUID key.1).bind fun device =>
    (state.tokens device).filter fun token => token.tokenHash == key.2 && !token.revoked

def State.keyOf (state : State) (device : UUID) : Option AgentKey :=
  (state.tokens device).map fun token => (device, token.tokenHash)

def State.conclude (state : State) (call : ℕ) (removed : Option AgentKey) : State :=
  { state.moveTo call .finished with dead := removed.toList ++ state.dead }

/-- The key of the cache that `revokeAgentToken` deletes. -/
def cacheKeyOf (device : UUID) (tokenHash : String) : CacheKey := (device.text, tokenHash)

def step (state : State) : Step → Option State
  | .request call key =>
    match state.phase call with
    | .idle =>
      let late := (agentKey readUUID key).any fun bearer => decide (bearer ∈ state.dead)
      some (state.moveTo call (.arrived key late))
    | _ => none
  | .readCache call answered =>
    match state.phase call with
    | .arrived key late =>
      match state.cache key, answered with
      | some _, true => some (state.letThrough call key late)
      | _, _ => some (state.moveTo call (.missed key late))
    | _ => none
  | .queryToken call answered =>
    match state.phase call with
    | .missed key late =>
      match state.valid readUUID key, answered with
      | some token, true =>
        some (state.moveTo call (.found key late ⟨token.orgID, token.employeeID⟩))
      -- answered with status 401
      | _, _ => some (state.moveTo call .finished)
    | _ => none
  | .fillCache call answered =>
    match state.phase call with
    | .found key late token =>
      some { state.letThrough call key late with
        cache := if answered then Function.update state.cache key (some token) else state.cache }
    | _ => none
  | .revoke call device =>
    match state.phase call with
    | .idle => some (state.moveTo call (.revoking device))
    | _ => none
  | .queryDevice call answered =>
    match state.phase call with
    | .revoking device =>
      let token := (state.tokens device).filter fun token => answered && !token.revoked
      some (state.moveTo call (.queried device (token.map AgentToken.tokenHash)))
    | _ => none
  | .updateTokens call answered =>
    match state.phase call with
    | .queried device tokenHash =>
      let revoked := (state.tokens device).map fun token => { token with revoked := true }
      -- the error of the update is dropped
      some { state.moveTo call (.updated device tokenHash (state.keyOf device)) with
        tokens :=
          if answered then Function.update state.tokens device revoked else state.tokens }
    | _ => none
  | .deleteCached call answered =>
    match state.phase call with
    | .updated device tokenHash removed =>
      match tokenHash, answered with
      | some tokenHash, true =>
        some { state.moveTo call (.cleared removed) with
          cache := Function.update state.cache (cacheKeyOf device tokenHash) none }
      | _, _ => some (state.moveTo call (.cleared removed))
    | _ => none
  | .returnRevoked call =>
    match state.phase call with
    | .cleared removed => some (state.conclude call removed)
    | _ => none
  | .enroll call device =>
    match state.phase call with
    | .idle => some (state.moveTo call (.enrolling device))
    | _ => none
  | .deleteTokens call answered =>
    match state.phase call with
    | .enrolling device =>
      if answered then
        some { state.moveTo call (.deleted device (state.keyOf device)) with
          tokens := Function.update state.tokens device none }
      else some (state.moveTo call (.deleted device none))
    | _ => none
  | .createToken call token answered =>
    match state.phase call with
    | .deleted device removed =>
      -- a new key is random, and none that was made before
      if token.tokenHash ∈ state.issued ∨ token.revoked = true then none
      else
        match state.tokens device, answered with
        | none, true => some { state.moveTo call (.created removed) with
            tokens := Function.update state.tokens device (some token)
            issued := token.tokenHash :: state.issued }
        -- answered with status 500, also where the device has a row
        | _, _ => some { state.moveTo call (.created removed) with
            issued := token.tokenHash :: state.issued }
    | _ => none
  | .returnEnrolled call =>
    match state.phase call with
    | .created removed => some (state.conclude call removed)
    | _ => none
  | .expire key => some { state with cache := Function.update state.cache key none }

/-- No request is authenticated that arrived with a key after its revocation had returned. -/
def State.RevokesAtOnce (state : State) : Prop :=
  ∀ admission ∈ state.admitted, admission.late = false

/-- In every run of calls side by side, from any table and any cache of its valid rows. -/
def AlwaysRevokesAtOnce : Prop :=
  ∀ tokens cache issued trace state,
    (∀ device token, tokens device = some token → token.tokenHash ∈ issued) →
      exec (step readUUID) (.initial tokens cache issued) trace = some state → state.RevokesAtOnce

def State.Forgotten (state : State) (removed : AgentKey) : Prop :=
  ∀ key, Bears readUUID key removed → state.cache key = none

/--
A key is only put into the cache while its row is valid; a failing update finds no valid row; when
`revokeAgentToken` deletes from the cache, the only entry for the key is the one that it deletes;
and when `Enroll` deletes a row, there is no entry for its key.
-/
def Heeds (state : State) : Step → Prop
  | .fillCache call true => ∀ key late token, state.phase call = .found key late token →
      (state.valid readUUID key).isSome
  | .updateTokens call false => ∀ device tokenHash, state.phase call = .queried device tokenHash →
      ∀ token, state.tokens device = some token → token.revoked = true
  | .deleteCached call answered => ∀ device tokenHash removed,
      state.phase call = .updated device tokenHash (some removed) →
        ∀ key, Bears readUUID key removed → state.cache key ≠ none →
          answered = true ∧ ∃ read ∈ tokenHash, key = cacheKeyOf device read
  | .deleteTokens call true => ∀ device removed, state.phase call = .enrolling device →
      state.keyOf device = some removed → state.Forgotten readUUID removed
  | _ => True

structure State.Gone (state : State) (removed : AgentKey) : Prop where
  revoked : ∀ token, state.tokens removed.1 = some token → token.tokenHash = removed.2 →
    token.revoked = true
  issued : removed.2 ∈ state.issued

/-- A key that is not in the table any more is not in the cache either. -/
def State.Lost (state : State) (removed : AgentKey) : Prop :=
  state.Gone removed ∧ state.Forgotten readUUID removed

/-- What each phase of a call knows of the key that it bears or takes out of the table. -/
def State.PhaseSound (state : State) : Phase → Prop
  | .arrived key late | .missed key late => late = true →
      ∃ removed ∈ state.dead, Bears readUUID key removed
  | .found _ late _ => late = false
  | .updated _ _ removed => ∀ key, removed = some key → state.Gone key
  | .cleared removed | .deleted _ removed | .created removed =>
    ∀ key, removed = some key → state.Lost readUUID key
  | _ => True

structure Sound (state : State) : Prop where
  issued : ∀ device token, state.tokens device = some token → token.tokenHash ∈ state.issued
  dead : ∀ removed ∈ state.dead, state.Lost readUUID removed
  phase : ∀ call, state.PhaseSound readUUID (state.phase call)
  admitted : state.RevokesAtOnce

variable {readUUID} {state next : State} {call : ℕ}

variable {key : CacheKey}

theorem agentKey_eq_some {bearer : AgentKey} :
    agentKey readUUID key = some bearer ↔ Bears readUUID key bearer := by
  rcases bearer with ⟨device, tokenHash⟩
  simp [agentKey, Bears]

variable {phase : Phase}

/-- What is out of the table and out of the cache stays so. -/
structure Forward (readUUID : String → Option UUID) (state next : State) : Prop where
  gone : ∀ removed, state.Gone removed → next.Gone removed
  lost : ∀ removed, state.Lost readUUID removed → next.Lost readUUID removed
  dead : ∀ removed ∈ state.dead, removed ∈ next.dead

theorem State.PhaseSound.forward (sound : state.PhaseSound readUUID phase)
    (forward : Forward readUUID state next) : next.PhaseSound readUUID phase := by
  cases phase with
  | arrived key late | missed key late =>
    intro isLate
    rcases sound isLate with ⟨removed, removedMem, bears⟩
    exact ⟨removed, forward.dead removed removedMem, bears⟩
  | found key late token => exact sound
  | updated =>
    intro key removed
    exact forward.gone key (sound key removed)
  | cleared | deleted | created =>
    intro key removed
    exact forward.lost key (sound key removed)
  | idle | revoking | queried | enrolling | finished => trivial

theorem phaseSound_update (sound : ∀ other, state.PhaseSound readUUID (state.phase other))
    (forward : Forward readUUID state next)
    (isPhase : next.phase = Function.update state.phase call phase)
    (moved : next.PhaseSound readUUID phase) (other : ℕ) :
    next.PhaseSound readUUID (next.phase other) := by
  rw [isPhase]
  by_cases same : other = call
  · subst same
    rw [Function.update_self]
    exact moved
  · rw [Function.update_of_ne same]
    exact (sound other).forward forward

theorem Forward.of_tables (tokens : next.tokens = state.tokens) (issued : next.issued = state.issued)
    (cache : next.cache = state.cache) (dead : ∀ removed ∈ state.dead, removed ∈ next.dead) :
    Forward readUUID state next := by
  have gone : ∀ removed, state.Gone removed → next.Gone removed := fun removed gone =>
    ⟨by rw [tokens]; exact gone.revoked, by rw [issued]; exact gone.issued⟩
  refine ⟨gone, fun removed lost => ⟨gone removed lost.1, ?_⟩, dead⟩
  intro key bears
  rw [cache]
  exact lost.2 key bears

theorem Sound.moveTo (sound : Sound readUUID state)
    (moved : state.PhaseSound readUUID phase) : Sound readUUID (state.moveTo call phase) := by
  have forward : Forward readUUID state (state.moveTo call phase) :=
    .of_tables rfl rfl rfl fun _ removedMem => removedMem
  exact
    { issued := sound.issued
      dead := fun removed removedMem => forward.lost removed (sound.dead removed removedMem)
      phase := phaseSound_update sound.phase forward rfl (moved.forward forward)
      admitted := sound.admitted }

variable {late : Bool}

section

variable (sound : Sound readUUID state)

include sound

theorem Sound.letThrough
    (inTime : late = false) : Sound readUUID (state.letThrough call key late) := by
  have moved : Sound readUUID (state.moveTo call .finished) := sound.moveTo trivial
  have forward : Forward readUUID (state.moveTo call .finished) (state.letThrough call key late) :=
    .of_tables rfl rfl rfl fun _ removedMem => removedMem
  refine ⟨moved.issued, fun removed removedMem => forward.lost removed (moved.dead removed removedMem),
    fun other => (moved.phase other).forward forward, ?_⟩
  intro admission admissionMem
  rcases List.mem_cons.mp admissionMem with rfl | admissionMem
  · exact inTime
  · exact sound.admitted admission admissionMem

/-- The cache may change as long as it gets no entry for a key that is out of the table. -/
theorem Sound.recache {cache : CacheKey → Option CachedAgentToken}
    (forgotten : ∀ removed, state.Gone removed → ∀ key, Bears readUUID key removed →
      state.cache key = none → cache key = none) : Sound readUUID { state with cache } := by
  have gone : ∀ removed, state.Gone removed → State.Gone { state with cache } removed :=
    fun removed isGone => ⟨isGone.revoked, isGone.issued⟩
  have forward : Forward readUUID state { state with cache } := by
    refine ⟨gone, fun removed lost => ⟨gone removed lost.1, ?_⟩, fun _ removedMem => removedMem⟩
    intro key bears
    exact forgotten removed lost.1 key bears (lost.2 key bears)
  exact
    { issued := sound.issued
      dead := fun removed removedMem => forward.lost removed (sound.dead removed removedMem)
      phase := fun other => (sound.phase other).forward forward
      admitted := sound.admitted }

theorem Sound.forget (key : CacheKey) :
    Sound readUUID { state with cache := Function.update state.cache key none } := by
  apply sound.recache
  intro removed _ other bears isNone
  by_cases same : other = key
  · subst same
    exact Function.update_self _ _ _
  · exact (Function.update_of_ne same _ _).trans isNone

omit sound in
theorem State.Gone.valid_eq_none {removed : AgentKey} (gone : state.Gone removed)
    (bears : Bears readUUID key removed) : state.valid readUUID key = none := by
  rcases bears with ⟨read, sameHash⟩
  rw [State.valid, read, Option.bind_some, Option.filter_eq_none_iff]
  intro token present
  by_cases same : token.tokenHash = key.2
  · have revoked := gone.revoked token present (same.trans sameHash)
    simp [revoked]
  · simp [same]

theorem Sound.fill (token : CachedAgentToken) (valid : (state.valid readUUID key).isSome) :
    Sound readUUID { state with cache := Function.update state.cache key (some token) } := by
  apply sound.recache
  intro removed gone other bears isNone
  have differs : other ≠ key := by
    rintro rfl
    rw [gone.valid_eq_none bears] at valid
    cases valid
  exact (Function.update_of_ne differs _ _).trans isNone

end

/-- Rows lose their validity or make way for rows with new keys. -/
structure Retires (state next : State) : Prop where
  cache : next.cache = state.cache
  dead : next.dead = state.dead
  admitted : next.admitted = state.admitted
  issued : ∀ tokenHash ∈ state.issued, tokenHash ∈ next.issued
  tokens : ∀ device token, next.tokens device = some token →
    (∃ old, state.tokens device = some old ∧ old.tokenHash = token.tokenHash ∧
      (old.revoked = true → token.revoked = true)) ∨
        token.tokenHash ∉ state.issued ∧ token.tokenHash ∈ next.issued

variable {removed : AgentKey}

theorem Retires.gone (retires : Retires state next) (gone : state.Gone removed) :
    next.Gone removed where
  revoked token present sameHash := by
    rcases retires.tokens _ token present with ⟨old, was, same, stays⟩ | ⟨isNew, -⟩
    · exact stays (gone.revoked old was (same.trans sameHash))
    · exact absurd (sameHash ▸ gone.issued) isNew
  issued := retires.issued _ gone.issued

theorem Retires.forward (retires : Retires state next) : Forward readUUID state next := by
  refine ⟨fun _ => retires.gone, fun removed lost => ⟨retires.gone lost.1, ?_⟩, ?_⟩
  · intro key bears
    rw [retires.cache]
    exact lost.2 key bears
  · intro removed removedMem
    rwa [retires.dead]

theorem Sound.retire (sound : Sound readUUID state) (retires : Retires state next)
    (isPhase : next.phase = Function.update state.phase call phase)
    (moved : next.PhaseSound readUUID phase) : Sound readUUID next where
  issued device token present := by
    rcases retires.tokens device token present with ⟨old, was, same, -⟩ | ⟨-, isIssued⟩
    · exact retires.issued _ (same ▸ sound.issued device old was)
    · exact isIssued
  dead removed removedMem :=
    retires.forward.lost removed (sound.dead removed (retires.dead ▸ removedMem))
  phase := phaseSound_update sound.phase retires.forward isPhase moved
  admitted := by
    unfold State.RevokesAtOnce
    rw [retires.admitted]
    exact sound.admitted

theorem Sound.conclude (sound : Sound readUUID state) {removed : Option AgentKey}
    (lost : ∀ key, removed = some key → state.Lost readUUID key) :
    Sound readUUID (state.conclude call removed) := by
  have forward : Forward readUUID state (state.conclude call removed) :=
    .of_tables rfl rfl rfl fun _ keyMem => List.mem_append_right _ keyMem
  refine ⟨sound.issued, ?_, phaseSound_update sound.phase forward rfl trivial, sound.admitted⟩
  intro key keyMem
  rcases List.mem_append.mp keyMem with isRemoved | keyMem
  · exact forward.lost key (lost key (Option.mem_toList.mp isRemoved))
  · exact forward.lost key (sound.dead key keyMem)

section

variable (sound : Sound readUUID state)

include sound

theorem Sound.request (key : CacheKey) :
    Sound readUUID (state.moveTo call (.arrived key
      ((agentKey readUUID key).any fun bearer => decide (bearer ∈ state.dead)))) := by
  apply sound.moveTo
  intro isLate
  rcases Option.any_eq_true_iff_get _ _ |>.mp isLate with ⟨known, isDead⟩
  exact ⟨_, of_decide_eq_true isDead, agentKey_eq_some.mp (Option.some_get known).symm⟩

theorem Sound.readCache (arrived : state.phase call = .arrived key late) {token : CachedAgentToken}
    (hit : state.cache key = some token) : late = false := by
  have before := sound.phase call
  rw [arrived] at before
  by_contra isLate
  rcases before (Bool.not_eq_false _ ▸ isLate) with ⟨removed, removedMem, bears⟩
  cases hit.symm.trans ((sound.dead removed removedMem).2 key bears)

theorem Sound.queryToken (missed : state.phase call = .missed key late) {token : AgentToken}
    (valid : state.valid readUUID key = some token) : late = false := by
  have before := sound.phase call
  rw [missed] at before
  by_contra isLate
  rcases before (Bool.not_eq_false _ ▸ isLate) with ⟨removed, removedMem, bears⟩
  cases valid.symm.trans ((sound.dead removed removedMem).1.valid_eq_none bears)

theorem Sound.replaceToken (device : UUID) {row : Option AgentToken}
    (revokes : ∀ token, row = some token → token.revoked = true ∧
      ∃ old, state.tokens device = some old ∧ old.tokenHash = token.tokenHash)
    (moved : ∀ next : State, next.cache = state.cache →
      (∀ key, state.keyOf device = some key → next.Gone key) → next.PhaseSound readUUID phase) :
    Sound readUUID { state.moveTo call phase with
      tokens := Function.update state.tokens device row } := by
  have retires : Retires state { state.moveTo call phase with
      tokens := Function.update state.tokens device row } := by
    refine ⟨rfl, rfl, rfl, fun _ isIssued => isIssued, ?_⟩
    intro other token present
    left
    by_cases same : other = device
    · subst same
      rcases revokes token ((Function.update_self other row state.tokens).symm.trans present) with
        ⟨revoked, old, was, sameHash⟩
      exact ⟨old, was, sameHash, fun _ => revoked⟩
    · exact ⟨token, (Function.update_of_ne same _ _).symm.trans present, rfl, id⟩
  refine sound.retire retires rfl (moved _ rfl ?_)
  intro key removed
  rcases Option.map_eq_some_iff.mp removed with ⟨old, was, rfl⟩
  refine ⟨fun token present _ => ?_, sound.issued device old was⟩
  exact (revokes token ((Function.update_self device row state.tokens).symm.trans present)).1

theorem Sound.updateTokens (device : UUID) (tokenHash : Option String) :
    Sound readUUID { state.moveTo call (.updated device tokenHash (state.keyOf device)) with
      tokens := Function.update state.tokens device
        ((state.tokens device).map fun token => { token with revoked := true }) } := by
  refine sound.replaceToken device ?_ fun _ _ gone => gone
  intro token present
  rcases Option.map_eq_some_iff.mp present with ⟨old, was, rfl⟩
  exact ⟨rfl, old, was, rfl⟩

/-- An update that fails leaves no valid row where there is none. -/
theorem Sound.missUpdate (device : UUID) (tokenHash : Option String)
    (revoked : ∀ token, state.tokens device = some token → token.revoked = true) :
    Sound readUUID (state.moveTo call (.updated device tokenHash (state.keyOf device))) := by
  apply sound.moveTo
  intro key removed
  rcases Option.map_eq_some_iff.mp removed with ⟨old, was, rfl⟩
  exact ⟨fun token present _ => revoked token present, sound.issued device old was⟩

theorem Sound.deleteTokens (device : UUID) (forgotten : ∀ removed,
      state.keyOf device = some removed → state.Forgotten readUUID removed) :
    Sound readUUID { state.moveTo call (.deleted device (state.keyOf device)) with
      tokens := Function.update state.tokens device none } := by
  refine sound.replaceToken device (fun _ present => by cases present) ?_
  intro next sameCache gone removed isRemoved
  refine ⟨gone removed isRemoved, fun key bears => ?_⟩
  rw [sameCache]
  exact forgotten removed isRemoved key bears

/-- Where the only entry for a key is the one that is deleted, the key is lost with it. -/
theorem Sound.deleteCached {device : UUID} {tokenHash : Option String} {removed : Option AgentKey}
    {answered : Bool} (updated : state.phase call = .updated device tokenHash removed)
    (heeds : Heeds readUUID state (.deleteCached call answered)) {cache : CacheKey → Option CachedAgentToken}
    (isCache : (∃ read ∈ tokenHash, answered = true ∧
        cache = Function.update state.cache (cacheKeyOf device read) none) ∨
      ((tokenHash = none ∨ answered = false) ∧ cache = state.cache)) :
    Sound readUUID { state.moveTo call (.cleared removed) with cache } := by
  have before := sound.phase call
  rw [updated] at before
  have recached : Sound readUUID { state with cache } := by
    rcases isCache with ⟨read, _, _, rfl⟩ | ⟨_, rfl⟩
    · exact sound.forget _
    · exact sound
  apply recached.moveTo
  intro key isRemoved
  refine ⟨⟨(before key isRemoved).revoked, (before key isRemoved).issued⟩, ?_⟩
  intro entry bears
  by_contra held
  have was : state.cache entry ≠ none := by
    intro isNone
    apply held
    rcases isCache with ⟨read, _, _, rfl⟩ | ⟨_, rfl⟩
    · by_cases same : entry = cacheKeyOf device read
      · exact same ▸ Function.update_self _ _ _
      · exact (Function.update_of_ne same _ _).trans isNone
    · exact isNone
  rcases heeds device tokenHash key (isRemoved ▸ updated) entry bears was with
    ⟨isAnswered, read, isRead, rfl⟩
  rcases isCache with ⟨other, isOther, _, rfl⟩ | ⟨isNone | unanswered, _⟩
  · cases Option.mem_unique isRead isOther
    exact held (Function.update_self _ _ _)
  · cases isNone ▸ isRead
  · cases isAnswered.symm.trans unanswered

theorem Sound.createToken {device : UUID} {removed : Option AgentKey}
    (deleted : state.phase call = .deleted device removed) {token : AgentToken}
    (isNew : token.tokenHash ∉ state.issued) (tokens : UUID → Option AgentToken)
    (isTokens : tokens = state.tokens ∨ tokens = Function.update state.tokens device (some token)) :
    Sound readUUID { state.moveTo call (.created removed) with
      tokens := tokens
      issued := token.tokenHash :: state.issued } := by
  have retires : Retires state { state.moveTo call (.created removed) with
      tokens := tokens
      issued := token.tokenHash :: state.issued } := by
    refine ⟨rfl, rfl, rfl, fun _ isIssued => List.mem_cons_of_mem _ isIssued, ?_⟩
    intro other found present
    rcases isTokens with rfl | rfl
    · exact .inl ⟨found, present, rfl, id⟩
    · by_cases same : other = device
      · subst same
        cases (Function.update_self _ _ _).symm.trans present
        exact .inr ⟨isNew, List.mem_cons_self⟩
      · exact .inl ⟨found, (Function.update_of_ne same _ _).symm.trans present, rfl, id⟩
  refine sound.retire retires rfl ?_
  have before := sound.phase call
  rw [deleted] at before
  intro key isRemoved
  exact retires.forward.lost key (before key isRemoved)

theorem Sound.step {action : Step} (heeds : Heeds readUUID state action)
    (stepped : step readUUID state action = some next) : Sound readUUID next := by
  cases action with
  | request call key =>
    simp only [TokenCache.step] at stepped
    split at stepped
    · cases stepped
      exact sound.request key
    · cases stepped
  | readCache call answered =>
    simp only [TokenCache.step] at stepped
    split at stepped
    · rename_i key late arrived
      split at stepped
      · rename_i token hit
        cases stepped
        exact sound.letThrough (sound.readCache arrived hit)
      · cases stepped
        apply sound.moveTo
        have before := sound.phase call
        rw [arrived] at before
        exact before
    · cases stepped
  | queryToken call answered =>
    simp only [TokenCache.step] at stepped
    split at stepped
    · rename_i key late missed
      split at stepped
      · rename_i token valid
        cases stepped
        exact sound.moveTo (sound.queryToken missed valid)
      · cases stepped
        exact sound.moveTo trivial
    · cases stepped
  | fillCache call answered =>
    simp only [TokenCache.step] at stepped
    split at stepped
    · rename_i key late token found
      cases stepped
      have before := sound.phase call
      rw [found] at before
      have admitted : Sound readUUID (state.letThrough call key late) := sound.letThrough before
      cases answered with
      | true => exact admitted.fill token (heeds key late token found)
      | false => exact admitted
    · cases stepped
  | revoke call device | queryDevice call answered | enroll call device =>
    simp only [TokenCache.step] at stepped
    split at stepped
    · cases stepped
      exact sound.moveTo trivial
    · cases stepped
  | updateTokens call answered =>
    simp only [TokenCache.step] at stepped
    split at stepped
    · rename_i device tokenHash queried
      cases stepped
      cases answered with
      | true => exact sound.updateTokens device tokenHash
      | false => exact sound.missUpdate device tokenHash (heeds device tokenHash queried)
    · cases stepped
  | deleteCached call answered =>
    simp only [TokenCache.step] at stepped
    split at stepped
    · rename_i device tokenHash removed updated
      split at stepped
      · rename_i read
        cases stepped
        exact sound.deleteCached updated heeds (.inl ⟨read, rfl, rfl, rfl⟩)
      · rename_i notBoth
        cases stepped
        refine sound.deleteCached updated heeds (.inr ⟨?_, rfl⟩)
        cases tokenHash with
        | none => exact .inl rfl
        | some read =>
          right
          by_contra isAnswered
          exact notBoth read rfl (Bool.not_eq_false _ ▸ isAnswered)
    · cases stepped
  | returnRevoked call =>
    simp only [TokenCache.step] at stepped
    split at stepped
    · rename_i removed cleared
      cases stepped
      have before := sound.phase call
      rw [cleared] at before
      exact sound.conclude before
    · cases stepped
  | deleteTokens call answered =>
    simp only [TokenCache.step] at stepped
    split at stepped
    · rename_i device enrolling
      cases answered with
      | true =>
        cases stepped
        exact sound.deleteTokens device fun removed => heeds device removed enrolling
      | false =>
        cases stepped
        exact sound.moveTo fun _ isRemoved => by cases isRemoved
    · cases stepped
  | createToken call token answered =>
    simp only [TokenCache.step] at stepped
    split at stepped
    · rename_i device removed deleted
      split at stepped
      · cases stepped
      · rename_i fresh
        have isNew : token.tokenHash ∉ state.issued := fun isIssued => fresh (.inl isIssued)
        split at stepped
        · cases stepped
          exact sound.createToken deleted isNew _ (.inr rfl)
        · cases stepped
          exact sound.createToken deleted isNew _ (.inl rfl)
    · cases stepped
  | returnEnrolled call =>
    simp only [TokenCache.step] at stepped
    split at stepped
    · rename_i removed created
      cases stepped
      have before := sound.phase call
      rw [created] at before
      exact sound.conclude before
    · cases stepped
  | expire key =>
    cases stepped
    exact sound.forget key

end

theorem Sound.initial {tokens : UUID → Option AgentToken}
    {cache : CacheKey → Option CachedAgentToken} {issued : List String}
    (known : ∀ device token, tokens device = some token → token.tokenHash ∈ issued) :
    Sound readUUID (.initial tokens cache issued) where
  issued := known
  dead removed removedMem := by cases removedMem
  phase call := trivial
  admitted admission admissionMem := by cases admissionMem

/-- In every run whose steps heed the condition, revocation takes effect at once. -/
theorem revokesAtOnce_of_heeds {tokens : UUID → Option AgentToken}
    {cache : CacheKey → Option CachedAgentToken} {issued : List String} {trace : List Step}
    (known : ∀ device token, tokens device = some token → token.tokenHash ∈ issued)
    (heeds : AllSteps (step readUUID) (Heeds readUUID) (.initial tokens cache issued) trace)
    (executed : exec (step readUUID) (.initial tokens cache issued) trace = some state) :
    state.RevokesAtOnce := by
  have sound : Sound readUUID state := by
    apply invariant_of_allSteps _ (Sound.initial known) heeds executed
    intro middle action next sound allowed stepped
    exact sound.step allowed stepped
  exact sound.admitted

def laptop : UUID := ⟨1⟩

def readLaptop (text : String) : Option UUID :=
  if text = laptop.text then some laptop else none

def laptopToken (tokenHash : String) : AgentToken where
  orgID := ⟨2⟩
  employeeID := none
  tokenHash := tokenHash
  revoked := false

def enrolledState : State :=
  .initial (fun device => if device = laptop then some (laptopToken "first") else none)
    (fun _ => none) ["first"]

def firstRequest : List Step :=
  [.request 0 (laptop.text, "first"), .readCache 0 true, .queryToken 0 true, .fillCache 0 true]

/-- The device is revoked between two requests, and the second one is turned away. -/
theorem revokedDevice_revokesAtOnce :
    ∃ state, exec (step readLaptop) enrolledState (firstRequest ++
      [.revoke 1 laptop, .queryDevice 1 true, .updateTokens 1 true, .deleteCached 1 true,
        .returnRevoked 1, .request 2 (laptop.text, "first"), .readCache 2 true,
        .queryToken 2 true]) = some state ∧
      state.admitted.length = 1 ∧ state.RevokesAtOnce := by
  rcases (⟨_, rfl⟩ : ∃ state, exec (step readLaptop) enrolledState (firstRequest ++
    [.revoke 1 laptop, .queryDevice 1 true, .updateTokens 1 true, .deleteCached 1 true,
      .returnRevoked 1, .request 2 (laptop.text, "first"), .readCache 2 true,
      .queryToken 2 true]) = some state) with ⟨state, executed⟩
  refine ⟨state, executed, ?_, revokesAtOnce_of_heeds ?_ ?_ executed⟩
  · cases executed
    rfl
  · intro device token present
    split_ifs at present
    cases present
    exact List.mem_cons_self
  · iterate 3 refine (allSteps_cons rfl).mpr ⟨trivial, ?_⟩
    refine (allSteps_cons rfl).mpr ⟨fun key late token found => ?_, ?_⟩
    · cases found
      rfl
    iterate 3 refine (allSteps_cons rfl).mpr ⟨trivial, ?_⟩
    refine (allSteps_cons rfl).mpr ⟨fun device tokenHash removed updated key bears _ => ?_, ?_⟩
    · cases updated
      have isText : key.1 = laptop.text := by
        by_contra other
        simp [Bears, readLaptop, other] at bears
      exact ⟨rfl, "first", rfl, Prod.ext isText bears.2⟩
    · iterate 4 refine (allSteps_cons rfl).mpr ⟨trivial, ?_⟩
      trivial

/-- After the device has been enrolled again, the old key still passes from the cache. -/
theorem not_alwaysRevokesAtOnce : ¬AlwaysRevokesAtOnce readLaptop := by
  intro always
  rcases (⟨_, rfl⟩ : ∃ state, exec (step readLaptop) enrolledState (firstRequest ++
    [.enroll 1 laptop, .deleteTokens 1 true, .createToken 1 (laptopToken "second") true,
      .returnEnrolled 1, .request 2 (laptop.text, "first"), .readCache 2 true]) = some state) with
    ⟨state, executed⟩
  have atOnce := always _ _ _ _ _ (fun device token present => ?_) executed
  · cases executed
    cases atOnce ⟨(laptop.text, "first"), true⟩ List.mem_cons_self
  · split_ifs at present
    cases present
    exact List.mem_cons_self

end Aavishield.TokenCache
