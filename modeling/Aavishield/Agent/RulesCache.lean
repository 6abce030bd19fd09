import Aavishield.Lib.TransitionSystem

/-!
# Rules for the agents

`GetRules` caches the body of its answer under one key and the signature of that body
under another.  Requests for the same rules run side by side, and each command that they
send is a step.
-/

namespace Aavishield.RulesCache

open TransitionSystem

abbrev Bytes := List UInt8

/--
The key pair of the server, with Ed25519 and base64 as documented.  Signatures are symbolic:
one that verifies for a body was made over it.
-/
structure Signer where
  Signature : Type
  keyID : String
  sign : Bytes → Signature
  verify : Bytes → Signature → Bool
  toBytes : Signature → List UInt8
  ofBytes : List UInt8 → Option Signature
  encode : List UInt8 → String
  decode : String → Option (List UInt8)
  verify_sign : ∀ body signed, verify body (sign signed) = true ↔ body = signed
  ofBytes_toBytes : ∀ signature, ofBytes (toBytes signature) = some signature
  decode_encode : ∀ bytes, decode (encode bytes) = some bytes

/-- The signature as it travels in `X-Policy-Signature` (`Signer.Sign`). -/
def Signer.header (signer : Signer) (body : Bytes) : String :=
  signer.encode (signer.toBytes (signer.sign body))

/-- `PolicySigVerifier::verify` of an agent that has pinned the server's key. -/
def Signer.accepts (signer : Signer) (body : Bytes) (signature keyID : Option String) : Bool :=
  match signature, keyID with
  | some signature, some keyID =>
    if signer.keyID ≠ keyID then false
    else
      match signer.decode signature with
      | none => false
      | some raw =>
        match signer.ofBytes raw with
        | none => false
        | some signature => signer.verify body signature
  | _, _ => false

theorem Signer.accepts_header (signer : Signer) (body signed : Bytes) :
    signer.accepts body (some (signer.header signed)) (some signer.keyID) = true ↔ body = signed := by
  simp [Signer.accepts, Signer.header, signer.decode_encode, signer.ofBytes_toBytes,
    signer.verify_sign]

structure Entry (Value : Type) where
  value : Value
  writer : ℕ

inductive Phase where
  | started
  /-- The body came from the cache; its signature is read next. -/
  | hit (entry : Entry Bytes)
  | missed
  | signed (body : Bytes)
  | cached (body : Bytes)
  | finished

structure Response where
  body : Bytes
  signature : String
  keyID : String

/-- The two keys of the cache, and the requests under way. -/
structure State where
  /-- The value under `cacheKey`. -/
  body : Option (Entry Bytes)
  /-- The value under `cacheKey + ":sig"`. -/
  signature : Option (Entry String)
  phase : ℕ → Phase
  resolved : ℕ → Option Bytes
  served : List Response

def State.initial : State where
  body := none
  signature := none
  phase _ := .started
  resolved _ := none
  served := []

/-- One command of a request to Redis, or the end of a key. -/
inductive Step (Rules : Type) where
  | readBody (request : ℕ) (answered : Bool)
  | readSignature (request : ℕ) (answered : Bool)
  | resolve (request : ℕ) (rules : Rules)
  | writeBody (request : ℕ) (answered : Bool)
  | writeSignature (request : ℕ) (answered : Bool)
  | expireBody
  | expireSignature

/-- `json.Marshal` of the rules, `rulesETag`, and the `If-None-Match` of each request. -/
structure Handler (Rules : Type) where
  signer : Signer
  marshal : Rules → Option Bytes
  rulesETag : Bytes → String
  ifNoneMatch : ℕ → Option String

variable {Rules : Type} (handler : Handler Rules)

def State.moveTo (state : State) (request : ℕ) (phase : Phase) : State :=
  { state with phase := Function.update state.phase request phase }

def Handler.notModified (request : ℕ) (body : Bytes) : Bool :=
  handler.ifNoneMatch request == some (handler.rulesETag body)

def State.serve (state : State) (request : ℕ) (body : Bytes) (signature : String) : State :=
  if handler.notModified request body then state.moveTo request .finished
  else
    { state.moveTo request .finished with
      served := ⟨body, signature, handler.signer.keyID⟩ :: state.served }

def step (state : State) : Step Rules → Option State
  | .readBody request answered =>
    match state.phase request with
    | .started =>
      match state.body, answered with
      | some entry, true => some (state.moveTo request (.hit entry))
      | _, _ => some (state.moveTo request .missed)
    | _ => none
  | .readSignature request answered =>
    match state.phase request with
    | .hit entry =>
      match state.signature, answered with
      | some signature, true => some (state.serve handler request entry.value signature.value)
      | _, _ => some (state.moveTo request .missed)
    | _ => none
  | .resolve request rules =>
    match state.phase request with
    | .missed =>
      match handler.marshal rules with
      -- answered with status 500
      | none => some (state.moveTo request .finished)
      | some body =>
        some { state.moveTo request (.signed body) with
          resolved := Function.update state.resolved request (some body) }
    | _ => none
  | .writeBody request answered =>
    match state.phase request with
    | .signed body =>
      some { state.moveTo request (.cached body) with
        body := if answered then some ⟨body, request⟩ else state.body }
    | _ => none
  | .writeSignature request answered =>
    match state.phase request with
    | .cached body =>
      let signature := handler.signer.header body
      some (({ state with
        signature := if answered then some ⟨signature, request⟩ else state.signature }
          : State).serve handler request body signature)
    | _ => none
  | .expireBody => some { state with body := none }
  | .expireSignature => some { state with signature := none }

/-- The agents accept every response under the key it names. -/
def State.Signed (state : State) : Prop :=
  ∀ response ∈ state.served,
    handler.signer.accepts response.body (some response.signature) (some response.keyID) = true

/-- Whatever requests run side by side, with any expiries and changes of the rules. -/
def AlwaysSigned : Prop :=
  ∀ trace state, exec (step handler) .initial trace = some state → state.Signed handler

/--
When a request takes both parts of an answer with status 200 from the cache, those who
wrote them had worked out the same body.
-/
def Matches (state : State) : Step Rules → Prop
  | .readSignature request true =>
    ∀ entry signature, state.phase request = .hit entry → state.signature = some signature →
      handler.notModified request entry.value = false →
        state.resolved entry.writer = state.resolved signature.writer
  | _ => True

def State.PhaseSound (state : State) (request : ℕ) : Phase → Prop
  | .started | .missed => state.resolved request = none
  | .hit entry => state.resolved request = none ∧ state.resolved entry.writer = some entry.value
  | .signed body | .cached body => state.resolved request = some body
  | .finished => True

structure Sound (state : State) : Prop where
  body : ∀ entry, state.body = some entry → state.resolved entry.writer = some entry.value
  signature : ∀ entry, state.signature = some entry → ∃ body,
    state.resolved entry.writer = some body ∧ entry.value = handler.signer.header body
  phase : ∀ request, state.PhaseSound request (state.phase request)
  served : state.Signed handler

variable {handler} {state next : State} {request : ℕ}

theorem Sound.initial : Sound handler .initial where
  body entry present := by cases present
  signature entry present := by cases present
  phase request := rfl
  served response responseMem := by cases responseMem

@[simp]
theorem serve_phase (body : Bytes) (signature : String) :
    (state.serve handler request body signature).phase =
      Function.update state.phase request .finished := by
  unfold State.serve
  split <;> rfl

@[simp]
theorem serve_resolved (body : Bytes) (signature : String) :
    (state.serve handler request body signature).resolved = state.resolved := by
  unfold State.serve
  split <;> rfl

@[simp]
theorem serve_body (body : Bytes) (signature : String) :
    (state.serve handler request body signature).body = state.body := by
  unfold State.serve
  split <;> rfl

@[simp]
theorem serve_signature (body : Bytes) (signature : String) :
    (state.serve handler request body signature).signature = state.signature := by
  unfold State.serve
  split <;> rfl

theorem phaseSound_congr {other : State} (same : other.resolved = state.resolved) {phase : Phase} :
    other.PhaseSound request phase ↔ state.PhaseSound request phase := by
  cases phase <;> simp only [State.PhaseSound, same]

theorem phaseSound_update (sound : ∀ other, state.PhaseSound other (state.phase other))
    {phase : Phase} (moved : state.PhaseSound request phase) (other : ℕ) :
    state.PhaseSound other (Function.update state.phase request phase other) := by
  by_cases same : other = request
  · subst same
    rw [Function.update_self]
    exact moved
  · rw [Function.update_of_ne same]
    exact sound other

section

variable (sound : Sound handler state)

include sound

theorem Sound.moveTo {phase : Phase}
    (moved : state.PhaseSound request phase) : Sound handler (state.moveTo request phase) where
  body := sound.body
  signature := sound.signature
  phase := phaseSound_update sound.phase moved
  served := sound.served

theorem Sound.serve {body : Bytes} {signature : String}
    (signed : handler.notModified request body = false →
      signature = handler.signer.header body) :
    Sound handler (state.serve handler request body signature) where
  body := by simpa using sound.body
  signature := by simpa using sound.signature
  phase other := by
    have moved := phaseSound_update sound.phase
      (show state.PhaseSound request .finished from trivial) other
    rw [serve_phase]
    exact (phaseSound_congr (serve_resolved body signature)).mpr moved
  served := by
    unfold State.serve
    split
    · exact sound.served
    · rename_i modified
      intro response responseMem
      rcases List.mem_cons.mp responseMem with rfl | responseMem
      · rw [signed (Bool.not_eq_true _ ▸ modified)]
        exact (handler.signer.accepts_header body body).mpr rfl
      · exact sound.served response responseMem

theorem Sound.resolve (missed : state.resolved request = none)
    (body : Bytes) : Sound handler { state.moveTo request (.signed body) with
      resolved := Function.update state.resolved request (some body) } := by
  have kept : ∀ writer value, state.resolved writer = some value →
      Function.update state.resolved request (some body) writer = some value := by
    intro writer value known
    have other : writer ≠ request := by
      rintro rfl
      cases missed.symm.trans known
    rw [Function.update_of_ne other]
    exact known
  have keptNone : ∀ other, other ≠ request → state.resolved other = none →
      Function.update state.resolved request (some body) other = none := by
    intro other differs unknown
    rw [Function.update_of_ne differs]
    exact unknown
  constructor
  case body =>
    intro entry present
    exact kept _ _ (sound.body entry present)
  case signature =>
    intro entry present
    rcases sound.signature entry present with ⟨signed, known, isHeader⟩
    exact ⟨signed, kept _ _ known, isHeader⟩
  case phase =>
    intro other
    by_cases same : other = request
    · subst same
      simp [State.moveTo, State.PhaseSound]
    · have before := sound.phase other
      simp only [State.moveTo, Function.update_of_ne same]
      cases phase : state.phase other with
      | started | missed => exact keptNone other same (by simpa [phase, State.PhaseSound] using before)
      | hit entry =>
        rw [phase] at before
        exact ⟨keptNone other same before.1, kept _ _ before.2⟩
      | signed body | cached body => exact kept _ _ (by simpa [phase, State.PhaseSound] using before)
      | finished => trivial
  case served => exact sound.served

theorem Sound.writeBody {body : Bytes}
    (known : state.resolved request = some body) (answered : Bool) :
    Sound handler { state.moveTo request (.cached body) with
      body := if answered then some ⟨body, request⟩ else state.body } where
  body := by
    cases answered with
    | true =>
      intro entry present
      cases present
      exact known
    | false => exact sound.body
  signature := sound.signature
  phase := phaseSound_update sound.phase (show state.PhaseSound request (.cached body) from known)
  served := sound.served

theorem Sound.writeSignature {body : Bytes}
    (known : state.resolved request = some body) (answered : Bool) :
    Sound handler { state with
      signature := if answered then some ⟨handler.signer.header body, request⟩ else state.signature }
    where
  body := sound.body
  signature := by
    cases answered with
    | true =>
      intro entry present
      cases present
      exact ⟨body, known, rfl⟩
    | false => exact sound.signature
  phase := sound.phase
  served := sound.served

theorem Sound.step {action : Step Rules}
    (allowed : Matches handler state action) (stepped : step handler state action = some next) :
    Sound handler next := by
  cases action with
  | readBody request answered =>
    simp only [RulesCache.step] at stepped
    split at stepped
    · rename_i started
      have unresolved : state.resolved request = none := by
        simpa [started, State.PhaseSound] using sound.phase request
      split at stepped
      · rename_i entry present
        cases stepped
        exact sound.moveTo ⟨unresolved, sound.body entry present⟩
      · cases stepped
        exact sound.moveTo unresolved
    · cases stepped
  | readSignature request answered =>
    simp only [RulesCache.step] at stepped
    split at stepped
    · rename_i entry hit
      have before := sound.phase request
      rw [hit] at before
      split at stepped
      · rename_i signature present
        cases stepped
        apply sound.serve
        intro modified
        rcases sound.signature signature present with ⟨body, known, isHeader⟩
        have same := allowed entry signature hit present modified
        rw [before.2, known] at same
        cases same
        exact isHeader
      · cases stepped
        exact sound.moveTo before.1
    · cases stepped
  | resolve request rules =>
    simp only [RulesCache.step] at stepped
    split at stepped
    · rename_i missed
      split at stepped
      · cases stepped
        exact sound.moveTo trivial
      · cases stepped
        apply sound.resolve
        simpa [missed, State.PhaseSound] using sound.phase request
    · cases stepped
  | writeBody request answered =>
    simp only [RulesCache.step] at stepped
    split at stepped
    · rename_i body signed
      cases stepped
      apply sound.writeBody
      simpa [signed, State.PhaseSound] using sound.phase request
    · cases stepped
  | writeSignature request answered =>
    simp only [RulesCache.step] at stepped
    split at stepped
    · rename_i body cached
      cases stepped
      have known : state.resolved request = some body := by
        simpa [cached, State.PhaseSound] using sound.phase request
      exact (sound.writeSignature known answered).serve fun _ => rfl
    · cases stepped
  | expireBody =>
    cases stepped
    exact ⟨fun entry present => (by cases present), sound.signature, sound.phase, sound.served⟩
  | expireSignature =>
    cases stepped
    exact ⟨sound.body, fun entry present => (by cases present), sound.phase, sound.served⟩

/-- Parts that do not belong together are served together, and the agent rejects them. -/
theorem Sound.matches_of_signed {action : Step Rules}
    (stepped : RulesCache.step handler state action = some next) (signed : next.Signed handler) :
    Matches handler state action := by
  cases action with
  | readSignature request answered =>
    cases answered with
    | false => trivial
    | true =>
      intro entry signature hit present modified
      simp only [RulesCache.step, hit, present] at stepped
      cases stepped
      have before := sound.phase request
      rw [hit] at before
      rcases sound.signature signature present with ⟨body, known, isHeader⟩
      have accepted := signed ⟨entry.value, signature.value, handler.signer.keyID⟩
        (by simp [State.serve, modified])
      rw [isHeader, Signer.accepts_header] at accepted
      rw [before.2, known]
      exact congrArg some accepted
  | _ => trivial

end

/--
In every state that a run passes through the answers are signed over their own bodies,
exactly when no request takes parts from the cache that were worked out differently.
-/
theorem signed_iff_matches {trace : List (Step Rules)}
    (executed : exec (step handler) .initial trace = some state) :
    (∀ reached, Visits (step handler) .initial trace reached → reached.Signed handler) ↔
      AllSteps (step handler) (Matches handler) .initial trace := by
  have served : ∀ reached, Sound handler reached → reached.Signed handler :=
    fun reached sound => sound.served
  refine forall_visits_iff_allSteps served ?_ ?_ Sound.initial executed
  · intro state action next sound allowed stepped
    exact sound.step allowed stepped
  · intro state action next sound stepped signed
    exact sound.matches_of_signed stepped signed

def sampleSigner : Signer where
  Signature := Bytes
  keyID := "kid-1"
  sign body := body
  verify body signature := body == signature
  toBytes signature := signature
  ofBytes raw := some raw
  encode bytes := String.ofList (bytes.map fun byte => Char.ofNat byte.toNat)
  decode text := some (text.toList.map fun letter => UInt8.ofNat letter.toNat)
  verify_sign body signed := by simp
  ofBytes_toBytes signature := rfl
  decode_encode bytes := by
    simp only [String.toList_ofList, List.map_map, Option.some.injEq]
    apply (List.map_congr_left _).trans (List.map_id bytes)
    intro byte _
    have small : byte.toNat < 256 := byte.toNat_lt
    have valid : byte.toNat.isValidChar := .inl (by omega)
    rw [Function.comp_apply, Char.ofNat, dif_pos valid]
    exact UInt8.ofNat_toNat

def sampleHandler : Handler Bytes where
  signer := sampleSigner
  marshal rules := some rules
  rulesETag body := sampleSigner.encode body
  ifNoneMatch _ := none

def workOut (request : ℕ) (rules : Bytes) : List (Step Bytes) :=
  [.readBody request true, .resolve request rules, .writeBody request true,
    .writeSignature request true]

/-- One request after the other, the second of them answered from the cache. -/
theorem sequential_signed :
    ∃ state, exec (step sampleHandler) .initial
      (workOut 0 [1] ++ [.readBody 1 true, .readSignature 1 true]) = some state ∧
        state.served.length = 2 ∧ state.Signed sampleHandler := by
  rcases (⟨_, rfl⟩ : ∃ state, exec (step sampleHandler) .initial
    (workOut 0 [1] ++ [.readBody 1 true, .readSignature 1 true]) = some state) with
      ⟨state, executed⟩
  refine ⟨state, executed, ?_, (signed_iff_matches executed).mpr ?_ state ⟨_, List.prefix_refl _, executed⟩⟩
  · cases executed
    rfl
  · refine ⟨trivial, fun _ first => ⟨trivial, fun _ second => ⟨trivial, fun _ third => ⟨trivial,
      fun _ fourth => ⟨trivial, fun _ fifth => ⟨?_, fun _ _ => trivial⟩⟩⟩⟩⟩⟩
    cases first
    cases second
    cases third
    cases fourth
    cases fifth
    intro entry signature hit present _
    cases hit
    cases present
    rfl

/--
Between the two reads of a request both keys expire and another request caches new rules,
so that the old body goes out with the new signature.
-/
theorem not_alwaysSigned : ¬AlwaysSigned sampleHandler := by
  intro always
  rcases (⟨_, rfl⟩ : ∃ state, exec (step sampleHandler) .initial
    (workOut 0 [1] ++ [.readBody 1 true, .expireBody, .expireSignature] ++ workOut 2 [2] ++
      [.readSignature 1 true]) = some state) with ⟨state, executed⟩
  have signed := always _ _ executed ⟨[1], sampleSigner.header [2], "kid-1"⟩
  cases executed
  exact absurd (signed List.mem_cons_self) (by decide)

end Aavishield.RulesCache
