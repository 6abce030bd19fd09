import Aavishield.Dataplane.ManagerSteps

/-!
# Which version of the settings a call follows
-/

namespace Aavishield.Dataplane.Manager

open TransitionSystem

/--
The call followed a committed row, not older than the last one that had been
invalidated when the call began.
-/
def FollowsCurrentRow (state : State) (answer : Answer) : Prop :=
  ∀ version destination, answer.result = some (version, destination) →
    answer.floor ≤ version ∧ version ≤ state.version ∧
      Follows answer.purpose (state.committed version) destination

/-- No run ever routes by settings that had been invalidated. -/
def ServesCurrentRows : Prop :=
  ∀ trace state, exec step .initial trace = some state →
    ∀ answer ∈ state.answers, FollowsCurrentRow state answer

/--
No call publishes a row that has meanwhile been replaced and invalidated, and none
falls back, when its query fails, on an entry that had been when the call began.
-/
def KeepsUp (state : State) : Action → Prop
  | .publish id => ∀ call row version, state.calls id = some call →
      call.phase = .loaded row version → state.invalidated ≤ version
  | .readRow id false => ∀ call entry, state.calls id = some call →
      call.phase = .loading (some entry) → call.floor ≤ (state.heap entry).version
  | _ => True

/-- The row the call has settled on, or may settle on without reading it again, is recent enough. -/
def State.CallFresh (state : State) (call : Call) : Prop :=
  match call.phase with
  | .lookedUp entry => ∀ index, entry = some index →
      (state.heap index).loadedAt = none ∨ call.floor ≤ (state.heap index).version
  | .holding entry | .opening entry _ => call.floor ≤ (state.heap entry).version
  | .loading _ | .loaded _ _ => True

structure Fresh (state : State) : Prop where
  sound : Sound state
  current : ∀ index, state.current = some index →
    (state.heap index).loadedAt = none ∨ state.invalidated ≤ (state.heap index).version
  calls : ∀ id call, state.calls id = some call → state.CallFresh call
  answers : ∀ answer ∈ state.answers, ∀ version destination,
    answer.result = some (version, destination) → answer.floor ≤ version

theorem SameRow.fresh {entry changed : Entry} (sameRow : SameRow entry changed) {floor : ℕ}
    (fresh : entry.loadedAt = none ∨ floor ≤ entry.version) :
    changed.loadedAt = none ∨ floor ≤ changed.version := by
  rw [sameRow.version]
  rcases sameRow.loadedAt with never | same
  · exact .inl never
  · rwa [same]

variable {call : Call} {state next : State}

theorem State.CallFresh.mono (fresh : state.CallFresh call)
    (phaseSound : state.PhaseSound call) (extended : Extends state next) :
    next.CallFresh call := by
  obtain ⟨purpose, floor, phase⟩ := call
  cases phase with
  | lookedUp entry =>
    exact fun index isEntry =>
      (extended.entries index (phaseSound index isEntry)).fresh (fresh index isEntry)
  | holding entry => exact Nat.le_trans fresh (extended.entries entry phaseSound).version.ge
  | opening entry sealed => exact Nat.le_trans fresh (extended.entries entry phaseSound.1).version.ge
  | loading | loaded => trivial

section

variable (fresh : Fresh state)

include fresh

theorem Fresh.of_extends (sound : Sound next)
    (extended : Extends state next) (calls : next.calls = state.calls)
    (answers : next.answers = state.answers) (current : ∀ index, next.current = some index →
      (next.heap index).loadedAt = none ∨ next.invalidated ≤ (next.heap index).version) :
    Fresh next where
  sound := sound
  current := current
  calls := by
    rw [calls]
    exact fun id call running =>
      (fresh.calls id call running).mono (fresh.sound.calls id call running).2 extended
  answers := by
    rw [answers]
    exact fresh.answers

theorem Fresh.current_of_extends
    (extended : Extends state next) (sameCurrent : next.current = state.current)
    (invalidated : next.invalidated = state.invalidated) :
    ∀ index, next.current = some index →
      (next.heap index).loadedAt = none ∨ next.invalidated ≤ (next.heap index).version := by
  rw [sameCurrent, invalidated]
  exact fun index isCurrent =>
    (extended.entries index (fresh.sound.current index isCurrent)).fresh
      (fresh.current index isCurrent)

theorem Fresh.proceed {id : ℕ} {phase : Phase}
    (sound : Sound (state.proceed id call phase))
    (callFresh : state.CallFresh { call with phase := phase }) :
    Fresh (state.proceed id call phase) := by
  refine ⟨sound, fresh.current, ?_, fresh.answers⟩
  intro other running isRunning
  simp only [State.proceed, State.setCall, Function.update_apply] at isRunning
  split at isRunning
  · cases isRunning
    exact callFresh
  · exact fresh.calls other running isRunning

theorem Fresh.answer {id : ℕ} {result : Option (ℕ × Destination)}
    (sound : Sound (state.answer id call result))
    (recent : ∀ version destination, result = some (version, destination) →
      call.floor ≤ version) : Fresh (state.answer id call result) := by
  refine ⟨sound, fresh.current, ?_, ?_⟩
  · intro other running isRunning
    simp only [State.answer, State.setCall, Function.update_apply] at isRunning
    split at isRunning
    · cases isRunning
    · exact fresh.calls other running isRunning
  · simp only [State.answer, List.forall_mem_cons]
    exact ⟨recent, fresh.answers⟩

theorem Fresh.setEntry {index : ℕ} {changed : Entry}
    (sameRow : SameRow (state.heap index) changed) (matched : changed.Matched) :
    Fresh (state.setEntry index changed) :=
  have extended := extends_setEntry sameRow
  fresh.of_extends (fresh.sound.setEntry sameRow matched) extended rfl rfl
    (fresh.current_of_extends extended rfl rfl)

theorem Fresh.floor_le {id entry : ℕ} (running : state.calls id = some call)
    (phase : call.phase = .holding entry ∨ ∃ sealed, call.phase = .opening entry sealed) :
    call.floor ≤ (state.heap entry).version := by
  have callFresh := fresh.calls id call running
  rcases phase with phase | ⟨sealed, phase⟩
  all_goals
    rw [State.CallFresh, phase] at callFresh
    exact callFresh

theorem Fresh.invalidate : Fresh state.invalidate := by
  have sound := fresh.sound.invalidate
  have cleared : ∀ index, state.current = some index →
      (state.invalidate.heap index).loadedAt = none := by
    intro index isCurrent
    simp [State.invalidate, State.modifyCurrent, State.setEntry, isCurrent]
  have extended : Extends state state.invalidate := by
    simp only [State.invalidate, State.modifyCurrent]
    split
    · rename_i current isCurrent
      obtain ⟨_, _, _, entries⟩ : Extends state (state.setEntry current
          { state.heap current with loadedAt := none, dbErr := none, filesErr := none }) :=
        extends_setEntry ⟨rfl, rfl, .inl rfl⟩
      exact ⟨le_rfl, fun _ _ => rfl, le_rfl, entries⟩
    · exact ⟨le_rfl, fun _ _ => rfl, le_rfl, fun _ _ => .refl _⟩
  have same : state.invalidate.calls = state.calls ∧ state.invalidate.answers = state.answers ∧
      state.invalidate.current = state.current := by
    simp only [State.invalidate, State.modifyCurrent]
    split <;> exact ⟨rfl, rfl, rfl⟩
  refine fresh.of_extends sound extended same.1 same.2.1 ?_
  rw [same.2.2]
  exact fun index isCurrent => .inl (cleared index isCurrent)

end

theorem replaceEntry_version (state : State) (row : Option OrgDataResidency) (version : ℕ)
    (loadedAt : Option ℕ) :
    ((state.replaceEntry (Entry.ofRow row version loadedAt)).heap state.allocated).version =
      version := by
  rw [replaceEntry_heap_allocated]
  split
  · exact (sameRow_inherit (Entry.ofRow row version loadedAt) _).version
  · rfl

theorem Fresh.replaceEntry {row : Option OrgDataResidency} {version loadedAt : ℕ}
    (fresh : Fresh state)
    (sound : Sound (state.replaceEntry (Entry.ofRow row version (some loadedAt))))
    (recent : state.invalidated ≤ version) :
    Fresh (state.replaceEntry (Entry.ofRow row version (some loadedAt))) := by
  obtain ⟨_, _, invalidated, calls, answers, _, _, current⟩ :=
    replaceEntry_frame state (Entry.ofRow row version (some loadedAt))
  refine fresh.of_extends sound (extends_replaceEntry fresh.sound.current) calls answers ?_
  rw [current, invalidated]
  rintro _ ⟨⟩
  right
  rwa [replaceEntry_version]

theorem Fresh.transition {action : Action} (fresh : Fresh state)
    (keepsUp : KeepsUp state action) (transition : Transition state action next) :
    Fresh next := by
  have sound := fresh.sound.transition transition
  cases transition with
  | commit =>
    exact fresh.of_extends sound (extends_commit _ _) rfl rfl
      (fresh.current_of_extends (extends_commit _ _) rfl rfl)
  | invalidate => exact fresh.invalidate
  | touch touched =>
    simp only [State.modifyCurrent]
    split
    · exact fresh.setEntry (touched _).toSameRow ((touched _).matched (fresh.sound.matched _))
    · exact fresh
  | tick => exact ⟨sound, fresh.current, fresh.calls, fresh.answers⟩
  | @start id purpose =>
    have started : Fresh (state.proceed id ⟨purpose, state.invalidated, .lookedUp state.current⟩
        (.lookedUp state.current)) := fresh.proceed sound fresh.current
    exact started
  | @trust id call entry running phase trusted =>
    have callFresh := fresh.calls id call running
    rw [State.CallFresh, phase] at callFresh
    refine fresh.proceed sound ((callFresh entry rfl).resolve_left fun never => ?_)
    simp [State.trusts, never] at trusted
  | distrust | read => exact fresh.proceed sound trivial
  | @fallBack id call entry running phase =>
    exact fresh.proceed sound (keepsUp call entry running phase)
  | giveUp => exact fresh.answer sound (by rintro _ _ ⟨⟩)
  | @publish id call row version running phase =>
    have recent := keepsUp call row version running phase
    have replaced := fresh.replaceEntry
      (fresh.sound.replaceEntry_ofRow running phase state.now) recent
    have phaseSound := (fresh.sound.calls id call running).2
    rw [State.PhaseSound, phase] at phaseSound
    refine replaced.proceed sound ?_
    simp only [State.CallFresh, replaceEntry_version]
    exact phaseSound.1
  | returns running phase touched =>
    have floor := fresh.floor_le running phase
    refine (fresh.setEntry touched.toSameRow
      (touched.matched (fresh.sound.matched _))).answer sound ?_
    rintro _ _ ⟨⟩
    exact floor
  | @opens id call entry row _ running phase =>
    have floor := fresh.floor_le running (.inl phase)
    exact fresh.proceed sound floor
  | @connect id call entry sealed running phase =>
    have floor := fresh.floor_le running (.inr ⟨sealed, phase⟩)
    have extended := extends_connect state (state.target entry sealed) sealed
    have connected := fresh.of_extends
      (fresh.sound.connect (fresh.sound.target_row running phase)) extended rfl rfl
      (fresh.current_of_extends extended rfl rfl)
    refine connected.answer sound ?_
    rintro _ _ ⟨⟩
    exact floor
  | @discard id call entry sealed winner running phase =>
    have floor := fresh.floor_le running (.inr ⟨sealed, phase⟩)
    have extended := extends_discard state sealed
    have discarded := fresh.of_extends (fresh.sound.discard sealed) extended rfl rfl
      (fresh.current_of_extends extended rfl rfl)
    refine discarded.answer sound ?_
    rintro _ _ ⟨⟩
    exact floor

theorem Fresh.initial : Fresh State.initial :=
  ⟨Sound.initial, by simp [State.initial], by simp [State.initial], by simp [State.initial]⟩

/--
In a run whose calls keep up with the invalidations, every call follows a row that
is no older than the last one invalidated before the call began.
-/
theorem followsCurrentRow_of_keepsUp {trace : List Action} {state : State}
    (executed : exec step .initial trace = some state)
    (keepsUp : AllSteps step KeepsUp .initial trace) :
    ∀ answer ∈ state.answers, FollowsCurrentRow state answer := by
  have fresh : Fresh state :=
    invariant_of_allSteps
      (fun _ _ _ fresh keepsUp stepped =>
        fresh.transition keepsUp (transition_of_step fresh.sound stepped))
      Fresh.initial keepsUp executed
  intro answer answerMem version destination result
  exact ⟨fresh.answers answer answerMem version destination result,
    fresh.sound.answers answer answerMem version destination result⟩

def bucketRow (sealed : String) : OrgDataResidency where
  enabled := true
  dbProvider := ""
  dbConfigSealed := ""
  dbStatus := residencyStatusNotConfigured
  filesProvider := "s3"
  filesConfigSealed := sealed
  filesStatus := "connected"

def configuredUpload : List Action :=
  [.commit (some (bucketRow "first")), .invalidate, .start 0 .putFile, .checkAge 0,
    .readRow 0 true, .publish 0, .settle 0 true]

theorem configuredUpload_followsCurrentRow :
    ∃ state, exec step .initial configuredUpload = some state ∧
      ∀ answer ∈ state.answers, FollowsCurrentRow state answer := by
  obtain ⟨state, executed⟩ : ∃ state, exec step .initial configuredUpload = some state := ⟨_, rfl⟩
  refine ⟨state, executed, followsCurrentRow_of_keepsUp executed ?_⟩
  refine ⟨trivial, fun _ first => ⟨trivial, fun _ second => ⟨trivial, fun _ third =>
    ⟨trivial, fun _ fourth => ⟨trivial, fun _ fifth =>
      ⟨?_, fun _ _ => ⟨trivial, fun _ _ => trivial⟩⟩⟩⟩⟩⟩⟩
  cases first
  cases second
  cases third
  cases fourth
  cases fifth
  rintro _ _ _ ⟨⟩ ⟨⟩
  exact le_rfl

def latePublisher : List Action :=
  [.commit (some (bucketRow "first")), .start 0 .putFile, .checkAge 0, .readRow 0 true,
    .commit (some (bucketRow "second")), .invalidate, .publish 0, .start 1 .putFile, .checkAge 1,
    .settle 1 true]

/-- A row read before the settings were replaced is published after it. -/
theorem not_servesCurrentRows : ¬ServesCurrentRows := by
  intro serves
  have summary : (exec step .initial latePublisher).map State.answers =
      some [⟨.putFile, 2, some (1, .bucket ⟨"first"⟩)⟩] := rfl
  obtain ⟨state, executed, answers⟩ := Option.map_eq_some_iff.mp summary
  have follows := serves _ _ executed ⟨.putFile, 2, some (1, .bucket ⟨"first"⟩)⟩
    (by simp [answers]) 1 _ rfl
  exact absurd follows.1 (by decide)

end Aavishield.Dataplane.Manager
