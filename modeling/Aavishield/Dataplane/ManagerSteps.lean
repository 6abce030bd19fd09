import Aavishield.Dataplane.Manager
import Mathlib.Order.Nat

/-!
# What a step of the manager can do

The manager's steps, sorted by their effect on the map, the entries and the calls,
and what holds of them in every interleaving.
-/

namespace Aavishield.Dataplane.Manager

open TransitionSystem

inductive Follows : Purpose → Option OrgDataResidency → Destination → Prop where
  | unconfigured {purpose} : Follows purpose none .primary
  | dbInactive {row : OrgDataResidency} (inactive : row.dbActive = false) :
      Follows .resolve (some row) .primary
  | dbUnavailable {row : OrgDataResidency} (active : row.dbActive) :
      Follows .resolve (some row) .unavailable
  | store {row : OrgDataResidency} {store : TenantStore} (active : row.dbActive)
      (openedFrom : store.openedFrom = row.dbConfigSealed) :
      Follows .resolve (some row) (.store store)
  | filesInactive {row : OrgDataResidency} (inactive : row.filesActive = false) :
      Follows .putFile (some row) .primary
  | filesUnavailable {row : OrgDataResidency} (active : row.filesActive) :
      Follows .putFile (some row) .unavailable
  | bucket {row : OrgDataResidency} {bucket : Bucket} (active : row.filesActive)
      (openedFrom : bucket.openedFrom = row.filesConfigSealed) :
      Follows .putFile (some row) (.bucket bucket)

/-- The entry holds no connection but those opened from its own row's settings. -/
structure Entry.Matched (entry : Entry) : Prop where
  store : ∀ store, entry.store = some store → store.openedFrom = entry.dbSealed ∧
    ∃ row, entry.row = some row ∧ row.dbConfigSealed = store.openedFrom
  files : ∀ bucket, entry.files = some bucket → bucket.openedFrom = entry.filesSealed

def State.PhaseSound (state : State) (call : Call) : Prop :=
  match call.phase with
  | .lookedUp entry | .loading entry => ∀ index, entry = some index → index < state.allocated
  | .loaded row version =>
    call.floor ≤ version ∧ version ≤ state.version ∧ row = state.committed version
  | .holding entry => entry < state.allocated
  | .opening entry sealed => entry < state.allocated ∧ call.purpose = .resolve ∧
      ∃ row, (state.heap entry).row = some row ∧ row.dbActive ∧ row.dbConfigSealed = sealed

def State.AnswerSound (state : State) (answer : Answer) : Prop :=
  ∀ version destination, answer.result = some (version, destination) →
    version ≤ state.version ∧ Follows answer.purpose (state.committed version) destination

structure Sound (state : State) : Prop where
  invalidated : state.invalidated ≤ state.version
  current : ∀ index, state.current = some index → index < state.allocated
  matched : ∀ index, (state.heap index).Matched
  rows : ∀ index, (state.heap index).version ≤ state.version ∧
    (state.heap index).row = state.committed (state.heap index).version
  calls : ∀ id call, state.calls id = some call →
    call.floor ≤ state.invalidated ∧ state.PhaseSound call
  answers : ∀ answer ∈ state.answers, state.AnswerSound answer

/-- The row of an entry never changes, and only a new entry is ever younger. -/
structure SameRow (entry changed : Entry) : Prop where
  row : changed.row = entry.row
  version : changed.version = entry.version
  loadedAt : changed.loadedAt = none ∨ changed.loadedAt = entry.loadedAt

structure Touched (entry changed : Entry) : Prop extends SameRow entry changed where
  dbSealed : changed.dbSealed = entry.dbSealed
  store : changed.store = entry.store
  matched : entry.Matched → changed.Matched

theorem SameRow.refl (entry : Entry) : SameRow entry entry :=
  ⟨rfl, rfl, .inr rfl⟩

theorem Touched.refl (entry : Entry) : Touched entry entry :=
  ⟨⟨rfl, rfl, .inr rfl⟩, rfl, rfl, id⟩

def State.connect (state : State) (target : ℕ) (sealed : String) : State :=
  State.setEntry { state with opened := ⟨state.opened.length, sealed⟩ :: state.opened } target
    { state.heap target with
      store := some ⟨state.opened.length, sealed⟩
      dbSealed := sealed
      dbErr := none }

def State.discard (state : State) (sealed : String) : State :=
  { state with
    opened := ⟨state.opened.length, sealed⟩ :: state.opened
    scheduled := ⟨state.opened.length, sealed⟩ :: state.scheduled }

inductive Transition (state : State) : Action → State → Prop where
  | commit {row} : Transition state (.commit row) (state.commit row)
  | invalidate : Transition state .invalidate state.invalidate
  | touch {action change} (touched : ∀ entry, Touched entry (change entry)) :
      Transition state action (state.modifyCurrent change)
  | tick {elapsed} :
      Transition state (.tick elapsed) { state with now := state.now + elapsed }
  | start {id purpose} : Transition state (.start id purpose) (state.start id purpose)
  | trust {id call entry} (running : state.calls id = some call)
      (phase : call.phase = .lookedUp (some entry)) (trusted : state.trusts (state.heap entry)) :
      Transition state (.checkAge id) (state.proceed id call (.holding entry))
  | distrust {id call entry} (running : state.calls id = some call)
      (phase : call.phase = .lookedUp entry) :
      Transition state (.checkAge id) (state.proceed id call (.loading entry))
  | read {id call entry} (running : state.calls id = some call)
      (phase : call.phase = .loading entry) :
      Transition state (.readRow id true)
        (state.proceed id call (.loaded (state.committed state.version) state.version))
  | fallBack {id call entry} (running : state.calls id = some call)
      (phase : call.phase = .loading (some entry)) :
      Transition state (.readRow id false) (state.proceed id call (.holding entry))
  | giveUp {id call} (running : state.calls id = some call) :
      Transition state (.readRow id false) (state.answer id call none)
  | publish {id call row version} (running : state.calls id = some call)
      (phase : call.phase = .loaded row version) :
      Transition state (.publish id) (state.publish id call row version)
  | returns {action id call entry changed destination} (running : state.calls id = some call)
      (phase : call.phase = .holding entry ∨ ∃ sealed, call.phase = .opening entry sealed)
      (touched : Touched (state.heap entry) changed)
      (follows : Follows call.purpose (state.heap entry).row destination) :
      Transition state action ((state.setEntry entry changed).answer id call
        (some ((state.heap entry).version, destination)))
  | opens {id call entry row opens} (running : state.calls id = some call)
      (phase : call.phase = .holding entry) (purpose : call.purpose = .resolve)
      (hasRow : (state.heap entry).row = some row) (active : row.dbActive) :
      Transition state (.settle id opens)
        (state.proceed id call (.opening entry row.dbConfigSealed))
  | connect {id call entry sealed} (running : state.calls id = some call)
      (phase : call.phase = .opening entry sealed)
      (vacant : (state.heap (state.target entry sealed)).store = none)
      (follows : Follows call.purpose (state.heap entry).row
        (.store ⟨state.opened.length, sealed⟩)) :
      Transition state (.install id true)
        ((state.connect (state.target entry sealed) sealed).answer id call
          (some ((state.heap entry).version, .store ⟨state.opened.length, sealed⟩)))
  | discard {id call entry sealed winner} (running : state.calls id = some call)
      (phase : call.phase = .opening entry sealed)
      (taken : (state.heap (state.target entry sealed)).store = some winner)
      (follows : Follows call.purpose (state.heap entry).row (.store winner)) :
      Transition state (.install id true)
        ((state.discard sealed).answer id call
          (some ((state.heap entry).version, .store winner)))

@[simp]
theorem setEntry_self (state : State) (index : ℕ) :
    state.setEntry index (state.heap index) = state := by
  simp [State.setEntry]

variable {state : State} {id entry : ℕ} {call : Call} {sealed : String}

theorem Sound.target_row (sound : Sound state) (running : state.calls id = some call)
    (phase : call.phase = .opening entry sealed) :
    ∃ row, (state.heap (state.target entry sealed)).row = some row ∧
      row.dbConfigSealed = sealed := by
  have phaseSound := (sound.calls id call running).2
  simp only [State.PhaseSound, phase] at phaseSound
  obtain ⟨_, _, row, hasRow, _, isSealed⟩ := phaseSound
  simp only [State.target]
  split
  · split
    · rename_i current currentRow currentHasRow
      split
      · exact ⟨currentRow, currentHasRow, by assumption⟩
      · exact ⟨row, hasRow, isSealed⟩
    · exact ⟨row, hasRow, isSealed⟩
  · exact ⟨row, hasRow, isSealed⟩

variable {action : Action}

theorem transition_returns {destination : Destination} (running : state.calls id = some call)
    (phase : call.phase = .holding entry)
    (follows : Follows call.purpose (state.heap entry).row destination) :
    Transition state action
      (state.answer id call (some ((state.heap entry).version, destination))) := by
  have returned : Transition state action ((state.setEntry entry (state.heap entry)).answer id call
      (some ((state.heap entry).version, destination))) :=
    .returns running (.inl phase) (.refl _) follows
  rwa [setEntry_self] at returned

variable {opens : Bool}

theorem transition_resolve (sound : Sound state)
    (running : state.calls id = some call) (phase : call.phase = .holding entry)
    (purpose : call.purpose = .resolve) :
    Transition state (.settle id opens) (state.resolve id call entry) := by
  have returns {destination} (follows : Follows .resolve (state.heap entry).row destination) :
      Transition state (.settle id opens)
        (state.answer id call (some ((state.heap entry).version, destination))) :=
    transition_returns running phase (purpose ▸ follows)
  simp only [State.resolve]
  split
  · rename_i noRow
    exact returns (noRow ▸ .unconfigured)
  · rename_i row hasRow
    split
    · rename_i active
      split
      · exact returns (hasRow ▸ .dbUnavailable active)
      · split
        · rename_i store hasStore
          split
          · rename_i sameSealed
            have openedFrom := ((sound.matched entry).store store hasStore).1
            exact returns (hasRow ▸ .store active (openedFrom.trans sameSealed))
          · exact .opens running phase purpose hasRow active
        · exact .opens running phase purpose hasRow active
    · rename_i inactive
      exact returns (hasRow ▸ .dbInactive (Bool.eq_false_iff.mpr inactive))

theorem transition_putFile (sound : Sound state)
    (running : state.calls id = some call) (phase : call.phase = .holding entry)
    (purpose : call.purpose = .putFile) :
    Transition state (.settle id opens) (state.putFile id call entry opens) := by
  have returns {destination} (follows : Follows .putFile (state.heap entry).row destination) :
      Transition state (.settle id opens)
        (state.answer id call (some ((state.heap entry).version, destination))) :=
    transition_returns running phase (purpose ▸ follows)
  have openFiles {row : OrgDataResidency} (hasRow : (state.heap entry).row = some row)
      (active : row.filesActive) :
      Transition state (.settle id opens) (state.openFiles id call entry row opens) := by
    simp only [State.openFiles]
    split
    · refine .returns running (.inl phase) ⟨⟨rfl, rfl, .inr rfl⟩, rfl, rfl, ?_⟩ ?_
      · exact fun matched => ⟨matched.store, by rintro _ ⟨⟩; rfl⟩
      · rw [purpose, hasRow]
        exact .bucket active rfl
    · refine .returns running (.inl phase) ⟨⟨rfl, rfl, .inr rfl⟩, rfl, rfl, ?_⟩ ?_
      · exact fun matched => ⟨matched.store, matched.files⟩
      · rw [purpose, hasRow]
        exact .filesUnavailable active
  simp only [State.putFile]
  split
  · rename_i noRow
    exact returns (noRow ▸ .unconfigured)
  · rename_i row hasRow
    split
    · rename_i active
      split
      · rename_i bucket hasFiles
        split
        · rename_i sameSealed
          have openedFrom := (sound.matched entry).files bucket hasFiles
          exact returns (hasRow ▸ .bucket active (openedFrom.trans sameSealed))
        · split
          · exact returns (hasRow ▸ .filesUnavailable active)
          · exact openFiles hasRow active
      · split
        · exact returns (hasRow ▸ .filesUnavailable active)
        · exact openFiles hasRow active
    · rename_i inactive
      exact returns (hasRow ▸ .filesInactive (Bool.eq_false_iff.mpr inactive))

theorem transition_install (sound : Sound state) (running : state.calls id = some call)
    (phase : call.phase = .opening entry sealed) :
    Transition state (.install id opens) (state.install id call entry sealed opens) := by
  have phaseSound := (sound.calls id call running).2
  simp only [State.PhaseSound, phase] at phaseSound
  obtain ⟨_, purpose, row, hasRow, active, isSealed⟩ := phaseSound
  cases opens with
  | true =>
    simp only [State.install, if_true]
    split
    · rename_i winner taken
      refine .discard running phase taken ?_
      obtain ⟨targetRow, targetHasRow, targetSealed⟩ := sound.target_row running phase
      obtain ⟨_, winnerRow, winnerHasRow, openedFrom⟩ :=
        (sound.matched (state.target entry sealed)).store winner taken
      cases winnerHasRow.symm.trans targetHasRow
      rw [purpose, hasRow]
      exact .store active (openedFrom.symm.trans (targetSealed.trans isSealed.symm))
    · rename_i vacant
      refine .connect running phase vacant ?_
      rw [purpose, hasRow]
      exact .store active isSealed.symm
  | false =>
    refine .returns running (.inr ⟨sealed, phase⟩) ⟨⟨rfl, rfl, .inr rfl⟩, rfl, rfl, ?_⟩ ?_
    · exact fun matched => ⟨matched.store, matched.files⟩
    · rw [purpose, hasRow]
      exact .dbUnavailable active

variable {next : State}

theorem transition_of_step (sound : Sound state)
    (stepped : step state action = some next) : Transition state action next := by
  cases action with
  | commit row =>
    cases stepped
    exact .commit
  | invalidate =>
    cases stepped
    exact .invalidate
  | start id purpose =>
    simp only [step] at stepped
    split at stepped
    · cases stepped
      exact .start
    · cases stepped
  | checkAge id =>
    simp only [step] at stepped
    split at stepped
    · rename_i call running
      split at stepped
      · rename_i entry phase
        cases stepped
        cases entry with
        | none => exact .distrust running phase
        | some entry =>
          simp only [State.checkAge]
          split
          · exact .trust running phase (by assumption)
          · exact .distrust running phase
      · cases stepped
    · cases stepped
  | readRow id succeeds =>
    simp only [step] at stepped
    split at stepped
    · rename_i call running
      split at stepped
      · rename_i entry phase
        cases stepped
        cases succeeds with
        | true => exact .read running phase
        | false =>
          cases entry with
          | none => exact .giveUp running
          | some entry => exact .fallBack running phase
      · cases stepped
    · cases stepped
  | publish id =>
    simp only [step] at stepped
    split at stepped
    · rename_i call running
      split at stepped
      · cases stepped
        exact .publish running (by assumption)
      · cases stepped
    · cases stepped
  | settle id opens =>
    simp only [step] at stepped
    split at stepped
    · rename_i call running
      split at stepped
      · cases stepped
        exact transition_resolve sound running (by assumption) (by assumption)
      · cases stepped
        exact transition_putFile sound running (by assumption) (by assumption)
      · cases stepped
    · cases stepped
  | install id opens =>
    simp only [step] at stepped
    split at stepped
    · rename_i call running
      split at stepped
      · cases stepped
        exact transition_install sound running (by assumption)
      · cases stepped
    · cases stepped
  | guardCheck store =>
    cases stepped
    refine .touch fun entry => ?_
    split
    · exact ⟨⟨rfl, rfl, .inr rfl⟩, rfl, rfl, fun matched => ⟨matched.store, matched.files⟩⟩
    · exact .refl entry
  | forgetErrors purpose =>
    cases stepped
    cases purpose with
    | resolve | putFile =>
      simp only [State.forgetErrors]
      exact .touch fun entry =>
        ⟨⟨rfl, rfl, .inr rfl⟩, rfl, rfl, fun matched => ⟨matched.store, matched.files⟩⟩
  | tick elapsed =>
    cases stepped
    exact .tick

structure Extends (state next : State) : Prop where
  version : state.version ≤ next.version
  committed : ∀ version ≤ state.version, next.committed version = state.committed version
  allocated : state.allocated ≤ next.allocated
  entries : ∀ index < state.allocated, SameRow (state.heap index) (next.heap index)

theorem State.PhaseSound.mono (sound : state.PhaseSound call)
    (extended : Extends state next) : next.PhaseSound call := by
  obtain ⟨purpose, floor, phase⟩ := call
  cases phase with
  | lookedUp entry | loading entry =>
    exact fun index isEntry => (sound index isEntry).trans_le extended.allocated
  | loaded row version =>
    obtain ⟨floor, atMost, row⟩ := sound
    exact ⟨floor, atMost.trans extended.version, row.trans (extended.committed _ atMost).symm⟩
  | holding entry => exact Nat.lt_of_lt_of_le sound extended.allocated
  | opening entry sealed =>
    obtain ⟨allocated, purpose, row, hasRow, active⟩ := sound
    exact ⟨allocated.trans_le extended.allocated, purpose, row,
      (extended.entries _ allocated).row.trans hasRow, active⟩

theorem State.AnswerSound.mono {answer : Answer}
    (sound : state.AnswerSound answer) (extended : Extends state next) :
    next.AnswerSound answer := by
  intro version destination result
  obtain ⟨atMost, follows⟩ := sound version destination result
  rw [extended.committed version atMost]
  exact ⟨atMost.trans extended.version, follows⟩

theorem Sound.of_extends (sound : Sound state)
    (extended : Extends state next) (invalidated : state.invalidated ≤ next.invalidated)
    (calls : next.calls = state.calls) (answers : next.answers = state.answers)
    (invalidatedLe : next.invalidated ≤ next.version)
    (current : ∀ index, next.current = some index → index < next.allocated)
    (matched : ∀ index, (next.heap index).Matched)
    (rows : ∀ index, (next.heap index).version ≤ next.version ∧
      (next.heap index).row = next.committed (next.heap index).version) : Sound next where
  invalidated := invalidatedLe
  current := current
  matched := matched
  rows := rows
  calls := by
    rw [calls]
    intro id call running
    obtain ⟨floor, phase⟩ := sound.calls id call running
    exact ⟨floor.trans invalidated, phase.mono extended⟩
  answers := by
    rw [answers]
    exact fun answer answerMem => (sound.answers answer answerMem).mono extended

variable {index : ℕ}

theorem extends_setEntry {changed : Entry} (sameRow : SameRow (state.heap index) changed) :
    Extends state (state.setEntry index changed) where
  version := le_rfl
  committed _ _ := rfl
  allocated := le_rfl
  entries other _ := by
    simp only [State.setEntry, Function.update_apply]
    split
    · rename_i same
      exact same ▸ sameRow
    · exact .refl _

theorem Sound.setEntry {changed : Entry} (sound : Sound state)
    (sameRow : SameRow (state.heap index) changed) (matched : changed.Matched) :
    Sound (state.setEntry index changed) := by
  refine sound.of_extends (extends_setEntry sameRow) le_rfl rfl rfl sound.invalidated
    sound.current ?_ ?_
  all_goals
    intro other
    simp only [State.setEntry, Function.update_apply]
    split
  · exact matched
  · exact sound.matched other
  · rw [sameRow.row, sameRow.version]
    exact sound.rows index
  · exact sound.rows other

theorem Sound.modifyCurrent {change : Entry → Entry} (sound : Sound state)
    (sameRow : ∀ entry, SameRow entry (change entry))
    (matched : ∀ entry, entry.Matched → (change entry).Matched) :
    Sound (state.modifyCurrent change) := by
  simp only [State.modifyCurrent]
  split
  · exact sound.setEntry (sameRow _) (matched _ (sound.matched _))
  · exact sound

theorem extends_commit (state : State) (row : Option OrgDataResidency) :
    Extends state (state.commit row) where
  version := Nat.le_succ _
  committed version atMost := Function.update_of_ne (by omega) _ _
  allocated := le_rfl
  entries _ _ := .refl _

theorem Sound.commit (sound : Sound state) (row : Option OrgDataResidency) :
    Sound (state.commit row) := by
  refine sound.of_extends (extends_commit state row) le_rfl rfl rfl
    (sound.invalidated.trans (Nat.le_succ _)) sound.current sound.matched fun index => ?_
  obtain ⟨atMost, isRow⟩ := sound.rows index
  refine ⟨atMost.trans (Nat.le_succ _), ?_⟩
  simp only [State.commit] at atMost ⊢
  rwa [Function.update_of_ne (by omega)]

theorem Sound.invalidate (sound : Sound state) : Sound state.invalidate := by
  have changed : Sound (state.modifyCurrent fun entry =>
      { entry with loadedAt := none, dbErr := none, filesErr := none }) :=
    sound.modifyCurrent (fun _ => ⟨rfl, rfl, .inl rfl⟩)
      fun _ matched => ⟨matched.store, matched.files⟩
  have same : (state.modifyCurrent fun entry =>
      { entry with loadedAt := none, dbErr := none, filesErr := none }).version =
        state.version ∧
      (state.modifyCurrent fun entry =>
        { entry with loadedAt := none, dbErr := none, filesErr := none }).invalidated =
        state.invalidated := by
    simp only [State.modifyCurrent]
    split <;> exact ⟨rfl, rfl⟩
  refine changed.of_extends ⟨le_rfl, fun _ _ => rfl, le_rfl, fun _ _ => .refl _⟩ ?_ rfl rfl ?_
    changed.current changed.matched changed.rows
  · rw [same.2]
    exact sound.invalidated
  · exact same.1.ge

theorem sameRow_release (cur : Entry) (row : Option OrgDataResidency) :
    SameRow cur (cur.release row) := by
  simp only [Entry.release]
  split <;> exact ⟨rfl, rfl, .inr rfl⟩

theorem Entry.Matched.release {cur : Entry} (matched : cur.Matched)
    (row : Option OrgDataResidency) : (cur.release row).Matched := by
  simp only [Entry.release]
  split
  · exact ⟨by simp, matched.files⟩
  · exact matched

theorem sameRow_inherit (next cur : Entry) : SameRow next (next.inherit cur) := by
  have store : SameRow next (next.inheritStore cur) := by
    simp only [Entry.inheritStore]
    split <;> exact ⟨rfl, rfl, .inr rfl⟩
  simp only [Entry.inherit, Entry.inheritFiles]
  split
  · exact ⟨store.row, store.version, store.loadedAt⟩
  · exact store

/-- A connection is kept only when it was opened from the new row's settings. -/
theorem Entry.Matched.inherit {next cur : Entry} (nextMatched : next.Matched)
    (matched : cur.Matched) : (next.inherit cur).Matched := by
  have store : (next.inheritStore cur).Matched := by
    simp only [Entry.inheritStore]
    split
    · rename_i keeps
      refine ⟨fun store hasStore => ?_, nextMatched.files⟩
      have openedFrom := (matched.store store hasStore).1
      simp only [Entry.keepsStore] at keeps
      split at keeps
      · rename_i row hasRow
        simp only [Bool.and_eq_true, beq_iff_eq] at keeps
        exact ⟨openedFrom, row, hasRow, (openedFrom.trans keeps.2).symm⟩
      · cases keeps
    · exact nextMatched
  simp only [Entry.inherit, Entry.inheritFiles]
  split
  · exact ⟨store.store, matched.files⟩
  · exact store

theorem replaceEntry_heap (next : Entry)
    (current : ∀ index, state.current = some index → index < state.allocated)
    (other : index ≠ state.allocated) :
    (state.replaceEntry next).heap index = state.heap index ∨
      state.current = some index ∧
        (state.replaceEntry next).heap index = (state.heap index).release next.row := by
  simp only [State.replaceEntry]
  split
  · rename_i cur isCurrent
    have isOther := (current cur isCurrent).ne
    by_cases same : index = cur
    · subst same
      exact .inr ⟨isCurrent, by simp [Function.update_of_ne isOther]⟩
    · exact .inl (by simp [Function.update_of_ne other, Function.update_of_ne same])
  · exact .inl (by simp [Function.update_of_ne other])

theorem replaceEntry_heap_allocated (state : State) (next : Entry) :
    (state.replaceEntry next).heap state.allocated =
      match state.current with
      | some cur => next.inherit (state.heap cur)
      | none => next := by
  cases isCurrent : state.current <;> simp [State.replaceEntry, isCurrent]

theorem replaceEntry_frame (state : State) (next : Entry) :
    (state.replaceEntry next).version = state.version ∧
    (state.replaceEntry next).committed = state.committed ∧
    (state.replaceEntry next).invalidated = state.invalidated ∧
    (state.replaceEntry next).calls = state.calls ∧
    (state.replaceEntry next).answers = state.answers ∧
    (state.replaceEntry next).opened = state.opened ∧
    (state.replaceEntry next).allocated = state.allocated + 1 ∧
    (state.replaceEntry next).current = some state.allocated := by
  simp only [State.replaceEntry]
  split <;> exact ⟨rfl, rfl, rfl, rfl, rfl, rfl, rfl, rfl⟩

theorem extends_replaceEntry {next : Entry}
    (current : ∀ index, state.current = some index → index < state.allocated) :
    Extends state (state.replaceEntry next) := by
  obtain ⟨version, committed, _, _, _, _, allocated, _⟩ := replaceEntry_frame state next
  refine ⟨version.ge, fun _ _ => by rw [committed], by omega, fun index isAllocated => ?_⟩
  rcases replaceEntry_heap next current isAllocated.ne with same | ⟨_, released⟩
  · exact same ▸ .refl _
  · exact released ▸ sameRow_release _ _

theorem Sound.replaceEntry {next : Entry} (sound : Sound state)
    (matched : next.Matched) (version : next.version ≤ state.version)
    (row : next.row = state.committed next.version) : Sound (state.replaceEntry next) := by
  obtain ⟨sameVersion, committed, invalidated, calls, answers, _, allocated, current⟩ :=
    replaceEntry_frame state next
  have newRow : SameRow next ((state.replaceEntry next).heap state.allocated) := by
    rw [replaceEntry_heap_allocated]
    split
    · exact sameRow_inherit _ _
    · exact .refl _
  refine sound.of_extends (extends_replaceEntry sound.current) invalidated.ge calls answers ?_ ?_
    ?_ ?_
  · rw [invalidated, sameVersion]
    exact sound.invalidated
  · rw [current, allocated]
    rintro _ ⟨⟩
    omega
  · intro index
    by_cases isNew : index = state.allocated
    · rw [isNew, replaceEntry_heap_allocated]
      split
      · exact matched.inherit (sound.matched _)
      · exact matched
    · rcases replaceEntry_heap next sound.current isNew with same | ⟨_, released⟩
      · exact same ▸ sound.matched index
      · exact released ▸ (sound.matched index).release _
  · intro index
    rw [sameVersion, committed]
    by_cases isNew : index = state.allocated
    · rw [isNew, newRow.row, newRow.version]
      exact ⟨version, row⟩
    · rcases replaceEntry_heap next sound.current isNew with same | ⟨_, released⟩
      · exact same ▸ sound.rows index
      · have sameRow := released ▸ sameRow_release (state.heap index) next.row
        rw [sameRow.row, sameRow.version]
        exact sound.rows index

theorem matched_ofRow (row : Option OrgDataResidency) (version : ℕ) (loadedAt : Option ℕ) :
    (Entry.ofRow row version loadedAt).Matched :=
  ⟨by simp [Entry.ofRow], by simp [Entry.ofRow]⟩

theorem Sound.connect (sound : Sound state) {target : ℕ}
    (row : ∃ row, (state.heap target).row = some row ∧ row.dbConfigSealed = sealed) :
    Sound (state.connect target sealed) := by
  have connected : Sound { state with opened := ⟨state.opened.length, sealed⟩ :: state.opened } :=
    sound.of_extends ⟨le_rfl, fun _ _ => rfl, le_rfl, fun _ _ => .refl _⟩ le_rfl rfl rfl
      sound.invalidated sound.current sound.matched sound.rows
  refine connected.setEntry ⟨rfl, rfl, .inr rfl⟩ ⟨?_, (sound.matched target).files⟩
  rintro _ ⟨⟩
  exact ⟨rfl, row⟩

theorem Sound.proceed (sound : Sound state) {id : ℕ} {phase : Phase}
    (floor : call.floor ≤ state.invalidated)
    (phaseSound : state.PhaseSound { call with phase := phase }) :
    Sound (state.proceed id call phase) := by
  refine ⟨sound.invalidated, sound.current, sound.matched, sound.rows, ?_, sound.answers⟩
  intro other running isRunning
  simp only [State.proceed, State.setCall, Function.update_apply] at isRunning
  split at isRunning
  · cases isRunning
    exact ⟨floor, phaseSound⟩
  · exact sound.calls other running isRunning

theorem Sound.answer (sound : Sound state) {id : ℕ} {result : Option (ℕ × Destination)}
    (answerSound : state.AnswerSound ⟨call.purpose, call.floor, result⟩) :
    Sound (state.answer id call result) := by
  refine ⟨sound.invalidated, sound.current, sound.matched, sound.rows, ?_, ?_⟩
  · intro other running isRunning
    simp only [State.answer, State.setCall, Function.update_apply] at isRunning
    split at isRunning
    · cases isRunning
    · exact sound.calls other running isRunning
  · simp only [State.answer, List.forall_mem_cons]
    exact ⟨answerSound, sound.answers⟩

theorem Sound.answer_of_follows {state base : State} (sound : Sound state) (baseSound : Sound base)
    (extended : Extends state base) {destination : Destination}
    (follows : Follows call.purpose (state.heap entry).row destination) :
    Sound (base.answer id call (some ((state.heap entry).version, destination))) := by
  refine baseSound.answer ?_
  rintro _ _ ⟨⟩
  obtain ⟨atMost, isRow⟩ := sound.rows entry
  rw [extended.committed _ atMost, ← isRow]
  exact ⟨atMost.trans extended.version, follows⟩

theorem extends_connect (state : State) (target : ℕ) (sealed : String) :
    Extends state (state.connect target sealed) := by
  obtain ⟨_, _, _, entries⟩ : Extends state (state.setEntry target
      { state.heap target with
        store := some ⟨state.opened.length, sealed⟩
        dbSealed := sealed
        dbErr := none }) := extends_setEntry ⟨rfl, rfl, .inr rfl⟩
  exact ⟨le_rfl, fun _ _ => rfl, le_rfl, entries⟩

theorem extends_discard (state : State) (sealed : String) : Extends state (state.discard sealed) :=
  ⟨le_rfl, fun _ _ => rfl, le_rfl, fun _ _ => .refl _⟩

theorem Sound.discard (sound : Sound state) (sealed : String) :
    Sound (state.discard sealed) :=
  sound.of_extends (extends_discard state sealed) le_rfl rfl rfl sound.invalidated sound.current
    sound.matched sound.rows

theorem Sound.replaceEntry_ofRow (sound : Sound state) {id version : ℕ}
    {row : Option OrgDataResidency} (running : state.calls id = some call)
    (phase : call.phase = .loaded row version) (loadedAt : ℕ) :
    Sound (state.replaceEntry (Entry.ofRow row version (some loadedAt))) := by
  have phaseSound := (sound.calls id call running).2
  rw [State.PhaseSound, phase] at phaseSound
  exact sound.replaceEntry (matched_ofRow row version _) phaseSound.2.1 phaseSound.2.2

theorem Sound.transition (sound : Sound state)
    (transition : Transition state action next) : Sound next := by
  cases transition with
  | commit => exact sound.commit _
  | invalidate => exact sound.invalidate
  | touch touched =>
    exact sound.modifyCurrent (fun entry => (touched entry).toSameRow)
      fun entry => (touched entry).matched
  | tick =>
    exact sound.of_extends ⟨le_rfl, fun _ _ => rfl, le_rfl, fun _ _ => .refl _⟩ le_rfl rfl rfl
      sound.invalidated sound.current sound.matched sound.rows
  | @start id purpose =>
    have started : Sound (state.proceed id ⟨purpose, state.invalidated, .lookedUp state.current⟩
        (.lookedUp state.current)) := sound.proceed le_rfl sound.current
    exact started
  | trust running phase | fallBack running phase =>
    obtain ⟨floor, phaseSound⟩ := sound.calls _ _ running
    rw [State.PhaseSound, phase] at phaseSound
    exact sound.proceed floor (phaseSound _ rfl)
  | distrust running phase =>
    obtain ⟨floor, phaseSound⟩ := sound.calls _ _ running
    rw [State.PhaseSound, phase] at phaseSound
    exact sound.proceed floor phaseSound
  | read running =>
    have floor := (sound.calls _ _ running).1
    exact sound.proceed floor ⟨floor.trans sound.invalidated, le_rfl, rfl⟩
  | giveUp => exact sound.answer (by rintro _ _ ⟨⟩)
  | @publish id call row version running phase =>
    obtain ⟨_, _, invalidated, _, _, _, allocated, _⟩ :=
      replaceEntry_frame state (Entry.ofRow row version (some state.now))
    have floor := (sound.calls id call running).1
    refine (sound.replaceEntry_ofRow running phase state.now).proceed
      (floor.trans invalidated.ge) ?_
    simp only [State.PhaseSound, allocated]
    omega
  | returns running phase touched follows =>
    exact sound.answer_of_follows
      (sound.setEntry touched.toSameRow (touched.matched (sound.matched _)))
      (extends_setEntry touched.toSameRow) follows
  | opens running phase purpose hasRow active =>
    obtain ⟨floor, phaseSound⟩ := sound.calls _ _ running
    rw [State.PhaseSound, phase] at phaseSound
    exact sound.proceed floor ⟨phaseSound, purpose, _, hasRow, active, rfl⟩
  | connect running phase vacant follows =>
    exact sound.answer_of_follows (sound.connect (sound.target_row running phase))
      (extends_connect _ _ _) follows
  | discard running phase taken follows =>
    exact sound.answer_of_follows (sound.discard _) (extends_discard _ _) follows

theorem Sound.initial : Sound State.initial where
  invalidated := le_rfl
  current := by simp [State.initial]
  matched _ := matched_ofRow none 0 none
  rows _ := ⟨le_rfl, rfl⟩
  calls := by simp [State.initial]
  answers := by simp [State.initial]

end Aavishield.Dataplane.Manager
