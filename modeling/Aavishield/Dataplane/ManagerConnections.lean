import Aavishield.Dataplane.ManagerSteps
import Aavishield.Lib.Ledger

/-!
# Who owns an open connection
-/

namespace Aavishield.Dataplane.Manager

open TransitionSystem

def State.held (state : State) : Option TenantStore :=
  state.current.bind fun current => (state.heap current).store

/--
Every store is on an entry with the settings it was opened from; every store that
was opened is on the entry in the map or was scheduled once for closing, never both.
-/
structure Owned (state : State) : Prop where
  matched : ∀ index store, (state.heap index).store = some store →
    store.openedFrom = (state.heap index).dbSealed ∧
      ∃ row, (state.heap index).row = some row ∧ row.dbConfigSealed = store.openedFrom
  kept : ∀ store ∈ state.opened, state.held = some store ∨ state.scheduled.count store = 1
  unscheduled : ∀ store, state.held = some store → store ∉ state.scheduled

def OwnsConnections : Prop :=
  ∀ trace state, exec step .initial trace = some state → Owned state

/--
A connection that `resolve` has opened goes to the entry that is in the map, or to
one that already has a store, in which case it is closed.
-/
def Adopts (state : State) : Action → Prop
  | .install id true => ∀ call entry sealed, state.calls id = some call →
      call.phase = .opening entry sealed →
        state.current = some (state.target entry sealed) ∨
          (state.heap (state.target entry sealed)).store ≠ none
  | _ => True

/-- The manager's invariant, with the ledger of its stores. -/
structure Kept (state : State) : Prop where
  sound : Sound state
  numbered : ∀ store ∈ state.opened, store.id < state.opened.length
  ledger : Ledger state.held state.opened state.scheduled

variable {state : State}

theorem Kept.owned (kept : Kept state) : Owned state where
  matched index store := (kept.sound.matched index).store store
  kept := kept.ledger.accounted
  unscheduled := kept.ledger.unretired

theorem Kept.fresh (kept : Kept state) (sealed : String) :
    ⟨state.opened.length, sealed⟩ ∉ state.opened :=
  fun opened => (kept.numbered _ opened).false

theorem held_setEntry {index : ℕ} {changed : Entry}
    (store : changed.store = (state.heap index).store) :
    (state.setEntry index changed).held = state.held := by
  simp only [State.held, State.setEntry]
  congr 1
  funext current
  rw [Function.update_apply]
  split
  · rename_i same
    rw [same, store]
  · rfl

theorem held_setEntry_of_ne {index : ℕ} (changed : Entry)
    (other : state.current ≠ some index) : (state.setEntry index changed).held = state.held := by
  simp only [State.held, State.setEntry]
  cases isCurrent : state.current with
  | none => rfl
  | some current =>
    have differs : current ≠ index := fun same => other (isCurrent.trans (congrArg some same))
    simp [Function.update_of_ne differs]

theorem held_modifyCurrent {change : Entry → Entry}
    (store : ∀ entry, (change entry).store = entry.store) :
    (state.modifyCurrent change).held = state.held := by
  simp only [State.modifyCurrent]
  split
  · exact held_setEntry (store _)
  · rfl

theorem inherit_store (row : Option OrgDataResidency) (version : ℕ) (loadedAt : Option ℕ)
    (cur : Entry) : ((Entry.ofRow row version loadedAt).inherit cur).store =
      if cur.keepsStore row then cur.store else none := by
  have files (next : Entry) : (next.inheritFiles cur).store = next.store := by
    simp only [Entry.inheritFiles]
    split <;> rfl
  rw [Entry.inherit, files, Entry.inheritStore]
  split
  · rename_i keeps
    exact (if_pos keeps).symm
  · rename_i differs
    exact (if_neg differs).symm

theorem held_replaceEntry (state : State) (row : Option OrgDataResidency) (version : ℕ)
    (loadedAt : Option ℕ) :
    ((state.replaceEntry (Entry.ofRow row version loadedAt)).held = state.held ∧
        (state.replaceEntry (Entry.ofRow row version loadedAt)).scheduled = state.scheduled) ∨
      ((state.replaceEntry (Entry.ofRow row version loadedAt)).held = none ∧
        (state.replaceEntry (Entry.ofRow row version loadedAt)).scheduled =
          state.held.toList ++ state.scheduled) := by
  have isNew := (replaceEntry_frame state (Entry.ofRow row version loadedAt)).2.2.2.2.2.2.2
  have newEntry := replaceEntry_heap_allocated state (Entry.ofRow row version loadedAt)
  cases isCurrent : state.current with
  | none =>
    left
    simp only [isCurrent] at newEntry
    simp only [State.held, isNew, isCurrent, Option.bind_some, Option.bind_none, newEntry]
    exact ⟨rfl, by simp [State.replaceEntry, isCurrent]⟩
  | some cur =>
    simp only [isCurrent] at newEntry
    simp only [State.held, isNew, isCurrent, Option.bind_some, newEntry, inherit_store]
    by_cases keeps : (state.heap cur).keepsStore row
    · left
      simp [State.replaceEntry, State.closeEntry, isCurrent, Entry.release, Entry.ofRow, keeps]
    · right
      simp [State.replaceEntry, State.closeEntry, isCurrent, Entry.release, Entry.ofRow, keeps]

variable {next : State}

theorem Kept.of_held (kept : Kept state) (sound : Sound next)
    (opened : next.opened = state.opened) (scheduled : next.scheduled = state.scheduled)
    (held : next.held = state.held) : Kept next where
  sound := sound
  numbered := by
    rw [opened]
    exact kept.numbered
  ledger := by
    rw [opened, scheduled, held]
    exact kept.ledger

theorem modifyCurrent_frame (state : State) (change : Entry → Entry) :
    (state.modifyCurrent change).opened = state.opened ∧
      (state.modifyCurrent change).scheduled = state.scheduled := by
  simp only [State.modifyCurrent]
  split <;> exact ⟨rfl, rfl⟩

theorem numbered_cons {opened : List TenantStore} {sealed : String}
    (numbered : ∀ store ∈ opened, store.id < opened.length) :
    ∀ store ∈ (⟨opened.length, sealed⟩ : TenantStore) :: opened,
      store.id < (⟨opened.length, sealed⟩ :: opened).length := by
  simp only [List.forall_mem_cons, List.length_cons]
  exact ⟨by omega, fun store storeMem => (numbered store storeMem).trans (by omega)⟩

theorem held_connect {target : ℕ} (current : state.current = some target) (sealed : String) :
    (state.connect target sealed).held = some ⟨state.opened.length, sealed⟩ := by
  simp [State.held, State.connect, State.setEntry, current]

theorem Kept.transition {action : Action} (kept : Kept state)
    (adopts : Adopts state action) (transition : Transition state action next) : Kept next := by
  have sound := kept.sound.transition transition
  cases transition with
  | commit | tick | start | trust | distrust | read | fallBack | giveUp | opens =>
    exact kept.of_held sound rfl rfl rfl
  | invalidate =>
    have frame := modifyCurrent_frame state fun entry =>
      { entry with loadedAt := none, dbErr := none, filesErr := none }
    exact kept.of_held sound frame.1 frame.2 (held_modifyCurrent fun _ => rfl)
  | @touch action change touched =>
    have frame := modifyCurrent_frame state change
    exact kept.of_held sound frame.1 frame.2 (held_modifyCurrent fun entry => (touched entry).store)
  | @publish id call row version =>
    have opened : (state.publish id call row version).opened = state.opened :=
      (replaceEntry_frame state _).2.2.2.2.2.1
    rcases held_replaceEntry state row version (some state.now) with
      ⟨held, scheduled⟩ | ⟨held, scheduled⟩
    · exact kept.of_held sound opened scheduled held
    · refine ⟨sound, by rw [opened]; exact kept.numbered, ?_⟩
      have retired := kept.ledger.retire
      rw [← held, ← scheduled, ← opened] at retired
      exact retired
  | returns running phase touched =>
    exact kept.of_held sound rfl rfl (held_setEntry touched.store)
  | @connect id call entry sealed running phase vacant =>
    have isCurrent : state.current = some (state.target entry sealed) :=
      (adopts call entry sealed running phase).resolve_right (absurd vacant)
    have heldNone : state.held = none := by simp [State.held, isCurrent, vacant]
    refine ⟨sound, numbered_cons kept.numbered, ?_⟩
    have acquired := (heldNone ▸ kept.ledger).acquire (kept.fresh sealed)
    rw [← held_connect isCurrent sealed] at acquired
    exact acquired
  | @discard id call entry sealed =>
    exact ⟨sound, numbered_cons kept.numbered, kept.ledger.discard (kept.fresh sealed)⟩

theorem Kept.initial : Kept State.initial :=
  ⟨Sound.initial, by simp [State.initial], Ledger.empty⟩

theorem Kept.adopts_of_owned {action : Action} (kept : Kept state)
    (stepped : step state action = some next) (owned : Owned next) : Adopts state action := by
  cases action with
  | install id opens =>
    cases opens with
    | true =>
      intro call entry sealed running phase
      by_contra neither
      obtain ⟨notCurrent, vacant⟩ := not_or.mp neither
      rw [not_not] at vacant
      simp only [step, running, phase, State.install, if_true, vacant,
        Option.some.injEq] at stepped
      subst next
      have lost := kept.ledger.not_accounted_of_fresh (kept.fresh sealed)
      rcases owned.kept ⟨state.opened.length, sealed⟩ List.mem_cons_self with isHeld | once
      · exact lost.1 ((held_setEntry_of_ne _ notCurrent).symm.trans isHeld)
      · exact lost.2 once
    | false => trivial
  | _ => trivial

/--
Connections are neither mismatched nor leaked all along a run exactly when each
connection that the run opens goes to the entry in the map, or is closed at once.
-/
theorem owned_iff_adopts {trace : List Action} {state : State}
    (executed : exec step .initial trace = some state) :
    (∀ reached, Visits step .initial trace reached → Owned reached) ↔
      AllSteps step Adopts .initial trace :=
  forall_visits_iff_allSteps (fun _ => Kept.owned)
    (fun _ _ _ kept adopts stepped =>
      kept.transition adopts (transition_of_step kept.sound stepped))
    (fun _ _ _ kept => kept.adopts_of_owned) Kept.initial executed

def connectedRow (sealed : String) : OrgDataResidency where
  enabled := true
  dbProvider := "postgres"
  dbConfigSealed := sealed
  dbStatus := "connected"
  filesProvider := ""
  filesConfigSealed := ""
  filesStatus := residencyStatusNotConfigured

def reload (id : ℕ) (purpose : Purpose) : List Action :=
  [.start id purpose, .checkAge id, .readRow id true, .publish id]

def firstConnection : List Action :=
  .commit (some (connectedRow "first")) :: reload 0 .resolve ++
    [.settle 0 true, .install 0 true]

theorem firstConnection_owned :
    AllSteps step Adopts .initial firstConnection ∧
      ∀ reached, Visits step .initial firstConnection reached → Owned reached := by
  have adopts : AllSteps step Adopts .initial firstConnection := by
    refine ⟨trivial, fun _ first => ⟨trivial, fun _ second => ⟨trivial, fun _ third =>
      ⟨trivial, fun _ fourth => ⟨trivial, fun _ fifth => ⟨trivial, fun _ sixth =>
        ⟨?_, fun _ _ => trivial⟩⟩⟩⟩⟩⟩⟩
    cases first
    cases second
    cases third
    cases fourth
    cases fifth
    cases sixth
    rintro _ _ _ ⟨⟩ ⟨⟩
    exact .inl rfl
  obtain ⟨state, executed⟩ : ∃ state, exec step .initial firstConnection = some state := ⟨_, rfl⟩
  exact ⟨adopts, (owned_iff_adopts executed).mpr adopts⟩

/--
The settings change while the first request opens its connection: the connection
ends up on an entry that has left the map.
-/
def lateConnection : List Action :=
  .commit (some (connectedRow "first")) :: reload 0 .resolve ++ [.settle 0 true] ++
    [.commit (some (connectedRow "second")), .invalidate] ++ reload 1 .resolve ++
    [.install 0 true]

/-- A connection opens when its entry has been replaced. -/
theorem not_ownsConnections : ¬OwnsConnections := by
  intro owns
  have summary : (exec step .initial lateConnection).map
      (fun state => (state.opened, state.held, state.scheduled)) =
        some ([⟨0, "first"⟩], none, []) := rfl
  obtain ⟨state, executed, summary⟩ := Option.map_eq_some_iff.mp summary
  simp only [Prod.mk.injEq] at summary
  obtain ⟨opened, held, scheduled⟩ := summary
  have kept := (owns _ _ executed).kept ⟨0, "first"⟩
  simp [opened, held, scheduled] at kept

end Aavishield.Dataplane.Manager
