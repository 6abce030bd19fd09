import Aavishield.Agent.SystemProxy

/-!
# The system proxy and the agent's last decision

`HELD_OFF` is meant to be the agent's last decision, which the watchdog then keeps.  The
file states what following that decision means for every step, finds the steps at which
the flag and the decision come apart, and shows that without them every run follows it.
What a pass restores is said of the OS settings alone, not of what the pass made of them.
-/

namespace Aavishield.SystemProxy

open TransitionSystem

variable (platform : Platform)

/--
A command that points the OS at the agent comes neither after a stand-down has completed,
unless a transition to an enforcing mode began since, nor at any time after a disconnect or
an uninstall; and a watchdog pass is not skipped while the agent is armed.
-/
def Follows (state : State) : Action → Prop
  | .advance task _ =>
    ∀ change listed issued command rest,
      state.pc task = .writing change listed issued (command :: rest) → command.points = true →
        state.stoodDown = false ∧ state.retired = false
  | .acquire task => task = .watchdog → state.armed = true → state.heldOff = false
  | _ => True

/-- A network service that the OS lists, and one of whose settings does not point at the agent. -/
structure Lost (os : OS) (service : Service) (setting : Setting) : Prop where
  listed : service ∈ platform.networkServices os true
  made : setting ∈ platform.settings service
  unset : os.setting setting = false

/-- A task that is about to ask for the network services. -/
def Pc.lists : Pc → Bool
  | .listing _ | .listingFor _ => true
  | _ => false

/-- A task that has begun to change the settings. -/
def Pc.writes : Pc → Bool
  | .writing _ _ _ _ => true
  | _ => false

/-- Until the watchdog itself writes, the service stays without the proxy and the OS lists it. -/
def StaysLost (service : Service) (setting : Setting) (state : State) (action : Action) : Prop :=
  (state.pc .watchdog).writes = false →
    Lost platform state.os service setting ∧
      (action = .advance .watchdog 0 → (state.pc .watchdog).lists = false)

/-- The watchdog's step that gives the OS the command. -/
def Issues (command : Command) (state : State) (action : Action) : Prop :=
  ∃ effect change listed issued rest, action = .advance .watchdog effect ∧
    state.pc .watchdog = .writing change listed issued (command :: rest)

/-- From the moment the watchdog wakes up with the lock to the end of what it then does. -/
structure Pass (begun : State) (rest : List Action) (ended : State) : Prop where
  idle : begun.pc .watchdog = .idle
  runs : exec (step platform) begun (.acquire .watchdog :: rest) = some ended
  ends : ended.pc .watchdog = .idle
  busy : ∀ entered, step platform begun (.acquire .watchdog) = some entered →
    AllSteps (step platform) (fun state _ => state.pc .watchdog ≠ .idle) entered rest

/-- Whatever service has lost the proxy, the pass issues every command that points it here again. -/
def Restores (begun : State) (rest : List Action) : Prop :=
  ∀ service setting,
    AllSteps (step platform) (StaysLost platform service setting) begun
      (.acquire .watchdog :: rest) →
    ∀ command ∈ platform.applyCommands service,
      SomeStep (step platform) (Issues command) begun (.acquire .watchdog :: rest)

/-- Each step follows the last decision, and each pass of an armed agent restores what is lost. -/
structure FollowsThroughout (initial : State) (trace : List Action) : Prop where
  steps : AllSteps (step platform) Follows initial trace
  passes : ∀ before rest after begun ended,
    trace = before ++ (.acquire .watchdog :: rest) ++ after →
      exec (step platform) initial before = some begun → begun.armed = true →
        Pass platform begun rest ended → Restores platform begun rest

/--
The steps at which the flag is left as the decision wants it: a transition that finds
nothing to do finds the flag right, and no task takes the lock to apply after a disconnect
or an uninstall, nor startup after a stand-down.  And a pass that reads nothing amiss leaves
nothing amiss unread.
-/
def heeds (state : State) : Action → Bool
  | .advance task _ =>
    match state.pc task with
    | .reading .paused ⟨[], _, _⟩ => state.heldOff
    | .reading .enforcing ⟨[], _, []⟩ => !state.heldOff
    | .reading .pass ⟨service :: _, answers, _⟩ =>
      !((platform.reads service).getD answers.length []).all state.os.setting ||
        (platform.unread service).all state.os.setting
    | _ => true
  | .acquire task =>
    match state.pc task with
    | .waiting .apply => !state.retired && (task ≠ .main || !state.stoodDown)
    | _ => true
  | _ => true

/-- `heeds`, as a proposition. -/
def Heeds (state : State) (action : Action) : Prop := heeds platform state action = true

instance (state : State) (action : Action) : Decidable (Heeds platform state action) :=
  inferInstanceAs (Decidable (_ = _))

/-- Who is inside a lock section holds the lock, and `HELD_OFF` is as the section stored it. -/
structure Pc.WellPlaced (lock : Option Task) (heldOff : Bool) (task : Task) (pc : Pc) :
    Prop where
  holds : ∀ change, pc.inside = some change → lock = some task
  stored : ∀ change, pc.inside = some change → heldOff = decide (change = .clear)
  issued : ∀ change listed issued remaining, pc = .writing change listed issued remaining →
    issued ++ remaining = listed.flatMap (platform.commands change)

def Sections (state : State) : Prop :=
  ∀ task, (state.pc task).WellPlaced platform state.lock state.heldOff task

@[simp]
theorem State.moveTo_pc (state : State) (task : Task) (pc : Pc) :
    (state.moveTo task pc).pc task = pc := by
  simp [State.moveTo]

theorem State.moveTo_pc_of_ne (state : State) {task other : Task} (pc : Pc) (ne : other ≠ task) :
    (state.moveTo task pc).pc other = state.pc other := by
  simp [State.moveTo, ne]

variable {platform} {state : State} {task : Task}

variable {heldOff : Bool} {pc : Pc}

theorem Pc.wellPlaced_of_outside {lock : Option Task}
    (outside : pc.inside = none) : pc.WellPlaced platform lock heldOff task := by
  refine ⟨by simp [outside], by simp [outside], ?_⟩
  rintro change listed issued remaining rfl
  cases outside

section

variable (sections : Sections platform state)

include sections

theorem Sections.moveTo (placed : pc.WellPlaced platform state.lock state.heldOff task) :
    Sections platform (state.moveTo task pc) := by
  intro other
  by_cases same : other = task
  · subst same
    rw [State.moveTo_pc]
    exact placed
  · rw [State.moveTo_pc_of_ne state pc same]
    exact sections other

theorem Sections.moveAlone {lock : Option Task} (placed : pc.WellPlaced platform lock heldOff task)
    (alone : ∀ other, other ≠ task → (state.pc other).inside = none) :
    Sections platform { state.moveTo task pc with lock, heldOff } := by
  intro other
  by_cases same : other = task
  · subst same
    rw [State.moveTo_pc]
    exact placed
  · rw [State.moveTo_pc_of_ne state pc same]
    refine ⟨by simp [alone other same], by simp [alone other same], (sections other).issued⟩

theorem Sections.enter (free : state.lock = none)
    (placed : pc.WellPlaced platform (some task) heldOff task) :
    Sections platform { state.moveTo task pc with lock := some task, heldOff } := by
  apply sections.moveAlone placed
  intro other _
  apply Option.eq_none_iff_forall_not_mem.mpr
  intro change inside
  have holder := (sections other).holds change inside
  rw [free] at holder
  cases holder

theorem Sections.leave {change : Change} (inside : (state.pc task).inside = some change) :
    Sections platform { state.moveTo task .idle with lock := none } := by
  apply sections.moveAlone (Pc.wellPlaced_of_outside rfl)
  intro other different
  apply Option.eq_none_iff_forall_not_mem.mpr
  intro held isInside
  have holder := (sections other).holds held isInside
  rw [(sections task).holds change inside] at holder
  exact different (Option.some.inj holder).symm

end

/-- `HELD_OFF` is what the agent decided last. -/
structure Decided (state : State) : Prop where
  stoodDown : state.stoodDown = true → state.heldOff = true
  armed : state.armed = true → state.heldOff = false
  retired : state.retired = true → state.heldOff = true

structure Invariant (platform : Platform) (state : State) : Prop where
  sections : Sections platform state
  decided : Decided state

theorem Invariant.initial (os : OS) : Invariant platform (State.initial os) :=
  ⟨fun _ => Pc.wellPlaced_of_outside rfl, by constructor <;> simp [State.initial]⟩

section

variable (invariant : Invariant platform state)

include invariant

theorem Invariant.congr {other : State} (pc : other.pc = state.pc) (lock : other.lock = state.lock)
    (heldOff : other.heldOff = state.heldOff) (stoodDown : other.stoodDown = state.stoodDown)
    (armed : other.armed = state.armed) (retired : other.retired = state.retired) :
    Invariant platform other := by
  constructor
  · intro task
    rw [pc, lock, heldOff]
    exact invariant.sections task
  · constructor
    · rw [stoodDown, heldOff]
      exact invariant.decided.stoodDown
    · rw [armed, heldOff]
      exact invariant.decided.armed
    · rw [retired, heldOff]
      exact invariant.decided.retired

theorem Invariant.moveTo (placed : pc.WellPlaced platform state.lock state.heldOff task) :
    Invariant platform (state.moveTo task pc) :=
  ⟨invariant.sections.moveTo placed,
    ⟨invariant.decided.stoodDown, invariant.decided.armed, invariant.decided.retired⟩⟩

theorem Invariant.beginStandDown :
    Invariant platform (state.beginStandDown task) := by
  refine ⟨invariant.sections.moveTo (Pc.wellPlaced_of_outside rfl), ?_⟩
  exact ⟨invariant.decided.stoodDown, by simp [State.beginStandDown], invariant.decided.retired⟩

theorem Invariant.beginTransition (mode : Mode) :
    Invariant platform (state.beginTransition mode) := by
  unfold State.beginTransition
  split_ifs with paused
  · refine ⟨invariant.sections.moveTo (Pc.wellPlaced_of_outside rfl), ?_⟩
    exact ⟨invariant.decided.stoodDown, by simp, invariant.decided.retired⟩
  · refine ⟨invariant.sections.moveTo (Pc.wellPlaced_of_outside rfl), ?_⟩
    exact ⟨by simp, invariant.decided.armed, invariant.decided.retired⟩

end

theorem Invariant.completeStandDown (sections : Sections platform (state.moveTo task .idle))
    (heldOff : state.heldOff = true) : Invariant platform (state.completeStandDown task) :=
  ⟨sections, ⟨fun _ => heldOff, by simp [State.completeStandDown], fun _ => heldOff⟩⟩

theorem Invariant.completeEnforcing (sections : Sections platform (state.moveTo task .idle))
    (decided : Decided state) (heldOff : state.heldOff = false) :
    Invariant platform (state.completeEnforcing task) := by
  refine ⟨sections, ⟨?_, fun _ => heldOff, decided.retired⟩⟩
  intro stoodDown
  simp only [State.completeEnforcing] at stoodDown
  split_ifs at stoodDown with isMain
  exact decided.stoodDown stoodDown

theorem Invariant.conclude (invariant : Invariant platform state) {probe : Probe}
    {reading : Reading} (reached : state.pc task = .reading probe reading) {active : Bool}
    {missing : List Service} (skipsDown : probe = .paused → active = false → state.heldOff = true)
    (skipsUp : probe = .enforcing → missing = [] → state.heldOff = false) :
    Invariant platform (state.conclude task probe active missing) := by
  have placed := invariant.sections task
  cases probe with
  | paused =>
    cases active with
    | true => exact invariant.moveTo (Pc.wellPlaced_of_outside rfl)
    | false =>
      apply Invariant.completeStandDown
      · exact invariant.sections.moveTo (Pc.wellPlaced_of_outside rfl)
      · exact skipsDown rfl rfl
  | enforcing =>
    simp only [State.conclude]
    split_ifs with complete
    · apply Invariant.completeEnforcing
      · exact invariant.sections.moveTo (Pc.wellPlaced_of_outside rfl)
      · exact invariant.decided
      · exact skipsUp rfl complete
    · exact invariant.moveTo (Pc.wellPlaced_of_outside rfl)
  | pass =>
    have inside : (state.pc task).inside = some .apply := by rw [reached]; rfl
    have unheld : state.heldOff = false := placed.stored .apply inside
    simp only [State.conclude]
    split_ifs with complete
    · exact ⟨invariant.sections.leave inside,
        ⟨invariant.decided.stoodDown, invariant.decided.armed, invariant.decided.retired⟩⟩
    · have moved : Sections platform (state.moveTo task (.listing .wasOff)) := by
        apply invariant.sections.moveTo
        refine ⟨fun _ _ => placed.holds .apply inside, ?_, by simp⟩
        rintro change ⟨⟩
        exact unheld
      constructor
      · intro other
        have placedThere := moved other
        simp only [State.moveTo, unheld] at placedThere
        exact placedThere
      · refine ⟨?_, fun _ => rfl, ?_⟩
        · intro stoodDown
          exact absurd (invariant.decided.stoodDown stoodDown) (by simp [unheld])
        · intro retired
          exact absurd (invariant.decided.retired retired) (by simp [unheld])
  | wasOff =>
    have inside : (state.pc task).inside = some .apply := by rw [reached]; rfl
    apply invariant.moveTo
    refine ⟨fun _ _ => placed.holds .apply inside, ?_, by simp⟩
    rintro change ⟨⟩
    exact placed.stored .apply inside

theorem Invariant.read (invariant : Invariant platform state) {probe : Probe} {reading : Reading}
    (reached : state.pc task = .reading probe reading) {succeeds : Bool}
    (skipsDown : probe = .paused → reading.pending = [] → state.heldOff = true)
    (skipsUp : probe = .enforcing → reading.pending = [] → reading.missing = [] →
      state.heldOff = false) :
    Invariant platform (state.read platform task probe reading succeeds) := by
  have placed := invariant.sections task
  have continues : ∀ further : Reading,
      Invariant platform (state.moveTo task (.reading probe further)) := by
    intro further
    apply invariant.moveTo
    rw [reached] at placed
    exact ⟨placed.holds, placed.stored, by simp⟩
  unfold State.read
  cases pending : reading.pending with
  | nil =>
    apply invariant.conclude reached
    · exact fun isPaused _ => skipsDown isPaused pending
    · exact fun isEnforcing complete => skipsUp isEnforcing pending complete
  | cons service rest =>
    simp only
    split_ifs with unfinished stops active complete
    · exact continues _
    · apply invariant.conclude reached
      · simp
      · rintro rfl
        cases stops
    all_goals exact continues _

theorem Invariant.release (invariant : Invariant platform state) {change : Change}
    (inside : (state.pc task).inside = some change) :
    Invariant platform (state.release task change) := by
  have left := invariant.sections.leave inside
  have stored := (invariant.sections task).stored change inside
  have decided : Decided { state with lock := none } :=
    ⟨invariant.decided.stoodDown, invariant.decided.armed, invariant.decided.retired⟩
  cases change with
  | clear => exact Invariant.completeStandDown left stored
  | apply =>
    cases task with
    | watchdog => exact ⟨left, ⟨decided.stoodDown, decided.armed, decided.retired⟩⟩
    | main | heartbeat | commands | uninstall id =>
      exact Invariant.completeEnforcing left decided stored

variable {next : State}

section

variable (invariant : Invariant platform state)

include invariant

theorem Invariant.advance {effect : ℕ} (heeds : Heeds platform state (.advance task effect))
    (advanced : state.advance platform task effect = some next) : Invariant platform next := by
  have placed := invariant.sections task
  unfold State.advance at advanced
  cases reached : state.pc task with
  | idle => simp [reached] at advanced
  | waiting change => simp [reached] at advanced
  | listing probe =>
    simp only [reached, Option.some.injEq] at advanced
    subst advanced
    apply invariant.moveTo
    rw [reached] at placed
    exact ⟨placed.holds, placed.stored, by simp⟩
  | reading probe reading =>
    simp only [reached, Option.some.injEq] at advanced
    subst advanced
    rcases reading with ⟨pending, answers, missing⟩
    apply invariant.read reached
    · rintro rfl rfl
      simpa [Heeds, SystemProxy.heeds, reached] using heeds
    · rintro rfl rfl rfl
      simpa [Heeds, SystemProxy.heeds, reached] using heeds
  | listingFor change =>
    simp only [reached, Option.some.injEq] at advanced
    subst advanced
    apply invariant.moveTo
    rw [reached] at placed
    refine ⟨placed.holds, placed.stored, ?_⟩
    intro _ listed issued remaining writing
    cases writing
    rfl
  | writing change listed issued remaining =>
    rw [reached] at placed
    cases remaining with
    | nil =>
      simp only [reached, Option.some.injEq] at advanced
      subst advanced
      apply invariant.release
      rw [reached]
      rfl
    | cons command rest =>
      simp only [reached, Option.some.injEq] at advanced
      subst advanced
      have moved : Invariant platform
          (state.moveTo task (.writing change listed (issued ++ [command]) rest)) := by
        apply invariant.moveTo
        refine ⟨placed.holds, placed.stored, ?_⟩
        intro _ _ _ _ writing
        cases writing
        rw [List.append_assoc]
        exact placed.issued change listed issued (command :: rest) rfl
      exact moved.congr rfl rfl rfl rfl rfl rfl

theorem Invariant.acquire
    (heeds : Heeds platform state (.acquire task)) (acquired : state.acquire task = some next) :
    Invariant platform next := by
  by_cases taken : state.lock ≠ none
  · simp [State.acquire, taken] at acquired
  have free : state.lock = none := not_not.mp taken
  simp only [State.acquire, taken, if_false] at acquired
  cases reached : state.pc task with
  | idle =>
    simp only [reached] at acquired
    split_ifs at acquired with watches heldOff
    · cases acquired
      exact invariant
    · cases acquired
      have unheld : state.heldOff = false := Bool.eq_false_iff.mpr heldOff
      have placed : Pc.WellPlaced platform (some task) state.heldOff task (.listing .pass) :=
        ⟨fun _ _ => rfl, by rintro _ ⟨⟩; exact unheld, by simp⟩
      exact ⟨invariant.sections.enter free placed,
        ⟨invariant.decided.stoodDown, invariant.decided.armed, invariant.decided.retired⟩⟩
  | waiting change =>
    cases change with
    | apply =>
      have notRetired : state.retired = false ∧ (task = .main → state.stoodDown = false) := by
        simpa [Heeds, SystemProxy.heeds, reached, ← imp_iff_not_or] using heeds
      rcases notRetired with ⟨notRetired, startsUp⟩
      simp only [reached, Option.some.injEq] at acquired
      subst acquired
      refine ⟨invariant.sections.enter free ⟨fun _ _ => rfl, by rintro _ ⟨⟩; rfl, by simp⟩, ?_⟩
      refine ⟨?_, fun _ => rfl, ?_⟩
      · intro stoodDown
        by_cases isMain : task = .main
        · simp [isMain, startsUp isMain] at stoodDown
        · simp [isMain] at stoodDown
      · intro retired
        exact absurd (notRetired.symm.trans retired) (by simp)
    | clear =>
      simp only [reached, Option.some.injEq] at acquired
      subst acquired
      refine ⟨invariant.sections.enter free ⟨fun _ _ => rfl, by rintro _ ⟨⟩; rfl, by simp⟩, ?_⟩
      exact ⟨fun _ => rfl, by simp, fun _ => rfl⟩
  | listing probe | reading probe reading | listingFor change
  | writing change listed issued remaining => simp [reached] at acquired

theorem Invariant.standDownFor
    (stepped : state.standDownFor task = some next) : Invariant platform next := by
  unfold State.standDownFor at stepped
  split at stepped
  · cases stepped
    exact invariant.beginStandDown
  · cases stepped
    exact invariant.beginStandDown
  · cases stepped

theorem Invariant.step {action : Action}
    (heeds : Heeds platform state action) (stepped : step platform state action = some next) :
    Invariant platform next := by
  cases action <;> simp only [SystemProxy.step, State.whenAlive, Option.ite_none_right_eq_some,
    Option.some.injEq] at stepped
  case outside os =>
    subst stepped
    exact invariant.congr rfl rfl rfl rfl rfl rfl
  case shutdown =>
    subst stepped
    exact invariant.congr rfl rfl rfl rfl rfl rfl
  case seed verdict =>
    rcases stepped with ⟨-, seeded⟩
    unfold State.seed at seeded
    split_ifs at seeded
    cases seeded
    exact invariant.congr rfl rfl rfl rfl rfl rfl
  case startup =>
    rcases stepped with ⟨-, started⟩
    unfold State.startup at started
    split at started
    · split_ifs at started
      · cases started
        exact invariant.congr rfl rfl rfl rfl rfl rfl
      · cases started
        exact invariant.moveTo (Pc.wellPlaced_of_outside rfl)
    · cases started
  case heartbeat verdict =>
    rcases stepped with ⟨-, beaten⟩
    unfold State.heartbeat at beaten
    split at beaten
    · cases beaten
    · split_ifs at beaten
      · cases beaten
        exact invariant
      · cases beaten
        exact invariant.beginTransition verdict
    · cases beaten
  case disconnect => exact invariant.standDownFor stepped.2
  case uninstallAuthorized id => exact invariant.standDownFor stepped.2
  case listenerDied =>
    rcases stepped with ⟨-, died⟩
    unfold State.listenerDied at died
    split at died
    · cases died
      exact invariant.beginStandDown.congr rfl rfl rfl rfl rfl rfl
    · cases died
  case acquire task => exact invariant.acquire heeds stepped.2
  case advance task effect => exact invariant.advance heeds stepped.2

end

theorem points_of_clear {service : Service} {command : Command}
    (mem : command ∈ platform.clearCommands service) : command.points = false := by
  cases platform <;> simp [Platform.clearCommands] at mem <;> rcases mem with rfl | rfl <;> rfl

theorem Invariant.follows (invariant : Invariant platform state) (action : Action) :
    Follows state action := by
  cases action with
  | advance task effect =>
    have placed := invariant.sections task
    intro change listed issued command rest reached points
    have inside : (state.pc task).inside = some change := by rw [reached]; rfl
    have stored := placed.stored change inside
    cases change with
    | apply =>
      constructor
      · apply Bool.eq_false_iff.mpr
        intro stoodDown
        exact absurd (invariant.decided.stoodDown stoodDown) (by simp [stored])
      · apply Bool.eq_false_iff.mpr
        intro retired
        exact absurd (invariant.decided.retired retired) (by simp [stored])
    | clear =>
      have all := placed.issued .clear listed issued (command :: rest) reached
      have commandMem : command ∈ listed.flatMap (platform.commands .clear) := by
        rw [← all]
        simp
      rcases List.mem_flatMap.mp commandMem with ⟨service, -, isClear⟩
      rw [points_of_clear isClear] at points
      cases points
  | acquire task => exact fun _ => invariant.decided.armed
  | seed verdict | startup | heartbeat verdict | disconnect | uninstallAuthorized id
  | listenerDied | outside os | shutdown => trivial

/-- What is left to read of a service will find the setting, or an answer was already no. -/
def Unanswered (platform : Platform) (service : Service) (setting : Setting) (answers : List Bool) : Prop :=
  false ∈ answers ∨ ∃ asked ∈ (platform.reads service).drop answers.length,
    setting ∈ asked ∨ setting ∈ platform.unread service

/-- The watchdog is on the way to the command, for a service that has lost the setting. -/
def Pc.Seeks (platform : Platform) (service : Service) (setting : Setting) (command : Command) :
    Pc → Prop
  | .listing .pass | .listing .wasOff | .reading .wasOff _ | .listingFor .apply => True
  | .reading .pass ⟨pending, answers, missing⟩ =>
    service ∈ missing ∨ service ∈ pending.tail ∨
      pending.head? = some service ∧ Unanswered platform service setting answers
  | .writing _ _ _ remaining => command ∈ remaining
  | _ => False

variable {service : Service} {setting : Setting} {command : Command}

theorem reads_ne_nil (platform : Platform) (service : Service) : platform.reads service ≠ [] := by
  cases platform <;> simp [Platform.reads]

theorem unanswered_nil (made : setting ∈ platform.settings service) :
    Unanswered platform service setting [] := by
  right
  by_cases isRead : setting ∈ (platform.reads service).flatten
  · rcases List.mem_flatten.mp isRead with ⟨asked, askedMem, settingMem⟩
    exact ⟨asked, askedMem, Or.inl settingMem⟩
  · rcases List.exists_mem_of_ne_nil _ (reads_ne_nil platform service) with ⟨asked, askedMem⟩
    refine ⟨asked, askedMem, Or.inr ?_⟩
    exact List.mem_filter.mpr ⟨made, decide_eq_true isRead⟩

/-- A service among those to come is sought from its first question on. -/
theorem seeks_further {pending missing : List Service} (made : setting ∈ platform.settings service)
    (further : service ∈ missing ∨ service ∈ pending) :
    Pc.Seeks platform service setting command (.reading .pass ⟨pending, [], missing⟩) := by
  rcases further with found | toCome
  · exact Or.inl found
  · right
    cases pending with
    | nil => cases toCome
    | cons first others =>
      rcases List.mem_cons.mp toCome with rfl | later
      · exact Or.inr ⟨rfl, unanswered_nil made⟩
      · exact Or.inl later

/-- The answer to one question about a service that has lost the setting. -/
theorem Unanswered.further {os : OS} {answers : List Bool} {succeeds : Bool}
    (unanswered : Unanswered platform service setting answers)
    (unset : os.setting setting = false)
    (tells : !((platform.reads service).getD answers.length []).all os.setting ||
      (platform.unread service).all os.setting) :
    Unanswered platform service setting (answers ++
      [succeeds && ((platform.reads service).getD answers.length []).all os.setting]) := by
  rcases unanswered with already | ⟨asked, askedMem, settingMem⟩
  · exact Or.inl (List.mem_append_left _ already)
  have notAll : ∀ settings : List Setting, setting ∈ settings →
      settings.all os.setting = false := by
    intro settings mem
    exact List.all_eq_false.mpr ⟨setting, mem, by simp [unset]⟩
  by_cases isUnread : setting ∈ platform.unread service
  · rw [notAll _ isUnread, Bool.or_false, Bool.not_eq_true'] at tells
    exact Or.inl (List.mem_append_right _ (by simp only [tells, Bool.and_false, List.mem_singleton]))
  rcases List.mem_drop_iff_getElem.mp askedMem with ⟨index, bound, rfl⟩
  have settingMem := settingMem.resolve_right isUnread
  rcases index with _ | index
  · left
    simp only [Nat.zero_add, Nat.add_zero] at bound settingMem
    rw [List.getD_eq_getElem?_getD, List.getElem?_eq_getElem bound, Option.getD_some,
      notAll _ settingMem]
    simp
  · right
    refine ⟨_, ?_, Or.inl settingMem⟩
    rw [List.mem_drop_iff_getElem]
    refine ⟨index, ?_, ?_⟩
    · rw [List.length_append]
      simp only [List.length_singleton]
      omega
    · congr 1
      simp only [List.length_append, List.length_singleton]
      omega

section

variable {other : Task} (ne : other ≠ task)

include ne

theorem conclude_pc_of_ne (probe : Probe) (active : Bool) (missing : List Service) :
    (state.conclude task probe active missing).pc other = state.pc other := by
  cases probe <;> simp only [State.conclude] <;> try split_ifs
  all_goals exact State.moveTo_pc_of_ne state _ ne

theorem read_pc_of_ne (probe : Probe) (reading : Reading) (succeeds : Bool) :
    (state.read platform task probe reading succeeds).pc other = state.pc other := by
  unfold State.read
  split
  · exact conclude_pc_of_ne ne _ _ _
  · simp only
    split_ifs
    · exact State.moveTo_pc_of_ne state _ ne
    · exact conclude_pc_of_ne ne _ _ _
    all_goals exact State.moveTo_pc_of_ne state _ ne

theorem release_pc_of_ne (change : Change) :
    (state.release task change).pc other = state.pc other := by
  cases change with
  | clear => exact State.moveTo_pc_of_ne state _ ne
  | apply => cases task <;> exact State.moveTo_pc_of_ne state _ ne

theorem advance_pc_of_ne {effect : ℕ}
    (advanced : state.advance platform task effect = some next) :
    next.pc other = state.pc other := by
  unfold State.advance at advanced
  split at advanced <;> cases advanced
  · exact State.moveTo_pc_of_ne state _ ne
  · exact read_pc_of_ne ne _ _ _
  · exact State.moveTo_pc_of_ne state _ ne
  · exact release_pc_of_ne ne _
  · exact State.moveTo_pc_of_ne state _ ne

theorem acquire_pc_of_ne (acquired : state.acquire task = some next) :
    next.pc other = state.pc other := by
  by_cases taken : state.lock ≠ none
  · simp [State.acquire, taken] at acquired
  simp only [State.acquire, taken, if_false] at acquired
  split at acquired
  · cases acquired
    exact State.moveTo_pc_of_ne state _ ne
  · cases acquired
    exact State.moveTo_pc_of_ne state _ ne
  · split_ifs at acquired <;> cases acquired
    · rfl
    · exact State.moveTo_pc_of_ne state _ ne
  · cases acquired

theorem standDownFor_pc_of_ne (stoodDown : state.standDownFor task = some next) :
    next.pc other = state.pc other := by
  unfold State.standDownFor at stoodDown
  split at stoodDown <;> cases stoodDown
  · exact State.moveTo_pc_of_ne state _ ne
  · exact State.moveTo_pc_of_ne state _ ne

end

/-- No task moves the watchdog but the watchdog itself. -/
theorem pc_watchdog_of_step {action : Action}
    (stepped : step platform state action = some next) :
    action = .acquire .watchdog ∨ (∃ effect, action = .advance .watchdog effect) ∨
      next.pc .watchdog = state.pc .watchdog := by
  cases action <;> simp only [SystemProxy.step, State.whenAlive, Option.ite_none_right_eq_some,
    Option.some.injEq] at stepped
  case outside os =>
    subst stepped
    exact Or.inr (Or.inr rfl)
  case shutdown =>
    subst stepped
    exact Or.inr (Or.inr rfl)
  case seed verdict =>
    rcases stepped with ⟨-, seeded⟩
    unfold State.seed at seeded
    split_ifs at seeded
    cases seeded
    exact Or.inr (Or.inr rfl)
  case startup =>
    rcases stepped with ⟨-, started⟩
    unfold State.startup at started
    split at started
    · split_ifs at started <;> cases started
      · exact Or.inr (Or.inr rfl)
      · have ne : Task.watchdog ≠ .main := by decide
        exact Or.inr (Or.inr (State.moveTo_pc_of_ne state _ ne))
    · cases started
  case heartbeat verdict =>
    rcases stepped with ⟨-, beaten⟩
    unfold State.heartbeat at beaten
    split at beaten
    · cases beaten
    · split_ifs at beaten <;> cases beaten
      · exact Or.inr (Or.inr rfl)
      · right
        right
        have ne : Task.watchdog ≠ .heartbeat := by decide
        unfold State.beginTransition
        split_ifs
        · exact State.moveTo_pc_of_ne state (.listing .paused) ne
        · exact State.moveTo_pc_of_ne state (.listing .enforcing) ne
    · cases beaten
  case disconnect => exact Or.inr (Or.inr (standDownFor_pc_of_ne (by decide) stepped.2))
  case uninstallAuthorized id => exact Or.inr (Or.inr (standDownFor_pc_of_ne (by simp) stepped.2))
  case listenerDied =>
    rcases stepped with ⟨-, died⟩
    unfold State.listenerDied at died
    have ne : Task.watchdog ≠ .main := by decide
    split at died <;> cases died
    exact Or.inr (Or.inr (State.moveTo_pc_of_ne state (.waiting .clear) ne))
  case acquire task =>
    by_cases same : task = .watchdog
    · exact Or.inl (by rw [same])
    · exact Or.inr (Or.inr (acquire_pc_of_ne (Ne.symm same) stepped.2))
  case advance task effect =>
    by_cases same : task = .watchdog
    · exact Or.inr (Or.inl ⟨effect, by rw [same]⟩)
    · exact Or.inr (Or.inr (advance_pc_of_ne (Ne.symm same) stepped.2))

/-- The watchdog finds out about the service, or has still to ask about it. -/
theorem seeks_read_pass {reading : Reading} {succeeds : Bool} {effect : ℕ}
    (seeks : Pc.Seeks platform service setting command (.reading .pass reading))
    (made : setting ∈ platform.settings service) (unset : state.os.setting setting = false)
    (reached : state.pc .watchdog = .reading .pass reading)
    (heeds : Heeds platform state (.advance .watchdog effect)) :
    ((state.read platform .watchdog .pass reading succeeds).pc .watchdog).Seeks platform service
      setting command := by
  rcases reading with ⟨pending, answers, missing⟩
  unfold State.read
  cases pending with
  | nil =>
    have found : service ∈ missing := by simpa [Pc.Seeks] using seeks
    simp only [State.conclude, if_neg (List.ne_nil_of_mem found)]
    simp only [State.moveTo, Function.update_self]
    trivial
  | cons first rest =>
    have tells : !((platform.reads first).getD answers.length []).all state.os.setting ||
        (platform.unread first).all state.os.setting := by
      simpa [Heeds, SystemProxy.heeds, reached] using heeds
    have sought : service ∈ missing ∨ service ∈ rest ∨
        first = service ∧ Unanswered platform service setting answers := by
      simpa [Pc.Seeks] using seeks
    have answered : first = service → Unanswered platform service setting answers →
        Unanswered platform service setting (answers ++
          [succeeds && ((platform.reads first).getD answers.length []).all state.os.setting]) := by
      rintro rfl unanswered
      exact unanswered.further unset tells
    simp only [Probe.stopsAtActive, Bool.false_eq_true, if_false]
    generalize answers ++ [succeeds && ((platform.reads first).getD answers.length []).all
      state.os.setting] = further at answered ⊢
    split_ifs with unfinished complete
    · rw [State.moveTo_pc]
      rcases sought with found | later | ⟨rfl, unanswered⟩
      · exact Or.inl found
      · exact Or.inr (Or.inl later)
      · exact Or.inr (Or.inr ⟨rfl, answered rfl unanswered⟩)
    · rw [State.moveTo_pc]
      apply seeks_further made
      rcases sought with found | later | ⟨rfl, unanswered⟩
      · exact Or.inl found
      · exact Or.inr later
      · rcases answered rfl unanswered with isNo | ⟨asked, askedMem, -⟩
        · exact absurd (List.all_eq_true.mp complete false isNo) (by simp)
        · rw [List.drop_of_length_le (Nat.le_of_not_gt unfinished)] at askedMem
          cases askedMem
    · rw [State.moveTo_pc]
      apply seeks_further made
      rcases sought with found | later | ⟨rfl, unanswered⟩
      · exact Or.inl (List.mem_append_left _ found)
      · exact Or.inr later
      · exact Or.inl (List.mem_append_right _ (List.mem_singleton_self first))

/-- Whatever the watchdog reads before it applies, it goes on to apply. -/
theorem seeks_read_wasOff {reading : Reading} {succeeds : Bool} :
    ((state.read platform .watchdog .wasOff reading succeeds).pc .watchdog).Seeks platform service
      setting command := by
  unfold State.read
  split
  · rw [State.conclude, State.moveTo_pc]
    trivial
  · simp only [Probe.stopsAtActive, if_true]
    split_ifs
    · rw [State.moveTo_pc]
      trivial
    · rw [State.conclude, State.moveTo_pc]
      trivial
    · rw [State.moveTo_pc]
      trivial

/-- One step of the watchdog on its way, while the service stays without the proxy. -/
theorem seeks_advance {effect : ℕ} (commandMem : command ∈ platform.applyCommands service)
    (seeks : (state.pc .watchdog).Seeks platform service setting command)
    (heeds : Heeds platform state (.advance .watchdog effect))
    (stays : StaysLost platform service setting state (.advance .watchdog effect))
    (advanced : state.advance platform .watchdog effect = some next) :
    Issues command state (.advance .watchdog effect) ∨
      (next.pc .watchdog).Seeks platform service setting command := by
  have listedNow : (state.pc .watchdog).lists = true → (state.pc .watchdog).writes = false →
      service ∈ platform.networkServices state.os (effect ≠ 0) := by
    intro lists writes
    rcases stays writes with ⟨lost, succeeds⟩
    have succeeded : effect ≠ 0 := by
      rintro rfl
      rw [succeeds rfl] at lists
      cases lists
    rw [decide_eq_true succeeded]
    exact lost.listed
  unfold State.advance at advanced
  cases reached : state.pc .watchdog with
  | idle => simp [reached] at advanced
  | waiting change => simp [reached] at advanced
  | listing probe =>
    simp only [reached, Option.some.injEq] at advanced
    subst advanced
    right
    have listed := listedNow (by rw [reached]; rfl) (by rw [reached]; rfl)
    rcases stays (by rw [reached]; rfl) with ⟨lost, -⟩
    rw [State.moveTo_pc]
    rw [reached] at seeks
    cases probe with
    | pass => exact seeks_further lost.made (Or.inr listed)
    | wasOff => trivial
    | paused | enforcing => cases seeks
  | reading probe reading =>
    simp only [reached, Option.some.injEq] at advanced
    subst advanced
    right
    rcases stays (by rw [reached]; rfl) with ⟨lost, -⟩
    rw [reached] at seeks
    cases probe with
    | pass => exact seeks_read_pass seeks lost.made lost.unset reached heeds
    | wasOff => exact seeks_read_wasOff
    | paused | enforcing => cases seeks
  | listingFor change =>
    simp only [reached, Option.some.injEq] at advanced
    subst advanced
    right
    have listed := listedNow (by rw [reached]; rfl) (by rw [reached]; rfl)
    rw [State.moveTo_pc]
    rw [reached] at seeks
    cases change with
    | apply => exact List.mem_flatMap.mpr ⟨service, listed, commandMem⟩
    | clear => cases seeks
  | writing change listed issued remaining =>
    rw [reached] at seeks
    cases remaining with
    | nil => cases seeks
    | cons first rest =>
      simp only [reached, Option.some.injEq] at advanced
      subst advanced
      rcases List.mem_cons.mp seeks with rfl | later
      · exact Or.inl ⟨effect, change, listed, issued, rest, rfl, reached⟩
      · right
        simp only [State.moveTo, Function.update_self]
        exact later

theorem restores_of_heeds {begun ended : State} {rest : List Action}
    (invariant : Invariant platform begun) (armed : begun.armed = true)
    (heeds : AllSteps (SystemProxy.step platform) (Heeds platform) begun
      (.acquire .watchdog :: rest))
    (pass : Pass platform begun rest ended) : Restores platform begun rest := by
  intro service setting stays command commandMem
  rcases exec_cons_eq_some.mp pass.runs with ⟨entered, stepped, runs⟩
  let Aims : State → Prop := fun state => (state.pc .watchdog).Seeks platform service setting command
  have entering : Aims entered := by
    rcases Option.ite_none_right_eq_some.mp stepped with ⟨-, acquired⟩
    by_cases taken : begun.lock ≠ none
    · simp [State.acquire, taken] at acquired
    simp only [State.acquire, taken, if_false, pass.idle, invariant.decided.armed armed,
      Bool.false_eq_true] at acquired
    split_ifs at acquired
    cases acquired
    change ((begun.moveTo .watchdog (.listing .pass)).pc .watchdog).Seeks _ _ _ _
    rw [State.moveTo_pc]
    trivial
  refine Or.inr ⟨entered, stepped, ?_⟩
  have heedsOn := ((allSteps_cons stepped).mp heeds).2
  have staysOn := ((allSteps_cons stepped).mp stays).2
  apply someStep_of_exec ?_ entering (allSteps_and.mpr ⟨heedsOn, staysOn⟩) runs
  · intro isSeeking
    simp only [Aims, pass.ends] at isSeeking
    cases isSeeking
  · rintro state action next seeks ⟨heedsNow, staysNow⟩ stepped
    rcases pc_watchdog_of_step stepped with rfl | ⟨effect, rfl⟩ | unmoved
    · rcases Option.ite_none_right_eq_some.mp stepped with ⟨-, acquired⟩
      exfalso
      unfold State.acquire at acquired
      cases reached : state.pc .watchdog <;> simp [Aims, reached, Pc.Seeks] at seeks acquired
    · rcases Option.ite_none_right_eq_some.mp stepped with ⟨-, advanced⟩
      exact seeks_advance commandMem seeks heedsNow staysNow advanced
    · right
      simp only [Aims, unmoved]
      exact seeks

def FollowsLastDecision (platform : Platform) : Prop :=
  ∀ os trace final, exec (SystemProxy.step platform) (State.initial os) trace = some final →
    FollowsThroughout platform (State.initial os) trace

def unsetOS : OS := ⟨["Wi-Fi"], fun _ => false⟩

def switchedOff : List Action :=
  [.seed none, .startup, .acquire .main] ++ List.replicate 10 (.advance .main 1) ++
    [.outside unsetOS]

def restoredThenDisconnected : List Action :=
  switchedOff ++ [.acquire .watchdog] ++ List.replicate 13 (.advance .watchdog 1) ++
    [.disconnect, .acquire .commands, .advance .commands 1, .advance .commands 1,
      .advance .commands 1, .acquire .watchdog]

/-- Working hours end before the watchdog looks: there is nothing to clear, or so it seems. -/
def pausedUnnoticed : List Action :=
  switchedOff ++ [.heartbeat .paused] ++ List.replicate 3 (.advance .heartbeat 1) ++
    [.acquire .watchdog] ++ List.replicate 7 (.advance .watchdog 1)

end Aavishield.SystemProxy
