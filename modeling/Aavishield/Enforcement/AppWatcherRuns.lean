import Aavishield.Enforcement.AppWatcher
import Aavishield.Lib.TransitionSystem

/-!
# What the watcher stops, and how often it reports

The table holds the application an id was last handled for: neither whether that was to block,
nor whether the process died of it, nor which of the processes under the id it was.
-/

namespace Aavishield.AppWatch

open TransitionSystem

variable {machine : Machine} {state next : State} {loop : Loop} {hit : Hit} {process : Incarnation}

def Sweep.blocked (machine : Machine) (sweep : Sweep) : List Hit :=
  ((sweep.listed.filter fun seen => seen.process.pid ≠ machine.ownPid).filterMap
    (machine.hit sweep.matchers)).filter (·.matcher.blocks)

def Tried (attempts : List Attempt) (process : Incarnation) (appID : String) : Prop :=
  ∃ attempt ∈ attempts,
    attempt.process = process ∧ attempt.matcher.appID = appID ∧ attempt.matcher.blocks = true

def Survived (attempts : List Attempt) (process : Incarnation) : Prop :=
  ∃ attempt ∈ attempts, attempt.process = process ∧ attempt.died = false

def State.Alive (state : State) (process : Incarnation) : Prop :=
  (state.live process.pid).isSome = true ∧ state.generation process.pid = process.generation

def State.Stops (machine : Machine) (state : State) : Label → Prop
  | .sweepEnd => ∀ sweep ∈ state.sweep, state.worker .sweep = .free →
      ∀ hit ∈ sweep.blocked machine, state.Alive hit.process →
        Tried state.attempts hit.process hit.matcher.appID ∧
          (Survived (state.attempts.take sweep.begun) hit.process →
            Tried (state.attempts.drop sweep.begun) hit.process hit.matcher.appID)
  | _ => True

/-- No process was reported twice for one application and action of a rule. -/
def State.ReportsOnce (state : State) : Prop := (state.reports.map (·.1)).Nodup

/-- Whatever is blocked is stopped, and reported once. -/
structure BlocksHoweverRun (machine : Machine) (live : Pid → Option Image) (trace : List Label) :
    Prop where
  stops : AllSteps (State.step machine) (State.Stops machine) (.initial live) trace
  once : ∀ reached, Visits (State.step machine) (.initial live) trace reached →
    reached.ReportsOnce

def State.waiting (state : State) : List Hit :=
  (state.worker .sweep).pending ++ (state.worker .guard).pending

def State.Over (state : State) (process : Incarnation) : Prop :=
  ¬state.Alive process ∧ ∀ hit ∈ state.waiting, hit.process ≠ process

def Stage.Owes (process : Incarnation) (appID : String) : Stage → Prop
  | .idle => False
  | .frozen hit =>
    hit.process = process ∧ hit.matcher.appID = appID ∧ hit.matcher.blocks = true
  | .terminating hit ids _ _ =>
    (hit.process = process ∧ hit.matcher.appID = appID ∧ hit.matcher.blocks = true) ∧
      process.pid ∈ ids

def State.TriedSince (state : State) (hit : Hit) : Prop :=
  ∃ sweep ∈ state.sweep, Tried (state.attempts.drop sweep.begun) hit.process hit.matcher.appID

def State.GuardOwes (state : State) (hit : Hit) : Prop :=
  (state.worker .guard).stage.Owes hit.process hit.matcher.appID

/-- A sweep passes over no process that it should stop and that has not been tried since it began,
nor does it end before the guard has.  At its end it drops no entry of a reported process that still
runs or waits for a loop.  And what a claim takes from another application is not a process that
it was claimed for before. -/
def State.Careful (machine : Machine) (state : State) : Label → Prop
  | .next loop => ∀ hit ∈ (state.worker loop).pending.head?,
      if state.Skips loop hit then
        loop = .sweep → hit.matcher.blocks = true → state.Alive hit.process →
          state.TriedSince hit ∨ state.GuardOwes hit
      else (state.reported hit.process.pid).isSome = true → hit.claim ∉ state.claims
  | .sweepEnd => ∀ sweep ∈ state.sweep,
      (∀ hit ∈ sweep.blocked machine, state.GuardOwes hit → state.Alive hit.process →
        state.TriedSince hit) ∧
      ∀ claim ∈ state.claims, claim.process.pid ∈ sweep.listed.map (·.process.pid) ∨
        state.Over claim.process
  | _ => True

def State.Issued (state : State) (process : Incarnation) : Prop :=
  process.generation ≤ state.generation process.pid

/-- Processes end for good, and the watcher looks only at those that run or that it has seen. -/
structure State.Follows (state next : State) : Prop where
  generation : ∀ pid, state.generation pid ≤ next.generation pid
  alive : ∀ process, state.Issued process → next.Alive process → state.Alive process
  waiting : ∀ hit ∈ next.waiting, hit ∈ state.waiting ∨ state.Alive hit.process
  claims : ∀ claim ∈ next.claims,
    claim ∈ state.claims ∨ ∃ hit ∈ state.waiting, hit.claim = claim
  listed : ∀ sweep ∈ next.sweep,
    sweep ∈ state.sweep ∨ ∀ seen ∈ sweep.listed, state.Alive seen.process

section Workers

variable {worker : Worker}

@[simp]
theorem worker_setWorker_self : (state.setWorker loop worker).worker loop = worker := by
  simp [State.setWorker]

theorem worker_setWorker_of_ne {other : Loop} (differs : other ≠ loop) :
    (state.setWorker loop worker).worker other = state.worker other := by
  simp [State.setWorker, differs]

theorem mem_waiting : hit ∈ state.waiting ↔ ∃ loop, hit ∈ (state.worker loop).pending := by
  rw [State.waiting, List.mem_append]
  constructor
  · rintro (mem | mem)
    · exact ⟨.sweep, mem⟩
    · exact ⟨.guard, mem⟩
  · rintro ⟨loop, mem⟩
    cases loop with
    | sweep => exact .inl mem
    | guard => exact .inr mem

theorem mem_waiting_setWorker : hit ∈ (state.setWorker loop worker).waiting →
    hit ∈ worker.pending ∨ hit ∈ state.waiting := by
  intro mem
  obtain ⟨other, mem⟩ := mem_waiting.mp mem
  by_cases same : other = loop
  · subst same
    rw [worker_setWorker_self] at mem
    exact .inl mem
  · rw [worker_setWorker_of_ne same] at mem
    exact .inr (mem_waiting.mpr ⟨other, mem⟩)

end Workers

theorem next_cases (stepped : state.next loop = some next) : ∃ hit pending,
    state.worker loop = ⟨hit :: pending, .idle⟩ ∧
      (state.Skips loop hit ∧ next = state.setWorker loop ⟨pending, .idle⟩ ∨
        ¬state.Skips loop hit ∧ ∃ recent,
          next = { (state.claim hit).setWorker loop ⟨pending,
            if hit.matcher.blocks then .frozen hit else .terminating hit [] false []⟩ with
              recent := recent }) := by
  rw [State.next] at stepped
  split at stepped
  · rename_i hit pending current
    refine ⟨hit, pending, current, ?_⟩
    by_cases skips : state.Skips loop hit
    · rw [if_pos skips] at stepped
      exact .inl ⟨skips, (Option.some.inj stepped).symm⟩
    · rw [if_neg skips] at stepped
      exact .inr ⟨skips, _, (Option.some.inj stepped).symm⟩
  · cases stepped

variable {listing : List Pid}

theorem family_cases (stepped : state.family machine loop listing = some next) :
    ∃ hit pending others, state.worker loop = ⟨pending, .frozen hit⟩ ∧
      next = state.setWorker loop
        ⟨pending, .terminating hit (hit.process.pid :: others) false []⟩ := by
  rw [State.family] at stepped
  split at stepped
  · rename_i pending hit current
    exact ⟨hit, pending, _, current, (Option.some.inj stepped).symm⟩
  · cases stepped

variable {dies : Bool}

theorem terminate_cases (stepped : state.terminate loop dies = some next) :
    ∃ hit pending pid rest terminated related,
      state.worker loop = ⟨pending, .terminating hit (pid :: rest) terminated related⟩ ∧
      ∃ terminated' related',
        (state.live pid = none ∧
          next = state.setWorker loop ⟨pending, .terminating hit rest terminated' related'⟩ ∨
        (state.live pid).isSome = true ∧ ∃ died : Bool,
          next = { state.setWorker loop ⟨pending, .terminating hit rest terminated' related'⟩ with
            live := if died then Function.update state.live pid none else state.live
            attempts := state.attempts ++ [⟨state.incarnation pid, hit.matcher, died⟩] }) := by
  rw [State.terminate] at stepped
  split at stepped
  · rename_i pending hit pid rest terminated related current
    refine ⟨hit, pending, pid, rest, terminated, related, current, ?_⟩
    split at stepped
    · rename_i gone
      exact ⟨terminated, related, .inl ⟨gone, (Option.some.inj stepped).symm⟩⟩
    · rename_i image running
      have isLive : (state.live pid).isSome = true := by simp [running]
      by_cases isTarget : pid = hit.process.pid
      · simp only [if_pos isTarget] at stepped
        exact ⟨_, _, .inr ⟨isLive, _, (Option.some.inj stepped).symm⟩⟩
      · simp only [if_neg isTarget] at stepped
        exact ⟨_, _, .inr ⟨isLive, _, (Option.some.inj stepped).symm⟩⟩
  · cases stepped

theorem finish_cases (stepped : state.finish loop = some next) :
    ∃ hit pending terminated related,
      state.worker loop = ⟨pending, .terminating hit [] terminated related⟩ ∧
      next = { state.setWorker loop ⟨pending, .idle⟩ with
        reported := fun pid =>
          if pid ∈ related.map (·.pid) then some hit.matcher.appID else state.reported pid
        reports := state.reports ++ [(hit.claim, hit.report terminated)] } := by
  rw [State.finish] at stepped
  split at stepped
  · rename_i pending hit terminated related current
    exact ⟨hit, pending, terminated, related, current, (Option.some.inj stepped).symm⟩
  · cases stepped

theorem endSweep_cases (stepped : state.endSweep = some next) :
    ∃ sweep, state.sweep = some sweep ∧ state.worker .sweep = .free ∧
      next = { state with
        reported := fun pid =>
          if pid ∈ sweep.listed.map (·.process.pid) then state.reported pid else none
        sweep := none } := by
  rw [State.endSweep] at stepped
  split at stepped
  · rename_i sweep current
    split_ifs at stepped with free
    exact ⟨sweep, current, free, (Option.some.inj stepped).symm⟩
  · cases stepped

theorem beginSweep_cases (stepped : state.beginSweep machine listing = some next) :
    state.sweep = none ∧ state.worker .sweep = .free ∧ (next = state ∨
      ∃ sweep : Sweep, sweep.begun = state.attempts.length ∧
        (∀ seen ∈ sweep.listed, state.Alive seen.process) ∧
        next = { state.setWorker .sweep ⟨(sweep.listed.filter fun seen =>
            seen.process.pid ≠ machine.ownPid).filterMap (machine.hit sweep.matchers), .idle⟩ with
          sweep := some sweep }) := by
  rw [State.beginSweep] at stepped
  split_ifs at stepped with free off
  · exact ⟨Option.isNone_iff_eq_none.mp free.1, free.2, .inl (Option.some.inj stepped).symm⟩
  · refine ⟨Option.isNone_iff_eq_none.mp free.1, free.2, .inr ?_⟩
    refine ⟨⟨_, state.matchers, state.attempts.length⟩, rfl, ?_, (Option.some.inj stepped).symm⟩
    intro seen mem
    obtain ⟨proc, listed, rfl⟩ := List.mem_map.mp mem
    obtain ⟨pid, -, found⟩ := List.mem_filterMap.mp listed
    obtain ⟨image, running, rfl⟩ := Option.map_eq_some_iff.mp found
    exact ⟨by simp [State.sighting, State.incarnation, running], rfl⟩

variable {pid : Pid}

theorem alive_of_pidPath {unreadable : List Pid} {path : List Char}
    (found : state.pidPath unreadable pid = some path) : state.Alive (state.incarnation pid) := by
  rw [State.pidPath] at found
  split_ifs at found
  obtain ⟨image, running, -⟩ := Option.map_eq_some_iff.mp found
  exact ⟨by simp [State.incarnation, running], rfl⟩

variable {current unreadable : List Pid}

theorem alive_of_fresh {candidate : Pid × List Char}
    (mem : candidate ∈ state.freshCandidates machine current unreadable) :
    state.Alive (state.incarnation candidate.1) := by
  obtain ⟨pid, -, found⟩ := List.mem_filterMap.mp mem
  split_ifs at found
  obtain ⟨path, readable, rfl⟩ := Option.map_eq_some_iff.mp found
  exact alive_of_pidPath readable

theorem alive_of_changed {recent : Pid → Option (List Char × ℕ)} {candidate : Pid × List Char}
    (mem : candidate ∈ state.changedCandidates recent current unreadable) :
    state.Alive (state.incarnation candidate.1) := by
  obtain ⟨pid, -, found⟩ := List.mem_filterMap.mp mem
  obtain ⟨⟨seen, left⟩, -, found⟩ := Option.bind_eq_some_iff.mp found
  dsimp only at found
  split_ifs at found
  obtain ⟨path, readable, found⟩ := Option.bind_eq_some_iff.mp found
  split_ifs at found
  cases found
  exact alive_of_pidPath readable

theorem process_of_hit {matchers : List Matcher} {seen : Sighting}
    (found : machine.hit matchers seen = some hit) : hit.process = seen.process := by
  obtain ⟨matcher, -, rfl⟩ := Option.map_eq_some_iff.mp found
  rfl

theorem guardPass_cases (stepped : state.guardPass machine current unreadable = some next) :
    state.worker .guard = .free ∧ ∃ known recent,
      (next = { state with known := known, recent := recent } ∨
        ∃ hits, (∀ hit ∈ hits, state.Alive hit.process) ∧
          next = { state.setWorker .guard ⟨hits, .idle⟩ with
            known := known, recent := recent }) := by
  rw [State.guardPass] at stepped
  split_ifs at stepped with free empty first
  · exact ⟨free.1, state.known, state.recent, .inl (Option.some.inj stepped).symm⟩
  · exact ⟨free.1, _, _, .inl (Option.some.inj stepped).symm⟩
  dsimp only at stepped
  split_ifs at stepped
  · exact ⟨free.1, _, _, .inl (Option.some.inj stepped).symm⟩
  · refine ⟨free.1, _, _, .inr ⟨_, ?_, (Option.some.inj stepped).symm⟩⟩
    intro hit mem
    obtain ⟨candidate, isCandidate, found⟩ := List.mem_filterMap.mp mem
    rw [process_of_hit found]
    rcases List.mem_append.mp isCandidate with fresh | changed
    · exact alive_of_fresh fresh
    · exact alive_of_changed changed

def Label.External : Label → Bool
  | .start _ _ | .become _ _ | .exit _ | .gate _ | .refresh _ => true
  | _ => false

structure State.Aside (state next : State) : Prop where
  worker : next.worker = state.worker
  sweep : next.sweep = state.sweep
  reported : next.reported = state.reported
  claims : next.claims = state.claims
  attempts : next.attempts = state.attempts
  reports : next.reports = state.reports

variable {label : Label}

theorem aside_of_external (external : label.External = true)
    (stepped : state.step machine label = some next) : state.Aside next := by
  cases label with
  | start pid image =>
    simp only [State.step, State.start] at stepped
    split_ifs at stepped
    obtain rfl := Option.some.inj stepped
    exact ⟨rfl, rfl, rfl, rfl, rfl, rfl⟩
  | become pid image =>
    simp only [State.step, State.become] at stepped
    split_ifs at stepped
    obtain rfl := Option.some.inj stepped
    exact ⟨rfl, rfl, rfl, rfl, rfl, rfl⟩
  | exit pid | gate gate =>
    obtain rfl := Option.some.inj stepped
    exact ⟨rfl, rfl, rfl, rfl, rfl, rfl⟩
  | refresh applications =>
    simp only [State.step, State.refresh] at stepped
    split_ifs at stepped
    obtain rfl := Option.some.inj stepped
    exact ⟨rfl, rfl, rfl, rfl, rfl, rfl⟩
  | sweep | guardPass | next | family | terminate | finish | sweepEnd => cases external

theorem waiting_of_worker_eq (same : next.worker = state.worker) :
    ∀ hit ∈ next.waiting, hit ∈ state.waiting ∨ state.Alive hit.process := by
  intro hit mem
  rw [State.waiting, same] at mem
  exact .inl mem

theorem State.Aside.follows (aside : state.Aside next)
    (generation : ∀ pid, state.generation pid ≤ next.generation pid)
    (alive : ∀ process, state.Issued process → next.Alive process → state.Alive process) :
    state.Follows next where
  generation := generation
  alive := alive
  waiting := waiting_of_worker_eq aside.worker
  claims _ mem := .inl (aside.claims ▸ mem)
  listed _ mem := .inl (aside.sweep ▸ mem)

theorem follows_of_live_eq (live : next.live = state.live)
    (generation : next.generation = state.generation)
    (waiting : ∀ hit ∈ next.waiting, hit ∈ state.waiting ∨ state.Alive hit.process)
    (claims : ∀ claim ∈ next.claims,
      claim ∈ state.claims ∨ ∃ hit ∈ state.waiting, hit.claim = claim)
    (listed : ∀ sweep ∈ next.sweep,
      sweep ∈ state.sweep ∨ ∀ seen ∈ sweep.listed, state.Alive seen.process) :
    state.Follows next where
  generation pid := by rw [generation]
  alive process _ runs := by simpa only [State.Alive, live, generation] using runs
  waiting := waiting
  claims := claims
  listed := listed

theorem follows_of_start {image : Image} (stepped : state.start pid image = some next) :
    state.Follows next := by
  rw [State.start] at stepped
  split_ifs at stepped
  obtain rfl := Option.some.inj stepped
  refine State.Aside.follows ⟨rfl, rfl, rfl, rfl, rfl, rfl⟩ ?_ ?_
  · intro other
    by_cases same : other = pid
    · simp [same]
    · simp [same]
  · rintro ⟨other, generation⟩ issued ⟨running, current⟩
    by_cases same : other = pid
    · subst same
      simp only [Function.update_self] at current
      simp only [State.Issued] at issued
      omega
    · simp only [Function.update_of_ne same] at running current
      exact ⟨running, current⟩

theorem follows_of_become {image : Image}
    (stepped : state.become pid image = some next) : state.Follows next := by
  rw [State.become] at stepped
  split_ifs at stepped with runs
  obtain rfl := Option.some.inj stepped
  refine State.Aside.follows ⟨rfl, rfl, rfl, rfl, rfl, rfl⟩ (fun _ => le_rfl) ?_
  rintro ⟨other, generation⟩ - ⟨running, current⟩
  by_cases same : other = pid
  · exact ⟨same ▸ runs, current⟩
  · simp only [Function.update_of_ne same] at running
    exact ⟨running, current⟩

theorem alive_of_end {live : Pid → Option Image}
    (ends : live = state.live ∨ live = Function.update state.live pid none)
    (running : (live process.pid).isSome = true) : (state.live process.pid).isSome = true := by
  rcases ends with rfl | rfl
  · exact running
  · by_cases same : process.pid = pid
    · simp [same] at running
    · simpa only [Function.update_of_ne same] using running

theorem follows_of_exit : state.Follows (state.exit pid) := by
  refine State.Aside.follows ⟨rfl, rfl, rfl, rfl, rfl, rfl⟩ (fun _ => le_rfl) ?_
  rintro process - ⟨running, current⟩
  exact ⟨alive_of_end (.inr rfl) running, current⟩

variable {worker : Worker}

theorem waiting_of_setWorker (pending : ∀ hit ∈ worker.pending, hit ∈ (state.worker loop).pending) :
    ∀ hit ∈ (state.setWorker loop worker).waiting, hit ∈ state.waiting ∨ state.Alive hit.process := by
  intro hit mem
  rcases mem_waiting_setWorker mem with mem | mem
  · exact .inl (mem_waiting.mpr ⟨loop, pending hit mem⟩)
  · exact .inl mem

theorem follows_of_next (stepped : state.next loop = some next) : state.Follows next := by
  obtain ⟨hit, pending, current, ⟨-, rfl⟩ | ⟨-, recent, rfl⟩⟩ := next_cases stepped
  · refine follows_of_live_eq rfl rfl ?_ (fun _ mem => .inl mem) (fun _ mem => .inl mem)
    apply waiting_of_setWorker
    intro other mem
    rw [current]
    exact List.mem_cons_of_mem _ mem
  · refine follows_of_live_eq rfl rfl ?_ ?_ (fun _ mem => .inl mem)
    · apply waiting_of_setWorker
      intro other mem
      change other ∈ (state.worker loop).pending
      rw [current]
      exact List.mem_cons_of_mem _ mem
    · intro claim mem
      rcases List.mem_cons.mp mem with rfl | before
      · refine .inr ⟨hit, mem_waiting.mpr ⟨loop, ?_⟩, rfl⟩
        rw [current]
        exact List.mem_cons_self
      · exact .inl before

theorem follows_of_family
    (stepped : state.family machine loop listing = some next) : state.Follows next := by
  obtain ⟨hit, pending, others, current, rfl⟩ := family_cases stepped
  refine follows_of_live_eq rfl rfl ?_ (fun _ mem => .inl mem) (fun _ mem => .inl mem)
  apply waiting_of_setWorker
  intro other mem
  rwa [current]

theorem follows_of_terminate (stepped : state.terminate loop dies = some next) :
    state.Follows next := by
  obtain ⟨hit, pending, pid, rest, terminated, related, current, terminated', related',
    ⟨-, rfl⟩ | ⟨-, died, rfl⟩⟩ := terminate_cases stepped
  · refine follows_of_live_eq rfl rfl ?_ (fun _ mem => .inl mem) (fun _ mem => .inl mem)
    apply waiting_of_setWorker
    intro other mem
    rwa [current]
  · refine ⟨fun _ => le_rfl, ?_, ?_, fun _ mem => .inl mem, fun _ mem => .inl mem⟩
    · rintro process - ⟨running, same⟩
      refine ⟨@alive_of_end _ _ pid _ ?_ running, same⟩
      cases died with
      | true => exact .inr rfl
      | false => exact .inl rfl
    · apply waiting_of_setWorker
      intro other mem
      rwa [current]

theorem follows_of_finish (stepped : state.finish loop = some next) : state.Follows next := by
  obtain ⟨hit, pending, terminated, related, current, rfl⟩ := finish_cases stepped
  refine follows_of_live_eq rfl rfl ?_ (fun _ mem => .inl mem) (fun _ mem => .inl mem)
  apply waiting_of_setWorker
  intro other mem
  rwa [current]

theorem follows_of_beginSweep
    (stepped : state.beginSweep machine listing = some next) : state.Follows next := by
  obtain ⟨-, -, rfl | ⟨sweep, -, listed, rfl⟩⟩ := beginSweep_cases stepped
  · exact follows_of_live_eq rfl rfl (waiting_of_worker_eq rfl) (fun _ mem => .inl mem)
      (fun _ mem => .inl mem)
  · refine follows_of_live_eq rfl rfl ?_ (fun _ mem => .inl mem) ?_
    · intro hit mem
      rcases mem_waiting_setWorker mem with mem | mem
      · obtain ⟨seen, isSeen, found⟩ := List.mem_filterMap.mp mem
        rw [process_of_hit found]
        exact .inr (listed seen (List.mem_of_mem_filter isSeen))
      · exact .inl mem
    · intro other mem
      cases Option.some.inj mem
      exact .inr listed

theorem follows_of_guardPass
    (stepped : state.guardPass machine current unreadable = some next) : state.Follows next := by
  obtain ⟨-, known, recent, rfl | ⟨hits, alive, rfl⟩⟩ := guardPass_cases stepped
  · exact follows_of_live_eq rfl rfl (waiting_of_worker_eq rfl) (fun _ mem => .inl mem)
      (fun _ mem => .inl mem)
  · refine follows_of_live_eq rfl rfl ?_ (fun _ mem => .inl mem) (fun _ mem => .inl mem)
    intro hit mem
    rcases mem_waiting_setWorker mem with mem | mem
    · exact .inr (alive hit mem)
    · exact .inl mem

theorem follows_of_endSweep (stepped : state.endSweep = some next) : state.Follows next := by
  obtain ⟨sweep, -, -, rfl⟩ := endSweep_cases stepped
  refine follows_of_live_eq rfl rfl (waiting_of_worker_eq rfl) (fun _ mem => .inl mem) ?_
  intro other mem
  cases mem

theorem follows_of_step (stepped : state.step machine label = some next) :
    state.Follows next := by
  cases label with
  | start pid image => exact follows_of_start stepped
  | become pid image => exact follows_of_become stepped
  | exit pid =>
    obtain rfl := Option.some.inj stepped
    exact follows_of_exit
  | gate gate =>
    have aside := aside_of_external rfl stepped
    obtain rfl := Option.some.inj stepped
    exact aside.follows (fun _ => le_rfl) fun _ _ runs => runs
  | refresh applications =>
    have aside := aside_of_external rfl stepped
    simp only [State.step, State.refresh] at stepped
    split_ifs at stepped
    obtain rfl := Option.some.inj stepped
    exact aside.follows (fun _ => le_rfl) fun _ _ runs => runs
  | sweep listing => exact follows_of_beginSweep stepped
  | guardPass current unreadable => exact follows_of_guardPass stepped
  | next loop => exact follows_of_next stepped
  | family loop listing => exact follows_of_family stepped
  | terminate loop dies => exact follows_of_terminate stepped
  | finish loop => exact follows_of_finish stepped
  | sweepEnd => exact follows_of_endSweep stepped

structure State.Known (state : State) : Prop where
  waiting : ∀ hit ∈ state.waiting, state.Issued hit.process
  claims : ∀ claim ∈ state.claims, state.Issued claim.process
  listed : ∀ sweep ∈ state.sweep, ∀ seen ∈ sweep.listed, state.Issued seen.process

theorem State.Issued.follow (issued : state.Issued process) (follows : state.Follows next) :
    next.Issued process :=
  le_trans issued (follows.generation _)

theorem State.Alive.issued (alive : state.Alive process) : state.Issued process := alive.2.ge

theorem State.Known.follow (known : state.Known) (follows : state.Follows next) : next.Known where
  waiting hit mem := by
    rcases follows.waiting hit mem with before | alive
    · exact (known.waiting hit before).follow follows
    · exact alive.issued.follow follows
  claims claim mem := by
    rcases follows.claims claim mem with before | ⟨hit, waits, rfl⟩
    · exact (known.claims claim before).follow follows
    · exact (known.waiting hit waits).follow follows
  listed sweep mem seen isListed := by
    rcases follows.listed sweep mem with before | alive
    · exact (known.listed sweep before seen isListed).follow follows
    · exact (alive seen isListed).issued.follow follows

theorem State.Over.follow (isOver : state.Over process) (issued : state.Issued process)
    (follows : state.Follows next) : next.Over process := by
  refine ⟨fun alive => isOver.1 (follows.alive process issued alive), ?_⟩
  intro hit mem same
  rcases follows.waiting hit mem with before | alive
  · exact isOver.2 hit before same
  · exact isOver.1 (same ▸ alive)

def State.Sees (state : State) (begun : ℕ) (hit : Hit) : Prop :=
  hit ∈ (state.worker .sweep).pending ∨
    (∃ loop, (state.worker loop).stage.Owes hit.process hit.matcher.appID) ∨
      Tried (state.attempts.drop begun) hit.process hit.matcher.appID

def State.Covers (machine : Machine) (state : State) : Prop :=
  ∀ sweep ∈ state.sweep, sweep.begun ≤ state.attempts.length ∧
    ∀ hit ∈ sweep.blocked machine, state.Alive hit.process → state.Sees sweep.begun hit

theorem Tried.mono {attempts more : List Attempt} {appID : String}
    (tried : Tried attempts process appID) (subset : attempts ⊆ more) : Tried more process appID := by
  obtain ⟨attempt, mem, onIt⟩ := tried
  exact ⟨attempt, subset mem, onIt⟩

theorem issued_of_blocked {sweep : Sweep} (known : state.Known) (current : sweep ∈ state.sweep)
    (mem : hit ∈ sweep.blocked machine) : state.Issued hit.process := by
  obtain ⟨seen, isSeen, found⟩ := List.mem_filterMap.mp (List.mem_of_mem_filter mem)
  rw [process_of_hit found]
  exact known.listed sweep current seen (List.mem_of_mem_filter isSeen)

theorem State.Sees.move {begun : ℕ} (sees : state.Sees begun hit)
    (moved : next.worker = Function.update state.worker loop worker)
    (attempts : ∃ more, next.attempts = state.attempts ++ more)
    (bound : begun ≤ state.attempts.length)
    (pending : loop = .sweep → hit ∈ (state.worker loop).pending → next.Sees begun hit)
    (owed : (state.worker loop).stage.Owes hit.process hit.matcher.appID → next.Sees begun hit) :
    next.Sees begun hit := by
  have others : ∀ other, other ≠ loop → next.worker other = state.worker other := by
    intro other differs
    rw [moved, Function.update_of_ne differs]
  rcases sees with mem | ⟨other, owes⟩ | tried
  · by_cases same : loop = .sweep
    · exact pending same (same ▸ mem)
    · exact .inl (by rwa [others .sweep (Ne.symm same)])
  · by_cases same : other = loop
    · exact owed (same ▸ owes)
    · exact .inr (.inl ⟨other, by rwa [others other same]⟩)
  · obtain ⟨more, grown⟩ := attempts
    refine .inr (.inr (tried.mono ?_))
    rw [grown, List.drop_append_of_le_length bound]
    exact List.subset_append_left _ _

section

variable (covers : state.Covers machine)

include covers

section

variable (known : state.Known)

include known

theorem State.Covers.follow (follows : state.Follows next) (sweep : next.sweep = state.sweep)
    (attempts : state.attempts.length ≤ next.attempts.length)
    (sees : ∀ sweep ∈ state.sweep, ∀ hit ∈ sweep.blocked machine, state.Alive hit.process →
      sweep.begun ≤ state.attempts.length → state.Sees sweep.begun hit →
        next.Sees sweep.begun hit) : next.Covers machine := by
  intro current mem
  rw [sweep] at mem
  obtain ⟨bound, covered⟩ := covers current mem
  refine ⟨bound.trans attempts, ?_⟩
  intro hit blocked alive
  have before := follows.alive _ (issued_of_blocked known mem blocked) alive
  exact sees current mem hit blocked before bound (covered hit blocked before)

theorem covers_of_watcher_eq (follows : state.Follows next) (sweep : next.sweep = state.sweep)
    (worker : next.worker = state.worker) (attempts : next.attempts = state.attempts) :
    next.Covers machine := by
  apply covers.follow known follows sweep (by rw [attempts])
  intro current _ hit _ _ _ sees
  simpa only [State.Sees, worker, attempts] using sees

theorem covers_of_next
    (careful : state.Careful machine (.next loop)) (stepped : state.next loop = some next) :
    next.Covers machine := by
  have follows := follows_of_next stepped
  obtain ⟨head, pending, current, ⟨skips, rfl⟩ | ⟨skips, recent, rfl⟩⟩ := next_cases stepped
  · apply covers.follow known follows rfl le_rfl
    intro sweep isCurrent hit blocked alive bound sees
    apply sees.move rfl ⟨[], by simp [State.setWorker]⟩ bound
    · rintro rfl mem
      rw [current] at mem
      rcases List.mem_cons.mp mem with rfl | later
      · have spared := careful hit (by rw [current]; rfl)
        rw [if_pos skips] at spared
        rcases spared rfl (List.mem_filter.mp blocked).2 alive with ⟨other, same, tried⟩ | owes
        · cases Option.mem_unique same isCurrent
          exact .inr (.inr tried)
        · refine .inr (.inl ⟨.guard, ?_⟩)
          rwa [worker_setWorker_of_ne (by decide)]
      · refine .inl ?_
        rwa [worker_setWorker_self]
    · intro owes
      rw [current] at owes
      cases owes
  · apply covers.follow known follows rfl le_rfl
    intro sweep isCurrent hit blocked alive bound sees
    apply sees.move rfl ⟨[], by simp [State.setWorker, State.claim]⟩ bound
    · rintro rfl mem
      rw [current] at mem
      rcases List.mem_cons.mp mem with rfl | later
      · have blocks : hit.matcher.blocks = true := (List.mem_filter.mp blocked).2
        refine .inr (.inl ⟨.sweep, ?_⟩)
        simp [State.setWorker, blocks, Stage.Owes]
      · refine .inl ?_
        simpa [State.setWorker] using later
    · intro owes
      rw [current] at owes
      cases owes

theorem covers_of_family
    (stepped : state.family machine loop listing = some next) : next.Covers machine := by
  have follows := follows_of_family stepped
  obtain ⟨frozen, pending, others, current, rfl⟩ := family_cases stepped
  apply covers.follow known follows rfl le_rfl
  intro sweep isCurrent hit blocked alive bound sees
  apply sees.move rfl ⟨[], by simp [State.setWorker]⟩ bound
  · rintro rfl mem
    refine .inl ?_
    rw [worker_setWorker_self]
    rwa [current] at mem
  · intro owes
    rw [current] at owes
    refine .inr (.inl ⟨loop, ?_⟩)
    rw [worker_setWorker_self]
    exact ⟨owes, by simp [← owes.1]⟩

theorem covers_of_terminate
    (stepped : state.terminate loop dies = some next) : next.Covers machine := by
  have follows := follows_of_terminate stepped
  obtain ⟨target, pending, pid, rest, terminated, related, current, terminated', related',
    ⟨gone, rfl⟩ | ⟨running, died, rfl⟩⟩ := terminate_cases stepped
  · apply covers.follow known follows rfl le_rfl
    intro sweep isCurrent hit blocked alive bound sees
    apply sees.move rfl ⟨[], by simp [State.setWorker]⟩ bound
    · rintro rfl mem
      refine .inl ?_
      rw [worker_setWorker_self]
      rwa [current] at mem
    · intro owes
      rw [current] at owes
      rcases List.mem_cons.mp owes.2 with same | later
      · have runs := alive.1
        rw [same, gone] at runs
        cases runs
      · refine .inr (.inl ⟨loop, ?_⟩)
        rw [worker_setWorker_self]
        exact ⟨owes.1, later⟩
  · apply covers.follow known follows rfl (by simp)
    intro sweep isCurrent hit blocked alive bound sees
    apply sees.move rfl ⟨_, rfl⟩ bound
    · rintro rfl mem
      refine .inl ?_
      rw [current] at mem
      simpa [State.setWorker] using mem
    · intro owes
      rw [current] at owes
      rcases List.mem_cons.mp owes.2 with same | later
      · have isTarget : state.incarnation pid = hit.process := by
          rw [State.incarnation, ← same, alive.2]
        refine .inr (.inr ⟨⟨state.incarnation pid, target.matcher, died⟩, ?_, isTarget, owes.1.2⟩)
        rw [List.drop_append_of_le_length bound]
        exact List.mem_append_right _ List.mem_cons_self
      · refine .inr (.inl ⟨loop, ?_⟩)
        simpa [State.setWorker, Stage.Owes] using And.intro owes.1 later

theorem covers_of_finish (stepped : state.finish loop = some next) : next.Covers machine := by
  have follows := follows_of_finish stepped
  obtain ⟨target, pending, terminated, related, current, rfl⟩ := finish_cases stepped
  apply covers.follow known follows rfl le_rfl
  intro sweep isCurrent hit blocked alive bound sees
  apply sees.move rfl ⟨[], by simp [State.setWorker]⟩ bound
  · rintro rfl mem
    refine .inl ?_
    rw [current] at mem
    simpa [State.setWorker] using mem
  · intro owes
    rw [current] at owes
    cases owes.2

theorem covers_of_guardPass {present unreadable : List Pid}
    (stepped : state.guardPass machine present unreadable = some next) :
    next.Covers machine := by
  have follows := follows_of_guardPass stepped
  obtain ⟨free, _, _, rfl | ⟨hits, -, rfl⟩⟩ := guardPass_cases stepped
  · exact covers_of_watcher_eq covers known follows rfl rfl rfl
  · apply covers.follow known follows rfl le_rfl
    intro sweep isCurrent hit blocked alive bound sees
    apply sees.move rfl ⟨[], by simp [State.setWorker]⟩ bound
    · intro isSweep
      cases isSweep
    · intro owes
      rw [free] at owes
      cases owes

end

theorem covers_of_beginSweep
    (stepped : state.beginSweep machine listing = some next) : next.Covers machine := by
  obtain ⟨none, free, rfl | ⟨sweep, begun, listed, rfl⟩⟩ := beginSweep_cases stepped
  · exact covers
  · intro other mem
    cases Option.some.inj mem
    refine ⟨begun.le, ?_⟩
    intro hit blocked alive
    refine .inl ?_
    simpa [State.setWorker] using List.mem_of_mem_filter blocked

theorem covers_of_step {label : Label} (known : state.Known)
    (careful : state.Careful machine label) (stepped : state.step machine label = some next) :
    next.Covers machine := by
  have follows := follows_of_step stepped
  cases label with
  | start | become | exit | gate | refresh =>
    have aside := aside_of_external rfl stepped
    exact covers_of_watcher_eq covers known follows aside.sweep aside.worker aside.attempts
  | sweep listing => exact covers_of_beginSweep covers stepped
  | guardPass current unreadable => exact covers_of_guardPass covers known stepped
  | next loop => exact covers_of_next covers known careful stepped
  | family loop listing => exact covers_of_family covers known stepped
  | terminate loop dies => exact covers_of_terminate covers known stepped
  | finish loop => exact covers_of_finish covers known stepped
  | sweepEnd =>
    obtain ⟨sweep, -, -, rfl⟩ := endSweep_cases stepped
    intro other mem
    cases mem

end

def Stage.claims : Stage → List Claim
  | .idle => []
  | .frozen hit => [hit.claim]
  | .terminating hit _ _ _ => [hit.claim]

def Loop.other : Loop → Loop
  | .sweep => .guard
  | .guard => .sweep

def State.made (state : State) : List Claim :=
  state.reports.map (·.1) ++
    ((state.worker .sweep).stage.claims ++ (state.worker .guard).stage.claims)

/-- A process that was claimed keeps an entry until it is over, be it another application's. -/
structure State.Remembers (state : State) : Prop where
  kept : ∀ claim ∈ state.claims,
    state.Over claim.process ∨ (state.reported claim.process.pid).isSome = true
  nodup : state.made.Nodup
  claimed : state.made ⊆ state.claims

theorem made_perm (state : State) (loop : Loop) : state.made.Perm (state.reports.map (·.1) ++
    ((state.worker loop).stage.claims ++ (state.worker loop.other).stage.claims)) := by
  cases loop with
  | sweep => exact .refl _
  | guard => exact List.perm_append_comm.append_left _

section

variable (moved : next.worker = Function.update state.worker loop worker)

include moved

theorem made_perm_of_move :
    next.made.Perm (next.reports.map (·.1) ++
      (worker.stage.claims ++ (state.worker loop.other).stage.claims)) := by
  have differs : loop.other ≠ loop := by cases loop <;> decide
  have perm := made_perm next loop
  rwa [moved, Function.update_self, Function.update_of_ne differs] at perm

theorem made_perm_of_same
    (reports : next.reports = state.reports)
    (same : worker.stage.claims = (state.worker loop).stage.claims) :
    next.made.Perm state.made := by
  have perm := made_perm_of_move moved
  rw [same, reports] at perm
  exact perm.trans (made_perm state loop).symm

theorem made_perm_of_claim {claim : Claim}
    (reports : next.reports = state.reports) (idle : (state.worker loop).stage.claims = [])
    (taken : worker.stage.claims = [claim]) : next.made.Perm (claim :: state.made) := by
  have before := (made_perm state loop).symm
  have after := made_perm_of_move moved
  rw [idle, List.nil_append] at before
  rw [taken, reports] at after
  exact after.trans (List.perm_middle.trans (before.cons claim))

theorem made_perm_of_report {claim : Claim} {report : BlockReport}
    (reports : next.reports = state.reports ++ [(claim, report)])
    (taken : (state.worker loop).stage.claims = [claim]) (idle : worker.stage.claims = []) :
    next.made.Perm state.made := by
  have before := (made_perm state loop).symm
  have after := made_perm_of_move moved
  rw [taken] at before
  rw [idle, reports] at after
  refine after.trans (List.Perm.trans ?_ before)
  simp

end

section

variable (remembers : state.Remembers)

include remembers

section

variable (known : state.Known)

include known

theorem State.Remembers.follow (follows : state.Follows next) (claims : next.claims = state.claims)
    (made : next.made.Perm state.made)
    (reported : ∀ claim ∈ state.claims, (state.reported claim.process.pid).isSome = true →
      state.Over claim.process ∨ (next.reported claim.process.pid).isSome = true) :
    next.Remembers where
  kept claim mem := by
    rw [claims] at mem
    have issued := known.claims claim mem
    rcases remembers.kept claim mem with isOver | isSome
    · exact .inl (isOver.follow issued follows)
    · rcases reported claim mem isSome with isOver | still
      · exact .inl (isOver.follow issued follows)
      · exact .inr still
  nodup := made.nodup_iff.mpr remembers.nodup
  claimed claim mem := by
    rw [claims]
    exact remembers.claimed (made.subset mem)

theorem remembers_of_next
    (careful : state.Careful machine (.next loop)) (stepped : state.next loop = some next) :
    next.Remembers := by
  have follows := follows_of_next stepped
  obtain ⟨hit, pending, current, ⟨-, rfl⟩ | ⟨skips, recent, isNext⟩⟩ := next_cases stepped
  · apply remembers.follow known follows rfl
    · exact made_perm_of_same rfl rfl (by rw [current])
    · exact fun _ _ isSome => .inr isSome
  have replaced := careful hit (by rw [current]; rfl)
  rw [if_neg skips] at replaced
  have waits : hit ∈ state.waiting := by
    refine mem_waiting.mpr ⟨loop, ?_⟩
    rw [current]
    exact List.mem_cons_self
  -- It is not over while it waits, so an entry remains of whatever it was claimed for.
  have fresh : hit.claim ∉ state.claims := by
    intro before
    rcases remembers.kept _ before with isOver | isSome
    · exact isOver.2 hit waits rfl
    · exact replaced isSome before
  have claims : next.claims = hit.claim :: state.claims := by rw [isNext]; rfl
  have reported : next.reported =
      Function.update state.reported hit.process.pid (some hit.matcher.appID) := by rw [isNext]; rfl
  have made : next.made.Perm (hit.claim :: state.made) := by
    have moved : next.worker = Function.update state.worker loop ⟨pending,
        if hit.matcher.blocks then .frozen hit else .terminating hit [] false []⟩ := by
      rw [isNext]
      rfl
    apply made_perm_of_claim moved
    · rw [isNext]
      rfl
    · rw [current]
      rfl
    · cases hit.matcher.blocks <;> rfl
  refine ⟨?kept, ?nodup, ?claimed⟩
  case kept =>
    intro claim mem
    rw [reported]
    by_cases same : claim.process.pid = hit.process.pid
    · exact .inr (by simp [same])
    · rw [claims] at mem
      rcases List.mem_cons.mp mem with rfl | before
      · exact absurd rfl same
      · rw [Function.update_of_ne same]
        exact (remembers.kept claim before).imp_left fun isOver =>
          isOver.follow (known.claims claim before) follows
  case nodup =>
    rw [made.nodup_iff, List.nodup_cons]
    exact ⟨fun mem => fresh (remembers.claimed mem), remembers.nodup⟩
  case claimed =>
    intro claim mem
    rw [claims]
    rcases List.mem_cons.mp (made.subset mem) with rfl | before
    · exact List.mem_cons_self
    · exact List.mem_cons_of_mem _ (remembers.claimed before)

theorem remembers_of_family
    (stepped : state.family machine loop listing = some next) : next.Remembers := by
  have follows := follows_of_family stepped
  obtain ⟨hit, pending, others, current, rfl⟩ := family_cases stepped
  apply remembers.follow known follows rfl
  · exact made_perm_of_same rfl rfl (by rw [current]; rfl)
  · exact fun _ _ isSome => .inr isSome

theorem remembers_of_terminate
    (stepped : state.terminate loop dies = some next) : next.Remembers := by
  have follows := follows_of_terminate stepped
  obtain ⟨hit, pending, pid, rest, terminated, related, current, terminated', related',
    ⟨-, rfl⟩ | ⟨-, died, rfl⟩⟩ := terminate_cases stepped
  all_goals
    apply remembers.follow known follows rfl
    · exact made_perm_of_same rfl rfl (by rw [current]; rfl)
    · exact fun _ _ isSome => .inr isSome

theorem remembers_of_finish (stepped : state.finish loop = some next) : next.Remembers := by
  have follows := follows_of_finish stepped
  obtain ⟨hit, pending, terminated, related, current, rfl⟩ := finish_cases stepped
  apply remembers.follow known follows rfl
  · exact made_perm_of_report rfl rfl (by rw [current]; rfl) rfl
  · intro claim _ isSome
    refine .inr ?_
    dsimp only
    split_ifs
    · rfl
    · exact isSome

theorem remembers_of_beginSweep (stepped : state.beginSweep machine listing = some next) :
    next.Remembers := by
  have follows := follows_of_beginSweep stepped
  obtain ⟨-, free, rfl | ⟨sweep, -, -, rfl⟩⟩ := beginSweep_cases stepped
  · exact remembers
  · apply remembers.follow known follows rfl
    · exact made_perm_of_same rfl rfl (by rw [free]; rfl)
    · exact fun _ _ isSome => .inr isSome

theorem remembers_of_guardPass {present unreadable : List Pid}
    (stepped : state.guardPass machine present unreadable = some next) :
    next.Remembers := by
  have follows := follows_of_guardPass stepped
  obtain ⟨free, _, _, rfl | ⟨hits, -, rfl⟩⟩ := guardPass_cases stepped
  · exact remembers.follow known follows rfl (.refl _) fun _ _ isSome => .inr isSome
  · apply remembers.follow known follows rfl
    · exact made_perm_of_same rfl rfl (by rw [free]; rfl)
    · exact fun _ _ isSome => .inr isSome

theorem remembers_of_endSweep
    (careful : state.Careful machine .sweepEnd) (stepped : state.endSweep = some next) :
    next.Remembers := by
  have follows := follows_of_endSweep stepped
  obtain ⟨sweep, current, -, rfl⟩ := endSweep_cases stepped
  apply remembers.follow known follows rfl (.refl _)
  intro claim mem isSome
  rcases (careful sweep current).2 claim mem with listed | isOver
  · refine .inr ?_
    dsimp only
    rwa [if_pos listed]
  · exact .inl isOver

theorem remembers_of_step {label : Label}
    (careful : state.Careful machine label) (stepped : state.step machine label = some next) :
    next.Remembers := by
  have follows := follows_of_step stepped
  cases label with
  | start | become | exit | gate | refresh =>
    have aside := aside_of_external rfl stepped
    apply remembers.follow known follows aside.claims
    · rw [State.made, aside.reports, aside.worker]
      exact .refl _
    · exact fun _ _ isSome => .inr (by rwa [aside.reported])
  | sweep listing => exact remembers_of_beginSweep remembers known stepped
  | guardPass current unreadable => exact remembers_of_guardPass remembers known stepped
  | next loop => exact remembers_of_next remembers known careful stepped
  | family loop listing => exact remembers_of_family remembers known stepped
  | terminate loop dies => exact remembers_of_terminate remembers known stepped
  | finish loop => exact remembers_of_finish remembers known stepped
  | sweepEnd => exact remembers_of_endSweep remembers known careful stepped

end

end

structure State.Invariant (machine : Machine) (state : State) : Prop where
  known : state.Known
  covers : state.Covers machine
  remembers : state.Remembers

theorem invariant_initial (machine : Machine) (live : Pid → Option Image) :
    (State.initial live).Invariant machine where
  known := by
    constructor
    · intro hit mem
      cases mem
    · intro claim mem
      cases mem
    · intro sweep mem
      cases mem
  covers sweep mem := by cases mem
  remembers := by
    constructor
    · intro claim mem
      cases mem
    · exact List.nodup_nil
    · exact List.Subset.refl _

theorem invariant_step (holds : state.Invariant machine)
    (careful : state.Careful machine label) (stepped : state.step machine label = some next) :
    next.Invariant machine where
  known := holds.known.follow (follows_of_step stepped)
  covers := covers_of_step holds.covers holds.known careful stepped
  remembers := remembers_of_step holds.remembers holds.known careful stepped

theorem stops_of_invariant (holds : state.Invariant machine)
    (careful : state.Careful machine label) : state.Stops machine label := by
  cases label with
  | sweepEnd =>
    intro sweep current free hit blocked alive
    have since : Tried (state.attempts.drop sweep.begun) hit.process hit.matcher.appID := by
      rcases (holds.covers sweep current).2 hit blocked alive with pending | ⟨loop, owes⟩ | tried
      · rw [free] at pending
        cases pending
      · cases loop with
        | sweep =>
          rw [free] at owes
          cases owes
        | guard =>
          obtain ⟨other, same, tried⟩ := (careful sweep current).1 hit blocked owes alive
          cases Option.mem_unique same current
          exact tried
      · exact tried
    exact ⟨since.mono (List.drop_subset _ _), fun _ => since⟩
  | _ => trivial

/-- In a run all of whose steps are careful, what is blocked is stopped however it came to run, and
nothing is reported twice. -/
theorem blocksHoweverRun_of_careful (machine : Machine) (live : Pid → Option Image)
    (trace : List Label)
    (careful : AllSteps (State.step machine) (State.Careful machine) (.initial live) trace) :
    BlocksHoweverRun machine live trace where
  stops := by
    refine allSteps_of_invariant ?_ ?_ (invariant_initial machine live) careful
    · exact fun _ _ _ holds isCareful stepped => invariant_step holds isCareful stepped
    · exact fun _ _ holds isCareful => stops_of_invariant holds isCareful
  once reached visited := by
    obtain ⟨seen, ⟨rest, rfl⟩, executed⟩ := visited
    have isCareful := ((allSteps_append executed).mp careful).1
    have invariant : reached.Invariant machine := by
      apply invariant_of_allSteps _ (invariant_initial machine live) isCareful executed
      exact fun _ _ _ holds careful stepped => invariant_step holds careful stepped
    exact (List.nodup_append.mp invariant.remembers.nodup).1

section Decidable

variable {attempts : List Attempt} {appID : String}

instance : Decidable (Tried attempts process appID) := inferInstanceAs (Decidable (∃ _ ∈ _, _))

instance : Decidable (Survived attempts process) := inferInstanceAs (Decidable (∃ _ ∈ _, _))

instance : Decidable (state.Alive process) := inferInstanceAs (Decidable (_ ∧ _))

instance : Decidable (state.Over process) := inferInstanceAs (Decidable (_ ∧ _))

instance : (stage : Stage) → Decidable (stage.Owes process appID)
  | .idle => inferInstanceAs (Decidable False)
  | .frozen _ => inferInstanceAs (Decidable (_ ∧ _))
  | .terminating _ _ _ _ => inferInstanceAs (Decidable (_ ∧ _))

instance : Decidable (state.TriedSince hit) := inferInstanceAs (Decidable (∃ _ ∈ _, _))

instance : Decidable (state.GuardOwes hit) := inferInstanceAs (Decidable (Stage.Owes _ _ _))

instance : (label : Label) → Decidable (state.Stops machine label)
  | .sweepEnd => inferInstanceAs (Decidable (∀ _ ∈ _, _))
  | .start _ _ | .become _ _ | .exit _ | .gate _ | .refresh _ | .sweep _ | .guardPass _ _ | .next _
  | .family _ _ | .terminate _ _ | .finish _ => inferInstanceAs (Decidable True)

instance : (label : Label) → Decidable (state.Careful machine label)
  | .next _ => inferInstanceAs (Decidable (∀ _ ∈ _, _))
  | .sweepEnd => inferInstanceAs (Decidable (∀ _ ∈ _, _))
  | .start _ _ | .become _ _ | .exit _ | .gate _ | .refresh _ | .sweep _ | .guardPass _ _
  | .family _ _ | .terminate _ _ | .finish _ => inferInstanceAs (Decidable True)

end Decidable

def plain : Machine := ⟨2, List.map Char.toLower, fun _ => none⟩

def slack (action : String) : Matcher where
  appID := "a1"
  name := "Slack"
  action := action
  processNames := ["Slack".toList]
  bundleIDs := []
  pathPatterns := []

def slackProcess : Image := ⟨1, "/opt/slack/slack".toList, true⟩

def stoppedTwice : List Label :=
  [.start 1 ⟨0, "/sbin/init".toList, false⟩, .start 7 slackProcess, .refresh [slack "block"],
    .guardPass [1, 7] [], .sweep [1, 7], .next .sweep, .family .sweep [1, 7],
    .terminate .sweep true, .finish .sweep, .sweepEnd, .start 8 slackProcess, .guardPass [1, 8] [],
    .next .guard, .family .guard [1, 8], .terminate .guard true, .finish .guard, .sweep [1],
    .sweepEnd]

theorem blocksHoweverRun_stoppedTwice : BlocksHoweverRun plain (fun _ => none) stoppedTwice :=
  blocksHoweverRun_of_careful _ _ _ (allSteps_of_checkSteps (by decide +kernel))

def blockedLater : List Label :=
  [.start 7 slackProcess, .refresh [slack "alert"], .sweep [7], .next .sweep, .finish .sweep,
    .sweepEnd, .refresh [slack "block"], .sweep [7], .next .sweep]

/-- What was reported as an alert is blocked later. -/
theorem not_blocksHoweverRun_blockedLater :
    ¬BlocksHoweverRun plain (fun _ => none) (blockedLater ++ [.sweepEnd]) := by
  intro blocks
  exact not_allSteps_concat (by decide) blocks.stops

end Aavishield.AppWatch
