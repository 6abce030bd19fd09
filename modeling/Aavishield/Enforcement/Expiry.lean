import Aavishield.Enforcement.Gate
import Aavishield.Lib.TransitionSystem
import Aavishield.Schedule.Calendar

/-!
# Verdicts that have ended

A verdict of the server comes with the instant at which it ends, and the agent reckons from it
an instant of its own monotonic clock.  It never looks at that instant again: the gate
answers by the last verdict however old that is.  So a device that stops hearing from the
server during its off-hours stays relaxed.
-/

namespace Aavishield.Enforcement

open TransitionSystem

structure Verdict where
  spec : Option Schedule.Spec
  evaluatedAt : Time
  appliedAt : Time

/-- The gate, with the verdict it was set by. -/
structure State where
  gate : Gate
  now : Time
  verdict : Option Verdict

inductive Action where
  /-- A heartbeat is answered: the server evaluates the device's schedule at its own instant. -/
  | heartbeat (spec : Option Schedule.Spec) (serverNow wallClock : Time)
  | heartbeatFails
  | elapse (duration : ℕ)

variable (env : Schedule.Primitives)

def Verdict.state (verdict : Verdict) : Schedule.State :=
  Schedule.evaluate env verdict.spec verdict.evaluatedAt

def Verdict.mode (verdict : Verdict) : Mode := .ofText (verdict.state env).mode

def Verdict.expiry (verdict : Verdict) : Option Time :=
  (verdict.state env).untilTime.map fun finish =>
    verdict.appliedAt + (finish - verdict.evaluatedAt)

def State.initial (now : Time) : State := ⟨.initial, now, none⟩

/-- Heartbeats come or fail while time passes. -/
def State.step (state : State) : Action → Option State
  | .heartbeat spec serverNow wallClock =>
    let payload := payloadOf (Schedule.evaluate env spec serverNow)
    some { state with
      gate := (state.gate.apply payload (some (some serverNow)) wallClock state.now).1
      verdict := some ⟨spec, serverNow, state.now⟩ }
  | .heartbeatFails => some state
  | .elapse duration => some { state with now := state.now + duration }

/--
Past the end of the last verdict the mode is none that this verdict granted by being relaxed,
and before its end the mode is the verdict's.
-/
def State.Valid (state : State) : Prop :=
  ∀ verdict, state.verdict = some verdict →
    (∀ expiry, verdict.expiry env = some expiry → expiry < state.now →
      ¬state.gate.mode.Relaxed) ∧
    ((∀ expiry, verdict.expiry env = some expiry → state.now < expiry) →
      state.gate.mode = verdict.mode env)

/-- Time does not run past the end of a relaxed verdict without a heartbeat that is answered. -/
def State.Timely (state : State) : Action → Prop
  | .elapse duration =>
    ∀ verdict expiry, state.verdict = some verdict → verdict.expiry env = some expiry →
      (verdict.mode env).Relaxed → state.now + duration ≤ expiry
  | _ => True

/-- What holds along a run: the gate has the mode of the last verdict, whatever the time. -/
structure State.Sound (state : State) : Prop where
  follows : ∀ verdict, state.verdict = some verdict → state.gate.mode = verdict.mode env
  inTime : ∀ verdict expiry, state.verdict = some verdict →
    verdict.expiry env = some expiry → (verdict.mode env).Relaxed →
      state.now ≤ expiry

variable {env} {state next : State} {action : Action}

theorem State.Sound.valid (sound : state.Sound env) : state.Valid env := by
  intro verdict isLast
  constructor
  · intro expiry ends passed relaxed
    rw [sound.follows verdict isLast] at relaxed
    exact absurd (sound.inTime verdict expiry isLast ends relaxed) (Int.not_le.mpr passed)
  · intro _
    exact sound.follows verdict isLast

theorem State.Sound.step (sound : state.Sound env) (timely : state.Timely env action)
    (stepped : state.step env action = some next) : next.Sound env := by
  cases action with
  | heartbeat spec serverNow wallClock =>
    cases stepped
    constructor
    · rintro verdict ⟨rfl⟩
      rfl
    · rintro verdict expiry ⟨rfl⟩ ends _
      rcases Option.map_eq_some_iff.mp ends with ⟨finish, isUntil, rfl⟩
      have later : 0 < finish - serverNow := Int.sub_pos_of_lt (lt_until_of_evaluate isUntil)
      exact Int.le_of_lt (Int.lt_add_of_pos_right state.now later)
  | heartbeatFails =>
    cases stepped
    exact sound
  | elapse duration =>
    cases stepped
    exact ⟨sound.follows, timely⟩

theorem State.Sound.timely_of_valid (sound : state.Sound env)
    (stepped : state.step env action = some next) (valid : next.Valid env) :
    state.Timely env action := by
  cases action with
  | heartbeat spec serverNow wallClock => trivial
  | heartbeatFails => trivial
  | elapse duration =>
    cases stepped
    intro verdict expiry isLast ends relaxed
    by_contra passed
    rw [← sound.follows verdict isLast] at relaxed
    exact (valid verdict isLast).1 expiry ends (Int.not_le.mp passed) relaxed

theorem sound_initial (now : Time) : (State.initial now).Sound env where
  follows _ isLast := by cases isLast
  inTime _ _ isLast := by cases isLast

theorem exists_exec (trace : List Action) :
    ∃ final, exec (State.step env) state trace = some final := by
  apply exec_of_total
  intro state action
  cases action with
  | heartbeat | heartbeatFails | elapse => exact ⟨_, rfl⟩

/--
In a run of an agent from its start, whatever the heartbeats and the gaps between them, the gate
answers by verdicts that are still valid exactly when time never runs past the end of a
relaxed verdict before another heartbeat is answered.
-/
theorem forall_valid_iff_timely (now : Time) (trace : List Action) :
    (∀ reached, Visits (State.step env) (State.initial now) trace reached →
      reached.Valid env) ↔
      AllSteps (State.step env) (State.Timely env) (State.initial now) trace := by
  rcases @exists_exec env (State.initial now) trace with ⟨final, executed⟩
  exact forall_visits_iff_allSteps (fun _ sound => sound.valid)
    (fun _ _ _ sound timely stepped => sound.step timely stepped)
    (fun _ _ _ sound stepped valid => sound.timely_of_valid stepped valid)
    (sound_initial now) executed

/-- Whatever the schedules, the heartbeats and the gaps, the gate's verdict is still valid. -/
def AlwaysValid : Prop :=
  ∀ env now trace reached,
    Visits (State.step env) (State.initial now) trace reached → reached.Valid env

/-- On a Monday at eight the device is paused until nine, and hears nothing until ten. -/
theorem not_alwaysValid : ¬AlwaysValid := by
  intro always
  let spec : Option Schedule.Spec := some (Schedule.mondays [])
  let eight : Time := Schedule.Location.utc.date Schedule.monday (Schedule.clockTime 8 0)
  let heard : State :=
    ⟨(Gate.initial.apply (payloadOf (Schedule.evaluate Schedule.onlyUTC spec eight))
        (some (some eight)) 0 0).1, 0, some ⟨spec, eight, 0⟩⟩
  let later : State := { heard with now := 7200000000000 }
  have visited : Visits (State.step Schedule.onlyUTC) (State.initial 0)
      [.heartbeat spec eight 0, .elapse 7200000000000] later := ⟨_, List.prefix_rfl, rfl⟩
  have ends : Verdict.expiry Schedule.onlyUTC ⟨spec, eight, 0⟩ = some 3600000000000 := by
    decide +kernel
  have paused : heard.gate.mode = .paused := by decide +kernel
  apply (always Schedule.onlyUTC 0 _ later visited _ rfl).1 3600000000000 ends (by decide)
  exact fun isFull => by cases paused.symm.trans isFull

end Aavishield.Enforcement
