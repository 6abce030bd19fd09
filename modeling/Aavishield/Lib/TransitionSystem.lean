import Mathlib.Data.Option.Basic
import Mathlib.Data.List.Basic
import Mathlib.Logic.Function.Basic
import Mathlib.Order.Defs.Unbundled

/-!
# Labelled transition systems

A system is given by a partial step function: `step state label` is the state
after the action `label`, or `none` when the action is not enabled.  An
interleaving of several parties is a trace of labels, so a property of every
interleaving is a property of every trace that `exec` accepts.

The file gives the two induction rules used for such systems.  An invariant
preserved by every step holds after every trace; and an invariant preserved by
the steps that are `allowed` holds after every trace made of allowed steps only.
A third rule is for a property that the other steps destroy.
-/

namespace TransitionSystem

universe u v

variable {State : Type u} {Label : Type v}

/-- The state after a run, if every step can be taken. -/
def exec (step : State → Label → Option State) : State → List Label → Option State
  | state, [] => some state
  | state, label :: rest => (step state label).bind fun next => exec step next rest

/-- At every step of the run, `allowed` holds of the state and the action. -/
def AllSteps (step : State → Label → Option State) (allowed : State → Label → Prop) :
    State → List Label → Prop
  | _, [] => True
  | state, label :: rest =>
    allowed state label ∧ ∀ next, step state label = some next → AllSteps step allowed next rest

/-- At some step of the run, `happens` holds of the state and the action. -/
def SomeStep (step : State → Label → Option State) (happens : State → Label → Prop) :
    State → List Label → Prop
  | _, [] => False
  | state, label :: rest =>
    happens state label ∨ ∃ next, step state label = some next ∧ SomeStep step happens next rest

def Reachable (step : State → Label → Option State) (initial state : State) : Prop :=
  ∃ trace, exec step initial trace = some state

/-- The states that a run of the trace passes through, its first and last among them. -/
def Visits (step : State → Label → Option State) (initial : State) (trace : List Label)
    (reached : State) : Prop :=
  ∃ seen, seen <+: trace ∧ exec step initial seen = some reached

variable {step : State → Label → Option State} {allowed : State → Label → Prop}

@[simp]
theorem exec_nil (state : State) : exec step state [] = some state := rfl

theorem exec_cons_eq_some {state final : State} {label : Label} {rest : List Label} :
    exec step state (label :: rest) = some final ↔
      ∃ next, step state label = some next ∧ exec step next rest = some final := by
  simp [exec, Option.bind_eq_some_iff]

theorem exec_append (state : State) (first second : List Label) :
    exec step state (first ++ second) =
      (exec step state first).bind fun middle => exec step middle second := by
  induction first generalizing state with
  | nil => rfl
  | cons label rest ih =>
    cases stepped : step state label with
    | none => simp [exec, stepped]
    | some next => simp [exec, stepped, ih]

theorem Reachable.refl (state : State) : Reachable step state state := ⟨[], rfl⟩

theorem Reachable.trans {first second third : State} (earlier : Reachable step first second)
    (later : Reachable step second third) : Reachable step first third := by
  rcases earlier with ⟨before, executed⟩
  rcases later with ⟨after, continued⟩
  exact ⟨before ++ after, by simp [exec_append, executed, continued]⟩

theorem Reachable.head {first second third : State} (label : Label)
    (stepped : step first label = some second) (later : Reachable step second third) :
    Reachable step first third := by
  rcases later with ⟨after, continued⟩
  exact ⟨label :: after, exec_cons_eq_some.mpr ⟨second, stepped, continued⟩⟩

@[simp]
theorem allSteps_nil (state : State) : AllSteps step allowed state [] := trivial

theorem allSteps_cons {state next : State} {label : Label} {rest : List Label}
    (stepped : step state label = some next) :
    AllSteps step allowed state (label :: rest) ↔
      allowed state label ∧ AllSteps step allowed next rest := by
  simp [AllSteps, stepped]

theorem allSteps_concat {state middle : State} {label : Label} {trace : List Label}
    (executed : exec step state trace = some middle) :
    AllSteps step allowed state (trace ++ [label]) ↔
      AllSteps step allowed state trace ∧ allowed middle label := by
  induction trace generalizing state with
  | nil =>
    simp only [exec_nil, Option.some.injEq] at executed
    subst middle
    simp [AllSteps]
  | cons first rest ih =>
    obtain ⟨next, stepped, executed⟩ := exec_cons_eq_some.mp executed
    rw [List.cons_append, allSteps_cons stepped, allSteps_cons stepped, ih executed, and_assoc]

theorem allSteps_append {state middle : State} {first second : List Label}
    (executed : exec step state first = some middle) :
    AllSteps step allowed state (first ++ second) ↔
      AllSteps step allowed state first ∧ AllSteps step allowed middle second := by
  induction first generalizing state with
  | nil =>
    cases executed
    simp [AllSteps]
  | cons label rest ih =>
    rcases exec_cons_eq_some.mp executed with ⟨next, stepped, executed⟩
    rw [List.cons_append, allSteps_cons stepped, allSteps_cons stepped, ih executed, and_assoc]

theorem allSteps_of_forall (always : ∀ state label, allowed state label) (state : State)
    (trace : List Label) : AllSteps step allowed state trace := by
  induction trace generalizing state with
  | nil => trivial
  | cons label rest ih => exact ⟨always state label, fun next _ => ih next⟩

theorem AllSteps.mono {weaker : State → Label → Prop} {state : State} {trace : List Label}
    (all : AllSteps step allowed state trace)
    (weaken : ∀ state label, allowed state label → weaker state label) :
    AllSteps step weaker state trace := by
  induction trace generalizing state with
  | nil => trivial
  | cons label rest ih => exact ⟨weaken _ _ all.1, fun next stepped => ih (all.2 next stepped)⟩

theorem allSteps_and {other : State → Label → Prop} {state : State} {trace : List Label} :
    AllSteps step (fun state label => allowed state label ∧ other state label) state trace ↔
      AllSteps step allowed state trace ∧ AllSteps step other state trace := by
  constructor
  · intro all
    exact ⟨all.mono fun _ _ both => both.1, all.mono fun _ _ both => both.2⟩
  · rintro ⟨all, others⟩
    induction trace generalizing state with
    | nil => trivial
    | cons label rest ih =>
      refine ⟨⟨all.1, others.1⟩, fun next stepped => ?_⟩
      exact ih (all.2 next stepped) (others.2 next stepped)

theorem allSteps_enabled {state final : State} {trace : List Label}
    (executed : exec step state trace = some final) :
    AllSteps step (fun state label => ∃ next, step state label = some next) state trace := by
  induction trace generalizing state with
  | nil => trivial
  | cons label rest ih =>
    rcases exec_cons_eq_some.mp executed with ⟨next, stepped, executed⟩
    rw [allSteps_cons stepped]
    exact ⟨⟨next, stepped⟩, ih executed⟩

theorem invariant_of_allSteps {Invariant : State → Prop}
    (preserved : ∀ state label next, Invariant state → allowed state label →
      step state label = some next → Invariant next)
    {state final : State} {trace : List Label} (holds : Invariant state)
    (all : AllSteps step allowed state trace) (executed : exec step state trace = some final) :
    Invariant final := by
  induction trace generalizing state with
  | nil =>
    simp only [exec_nil, Option.some.injEq] at executed
    exact executed ▸ holds
  | cons label rest ih =>
    obtain ⟨next, stepped, executed⟩ := exec_cons_eq_some.mp executed
    exact ih (preserved state label next holds all.1 stepped) (all.2 next stepped) executed

theorem allSteps_of_invariant {Invariant : State → Prop} {property : State → Label → Prop}
    (preserved : ∀ state label next, Invariant state → allowed state label →
      step state label = some next → Invariant next)
    (sound : ∀ state label, Invariant state → allowed state label → property state label)
    {state : State} {trace : List Label} (holds : Invariant state)
    (all : AllSteps step allowed state trace) : AllSteps step property state trace := by
  induction trace generalizing state with
  | nil => trivial
  | cons label rest ih =>
    refine ⟨sound state label holds all.1, fun next stepped => ?_⟩
    exact ih (preserved state label next holds all.1 stepped) (all.2 next stepped)

/-- A run that sets out for something, and ends where it is no longer on the way, got there. -/
theorem someStep_of_exec {Aims : State → Prop} {happens : State → Label → Prop}
    (advances : ∀ state label next, Aims state → allowed state label →
      step state label = some next → happens state label ∨ Aims next)
    {state final : State} {trace : List Label} (aims : Aims state)
    (all : AllSteps step allowed state trace) (executed : exec step state trace = some final)
    (ended : ¬Aims final) : SomeStep step happens state trace := by
  induction trace generalizing state with
  | nil =>
    cases executed
    exact absurd aims ended
  | cons label rest ih =>
    obtain ⟨next, stepped, executed⟩ := exec_cons_eq_some.mp executed
    rcases advances state label next aims all.1 stepped with happened | aims
    · exact Or.inl happened
    · exact Or.inr ⟨next, stepped, ih aims (all.2 next stepped) executed⟩

def checkSteps (step : State → Label → Option State) (allowed : State → Label → Prop)
    [∀ state label, Decidable (allowed state label)] : State → List Label → Bool
  | _, [] => true
  | state, label :: rest =>
    decide (allowed state label) &&
      match step state label with
      | some next => checkSteps step allowed next rest
      | none => false

theorem allSteps_of_checkSteps [∀ state label, Decidable (allowed state label)] {state : State}
    {trace : List Label} (checked : checkSteps step allowed state trace = true) :
    AllSteps step allowed state trace := by
  induction trace generalizing state with
  | nil => trivial
  | cons label rest ih =>
    simp only [checkSteps, Bool.and_eq_true, decide_eq_true_eq] at checked
    refine ⟨checked.1, fun next stepped => ih ?_⟩
    simpa only [stepped] using checked.2

theorem not_allSteps_concat [∀ state label, Decidable (allowed state label)] {state : State}
    {trace : List Label} {label : Label}
    (fails : (exec step state trace).any (fun middle => !decide (allowed middle label)) = true) :
    ¬AllSteps step allowed state (trace ++ [label]) := by
  intro all
  obtain ⟨middle, executed, notAllowed⟩ := (Option.any_eq_true _ _).mp fails
  have isAllowed := ((allSteps_concat executed).mp all).2
  simp [isAllowed] at notAllowed

theorem visits_cons {state next reached : State} {label : Label} {rest : List Label}
    (stepped : step state label = some next) :
    Visits step state (label :: rest) reached ↔ reached = state ∨ Visits step next rest reached := by
  constructor
  · rintro ⟨seen, isPrefix, executed⟩
    rcases List.prefix_cons_iff.mp isPrefix with rfl | ⟨shorter, rfl, shorterPrefix⟩
    · exact .inl (Option.some.inj executed).symm
    · obtain ⟨middle, first, executed⟩ := exec_cons_eq_some.mp executed
      cases stepped.symm.trans first
      exact .inr ⟨shorter, shorterPrefix, executed⟩
  · rintro (rfl | ⟨seen, isPrefix, executed⟩)
    · exact ⟨[], List.nil_prefix, rfl⟩
    · exact ⟨label :: seen, List.prefix_cons_iff.mpr (.inr ⟨seen, rfl, isPrefix⟩),
        exec_cons_eq_some.mpr ⟨next, stepped, executed⟩⟩

/--
When a property follows from an invariant that the allowed steps preserve, and
every step that is not allowed destroys it, the property holds all along a run
exactly when all of the run's steps are allowed.
-/
theorem forall_visits_iff_allSteps {Invariant Property : State → Prop}
    (sound : ∀ state, Invariant state → Property state)
    (preserved : ∀ state label next, Invariant state → allowed state label →
      step state label = some next → Invariant next)
    (exposed : ∀ state label next, Invariant state → step state label = some next →
      Property next → allowed state label)
    {state final : State} {trace : List Label} (holds : Invariant state)
    (executed : exec step state trace = some final) :
    (∀ reached, Visits step state trace reached → Property reached) ↔
      AllSteps step allowed state trace := by
  induction trace generalizing state with
  | nil =>
    simp only [Visits, List.prefix_nil, exists_eq_left, exec_nil, Option.some.injEq,
      forall_eq', allSteps_nil, iff_true]
    exact sound state holds
  | cons label rest ih =>
    obtain ⟨next, stepped, executed⟩ := exec_cons_eq_some.mp executed
    simp only [visits_cons stepped, allSteps_cons stepped, forall_eq_or_imp]
    constructor
    · rintro ⟨-, visited⟩
      have isAllowed := exposed state label next holds stepped
        (visited next ⟨[], List.nil_prefix, rfl⟩)
      exact ⟨isAllowed, (ih (preserved state label next holds isAllowed stepped) executed).mp visited⟩
    · rintro ⟨isAllowed, all⟩
      exact ⟨sound state holds,
        (ih (preserved state label next holds isAllowed stepped) executed).mpr all⟩

theorem exec_of_total (total : ∀ state label, ∃ next, step state label = some next) {state : State}
    (trace : List Label) : ∃ final, exec step state trace = some final := by
  induction trace generalizing state with
  | nil => exact ⟨state, rfl⟩
  | cons label rest ih =>
    rcases total state label with ⟨next, stepped⟩
    rcases @ih next with ⟨final, executed⟩
    exact ⟨final, exec_cons_eq_some.mpr ⟨next, stepped, executed⟩⟩

theorem invariant_of_exec {Invariant : State → Prop}
    (preserved : ∀ state label next, Invariant state →
      step state label = some next → Invariant next)
    {state final : State} {trace : List Label} (holds : Invariant state)
    (executed : exec step state trace = some final) : Invariant final := by
  have unrestricted : AllSteps step (fun _ _ => True) state trace := by
    induction trace generalizing state with
    | nil => trivial
    | cons label rest ih =>
      obtain ⟨next, stepped, executed⟩ := exec_cons_eq_some.mp executed
      rw [allSteps_cons stepped]
      exact ⟨trivial, ih (preserved _ _ _ holds stepped) executed⟩
  exact invariant_of_allSteps (fun state label next holds _ => preserved state label next holds)
    holds unrestricted executed

theorem party_update {Party : Type u} {parties : ℕ → Option Party} {number other : ℕ}
    {moved party : Party} (found : Function.update parties number (some moved) other = some party) :
    other = number ∧ party = moved ∨ other ≠ number ∧ parties other = some party := by
  rw [Function.update_apply] at found
  split_ifs at found with same
  · exact .inl ⟨same, (Option.some.inj found).symm⟩
  · exact .inr ⟨same, found⟩

end TransitionSystem
