import Mathlib.Order.Defs.Unbundled
import Mathlib.Algebra.GroupWithZero.Nat

/-!
# Effects

Computations that change a state and bring a value or an error.  An error does not undo
what was done to the state before it.
-/

namespace Effects

def Effect (State Error Value : Type) := State → Except Error Value × State

variable {State Error Value Other Element : Type}

instance : Monad (Effect State Error) where
  pure value := fun state => (.ok value, state)
  bind effect next := fun state =>
    match effect state with
    | (.ok value, state) => next value state
    | (.error failure, state) => (.error failure, state)

def get : Effect State Error State := fun state => (.ok state, state)

def modify (change : State → State) : Effect State Error Unit :=
  fun state => (.ok (), change state)

def forEach (visit : Element → Effect State Error Unit) : List Element → Effect State Error Unit
  | [] => pure ()
  | element :: rest => do
    visit element
    forEach visit rest

def collect (visit : Element → Effect State Error (List Value)) :
    List Element → Effect State Error (List Value)
  | [] => pure []
  | element :: rest => do
    let first ← visit element
    let others ← collect visit rest
    return first ++ others

def recover (effect : Effect State Error Value) (answer : Error → Effect State Error Value) :
    Effect State Error Value := fun state =>
  match effect state with
  | (.ok value, state) => (.ok value, state)
  | (.error failure, state) => answer failure state

@[simp]
theorem pure_apply (value : Value) (state : State) :
    (pure value : Effect State Error Value) state = (.ok value, state) := rfl

variable {effect : Effect State Error Value} {next : Value → Effect State Error Other}
  {state after : State}

theorem bind_of_ok {value : Value} (isOk : effect state = (.ok value, after)) :
    (effect >>= next) state = next value after := by
  change (match effect state with
    | (.ok value, state) => next value state
    | (.error failure, state) => (.error failure, state)) = next value after
  rw [isOk]

theorem bind_of_error {failure : Error} (failed : effect state = (.error failure, after)) :
    (effect >>= next) state = (.error failure, after) := by
  change (match effect state with
    | (.ok value, state) => next value state
    | (.error failure, state) => (.error failure, state)) = (.error failure, after)
  rw [failed]

variable {answer : Error → Effect State Error Other}

theorem recover_bind_of_ok {value : Value} (isOk : effect state = (.ok value, after)) :
    recover (effect >>= next) answer state = recover (next value) answer after := by
  rw [recover, bind_of_ok isOk, recover]

theorem recover_bind_of_error {failure : Error} (failed : effect state = (.error failure, after)) :
    recover (effect >>= next) answer state = answer failure after := by
  rw [recover, bind_of_error failed]

theorem bind_assoc {Third : Type} (effect : Effect State Error Value)
    (next : Value → Effect State Error Other) (last : Other → Effect State Error Third) :
    effect >>= next >>= last = effect >>= fun value => next value >>= last := by
  funext state
  rcases ran : effect state with ⟨failure | value, after⟩
  · rw [bind_of_error (bind_of_error ran), bind_of_error ran]
  · rw [bind_of_ok ran]
    rcases again : next value after with ⟨failure | other, last⟩
    · rw [bind_of_error again, bind_of_error ((bind_of_ok ran).trans again)]
    · rw [bind_of_ok again, bind_of_ok ((bind_of_ok ran).trans again)]

theorem forEach_append (visit : Element → Effect State Error Unit) (first second : List Element) :
    forEach visit (first ++ second) = forEach visit first >>= fun _ => forEach visit second := by
  induction first with
  | nil => rfl
  | cons element rest hypothesis =>
    change visit element >>= (fun _ => forEach visit (rest ++ second)) = _
    rw [hypothesis]
    exact (bind_assoc _ _ _).symm

theorem collect_eq {visit : Element → Effect State Error (List Value)}
    {brings : Element → List Value} {elements : List Element} {values : List Value}
    (each : ∀ element ∈ elements, ∀ state values after,
      visit element state = (.ok values, after) → values = brings element)
    (ran : collect visit elements state = (.ok values, after)) :
    values = elements.flatMap brings := by
  induction elements generalizing state values with
  | nil =>
    cases ran
    rfl
  | cons element rest ih =>
    rw [collect] at ran
    rcases first : visit element state with ⟨failure | brought, next⟩
    · rw [bind_of_error first] at ran
      cases ran
    · rw [bind_of_ok first] at ran
      rcases others : collect visit rest next with ⟨failure | more, last⟩
      · rw [bind_of_error others] at ran
        cases ran
      · rw [bind_of_ok others] at ran
        cases ran
        rw [List.flatMap_cons, each element List.mem_cons_self _ _ _ first,
          ih (fun other otherMem => each other (List.mem_cons_of_mem _ otherMem)) others]

def Keeps (relation : State → State → Prop) (effect : Effect State Error Value) : Prop :=
  ∀ state, relation state (effect state).2

namespace Keeps

variable {relation : State → State → Prop}

theorem mono {weaker : State → State → Prop} {effect : Effect State Error Value}
    (keeps : Keeps relation effect)
    (implies : ∀ state after, relation state after → weaker state after) :
    Keeps weaker effect :=
  fun state => implies _ _ (keeps state)

section Refl

variable [Std.Refl relation]

theorem pure (value : Value) : Keeps relation (pure value : Effect State Error Value) :=
  fun state => refl_of relation state

theorem get : Keeps relation (get : Effect State Error State) :=
  fun state => refl_of relation state

end Refl

section Trans

variable [IsTrans State relation]

theorem bind {next : Value → Effect State Error Other}
    (first : Keeps relation effect) (second : ∀ value, Keeps relation (next value)) :
    Keeps relation (effect >>= next) := by
  intro state
  have step := first state
  rcases ran : effect state with ⟨failure | value, after⟩
  · rw [bind_of_error ran]
    rwa [ran] at step
  · rw [bind_of_ok ran]
    rw [ran] at step
    exact trans_of relation step (second value after)

theorem recover {answer : Error → Effect State Error Value}
    (first : Keeps relation effect) (second : ∀ failure, Keeps relation (answer failure)) :
    Keeps relation (recover effect answer) := by
  intro state
  have step := first state
  rw [Effects.recover]
  rcases ran : effect state with ⟨failure | value, after⟩
  · rw [ran] at step
    exact trans_of relation step (second failure after)
  · rwa [ran] at step

variable [Std.Refl relation]

theorem forEach {visit : Element → Effect State Error Unit} {elements : List Element}
    (each : ∀ element ∈ elements, Keeps relation (visit element)) :
    Keeps relation (forEach visit elements) := by
  induction elements with
  | nil => exact pure ()
  | cons element rest hypothesis =>
    apply bind (each element List.mem_cons_self)
    intro _
    exact hypothesis fun other otherMem => each other (List.mem_cons_of_mem _ otherMem)

theorem collect {visit : Element → Effect State Error (List Value)} {elements : List Element}
    (each : ∀ element ∈ elements, Keeps relation (visit element)) :
    Keeps relation (collect visit elements) := by
  induction elements with
  | nil => exact pure []
  | cons element rest hypothesis =>
    apply bind (each element List.mem_cons_self)
    intro _
    apply bind
    · exact hypothesis fun other otherMem => each other (List.mem_cons_of_mem _ otherMem)
    · intro _
      exact pure _

end Trans

end Keeps

structure Metered (State Error Value : Type) where
  effect : Effect State Error Value
  meter : State → ℕ

namespace Metered

def plainly (effect : Effect State Error Value) : Metered State Error Value :=
  ⟨effect, fun _ => 0⟩

def andThen (first : Metered State Error Value) (next : Value → Metered State Error Other) :
    Metered State Error Other where
  effect := first.effect >>= fun value => (next value).effect
  meter state := first.meter state +
    match first.effect state with
    | (.ok value, after) => (next value).meter after
    | (.error _, _) => 0

def forEach (visit : Element → Metered State Error Unit) :
    List Element → Metered State Error Unit
  | [] => plainly (pure ())
  | element :: rest => (visit element).andThen fun _ => forEach visit rest

def collect (visit : Element → Metered State Error (List Value)) :
    List Element → Metered State Error (List Value)
  | [] => plainly (pure [])
  | element :: rest =>
    (visit element).andThen fun first =>
      (collect visit rest).andThen fun others => plainly (pure (first ++ others))

@[simp]
theorem effect_plainly (effect : Effect State Error Value) : (plainly effect).effect = effect := rfl

@[simp]
theorem effect_andThen (first : Metered State Error Value)
    (next : Value → Metered State Error Other) :
    (first.andThen next).effect = first.effect >>= fun value => (next value).effect := rfl

@[simp]
theorem effect_forEach (visit : Element → Metered State Error Unit) (elements : List Element) :
    (forEach visit elements).effect =
      Effects.forEach (fun element => (visit element).effect) elements := by
  induction elements with
  | nil => rfl
  | cons element rest others =>
    rw [forEach, effect_andThen, others]
    rfl

@[simp]
theorem effect_collect (visit : Element → Metered State Error (List Value))
    (elements : List Element) : (collect visit elements).effect =
      Effects.collect (fun element => (visit element).effect) elements := by
  induction elements with
  | nil => rfl
  | cons element rest others =>
    rw [collect, effect_andThen]
    simp only [effect_andThen, others, effect_plainly]
    rfl

variable {next : Value → Metered State Error Other} {first : Metered State Error Value}

theorem meter_andThen_of_ok {state after : State} {value : Value}
    (isOk : first.effect state = (.ok value, after)) :
    (first.andThen next).meter state = first.meter state + (next value).meter after := by
  simp only [andThen, isOk]

theorem meter_andThen_of_error {state after : State} {failure : Error}
    (failed : first.effect state = (.error failure, after)) :
    (first.andThen next).meter state = first.meter state := by
  simp [andThen, failed]

end Metered

end Effects
