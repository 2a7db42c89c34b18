import Mathlib

set_option autoImplicit false

/-!
# Runs of a partial step function

A step that is not enabled is `none`, and so is every run that takes it.
`Along` states a condition on the steps of a run, each in the state it is taken in.
-/

namespace Phaze.Runs

section Run

variable {State Action : Type} (step : State → Action → Option State)

def run : State → List Action → Option State
  | state, [] => some state
  | state, action :: rest => (step state action).bind fun next => run next rest

def Along (admits : State → Action → Prop) : State → List Action → Prop
  | _, [] => True
  | state, action :: rest =>
      admits state action ∧
        match step state action with
        | some next => Along admits next rest
        | none => True

instance decidableAlong {admits : State → Action → Prop} [∀ state action, Decidable (admits state action)] :
    ∀ state actions, Decidable (Along step admits state actions)
  | _, [] => isTrue trivial
  | state, action :: rest =>
      match found : step state action with
      | some next =>
          have : Decidable (Along step admits next rest) := decidableAlong next rest
          decidable_of_iff (admits state action ∧ Along step admits next rest) (by simp [Along, found])
      | none => decidable_of_iff (admits state action) (by simp [Along, found])

variable {step}

@[simp]
theorem run_nil (state : State) : run step state [] = some state := rfl

theorem run_cons {state final : State} {action : Action} {rest : List Action} :
    run step state (action :: rest) = some final ↔
      ∃ next, step state action = some next ∧ run step next rest = some final := by
  simp [run, Option.bind_eq_some_iff]

theorem Along.cons {admits : State → Action → Prop} {state next : State} {action : Action} {rest : List Action}
    (admitted : admits state action) (stepped : step state action = some next) (along : Along step admits next rest) :
    Along step admits state (action :: rest) := by
  refine ⟨admitted, ?_⟩
  rw [stepped]
  exact along

theorem Along.head {admits : State → Action → Prop} {state : State} {action : Action} {rest : List Action}
    (along : Along step admits state (action :: rest)) : admits state action :=
  along.1

theorem Along.tail {admits : State → Action → Prop} {state next : State} {action : Action}
    {rest : List Action} (along : Along step admits state (action :: rest))
    (stepped : step state action = some next) : Along step admits next rest := by
  simpa [Along, stepped] using along.2

theorem Along.imp {admits others : State → Action → Prop}
    (each : ∀ state action, admits state action → others state action) {state : State} {actions : List Action}
    (along : Along step admits state actions) : Along step others state actions := by
  induction actions generalizing state with
  | nil => trivial
  | cons action rest ih =>
    refine ⟨each state action along.head, ?_⟩
    split
    next next stepped => exact ih (along.tail stepped)
    · trivial

/-- What a step keeps where it is admitted, a run of admitted steps keeps. -/
theorem run_keeps {admits : State → Action → Prop} {kept : State → Prop}
    (each : ∀ state action next, kept state → admits state action → step state action = some next →
      kept next)
    {state final : State} (actions : List Action) (along : Along step admits state actions)
    (start : kept state) (ran : run step state actions = some final) : kept final := by
  induction actions generalizing state with
  | nil =>
    cases ran
    exact start
  | cons action rest ih =>
    obtain ⟨next, stepped, ran⟩ := run_cons.mp ran
    exact ih (along.tail stepped) (each state action next start along.head stepped) ran

/-- What an invariant gives at each admitted step, it gives along a run of admitted steps. -/
theorem Along.gives {admits others : State → Action → Prop} (kept : State → Prop)
    (each : ∀ state action next, kept state → admits state action → step state action = some next → kept next)
    (gives : ∀ state action, kept state → admits state action → others state action) {state : State}
    {actions : List Action} (start : kept state) (along : Along step admits state actions) :
    Along step others state actions := by
  induction actions generalizing state with
  | nil => trivial
  | cons action rest ih =>
    refine ⟨gives state action start along.head, ?_⟩
    split
    next next stepped => exact ih (each state action next start along.head stepped) (along.tail stepped)
    · trivial

theorem along_of_forall {admits : Action → Prop} {state : State} {actions : List Action}
    (each : ∀ action ∈ actions, admits action) : Along step (fun _ action => admits action) state actions := by
  induction actions generalizing state with
  | nil => trivial
  | cons action rest ih =>
    refine ⟨each action List.mem_cons_self, ?_⟩
    split
    · exact ih fun action member => each action (List.mem_cons_of_mem _ member)
    · trivial

theorem along_true (state : State) (actions : List Action) :
    Along step (fun _ _ => True) state actions :=
  along_of_forall fun _ _ => trivial

/-- What every step keeps, every run keeps. -/
theorem run_invariant {kept : State → Prop}
    (each : ∀ state action next, kept state → step state action = some next → kept next)
    {state final : State} (actions : List Action) (start : kept state)
    (ran : run step state actions = some final) : kept final :=
  run_keeps (fun state action next held _ => each state action next held) actions
    (along_true state actions) start ran

end Run

end Phaze.Runs
