import Mathlib.Data.Option.Basic

/-! Systems that take labelled steps. -/

namespace Transitions

variable {State Action : Type*} (step : State → Action → Option State)

def perform (state : State) : List Action → Option State
  | [] => some state
  | action :: actions => (step state action).bind fun next => perform next actions

def Always (holds : State → Prop) (state : State) : List Action → Prop
  | [] => holds state
  | action :: actions =>
      holds state ∧ ∀ next, step state action = some next → Always holds next actions

def Stepwise (relation : State → Action → State → Prop) (state : State) : List Action → Prop
  | [] => True
  | action :: actions =>
      ∀ next, step state action = some next → relation state action next ∧
        Stepwise relation next actions

instance Stepwise.decidable (relation : State → Action → State → Prop)
    [∀ before action after, Decidable (relation before action after)] (state : State) :
    (actions : List Action) → Decidable (Stepwise step relation state actions)
  | [] => .isTrue trivial
  | action :: actions =>
      match stepped : step state action with
      | none => .isTrue fun next isNext => by simp [stepped] at isNext
      | some next =>
          have := Stepwise.decidable relation next actions
          decidable_of_iff (relation state action next ∧ Stepwise step relation next actions) (by
            rw [Stepwise, stepped]
            simp)

variable {step} {state final : State} {actions : List Action}

theorem perform_cons {action : Action} :
    perform step state (action :: actions) = some final ↔
      ∃ next, step state action = some next ∧ perform step next actions = some final :=
  Option.bind_eq_some_iff

theorem perform_append {later : List Action} :
    perform step state (actions ++ later) = some final ↔
      ∃ reached, perform step state actions = some reached ∧ perform step reached later =
        some final := by
  induction actions generalizing state with
  | nil => simp [perform]
  | cons action actions ih =>
    simp only [List.cons_append, perform_cons, ih]
    constructor
    · simp_all
    · simp_all

theorem perform_invariant {invariant : State → Prop}
    (kept : ∀ {state action next}, step state action = some next → invariant state → invariant next)
    (performed : perform step state actions = some final)
    (start : invariant state) : invariant final := by
  induction actions generalizing state with
  | nil =>
    cases performed
    exact start
  | cons action actions ih =>
    obtain ⟨next, stepped, rest⟩ := perform_cons.mp performed
    exact ih rest (kept stepped start)

theorem perform_invariant_of_allowed {invariant : State → Prop} {allowed : Action → Prop}
    (kept : ∀ {state action next}, step state action = some next → allowed action →
      invariant state →
      invariant next)
    (performed : perform step state actions = some final) (all : ∀ action ∈ actions, allowed action)
    (start : invariant state) : invariant final := by
  induction actions generalizing state with
  | nil =>
    cases performed
    exact start
  | cons action actions ih =>
    obtain ⟨next, stepped, rest⟩ := perform_cons.mp performed
    rw [List.forall_mem_cons] at all
    exact ih rest all.2 (kept stepped all.1 start)

theorem always_of_invariant {invariant holds : State → Prop}
    (kept : ∀ {state action next}, step state action = some next → invariant state → invariant next)
    (implies : ∀ {state}, invariant state → holds state) (start : invariant state) :
    Always step holds state actions := by
  induction actions generalizing state with
  | nil => exact implies start
  | cons action actions ih => exact ⟨implies start, fun next stepped => ih (kept stepped start)⟩

theorem Stepwise.mono {assumed relation : State → Action → State → Prop}
    (implies : ∀ {state action next}, assumed state action next → relation state action next)
    (stepwise : Stepwise step assumed state actions) : Stepwise step relation state actions := by
  induction actions generalizing state with
  | nil => trivial
  | cons action actions ih =>
    intro next stepped
    obtain ⟨first, rest⟩ := stepwise next stepped
    exact ⟨implies first, ih rest⟩

theorem Stepwise.of_invariant {assumed relation : State → Action → State → Prop}
    {invariant : State → Prop}
    (kept : ∀ {state action next}, step state action = some next → invariant state →
      assumed state action next → invariant next ∧ relation state action next)
    (stepwise : Stepwise step assumed state actions) (start : invariant state) :
    Stepwise step relation state actions := by
  induction actions generalizing state with
  | nil => trivial
  | cons action actions ih =>
    intro next stepped
    obtain ⟨first, rest⟩ := stepwise next stepped
    obtain ⟨held, related⟩ := kept stepped start first
    exact ⟨related, ih rest held⟩

theorem Stepwise.invariant {assumed : State → Action → State → Prop} {invariant : State → Prop}
    (kept : ∀ {state action next}, step state action = some next → invariant state →
      assumed state action next → invariant next) (stepwise : Stepwise step assumed state actions)
    (performed : perform step state actions = some final)
    (start : invariant state) : invariant final := by
  induction actions generalizing state with
  | nil =>
    cases performed
    exact start
  | cons action actions ih =>
    obtain ⟨next, stepped, rest⟩ := perform_cons.mp performed
    obtain ⟨first, later⟩ := stepwise next stepped
    exact ih later rest (kept stepped start first)

end Transitions
