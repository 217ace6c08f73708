import Mathlib.Data.List.Basic

/-! A bounded retry loop over a state. -/

namespace Retry

variable {State Fault Error Value : Type*}

def run (again : Nat → Error → Bool) (attempt : Nat → State → Except Error Value × State) :
    (retries index : Nat) → State → Except Error Value × State
  | 0, index, state => attempt index state
  | retries + 1, index, state =>
      match attempt index state with
      | (.error error, next) =>
          if again index error then run again attempt retries (index + 1) next
          else (.error error, next)
      | done => done

structure Pattern (Fault Error Value : Type*) where
  again : Nat → Error → Bool
  answer : Fault → Except Error Value
  faults : Nat → Fault

namespace Pattern

variable (pattern : Pattern Fault Error Value)

def continues (index : Nat) : Bool :=
  match pattern.answer (pattern.faults index) with
  | .error error => pattern.again index error
  | .ok _ => false

def lastAttempt : (retries index : Nat) → Nat
  | 0, index => index
  | retries + 1, index => if pattern.continues index then lastAttempt retries (index + 1) else index

def made : (retries index : Nat) → List Fault
  | 0, index => [pattern.faults index]
  | retries + 1, index =>
      pattern.faults index :: if pattern.continues index then made retries (index + 1) else []

variable {pattern} {effect : Fault → State → State} {retries index : Nat} {state : State}

theorem run_eq :
    run pattern.again (fun index state => (pattern.answer (pattern.faults index),
      effect (pattern.faults index) state))
        retries index state =
      (pattern.answer (pattern.faults (pattern.lastAttempt retries index)),
        (pattern.made retries index).foldl (fun state fault => effect fault state) state) := by
  induction retries generalizing index state with
  | zero => rfl
  | succ retries ih => grind [run, lastAttempt, made, continues]

end Pattern

end Retry
