import Mathlib.Data.List.Basic

/-! Retry policies of `execution/retry.rs`. -/

namespace Rivers

inductive FailureReason where
  | error
  | outOfMemory
  | timeout
  | infrastructure
  | cancelled
  deriving DecidableEq, Repr

inductive RetryOn where
  | all
  | transient
  | onMatch (exceptions : List String) (reasons : List FailureReason)
  deriving DecidableEq, Repr

structure RetryPolicy where
  maxRetries : Nat
  retryOn : RetryOn := .all
  escalateOn : Option (List FailureReason) := none
  deriving DecidableEq, Repr

def matchesRetryOn (policy : RetryPolicy) (reason : FailureReason) (excTypes : List String) :
    Bool :=
  match policy.retryOn with
  | .all => true
  | .transient => reason ∈ [.outOfMemory, .timeout, .infrastructure]
  | .onMatch exceptions reasons => reasons.contains reason || excTypes.any exceptions.contains

def shouldRetry (policy : RetryPolicy) (reason : FailureReason) (excTypes : List String)
    (attempt : Nat) : Bool :=
  if reason = .cancelled ∨ policy.maxRetries < attempt then false
  else matchesRetryOn policy reason excTypes || policy.escalateOn.any (·.contains reason)

theorem le_of_shouldRetry {policy reason excTypes attempt}
    (retried : shouldRetry policy reason excTypes attempt = true) : attempt ≤
    policy.maxRetries := by
  unfold shouldRetry at retried
  split at retried
  · cases retried
  · rename_i admitted
    omega

end Rivers
