import Rivers.Execution.RetryCore
import Rivers.Lib.Transitions

/-! The attempts of an action step over crashes and resumes. -/

namespace Rivers

open Transitions

structure StepAttempts where
  starts : Nat := 0
  retries : Nat := 0
  failed : Bool := false
  deriving DecidableEq

inductive QueuedEvent where
  | stepRetry
  | stepFailure
  | stepSuccess
  deriving DecidableEq

inductive ActionPhase where
  | waiting
  | next (attempt : Nat)
  | running (attempt : Nat)
  | ended
  deriving DecidableEq

structure ActionRun where
  stored : StepAttempts := {}
  completed : Bool := false
  queue : List QueuedEvent := []
  phase : ActionPhase := .waiting
  resume : Bool := false
  priorAttempts : StepAttempts := {}
  completedStep : Bool := false
  begun : Nat := 0
  begunAfterFailure : Bool := false
  deriving DecidableEq

inductive BodyOutcome where
  | success
  | rejected
  | error (reason : FailureReason) (excTypes : List String)
  deriving DecidableEq

namespace ActionRun

inductive Action where
  | classify (depFailed retriesRead : Bool)
  | start (reported committed : Bool)
  | finish (outcome : BodyOutcome)
  | giveUp (failure : Bool)
  | store (count : Nat)
  | drop (count : Nat)
  | restart (read : Bool)
  deriving DecidableEq

variable (policy : Option RetryPolicy) (run : ActionRun)

def storeFirst (count : Nat) : ActionRun :=
  let events := run.queue.take count
  { run with
    stored :=
      { run.stored with
        retries := run.stored.retries + events.count .stepRetry
        failed := run.stored.failed || events.contains .stepFailure }
    completed := run.completed || events.contains .stepSuccess
    queue := run.queue.drop count }

def endWith (events : List QueuedEvent) : ActionRun :=
  { run with phase := .ended, queue := run.queue ++ events }

def resumedCutOffs : Nat :=
  if run.resume ∧ run.priorAttempts.failed = false then run.priorAttempts.starts -
    run.priorAttempts.retries else 0

def firstAttempt (retriesRead : Bool) : Nat :=
  if run.resume ∧ policy.isSome then
    1 + (if retriesRead then run.stored.retries else 0) + run.resumedCutOffs
  else 1

def mayRerun : Bool :=
  policy.any fun policy => shouldRetry policy .infrastructure [] run.priorAttempts.starts

def classify (depFailed retriesRead : Bool) : ActionRun :=
  if run.completedStep then run.endWith []
  else if run.resume ∧ run.priorAttempts.failed then run.endWith []
  else if run.resume ∧ run.priorAttempts.retries < run.priorAttempts.starts ∧
      run.mayRerun policy = false then
    run.endWith [.stepFailure]
  else if depFailed then run.endWith [.stepFailure]
  else { run with phase := .next (run.firstAttempt policy retriesRead) }

def start (attempt : Nat) (reported committed : Bool) : ActionRun :=
  let written := run.storeFirst run.queue.length
  let started := { written with stored :=
    { written.stored with starts := written.stored.starts + 1 } }
  if reported then
    { started with
      phase := .running attempt
      begun := run.begun + 1
      begunAfterFailure := run.begunAfterFailure || written.stored.failed }
  else if committed then started.endWith [.stepFailure]
  else { run with queue := [] }.endWith [.stepFailure]

def finish (attempt : Nat) : BodyOutcome → ActionRun
  | .success => run.endWith [.stepSuccess]
  | .rejected => run.endWith [.stepFailure]
  | .error reason excTypes =>
      if policy.any fun policy => shouldRetry policy reason excTypes attempt then
        { run with phase := .next (attempt + 1), queue := run.queue ++ [.stepRetry] }
      else run.endWith [.stepFailure]

def step : Action → Option ActionRun
  | .classify depFailed retriesRead =>
      if run.phase = .waiting then some (run.classify policy depFailed retriesRead) else none
  | .start reported committed =>
      match run.phase with
      | .next attempt => some (run.start attempt reported committed)
      | _ => none
  | .finish outcome =>
      match run.phase with
      | .running attempt => some (run.finish policy attempt outcome)
      | _ => none
  | .giveUp failure =>
      match run.phase with
      | .next _ => some (run.endWith (if failure then [.stepFailure] else []))
      | _ => none
  | .store count => some (run.storeFirst count)
  | .drop count => some { run with queue := run.queue.drop count }
  | .restart read =>
      some { run with
        queue := []
        phase := .waiting
        resume := true
        priorAttempts := if read then run.stored else {}
        completedStep := read && run.completed }

def Action.readsSucceed : Action → Bool
  | .classify _ retriesRead => retriesRead
  | .restart read => read
  | _ => true

end ActionRun

def allowedRetries (policy : Option RetryPolicy) : Nat :=
  policy.elim 0 RetryPolicy.maxRetries

namespace ActionRun

variable {policy : Option RetryPolicy} {run next : ActionRun}

def allRetries (run : ActionRun) : Nat :=
  run.stored.retries + run.queue.count .stepRetry

def Expects (policy : Option RetryPolicy) (run : ActionRun) : ActionPhase → Prop
  | .waiting =>
      run.queue = [] ∧ if run.resume then run.priorAttempts = run.stored else run.stored = {}
  | .next attempt =>
      run.stored.starts ≤ allowedRetries policy ∧
      (policy.isSome → attempt = run.stored.starts + 1) ∧
        run.stored.failed = false ∧ .stepFailure ∉ run.queue
  | .running attempt =>
      run.allRetries < run.stored.starts ∧ (policy.isSome → attempt = run.stored.starts) ∧
        run.stored.failed = false ∧ .stepFailure ∉ run.queue
  | .ended => True

structure WithinBudget (policy : Option RetryPolicy) (run : ActionRun) : Prop where
  begun : run.begun ≤ run.stored.starts
  starts : run.stored.starts ≤ allowedRetries policy + 1
  retries : run.allRetries ≤ run.stored.starts
  granted : run.allRetries = run.stored.starts → run.stored.starts ≤ allowedRetries policy
  unfailed : run.begunAfterFailure = false
  phase : run.Expects policy run.phase

theorem allRetries_storeFirst (run : ActionRun) (count : Nat) : (run.storeFirst count).allRetries =
    run.allRetries := by
  grind [List.take_append_drop, allRetries, storeFirst]

theorem storeFirst_of_empty (isEmpty : run.queue = []) (count : Nat) :
    run.storeFirst count = run := by
  obtain ⟨stored, done, queue, phase, resume, priorAttempts, completedStep, begun,
    begunAfterFailure⟩ := run
  cases isEmpty
  simp [storeFirst]

namespace WithinBudget

theorem storeFirst (held : WithinBudget policy run) (count : Nat) :
    WithinBudget policy (run.storeFirst count) := by
  have same := allRetries_storeFirst run count
  obtain ⟨begun, starts, retries, granted, unfailed, phase⟩ := held
  refine ⟨begun, starts, same ▸ retries, same ▸ granted, unfailed, ?_⟩
  have unstored (absent : .stepFailure ∉ run.queue) (noFailure : run.stored.failed = false) :
      (run.storeFirst count).stored.failed = false ∧
      .stepFailure ∉ (run.storeFirst count).queue := by
    grind [ActionRun.storeFirst]
  change (run.storeFirst count).Expects policy run.phase
  cases isPhase : run.phase with
  | waiting =>
    rw [isPhase] at phase
    rw [storeFirst_of_empty phase.1]
    exact phase
  | next att =>
    rw [isPhase] at phase
    obtain ⟨within, isAttempt, noFailure, absent⟩ := phase
    exact ⟨within, isAttempt, unstored absent noFailure⟩
  | running att =>
    rw [isPhase] at phase
    obtain ⟨within, isAttempt, noFailure, absent⟩ := phase
    exact ⟨same ▸ within, isAttempt, unstored absent noFailure⟩
  | ended => trivial

theorem dropFirst (held : WithinBudget policy run) (count : Nat) :
    WithinBudget policy { run with queue := run.queue.drop count } := by
  have fewer : ({ run with queue := run.queue.drop count } : ActionRun).allRetries ≤
      run.allRetries :=
    Nat.add_le_add_left ((List.drop_sublist count run.queue).count_le _) _
  obtain ⟨begun, starts, retries, granted, unfailed, phase⟩ := held
  refine ⟨begun, starts, Nat.le_trans fewer retries,
    fun all => granted (Nat.le_antisymm retries (all ▸ fewer)), unfailed, ?_⟩
  change Expects policy { run with queue := run.queue.drop count } run.phase
  cases isPhase : run.phase with
  | waiting =>
    rw [isPhase] at phase
    exact ⟨by simp [phase.1], phase.2⟩
  | next att =>
    rw [isPhase] at phase
    obtain ⟨within, isAttempt, noFailure, absent⟩ := phase
    exact ⟨within, isAttempt, noFailure, fun mem => absent (List.mem_of_mem_drop mem)⟩
  | running att =>
    rw [isPhase] at phase
    obtain ⟨within, isAttempt, noFailure, absent⟩ := phase
    exact ⟨Nat.lt_of_le_of_lt fewer within, isAttempt, noFailure,
      fun mem => absent (List.mem_of_mem_drop mem)⟩
  | ended => trivial

theorem endWith (held : WithinBudget policy run) {events} (noRetry : .stepRetry ∉ events) :
    WithinBudget policy (run.endWith events) := by
  have same : (run.endWith events).allRetries = run.allRetries := by
    simp [allRetries, ActionRun.endWith, List.count_eq_zero.mpr noRetry]
  exact ⟨held.begun, held.starts, same ▸ held.retries, same ▸ held.granted, held.unfailed, trivial⟩

theorem classify (held : WithinBudget policy run) (waiting : run.phase = .waiting)
    (depFailed : Bool) :
    WithinBudget policy (run.classify policy depFailed true) := by
  have phase := held.phase
  rw [waiting] at phase
  obtain ⟨isEmpty, isPrior⟩ := phase
  have sameRetries : run.allRetries = run.stored.retries := by simp [allRetries, isEmpty]
  have retries := held.retries
  have granted := held.granted
  rw [sameRetries] at retries granted
  unfold ActionRun.classify
  split
  · exact held.endWith List.not_mem_nil
  split
  · exact held.endWith List.not_mem_nil
  split
  · exact held.endWith (by simp)
  split
  · exact held.endWith (by simp)
  rename_i notFailed notSpent _
  refine ⟨held.begun, held.starts, held.retries, held.granted, held.unfailed, ?_⟩
  change run.stored.starts ≤ allowedRetries policy ∧
    (policy.isSome → run.firstAttempt policy true = run.stored.starts + 1) ∧
    run.stored.failed = false ∧
      .stepFailure ∉ run.queue
  cases isResume : run.resume with
  | false =>
    simp only [isResume, Bool.false_eq_true, if_false] at isPrior
    simp [isPrior, isEmpty, firstAttempt, isResume]
  | true =>
    simp only [isResume, if_true] at isPrior
    simp only [isResume, true_and, isPrior, not_and, Bool.not_eq_true, Bool.not_eq_false] at notFailed notSpent
    refine ⟨?_, fun isSome => ?_, notFailed, by simp [isEmpty]⟩
    · by_cases cutOff : run.stored.retries < run.stored.starts
      · have rerun := notSpent cutOff
        cases policy with
        | none => simp [mayRerun] at rerun
        | some policy =>
          simp only [mayRerun, Option.any_some, isPrior] at rerun
          exact le_of_shouldRetry rerun
      · exact granted (by omega)
    · grind [firstAttempt, resumedCutOffs]

theorem start (held : WithinBudget policy run) {att} (isNext : run.phase = .next att)
    (reported committed : Bool) : WithinBudget policy (run.start att reported committed) := by
  have written := held.storeFirst run.queue.length
  have phase := written.phase
  change (run.storeFirst run.queue.length).Expects policy run.phase at phase
  rw [isNext] at phase
  obtain ⟨within, isAttempt, noFailure, absent⟩ := phase
  have retries := written.retries
  have begun := written.begun
  have unfailed := written.unfailed
  have empty : (run.storeFirst run.queue.length).queue = [] := by simp [ActionRun.storeFirst]
  unfold ActionRun.start
  split
  · refine ⟨Nat.succ_le_succ begun, Nat.succ_le_succ within, Nat.le_succ_of_le retries,
      fun all => ?_, ?_, ?_⟩
    · exact absurd all (Nat.ne_of_lt (Nat.lt_succ_of_le retries))
    · exact Bool.or_eq_false_iff.mpr ⟨unfailed, noFailure⟩
    · exact ⟨Nat.lt_succ_of_le retries, isAttempt, noFailure, absent⟩
  split
  · have started : WithinBudget policy
        { run.storeFirst run.queue.length with
          stored :=
            { (run.storeFirst run.queue.length).stored with
              starts := (run.storeFirst run.queue.length).stored.starts + 1 }
          phase := .ended } :=
      ⟨Nat.le_succ_of_le begun, Nat.succ_le_succ within, Nat.le_succ_of_le retries,
        fun all => absurd all (Nat.ne_of_lt (Nat.lt_succ_of_le retries)), unfailed, trivial⟩
    exact started.endWith (by simp)
  · have dropped := held.dropFirst run.queue.length
    rw [List.drop_length] at dropped
    exact dropped.endWith (by simp)

theorem finish (held : WithinBudget policy run) {att} (isRunning : run.phase = .running att)
    (out : BodyOutcome) : WithinBudget policy (run.finish policy att out) := by
  have phase := held.phase
  rw [isRunning] at phase
  obtain ⟨within, isAttempt, noFailure, absent⟩ := phase
  cases out with
  | success => exact held.endWith (by simp)
  | rejected => exact held.endWith (by simp)
  | error reason excTypes =>
    unfold ActionRun.finish
    simp only
    split
    · rename_i retried
      cases policy with
      | none => simp at retried
      | some policy =>
        have budget := le_of_shouldRetry retried
        rw [isAttempt rfl] at budget ⊢
        have oneMore : ({ run with phase := .next (run.stored.starts + 1), queue := run.queue ++
            [.stepRetry] } :
            ActionRun).allRetries = run.allRetries + 1 := by
          simp only [allRetries, List.count_append, List.count_singleton_self]
          omega
        refine ⟨held.begun, held.starts, oneMore ▸ within, fun _ => budget, held.unfailed, ?_⟩
        exact ⟨budget, fun _ => rfl, noFailure, by simp [absent]⟩
    · exact held.endWith (by simp)

theorem restart (held : WithinBudget policy run) :
    WithinBudget policy
      { run with
        queue := []
        phase := .waiting
        resume := true
        priorAttempts := run.stored
        completedStep := run.completed } := by
  have dropped := held.dropFirst run.queue.length
  rw [List.drop_length] at dropped
  exact ⟨held.begun, held.starts, dropped.retries, dropped.granted, held.unfailed, rfl, by simp⟩

theorem step (held : WithinBudget policy run) {action}
    (stepped : run.step policy action = some next)
    (succeed : action.readsSucceed = true) : WithinBudget policy next := by
  cases action with
  | classify depFailed retriesRead =>
    grind [classify, ActionRun.step, Action.readsSucceed]
  | start reported committed => grind [start, ActionRun.step]
  | finish out => grind [finish, ActionRun.step]
  | giveUp failure => grind [endWith, ActionRun.step]
  | store count =>
    cases stepped
    exact held.storeFirst count
  | drop count =>
    cases stepped
    exact held.dropFirst count
  | restart read =>
    cases stepped
    cases succeed
    exact held.restart

end WithinBudget

/-- Over every history whose reads succeed, the body is begun within the budget. -/
theorem begun_within_budget {actions : List Action} {final : ActionRun}
    (performed : perform (step policy) {} actions = some final)
    (succeed : ∀ action ∈ actions, action.readsSucceed = true) :
    final.begun ≤ 1 + allowedRetries policy ∧ final.begunAfterFailure = false := by
  have start : WithinBudget policy {} :=
    ⟨Nat.le_refl _, Nat.zero_le _, Nat.le_refl _, fun _ => Nat.zero_le _, rfl, rfl, rfl⟩
  have kept {run : ActionRun} {action : Action} {next : ActionRun}
    (stepped : run.step policy action = some next)
      (read : action.readsSucceed = true) (held : WithinBudget policy run) : WithinBudget
      policy next :=
    held.step stepped read
  have held := perform_invariant_of_allowed kept performed succeed start
  have begun := held.begun
  have starts := held.starts
  exact ⟨by omega, held.unfailed⟩

/-- A cut-off attempt is tried again by a policy that allows one retry, and no further one is begun.
-/
theorem begun_within_budget_twice :
    let actions : List Action := [.classify false true, .start true true, .restart true,
      .classify false true, .start true true, .restart true, .classify false true]
    (perform (step (some { maxRetries := 1 })) {} actions).map (·.begun) = some 2 ∧
      ∀ final, perform (step (some { maxRetries := 1 })) {} actions = some final →
        final.begun ≤ 1 + allowedRetries (some { maxRetries := 1 }) ∧
        final.begunAfterFailure = false :=
  ⟨by decide, fun _ performed => begun_within_budget performed (by decide)⟩

/-- Without a policy: the failure of the only attempt is stored, the read of the resume fails, and
the body is begun again. -/
theorem begun_again_from_scratch :
    (perform (step none) {}
      [.classify false true, .start true true, .finish (.error .error []), .store 1, .restart false,
        .classify false true, .start true true]).map
      (fun final => (final.begun, allowedRetries none, final.begunAfterFailure)) =
        some (2, 0, true) := by
  decide

end ActionRun

end Rivers
