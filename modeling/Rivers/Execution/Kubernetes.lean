import Rivers.Execution.RetryCore
import Rivers.Lib.Transitions

/-! The step monitors of `executor/kubernetes.rs`. -/

namespace Rivers

inductive StepEventKind where
  | success
  | failure (reason : Option FailureReason) (excTypes : List String)
  | retry (attempt : Nat) (reason : FailureReason)
  deriving DecidableEq

structure StepEvent where
  name : String
  kind : StepEventKind
  partitioned : Bool := false
  deriving DecidableEq

namespace StepEvent

def isSuccess (event : StepEvent) : Bool :=
  event.kind = .success

def isStepFailure (event : StepEvent) : Bool :=
  match event.kind with
  | .failure _ _ => !event.partitioned
  | _ => false

def isRetry (event : StepEvent) : Bool :=
  match event.kind with
  | .retry _ _ => true
  | _ => false

end StepEvent

structure StepJobSpec where
  instanceName : String
  eventNames : List String
  policy : Option RetryPolicy := none
  deriving DecidableEq

inductive StepPollOutcome where
  | success
  | failed (reason : FailureReason) (excTypes : List String)
  | cancelled
  deriving DecidableEq

inductive MonitorPhase where
  | begin (attempt : Option Nat)
  | ready (attempt baseline : Nat)
  | polling (attempt baseline cycle jobFailedCycles : Nat)
  | backoff (attempt : Nat)
  | done (success : Bool)
  deriving DecidableEq

structure Monitor where
  spec : StepJobSpec
  phase : MonitorPhase := .begin none
  deriving DecidableEq

structure PollReading where
  eventsRead : Bool
  cancelled : Bool
  jobFailed : Bool
  podReason : FailureReason

structure KubernetesRun where
  events : List StepEvent
  monitors : List Monitor

namespace KubernetesRun

def eventsOf (events : List StepEvent) (name : String) : List StepEvent :=
  events.filter (·.name = name)

def failedOutcome (failures : List StepEvent) : StepPollOutcome :=
  match failures.getLast?.map StepEvent.kind with
  | some (.failure reason excTypes) => .failed (reason.getD .error) excTypes
  | _ => .failed .error []

def pollCycle (events : List StepEvent) (baseline cycle jobFailedCycles : Nat)
    (reading : PollReading) :
    StepPollOutcome ⊕ Nat :=
  let failures := events.filter (·.isStepFailure)
  if reading.eventsRead ∧ events.any (·.isSuccess) then .inl .success
  else if reading.eventsRead ∧ baseline < failures.length then .inl (failedOutcome failures)
  else if reading.cancelled then .inl .cancelled
  else if cycle % 2 = 0 ∧ reading.jobFailed then
    if 2 ≤ jobFailedCycles + 1 then .inl (.failed reading.podReason [])
    else .inr (jobFailedCycles + 1)
  else .inr jobFailedCycles

def endAttempt (spec : StepJobSpec) (attempt : Nat) (stored : String → Bool) :
    StepPollOutcome → MonitorPhase × List StepEvent
  | .success => (.done true, [])
  | .cancelled => (.done false, [])
  | .failed reason excTypes =>
      if spec.policy.any (shouldRetry · reason excTypes attempt) then
        (.backoff attempt, (spec.eventNames.filter stored).map fun name =>
          ⟨name, .retry attempt reason, false⟩)
      else (.done false, [])

inductive Action where
  /-- A pod, or another process, stores an event. -/
  | write (event : StepEvent)
  /-- The events before the attempt are read. -/
  | read (index : Nat) (succeeds : Bool)
  | createJob (index : Nat) (succeeds : Bool)
  | poll (index : Nat) (reading : PollReading) (stored : String → Bool)
  | wake (index : Nat) (cancelled : Bool)

def monitorStep (events : List StepEvent) (monitor : Monitor) : Action →
    Option (MonitorPhase × List StepEvent)
  | .read _ succeeds =>
      match monitor.phase with
      | .begin started =>
          let found := if succeeds then eventsOf events monitor.spec.instanceName else []
          let attempt := started.getD ((found.filter (·.isRetry)).length + 1)
          some (.ready attempt (min (found.filter (·.isStepFailure)).length (attempt - 1)), [])
      | _ => none
  | .createJob _ succeeds =>
      match monitor.phase with
      | .ready attempt baseline =>
          some (if succeeds then .polling attempt baseline 1 0 else .done false, [])
      | _ => none
  | .poll _ reading stored =>
      match monitor.phase with
      | .polling attempt baseline cycle jobFailedCycles =>
          match pollCycle (eventsOf events monitor.spec.instanceName) baseline cycle jobFailedCycles
            reading with
          | .inl outcome => some (endAttempt monitor.spec attempt stored outcome)
          | .inr failedCycles => some (.polling attempt baseline (cycle + 1) failedCycles, [])
      | _ => none
  | .wake _ cancelled =>
      match monitor.phase with
      | .backoff attempt =>
          some (if cancelled then .done false else .begin (some (attempt + 1)), [])
      | _ => none
  | .write _ => none

def Action.index : Action → Nat
  | .write _ => 0
  | .read index _ | .createJob index _ | .poll index _ _ | .wake index _ => index

def step (run : KubernetesRun) (action : Action) : Option KubernetesRun :=
  match action with
  | .write event => some { run with events := run.events ++ [event] }
  | _ => do
      let monitor ← run.monitors[action.index]?
      let (phase, stored) ← monitorStep run.events monitor action
      some { events := run.events ++ stored, monitors := run.monitors.set action.index { monitor with phase } }

def start (specs : List StepJobSpec) (stored : List StepEvent) : KubernetesRun :=
  ⟨stored, specs.map fun spec => ⟨spec, .begin none⟩⟩

def failedNames (run : KubernetesRun) : List String :=
  (run.monitors.filter (·.phase = .done false)).map (·.spec.instanceName)

def succeeded (run : KubernetesRun) (name : String) : Bool :=
  run.events.any fun event => event.name = name && event.isSuccess

def failed (run : KubernetesRun) (name : String) : Bool :=
  run.events.any fun event => event.name = name && event.isStepFailure

def CountsOutputs (run : KubernetesRun) : Prop :=
  ∀ monitor ∈ run.monitors, ∀ success, monitor.phase = .done success →
    ∀ name ∈ monitor.spec.eventNames, (success = true → run.succeeded name = true) ∧
      (run.failed name = true → name ∈ run.failedNames ∨ run.succeeded name = true)

variable {run next : KubernetesRun} {action : Action} {monitor : Monitor} {phase : MonitorPhase}
  {stored : List StepEvent} {specs : List StepJobSpec} {name : String}

theorem success_of_pollCycle {events baseline cycle jobFailedCycles reading}
    (polled : pollCycle events baseline cycle jobFailedCycles reading = .inl .success) :
    events.any (·.isSuccess) = true := by grind [failedOutcome, pollCycle]

theorem success_of_monitorStep {events}
    (stepped : monitorStep events monitor action = some (.done true, stored)) :
    (eventsOf events monitor.spec.instanceName).any (·.isSuccess) = true := by
  cases action with
  | write event => cases stepped
  | read index succeeds =>
    simp only [monitorStep] at stepped
    split at stepped <;> simp at stepped
  | createJob index succeeds => grind [monitorStep]
  | wake index cancelled => grind [monitorStep]
  | poll index reading isStored =>
    simp only [monitorStep] at stepped
    split at stepped
    · split at stepped
      · rename_i out polled
        have isSuccess : out = .success := by
          cases out with
          | success => rfl
          | cancelled => simp [endAttempt] at stepped
          | failed reason excTypes =>
            simp only [endAttempt] at stepped
            split at stepped <;> simp at stepped
        exact success_of_pollCycle (isSuccess ▸ polled)
      · simp at stepped
    · cases stepped

theorem step_cases (stepped : step run action = some next) :
    ∃ stored, next.events = run.events ++ stored ∧ (next.monitors = run.monitors ∨
      ∃ index monitor phase, run.monitors[index]? = some monitor ∧
        next.monitors = run.monitors.set index { monitor with phase } ∧
        (phase = .done true → run.succeeded monitor.spec.instanceName = true)) := by
  have ofMonitor (isStep : (do
      let monitor ← run.monitors[action.index]?
      let (phase, stored) ← monitorStep run.events monitor action
      some (KubernetesRun.mk (run.events ++ stored) (run.monitors.set action.index { monitor with phase }))) =
        some next) : ∃ stored, next.events = run.events ++ stored ∧ (next.monitors = run.monitors ∨
      ∃ index monitor phase, run.monitors[index]? = some monitor ∧
        next.monitors = run.monitors.set index { monitor with phase } ∧
        (phase = .done true → run.succeeded monitor.spec.instanceName = true)) := by
    simp only [Option.bind_eq_bind, Option.bind_eq_some_iff, Option.some.injEq] at isStep
    obtain ⟨monitor, found, ⟨phase, stored⟩, taken, rfl⟩ := isStep
    refine ⟨stored, rfl, .inr ⟨action.index, monitor, phase, found, rfl, fun isDone => ?_⟩⟩
    subst isDone
    have isSuccess := success_of_monitorStep taken
    simpa [eventsOf, succeeded, List.any_filter] using isSuccess
  cases action with
  | write event =>
    cases stepped
    exact ⟨[event], rfl, .inl rfl⟩
  | read index succeeds => exact ofMonitor stepped
  | createJob index succeeds => exact ofMonitor stepped
  | poll index reading stored => exact ofMonitor stepped
  | wake index cancelled => exact ofMonitor stepped

structure Watches (specs : List StepJobSpec) (run : KubernetesRun) : Prop where
  specs : run.monitors.map Monitor.spec = specs
  succeeded : ∀ monitor ∈ run.monitors, monitor.phase = .done true →
    run.succeeded monitor.spec.instanceName = true

theorem watches_start (specs : List StepJobSpec) (stored : List StepEvent) :
    Watches specs (start specs stored) := by
  refine ⟨by rw [start, List.map_map]; exact List.map_id specs, fun monitor mem isDone => ?_⟩
  obtain ⟨spec, -, rfl⟩ := List.mem_map.mp mem
  cases isDone

theorem watches_step (stepped : step run action = some next) (watches : Watches specs run) :
    Watches specs next := by
  obtain ⟨stored, isEvents, kept⟩ := step_cases stepped
  have grows (name : String) (pre : run.succeeded name = true) : next.succeeded name = true := by
    grind [succeeded]
  rcases kept with same | ⟨index, monitor, phase, found, isMonitors, isSuccess⟩
  · refine ⟨same ▸ watches.specs, fun other mem isDone => grows _ ?_⟩
    exact watches.succeeded other (same ▸ mem) isDone
  · refine ⟨?_, fun other mem isDone => grows _ ?_⟩
    · rw [isMonitors, List.map_set, ← watches.specs]
      refine List.ext_getElem? fun pos => ?_
      grind
    · rw [isMonitors] at mem
      rcases List.mem_or_eq_of_mem_set mem with old | rfl
      · exact watches.succeeded other old isDone
      · exact isSuccess isDone

theorem watches_perform {events actions}
    (performed : Transitions.perform step (start specs events) actions = some run) : Watches
    specs run :=
  Transitions.perform_invariant watches_step performed (watches_start specs events)

theorem countsOutputs_of_single (watches : Watches specs run)
    (single : ∀ spec ∈ specs, ∀ name ∈ spec.eventNames, name = spec.instanceName) :
    run.CountsOutputs := by
  intro monitor mem success isDone name isName
  have isSpec : monitor.spec ∈ specs := watches.specs ▸ List.mem_map_of_mem mem
  rw [single monitor.spec isSpec name isName]
  cases success with
  | true =>
    have isStored := watches.succeeded monitor mem isDone
    exact ⟨fun _ => isStored, fun _ => .inr isStored⟩
  | false =>
    refine ⟨fun impossible => Bool.noConfusion impossible, fun _ => .inl ?_⟩
    exact List.mem_map_of_mem (List.mem_filter.mpr ⟨mem, by simpa using isDone⟩)

def quietReading : PollReading := ⟨true, false, false, .error⟩

def firstOutput (spec : StepJobSpec) (index : Nat) : List Action :=
  [.read index true, .createJob index true, .write ⟨spec.instanceName, .success, false⟩,
    .poll index quietReading fun _ => true]

theorem perform_firstOutput {spec index} (found : specs[index]? = some spec) :
    ∃ final, Transitions.perform step (start specs []) (firstOutput spec index) = some final ∧
      final.events = [⟨spec.instanceName, .success, false⟩] ∧ ⟨spec, .done true⟩ ∈
        final.monitors := by
  have bound := (List.getElem?_eq_some_iff.mp found).1
  have atStart : (start specs []).monitors[index]? = some ⟨spec, .begin none⟩ := by
    simp [start, found]
  have atPhase (phase : MonitorPhase) : (specs.map (fun spec => Monitor.mk spec (.begin none))
      |>.set index
      ⟨spec, phase⟩)[index]? = some ⟨spec, phase⟩ := by
    simp [bound]
  have read : step (start specs []) (.read index true) =
      some ⟨[], (start specs []).monitors.set index ⟨spec, .ready 1 0⟩⟩ := by
    simp only [step, Action.index, atStart]
    rfl
  have created : step ⟨[], (start specs []).monitors.set index ⟨spec, .ready 1 0⟩⟩ (.createJob index true) =
      some ⟨[], (start specs []).monitors.set index ⟨spec, .polling 1 0 1 0⟩⟩ := by
    simp only [step, Action.index, start, atPhase]
    simp [monitorStep]
  have polled : step ⟨[⟨spec.instanceName, .success, false⟩],
        (start specs []).monitors.set index ⟨spec, .polling 1 0 1 0⟩⟩
          (.poll index quietReading fun _ => true) =
      some ⟨[⟨spec.instanceName, .success, false⟩], (start specs []).monitors.set index ⟨spec, .done true⟩⟩ := by
    simp only [step, Action.index, start, atPhase]
    simp [monitorStep, pollCycle, eventsOf, quietReading, endAttempt, StepEvent.isSuccess]
  have inside : index < (start specs []).monitors.length := by simpa [start] using bound
  refine ⟨⟨[⟨spec.instanceName, .success, false⟩], (start specs []).monitors.set index
    ⟨spec, .done true⟩⟩, ?_, rfl, List.mem_set inside _⟩
  simp only [firstOutput, Transitions.perform, read, Option.bind_some, created]
  grind [step]

/-- Outputs are counted as stored exactly if each step has one output, the one that names it. -/
theorem countsOutputs_iff (specs : List StepJobSpec) :
    ((∀ events actions final, Transitions.perform step (start specs events) actions = some final →
        final.CountsOutputs) ↔ ∀ spec ∈ specs, ∀ name ∈ spec.eventNames, name = spec.instanceName) ∧
      ((∀ spec ∈ specs, ∀ name ∈ spec.eventNames, name = spec.instanceName) →
        ∀ events actions final, Transitions.perform step (start specs events) actions = some final →
          (∀ name, ¬(final.succeeded name = true ∧ final.failed name = true)) →
          ∀ monitor ∈ final.monitors, ∀ success, monitor.phase = .done success →
            ∀ name ∈ monitor.spec.eventNames, final.failed name = true →
              name ∈ final.failedNames) := by
  refine ⟨⟨fun counts spec isSpec name isName => ?_, fun single events actions final performed =>
    countsOutputs_of_single (watches_perform performed) single⟩,
      fun single events actions final performed apart monitor
      member success isDone name isName isFailed => ?_⟩
  · by_contra different
    obtain ⟨index, found⟩ := List.mem_iff_getElem?.mp isSpec
    obtain ⟨final, performed, isEvents, member⟩ := perform_firstOutput found
    have isStored := (counts [] _ final performed _ member true rfl name isName).1 rfl
    simp [succeeded, isEvents, Ne.symm different] at isStored
  · have counted := countsOutputs_of_single (watches_perform performed) single monitor member success isDone name isName
    exact (counted.2 isFailed).resolve_right fun isSuccess => apart name ⟨isSuccess, isFailed⟩

/-- The failure of the second output is stored behind the first success and not counted. -/
theorem second_output_not_awaited :
    let spec : StepJobSpec := { instanceName := "a", eventNames := ["a", "b"] }
    let actions := firstOutput spec 0 ++ [.write ⟨"b", .failure none [], false⟩]
    (Transitions.perform step (start [spec] []) actions).map (fun final =>
      (final.monitors.map (·.phase), final.succeeded "b", final.failed "b", final.failedNames)) =
        some ([.done true], false, true, []) := by
  decide +kernel

section Budget

variable {index : Nat}

def maxRetries (spec : StepJobSpec) : Nat :=
  (spec.policy.map (·.maxRetries)).getD 0

/-- The Jobs that a monitor may still create. -/
def jobsLeft (monitor : Monitor) : Nat :=
  match monitor.phase with
  | .begin none => maxRetries monitor.spec + 1
  | .begin (some attempt) | .ready attempt _ => maxRetries monitor.spec + 1 - attempt + 1
  | .polling attempt _ _ _ => maxRetries monitor.spec + 1 - attempt
  | .backoff attempt => maxRetries monitor.spec - attempt + 1
  | .done _ => 0

def Action.jobs (index : Nat) : Action → Nat
  | .createJob created _ => if created = index then 1 else 0
  | _ => 0

def jobsCreated (index : Nat) : List Action → Nat
  | [] => 0
  | action :: actions => action.jobs index + jobsCreated index actions

theorem jobsLeft_endAttempt (spec : StepJobSpec) (attempt : Nat) (isStored : String → Bool)
    (out : StepPollOutcome) :
    jobsLeft ⟨spec, (endAttempt spec attempt isStored out).1⟩ ≤ maxRetries spec + 1 - attempt := by
  cases out with
  | success | cancelled => exact Nat.zero_le _
  | failed reason excTypes =>
    rw [endAttempt]
    split
    · rename_i retried
      obtain ⟨policy, isPolicy, retries⟩ := (Option.any_eq_true _ _).mp retried
      have within := le_of_shouldRetry retries
      simp only [jobsLeft, maxRetries, isPolicy, Option.map_some, Option.getD_some]
      omega
    · exact Nat.zero_le _

theorem jobsLeft_monitorStep {events}
    (stepped : monitorStep events monitor action = some (phase, stored)) :
    action.jobs action.index + jobsLeft { monitor with phase } ≤ jobsLeft monitor := by
  obtain ⟨spec, pre⟩ := monitor
  cases action with
  | write event => cases stepped
  | read index succeeds =>
    cases pre with
    | begin started =>
      cases stepped
      cases started <;> simp [Action.jobs, jobsLeft]
    | _ => cases stepped
  | createJob index succeeds =>
    cases pre with
    | ready attempt baseline =>
      cases stepped
      cases succeeds <;> simp [Action.jobs, jobsLeft, Action.index]
      omega
    | _ => cases stepped
  | poll index reading isStored =>
    cases pre with
    | polling attempt baseline cycle jobFailedCycles =>
      simp only [monitorStep] at stepped
      split at stepped
      · rename_i out _
        have left := jobsLeft_endAttempt spec attempt isStored out
        rw [Option.some.inj stepped] at left
        simpa [Action.jobs, jobsLeft] using left
      · cases stepped
        simp [Action.jobs, jobsLeft]
    | _ => cases stepped
  | wake index cancelled =>
    cases pre with
    | backoff attempt =>
      cases stepped
      cases cancelled <;> simp [Action.jobs, jobsLeft]
    | _ => cases stepped

theorem jobsLeft_step (stepped : step run action = some next)
    (found : run.monitors[index]? = some monitor) :
    ∃ later, next.monitors[index]? = some later ∧ action.jobs index + jobsLeft later ≤
      jobsLeft monitor := by
  unfold step at stepped
  split at stepped
  · cases stepped
    exact ⟨monitor, found, by simp [Action.jobs]⟩
  · simp only [Option.bind_eq_bind, Option.bind_eq_some_iff, Option.some.injEq] at stepped
    obtain ⟨moved, isMoved, ⟨phase, stored⟩, taken, rfl⟩ := stepped
    by_cases same : action.index = index
    · subst same
      obtain rfl : moved = monitor := Option.some.inj (isMoved.symm.trans found)
      exact ⟨{ moved with phase }, by grind, jobsLeft_monitorStep taken⟩
    · refine ⟨monitor, by rwa [List.getElem?_set_ne same], ?_⟩
      cases action <;> simp_all [Action.jobs, Action.index]

theorem jobsCreated_le_jobsLeft {actions}
    (performed : Transitions.perform step run actions = some next)
    (found : run.monitors[index]? = some monitor) : jobsCreated index actions ≤
    jobsLeft monitor := by
  induction actions generalizing run monitor with
  | nil => exact Nat.zero_le _
  | cons action actions ih =>
    obtain ⟨mid, stepped, rest⟩ := Transitions.perform_cons.mp performed
    obtain ⟨later, isLater, left⟩ := jobsLeft_step stepped found
    have restLeft := ih rest isLater
    rw [jobsCreated]
    omega

/-- A step's monitor creates at most one Job more than its policy grants retries, whatever the pods
write. -/
theorem jobsCreated_le_retries {events actions spec} (isSpec : specs[index]? = some spec)
    (performed : Transitions.perform step (start specs events) actions = some run) :
    jobsCreated index actions ≤ maxRetries spec + 1 := by
  have found : (start specs events).monitors[index]? = some ⟨spec, .begin none⟩ := by
    simp [start, isSpec]
  exact jobsCreated_le_jobsLeft performed found

theorem jobsCreated_le_retries_once :
    let spec : StepJobSpec := ⟨"a", ["a"], some { maxRetries := 1 }⟩
    let actions : List Action := [.read 0 true, .createJob 0 true,
      .write ⟨"a", .failure none [], false⟩,
      .poll 0 quietReading fun _ => true, .wake 0 false, .read 0 true, .createJob 0 true]
    jobsCreated 0 actions = 2 ∧ jobsCreated 0 actions ≤ maxRetries spec + 1 := by
  intro spec actions
  have runs : (Transitions.perform step (start [spec] []) actions).isSome = true := by decide +kernel
  obtain ⟨final, performed⟩ := Option.isSome_iff_exists.mp runs
  exact ⟨by decide, jobsCreated_le_retries rfl performed⟩

end Budget

end KubernetesRun

end Rivers
