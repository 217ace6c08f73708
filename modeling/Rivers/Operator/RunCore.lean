import Mathlib.Data.Finset.Card
import Mathlib.Data.Finset.Dedup
import Rivers.Cache.StorageCore
import Rivers.Lib.Passes

/-! The Run controller of `rivers-operator/source/run`. -/

namespace Rivers

open Passes

inductive RunPhase where
  | pending
  | running
  | cancelling
  | succeeded
  | failed
  | cancelled
  | timedOut
  deriving DecidableEq, Repr

def RunPhase.isTerminal : RunPhase → Bool
  | succeeded | failed | cancelled | timedOut => true
  | pending | running | cancelling => false

inductive ConditionType where
  | executorReady
  | executorRestarted
  | cancelling
  deriving DecidableEq, Repr

structure RunCondition where
  type : ConditionType
  lastTransitionTime : Int
  reason : String
  deriving DecidableEq, Repr

structure RunCrdStatus where
  phase : Option RunPhase := none
  executorPod : Option Nat := none
  restartsWithoutProgress : Nat := 0
  totalRestarts : Nat := 0
  lastProgressAt : Option Int := none
  completedSteps : Option Nat := none
  totalSteps : Option Nat := none
  startedAt : Option Int := none
  completedAt : Option Int := none
  message : Option String := none
  conditions : List RunCondition := []
  deriving DecidableEq, Repr

structure RunSpec where
  timeoutSeconds : Option Nat
  maxRestarts : Nat
  cancelGracePeriodSeconds : Nat
  deriving DecidableEq, Repr

/-- A Run as a pass reads it; `cancelAnnotation` is `rivers.io/cancel-requested`. -/
structure Run where
  spec : RunSpec
  deletionTimestamp : Option Int := none
  finalizer : Bool := false
  cancelAnnotation : Option String := none
  status : Option RunCrdStatus := none
  deriving DecidableEq, Repr

inductive RunOutcome where
  | success (completedSteps totalSteps : Nat)
  | failure (message : String) (completedSteps totalSteps : Nat)
  | cancelled (completedSteps totalSteps : Nat)
  deriving DecidableEq, Repr

structure RunProgress where
  completedSteps : Nat
  totalSteps : Nat
  deriving DecidableEq, Repr

inductive PodState where
  | pending
  | running
  | succeeded
  | failed
  | unknown
  deriving DecidableEq, Repr

/-- An error of the Kubernetes API: `AlreadyExists` (409), `NotFound` (404) or another. -/
inductive ApiError where
  | conflict
  | notFound
  | other
  deriving DecidableEq, Repr

inductive ReconcileError where
  | kube (error : ApiError)
  deriving DecidableEq, Repr

inductive Requeue where
  | awaitChange
  | requeue (seconds : Nat)
  deriving DecidableEq, Repr

inductive Request where
  | now
  | addFinalizer
  | removeFinalizer
  | getPod (pod : Nat)
  | createPod (pod : Nat) (resume : Bool)
  | deletePod (pod : Nat)
  | fetchClSpec
  | cleanupStepJobs
  | patchStatus (status : RunCrdStatus)
  | getRunOutcome
  | getRunProgress
  | updateRunStatus (status : RunStatus)
  | requestCancellation
  deriving DecidableEq

/-- An `Option` stands for a call to storage that may fail, `none` being its error. -/
abbrev Request.Answer : Request → Type
  | now => Int
  | getPod _ => Except ApiError (Option PodState)
  | addFinalizer | removeFinalizer | createPod _ _ | deletePod _ | fetchClSpec | patchStatus _ =>
      Except ApiError Unit
  | cleanupStepJobs => Unit
  | getRunOutcome => Option (Option RunOutcome)
  | getRunProgress => Option RunProgress
  | updateRunStatus _ | requestCancellation => Option Unit

abbrev Call := Program Request Request.Answer

abbrev Reconcile := Call (Except ReconcileError Requeue)

def ask (request : Request) : Call request.Answer :=
  Program.ask request

def elapsedSecs (since now : Int) : Nat :=
  ((now - since).tdiv 1000000000).toNat

def maxConditions : Nat := 20

def makeCondition (type : ConditionType) (reason : String) (now : Int) : RunCondition :=
  { type, lastTransitionTime := now, reason }

def pushCondition (status : RunCrdStatus) (condition : RunCondition) : RunCrdStatus :=
  let conditions := status.conditions ++ [condition]
  { status with conditions := conditions.drop (conditions.length - maxConditions) }

def applyOutcomeToStatus (status : RunCrdStatus) : RunOutcome → RunCrdStatus
  | .success completedSteps totalSteps =>
      { status with
        phase := some .succeeded
        completedSteps := some completedSteps
        totalSteps := some totalSteps
        message := some s!"{completedSteps}/{totalSteps} steps completed" }
  | .failure message completedSteps totalSteps =>
      { status with
        phase := some .failed
        completedSteps := some completedSteps
        totalSteps := some totalSteps
        message := some message }
  | .cancelled completedSteps totalSteps =>
      { status with
        phase := some .cancelled
        completedSteps := some completedSteps
        totalSteps := some totalSteps
        message := some "Run was cancelled" }

def RunOutcome.phase : RunOutcome → RunPhase
  | success _ _ => .succeeded
  | failure _ _ _ => .failed
  | cancelled _ _ => .cancelled

def RunCrdStatus.withProgress (status : RunCrdStatus) : Option RunProgress → RunCrdStatus
  | none => status
  | some progress =>
      { status with completedSteps := some progress.completedSteps, totalSteps := some progress.totalSteps }

def deletePodIfExists (pod : Nat) : Call (Except ReconcileError Bool) := do
  match ← ask (.deletePod pod) with
  | .ok _ => pure (.ok true)
  | .error .notFound => pure (.ok false)
  | .error error => pure (.error (.kube error))

def RunPhase.runStatus : RunPhase → Option RunStatus
  | succeeded => some .success
  | failed | timedOut => some .failure
  | cancelled => some .canceled
  | pending | running | cancelling => none

def syncRunStatusToStorage (phase : RunPhase) : Call Unit :=
  match phase.runStatus with
  | none => pure ()
  | some status => do
      let _ ← ask (.updateRunStatus status)
      pure ()

def patchStatus (status : RunCrdStatus) (next : Reconcile) : Reconcile := do
  match ← ask (.patchStatus status) with
  | .error error => pure (.error (.kube error))
  | .ok _ => next

def awaitChange : Reconcile :=
  pure (.ok .awaitChange)

def requeue (seconds : Nat) : Reconcile :=
  pure (.ok (.requeue seconds))

def patchAndSync (status : RunCrdStatus) : Reconcile :=
  patchStatus status do
    match status.phase with
    | none => awaitChange
    | some phase => do
        syncRunStatusToStorage phase
        awaitChange

def isCancelRequested (run : Run) : Bool :=
  run.cancelAnnotation = some "true"

def isTimedOut (run : Run) (now : Int) : Bool :=
  match run.spec.timeoutSeconds, run.status.bind (·.startedAt) with
  | some timeoutSeconds, some startedAt => timeoutSeconds ≤ elapsedSecs startedAt now
  | _, _ => false

def reconcileInit : Reconcile := do
  let now ← ask .now
  patchStatus { phase := some .pending, startedAt := some now } (requeue 1)

def createExecutorPod (pod : Nat) (resume : Bool) (next : Reconcile) : Reconcile := do
  match ← ask .fetchClSpec with
  | .error error => pure (.error (.kube error))
  | .ok _ =>
      match ← ask (.createPod pod resume) with
      | .ok _ | .error .conflict => next
      | .error error => pure (.error (.kube error))

def reconcilePending (status : RunCrdStatus) : Reconcile :=
  createExecutorPod 0 false do
    let now ← ask .now
    let newStatus := { status with phase := some .running, executorPod := some 0 }
    patchStatus (pushCondition newStatus (makeCondition .executorReady "PodCreated" now))
      (requeue 5)

def startCancelling (status : RunCrdStatus) : Reconcile := do
  let _ ← ask .requestCancellation
  let _ ← ask .cleanupStepJobs
  let now ← ask .now
  let newStatus := { status with phase := some .cancelling }
  patchStatus (pushCondition newStatus (makeCondition .cancelling "CancelRequested" now))
    (requeue 5)

def finalizeCancelled (status : RunCrdStatus) (message : Option String) : Reconcile := do
  let now ← ask .now
  let newStatus := { status with phase := some .cancelled, completedAt := some now }
  let newStatus := newStatus.withProgress (← ask .getRunProgress)
  patchAndSync { newStatus with message := some (message.getD "Run was cancelled") }

def podExited : Option Nat → Call (Except ReconcileError Bool)
  | none => pure (.ok true)
  | some pod => do
      match ← ask (.getPod pod) with
      | .error error => pure (.error (.kube error))
      | .ok none => pure (.ok true)
      | .ok (some state) => pure (.ok (state = .succeeded ∨ state = .failed))

def reconcileCancelling (spec : RunSpec) (status : RunCrdStatus) (now : Int) : Reconcile := do
  let cancellingSince := (status.conditions.find? (·.type = .cancelling)).map (·.lastTransitionTime)
  let elapsed := (cancellingSince.map fun since => elapsedSecs since now).getD 0
  match ← podExited status.executorPod with
  | .error error => pure (.error error)
  | .ok true => do
      let _ ← ask .cleanupStepJobs
      finalizeCancelled status none
  | .ok false =>
      if spec.cancelGracePeriodSeconds ≤ elapsed then do
        match ← deletePodIfExists (status.executorPod.getD 0) with
        | .error error => pure (.error error)
        | .ok _ => do
            let _ ← ask .cleanupStepJobs
            finalizeCancelled status s!"Cancelled after {elapsed}s grace period (pod force-killed)"
      else
        requeue (min (max (spec.cancelGracePeriodSeconds - elapsed) 5) 30)

def deleteRecordedPod : Option Nat → Call (Except ReconcileError Bool)
  | none => pure (.ok false)
  | some pod => deletePodIfExists pod

def transitionToTimedOut (spec : RunSpec) (status : RunCrdStatus) : Reconcile := do
  let timeout := spec.timeoutSeconds.getD 0
  let _ ← ask .requestCancellation
  match ← deleteRecordedPod status.executorPod with
  | .error error => pure (.error error)
  | .ok _ => do
      let _ ← ask .cleanupStepJobs
      let now ← ask .now
      let newStatus := { status with
        phase := some .timedOut
        completedAt := some now
        message := some s!"Run exceeded {timeout}s timeout" }
      patchAndSync (newStatus.withProgress (← ask .getRunProgress))

/-- The accounting of one more restart: `progress` is the reading of the progress. -/
def countRestart (status : RunCrdStatus) (progress : Option RunProgress) (now : Int) :
    RunCrdStatus :=
  let currentCompleted := (progress.map (·.completedSteps)).getD 0
  let newStatus := { status with totalRestarts := status.totalRestarts + 1 }
  let newStatus :=
    if status.completedSteps.getD 0 < currentCompleted then
      { newStatus with restartsWithoutProgress := 0, lastProgressAt := some now }
    else
      { newStatus with restartsWithoutProgress := status.restartsWithoutProgress + 1 }
  newStatus.withProgress progress

/-- The status of a run that is given up; `outcome` is a last reading of its outcome. -/
def exhaustedStatus (spec : RunSpec) (status : RunCrdStatus) : Option (Option RunOutcome) →
    RunCrdStatus
  | some (some outcome) => applyOutcomeToStatus status outcome
  | _ =>
      let restarts := status.restartsWithoutProgress
      let maxRestarts := spec.maxRestarts
      { status with
        phase := some .failed
        message := some s!"Executor failed {restarts} time(s) without progress (max: {maxRestarts})"
          }

def restartExecutor (spec : RunSpec) (oldPod : Option Nat) (newStatus : RunCrdStatus) : Reconcile :=
  do
  let _ ← deleteRecordedPod oldPod
  let pod := newStatus.totalRestarts
  createExecutorPod pod true do
    let now ← ask .now
    let restarts := newStatus.restartsWithoutProgress
    let maxRestarts := spec.maxRestarts
    let condition := makeCondition .executorRestarted s!"Restart {restarts}/{maxRestarts}" now
    patchStatus (pushCondition { newStatus with executorPod := some pod } condition) (requeue 5)

def honorOutcome (status : RunCrdStatus) (outcome : RunOutcome) : Reconcile := do
  let now ← ask .now
  patchAndSync (applyOutcomeToStatus { status with completedAt := some now } outcome)

def handleExecutorFailure (spec : RunSpec) (status : RunCrdStatus) : Reconcile := do
  match ← ask .getRunOutcome with
  | some (some outcome) => honorOutcome status outcome
  | _ => do
      let progress ← ask .getRunProgress
      let now ← ask .now
      let newStatus := countRestart status progress now
      if spec.maxRestarts < newStatus.restartsWithoutProgress then do
        let now ← ask .now
        let outcome ← ask .getRunOutcome
        patchAndSync (exhaustedStatus spec { newStatus with completedAt := some now } outcome)
      else
        restartExecutor spec status.executorPod newStatus

/-- An executor pod that has succeeded; the executor has written the run's status itself where it
stored an outcome. -/
def completeRun (status : RunCrdStatus) : Reconcile := do
  let now ← ask .now
  let newStatus := { status with completedAt := some now }
  match ← ask .getRunOutcome with
  | some (some outcome) => patchStatus (applyOutcomeToStatus newStatus outcome) awaitChange
  | some none =>
      patchAndSync { newStatus with
        phase := some .succeeded
        message := some "Pod succeeded (no outcome in storage)" }
  | none =>
      patchAndSync { newStatus with
        phase := some .succeeded
        message := some "Pod succeeded (storage read failed)" }

def updateProgress (status : RunCrdStatus) : Call Unit := do
  match ← ask .getRunProgress with
  | none => pure ()
  | some progress =>
      let oldCompleted := status.completedSteps.getD 0
      if progress.completedSteps = oldCompleted ∧
          status.totalSteps = some progress.totalSteps then pure ()
      else do
        let now ← ask .now
        let newStatus := status.withProgress (some progress)
        let lastProgressAt :=
          if oldCompleted < progress.completedSteps then some now else status.lastProgressAt
        let _ ← ask (.patchStatus { newStatus with lastProgressAt })
        pure ()

def reconcileRunning (run : Run) (status : RunCrdStatus) (now : Int) : Reconcile :=
  if isCancelRequested run then startCancelling status
  else if isTimedOut run now then transitionToTimedOut run.spec status
  else do
    match ← ask (.getPod (status.executorPod.getD 0)) with
    | .error error => pure (.error (.kube error))
    | .ok none | .ok (some .failed) => handleExecutorFailure run.spec status
    | .ok (some .succeeded) => completeRun status
    | .ok (some .running) => do
        updateProgress status
        requeue 10
    | .ok (some .pending) | .ok (some .unknown) => requeue 10

def signalDeletion (status : RunCrdStatus) : Call Unit :=
  if status.phase.any (·.isTerminal) then pure ()
  else do
    let _ ← ask .requestCancellation
    syncRunStatusToStorage .cancelled

def removeFinalizer : Reconcile := do
  match ← ask .removeFinalizer with
  | .error error => pure (.error (.kube error))
  | .ok _ => awaitChange

def handleDeletion (run : Run) : Reconcile :=
  if !run.finalizer then awaitChange
  else
    match run.status with
    | none => removeFinalizer
    | some status => do
        signalDeletion status
        match ← deleteRecordedPod status.executorPod with
        | .error error => pure (.error error)
        | .ok _ => do
            let _ ← ask .cleanupStepJobs
            removeFinalizer

def addFinalizer : Reconcile := do
  match ← ask .addFinalizer with
  | .error error => pure (.error (.kube error))
  | .ok _ => requeue 1

/-- `reconcile`; `now` is the reading of the clock before its first call. -/
def reconcile (run : Run) (now : Int) : Reconcile :=
  if run.deletionTimestamp.isSome then handleDeletion run
  else if !run.finalizer then addFinalizer
  else
    match run.status with
    | none => reconcileInit
    | some status =>
        match status.phase with
        | none => reconcileInit
        | some .pending => reconcilePending status
        | some .running => reconcileRunning run status now
        | some .cancelling => reconcileCancelling run.spec status now
        | some .succeeded | some .failed | some .cancelled | some .timedOut => awaitChange

section Fields

variable {status : RunCrdStatus} {condition : RunCondition} {outcome : RunOutcome}
  {progress : Option RunProgress} {now : Int}

@[simp]
theorem pushCondition_phase : (pushCondition status condition).phase = status.phase := by
  simp only [pushCondition]

@[simp]
theorem pushCondition_executorPod : (pushCondition status condition).executorPod =
    status.executorPod := by
  simp only [pushCondition]

@[simp]
theorem pushCondition_totalRestarts : (pushCondition status condition).totalRestarts =
    status.totalRestarts := by
  simp only [pushCondition]

@[simp]
theorem applyOutcomeToStatus_phase : (applyOutcomeToStatus status outcome).phase =
    some outcome.phase := by
  cases outcome <;> rfl

@[simp]
theorem withProgress_phase : (status.withProgress progress).phase = status.phase := by
  cases progress <;> rfl

@[simp]
theorem withProgress_executorPod : (status.withProgress progress).executorPod =
    status.executorPod := by
  cases progress <;> rfl

@[simp]
theorem withProgress_totalRestarts : (status.withProgress progress).totalRestarts =
    status.totalRestarts := by
  cases progress <;> rfl

@[simp]
theorem countRestart_phase : (countRestart status progress now).phase = status.phase := by
  rw [countRestart, withProgress_phase]
  split <;> rfl

@[simp]
theorem countRestart_totalRestarts :
    (countRestart status progress now).totalRestarts = status.totalRestarts + 1 := by
  rw [countRestart, withProgress_totalRestarts]
  split <;> rfl

theorem countRestart_restartsWithoutProgress {progress} :
    (countRestart status (some progress) now).restartsWithoutProgress =
      if status.completedSteps.getD 0 < progress.completedSteps then 0 else
        status.restartsWithoutProgress + 1 := by
  simp only [countRestart, RunCrdStatus.withProgress, Option.map_some, Option.getD_some]
  split <;> rfl

theorem countRestart_completedSteps {progress} :
    (countRestart status (some progress) now).completedSteps = some progress.completedSteps :=
  rfl

@[simp]
theorem applyOutcomeToStatus_totalRestarts :
    (applyOutcomeToStatus status outcome).totalRestarts = status.totalRestarts := by
  cases outcome <;> rfl

@[simp]
theorem applyOutcomeToStatus_restartsWithoutProgress :
    (applyOutcomeToStatus status outcome).restartsWithoutProgress =
      status.restartsWithoutProgress := by
  cases outcome <;> rfl

@[simp]
theorem withProgress_restartsWithoutProgress :
    (status.withProgress progress).restartsWithoutProgress = status.restartsWithoutProgress := by
  cases progress <;> rfl

@[simp]
theorem pushCondition_restartsWithoutProgress :
    (pushCondition status condition).restartsWithoutProgress = status.restartsWithoutProgress := by
  simp only [pushCondition]

@[simp]
theorem pushCondition_completedSteps : (pushCondition status condition).completedSteps =
    status.completedSteps := by
  simp only [pushCondition]

theorem RunOutcome.isTerminal_phase (outcome : RunOutcome) : outcome.phase.isTerminal := by
  cases outcome <;> rfl

theorem exhaustedStatus_phase (spec : RunSpec) (status : RunCrdStatus)
    (read : Option (Option RunOutcome)) :
    ∃ phase, (exhaustedStatus spec status read).phase = some phase ∧ phase.isTerminal := by
  match read with
  | none | some none => exact ⟨.failed, rfl, rfl⟩
  | some (some outcome) =>
      exact ⟨outcome.phase, applyOutcomeToStatus_phase, outcome.isTerminal_phase⟩

@[simp]
theorem exhaustedStatus_totalRestarts {spec read} :
    (exhaustedStatus spec status read).totalRestarts = status.totalRestarts := by
  match read with
  | none | some none => rfl
  | some (some outcome) => exact applyOutcomeToStatus_totalRestarts

@[simp]
theorem exhaustedStatus_restartsWithoutProgress {spec read} :
    (exhaustedStatus spec status read).restartsWithoutProgress =
      status.restartsWithoutProgress := by
  match read with
  | none | some none => rfl
  | some (some outcome) => exact applyOutcomeToStatus_restartsWithoutProgress

end Fields

end Rivers
