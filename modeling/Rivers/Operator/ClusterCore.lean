import Rivers.Concurrency.RunStatusCore
import Rivers.Operator.RunCore

/-! What the Run controller acts on, and what changes it besides. -/

namespace Rivers

open Passes

/-- An executor, up to its next write or exit. -/
inductive ExecutorStage where
  | launched
  | executing
  | finalizing (status : RunStatus)
  | finished (success : Bool)
  | storing (outcome : RunOutcome)
  | exiting (completed : Bool)
  deriving DecidableEq, Repr

/-- An executor pod: its object, `none` once gone, and the executor in it. -/
structure ExecutorPod where
  object : Option PodState := some .pending
  asked : Bool := false
  stage : ExecutorStage := .launched
  deriving DecidableEq, Repr

def ExecutorPod.exited (pod : ExecutorPod) : Bool :=
  match pod.object with
  | none | some .succeeded | some .failed => true
  | some .pending | some .running | some .unknown => false

inductive StepEventType where
  | stepStart
  | stepSuccess
  | stepFailure
  deriving DecidableEq, Repr

structure ProgressEvent where
  eventType : StepEventType
  assetKey : String
  partitioned : Bool := false
  deriving DecidableEq, Repr

def ProgressEvent.isTerminal (event : ProgressEvent) : Bool :=
  event.eventType = .stepSuccess ∨ event.eventType = .stepFailure ∧ !event.partitioned

def startedSteps (events : List ProgressEvent) : Finset String :=
  ((events.filter (·.eventType = .stepStart)).map (·.assetKey)).toFinset

def terminalSteps (events : List ProgressEvent) : Finset String :=
  ((events.filter (·.isTerminal)).map (·.assetKey)).toFinset

def runProgress (events : List ProgressEvent) : RunProgress :=
  { completedSteps := (terminalSteps events).card, totalSteps := (startedSteps events).card }

structure Cluster where
  run : Run
  clock : Int := 0
  pods : Nat → Option ExecutorPod := fun _ => none
  runStatus : RunStatus := .notStarted
  cancelFlag : Bool := false
  outcome : Option RunOutcome := none
  events : List ProgressEvent := []
  /-- The calls of a run handle's cancel that have read the row and not yet written it. -/
  canceling : Nat := 0

inductive Reply where
  | ok
  | failed (applied : Bool)
  deriving DecidableEq, Repr

namespace Cluster

variable (cluster : Cluster)

def setPod (number : Nat) (pod : ExecutorPod) : Cluster :=
  { cluster with pods := Function.update cluster.pods number (some pod) }

def podObject (number : Nat) : Option PodState :=
  (cluster.pods number).bind (·.object)

def write {Answer : Type} (written : Cluster) (answer error : Answer) : Reply → Cluster × Answer
  | .ok => (written, answer)
  | .failed applied => (if applied then written else cluster, error)

def read {Answer : Type} (answer error : Answer) : Reply → Cluster × Answer
  | .ok => (cluster, answer)
  | .failed _ => (cluster, error)

def createPod (number : Nat) (reply : Reply) : Cluster × Except ApiError Unit :=
  if (cluster.podObject number).isSome then cluster.read (.error .conflict) (.error .other) reply
  else cluster.write (cluster.setPod number {}) (.ok ()) (.error .other) reply

def deletePod (number : Nat) (reply : Reply) : Cluster × Except ApiError Unit :=
  match (cluster.pods number).filter (·.object.isSome) with
  | some pod =>
      cluster.write (cluster.setPod number { pod with asked := true }) (.ok ())
        (.error .other) reply
  | none => cluster.read (.error .notFound) (.error .other) reply

def setStatus (status : RunCrdStatus) : Cluster :=
  { cluster with run := { cluster.run with status := some status } }

def setFinalizer (finalizer : Bool) : Cluster :=
  { cluster with run := { cluster.run with finalizer } }

def serve : (request : Request) → Reply → Cluster × request.Answer
  | .now => fun _ => (cluster, cluster.clock)
  | .addFinalizer => cluster.write (cluster.setFinalizer true) (.ok ()) (.error .other)
  | .removeFinalizer => cluster.write (cluster.setFinalizer false) (.ok ()) (.error .other)
  | .getPod pod => cluster.read (.ok (cluster.podObject pod)) (.error .other)
  | .createPod pod _ => cluster.createPod pod
  | .deletePod pod => cluster.deletePod pod
  | .fetchClSpec => cluster.read (.ok ()) (.error .other)
  | .cleanupStepJobs => fun _ => (cluster, ())
  | .patchStatus status => cluster.write (cluster.setStatus status) (.ok ()) (.error .other)
  | .getRunOutcome => cluster.read (some cluster.outcome) none
  | .getRunProgress => cluster.read (some (runProgress cluster.events)) none
  | .updateRunStatus status => cluster.write { cluster with runStatus := status } (some ()) none
  | .requestCancellation => cluster.write { cluster with cancelFlag := true } (some ()) none

end Cluster

/-- `cancel_queued_run` writes the row of a run that no executor has started. -/
def RunStatus.cancelQueued (status : RunStatus) : RunStatus :=
  if status = .queued ∨ status = .notStarted then .canceled else status

inductive Change where
  | wait (nanoseconds : Nat)
  | deleteRun
  | annotate (value : String)
  | requestCancellation
  | cancelQueuedRun
  | readHandle
  | cancelHandle
  | podState (pod : Nat) (state : PodState)
  | removePod (pod : Nat)
  | rejectVerb (pod : Nat) (message : String)
  | startRun (pod : Nat)
  | finishPlan (pod : Nat) (success : Bool)
  | finalizeRun (pod : Nat)
  | chooseOutcome (pod completedSteps totalSteps : Nat) (message : String)
  | setRunOutcome (pod : Nat)
  | exit (pod : Nat)
  | die (pod : Nat)
  | event (event : ProgressEvent)
  deriving DecidableEq

namespace Cluster

variable (cluster : Cluster)

def runningAt (number : Nat) (stage : ExecutorStage) : Option ExecutorPod :=
  (cluster.pods number).filter fun pod => pod.object = some .running ∧ pod.stage = stage

/-- The executor of a pod goes on to another stage, where it is running at the first. -/
def advance (number : Nat) (stage : ExecutorStage) (written : Cluster) (next : ExecutorStage) :
    Option Cluster :=
  (cluster.runningAt number stage).map fun pod => written.setPod number { pod with stage := next }

/-- The outcome of a result: the executor of `cli/run` reads the cancel flag once more. -/
def chosenOutcome (success : Bool) (completedSteps totalSteps : Nat) (message : String) :
    RunOutcome :=
  if cluster.cancelFlag then .cancelled completedSteps totalSteps
  else if success then .success completedSteps totalSteps
  else .failure message completedSteps totalSteps

def stageOf (number : Nat) : Option ExecutorStage :=
  (cluster.pods number).map (·.stage)

def change : Change → Option Cluster
  | .wait nanoseconds => some { cluster with clock := cluster.clock + nanoseconds }
  | .deleteRun =>
      some { cluster with run := { cluster.run with deletionTimestamp := some cluster.clock } }
  | .annotate value =>
      some { cluster with run := { cluster.run with cancelAnnotation := some value } }
  | .requestCancellation => some { cluster with cancelFlag := true }
  | .cancelQueuedRun => some { cluster with runStatus := cluster.runStatus.cancelQueued }
  | .readHandle =>
      if cluster.runStatus.isTerminal then none
      else some { cluster with canceling := cluster.canceling + 1 }
  | .cancelHandle =>
      if cluster.canceling = 0 then none
      else some { cluster with runStatus := .canceled, canceling := cluster.canceling - 1 }
  | .podState number state =>
      if state = .succeeded ∨ state = .failed then none
      else
        ((cluster.pods number).filter (!·.exited)).map fun pod =>
          cluster.setPod number { pod with object := some state }
  | .removePod number =>
      (cluster.pods number).map fun pod => cluster.setPod number { pod with object := none, asked := true }
  | .rejectVerb number message =>
      cluster.advance number .launched { cluster with outcome := some (.failure message 0 0) }
        (.exiting false)
  | .startRun number =>
      if cluster.runStatus = .canceled then cluster.advance number .launched cluster
        (.finished false)
      else cluster.advance number .launched { cluster with runStatus := .started } .executing
  | .finishPlan number success =>
      cluster.advance number .executing cluster
        (.finalizing (finalizeStatus cluster.cancelFlag success))
  | .finalizeRun number =>
      match cluster.stageOf number with
      | some (.finalizing status) =>
          cluster.advance number (.finalizing status) { cluster with runStatus := status }
            (.finished (status = .success))
      | _ => none
  | .chooseOutcome number completedSteps totalSteps message =>
      match cluster.stageOf number with
      | some (.finished success) =>
          cluster.advance number (.finished success) cluster
            (.storing (cluster.chosenOutcome success completedSteps totalSteps message))
      | _ => none
  | .setRunOutcome number =>
      match cluster.stageOf number with
      | some (.storing outcome) =>
          cluster.advance number (.storing outcome) { cluster with outcome := some outcome }
            (.exiting true)
      | _ => none
  | .exit number =>
      match cluster.stageOf number with
      | some (.exiting completed) =>
          (cluster.runningAt number (.exiting completed)).map fun pod =>
            cluster.setPod number
              { pod with object := some (if completed then .succeeded else .failed) }
      | _ => none
  | .die number =>
      ((cluster.pods number).filter (!·.exited)).map fun pod =>
        cluster.setPod number { pod with object := some .failed }
  | .event event => some { cluster with events := cluster.events ++ [event] }

end Cluster

/-- The operator's passes over the Run: a pass goes by the Run as stored and the clock. -/
def operator : System Cluster Request Request.Answer Reply Change (Run × Int)
    (Except ReconcileError Requeue) where
  change := Cluster.change
  read cluster :=
    if cluster.run.deletionTimestamp.isSome && !cluster.run.finalizer then none
    else some (cluster.run, cluster.clock)
  pass seen := reconcile seen.1 seen.2
  serve := Cluster.serve

abbrev OperatorState := State Cluster Request Request.Answer (Run × Int)
    (Except ReconcileError Requeue)

abbrev OperatorAction := Action Reply Change

def newRun (spec : RunSpec) : OperatorState :=
  { world := { run := { spec } } }

end Rivers
