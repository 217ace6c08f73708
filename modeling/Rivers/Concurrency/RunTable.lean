import Rivers.Cache.StorageCore
import Rivers.Concurrency.CoordinatorCore

/-! The status columns of the `runs` table and their writes. -/

namespace Rivers

inductive LaunchedBy where
  | manual
  | schedule (name : String)
  | sensor (name : String)
  | backfill (backfillId : String)
  | condition
  deriving DecidableEq, Repr

structure StoredRun extends CoordinatorRunInfo where
  status : RunStatus
  endTime : Option Int := none
  partitionKey : Option PartitionKey := none
  launchedBy : LaunchedBy := .manual
  deriving DecidableEq

def updateWhere (runs : List StoredRun) (runId : String) (guard : RunStatus → Bool)
    (status : RunStatus) (endTime : Option Int) : List StoredRun :=
  runs.map fun run =>
    if run.runId = runId ∧ guard run.status then
      { run with status, endTime := endTime <|> run.endTime }
    else run

def statusOf (runs : List StoredRun) (runId : String) : Option RunStatus :=
  (runs.find? fun run => run.runId = runId).map (·.status)

def updateRunStatus (runs : List StoredRun) (runId : String) (status : RunStatus)
    (endTime : Option Int) :
    List StoredRun :=
  updateWhere runs runId (fun _ => true) status endTime

def tryStartRun (runs : List StoredRun) (runId : String) : List StoredRun × Option Bool :=
  let after := updateWhere runs runId (fun status => status ≠ .canceled) .started none
  (after, (statusOf after runId).map fun status => status = .started)

def cancelQueuedRun (runs : List StoredRun) (runId : String) (now : Int) : List StoredRun × Bool :=
  let after := updateWhere runs runId (fun status => status ∈ [.queued, .notStarted])
    .canceled (some now)
  (after, after.any fun run => run.runId = runId ∧ run.status = .canceled)

def failRunIfActive (runs : List StoredRun) (runId : String) (endTime : Int) :
    List StoredRun × Bool :=
  let active (status : RunStatus) : Bool := status ∈ [.notStarted, .queued, .started]
  (updateWhere runs runId active .failure (some endTime),
    runs.any fun run => run.runId = runId ∧ active run.status)

section Status

variable {runs : List StoredRun} {runId other : String} {status : RunStatus}

end Status

end Rivers
