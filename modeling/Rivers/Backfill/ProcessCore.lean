import Rivers.Backfill.StoreCore
import Rivers.Concurrency.RunStatusCore

/-! What acts on a backfill, one storage operation at a time. -/

namespace Rivers

structure ExecutionLoop where
  groups : List (List PartitionKey)
  canceledKeys : List PartitionKey := []
  cancel : Bool := false
  stop : Bool := false
  deriving DecidableEq

inductive Settler where
  | execution (canceledKeys : List PartitionKey) (cancel : Bool)
  | cancellation
  | monitor
  deriving DecidableEq

def Settler.extraCanceled : Settler → List PartitionKey
  | .execution canceledKeys _ => canceledKeys
  | .cancellation | .monitor => []

inductive BackfillProcess where
  -- `execute_backfill_with` and `execute_backfill_queued_inner`
  | execute (queued : Bool)
  | fail (error : String)
  | markInProgress (queued : Bool)
  | link (loop : ExecutionLoop)
  | recordFailed (group : List PartitionKey) (loop : ExecutionLoop)
  | launch (runId : String) (group : List PartitionKey) (loop : ExecutionLoop)
  | finishRun (runId : String) (group : List PartitionKey) (loop : ExecutionLoop)
  | recordOutcome (run : List StoredRun) (loop : ExecutionLoop)
  | markCanceled
  | submit
  | recheck (runIds : List String)
  -- `try_complete_backfill`
  | readBackfill (caller : Settler)
  | readRuns (caller : Settler) (backfill : BackfillRecord)
  | readFailures (caller : Settler) (backfill : BackfillRecord) (runs : List StoredRun)
  | settle (caller : Settler) (settled : BackfillStatus × OutcomeRows)
  -- `cancel_backfill` and its cascade
  | cancelIfOpen
  | readCanceled
  | readLinks
  | readLinkedRuns (runIds : List String)
  -- as the cascade of a cancellation, or as the sweep of a submission
  | cancelRuns (submission : Bool) (runIds : List String)
  | recordCanceled (submission : Bool) (runId : String) (runIds : List String)
  -- `cancel_backfill` of the user interface
  | cancelFromUi
  -- the monitor
  | monitor
  | resume
  -- the queue coordinator and the executor of a queued run
  | dequeueRun (runId : String)
  | startRun (runId : String)
  | finishQueuedRun (runId : String)
  | recordQueuedRun (run : List StoredRun)
  deriving DecidableEq

/-- What the outside answers to an operation. -/
structure BackfillAnswer where
  succeeds : Bool := true
  -- whether a launch that fails has written the row of its run
  rowWritten : Bool := false
  error : String := ""
  signaled : Bool := false
  verbChanged : Bool := false
  stalledLastTick : Bool := false
  runIds : List String := []
  runSucceeds : Bool := true
  runCancelled : Bool := false
  now : Int := 0

def backfillResumeGraceNs : Int :=
  180 * 1000000000

namespace BackfillProcess

variable (toJson : PartitionKey → String)

def childRun (backfill : BackfillRecord) (runId : String) (group : List PartitionKey)
    (status : RunStatus) (now : Int) : StoredRun where
  runId := runId
  tags := backfill.tags
  priority := backfill.priority
  startTime := now
  status := status
  partitionKey := some (bundleKeys toJson group)
  launchedBy := .backfill backfill.backfillId

def settled (answer : BackfillAnswer) (status : Option BackfillStatus) : Settler →
    List BackfillProcess
  | .execution canceledKeys cancel =>
      if (cancel || answer.signaled) ∧ canceledKeys ≠ [] then [.markCanceled] else []
  | .cancellation =>
      match status with
      | some .canceled => [.readLinks]
      | some _ => []
      | none => [.cancelIfOpen]
  | .monitor => []

/-- An execution goes on when its completion fails; the other callers return the error. -/
def unsettled (answer : BackfillAnswer) : Settler → List BackfillProcess
  | .execution canceledKeys cancel => settled answer none (.execution canceledKeys cancel)
  | .cancellation | .monitor => []

def uncanceled (answer : BackfillAnswer) (submission : Bool) (runIds : List String) :
    List BackfillProcess :=
  if submission then [.fail answer.error] else [.cancelRuns submission runIds]

/-- One storage operation: the store after it, and what the process is then, if anything. -/
def take (store : BackfillStore) (answer : BackfillAnswer) :
    BackfillProcess → BackfillStore × List BackfillProcess
  | .execute queued =>
      if store.backfill.status ≠ .requested then (store, [])
      else if answer.verbChanged then (store, [.fail answer.error])
      else (store, [.markInProgress queued])
  | .fail error => (store.failBackfill answer.now error, [])
  | .markInProgress queued =>
      let next :=
        if queued then .submit
        else .link { groups := groupIntoRuns store.backfill.strategy store.backfill.partitionKeys }
      (store.updateBackfillStatus .inProgress none, [next])
  | .link loop =>
      match loop.groups with
      | [] => (store, [.readBackfill (.execution loop.canceledKeys loop.cancel)])
      | group :: groups =>
          let cancel := loop.cancel || answer.signaled
          let skipped := { loop with groups, cancel, canceledKeys := loop.canceledKeys ++ group }
          if cancel || loop.stop then (store, [.link skipped])
          else if !answer.succeeds then (store, [.recordFailed group { loop with groups, cancel }])
          else
            let runId := answer.runIds.headD ""
            let (after, linked) := store.linkBackfillRun runId
            if linked then (after, [.launch runId group { loop with groups, cancel }])
            else (after, [.link { skipped with cancel := true }])
  | .recordFailed group loop =>
      (if answer.succeeds then store.updateBackfillProgress [] [] group [] else store, [.link loop])
  | .launch runId group loop =>
      let run := childRun toJson store.backfill runId group .started answer.now
      let launched := { store with runs := store.runs ++ [run] }
      if answer.succeeds then (launched, [.finishRun runId group loop])
      else
        let stop := loop.stop || store.backfill.failurePolicy = .stopOnFailure
        (if answer.rowWritten then launched else store, [.recordFailed group { loop with stop }])
  | .finishRun runId group loop =>
      let status := finalizeStatus answer.runCancelled answer.runSucceeds
      let succeeded := answer.succeeds && status = .success
      let stop := loop.stop || (!succeeded && store.backfill.failurePolicy = .stopOnFailure)
      if answer.succeeds then
        let after := { store with runs := updateRunStatus store.runs runId status (some answer.now) }
        (after, [.recordOutcome (after.getRunsByIds [runId]) { loop with stop }])
      else (store, [.recordFailed group { loop with stop }])
  | .recordOutcome run loop =>
      (if answer.succeeds then run.foldl (·.recordBackfillRunOutcome ·) store else store,
        [.link loop])
  | .markCanceled => (store.updateBackfillStatus .canceled (some answer.now), [])
  | .submit =>
      if answer.succeeds then
        let groups := groupIntoRuns store.backfill.strategy store.backfill.partitionKeys
        let records := (answer.runIds.zip groups).map fun (runId, group) =>
          childRun toJson store.backfill runId group .queued answer.now
        (store.enqueueBackfillRuns records, [.recheck (records.map (·.runId))])
      else (store, [.fail answer.error])
  | .recheck runIds =>
      if !answer.succeeds then (store, [.fail answer.error])
      else (store, if store.backfill.status = .inProgress then [] else [.cancelRuns true runIds])
  | .readBackfill caller =>
      if !answer.succeeds then (store, unsettled answer caller)
      else if store.backfill.status ≠ .inProgress then (store, settled answer none caller)
      else (store, [.readRuns caller store.backfill])
  | .readRuns caller backfill =>
      let runs := store.getRunsByIds backfill.runIds
      if !answer.succeeds then (store, unsettled answer caller)
      else if mayComplete backfill runs caller.extraCanceled then
        (store, [.readFailures caller backfill runs])
      else (store, settled answer none caller)
  | .readFailures caller backfill runs =>
      let failures := store.stepFailedMembers
        ((runs.filter fun run => run.status = .success).map (·.runId))
      if !answer.succeeds then (store, unsettled answer caller)
      else (store, [.settle caller (settlement backfill runs caller.extraCanceled failures)])
  | .settle caller outcome =>
      if !answer.succeeds then (store, unsettled answer caller)
      else (store.settle outcome answer.now, settled answer (some outcome.1) caller)
  | .cancelFromUi => (store.updateBackfillStatus .canceled (some answer.now), [])
  | .cancelIfOpen => (store.cancelIfOpen answer.now, [.readCanceled])
  | .readCanceled =>
      (store, if store.backfill.status = .canceled then [.readLinks] else [])
  | .readLinks => (store, [.readLinkedRuns store.backfill.runIds])
  | .readLinkedRuns runIds =>
      let terminal := ((store.getRunsByIds runIds).filter (·.status.isTerminal)).map (·.runId)
      (store, [.cancelRuns false (runIds.filter fun runId => runId ∉ terminal)])
  | .cancelRuns _ [] => (store, [])
  | .cancelRuns submission (runId :: runIds) =>
      let (after, canceled) := cancelQueuedRun store.runs runId answer.now
      let next :=
        if canceled then .recordCanceled submission runId runIds
        else .cancelRuns submission runIds
      if answer.succeeds then ({ store with runs := after }, [next])
      else (store, uncanceled answer submission runIds)
  | .recordCanceled submission runId runIds =>
      if answer.succeeds then
        ((store.getRunsByIds [runId]).foldl (·.recordBackfillRunOutcome ·) store,
          [.cancelRuns submission runIds])
      else (store, uncanceled answer submission runIds)
  | .monitor =>
      if store.backfill.status ≠ .inProgress then (store, [])
      else if store.backfill.runIds = [] then
        let stalled := backfillResumeGraceNs < answer.now - store.backfill.createTime ∧
          answer.stalledLastTick
        (store, if stalled then [.resume] else [])
      else (store, [.readBackfill .monitor])
  | .resume => (store.resumeStalledBackfill, [])
  | .dequeueRun runId =>
      ({ store with runs := updateRunStatus store.runs runId .notStarted none }, [.startRun runId])
  | .startRun runId =>
      let (after, started) := tryStartRun store.runs runId
      ({ store with runs := after }, if started = some true then [.finishQueuedRun runId] else [])
  | .finishQueuedRun runId =>
      let status := finalizeStatus answer.runCancelled answer.runSucceeds
      let after := { store with runs := updateRunStatus store.runs runId status (some answer.now) }
      (after, [.recordQueuedRun (after.getRunsByIds [runId])])
  | .recordQueuedRun run => (run.foldl (·.recordBackfillRunOutcome ·) store, [])

end BackfillProcess

structure BackfillSystem where
  store : BackfillStore
  processes : List BackfillProcess := []

/-- A process whose operation fails for good, or whose daemon stops, takes no further one. -/
inductive BackfillAction where
  | spawn (process : BackfillProcess)
  | stop (process : BackfillProcess)
  | take (process : BackfillProcess) (answer : BackfillAnswer)

namespace BackfillSystem

variable (toJson : PartitionKey → String) (system : BackfillSystem)

/-- What may begin at any time. -/
def mayBegin : BackfillProcess → Bool
  | .execute _ | .readBackfill .cancellation | .cancelFromUi | .monitor => true
  | .dequeueRun runId =>
      system.store.runs.any fun run =>
        run.runId = runId ∧ run.status = .queued ∧
        run.launchedBy = .backfill system.store.backfill.backfillId
  | _ => false

def step : BackfillAction → Option BackfillSystem
  | .spawn process =>
      if system.mayBegin process then
        some { system with processes := system.processes ++ [process] }
      else none
  | .stop process => some { system with processes := system.processes.erase process }
  | .take process answer =>
      if process ∈ system.processes then
        let (store, successors) := process.take toJson system.store answer
        some { store, processes := system.processes.erase process ++ successors }
      else none

end BackfillSystem

end Rivers
