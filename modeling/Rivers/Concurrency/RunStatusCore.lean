import Rivers.Concurrency.RunTable

/-! The daemons that write run statuses, as one system. -/

namespace Rivers

/-- Where the coordinator's loop stands. -/
inductive CoordinatorPhase where
  | idle
  | dequeuing (toLaunch written : List CoordinatorRunInfo)
  | launching (launched : List CoordinatorRunInfo)
  | reaping (runId : String)
  deriving DecidableEq, Repr

inductive ExecutorPhase where
  | launched
  | executing
  | finalizing (status : RunStatus)
  deriving DecidableEq, Repr

structure RunSystem where
  runs : List StoredRun := []
  cancelRequested : Finset String := ∅
  outcomes : Finset String := ∅
  coordinator : CoordinatorPhase := .idle
  activeRuns : Finset String := ∅
  executors : List (String × ExecutorPhase) := []
  -- whether runs are launched as `Run` resources, and those not yet in a terminal phase
  kubernetes : Bool := false
  operated : Finset String := ∅
  -- what the operator has decided and not yet written
  syncing : List (String × RunStatus) := []
  -- calls of `RunHandle.cancel` that have read a live run
  canceling : List String := []

inductive RunAction where
  | enqueueRun (run : StoredRun)
  | createRun (run : StoredRun) (phase : ExecutorPhase)
  | tickQuery (queue : List CoordinatorRunInfo)
  | dequeueRun (runId : String)
  | tickError
  | launch (runId : String) (accepted : Bool)
  | requestCancellation (runId : String)
  | cancelQueuedRun (runId : String) (now : Int)
  | startRun (runId : String)
  | finishPlan (runId : String) (succeeded : Bool)
  | finalizeRun (runId : String) (status : RunStatus) (now : Int)
  | setRunOutcome (runId : String)
  | failRun (runId : String) (now : Int)
  | healthExited (runId : String)
  | healthMissing (runId : String) (outcomeRead : Bool)
  | reapRun (runId : String) (now : Int)
  | readHandle (runId : String)
  | cancelHandle (runId : String) (now : Int)
  | createExecutor (runId : String)
  | decidePhase (runId : String) (status : RunStatus)
  | closeRun (runId : String)
  | syncRunStatusToStorage (runId : String) (status : RunStatus) (now : Int)
  deriving DecidableEq

def RunAction.write (runs : List StoredRun) : RunAction → List StoredRun
  | .enqueueRun run | .createRun run _ => runs ++ [run]
  | .dequeueRun runId => updateRunStatus runs runId .notStarted none
  | .cancelQueuedRun runId now => (Rivers.cancelQueuedRun runs runId now).1
  | .startRun runId => (tryStartRun runs runId).1
  | .finalizeRun runId status now | .syncRunStatusToStorage runId status now =>
      updateRunStatus runs runId status (some now)
  | .failRun runId now => (failRunIfActive runs runId now).1
  | .reapRun runId now | .cancelHandle runId now => updateRunStatus runs runId .canceled (some now)
  | .tickQuery _ | .tickError | .launch _ _ | .requestCancellation _ | .finishPlan _ _
  | .setRunOutcome _ | .healthExited _ | .healthMissing _ _ | .readHandle _ | .createExecutor _
  | .decidePhase _ _ | .closeRun _ => runs

def CoordinatorPhase.afterLaunch : List CoordinatorRunInfo → CoordinatorPhase
  | [] => .idle
  | launched => .launching launched

def CoordinatorPhase.afterWrite (written : List CoordinatorRunInfo) :
    List CoordinatorRunInfo → CoordinatorPhase
  | [] => .afterLaunch written
  | toLaunch => .dequeuing toLaunch written

def finalizeStatus (wasCancelled success : Bool) : RunStatus :=
  if wasCancelled then .canceled else if success then .success else .failure

theorem finalizeStatus_isTerminal (wasCancelled success : Bool) :
    (finalizeStatus wasCancelled success).isTerminal = true := by
  cases wasCancelled <;> cases success <;> rfl

instance (queued queue : List CoordinatorRunInfo) : Decidable (IsDequeueOrder queued queue) :=
  decidable_of_iff (queue.Perm queued ∧ queue.Pairwise dequeuesBefore)
    ⟨fun both => ⟨both.1, both.2⟩, fun order => ⟨order.perm, order.sorted⟩⟩

namespace RunSystem

variable (config : RunQueueConfig) (system : RunSystem)

def runsWith (statuses : List RunStatus) : List CoordinatorRunInfo :=
  (system.runs.filter fun run => run.status ∈ statuses).map (·.toCoordinatorRunInfo)

def moveExecutor (runId : String) (phase : ExecutorPhase) (next : Option ExecutorPhase) :
    RunSystem :=
  { system with
    executors := system.executors.erase (runId, phase) ++ next.toList.map fun phase =>
      (runId, phase) }

def addExecutor (runId : String) (phase : ExecutorPhase) : RunSystem :=
  { system with executors := system.executors ++ [(runId, phase)] }

/-- What the action makes of everything but the `runs` table; `none` where no daemon is about to
take it. -/
def advance : RunAction → Option RunSystem
  | .enqueueRun run =>
      if run.status = .queued ∧ statusOf system.runs run.runId = none then some system else none
  -- a run outside the queue: its row is written as `Started` by or for its executor
  | .createRun run phase =>
      if run.status = .started ∧ statusOf system.runs run.runId = none ∧
        phase ∈ [.launched, .executing] then
        some (system.addExecutor run.runId phase)
      else none
  | .tickQuery queue =>
      if system.coordinator = .idle ∧ IsDequeueOrder (system.runsWith [.queued]) queue then
        let inProgress := system.runsWith [.notStarted, .started]
        let toLaunch := (tick (fun _ => true) config inProgress queue).launched.getD []
        some { system with coordinator := .afterWrite [] toLaunch }
      else none
  | .dequeueRun runId =>
      match system.coordinator with
      | .dequeuing (run :: toLaunch) written =>
          if run.runId = runId then
            some { system with coordinator := .afterWrite (written ++ [run]) toLaunch }
          else none
      | _ => none
  -- a tick that fails returns none of the runs it has written
  | .tickError =>
      match system.coordinator with
      | .dequeuing _ _ => some { system with coordinator := .idle }
      | _ => none
  | .launch runId accepted =>
      match system.coordinator with
      | .launching (run :: launched) =>
          if run.runId = runId then
            let next := { system with coordinator := .afterLaunch launched }
            let active := { next with activeRuns := insert runId system.activeRuns }
            if !accepted then some next
            else if system.kubernetes then some { active with operated := insert runId system.operated }
            else some (active.addExecutor runId .launched)
          else none
      | _ => none
  | .requestCancellation runId =>
      some { system with cancelRequested := insert runId system.cancelRequested }
  | .startRun runId =>
      if (runId, .launched) ∈ system.executors then
        let started := (tryStartRun system.runs runId).2 = some true
        some (system.moveExecutor runId .launched (if started then some .executing else none))
      else none
  | .finishPlan runId succeeded =>
      if (runId, .executing) ∈ system.executors then
        let status := finalizeStatus (runId ∈ system.cancelRequested) succeeded
        some (system.moveExecutor runId .executing (some (.finalizing status)))
      else none
  | .finalizeRun runId status _ =>
      if (runId, .finalizing status) ∈ system.executors then
        some (system.moveExecutor runId (.finalizing status) none)
      else none
  | .setRunOutcome runId => some { system with outcomes := insert runId system.outcomes }
  | .cancelQueuedRun _ _ | .failRun _ _ => some system
  | .healthExited runId =>
      if system.coordinator = .idle ∧ runId ∈ system.activeRuns then
        some { system with activeRuns := system.activeRuns.erase runId }
      else none
  -- a read of the outcome that fails counts as no outcome
  | .healthMissing runId outcomeRead =>
      if system.coordinator = .idle ∧ runId ∈ system.activeRuns then
        if runId ∈ system.outcomes ∧ outcomeRead then
          some { system with activeRuns := system.activeRuns.erase runId }
        else some { system with coordinator := .reaping runId }
      else none
  | .reapRun runId _ =>
      if system.coordinator = .reaping runId then
        some { system with coordinator := .idle, activeRuns := system.activeRuns.erase runId }
      else none
  | .readHandle runId =>
      match statusOf system.runs runId with
      | some status =>
          if status.isTerminal then some system
          else some { system with canceling := runId :: system.canceling }
      | none => none
  | .cancelHandle runId _ =>
      if runId ∈ system.canceling then
        some { system with canceling := system.canceling.erase runId }
      else none
  | .createExecutor runId =>
      if runId ∈ system.operated then some (system.addExecutor runId .launched) else none
  | .decidePhase runId status =>
      if runId ∈ system.operated then some { system with syncing := (runId, status) :: system.syncing }
      else none
  | .closeRun runId => some { system with operated := system.operated.erase runId }
  | .syncRunStatusToStorage runId status _ =>
      if (runId, status) ∈ system.syncing then
        some { system with syncing := system.syncing.erase (runId, status) }
      else none

def step (action : RunAction) : Option RunSystem :=
  (system.advance config action).map fun next => { next with runs := action.write system.runs }

end RunSystem

end Rivers
