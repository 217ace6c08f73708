import Rivers.Backfill.ProcessCore

/-! One execution of a backfill (`execute_backfill_with`) and the monitor's passes after it. -/

namespace Rivers

inductive GroupOutcome where
  | linkRefused (canceledAt : Int)
  | linkError
  -- the run may have its row by then, which nothing ends
  | launchError (startedAt : Option Int)
  | ran (startedAt endedAt : Int) (cancelled succeeded : Bool) (stepFailed : List PartitionKey)
  deriving DecidableEq

structure GroupStep where
  group : List PartitionKey
  runId : String
  outcome : GroupOutcome
  deriving DecidableEq

structure LoopState where
  store : BackfillStore
  canceledKeys : List PartitionKey := []
  cancel : Bool := false
  stop : Bool := false

section Loop

variable (toJson : PartitionKey → String)

def BackfillStore.runLinked (store : BackfillStore) (runId : String) (group : List PartitionKey)
    (startedAt endedAt : Int) (status : RunStatus)
    (stepFailed : List PartitionKey) : BackfillStore :=
  let run := BackfillProcess.childRun toJson store.backfill runId group .started startedAt
  let finished : BackfillStore :=
    { store with
      runs := updateRunStatus (store.runs ++ [run]) runId status (some endedAt)
      stepFailures := store.stepFailures ++ stepFailed.map fun key => (runId, key) }
  (finished.getRunsByIds [runId]).foldl (·.recordBackfillRunOutcome ·) finished

def BackfillStore.launchFailed (store : BackfillStore) (runId : String) (group : List PartitionKey)
    (startedAt : Option Int) : BackfillStore :=
  let run := startedAt.map (BackfillProcess.childRun toJson store.backfill runId group .started)
  { store with runs := store.runs ++ run.toList }.updateBackfillProgress [] [] group []

def runGroup (state : LoopState) (step : GroupStep) : LoopState :=
  let stops := state.store.backfill.failurePolicy = .stopOnFailure
  if state.cancel || state.stop then { state with canceledKeys := state.canceledKeys ++ step.group }
  else
    match step.outcome with
    | .linkRefused canceledAt =>
        let (store, linked) := (state.store.cancelIfOpen canceledAt).linkBackfillRun step.runId
        { state with store, cancel := !linked, canceledKeys := state.canceledKeys ++ step.group }
    | .linkError => { state with store := state.store.updateBackfillProgress [] [] step.group [] }
    | .launchError startedAt =>
        let (store, _) := state.store.linkBackfillRun step.runId
        { state with store := store.launchFailed toJson step.runId step.group startedAt, stop := stops }
    | .ran startedAt endedAt cancelled succeeded stepFailed =>
        let (store, _) := state.store.linkBackfillRun step.runId
        let status := finalizeStatus cancelled succeeded
        { state with
          store := store.runLinked toJson step.runId step.group startedAt endedAt status stepFailed
          stop := status ≠ .success ∧ stops }

def groupSteps (backfill : BackfillRecord) (newId : Nat → String) (outcome : Nat → GroupOutcome) :
    List GroupStep :=
  (groupIntoRuns backfill.strategy backfill.partitionKeys).zipIdx.map fun (group, index) =>
    ⟨group, newId index, outcome index⟩

def executeBackfillWith (store : BackfillStore) (newId : Nat → String)
    (outcome : Nat → GroupOutcome) (now : Int) :
    Option BackfillStore :=
  if store.backfill.status ≠ .requested then none
  else
    let started : LoopState := { store := store.updateBackfillStatus .inProgress none }
    let looped := (groupSteps store.backfill newId outcome).foldl (runGroup toJson) started
    let settled := (looped.store.tryCompleteBackfill looped.canceledKeys now).1
    if looped.cancel ∧ looped.canceledKeys ≠ [] then
      some (settled.updateBackfillStatus .canceled (some now))
    else some settled

end Loop

/-- One pass of the monitor at `now`, with whether the pass before saw the backfill stalled. -/
def monitorPass (seen : BackfillStore × Bool) (now : Int) : BackfillStore × Bool :=
  let (store, stalledLastTick) := seen
  if store.backfill.status ≠ .inProgress then (store, false)
  else if store.backfill.runIds = [] then
    if backfillResumeGraceNs < now - store.backfill.createTime then
      if stalledLastTick then (store.resumeStalledBackfill, false) else (store, true)
    else (store, false)
  else ((store.tryCompleteBackfill [] now).1, false)

def monitorPasses (store : BackfillStore) (times : List Int) : BackfillStore :=
  (times.foldl monitorPass (store, false)).1

end Rivers
