import Rivers.Backfill.GroupingCore
import Rivers.Concurrency.RunTable

/-! The stored backfill of `storage/surrealdb_backend`. -/

namespace Rivers

inductive BackfillStatus where
  | requested
  | inProgress
  | completedSuccess
  | completedFailed
  | canceled
  deriving DecidableEq, Repr

def BackfillStatus.isTerminal : BackfillStatus → Bool
  | .requested | .inProgress => false
  | .completedSuccess | .completedFailed | .canceled => true

inductive BackfillFailurePolicy where
  | continueOnFailure
  | stopOnFailure
  deriving DecidableEq, Repr

inductive BackfillOutcome where
  | completed
  | failed
  | canceled
  deriving DecidableEq, Repr

abbrev OutcomeRows := List (PartitionKey × BackfillOutcome)

/-- The record as `get_backfill` fills it in; `outcomes` are the rows of `backfill_outcomes`. -/
structure BackfillRecord where
  backfillId : String
  status : BackfillStatus := .requested
  strategy : BackfillStrategy := .multiRun
  failurePolicy : BackfillFailurePolicy := .continueOnFailure
  partitionKeys : List PartitionKey
  runIds : List String := []
  outcomes : OutcomeRows := []
  tags : List Tag := []
  priority : Int := -10
  createTime : Int := 0
  endTime : Option Int := none
  error : Option String := none
  deriving DecidableEq

def BackfillRecord.settledAs (backfill : BackfillRecord) (outcome : BackfillOutcome) :
    List PartitionKey :=
  (backfill.outcomes.filter fun row => row.2 = outcome).map (·.1)

structure BackfillStore where
  backfill : BackfillRecord
  runs : List StoredRun := []
  stepFailures : List (String × PartitionKey) := []
  deriving DecidableEq

section Rows

def putOutcome (rows : OutcomeRows) (row : PartitionKey × BackfillOutcome) : OutcomeRows :=
  Assoc.upsert row.1 (fun _ => row.2) rows

def recordOutcomes (rows later : OutcomeRows) : OutcomeRows :=
  later.foldl putOutcome rows

def settledRows (completed failed canceled : List PartitionKey) : OutcomeRows :=
  let rowsOf (outcome : BackfillOutcome) (keys : List PartitionKey) : OutcomeRows :=
    keys.map fun key => (key, outcome)
  recordOutcomes [] (rowsOf .completed completed ++ rowsOf .canceled canceled ++
    rowsOf .failed failed)

def linkRuns (links runIds : List String) : List String :=
  runIds.foldl (fun links runId => if runId ∈ links then links else links ++ [runId]) links

structure SettledRunKeys where
  completed : List PartitionKey := []
  failed : List PartitionKey := []
  canceled : List PartitionKey := []

def SettledRunKeys.ofRun (run : StoredRun) (stepFailed : PartitionKey → Bool) : SettledRunKeys :=
  match run.partitionKey with
  | none => {}
  | some key =>
      match run.status with
      | .success =>
          { completed := key.members.filter fun member => !stepFailed member
            failed := key.members.filter stepFailed }
      | .failure => { failed := key.members }
      | .canceled => { canceled := key.members }
      | _ => {}

end Rows

namespace BackfillStore

variable (store : BackfillStore)

def updateBackfillStatus (status : BackfillStatus) (endTime : Option Int) : BackfillStore :=
  { store with
    backfill := { store.backfill with status, endTime := endTime <|> store.backfill.endTime } }

def updateBackfillProgress (runIds : List String) (completed failed canceled : List PartitionKey) :
    BackfillStore :=
  { store with
    backfill := { store.backfill with
      runIds := linkRuns store.backfill.runIds runIds
      outcomes := recordOutcomes store.backfill.outcomes (settledRows completed failed canceled) } }

def linkBackfillRun (runId : String) : BackfillStore × Bool :=
  if store.backfill.status = .inProgress then
    ({ store with backfill := { store.backfill with runIds := linkRuns store.backfill.runIds [runId] } }, true)
  else (store, false)

def cancelIfOpen (now : Int) : BackfillStore :=
  if store.backfill.status ∈ [.requested, .inProgress] then
    store.updateBackfillStatus .canceled (some now)
  else store

def resumeStalledBackfill : BackfillStore :=
  if store.backfill.status = .inProgress ∧ store.backfill.runIds = [] then
    store.updateBackfillStatus .requested none
  else store

def failBackfill (now : Int) (error : String) : BackfillStore :=
  { store with
    backfill := { store.backfill with status := .completedFailed, endTime := some now, error := some error } }

def getRunsByIds (runIds : List String) : List StoredRun :=
  store.runs.filter fun run => run.runId ∈ runIds

def stepFailedMembers (runIds : List String) : List (String × PartitionKey) :=
  store.stepFailures.filter fun failure => failure.1 ∈ runIds

def recordBackfillRunOutcome (run : StoredRun) : BackfillStore :=
  if run.launchedBy = .backfill store.backfill.backfillId ∧ run.status.isTerminal then
    let settled := SettledRunKeys.ofRun run fun key => (run.runId, key) ∈ store.stepFailures
    store.updateBackfillProgress [] settled.completed settled.failed settled.canceled
  else store

def enqueueBackfillRuns (records : List StoredRun) : BackfillStore :=
  { store with
    backfill := { store.backfill with runIds := linkRuns store.backfill.runIds (records.map (·.runId)) }
    runs := store.runs ++ records }

end BackfillStore

def StoredRun.outcomeOf (run : StoredRun) (stepFailures : List (String × PartitionKey))
    (member : PartitionKey) :
    Option BackfillOutcome :=
  match run.status with
  | .success => some (if (run.runId, member) ∈ stepFailures then .failed else .completed)
  | .failure => some .failed
  | .canceled => some .canceled
  | _ => none

section Completion

variable (backfill : BackfillRecord) (runs : List StoredRun) (extraCanceled : List PartitionKey)

def membersOf (keys : List PartitionKey) : List PartitionKey :=
  keys.flatMap (·.members)

def ranMembers : List PartitionKey :=
  membersOf (runs.filterMap (·.partitionKey))

/-- Members settled as `outcome` that neither a run nor `extra_canceled` accounts for. -/
def settledWithoutRun (outcome : BackfillOutcome) : List PartitionKey :=
  (membersOf (backfill.settledAs outcome)).filter fun key =>
    key ∉ ranMembers runs ∧ key ∉ membersOf extraCanceled

def accounted (key : PartitionKey) : Bool :=
  key ∈ ranMembers runs ∨ key ∈ membersOf extraCanceled ∨
    key ∈ settledWithoutRun backfill runs extraCanceled .failed ∨
    key ∈ settledWithoutRun backfill runs extraCanceled .canceled

def mayComplete : Bool :=
  backfill.status = .inProgress ∧ (∀ run ∈ runs, run.status.isTerminal) ∧
  ¬(runs = [] ∧ extraCanceled = []) ∧
    ∀ key ∈ membersOf backfill.partitionKeys, accounted backfill runs extraCanceled key

variable (stepFailures : List (String × PartitionKey))

def settledByRun (run : StoredRun) : SettledRunKeys :=
  SettledRunKeys.ofRun run fun key => (run.runId, key) ∈ stepFailures

def completedKeys : List PartitionKey :=
  runs.flatMap fun run => (settledByRun stepFailures run).completed

def failedKeys : List PartitionKey :=
  (runs.flatMap fun run => (settledByRun stepFailures run).failed) ++
    settledWithoutRun backfill runs extraCanceled .failed

def canceledKeys : List PartitionKey :=
  (runs.flatMap fun run => (settledByRun stepFailures run).canceled) ++ extraCanceled ++
    settledWithoutRun backfill runs extraCanceled .canceled

def keylessRun (status : RunStatus) : Bool :=
  runs.any fun run => run.partitionKey = none ∧ run.status = status

def settledStatus : BackfillStatus :=
  if failedKeys backfill runs extraCanceled stepFailures ≠ [] ∨
      keylessRun runs .failure then .completedFailed
  else if canceledKeys backfill runs extraCanceled stepFailures ≠ [] ∨
      keylessRun runs .canceled then .canceled
  else .completedSuccess

def settlement : BackfillStatus × OutcomeRows :=
  (settledStatus backfill runs extraCanceled stepFailures,
    settledRows (completedKeys runs stepFailures)
      (failedKeys backfill runs extraCanceled stepFailures)
      (canceledKeys backfill runs extraCanceled stepFailures))

end Completion

namespace BackfillStore

variable (store : BackfillStore)

def settle (settled : BackfillStatus × OutcomeRows) (now : Int) : BackfillStore :=
  { store with
    backfill := { store.backfill with status := settled.1, endTime := some now, outcomes := recordOutcomes [] settled.2 } }

def tryCompleteBackfill (extraCanceled : List PartitionKey) (now : Int) :
    BackfillStore × Option BackfillStatus :=
  let runs := store.getRunsByIds store.backfill.runIds
  if mayComplete store.backfill runs extraCanceled then
    let failures := store.stepFailedMembers
      ((runs.filter fun run => run.status = .success).map (·.runId))
    let settled := settlement store.backfill runs extraCanceled failures
    (store.settle settled now, some settled.1)
  else (store, none)

end BackfillStore

end Rivers
