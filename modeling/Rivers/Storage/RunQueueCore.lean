import Rivers.Concurrency.RunTable
import Rivers.Lib.Retry

/-! The batch writes of `storage/surrealdb_backend/run_queue`. -/

namespace Rivers

structure RunRow extends StoredRun where
  codeLocationId : String := "default"
  deriving DecidableEq

structure RunQueuedEvent where
  codeLocationId : String
  runId : String
  partitionKey : Option PartitionKey
  timestamp : Int
  metadata : List (String × String)
  deriving DecidableEq

structure RunQueuedRow where
  recordId : String
  event : RunQueuedEvent
  deriving DecidableEq

structure RunStore where
  runs : List RunRow
  events : List RunQueuedRow
  deriving DecidableEq

def runQueuedEvent (record : RunRow) : RunQueuedEvent :=
  { codeLocationId := record.codeLocationId
    runId := record.runId
    partitionKey := record.partitionKey
    timestamp := record.startTime
    metadata := [("rivers/priority", toString record.priority)] }

inductive StorageError where
  | transient
  | uniqueIndexViolation
  | other
  deriving DecidableEq

/-- What becomes of one query. -/
inductive QueryFault where
  | notExecuted (error : StorageError)
  | executed (failing : List Nat) (conflict : Bool) (lost : Option StorageError)
  deriving DecidableEq

def QueryFault.answer : QueryFault → Except StorageError Unit
  | .notExecuted error | .executed _ _ (some error) => .error error
  | .executed _ _ none => .ok ()

inductive Statement where
  | insertRuns (runs : List RunRow)
  | insertEvents (events : List RunQueuedRow)
  deriving DecidableEq

def newIds (ids stored : List String) : Bool :=
  ids.Nodup && ids.all fun id => id ∉ stored

namespace Statement

def apply (store : RunStore) : Statement → Option RunStore
  | .insertRuns runs =>
      if newIds (runs.map (·.runId)) (store.runs.map (·.runId)) then
        some { store with runs := store.runs ++ runs }
      else none
  | .insertEvents events =>
      if newIds (events.map (·.recordId)) (store.events.map (·.recordId)) then
        some { store with events := store.events ++ events }
      else none

def applyAll (failing : List Nat) : (index : Nat) → List Statement → RunStore → Option RunStore
  | _, [], store => some store
  | index, statement :: statements, store =>
      if index ∈ failing then none
      else (statement.apply store).bind (applyAll failing (index + 1) statements)

def applyEach (failing : List Nat) : (index : Nat) → List Statement → RunStore → RunStore
  | _, [], store => store
  | index, statement :: statements, store =>
      applyEach failing (index + 1) statements
        (if index ∈ failing then store else (statement.apply store).getD store)

end Statement

namespace QueryFault

def transaction (statements : List Statement) (fault : QueryFault) (store : RunStore) : RunStore :=
  match fault with
  | .notExecuted _ => store
  | .executed failing conflict _ =>
      if conflict then store else (Statement.applyAll failing 0 statements store).getD store

def query (statements : List Statement) (fault : QueryFault) (store : RunStore) : RunStore :=
  match fault with
  | .notExecuted _ => store
  | .executed failing _ _ => Statement.applyEach failing 0 statements store

end QueryFault

structure Outage where
  maxRetries : Nat
  outOfTime : Nat → Bool
  faults : Nat → QueryFault

namespace Outage

variable (outage : Outage)

def pattern : Retry.Pattern QueryFault StorageError Unit where
  again index error := error = .transient && !outage.outOfTime index
  answer := QueryFault.answer
  faults := outage.faults

def withRetry (effect : QueryFault → RunStore → RunStore) (store : RunStore) :
    Except StorageError Unit × RunStore :=
  Retry.run outage.pattern.again
    (fun attempt store => ((outage.faults attempt).answer, effect (outage.faults attempt) store))
    outage.maxRetries 0 store

end Outage

def swallowPhantomCommit : Except StorageError Unit × RunStore → Except StorageError Unit × RunStore
  | (.error .uniqueIndexViolation, store) => (.ok (), store)
  | result => result

section Calls

variable (outage : Outage) (store : RunStore)

/-- The statements of `enqueue_run` and `enqueue_runs`; every record comes with the id of its event.
-/
def enqueueStatements (records : List (RunRow × String)) : List Statement :=
  [.insertRuns (records.map (·.1)),
    .insertEvents (records.map fun record => ⟨record.2, runQueuedEvent record.1⟩)]

def enqueueRun (record : RunRow) (eventId : String) : Except StorageError Unit × RunStore :=
  swallowPhantomCommit
    (outage.withRetry (QueryFault.transaction (enqueueStatements [(record, eventId)])) store)

def enqueueRuns (records : List (RunRow × String)) : Except StorageError Unit × RunStore :=
  if records = [] then (.ok (), store)
  else swallowPhantomCommit (outage.withRetry (QueryFault.transaction (enqueueStatements records))
    store)

def createRuns (runs : List RunRow) : Except StorageError Unit × RunStore :=
  if runs = [] then (.ok (), store)
  else swallowPhantomCommit
    (outage.withRetry (QueryFault.query (runs.map fun run => .insertRuns [run])) store)

end Calls

end Rivers
