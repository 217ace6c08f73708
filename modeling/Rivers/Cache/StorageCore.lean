import Rivers.Cache.CacheCore
import Rivers.Condition.EvalCore

/-! The storage tables that the condition cache reads. -/

namespace Rivers

open FiniteMap

inductive RunStatus where
  | queued
  | notStarted
  | started
  | success
  | failure
  | canceled
  deriving DecidableEq, Repr

def RunStatus.isTerminal : RunStatus → Bool
  | .success | .failure | .canceled => true
  | .queued | .notStarted | .started => false

structure RunRecord where
  runId : String
  nodeNames : List String
  status : RunStatus
  startTime : Int
  endTime : Option Int := none
  partitionKey : Option PartitionKey := none
  action : Option String := none
  tags : RunTags := []
  deriving DecidableEq

namespace RunRecord

variable (run : RunRecord)

def isAction : Bool :=
  run.action.isSome

def isTerminal : Bool :=
  run.status.isTerminal

def runTs : Int :=
  run.endTime.getD run.startTime

def partitionSlots (isPartitioned : Bool) : List (Option PartitionKey) :=
  if isPartitioned then
    match run.partitionKey with
    | some key => key.members.map some
    | none => [none]
  else [none]

end RunRecord

inductive EventType where
  | materialization
  | observation
  | stepStart
  | stepSuccess
  | stepFailure
  deriving DecidableEq, Repr

structure EventRecord where
  eventType : EventType
  assetKey : Option String
  runId : String
  timestamp : Int
  partitionKey : Option PartitionKey := none
  deriving DecidableEq

structure StepOutcome where
  assetKey : String
  runId : String
  succeeded : Bool
  deriving DecidableEq, Repr

structure PartitionRow where
  lastTimestamp : Int
  lastRunId : Option String
  deriving DecidableEq, Repr

/-- Deletions are kept as newest deletion times; an edge leads from an asset to one it depends on.
-/
structure Storage where
  runs : List RunRecord := []
  records : HashMap String AssetRecord := ∅
  events : List EventRecord := []
  partitionRows : HashMap String (HashMap PartitionKey PartitionRow) := ∅
  assetDeletions : HashMap String Int := ∅
  partitionDeletions : HashMap String (HashMap PartitionKey Int) := ∅
  activeBackfills : BackfillState := {}
  topology : Option (List (String × String)) := none
  deriving DecidableEq

namespace Storage

variable (storage : Storage)

def getRunsSince (since : Int) : List RunRecord :=
  (storage.runs.filter fun run => since < run.startTime).insertionSort fun left right =>
    left.startTime ≤ right.startTime

def getRunsByIds (ids : Finset String) : List RunRecord :=
  (storage.runs.filter fun run => run.runId ∈ ids).insertionSort fun left right =>
    left.startTime < right.startTime ∨ left.startTime = right.startTime ∧ left.runId ≤ right.runId

def getAssetRecordsByKeys (keys : Finset String) : HashMap String AssetRecord :=
  retain storage.records fun key _ => key ∈ keys

def stepOutcomes (assetKeys runIds : Finset String) : List StepOutcome :=
  storage.events.filterMap fun event =>
    match event.assetKey with
    | none => none
    | some asset =>
        if event.runId ∈ runIds ∧ asset ∈ assetKeys then
          match event.eventType with
          | .stepSuccess => some ⟨asset, event.runId, true⟩
          | .stepFailure => some ⟨asset, event.runId, false⟩
          | _ => none
        else none

def materializedByRun (asset runId : String) : Bool :=
  storage.events.any fun event =>
    event.eventType = .materialization && event.assetKey = some asset && event.runId = runId

def rowsOf (asset : String) : HashMap PartitionKey PartitionRow :=
  getD storage.partitionRows asset ∅

def getPartitionTimestamps (asset : String) : HashMap PartitionKey Int :=
  mapValues (storage.rowsOf asset) (·.lastTimestamp)

def getPartitionTimestampsSince (asset : String) (since : Int) : HashMap PartitionKey Int :=
  retain (storage.getPartitionTimestamps asset) fun _ timestamp => since < timestamp

def getPartitionRunsForKeys (asset : String) (keys : Finset PartitionKey) :
    HashMap PartitionKey (Option String) :=
  mapValues (retain (storage.rowsOf asset) fun key _ => key ∈ keys) (·.lastRunId)

def getInProgressPartitions (asset : String) : Finset PartitionKey :=
  let started := (storage.runs.filter fun run => run.status = .started && !run.isAction &&
    run.nodeNames.contains asset).map (·.runId)
  (storage.events.filterMap fun event =>
    if event.eventType = .stepStart && event.assetKey = some asset &&
        started.contains event.runId then
      event.partitionKey
    else none).toFinset

def getObservationsSince (since : Int) : List EventRecord :=
  storage.events.filter fun event => event.eventType = .observation && since < event.timestamp

def getLatestObservationTs : Option Int :=
  ((storage.events.filter fun event => event.eventType = .observation).map (·.timestamp)).max?

end Storage

def maximum? (values : Finset Int) : Option Int :=
  if nonempty : values.Nonempty then some (values.max' nonempty) else none

def insertMax {α : Type} [DecidableEq α] (times : HashMap α Int) (key : α) (time : Int) :
    HashMap α Int :=
  times.insert key ((times.lookup key).elim time (max time))

def insertMaxAll {α : Type} [DecidableEq α] (times : HashMap α Int) (entries : List (α × Int)) :
    HashMap α Int :=
  entries.foldl (fun found entry => insertMax found entry.1 entry.2) times

namespace Storage

variable (storage : Storage)

/-- Failures of the asset's partitions: the step failures, and the failed keyed runs that did not
materialize the key themselves. -/
def partitionFailures (asset : String) : List (PartitionKey × Int) :=
  let covering := storage.runs.filter fun run => run.nodeNames.contains asset
  let actionRuns := (covering.filter (·.isAction)).map (·.runId)
  let failedRuns := covering.filter fun run => run.status = .failure && !run.isAction
  let stepFailures := storage.events.flatMap fun event =>
    if event.eventType = .stepFailure && event.assetKey = some asset &&
        !actionRuns.contains event.runId then
      ((event.partitionKey.map (·.members)).getD []).map fun key => (key, event.timestamp)
    else []
  let builtBy := fun (key : PartitionKey) (runId : String) => storage.events.any fun event =>
    event.eventType = .materialization && event.assetKey = some asset && event.runId = runId &&
      ((event.partitionKey.map (·.members)).getD []).contains key
  let runFailures := failedRuns.flatMap fun run =>
    (((run.partitionKey.map (·.members)).getD []).filter fun key => !builtBy key run.runId).map
      fun key => (key, run.runTs)
  stepFailures ++ runFailures

def getFailedPartitions (asset : String) (materialized : HashMap PartitionKey Int) :
    HashMap PartitionKey Int :=
  let deletions := (storage.partitionDeletions.lookup asset).getD ∅
  let deletedAt := fun key => optionMax (deletions.lookup key) (storage.assetDeletions.lookup asset)
  retain (insertMaxAll ∅ (storage.partitionFailures asset)) fun key failed =>
    (materialized.lookup key).all (· < failed) && (deletedAt key).all (· < failed)

end Storage

end Rivers
