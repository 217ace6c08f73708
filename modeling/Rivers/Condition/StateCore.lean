import Rivers.Condition.NodeCore
import Rivers.Condition.PartitionCore

/-! Condition state and evaluation context, from `condition/state.rs`. -/

namespace Rivers

open FiniteMap

structure AssetRecord where
  assetKey : String
  lastRunId : Option String := none
  lastTimestamp : Option Int := none
  lastDataVersion : Option String := none
  codeVersion : Option String := none
  lastMaterializationCodeVersion : Option String := none
  deriving DecidableEq, Repr

structure DepBaseline where
  lastMaterializedTimestamp : Option Int := none
  lastDataVersion : Option String := none
  deriving DecidableEq, Repr

structure AssetConditionState where
  previousResults : HashMap Nat Bool := ∅
  depPreviousResults : HashMap String (HashMap Nat Bool) := ∅
  depBaselines : HashMap String DepBaseline := ∅
  lastHandledTimestamp : Option Int := none
  lastMaterializedTimestamp : Option Int := none
  lastDataVersion : Option String := none
  lastTickTimestamp : Option Int := none
  conditionFingerprint : String := ""
  isInitial : Bool := false
  partitionState : Option PartitionState := none
  deriving DecidableEq

namespace AssetConditionState

def resetForNewTree (state : AssetConditionState) (newFingerprint : String) :
    AssetConditionState :=
  { state with
    previousResults := ∅
    depPreviousResults := ∅
    lastHandledTimestamp := none
    lastTickTimestamp := none
    conditionFingerprint := newFingerprint
    isInitial := true
    partitionState := none }

def scalarClone (state : AssetConditionState) : AssetConditionState :=
  { state with partitionState := none }

def handledKeys (state : AssetConditionState) : Finset PartitionKey :=
  (state.partitionState.map (·.handled)).getD ∅

def markHandled (state : AssetConditionState) (keys : Finset PartitionKey) : AssetConditionState :=
  let partitions := state.partitionState.getD {}
  { state with partitionState := some { partitions with handled := partitions.handled ∪ keys } }

end AssetConditionState

structure PendingDispatchEntry where
  assetKey : String
  runIds : List String
  backfillIds : List String
  committed : AssetConditionState
  dispatchedKeys : Finset PartitionKey
  deriving DecidableEq

structure PendingDispatch where
  tickTimestamp : Int
  entries : List PendingDispatchEntry
  deriving DecidableEq

structure ConditionEvalState where
  assets : HashMap String AssetConditionState := ∅
  isInitial : Bool := false
  failedAssets : HashMap String Int := ∅
  deriving DecidableEq

structure BackfillState where
  assets : HashMap String (List String) := ∅
  partitionKeys : HashMap String (List PartitionKey) := ∅
  deriving DecidableEq

abbrev RunTags := List (String × String)

abbrev SlotMap (β : Type) := HashMap String (HashMap (Option PartitionKey) β)

structure CacheSnapshot where
  records : HashMap String AssetRecord
  upstreamDeps : HashMap String (List String)
  inProgressAssets : Finset String
  failedAssets : Finset String
  failedAssetTimestamps : HashMap String Int
  backfill : BackfillState

structure RunTagSnapshot where
  lastRunTags : SlotMap RunTags
  tickMaterializationTags : SlotMap (List RunTags)
  lastRunAssetNames : SlotMap (List String)

abbrev CronTickBetween := String → Int → Int → Option String → Bool

structure EvalContext where
  targetKey : String
  rootKey : String
  targetRecord : AssetRecord
  cache : CacheSnapshot
  tags : RunTagSnapshot
  prevState : AssetConditionState
  allAssetStates : HashMap String AssetConditionState
  requestedThisTick : HashMap String PartitionSelection
  now : Int
  isInitial : Bool
  partitions : Option PartitionEvalContext
  rootPartitionFloor : Option (Option Int)
  cronTickBetween : CronTickBetween

structure EvalResult where
  fired : Bool := false
  subResults : HashMap Nat Bool := ∅
  selection : Option PartitionSelection := none
  subSelections : Option (HashMap Nat PartitionSelection) := none
  depSubResults : HashMap String (HashMap Nat Bool) := ∅
  depSubSelections : Option (HashMap String (HashMap Nat PartitionSelection)) := none
  deriving DecidableEq

inductive NodeStatus where
  | true
  | false
  | skipped
  deriving DecidableEq, Repr

def NodeStatus.fromBool (value : Bool) : NodeStatus :=
  if value then .true else .false

inductive EvalNodeResult where
  | mk (nodeIdx : Nat) (node : ConditionNode) (status : NodeStatus)
      (children : List EvalNodeResult) (numPartitions : Option Nat)

structure StateUpdateContext where
  targetRecordTimestamp : Option Int
  targetDataVersion : Option String
  now : Int
  partitionTimestamps : Option (HashMap PartitionKey Int)

def StateUpdateContext.fromEvalContext (ctx : EvalContext) : StateUpdateContext where
  targetRecordTimestamp := ctx.targetRecord.lastTimestamp
  targetDataVersion := ctx.targetRecord.lastDataVersion
  now := ctx.now
  partitionTimestamps := ctx.partitions.map (·.timestamps)

def updatePartitionState (previous : PartitionState)
    (subSelections : HashMap Nat PartitionSelection)
    (depSubSelections : Option (HashMap String (HashMap Nat PartitionSelection)))
    (timestamps : HashMap PartitionKey Int) : PartitionState where
  previousSelections := subSelections
  depPreviousSelections := depSubSelections.getD previous.depPreviousSelections
  timestamps := extend (retain previous.timestamps fun key _ => key ∈ timestamps) timestamps
  handled := ∅

def updateConditionState (state : AssetConditionState) (ctx : StateUpdateContext)
    (result : EvalResult) : AssetConditionState :=
  { state with
    isInitial := false
    lastMaterializedTimestamp := ctx.targetRecordTimestamp
    lastDataVersion := ctx.targetDataVersion
    lastTickTimestamp := some ctx.now
    previousResults := result.subResults
    depPreviousResults := result.depSubResults
    partitionState :=
      match result.subSelections with
      | none => none
      | some subSelections =>
          match ctx.partitionTimestamps with
          | none => state.partitionState
          | some timestamps =>
              some (updatePartitionState (state.partitionState.getD {}) subSelections
                result.depSubSelections timestamps) }

theorem updatePartitionState_timestamps (previous : PartitionState)
    (subSelections : HashMap Nat PartitionSelection)
    (depSubSelections : Option (HashMap String (HashMap Nat PartitionSelection)))
    (timestamps : HashMap PartitionKey Int) :
    (updatePartitionState previous subSelections depSubSelections timestamps).timestamps =
      timestamps := by
  apply Finmap.ext_lookup
  intro key
  simp only [updatePartitionState, lookup_extend, lookup_retain]
  by_cases present : key ∈ timestamps
  · obtain ⟨value, found⟩ := Finmap.mem_iff.mp present
    simp [found]
  · simp_all

end Rivers
