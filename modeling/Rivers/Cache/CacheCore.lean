import Rivers.Condition.StateCore

/-! The condition cache of `condition/cache`. -/

namespace Rivers

open FiniteMap

structure PendingRun where
  assetKeys : List String
  firstSeenTs : Int
  deriving DecidableEq, Repr

structure LiveActionRun where
  nodeNames : List String
  partitionKey : Option PartitionKey
  deriving DecidableEq

structure AssetConditionCache where
  records : HashMap String AssetRecord := ∅
  upstreamDeps : HashMap String (List String) := ∅
  downstreamDeps : HashMap String (List String) := ∅
  inProgressAssets : HashMap String (HashMap String (Option PartitionKey)) := ∅
  liveActionRuns : HashMap String LiveActionRun := ∅
  failedAssets : Finset String := ∅
  failedAssetTimestamps : HashMap String Int := ∅
  assetDeletionTs : HashMap String Int := ∅
  lastSeenRunTs : Int := 0
  lastObservationTs : Int := 0
  initialized : Bool := false
  partitionStatus : HashMap String PartitionStatusEntry := ∅
  backfill : BackfillState := {}
  lastRunTags : SlotMap RunTags := ∅
  tickMaterializationTags : SlotMap (List RunTags) := ∅
  lastRunAssetNames : SlotMap (List String) := ∅
  partitionedAssetKeys : Finset String := ∅
  needsTickTags : Bool := false
  pendingRuns : HashMap String PendingRun := ∅
  pendingGraceNanos : Int := 60000000000
  appliedRunIds : HashMap String Int := ∅
  lastRunEntryTs : HashMap (String × Option PartitionKey) Int := ∅
  deriving DecidableEq

namespace AssetConditionCache

variable (cache : AssetConditionCache)

def isPartitioned (asset : String) : Bool :=
  asset ∈ cache.partitionedAssetKeys

def trackInProgressRun (assetKey runId : String) (partitionKey : Option PartitionKey) :
    AssetConditionCache :=
  { cache with
    inProgressAssets := cache.inProgressAssets.insert assetKey
      ((getD cache.inProgressAssets assetKey ∅).insert runId partitionKey) }

def registerDispatchedRun (assetKey runId : String) (now : Int)
    (partitionKey : Option PartitionKey) : AssetConditionCache :=
  let pending := getD cache.pendingRuns runId ⟨[], now⟩
  { cache.trackInProgressRun assetKey runId partitionKey with
    pendingRuns := cache.pendingRuns.insert runId
      { pending with assetKeys := pending.assetKeys ++ [assetKey] } }

def inProgressPartitionKeys (asset : String) : Finset PartitionKey :=
  match cache.inProgressAssets.lookup asset with
  | none => ∅
  | some runs => runs.keys.biUnion fun runId =>
      match runs.lookup runId with
      | some (some key) => key.members.toFinset
      | _ => ∅

def clearPredispatchMark (assetKey : String) : AssetConditionCache :=
  match cache.inProgressAssets.lookup assetKey with
  | none => cache
  | some runs =>
      if runs.keys = ∅ then
        { cache with inProgressAssets := cache.inProgressAssets.erase assetKey }
      else cache

def untrackInProgressRun (assetKey runId : String) : AssetConditionCache :=
  match cache.inProgressAssets.lookup assetKey with
  | none => cache
  | some runs =>
      let left := runs.erase runId
      { cache with
        inProgressAssets :=
          if left.keys = ∅ then cache.inProgressAssets.erase assetKey
          else cache.inProgressAssets.insert assetKey left }

def clearDispatchedRun (assetKey runId : String) : AssetConditionCache :=
  let untracked := cache.untrackInProgressRun assetKey runId
  { untracked with
    pendingRuns :=
      match cache.pendingRuns.lookup runId with
      | none => cache.pendingRuns
      | some pending =>
          let left := pending.assetKeys.filter (· ≠ assetKey)
          if left = [] then cache.pendingRuns.erase runId
          else cache.pendingRuns.insert runId { pending with assetKeys := left } }

def timeBasedLoop (conditionKeys : List String) :
    (rounds : Nat) → Finset String → List String → Finset String
  | 0, evalSet, _ => evalSet
  | _ + 1, evalSet, [] => evalSet
  | rounds + 1, evalSet, key :: queue =>
      let found := ((getD cache.downstreamDeps key []).filter fun down =>
        conditionKeys.contains down && down ∉ evalSet).dedup
      timeBasedLoop conditionKeys rounds (evalSet ∪ found.toFinset) (queue ++ found)

def computeTimeBasedEvalSet (conditions : List (String × ConditionNode)) : Finset String :=
  let timeBased := ((conditions.filter fun condition =>
    condition.2.hasTimeBasedConditions).map (·.1)).dedup
  cache.timeBasedLoop (conditions.map (·.1)) conditions.length timeBased.toFinset timeBased

end AssetConditionCache

end Rivers
