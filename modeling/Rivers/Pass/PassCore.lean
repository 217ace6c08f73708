import Rivers.Cache.CacheCore
import Rivers.Condition.PartitionDomain

/-! One tick of the condition engine, from `condition/pass/mod.rs`. -/

namespace Rivers

open FiniteMap

structure PartitionInfo where
  allKeys : Finset PartitionKey
  mappings : HashMap (String × String) PartitionMappingKind

structure AssetConditionInfo where
  assetKey : String
  condition : ConditionNode
  partitionInfo : Option PartitionInfo := none

structure EvalResultRow where
  info : AssetConditionInfo
  result : EvalResult
  tree : Option EvalNodeResult

structure ToMaterialize where
  assetKey : String
  selection : Option PartitionSelection
  deriving DecidableEq

structure MaterializationPlan where
  unpartitioned : List String
  singlePartitionGroups : List (PartitionKey × List String)
  multiPartitionBackfills : List (String × Finset PartitionKey)
  deriving DecidableEq

def soleKey (keys : Finset PartitionKey) : Option PartitionKey :=
  if single : keys.card = 1 then
    some (keys.choose (fun _ => True) (by
      obtain ⟨key, rfl⟩ := Finset.card_eq_one.mp single
      exact ⟨key, by simp⟩))
  else none

def addToGroup (key : PartitionKey) (asset : String) :
    List (PartitionKey × List String) → List (PartitionKey × List String)
  | [] => [(key, [asset])]
  | group :: rest =>
      if group.1 = key then (key, group.2 ++ [asset]) :: rest
      else group :: addToGroup key asset rest

namespace MaterializationPlan

def isEmpty (plan : MaterializationPlan) : Bool :=
  plan.unpartitioned.isEmpty && plan.singlePartitionGroups.isEmpty &&
    plan.multiPartitionBackfills.isEmpty

def dispatchedAssetKeys (plan : MaterializationPlan) : List String :=
  plan.unpartitioned ++ plan.singlePartitionGroups.flatMap (·.2) ++
    plan.multiPartitionBackfills.map (·.1)

end MaterializationPlan

structure PassOutput where
  results : List EvalResultRow
  plan : MaterializationPlan

structure ConditionPass where
  cache : AssetConditionCache
  evalState : ConditionEvalState
  conditions : List AssetConditionInfo
  timeBasedEvalSet : Option (Finset String) := none
  upstreamPartitionKeys : HashMap String (Finset PartitionKey) := ∅
  -- window resolution at a tick's time and the cron schedule, both computed outside the pass
  timeWindows : Int → TimeWindowResolver
  cronTickBetween : CronTickBetween
  needsRetry : Bool := false

/-- `update_dep_baselines`: the baselines of the roots, then the shared entry of each dep. -/
structure BaselineSource where
  upstreamDeps : HashMap String (List String)
  conditionedAssets : Finset String
  partitionStatuses : HashMap String PartitionStatusEntry
  records : HashMap String AssetRecord

namespace BaselineSource

variable (source : BaselineSource)

def depBaseline (dep : String) : DepBaseline where
  lastMaterializedTimestamp := (source.records.lookup dep).bind (·.lastTimestamp)
  lastDataVersion := (source.records.lookup dep).bind (·.lastDataVersion)

def eligibleDeps (root : String) : List String :=
  (getD source.upstreamDeps root []).filter (· ∉ source.conditionedAssets)

def insertBaseline (state : AssetConditionState) (dep : String) : AssetConditionState :=
  { state with depBaselines := state.depBaselines.insert dep (source.depBaseline dep) }

def updateRoot (assets : HashMap String AssetConditionState) (root : String) :
    HashMap String AssetConditionState :=
  match assets.lookup root with
  | none => assets
  | some state => assets.insert root ((source.eligibleDeps root).foldl source.insertBaseline state)

def stampDep (dep : String) (state : AssetConditionState) : AssetConditionState :=
  { state with
    lastMaterializedTimestamp := (source.depBaseline dep).lastMaterializedTimestamp
    lastDataVersion := (source.depBaseline dep).lastDataVersion
    partitionState :=
      match source.partitionStatuses.lookup dep with
      | none => state.partitionState
      | some entry =>
          some { state.partitionState.getD {} with timestamps := entry.timestamps } }

def updateDepBaselines (assets : HashMap String AssetConditionState) (roots : List String) :
    HashMap String AssetConditionState :=
  let rooted := roots.foldl source.updateRoot assets
  let touched := (roots.flatMap source.eligibleDeps).toFinset
  collect (rooted.keys ∪ touched) fun asset =>
    if asset ∈ touched then some (source.stampDep asset (getD rooted asset {}))
    else rooted.lookup asset

end BaselineSource

namespace ConditionPass

def partitionedAssets (conditions : List AssetConditionInfo) : Finset String :=
  conditions.foldr (fun info found =>
    match info.partitionInfo with
    | none => found
    | some partitions => insert info.assetKey (partitions.mappings.keys.image (·.2)) ∪ found) ∅

def new (cache : AssetConditionCache) (evalState : ConditionEvalState)
    (conditions : List AssetConditionInfo)
    (upstreamPartitionKeys : HashMap String (Finset PartitionKey))
    (timeWindows : Int → TimeWindowResolver) (cronTickBetween : CronTickBetween) :
    ConditionPass where
  cache := { cache with
    partitionedAssetKeys := partitionedAssets conditions
    needsTickTags := conditions.any fun info => info.condition.usesTickTags
    failedAssets := cache.failedAssets ∪ evalState.failedAssets.keys
    failedAssetTimestamps := extend evalState.failedAssets cache.failedAssetTimestamps }
  evalState := { evalState with
    assets := collect (evalState.assets.keys ∪ (conditions.map (·.assetKey)).toFinset) fun key =>
      some (getD evalState.assets key {}) }
  conditions := conditions
  upstreamPartitionKeys := upstreamPartitionKeys
  timeWindows := timeWindows
  cronTickBetween := cronTickBetween

variable (pass : ConditionPass)

def active : Finset String :=
  (pass.conditions.map (·.assetKey)).toFinset

def hasTimeBased : Bool :=
  pass.conditions.any fun info => info.condition.hasTimeBasedConditions

def ensureTimeBasedEvalSet : ConditionPass :=
  if !pass.hasTimeBased || !pass.cache.initialized || pass.timeBasedEvalSet.isSome then pass
  else
    { pass with
      timeBasedEvalSet := some <| pass.cache.computeTimeBasedEvalSet <|
        pass.conditions.map fun info => (info.assetKey, info.condition) }

def shouldSkip (hasChanges : Bool) : Bool :=
  !pass.needsRetry && !hasChanges && pass.cache.initialized && !pass.evalState.isInitial &&
    !pass.hasTimeBased

/-- An index built from the conditions: of two conditions with one key it keeps the later. -/
def partitionInfoFor (key : String) : Option PartitionInfo :=
  (pass.conditions.reverse.find? fun info => info.assetKey = key).bind (·.partitionInfo)

def failedKeys : Finset String :=
  pass.cache.failedAssets ∪ pass.cache.partitionStatus.keys.filter fun key =>
    ∃ status ∈ pass.cache.partitionStatus.lookup key, status.failed ≠ ∅

/-- The partition context of a condition: its status row, with the cache's own runs in progress. -/
def partitionContext (now : Int) (info : AssetConditionInfo) : Option PartitionEvalContext :=
  info.partitionInfo.bind fun partitions =>
    (pass.cache.partitionStatus.lookup info.assetKey).map fun status =>
      { allKeys := partitions.allKeys
        inProgress := status.inProgress ∪ pass.cache.inProgressPartitionKeys info.assetKey
        failed := status.failed
        timestamps := status.timestamps
        resolver := ⟨partitions.mappings, pass.upstreamPartitionKeys⟩
        timeWindows := some (pass.timeWindows now)
        allPartitionStatuses := pass.cache.partitionStatus
        depRootFloor := none }

/-- The source indexes the state of a condition; the pass keeps one for each of them. -/
def evalContext (now : Int) (info : AssetConditionInfo) (record : AssetRecord)
    (requestedThisTick : HashMap String PartitionSelection) : EvalContext :=
  let prev := getD pass.evalState.assets info.assetKey {}
  { targetKey := info.assetKey
    rootKey := info.assetKey
    targetRecord := record
    cache :=
      { records := pass.cache.records
        upstreamDeps := pass.cache.upstreamDeps
        inProgressAssets := pass.cache.inProgressAssets.keys
        failedAssets := pass.failedKeys
        failedAssetTimestamps := pass.cache.failedAssetTimestamps
        backfill := pass.cache.backfill }
    tags :=
      { lastRunTags := pass.cache.lastRunTags
        tickMaterializationTags := pass.cache.tickMaterializationTags
        lastRunAssetNames := pass.cache.lastRunAssetNames }
    prevState := prev
    allAssetStates := pass.evalState.assets
    requestedThisTick := requestedThisTick
    now := now
    isInitial := pass.evalState.isInitial || prev.isInitial
    partitions := pass.partitionContext now info
    rootPartitionFloor := none
    cronTickBetween := pass.cronTickBetween }

def isLeftOut (selective : Bool) (key : String) : Bool :=
  selective && match pass.timeBasedEvalSet with
    | some evalSet => key ∉ evalSet
    | none => false

def evaluateLoop (now : Int) (selective : Bool) :
    List AssetConditionInfo → HashMap String PartitionSelection → List EvalResultRow
  | [], _ => []
  | info :: rest, requestedThisTick =>
      if pass.isLeftOut selective info.assetKey then
        evaluateLoop now selective rest requestedThisTick
      else
        match pass.cache.records.lookup info.assetKey with
        | none => evaluateLoop now selective rest requestedThisTick
        | some record =>
            let evaluated := evaluateWithTree info.condition
              (pass.evalContext now info record requestedThisTick)
            ⟨info, evaluated.1, evaluated.2⟩ ::
              evaluateLoop now selective rest
                (if evaluated.1.fired then
                  requestedThisTick.insert info.assetKey (evaluated.1.selection.getD .all)
                else requestedThisTick)

def evaluate (now : Int) (selective : Bool) : List EvalResultRow :=
  pass.evaluateLoop now selective pass.conditions ∅

/-- What becomes of one fired asset: no key survives, no keys at all, or keys to dispatch. -/
inductive Classified where
  | dropped
  | unpartitioned
  | keyed (keys : Finset PartitionKey)
  deriving DecidableEq

def classify (toMaterialize : ToMaterialize) : Classified :=
  match toMaterialize.selection with
  | some (.keys keys) =>
      if keys = ∅ then .unpartitioned
      else
        let surviving :=
          match pass.partitionInfoFor toMaterialize.assetKey with
          | some partitions => keys.filter (· ∈ partitions.allKeys)
          | none => keys
        if surviving = ∅ then .dropped else .keyed surviving
  | some .all | none =>
      match pass.partitionInfoFor toMaterialize.assetKey with
      | some partitions => if partitions.allKeys = ∅ then .dropped else .keyed partitions.allKeys
      | none => .unpartitioned
  | some .empty => .unpartitioned

def markInProgress (key : String) : ConditionPass :=
  { pass with
    cache := { pass.cache with
      inProgressAssets := pass.cache.inProgressAssets.insert key
        (getD pass.cache.inProgressAssets key ∅) } }

def partitionedMats (toMaterialize : List ToMaterialize) : List (String × Finset PartitionKey) :=
  toMaterialize.filterMap fun fired =>
    match pass.classify fired with
    | .keyed keys => some (fired.assetKey, keys)
    | _ => none

def planFor (toMaterialize : List ToMaterialize) : MaterializationPlan where
  unpartitioned :=
    (toMaterialize.filter fun fired => pass.classify fired = .unpartitioned).map (·.assetKey)
  singlePartitionGroups :=
    (pass.partitionedMats toMaterialize).foldl (fun groups mat =>
      match soleKey mat.2 with
      | some key => addToGroup key mat.1 groups
      | none => groups) []
  multiPartitionBackfills :=
    (pass.partitionedMats toMaterialize).filter fun mat => soleKey mat.2 = none

def classifyMaterializations (toMaterialize : List ToMaterialize) :
    ConditionPass × MaterializationPlan :=
  (toMaterialize.foldl (fun marked fired =>
      if pass.classify fired = .dropped then marked else marked.markInProgress fired.assetKey) pass,
    pass.planFor toMaterialize)

def toMaterialize (results : List EvalResultRow) : List ToMaterialize :=
  (results.filter fun row => row.result.fired).map fun row =>
    ⟨row.info.assetKey, row.result.selection⟩

def planTick (now : Int) (selective : Bool) : ConditionPass × PassOutput :=
  let results := pass.evaluate now selective
  let evaluated := { pass with evalState := { pass.evalState with isInitial := false } }
  let classified := evaluated.classifyMaterializations (toMaterialize results)
  (classified.1, ⟨results, classified.2⟩)

def baselineSource : BaselineSource where
  upstreamDeps := pass.cache.upstreamDeps
  conditionedAssets := pass.active
  partitionStatuses := pass.cache.partitionStatus
  records := pass.cache.records

def updateContext (now : Int) (record : AssetRecord)
    (partitionTimestamps : Option (HashMap PartitionKey Int)) : StateUpdateContext where
  targetRecordTimestamp := record.lastTimestamp
  targetDataVersion := record.lastDataVersion
  now := now
  partitionTimestamps := partitionTimestamps

def partitionTimestamps (info : AssetConditionInfo) : Option (HashMap PartitionKey Int) :=
  info.partitionInfo.bind fun _ =>
    (pass.cache.partitionStatus.lookup info.assetKey).map (·.timestamps)

def skipped (output : PassOutput) (dispatchFailed : Finset String) : Finset String :=
  dispatchFailed ∪ ((output.results.filter fun row =>
    row.result.fired && row.info.assetKey ∉ output.plan.dispatchedAssetKeys).map
      (·.info.assetKey)).toFinset

def commitRow (skip : Finset String) (now : Int)
    (progress : HashMap String AssetConditionState × List String) (row : EvalResultRow) :
    HashMap String AssetConditionState × List String :=
  let key := row.info.assetKey
  if key ∈ skip then progress
  else
    match pass.cache.records.lookup key, progress.1.lookup key with
    | some record, some prev =>
        (progress.1.insert key
            (updateConditionState prev
              (updateContext now record (pass.partitionTimestamps row.info))
              row.result),
          if row.result.fired || prev.isInitial then progress.2 ++ [key] else progress.2)
    | _, _ => progress

def markPartitionsHandled (keys : Finset PartitionKey) (assets : HashMap String AssetConditionState)
    (assetKey : String) :
    HashMap String AssetConditionState :=
  match assets.lookup assetKey with
  | none => assets
  | some prev => assets.insert assetKey (prev.markHandled keys)

def markDispatched (plan : MaterializationPlan) (skip : Finset String)
    (assets : HashMap String AssetConditionState) : HashMap String AssetConditionState :=
  let singles := plan.singlePartitionGroups.foldl (fun marked group =>
    (group.2.filter (· ∉ skip)).foldl (markPartitionsHandled {group.1}) marked) assets
  plan.multiPartitionBackfills.foldl (fun marked backfill =>
    if backfill.1 ∈ skip then marked else markPartitionsHandled backfill.2 marked backfill.1)
      singles

def stampDispatchedHandled (plan : MaterializationPlan) (skip : Finset String) (now : Int)
    (assets : HashMap String AssetConditionState) : HashMap String AssetConditionState :=
  collect assets.keys fun key => (assets.lookup key).map fun prev =>
    if key ∈ plan.dispatchedAssetKeys ∧ key ∉ skip then
      { prev with lastHandledTimestamp := some now }
    else prev

def commitTick (output : PassOutput) (dispatchFailed : Finset String) (now : Int) :
    ConditionPass × Bool :=
  let skip := skipped output dispatchFailed
  let updated := output.results.foldl (pass.commitRow skip now) (pass.evalState.assets, [])
  let baselined := pass.baselineSource.updateDepBaselines updated.1 updated.2
  let marked := markDispatched output.plan skip baselined
  let stamped := stampDispatchedHandled output.plan skip now marked
  ({ pass with
      evalState := { pass.evalState with
        assets := stamped
        failedAssets := pass.cache.failedAssetTimestamps }
      needsRetry := skip ≠ ∅ },
    !updated.2.isEmpty || pass.evalState.failedAssets ≠ pass.cache.failedAssetTimestamps)

def run (now : Int) (selective : Bool) : ConditionPass × PassOutput :=
  let planned := pass.planTick now selective
  ((planned.1.commitTick planned.2 ∅ now).1, planned.2)

def dispatchedKeys (plan : MaterializationPlan) (asset : String) : Finset PartitionKey :=
  ((plan.singlePartitionGroups.filter fun group => group.2.contains asset).map (·.1)).toFinset ∪
    ((plan.multiPartitionBackfills.filter fun backfill => backfill.1 = asset).map (·.2)).foldr
      (· ∪ ·) ∅

def pendingDispatchState (now : Int) (plan : MaterializationPlan) (row : EvalResultRow) :
    Option (String × AssetConditionState × Finset PartitionKey) :=
  let key := row.info.assetKey
  if row.result.fired ∧ key ∈ plan.dispatchedAssetKeys then
    match pass.cache.records.lookup key, pass.evalState.assets.lookup key with
    | some record, some prev =>
        let updated :=
          updateConditionState prev.scalarClone (updateContext now record none) row.result
        let baselined := (pass.baselineSource.eligibleDeps key).foldl
          pass.baselineSource.insertBaseline updated
        some (key, { baselined with lastHandledTimestamp := some now }, dispatchedKeys plan key)
    | _, _ => none
  else none

def pendingDispatchStates (output : PassOutput) (now : Int) :
    List (String × AssetConditionState × Finset PartitionKey) :=
  output.results.filterMap (pass.pendingDispatchState now output.plan)

end ConditionPass

end Rivers
