import Rivers.Pass.PassCore

/-! The dispatch half of a tick, from `daemon/automation_condition`. -/

namespace Rivers

open FiniteMap

structure MaterializationRequest where
  runId : String
  assetSelection : List String
  partitionKey : Option PartitionKey
  deriving DecidableEq

/-- The ids a tick mints: one run for the unpartitioned assets and one for each partition group, one
backfill for each asset. -/
structure MintedIds where
  run : Option PartitionKey → String
  backfill : String → String

/-- What the dispatchers report: the run ids they created and the backfill targets that failed. -/
structure DispatchOutcome where
  created : Finset String
  failedTargets : Finset String

namespace AssetConditionCache

variable (cache : AssetConditionCache)

def registerRequest (now : Int) (request : MaterializationRequest) : AssetConditionCache :=
  request.assetSelection.foldl (fun registered asset =>
    registered.registerDispatchedRun asset request.runId now request.partitionKey) cache

def clearRequest (request : MaterializationRequest) : AssetConditionCache :=
  request.assetSelection.foldl (fun cleared asset =>
    cleared.clearDispatchedRun asset request.runId) cache

end AssetConditionCache

namespace ConditionPass

variable (pass : ConditionPass)

def runRequests (plan : MaterializationPlan) (ids : MintedIds) : List MaterializationRequest :=
  (if plan.unpartitioned.isEmpty then [] else [⟨ids.run none, plan.unpartitioned, none⟩]) ++
    plan.singlePartitionGroups.map fun group => ⟨ids.run (some group.1), group.2, some group.1⟩

def prepareRunRequests (plan : MaterializationPlan) (ids : MintedIds) (now : Int) : ConditionPass :=
  { pass with
    cache := (runRequests plan ids).foldl (fun cache request =>
      cache.registerRequest now request) pass.cache }

/-- The intent of a tick: each dispatched asset with the ids that prove its dispatch. -/
def pendingDispatch (output : PassOutput) (ids : MintedIds) (now : Int) : PendingDispatch where
  tickTimestamp := now
  entries := (pass.pendingDispatchStates output now).map fun (asset, committed, keys) =>
    { assetKey := asset
      runIds := ((runRequests output.plan ids).filter fun request =>
        request.assetSelection.contains asset).map (·.runId)
      backfillIds :=
        if (output.plan.multiPartitionBackfills.map (·.1)).contains asset then [ids.backfill asset]
        else []
      committed := committed
      dispatchedKeys := keys }

def dispatchMaterializations (plan : MaterializationPlan) (ids : MintedIds)
    (outcome : DispatchOutcome) : ConditionPass :=
  let afterRuns := (runRequests plan ids).foldl (fun cache request =>
    if request.runId ∈ outcome.created then cache else cache.clearRequest request) pass.cache
  { pass with
    cache := plan.multiPartitionBackfills.foldl (fun cache backfill =>
      if backfill.1 ∈ outcome.failedTargets then cache.clearPredispatchMark backfill.1
      else cache) afterRuns }

def dispatchFailed (plan : MaterializationPlan) (ids : MintedIds) (outcome : DispatchOutcome) :
    Finset String :=
  (((runRequests plan ids).filter fun request => request.runId ∉ outcome.created).flatMap
      (·.assetSelection)).toFinset ∪
    ((plan.multiPartitionBackfills.map (·.1)).filter (· ∈ outcome.failedTargets)).toFinset

def dispatchTick (now : Int) (selective : Bool) (ids : MintedIds) (outcome : DispatchOutcome) :
    ConditionPass :=
  let planned := pass.planTick now selective
  let plan := planned.2.plan
  let dispatched :=
    (planned.1.prepareRunRequests plan ids now).dispatchMaterializations plan ids outcome
  (dispatched.commitTick planned.2 (dispatchFailed plan ids outcome) now).1

end ConditionPass

end Rivers
