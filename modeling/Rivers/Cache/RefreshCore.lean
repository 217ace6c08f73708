import Rivers.Cache.StorageCore

/-! One steady-state refresh of the cache, from `cache/refresh.rs`. -/

namespace Rivers

open FiniteMap

structure FailedRun where
  ts : Int
  runId : String
  materialized : Bool
  deriving DecidableEq, Repr

inductive InProgressChange where
  | push (assetKey runId : String) (partitionKey : Option PartitionKey)
  | clearRun (assetKey runId : String)
  | clearRuns (pairs : Finset (String × String))
  | assetClear (assetKey : String)
  deriving DecidableEq

structure LastRunUpdate where
  assetKey : String
  partitionKey : Option PartitionKey
  runId : String
  runTs : Int
  tags : RunTags
  assetNames : List String
  isVerbRun : Bool
  deriving DecidableEq

structure RunTagUpdate where
  assetKey : String
  partitionKey : Option PartitionKey
  runId : String
  tags : RunTags
  deriving DecidableEq

structure PartitionStatusPatch where
  freshTimestamps : HashMap PartitionKey Int
  inProgress : Finset PartitionKey
  failed : HashMap PartitionKey Int
  deleted : Finset PartitionKey
  lastRuns : HashMap PartitionKey (Option String)
  deriving DecidableEq

structure RefreshDelta where
  changed : Bool := false
  recordUpdates : HashMap String AssetRecord := ∅
  inProgressChanges : List InProgressChange := []
  failedAdds : HashMap String FailedRun := ∅
  failedRemoves : HashMap String Int := ∅
  deletionSupersessions : HashMap String Int := ∅
  materializedOverrides : HashMap String (Finset String) := ∅
  lastRunUpdates : List LastRunUpdate := []
  tickTagUpdates : List RunTagUpdate := []
  partitionStatus : HashMap String PartitionStatusPatch := ∅
  actionPartitionChecks : HashMap String (Finset PartitionKey) := ∅
  partitionReloads : Finset String := ∅
  backfill : Option BackfillState := none
  newLastSeenRunTs : Option Int := none
  newLastObservationTs : Option Int := none
  trackActionRuns : List (String × LiveActionRun) := []
  untrackActionRuns : Finset String := ∅
  confirmedPending : List String := []
  evictedPending : Finset String := ∅
  appliedRuns : List (String × Int) := []
  backfillEndedAssets : Finset String := ∅
  -- the runs whose effects were appended, kept here to speak about them
  effects : List RunRecord := []
  deriving DecidableEq

structure RefreshReads where
  newRuns : Storage
  freshRecords : Storage
  outcomes : Storage
  trackedRuns : Storage
  completedRuns : Storage
  watchedRuns : Storage
  built : Storage
  deletions : Storage
  invalidatedRecords : Storage
  partitionTimestamps : String → Storage
  partitionsInProgress : String → Storage
  partitionFailures : String → Storage
  partitionRows : String → Storage
  backfills : Storage
  observations : Storage
  observedRecords : Storage

def RefreshReads.at (storage : Storage) : RefreshReads :=
  ⟨storage, storage, storage, storage, storage, storage, storage, storage, storage,
    fun _ => storage,
    fun _ => storage, fun _ => storage, fun _ => storage, storage, storage, storage⟩

def RunRecord.hasEffects (run : RunRecord) : Bool :=
  if run.isAction then run.isTerminal else run.status = .success || run.status = .failure

namespace RefreshDelta

variable (delta : RefreshDelta)

def clearRun (run : RunRecord) : RefreshDelta :=
  { delta with
    inProgressChanges := delta.inProgressChanges ++
      run.nodeNames.map fun asset => .clearRun asset run.runId }

def markApplied (run : RunRecord) : RefreshDelta :=
  { delta with appliedRuns := delta.appliedRuns ++ [(run.runId, run.startTime)] }

def runChecks (asset : String) : Finset PartitionKey :=
  (delta.lastRunUpdates.filterMap fun update =>
    if update.assetKey = asset &&
        update.runId ∉ getD delta.materializedOverrides asset ∅ then update.partitionKey
    else none).toFinset

end RefreshDelta

def addFailure (run : RunRecord) (adds : HashMap String FailedRun) (asset : String) :
    HashMap String FailedRun :=
  adds.insert asset <|
    match adds.lookup asset with
    | none => ⟨run.runTs, run.runId, false⟩
    | some entry =>
        if entry.ts < run.runTs then { entry with ts := run.runTs, runId := run.runId } else entry

def addToSet {α β : Type} [DecidableEq α] [DecidableEq β] (sets : HashMap α (Finset β)) (key : α)
    (values : Finset β) : HashMap α (Finset β) :=
  sets.insert key (getD sets key ∅ ∪ values)

namespace AssetConditionCache

variable (cache : AssetConditionCache)

def queueActionPartitionChecks (nodeNames : List String) (partitionKey : Option PartitionKey)
    (delta : RefreshDelta) : RefreshDelta :=
  match partitionKey with
  | none => delta
  | some key =>
      { delta with
        actionPartitionChecks := (nodeNames.filter cache.isPartitioned).foldl
          (fun checks asset => addToSet checks asset key.members.toFinset)
          delta.actionPartitionChecks }

def queueLastRunUpdates (run : RunRecord) (delta : RefreshDelta) : RefreshDelta :=
  let slots := run.nodeNames.flatMap fun asset =>
    (run.partitionSlots (cache.isPartitioned asset)).map fun slot => (asset, slot)
  { delta with
    lastRunUpdates := delta.lastRunUpdates ++ slots.map fun (asset, slot) =>
      ⟨asset, slot, run.runId, run.runTs, run.tags, run.nodeNames, run.isAction⟩
    tickTagUpdates :=
      if cache.needsTickTags then
        delta.tickTagUpdates ++ slots.map fun (asset, slot) => ⟨asset, slot, run.runId, run.tags⟩
      else delta.tickTagUpdates }

def floorAssets (run : RunRecord) : List String :=
  run.nodeNames.filter fun asset => run.partitionKey.isNone || !cache.isPartitioned asset

/-- `apply_run_effects_to_delta`: an action run re-checks its partitions, a materialize run moves
the failure floors of its assets. -/
def applyRunEffects (run : RunRecord) (delta : RefreshDelta) : RefreshDelta :=
  if !run.hasEffects then delta
  else
    let marked := { delta.markApplied run with effects := delta.effects ++ [run] }
    if run.isAction then
      cache.queueLastRunUpdates run
        (cache.queueActionPartitionChecks run.nodeNames run.partitionKey marked)
    else if run.status = .failure then
      cache.queueLastRunUpdates run
        { marked with
          failedAdds := (cache.floorAssets run).foldl (addFailure run) delta.failedAdds }
    else
      cache.queueLastRunUpdates run
        { marked with
          failedRemoves := (cache.floorAssets run).foldl
            (fun removes asset => insertMax removes asset run.runTs) delta.failedRemoves
          materializedOverrides := run.nodeNames.foldl
            (fun overrides asset => addToSet overrides asset {run.runId})
            delta.materializedOverrides }

end AssetConditionCache

/-- The delta under construction, with what later reads of the same refresh depend on. -/
structure RefreshPlan where
  delta : RefreshDelta := {}
  invalidated : Finset String := ∅
  sweptTerminal : Finset String := ∅
  sweptApplied : Finset String := ∅
  actionCompleted : Finset String := ∅

def RefreshPlan.invalidate (plan : RefreshPlan) (names : List String) : RefreshPlan :=
  { plan with invalidated := plan.invalidated ∪ names.toFinset }

namespace AssetConditionCache

variable (cache : AssetConditionCache) (reads : RefreshReads)

def newRuns : List RunRecord :=
  reads.newRuns.getRunsSince cache.lastSeenRunTs

def newTerminal : Finset String :=
  (((cache.newRuns reads).filter (·.isTerminal)).map (·.runId)).toFinset

def startPlan : RefreshPlan where
  invalidated := (((cache.newRuns reads).filter fun run =>
    run.isTerminal && run.runId ∉ cache.appliedRunIds).flatMap (·.nodeNames)).toFinset

section InProgress

def trackedRunIds (asset : String) : Finset String :=
  (getD cache.inProgressAssets asset ∅).keys

def allTrackedRunIds : Finset String :=
  cache.inProgressAssets.keys.biUnion cache.trackedRunIds

def freshRecords : HashMap String AssetRecord :=
  reads.freshRecords.getAssetRecordsByKeys cache.inProgressAssets.keys

def movedRecords : HashMap String AssetRecord :=
  retain (cache.freshRecords reads) fun key record =>
    (cache.records.lookup key).all fun old => old.lastTimestamp ≠ record.lastTimestamp

def unmovedAssets : Finset String :=
  (cache.freshRecords reads).keys \ (cache.movedRecords reads).keys

def trackedOutcomes : List StepOutcome :=
  let unmoved := cache.unmovedAssets reads
  (reads.outcomes.stepOutcomes unmoved (unmoved.biUnion cache.trackedRunIds)).filter fun outcome =>
    outcome.runId ∈ cache.trackedRunIds outcome.assetKey

def finishedAssets : Finset String :=
  ((cache.trackedOutcomes reads).map (·.assetKey)).toFinset

def succeededRuns (asset : String) : Finset String :=
  (((cache.trackedOutcomes reads).filter fun outcome =>
    outcome.assetKey = asset && outcome.succeeded).map (·.runId)).toFinset

def completedRunIds : Finset String :=
  ((cache.movedRecords reads).keys.biUnion fun key =>
      (((cache.movedRecords reads).lookup key).bind (·.lastRunId)).toFinset) ∪
    (cache.finishedAssets reads).biUnion cache.trackedRunIds

def planCompletions (plan : RefreshPlan) : RefreshPlan :=
  { plan with
    invalidated := plan.invalidated ∪ (cache.movedRecords reads).keys ∪ cache.finishedAssets reads
    delta := { plan.delta with
      recordUpdates := cache.movedRecords reads
      materializedOverrides := collect (cache.finishedAssets reads) fun asset =>
        if cache.succeededRuns reads asset = ∅ then none
        else some (cache.succeededRuns reads asset) } }

def sweepRun (plan : RefreshPlan) (run : RunRecord) : RefreshPlan :=
  if !run.isTerminal then plan
  else
    let swept := { plan with
      sweptTerminal := insert run.runId plan.sweptTerminal
      delta := (plan.delta.markApplied run).clearRun run }
    if run.runId ∈ cache.newTerminal reads ∨ run.runId ∈ cache.completedRunIds reads ∨
        run.runId ∈ cache.appliedRunIds then swept
    else
      { swept.invalidate run.nodeNames with
        delta := cache.applyRunEffects run swept.delta
        sweptApplied :=
          if run.hasEffects then insert run.runId swept.sweptApplied else swept.sweptApplied }

def trackedRuns : List RunRecord :=
  reads.trackedRuns.getRunsByIds cache.allTrackedRunIds

def vanishedRuns : Finset (String × String) :=
  let found := ((cache.trackedRuns reads).map (·.runId)).toFinset
  cache.inProgressAssets.keys.biUnion fun asset =>
    ((cache.trackedRunIds asset).filter fun runId =>
      runId ∉ found ∧ runId ∉ cache.pendingRuns).image fun runId => (asset, runId)

def planVanished (plan : RefreshPlan) : RefreshPlan :=
  if (cache.trackedRuns reads).length < cache.allTrackedRunIds.card then
    { plan with
      invalidated := plan.invalidated ∪ (cache.vanishedRuns reads).image (·.1)
      delta := { plan.delta with
        inProgressChanges :=
          plan.delta.inProgressChanges ++ [.clearRuns (cache.vanishedRuns reads)] } }
  else plan

def completeRun (plan : RefreshPlan) (run : RunRecord) : RefreshPlan :=
  if run.runId ∈ cache.appliedRunIds then plan
  else { plan.invalidate run.nodeNames with delta := cache.applyRunEffects run plan.delta }

def planInProgress (plan : RefreshPlan) : RefreshPlan :=
  let swept := cache.planVanished reads <|
    (cache.trackedRuns reads).foldl (cache.sweepRun reads) (cache.planCompletions reads plan)
  let completed := (cache.completedRunIds reads \ cache.newTerminal reads) \ swept.sweptApplied
  (reads.completedRuns.getRunsByIds completed).foldl cache.completeRun swept

end InProgress

section ActionRuns

def watchedRuns : List RunRecord :=
  reads.watchedRuns.getRunsByIds cache.liveActionRuns.keys

def watchRun (plan : RefreshPlan) (run : RunRecord) : RefreshPlan :=
  if !run.isTerminal then plan
  else
    let swept := { plan with
      sweptTerminal := insert run.runId plan.sweptTerminal
      delta := { plan.delta.markApplied run with
        untrackActionRuns := insert run.runId plan.delta.untrackActionRuns } }
    if run.runId ∈ cache.newTerminal reads ∨ run.runId ∈ cache.appliedRunIds then swept
    else
      { swept.invalidate run.nodeNames with
        delta := cache.applyRunEffects run swept.delta
        actionCompleted := swept.actionCompleted ∪ run.nodeNames.toFinset }

def vanishedActionRuns : Finset String :=
  cache.liveActionRuns.keys \ ((cache.watchedRuns reads).map (·.runId)).toFinset

def vanishedActionAssets : Finset String :=
  (cache.vanishedActionRuns reads).biUnion fun runId =>
    ((cache.liveActionRuns.lookup runId).elim [] (·.nodeNames)).toFinset

def vanishedChecks (asset : String) : Finset PartitionKey :=
  (cache.vanishedActionRuns reads).biUnion fun runId =>
    match cache.liveActionRuns.lookup runId with
    | some ⟨names, some key⟩ =>
        if names.contains asset && cache.isPartitioned asset then key.members.toFinset else ∅
    | _ => ∅

def planVanishedActions (plan : RefreshPlan) : RefreshPlan :=
  if (cache.watchedRuns reads).length < cache.liveActionRuns.keys.card then
    { plan with
      invalidated := plan.invalidated ∪ cache.vanishedActionAssets reads
      actionCompleted := plan.actionCompleted ∪ cache.vanishedActionAssets reads
      delta := { plan.delta with
        untrackActionRuns := plan.delta.untrackActionRuns ∪ cache.vanishedActionRuns reads
        actionPartitionChecks :=
          collect (plan.delta.actionPartitionChecks.keys ∪ cache.vanishedActionAssets reads)
            fun asset => some
              (getD plan.delta.actionPartitionChecks asset ∅ ∪ cache.vanishedChecks reads asset) } }
  else plan

def planActionRuns (plan : RefreshPlan) : RefreshPlan :=
  cache.planVanishedActions reads ((cache.watchedRuns reads).foldl (cache.watchRun reads) plan)

end ActionRuns

section NewRuns

def knownInFlight (run : RunRecord) : Bool :=
  !run.nodeNames.isEmpty && run.nodeNames.all fun asset => run.runId ∈ cache.trackedRunIds asset

def isNewWork (sweptTerminal : Finset String) (run : RunRecord) : Bool :=
  if run.isTerminal then run.runId ∉ cache.appliedRunIds && run.runId ∉ sweptTerminal
  else !run.isAction && !cache.knownInFlight run

def planNewRun (plan : RefreshPlan) (run : RunRecord) : RefreshPlan :=
  let delta := { plan.delta with confirmedPending := plan.delta.confirmedPending ++ [run.runId] }
  let applied := { plan with
    delta := cache.applyRunEffects run (delta.clearRun run)
    actionCompleted :=
      if run.isAction then plan.actionCompleted ∪ run.nodeNames.toFinset else plan.actionCompleted }
  match run.status with
  | .started | .notStarted | .queued =>
      -- a swept run was seen terminal by a later read than this one
      if run.runId ∈ plan.sweptTerminal then { plan with delta := delta }
      else if !run.isAction then
        { plan with
          delta := { delta with
            inProgressChanges := delta.inProgressChanges ++ run.nodeNames.map fun asset =>
              .push asset run.runId run.partitionKey } }
      else
        { plan with
          delta := { delta with
            trackActionRuns := delta.trackActionRuns ++
              [(run.runId, ⟨run.nodeNames, run.partitionKey⟩)] } }
  | .success | .failure =>
      if run.runId ∉ cache.appliedRunIds then applied
      else { plan with delta := delta.clearRun run }
  | .canceled =>
      if run.isAction && run.runId ∉ cache.appliedRunIds then applied
      else { plan with delta := (delta.clearRun run).markApplied run }

def noteNewWork (plan : RefreshPlan) : RefreshPlan :=
  { plan with delta := { plan.delta with
      changed := plan.delta.changed ||
        (cache.newRuns reads).any (cache.isNewWork plan.sweptTerminal) } }

def planNewRuns (plan : RefreshPlan) : RefreshPlan :=
  let planned := (cache.newRuns reads).foldl cache.planNewRun (cache.noteNewWork reads plan)
  { planned with delta := { planned.delta with
      newLastSeenRunTs := ((cache.newRuns reads).map (·.startTime)).max?.map (· - 1) } }

end NewRuns

section Completion

def planBuilt (plan : RefreshPlan) : RefreshPlan :=
  { plan with delta := { plan.delta with
      failedAdds := collect plan.delta.failedAdds.keys fun asset =>
        (plan.delta.failedAdds.lookup asset).map fun failed =>
          { failed with materialized := reads.built.materializedByRun asset failed.runId } } }

def planDeletions (plan : RefreshPlan) : RefreshPlan :=
  let deletedAt := fun asset =>
    if asset ∈ plan.actionCompleted then reads.deletions.assetDeletions.lookup asset else none
  { plan with delta := { plan.delta with
      failedRemoves := collect (plan.delta.failedRemoves.keys ∪ plan.actionCompleted) fun asset =>
        optionMax (plan.delta.failedRemoves.lookup asset) (deletedAt asset)
      deletionSupersessions := collect plan.actionCompleted deletedAt
      partitionReloads := plan.actionCompleted.filter fun asset =>
        cache.isPartitioned asset ∧ ∃ deleted ∈ deletedAt asset,
          (cache.assetDeletionTs.lookup asset).all (· < deleted) } }

/-- `expand_downstream`, as rounds of adding the downstream assets of what was found. -/
def expandDownstream (touched : Finset String) : Finset String :=
  (fun found => found ∪ found.biUnion fun key => (getD cache.downstreamDeps key []).toFinset)^[
    cache.downstreamDeps.keys.card] touched

def partitionsSince (reload : Bool) (cached : HashMap PartitionKey Int) : Int :=
  if reload then -1
  else ((maximum? (cached.keys.biUnion fun key => (cached.lookup key).toFinset)).map (· - 1)).getD
    (-1)

def partitionPatch (reads : RefreshReads) (delta : RefreshDelta) (asset : String)
    (current : PartitionStatusEntry) :
    PartitionStatusPatch :=
  let reload := decide (asset ∈ delta.partitionReloads)
  let fresh := (reads.partitionTimestamps asset).getPartitionTimestampsSince asset
    (partitionsSince reload current.timestamps)
  let touched := getD delta.actionPartitionChecks asset ∅
  let reread := touched ∪ delta.runChecks asset
  let rowRuns := (reads.partitionRows asset).getPartitionRunsForKeys asset reread
  { freshTimestamps := fresh
    inProgress := (reads.partitionsInProgress asset).getInProgressPartitions asset
    failed := (reads.partitionFailures asset).getFailedPartitions asset current.timestamps
    deleted := touched.filter (· ∉ rowRuns) ∪
      if reload then current.timestamps.keys.filter (· ∉ fresh) else ∅
    lastRuns := collect reread fun key => some ((rowRuns.lookup key).getD none) }

def planInvalidated (plan : RefreshPlan) : RefreshPlan :=
  if plan.invalidated = ∅ then plan
  else
    { plan with delta := { plan.delta with
        changed := true
        recordUpdates := extend plan.delta.recordUpdates <|
          reads.invalidatedRecords.getAssetRecordsByKeys (cache.expandDownstream plan.invalidated)
        partitionStatus := collect plan.invalidated fun asset =>
          (cache.partitionStatus.lookup asset).map (partitionPatch reads plan.delta asset) } }

def planBackfills (plan : RefreshPlan) : RefreshPlan :=
  let fresh := reads.backfills.activeBackfills
  if fresh = cache.backfill then plan
  else
    { plan with delta := { plan.delta with
        changed := true
        backfill := some fresh
        backfillEndedAssets := cache.backfill.assets.keys.filter (· ∉ fresh.assets) } }

def planObservations (plan : RefreshPlan) : RefreshPlan :=
  let observations := reads.observations.getObservationsSince cache.lastObservationTs
  if observations = [] then plan
  else
    let observed := (observations.filterMap (·.assetKey)).toFinset
    let moved :=
      if observed = ∅ then ∅
      else retain (reads.observedRecords.getAssetRecordsByKeys (cache.expandDownstream observed))
        fun key record => cache.records.lookup key ≠ some record
    let cleared := (observations.filterMap (·.assetKey)).dedup.filter (· ∈ moved)
    let newest := (observations.map (·.timestamp)).foldl max cache.lastObservationTs
    { plan with delta := { plan.delta with
        changed := plan.delta.changed || moved.keys ≠ ∅
        inProgressChanges := plan.delta.inProgressChanges ++ cleared.map .assetClear
        recordUpdates := extend plan.delta.recordUpdates moved
        newLastObservationTs := some (newest - 1) } }

def planPending (now : Int) (plan : RefreshPlan) : RefreshPlan :=
  let evicted := cache.pendingRuns.keys.filter fun runId =>
    runId ∉ plan.delta.confirmedPending ∧
      ∃ pending ∈ cache.pendingRuns.lookup runId,
        cache.pendingGraceNanos < now - pending.firstSeenTs
  { plan with delta := { plan.delta with
      changed := plan.delta.changed || evicted ≠ ∅
      evictedPending := evicted } }

def fetchRefreshDelta (now : Int) : RefreshDelta :=
  (cache.planPending now <| cache.planObservations reads <| cache.planBackfills reads <|
    cache.planInvalidated reads <| cache.planDeletions reads <| planBuilt reads <|
    cache.planNewRuns reads <| cache.planActionRuns reads <| cache.planInProgress reads <|
    cache.startPlan reads).delta

end Completion

section Apply

def untrackRuns (pairs : Finset (String × String)) : AssetConditionCache :=
  { cache with
    inProgressAssets := collect cache.inProgressAssets.keys fun asset =>
      (cache.inProgressAssets.lookup asset).bind fun runs =>
        if ∃ pair ∈ pairs, pair.1 = asset then
          let left := retain runs fun runId _ => (asset, runId) ∉ pairs
          if left.keys = ∅ then none else some left
        else some runs }

def applyInProgressChange (change : InProgressChange) : AssetConditionCache :=
  match change with
  | .push assetKey runId partitionKey => cache.trackInProgressRun assetKey runId partitionKey
  | .clearRun assetKey runId => cache.untrackInProgressRun assetKey runId
  | .clearRuns pairs => cache.untrackRuns pairs
  | .assetClear assetKey =>
      { cache with inProgressAssets := cache.inProgressAssets.erase assetKey }

def runMaterializedAsset (overrides : HashMap String (Finset String)) (asset runId : String) :
    Bool :=
  (cache.records.lookup asset).bind (·.lastRunId) = some runId || runId ∈ getD overrides asset ∅

def runMaterializedSlot (delta : RefreshDelta) (asset : String) (slot : Option PartitionKey)
    (runId : String) : Bool :=
  match slot.bind fun key => (delta.partitionStatus.lookup asset).bind (·.lastRuns.lookup key) with
  | some rowRun => rowRun = some runId || runId ∈ getD delta.materializedOverrides asset ∅
  | none => cache.runMaterializedAsset delta.materializedOverrides asset runId

abbrev FailureFloor := Bool × Option Int

def floorOf (asset : String) : FailureFloor :=
  (decide (asset ∈ cache.failedAssets), cache.failedAssetTimestamps.lookup asset)

def addFloor (ts : Int) (materializedHere : Bool) (floor : FailureFloor) : FailureFloor :=
  if materializedHere then if floor.2.all (· ≤ ts) then (false, none) else floor
  else (true, some (floor.2.elim ts (max · ts)))

def removeFloor (successTs : Int) (floor : FailureFloor) : FailureFloor :=
  if floor.2.any (successTs < ·) then floor else (false, none)

def floorAfter (delta : RefreshDelta) (asset : String) : FailureFloor :=
  let added := (delta.failedAdds.lookup asset).elim (cache.floorOf asset) fun failed =>
    addFloor failed.ts (failed.materialized ||
      cache.runMaterializedAsset delta.materializedOverrides asset failed.runId)
        (cache.floorOf asset)
  (delta.failedRemoves.lookup asset).elim added fun successTs => removeFloor successTs added

def applyFloors (delta : RefreshDelta) : AssetConditionCache :=
  let assets := cache.failedAssets ∪ cache.failedAssetTimestamps.keys ∪ delta.failedAdds.keys
  { cache with
    failedAssets := assets.filter fun asset => (cache.floorAfter delta asset).1
    failedAssetTimestamps := collect assets fun asset => (cache.floorAfter delta asset).2 }

def insertSlot {β : Type} (slots : SlotMap β) (asset : String) (slot : Option PartitionKey)
    (value : β) : SlotMap β :=
  slots.insert asset ((getD slots asset ∅).insert slot value)

def updateLastRunMaps (asset : String) (slot : Option PartitionKey) (runTs : Int) (tags : RunTags)
    (assetNames : List String) : AssetConditionCache :=
  if (cache.lastRunEntryTs.lookup (asset, slot)).any (runTs < ·) then cache
  else
    { cache with
      lastRunEntryTs := cache.lastRunEntryTs.insert (asset, slot) runTs
      lastRunTags :=
        if tags = [] then
          match cache.lastRunTags.lookup asset with
          | none => cache.lastRunTags
          | some slots => cache.lastRunTags.insert asset (slots.erase slot)
        else insertSlot cache.lastRunTags asset slot tags
      lastRunAssetNames := insertSlot cache.lastRunAssetNames asset slot assetNames }

def verbRunNames (asset runId : String) (names : List String) : List String :=
  let materializedAt := fun name => (cache.records.lookup name).bind fun record =>
    if record.lastRunId = some runId then record.lastTimestamp else none
  names.filter fun name => name = asset ||
    (materializedAt name).any fun ts => (materializedAt asset).any (· < ts)

def applyLastRunUpdate (delta : RefreshDelta) (update : LastRunUpdate) : AssetConditionCache :=
  if cache.runMaterializedSlot delta update.assetKey update.partitionKey update.runId then
    cache.updateLastRunMaps update.assetKey update.partitionKey update.runTs update.tags
      (if update.isVerbRun then cache.verbRunNames update.assetKey update.runId update.assetNames
       else update.assetNames)
  else cache

def applyDeletions (deletions : HashMap String Int) : AssetConditionCache :=
  let outdated := fun (asset : String) (slot : Option PartitionKey) => decide <|
    ∃ deleted ∈ deletions.lookup asset, ∃ ts ∈ cache.lastRunEntryTs.lookup (asset, slot),
      ts ≤ deleted
  let dropped := fun {β : Type} (slots : SlotMap β) => (collect slots.keys fun asset =>
    (slots.lookup asset).map fun found =>
      retain found fun slot _ => !outdated asset slot : SlotMap β)
  { cache with
    assetDeletionTs := collect (cache.assetDeletionTs.keys ∪ deletions.keys) fun asset =>
      optionMax (cache.assetDeletionTs.lookup asset) (deletions.lookup asset)
    lastRunEntryTs := retain cache.lastRunEntryTs fun slot _ => !outdated slot.1 slot.2
    lastRunTags := dropped cache.lastRunTags
    lastRunAssetNames := dropped cache.lastRunAssetNames }

def applyTickTagUpdate (delta : RefreshDelta) (update : RunTagUpdate) : AssetConditionCache :=
  if cache.runMaterializedSlot delta update.assetKey update.partitionKey update.runId then
    { cache with
      tickMaterializationTags := insertSlot cache.tickMaterializationTags update.assetKey
        update.partitionKey (getD (getD cache.tickMaterializationTags update.assetKey ∅)
          update.partitionKey [] ++ [update.tags]) }
  else cache

/-- Fresh timestamps in, deleted keys out, then the failures newer than what is left. -/
def applyPatch (entry : PartitionStatusEntry) (patch : PartitionStatusPatch) :
    PartitionStatusEntry :=
  let timestamps := retain (extend entry.timestamps patch.freshTimestamps) fun key _ =>
    key ∉ patch.deleted
  let failed := retain patch.failed fun key failTs =>
    key ∉ patch.deleted && (timestamps.lookup key).all (· < failTs)
  { timestamps := timestamps
    inProgress := patch.inProgress
    failedTimestamps := failed
    failed := failed.keys }

def applyPatches (patches : HashMap String PartitionStatusPatch) : AssetConditionCache :=
  { cache with
    partitionStatus := collect (cache.partitionStatus.keys ∪ patches.keys) fun asset =>
      match patches.lookup asset with
      | none => cache.partitionStatus.lookup asset
      | some patch => some (applyPatch (getD cache.partitionStatus asset {}) patch) }

def applyRecords (delta : RefreshDelta) : AssetConditionCache :=
  { cache with
    liveActionRuns := retain (delta.trackActionRuns.foldl
      (fun watched run => watched.insert run.1 run.2) cache.liveActionRuns)
      fun runId _ => runId ∉ delta.untrackActionRuns
    tickMaterializationTags := ∅
    records := extend cache.records delta.recordUpdates }

def applyBackfill (delta : RefreshDelta) : AssetConditionCache :=
  { cache with
    backfill := delta.backfill.getD cache.backfill
    inProgressAssets := retain cache.inProgressAssets fun asset runs =>
      ¬(asset ∈ delta.backfillEndedAssets ∧ runs.keys = ∅) }

def applyCursors (delta : RefreshDelta) : AssetConditionCache :=
  let cursor := delta.newLastSeenRunTs.getD cache.lastSeenRunTs
  { cache with
    appliedRunIds := retain (delta.appliedRuns.foldl
      (fun applied run => applied.insert run.1 run.2) cache.appliedRunIds)
      fun _ startTime => cursor < startTime
    lastSeenRunTs := cursor
    lastObservationTs := delta.newLastObservationTs.getD cache.lastObservationTs
    pendingRuns := retain cache.pendingRuns fun runId _ => runId ∉ delta.confirmedPending }

def applyEvictions (delta : RefreshDelta) : AssetConditionCache :=
  let pairs := delta.evictedPending.biUnion fun runId =>
    ((cache.pendingRuns.lookup runId).elim [] (·.assetKeys)).toFinset.image fun asset =>
      (asset, runId)
  { cache.untrackRuns pairs with
    pendingRuns := retain cache.pendingRuns fun runId _ => runId ∉ delta.evictedPending }

def applyRefreshDelta (delta : RefreshDelta) : AssetConditionCache :=
  let progressed := delta.inProgressChanges.foldl applyInProgressChange (cache.applyRecords delta)
  let floored := progressed.applyFloors delta
  let lastRuns := delta.lastRunUpdates.foldl (fun cache update =>
    cache.applyLastRunUpdate delta update) floored
  let tagged := delta.tickTagUpdates.foldl (fun cache update =>
    cache.applyTickTagUpdate delta update) (lastRuns.applyDeletions delta.deletionSupersessions)
  (((tagged.applyPatches delta.partitionStatus).applyBackfill delta).applyCursors
    delta).applyEvictions
    delta

end Apply

def refresh (now : Int) : AssetConditionCache × Bool :=
  let delta := cache.fetchRefreshDelta reads now
  (cache.applyRefreshDelta delta, delta.changed)

end AssetConditionCache

end Rivers
