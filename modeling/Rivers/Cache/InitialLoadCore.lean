import Rivers.Cache.RefreshCore

/-! The full load of a fresh cache, from `initial_load` in `cache/mod.rs`. -/

namespace Rivers

open FiniteMap

structure LoadReads where
  newest : Storage
  ties : Storage
  latestObservation : Storage
  records : Storage
  topology : Storage
  started : Storage
  notStarted : Storage
  queued : Storage
  failedRuns : Storage
  deletions : Storage
  built : Storage
  lastRuns : Storage
  backfills : Storage
  partitions : String → Storage

def LoadReads.at (storage : Storage) : LoadReads :=
  ⟨storage, storage, storage, storage, storage, storage, storage, storage, storage,
    storage, storage, storage, storage, fun _ => storage⟩

namespace AssetConditionCache

variable (cache : AssetConditionCache) (reads : LoadReads)

/-- The cursor trails the newest start time by one; terminal runs above it count as applied. -/
def loadCursor : AssetConditionCache :=
  match (reads.newest.runs.map (·.startTime)).max? with
  | none => cache
  | some newest =>
      let ties := reads.ties.getRunsSince (newest - 1)
      { cache with
        lastSeenRunTs := newest - 1
        appliedRunIds := (ties.filter (·.isTerminal)).foldl
          (fun applied run => applied.insert run.runId run.startTime) cache.appliedRunIds }

def buildAdjacency (edges : List (String × String)) : AssetConditionCache :=
  { cache with
    upstreamDeps := edges.foldl (fun deps edge =>
      deps.insert edge.1 (getD deps edge.1 [] ++ [edge.2])) ∅
    downstreamDeps := edges.foldl (fun deps edge =>
      deps.insert edge.2 (getD deps edge.2 [] ++ [edge.1])) ∅ }

def loadLiveRun (run : RunRecord) : AssetConditionCache :=
  if run.isAction then
    { cache with
      liveActionRuns := cache.liveActionRuns.insert run.runId ⟨run.nodeNames, run.partitionKey⟩ }
  else
    run.nodeNames.foldl (fun tracked asset =>
      tracked.trackInProgressRun asset run.runId run.partitionKey) cache

def runsWithStatus (storage : Storage) (status : RunStatus) : List RunRecord :=
  (storage.getRunsSince 0).filter fun run => run.status = status

/-- One read per live status, in this order. -/
def liveRuns : List RunRecord :=
  runsWithStatus reads.started .started ++ runsWithStatus reads.notStarted .notStarted ++
    runsWithStatus reads.queued .queued

def loadLiveRuns : AssetConditionCache :=
  (liveRuns reads).foldl loadLiveRun cache

/-- A failed run floors its assets unless a materialization or deletion is as new. -/
def loadedFloors : List (String × Int) :=
  (runsWithStatus reads.failedRuns .failure).flatMap fun run =>
    if run.isAction then []
    else
      ((cache.floorAssets run).filter fun asset =>
        let record := cache.records.lookup asset
        record.bind (·.lastRunId) ≠ some run.runId &&
          (record.bind (·.lastTimestamp)).all (· < run.runTs) &&
          (reads.deletions.assetDeletions.lookup asset).all (· < run.runTs) &&
          !reads.built.materializedByRun asset run.runId).map fun asset => (asset, run.runTs)

def loadFloors : AssetConditionCache :=
  let floors := cache.loadedFloors reads
  let added := insertMaxAll cache.failedAssetTimestamps floors
  let kept := retain added fun asset ts =>
    ((cache.records.lookup asset).bind (·.lastTimestamp)).all (· < ts) &&
      (reads.deletions.assetDeletions.lookup asset).all (· < ts)
  { cache with
    failedAssetTimestamps := kept
    failedAssets := (cache.failedAssets ∪ (floors.map (·.1)).toFinset).filter (· ∈ kept)
    assetDeletionTs := reads.deletions.assetDeletions }

def lastRunIds (records : HashMap String AssetRecord) : Finset String :=
  records.keys.biUnion fun asset => ((records.lookup asset).bind (·.lastRunId)).toFinset

def recordedRun (asset : String) : Option RunRecord :=
  ((cache.records.lookup asset).bind (·.lastRunId)).bind fun runId =>
    (reads.lastRuns.getRunsByIds (lastRunIds cache.records)).find? fun run => run.runId = runId

def recordedSlots (asset : String) : Finset (Option PartitionKey) :=
  ((cache.recordedRun reads asset).elim [] fun run =>
    run.partitionSlots (cache.isPartitioned asset)).toFinset

def slotRun (asset : String) (slot : Option PartitionKey) : Option RunRecord :=
  if slot ∈ cache.recordedSlots reads asset then
    (cache.recordedRun reads asset).filter fun run =>
      (cache.lastRunEntryTs.lookup (asset, slot)).all (· ≤ run.runTs)
  else none

def loadSlots {β : Type} (slots : SlotMap β) (value : String → RunRecord → Option β) : SlotMap β :=
  collect (slots.keys ∪ cache.records.keys) fun asset =>
    if (cache.recordedRun reads asset).isNone then slots.lookup asset
    else some <| collect ((getD slots asset ∅).keys ∪ cache.recordedSlots reads asset) fun slot =>
      match cache.slotRun reads asset slot with
      | none => (getD slots asset ∅).lookup slot
      | some run => value asset run

def loadLastRuns : AssetConditionCache :=
  { cache with
    lastRunEntryTs := collect (cache.lastRunEntryTs.keys ∪ cache.records.keys.biUnion fun asset =>
        (cache.recordedSlots reads asset).image fun slot => (asset, slot)) fun slot =>
      ((cache.slotRun reads slot.1 slot.2).map (·.runTs)).or (cache.lastRunEntryTs.lookup slot)
    lastRunTags := cache.loadSlots reads cache.lastRunTags fun _ run =>
      if run.tags = [] then none else some run.tags
    lastRunAssetNames := cache.loadSlots reads cache.lastRunAssetNames fun asset run =>
      some (if run.isAction then cache.verbRunNames asset run.runId run.nodeNames
        else run.nodeNames) }

def loadPartitionStatus : AssetConditionCache :=
  { cache with
    partitionStatus := collect (cache.partitionStatus.keys ∪ cache.partitionedAssetKeys)
      fun asset =>
      if asset ∈ cache.partitionedAssetKeys then
        let storage := reads.partitions asset
        let timestamps := storage.getPartitionTimestamps asset
        let failed := storage.getFailedPartitions asset timestamps
        some
          { timestamps := timestamps
            inProgress := storage.getInProgressPartitions asset
            failed := failed.keys
            failedTimestamps := failed }
      else cache.partitionStatus.lookup asset }

def initialLoad : AssetConditionCache :=
  let loaded := cache.loadCursor reads
  let recorded := { loaded with
    lastObservationTs := (reads.latestObservation.getLatestObservationTs.map (· - 1)).getD (-1)
    records := reads.records.records }
  let connected := recorded.buildAdjacency (reads.topology.topology.getD [])
  let floored := (connected.loadLiveRuns reads).loadFloors reads
  { (({ floored.loadLastRuns reads with
        backfill := reads.backfills.activeBackfills }).loadPartitionStatus reads) with
    initialized := true }

end AssetConditionCache

end Rivers
