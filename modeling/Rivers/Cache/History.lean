import Rivers.Cache.InitialLoadCore
import Rivers.Cache.StorageHistory

/-! Histories of a cache that is refreshed from a growing storage. -/

namespace Rivers

open FiniteMap

structure RefreshReads.Between (reads : RefreshReads) (before after : Storage) : Prop where
  newRuns : StorageSteps before reads.newRuns
  freshRecords : StorageSteps reads.newRuns reads.freshRecords
  outcomes : StorageSteps reads.freshRecords reads.outcomes
  trackedRuns : StorageSteps reads.outcomes reads.trackedRuns
  completedRuns : StorageSteps reads.trackedRuns reads.completedRuns
  watchedRuns : StorageSteps reads.completedRuns reads.watchedRuns
  built : StorageSteps reads.watchedRuns reads.built
  deletions : StorageSteps reads.built reads.deletions
  invalidatedRecords : StorageSteps reads.deletions reads.invalidatedRecords
  backfills : StorageSteps reads.invalidatedRecords reads.backfills
  partitions : ∀ asset, ∀ storage ∈ [reads.partitionTimestamps asset,
    reads.partitionsInProgress asset,
      reads.partitionFailures asset, reads.partitionRows asset],
    StorageSteps reads.invalidatedRecords storage ∧ StorageSteps storage reads.backfills
  observations : StorageSteps reads.backfills reads.observations
  observedRecords : StorageSteps reads.observations reads.observedRecords
  after : StorageSteps reads.observedRecords after

namespace RefreshReads.Between

variable {reads : RefreshReads} {before after : Storage} (between : reads.Between before after)

include between

theorem before_trackedRuns : StorageSteps before reads.trackedRuns :=
  between.newRuns.trans <| between.freshRecords.trans <| between.outcomes.trans between.trackedRuns

theorem before_invalidatedRecords : StorageSteps before reads.invalidatedRecords :=
  between.before_trackedRuns.trans <| between.completedRuns.trans <| between.watchedRuns.trans <|
    between.built.trans <| between.deletions.trans between.invalidatedRecords

theorem invalidatedRecords_after : StorageSteps reads.invalidatedRecords after :=
  between.backfills.trans <| between.observations.trans <| between.observedRecords.trans
    between.after

theorem built_after : StorageSteps reads.built after :=
  between.deletions.trans <| between.invalidatedRecords.trans between.invalidatedRecords_after

theorem newRuns_trackedRuns : StorageSteps reads.newRuns reads.trackedRuns :=
  between.freshRecords.trans <| between.outcomes.trans between.trackedRuns

theorem trackedRuns_built : StorageSteps reads.trackedRuns reads.built :=
  between.completedRuns.trans <| between.watchedRuns.trans between.built

theorem newRuns_after : StorageSteps reads.newRuns after :=
  between.newRuns_trackedRuns.trans <| between.trackedRuns_built.trans between.built_after

theorem through : StorageSteps before after :=
  between.newRuns.trans between.newRuns_after

end RefreshReads.Between

theorem RefreshReads.between_at (storage : Storage) :
    (RefreshReads.at storage).Between storage storage where
  newRuns := .refl
  freshRecords := .refl
  outcomes := .refl
  trackedRuns := .refl
  completedRuns := .refl
  watchedRuns := .refl
  built := .refl
  deletions := .refl
  invalidatedRecords := .refl
  backfills := .refl
  partitions := by simp [RefreshReads.at, Relation.ReflTransGen.refl]
  observations := .refl
  observedRecords := .refl
  after := .refl

def AssetConditionCache.fresh (partitioned : Finset String) (needsTickTags : Bool) :
    AssetConditionCache :=
  { partitionedAssetKeys := partitioned, needsTickTags := needsTickTags }

structure LoadReads.Between (reads : LoadReads) (before after : Storage) : Prop where
  newest : StorageSteps before reads.newest
  ties : StorageSteps reads.newest reads.ties
  latestObservation : StorageSteps reads.ties reads.latestObservation
  records : StorageSteps reads.latestObservation reads.records
  topology : StorageSteps reads.records reads.topology
  started : StorageSteps reads.topology reads.started
  notStarted : StorageSteps reads.started reads.notStarted
  queued : StorageSteps reads.notStarted reads.queued
  failedRuns : StorageSteps reads.queued reads.failedRuns
  deletions : StorageSteps reads.failedRuns reads.deletions
  built : StorageSteps reads.deletions reads.built
  lastRuns : StorageSteps reads.built reads.lastRuns
  backfills : StorageSteps reads.lastRuns reads.backfills
  partitions : ∀ asset, StorageSteps reads.backfills (reads.partitions asset) ∧
    StorageSteps (reads.partitions asset) after
  after : StorageSteps reads.backfills after

theorem LoadReads.between_at (storage : Storage) :
    (LoadReads.at storage).Between storage storage where
  newest := .refl
  ties := .refl
  latestObservation := .refl
  records := .refl
  topology := .refl
  started := .refl
  notStarted := .refl
  queued := .refl
  failedRuns := .refl
  deletions := .refl
  built := .refl
  lastRuns := .refl
  backfills := .refl
  partitions := fun _ => ⟨.refl, .refl⟩
  after := .refl

/-- What can happen after a load that began at `start` and ended at `first`. -/
inductive History (loaded : AssetConditionCache) (ok : AssetConditionCache → RefreshReads → Prop)
    (start first : Storage) : (begun now : Storage) → AssetConditionCache → List (List RunRecord) →
    Prop
  | load : History loaded ok start first start first loaded []
  | commit {begun now next : Storage} {cache : AssetConditionCache}
      {batches : List (List RunRecord)}
      (history : History loaded ok start first begun now cache batches)
      (step : StorageStep now next) :
      History loaded ok start first begun next cache batches
  | refresh {begun before after : Storage} {cache : AssetConditionCache}
      {batches : List (List RunRecord)}
      (history : History loaded ok start first begun before cache batches)
      (reads : RefreshReads) (between : reads.Between before after) (meets : ok cache reads)
      (time : Int) :
      History loaded ok start first before after (cache.refresh reads time).1
        (batches ++ [(cache.fetchRefreshDelta reads time).effects])

theorem History.commits {loaded cache ok start first begun now next batches}
    (history : History loaded ok start first begun now cache batches)
    (steps : StorageSteps now next) :
    History loaded ok start first begun next cache batches := by
  induction steps with
  | refl => exact history
  | tail _ step ih => exact ih.commit step

end Rivers
