import Rivers.Cache.RefreshCore
import Rivers.Lib.Fold

/-! What the apply phase of a refresh does to each field of the cache. -/

namespace Rivers

open FiniteMap Fold

namespace AssetConditionCache

variable (cache : AssetConditionCache) (delta : RefreshDelta)

def progressedAssets : HashMap String (HashMap String (Option PartitionKey)) :=
  (delta.inProgressChanges.foldl applyInProgressChange (cache.applyRecords delta)).inProgressAssets

theorem applyInProgressChange_eq (change : InProgressChange) :
    cache.applyInProgressChange change =
      { cache with inProgressAssets := (cache.applyInProgressChange change).inProgressAssets } := by
  unfold applyInProgressChange
  split
  · rfl
  · unfold untrackInProgressRun
    split <;> rfl
  · rfl
  · rfl

theorem progressed_eq :
    delta.inProgressChanges.foldl applyInProgressChange (cache.applyRecords delta) =
      { cache.applyRecords delta with inProgressAssets := cache.progressedAssets delta } := by
  have kept : ∀ (changes : List InProgressChange) (start : AssetConditionCache),
      changes.foldl applyInProgressChange start =
        { start with
          inProgressAssets := (changes.foldl applyInProgressChange start).inProgressAssets } := by
    intro changes
    induction changes with
    | nil => intro start; rfl
    | cons change rest ih =>
      intro start
      rw [List.foldl_cons, ih, applyInProgressChange_eq start change]
  exact kept _ _

def LastRunsOnly (before after : AssetConditionCache) : Prop :=
  ∃ entryTs tags names tickTags deletionTs, after =
    { before with
      lastRunEntryTs := entryTs, lastRunTags := tags, lastRunAssetNames := names
      tickMaterializationTags := tickTags, assetDeletionTs := deletionTs }

theorem LastRunsOnly.refl : LastRunsOnly cache cache :=
  ⟨_, _, _, _, _, rfl⟩

theorem LastRunsOnly.trans {first second third} (early : LastRunsOnly first second)
    (later : LastRunsOnly second third) :
    LastRunsOnly first third := by grind [LastRunsOnly]

theorem applyLastRunUpdate_only (update : LastRunUpdate) :
    LastRunsOnly cache (cache.applyLastRunUpdate delta update) := by
  unfold applyLastRunUpdate updateLastRunMaps
  split
  · split
    · exact .refl cache
    · exact ⟨_, _, _, cache.tickMaterializationTags, cache.assetDeletionTs, rfl⟩
  · exact .refl cache

theorem applyTickTagUpdate_only (update : RunTagUpdate) :
    LastRunsOnly cache (cache.applyTickTagUpdate delta update) := by
  grind [LastRunsOnly.refl, LastRunsOnly, applyTickTagUpdate]

def beforePatches : AssetConditionCache :=
  let lastRuns := delta.lastRunUpdates.foldl (fun cache update =>
    cache.applyLastRunUpdate delta update)
    ((delta.inProgressChanges.foldl applyInProgressChange (cache.applyRecords delta)).applyFloors
      delta)
  delta.tickTagUpdates.foldl (fun cache update => cache.applyTickTagUpdate delta update)
    (lastRuns.applyDeletions delta.deletionSupersessions)

theorem beforePatches_only :
    LastRunsOnly
      (({ cache.applyRecords delta with
          inProgressAssets := cache.progressedAssets delta } : AssetConditionCache).applyFloors
            delta)
      (cache.beforePatches delta) := by
  have lastRuns := foldl_invariant
    (LastRunsOnly ((delta.inProgressChanges.foldl applyInProgressChange
      (cache.applyRecords delta)).applyFloors delta))
    (fun cache update => cache.applyLastRunUpdate delta update) delta.lastRunUpdates
    (fun state update _ early => early.trans (state.applyLastRunUpdate_only delta update)) _
    (.refl _)
  have deleted : ∀ state : AssetConditionCache,
      LastRunsOnly state (state.applyDeletions delta.deletionSupersessions) :=
    fun state => ⟨_, _, _, state.tickMaterializationTags, _, rfl⟩
  have tagged := foldl_invariant
    (LastRunsOnly ((delta.inProgressChanges.foldl applyInProgressChange
      (cache.applyRecords delta)).applyFloors delta))
    (fun cache update => cache.applyTickTagUpdate delta update) delta.tickTagUpdates
    (fun state update _ early => early.trans (state.applyTickTagUpdate_only delta update)) _
    (lastRuns.trans (deleted _))
  rw [← progressed_eq]
  exact tagged

theorem applyRefreshDelta_eq :
    cache.applyRefreshDelta delta =
      ((((cache.beforePatches delta).applyPatches delta.partitionStatus).applyBackfill
        delta).applyCursors delta).applyEvictions delta :=
  rfl

theorem applyRefreshDelta_records :
    (cache.applyRefreshDelta delta).records = extend cache.records delta.recordUpdates := by
  obtain ⟨_, _, _, _, _, eq⟩ := cache.beforePatches_only delta
  rw [applyRefreshDelta_eq, eq]
  rfl

theorem applyRefreshDelta_partitionStatus :
    (cache.applyRefreshDelta delta).partitionStatus =
      (cache.applyPatches delta.partitionStatus).partitionStatus := by
  obtain ⟨_, _, _, _, _, eq⟩ := cache.beforePatches_only delta
  rw [applyRefreshDelta_eq, eq]
  rfl

theorem applyFloors_floorOf (asset : String) :
    (cache.applyFloors delta).floorOf asset = cache.floorAfter delta asset := by
  have outside : asset ∉ cache.failedAssets ∪ cache.failedAssetTimestamps.keys ∪
      delta.failedAdds.keys →
      cache.floorAfter delta asset = (false, none) := by
    intro absent
    simp only [Finset.mem_union, Finmap.mem_keys, not_or] at absent
    obtain ⟨⟨unfailed, untimed⟩, unadded⟩ := absent
    have held : cache.floorOf asset = (false, none) := by
      simp [floorOf, unfailed, Finmap.lookup_eq_none.mpr untimed]
    simp only [floorAfter, Finmap.lookup_eq_none.mpr unadded, Option.elim_none, held]
    cases delta.failedRemoves.lookup asset <;> rfl
  simp only [floorOf, applyFloors, Finset.mem_filter]
  rw [lookup_collect_eq _ _ _ fun absent => by rw [outside absent]]
  refine Prod.ext ?_ rfl
  grind

theorem applyRefreshDelta_floorOf (asset : String) :
    (cache.applyRefreshDelta delta).floorOf asset = (cache.applyRecords delta).floorAfter
      delta asset := by
  obtain ⟨_, _, _, _, _, eq⟩ := cache.beforePatches_only delta
  rw [applyRefreshDelta_eq, eq]
  exact applyFloors_floorOf _ delta asset

theorem applyRefreshDelta_partitionedAssetKeys :
    (cache.applyRefreshDelta delta).partitionedAssetKeys = cache.partitionedAssetKeys := by
  obtain ⟨_, _, _, _, _, eq⟩ := cache.beforePatches_only delta
  rw [applyRefreshDelta_eq, eq]
  rfl

end AssetConditionCache

end Rivers
