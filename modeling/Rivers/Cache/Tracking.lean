import Rivers.Cache.RefreshApply

/-! Which runs the cache tracks and watches after a delta. -/

namespace Rivers

open FiniteMap Fold AssetConditionCache

namespace InProgressChange

def Tracks (asset runId : String) : InProgressChange → Prop
  | .push assetKey pushed _ => asset = assetKey ∧ runId = pushed
  | _ => False

def Drops (asset runId : String) : InProgressChange → Prop
  | .push _ _ _ => False
  | .clearRun assetKey cleared => asset = assetKey ∧ runId = cleared
  | .clearRuns pairs => (asset, runId) ∈ pairs
  | .assetClear assetKey => asset = assetKey

end InProgressChange

namespace AssetConditionCache

variable (cache : AssetConditionCache) (delta : RefreshDelta) (asset runId : String)

theorem mem_trackedRunIds :
    runId ∈ cache.trackedRunIds asset ↔
      ∃ runs, cache.inProgressAssets.lookup asset = some runs ∧ runId ∈ runs := by
  simp only [trackedRunIds, getD, Finmap.mem_keys]
  cases found : cache.inProgressAssets.lookup asset <;> simp [Finmap.notMem_empty]

theorem mem_tracked_of_eq {other : AssetConditionCache}
    (same : other.inProgressAssets = cache.inProgressAssets) :
    runId ∈ other.trackedRunIds asset ↔ runId ∈ cache.trackedRunIds asset := by
  simp only [trackedRunIds, same]

theorem mem_untrackRuns (pairs : Finset (String × String)) :
    runId ∈ (cache.untrackRuns pairs).trackedRunIds asset ↔
      runId ∈ cache.trackedRunIds asset ∧ (asset, runId) ∉ pairs := by
  simp only [mem_trackedRunIds, untrackRuns]
  rw [lookup_collect_eq]
  · cases found : cache.inProgressAssets.lookup asset with
    | none => simp
    | some runs =>
      simp only [Option.bind_some, Option.some.injEq, exists_eq_left']
      by_cases touched : ∃ pair ∈ pairs, pair.1 = asset
      · have kept : runId ∈ retain runs (fun runId _ => (asset, runId) ∉ pairs) ↔
            runId ∈ runs ∧ (asset, runId) ∉ pairs := by
          rw [mem_retain, Finmap.mem_iff]
          simp
        grind [notMem_of_keys_empty]
      · simp_all
  · grind [Finmap.lookup_eq_none, Finmap.mem_keys]

theorem mem_applyInProgressChange (change : InProgressChange) :
    runId ∈ (cache.applyInProgressChange change).trackedRunIds asset ↔
      change.Tracks asset runId ∨ runId ∈ cache.trackedRunIds asset ∧
        ¬ change.Drops asset runId := by
  cases change with
  | push assetKey pushed key =>
    simp only [InProgressChange.Tracks, InProgressChange.Drops, not_false_eq_true, and_true,
      applyInProgressChange, trackInProgressRun, mem_trackedRunIds, lookup_insert_ite]
    by_cases same : asset = assetKey
    · subst same
      simp only [if_true, Option.some.injEq, exists_eq_left', Finmap.mem_insert, true_and, getD]
      cases cache.inProgressAssets.lookup asset <;> simp [Finmap.notMem_empty]
    · simp [same]
  | clearRun assetKey cleared =>
    simp only [InProgressChange.Tracks, InProgressChange.Drops, false_or, applyInProgressChange,
      untrackInProgressRun]
    cases found : cache.inProgressAssets.lookup assetKey with
    | none =>
      have untracked : asset = assetKey → runId ∉ cache.trackedRunIds asset := by
        rintro rfl
        simp [mem_trackedRunIds, found]
      refine ⟨fun mem => ⟨mem, fun same => untracked same.1 mem⟩, And.left⟩
    | some runs =>
      simp only [mem_trackedRunIds]
      by_cases same : asset = assetKey
      · subst same
        rw [found]
        split
        · rename_i nothing
          have gone := notMem_of_keys_empty nothing runId
          simp only [Finmap.mem_erase, not_and_or, not_not] at gone
          simp [Finmap.lookup_erase]
          tauto
        · simp [Finmap.mem_erase, and_comm]
      · split <;> simp [same]
  | clearRuns pairs =>
    simp only [InProgressChange.Tracks, InProgressChange.Drops, false_or]
    exact cache.mem_untrackRuns asset runId pairs
  | assetClear assetKey =>
    simp only [InProgressChange.Tracks, InProgressChange.Drops, false_or, applyInProgressChange,
      mem_trackedRunIds, lookup_erase_ite]
    by_cases same : asset = assetKey <;> simp [same]

section Apply

theorem applyRefreshDelta_pendingRuns (unpending : cache.pendingRuns = ∅) :
    (cache.applyRefreshDelta delta).pendingRuns = ∅ := by
  have kept : (cache.beforePatches delta).pendingRuns = cache.pendingRuns := by
    obtain ⟨_, _, _, _, _, eq⟩ := cache.beforePatches_only delta
    rw [eq]
    rfl
  change retain (retain (cache.beforePatches delta).pendingRuns _) _ = ∅
  rw [kept, unpending, retain_empty, retain_empty]

theorem mem_applyBackfill :
    runId ∈ (cache.applyBackfill delta).trackedRunIds asset ↔
    runId ∈ cache.trackedRunIds asset := by
  simp only [mem_trackedRunIds, applyBackfill, lookup_retain, Option.filter_eq_some_iff]
  constructor
  · rintro ⟨runs, ⟨found, -⟩, mem⟩
    exact ⟨runs, found, mem⟩
  · grind [notMem_of_keys_empty]

theorem applyRefreshDelta_tracked (unpending : cache.pendingRuns = ∅) :
    runId ∈ (cache.applyRefreshDelta delta).trackedRunIds asset ↔
      runId ∈ (delta.inProgressChanges.foldl applyInProgressChange
        (cache.applyRecords delta)).trackedRunIds asset := by
  have kept : (cache.beforePatches delta).pendingRuns = cache.pendingRuns ∧
      (cache.beforePatches delta).inProgressAssets = cache.progressedAssets delta := by
    obtain ⟨_, _, _, _, _, eq⟩ := cache.beforePatches_only delta
    rw [eq]
    exact ⟨rfl, rfl⟩
  rw [applyRefreshDelta_eq]
  generalize eq : (((cache.beforePatches delta).applyPatches delta.partitionStatus).applyBackfill
    delta).applyCursors delta = cursored
  have empty : cursored.pendingRuns = ∅ := by
    rw [← eq]
    change retain (cache.beforePatches delta).pendingRuns _ = ∅
    rw [kept.1, unpending, retain_empty]
  unfold applyEvictions
  extract_lets pairs
  have none : pairs = ∅ := by
    ext pair
    simp [pairs, empty]
  refine (mem_tracked_of_eq (cursored.untrackRuns pairs) asset runId (by rfl)).trans ?_
  rw [mem_untrackRuns, none, ← eq]
  simp only [Finset.notMem_empty, not_false_eq_true, and_true]
  refine ((mem_tracked_of_eq _ asset runId rfl).trans
    (mem_applyBackfill _ delta asset runId)).trans ?_
  exact mem_tracked_of_eq _ asset runId kept.2

variable {cache delta asset runId} (unpending : cache.pendingRuns = ∅)

include unpending

theorem tracked_source (after : runId ∈ (cache.applyRefreshDelta delta).trackedRunIds asset) :
    runId ∈ cache.trackedRunIds asset ∨ ∃ change ∈ delta.inProgressChanges,
    change.Tracks asset runId :=
  foldl_latch_source (fun state : AssetConditionCache => runId ∈ state.trackedRunIds asset)
    (InProgressChange.Tracks asset runId) (InProgressChange.Drops asset runId) applyInProgressChange
    (fun state change => state.mem_applyInProgressChange asset runId change) _
      (cache.applyRecords delta)
    ((cache.applyRefreshDelta_tracked delta asset runId unpending).mp after)

theorem tracked_kept (kept : ∀ change ∈ delta.inProgressChanges, ¬ change.Drops asset runId)
    (source : runId ∈ cache.trackedRunIds asset ∨ ∃ change ∈ delta.inProgressChanges,
      change.Tracks asset runId) :
    runId ∈ (cache.applyRefreshDelta delta).trackedRunIds asset :=
  (cache.applyRefreshDelta_tracked delta asset runId unpending).mpr <|
    foldl_latch_on (fun state : AssetConditionCache => runId ∈ state.trackedRunIds asset)
      (InProgressChange.Tracks asset runId) (InProgressChange.Drops asset runId)
        applyInProgressChange
      (fun state change => state.mem_applyInProgressChange asset runId change) _ _ kept source

theorem tracked_dropped (unset : ∀ change ∈ delta.inProgressChanges, ¬ change.Tracks asset runId)
    (dropped : runId ∉ cache.trackedRunIds asset ∨ ∃ change ∈ delta.inProgressChanges,
      change.Drops asset runId) :
    runId ∉ (cache.applyRefreshDelta delta).trackedRunIds asset := fun after =>
  foldl_latch_off (fun state : AssetConditionCache => runId ∈ state.trackedRunIds asset)
    (InProgressChange.Tracks asset runId) (InProgressChange.Drops asset runId) applyInProgressChange
    (fun state change => state.mem_applyInProgressChange asset runId change) _
      (cache.applyRecords delta)
    unset dropped
    ((cache.applyRefreshDelta_tracked delta asset runId unpending).mp after)

omit unpending

variable (cache delta runId)

theorem applyRefreshDelta_watched :
    runId ∈ (cache.applyRefreshDelta delta).liveActionRuns ↔
      (runId ∈ cache.liveActionRuns ∨ ∃ live, (runId, live) ∈ delta.trackActionRuns) ∧
        runId ∉ delta.untrackActionRuns := by
  have watched : (cache.applyRefreshDelta delta).liveActionRuns =
      retain (insertAll cache.liveActionRuns delta.trackActionRuns)
        fun runId _ => runId ∉ delta.untrackActionRuns := by
    obtain ⟨_, _, _, _, _, eq⟩ := cache.beforePatches_only delta
    rw [applyRefreshDelta_eq, eq]
    rfl
  rw [watched, mem_retain, ← mem_insertAll, Finmap.mem_iff]
  simp

theorem applyRefreshDelta_lastSeenRunTs :
    (cache.applyRefreshDelta delta).lastSeenRunTs = delta.newLastSeenRunTs.getD
      cache.lastSeenRunTs := by
  obtain ⟨_, _, _, _, _, eq⟩ := cache.beforePatches_only delta
  rw [applyRefreshDelta_eq, eq]
  rfl

theorem applyRefreshDelta_applied :
    (cache.applyRefreshDelta delta).appliedRunIds =
      retain (insertAll cache.appliedRunIds delta.appliedRuns)
        fun _ startTime => delta.newLastSeenRunTs.getD cache.lastSeenRunTs < startTime := by
  obtain ⟨_, _, _, _, _, eq⟩ := cache.beforePatches_only delta
  rw [applyRefreshDelta_eq, eq]
  rfl

end Apply

end AssetConditionCache

end Rivers
