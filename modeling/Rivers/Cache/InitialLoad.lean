import Rivers.Cache.InitialLoadCore
import Rivers.Cache.RefreshPlan
import Rivers.Cache.Tracking

/-! What an initial load leaves in each field of the cache. -/

namespace Rivers

open FiniteMap Fold

namespace AssetConditionCache

section Fields

variable (cache : AssetConditionCache) (reads : LoadReads)

def connected : AssetConditionCache :=
  ({ cache.loadCursor reads with
      lastObservationTs := (reads.latestObservation.getLatestObservationTs.map (· - 1)).getD (-1)
      records := reads.records.records } : AssetConditionCache).buildAdjacency
    (reads.topology.topology.getD [])

def loadedBase : AssetConditionCache :=
  (cache.connected reads).loadLiveRuns reads

theorem initialLoad_eq :
    cache.initialLoad reads =
      { (({ ((cache.loadedBase reads).loadFloors reads).loadLastRuns reads with
            backfill := reads.backfills.activeBackfills }).loadPartitionStatus reads) with
        initialized := true } := by
  unfold initialLoad loadedBase connected
  rfl

theorem initialLoad_floorOf (asset : String) :
    (cache.initialLoad reads).floorOf asset =
      ((cache.loadedBase reads).loadFloors reads).floorOf asset := by
  rw [initialLoad_eq]
  dsimp only [floorOf, loadPartitionStatus, loadLastRuns]

theorem initialLoad_base :
    (cache.initialLoad reads).records = (cache.loadedBase reads).records ∧
      (cache.initialLoad reads).partitionedAssetKeys =
        (cache.loadedBase reads).partitionedAssetKeys ∧
      (cache.initialLoad reads).inProgressAssets = (cache.loadedBase reads).inProgressAssets ∧
      (cache.initialLoad reads).liveActionRuns = (cache.loadedBase reads).liveActionRuns ∧
      (cache.initialLoad reads).pendingRuns = (cache.loadedBase reads).pendingRuns ∧
      (cache.initialLoad reads).lastSeenRunTs = (cache.loadedBase reads).lastSeenRunTs ∧
      (cache.initialLoad reads).appliedRunIds = (cache.loadedBase reads).appliedRunIds := by
  rw [initialLoad_eq]
  dsimp only [loadPartitionStatus, loadLastRuns, loadFloors]
  exact ⟨rfl, rfl, rfl, rfl, rfl, rfl, rfl⟩

theorem loadLiveRuns_eq : ∃ inProgress watched, cache.loadLiveRuns reads =
    { cache with inProgressAssets := inProgress, liveActionRuns := watched } := by
  have tracked : ∀ (run : RunRecord) (assets : List String) (state : AssetConditionCache),
      ∃ inProgress, assets.foldl (fun tracked asset =>
          tracked.trackInProgressRun asset run.runId run.partitionKey) state =
        { state with inProgressAssets := inProgress } := by
    intro run assets
    induction assets with
    | nil => exact fun state => ⟨state.inProgressAssets, rfl⟩
    | cons asset rest ih =>
      intro state
      obtain ⟨inProgress, eq⟩ := ih (state.trackInProgressRun asset run.runId run.partitionKey)
      exact ⟨inProgress, eq⟩
  refine foldl_invariant (fun state => ∃ inProgress watched, state =
    { cache with inProgressAssets := inProgress, liveActionRuns := watched }) _ _ ?_ cache ⟨_, _,
    rfl⟩
  rintro state run - ⟨inProgress, watched, rfl⟩
  unfold loadLiveRun
  split
  · exact ⟨_, _, rfl⟩
  · obtain ⟨later, eq⟩ := tracked run run.nodeNames
      { cache with inProgressAssets := inProgress, liveActionRuns := watched }
    exact ⟨later, watched, eq⟩

theorem loadedBase_eq :
    (cache.loadedBase reads).records = reads.records.records ∧
      (cache.loadedBase reads).failedAssets = cache.failedAssets ∧
      (cache.loadedBase reads).failedAssetTimestamps = cache.failedAssetTimestamps ∧
      (cache.loadedBase reads).partitionedAssetKeys = cache.partitionedAssetKeys := by
  have cursor : (cache.loadCursor reads).failedAssets = cache.failedAssets ∧
      (cache.loadCursor reads).failedAssetTimestamps = cache.failedAssetTimestamps ∧
      (cache.loadCursor reads).partitionedAssetKeys = cache.partitionedAssetKeys := by
    unfold loadCursor
    split <;> exact ⟨rfl, rfl, rfl⟩
  obtain ⟨_, _, live⟩ := (cache.connected reads).loadLiveRuns_eq reads
  unfold loadedBase
  rw [live]
  exact ⟨rfl, cursor⟩

theorem initialLoad_records : (cache.initialLoad reads).records = reads.records.records :=
  (cache.initialLoad_base reads).1.trans (cache.loadedBase_eq reads).1

theorem initialLoad_partitionedAssetKeys :
    (cache.initialLoad reads).partitionedAssetKeys = cache.partitionedAssetKeys :=
  (cache.initialLoad_base reads).2.1.trans (cache.loadedBase_eq reads).2.2.2

end Fields

end AssetConditionCache

namespace LoadReads

variable (reads : LoadReads)

def cursor : Int :=
  (reads.newest.runs.map (·.startTime)).max?.elim 0 (· - 1)

/-- What the ties are read from; without a run that read is not made. -/
def tied : Storage :=
  if reads.newest.runs = [] then reads.newest else reads.ties

def marks : List (String × Int) :=
  ((reads.tied.getRunsSince reads.cursor).filter (·.isTerminal)).map fun run => (run.runId, run.startTime)

end LoadReads

namespace AssetConditionCache

section Runs

variable (cache : AssetConditionCache) (reads : LoadReads) (asset runId : String)

theorem mem_runsWithStatus {storage run status} :
    run ∈ runsWithStatus storage status ↔
      run ∈ storage.runs ∧ 0 < run.startTime ∧ run.status = status := by
  simp [runsWithStatus, Storage.mem_getRunsSince, and_assoc]

/-- A live run of the load is live in the storage that one of the three reads saw. -/
theorem mem_liveRuns {run} (member : run ∈ liveRuns reads) :
    ∃ storage ∈ [reads.started, reads.notStarted, reads.queued],
      run ∈ storage.runs ∧ run.isTerminal = false := by
  simp only [liveRuns, List.mem_append, mem_runsWithStatus] at member
  rcases member with (⟨stored, -, status⟩ | ⟨stored, -, status⟩) | ⟨stored, -, status⟩
  · exact ⟨_, by simp, stored, by simp [RunRecord.isTerminal, status, RunStatus.isTerminal]⟩
  · exact ⟨_, by simp, stored, by simp [RunRecord.isTerminal, status, RunStatus.isTerminal]⟩
  · exact ⟨_, by simp, stored, by simp [RunRecord.isTerminal, status, RunStatus.isTerminal]⟩

theorem loadLiveRuns_tracked :
    runId ∈ (cache.loadLiveRuns reads).trackedRunIds asset ↔
      runId ∈ cache.trackedRunIds asset ∨ ∃ run ∈ liveRuns reads,
        run.isAction = false ∧ asset ∈ run.nodeNames ∧ run.runId = runId := by
  have tracks : ∀ (run : RunRecord) (names : List String) (state : AssetConditionCache),
      runId ∈ (names.foldl (fun tracked name =>
          tracked.trackInProgressRun name run.runId run.partitionKey) state).trackedRunIds asset ↔
        runId ∈ state.trackedRunIds asset ∨ asset ∈ names ∧ run.runId = runId := by
    intro run names state
    have folded := foldl_adds (fun (state : AssetConditionCache) (_ : Unit) =>
        runId ∈ state.trackedRunIds asset) (fun name _ => asset = name ∧ runId = run.runId)
      (fun _ => True) (fun tracked name => tracked.trackInProgressRun name run.runId
        run.partitionKey)
      (fun _ _ _ => trivial) (fun state name _ _ => by
        have change := state.mem_applyInProgressChange asset runId
          (.push name run.runId run.partitionKey)
        simp only [InProgressChange.Tracks, InProgressChange.Drops, not_false_eq_true, and_true] at change
        exact change.trans or_comm) names state trivial ()
    rw [folded]
    simp [eq_comm]
  have step : ∀ (state : AssetConditionCache) (run : RunRecord),
      runId ∈ (state.loadLiveRun run).trackedRunIds asset ↔ runId ∈ state.trackedRunIds asset ∨
        run.isAction = false ∧ asset ∈ run.nodeNames ∧ run.runId = runId := by
    grind [trackedRunIds, loadLiveRun]
  unfold loadLiveRuns
  rw [foldl_adds (fun (state : AssetConditionCache) (_ : Unit) => runId ∈ state.trackedRunIds asset)
    (fun run _ => run.isAction = false ∧ asset ∈ run.nodeNames ∧ run.runId = runId) (fun _ => True)
    loadLiveRun (fun _ _ _ => trivial) (fun state run _ _ => step state run) _ _ trivial ()]

theorem loadLiveRuns_watched :
    runId ∈ (cache.loadLiveRuns reads).liveActionRuns ↔
      runId ∈ cache.liveActionRuns ∨ ∃ run ∈ liveRuns reads, run.isAction ∧ run.runId = runId := by
  have untouched : ∀ (run : RunRecord) (names : List String) (state : AssetConditionCache),
      (names.foldl (fun tracked name =>
        tracked.trackInProgressRun name run.runId run.partitionKey) state).liveActionRuns =
        state.liveActionRuns := by
    intro run names state
    refine foldl_keeps (fun state : AssetConditionCache => state.liveActionRuns) _ ?_ names state
    exact fun _ _ => rfl
  have step : ∀ (state : AssetConditionCache) (run : RunRecord),
      runId ∈ (state.loadLiveRun run).liveActionRuns ↔
        runId ∈ state.liveActionRuns ∨ run.isAction ∧ run.runId = runId := by
    intro state run
    unfold loadLiveRun
    cases run.isAction with
    | true => simp [Finmap.mem_insert, or_comm, eq_comm]
    | false => simp [untouched]
  unfold loadLiveRuns
  rw [foldl_adds (fun (state : AssetConditionCache) (_ : Unit) => runId ∈ state.liveActionRuns)
    (fun run _ => run.isAction ∧ run.runId = runId) (fun _ => True)
    loadLiveRun (fun _ _ _ => trivial) (fun state run _ _ => step state run) _ _ trivial ()]

theorem loadCursor_eq (start : cache.lastSeenRunTs = 0) :
    (cache.loadCursor reads).pendingRuns = cache.pendingRuns ∧
      (cache.loadCursor reads).inProgressAssets = cache.inProgressAssets ∧
      (cache.loadCursor reads).liveActionRuns = cache.liveActionRuns ∧
      (cache.loadCursor reads).lastSeenRunTs = reads.cursor ∧
      (cache.loadCursor reads).appliedRunIds = insertAll cache.appliedRunIds reads.marks := by
  unfold loadCursor
  cases newest : (reads.newest.runs.map (·.startTime)).max? with
  | none =>
    have empty : reads.newest.runs = [] := by simpa using newest
    simp [start, empty, LoadReads.cursor, LoadReads.marks, LoadReads.tied, insertAll,
      Storage.getRunsSince]
  | some start =>
    have stored : reads.newest.runs ≠ [] := by
      rintro empty
      simp [empty] at newest
    simp [newest, stored, LoadReads.cursor, LoadReads.marks, LoadReads.tied, insertAll,
      List.foldl_map]

structure LoadsRuns (loaded : AssetConditionCache) : Prop where
  pendingRuns : loaded.pendingRuns = ∅
  lastSeenRunTs : loaded.lastSeenRunTs = reads.cursor
  appliedRunIds : loaded.appliedRunIds = insertAll ∅ reads.marks
  tracked : ∀ asset runId, runId ∈ loaded.trackedRunIds asset ↔ ∃ run ∈ liveRuns reads,
    run.isAction = false ∧ asset ∈ run.nodeNames ∧ run.runId = runId
  watched : ∀ runId, runId ∈ loaded.liveActionRuns ↔ ∃ run ∈ liveRuns reads,
    run.isAction ∧ run.runId = runId

theorem initialLoad_runs (untracked : cache.inProgressAssets = ∅)
    (unwatched : cache.liveActionRuns = ∅) (unpending : cache.pendingRuns = ∅)
    (unmarked : cache.appliedRunIds = ∅) (start : cache.lastSeenRunTs = 0) :
    LoadsRuns reads (cache.initialLoad reads) := by
  obtain ⟨pending, inProgress, watched, cursor, applied⟩ := cache.loadCursor_eq reads start
  obtain ⟨-, -, sameTracked, sameWatched, samePending, sameCursor, sameMarks⟩ :=
    cache.initialLoad_base reads
  obtain ⟨_, _, live⟩ := (cache.connected reads).loadLiveRuns_eq reads
  have base : (cache.loadedBase reads).pendingRuns = (cache.loadCursor reads).pendingRuns ∧
      (cache.loadedBase reads).lastSeenRunTs = (cache.loadCursor reads).lastSeenRunTs ∧
      (cache.loadedBase reads).appliedRunIds = (cache.loadCursor reads).appliedRunIds := by
    unfold loadedBase
    rw [live]
    exact ⟨rfl, rfl, rfl⟩
  refine ⟨?_, ?_, ?_, fun asset runId => ?_, fun runId => ?_⟩
  · rw [samePending, base.1, pending, unpending]
  · rw [sameCursor, base.2.1, cursor]
  · rw [sameMarks, base.2.2, applied, unmarked]
  · rw [mem_tracked_of_eq _ asset runId sameTracked, loadedBase, loadLiveRuns_tracked]
    have none : runId ∉ (cache.connected reads).trackedRunIds asset := by
      have empty : (cache.connected reads).inProgressAssets = ∅ := inProgress.trans untracked
      simp [mem_trackedRunIds, empty]
    simp only [none, false_or]
  · rw [sameWatched, loadedBase, loadLiveRuns_watched]
    have none : runId ∉ (cache.connected reads).liveActionRuns := by
      have empty : (cache.connected reads).liveActionRuns = ∅ := watched.trans unwatched
      rw [empty]
      exact Finmap.notMem_empty
    simp only [none, false_or]

end Runs

end AssetConditionCache

end Rivers
