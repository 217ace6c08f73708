import Mathlib.Logic.Relation
import Rivers.Cache.InitialLoadCore
import Rivers.Cache.RefreshApply
import Rivers.Cache.RefreshPlan

/-! The cached partition timestamps against the rows in storage. -/

namespace Rivers

open FiniteMap Fold Storage

namespace AssetConditionCache

variable (cache : AssetConditionCache) (reads : RefreshReads) (now : Int)

theorem applyRunEffects_partitionStatus (run : RunRecord) (delta : RefreshDelta) :
    (cache.applyRunEffects run delta).partitionStatus = delta.partitionStatus := by
  unfold applyRunEffects queueActionPartitionChecks queueLastRunUpdates RefreshDelta.markApplied
  cases run.partitionKey <;> split_ifs <;> rfl

theorem planRuns_partitionStatus : (cache.planRuns reads).delta.partitionStatus = ∅ := by
  refine @planRuns_holds cache reads (fun delta => delta.partitionStatus = ∅) ?_ ?_ rfl
  · intro left right same empty
    rw [← same.partitionStatus, empty]
  · intro run delta _ empty
    rw [applyRunEffects_partitionStatus, empty]

theorem lookup_fetched_partitionStatus (asset : String) :
    (cache.fetchRefreshDelta reads now).partitionStatus.lookup asset =
      if asset ∈ cache.invalidatedBy reads then
        (cache.partitionStatus.lookup asset).map
          (partitionPatch reads (cache.planBeforeFetch reads).delta asset)
      else none := by
  have pre : (cache.planBeforeFetch reads).delta.partitionStatus = ∅ :=
    cache.planRuns_partitionStatus reads
  have observed : ∀ plan, (cache.planObservations reads plan).delta.partitionStatus =
      plan.delta.partitionStatus := by
    intro plan
    unfold planObservations
    dsimp only
    split <;> rfl
  have backfilled : ∀ plan, (cache.planBackfills reads plan).delta.partitionStatus =
      plan.delta.partitionStatus := by
    intro plan
    unfold planBackfills
    dsimp only
    split <;> rfl
  have fetched : (cache.fetchRefreshDelta reads now).partitionStatus =
      (cache.planInvalidated reads (cache.planBeforeFetch reads)).delta.partitionStatus :=
    (observed _).trans (backfilled _)
  rw [fetched, planInvalidated]
  split
  · rename_i nothing
    rw [pre, invalidatedBy, nothing, if_neg (Finset.notMem_empty asset)]
    rfl
  · rw [lookup_collect]
    rfl

theorem lookup_refresh_partitionStatus (asset : String) :
    (cache.refresh reads now).1.partitionStatus.lookup asset =
      if asset ∈ cache.invalidatedBy reads then
        (cache.partitionStatus.lookup asset).map fun entry => applyPatch entry
          (partitionPatch reads (cache.planBeforeFetch reads).delta asset entry)
      else cache.partitionStatus.lookup asset := by
  simp only [refresh, applyRefreshDelta_partitionStatus, applyPatches, lookup_collect,
    lookup_fetched_partitionStatus]
  cases found : cache.partitionStatus.lookup asset with
  | none => simp_all
  | some entry => grind [Finmap.mem_keys, Finmap.mem_of_lookup_eq_some, getD]

def cachedTimestamps (asset : String) : HashMap PartitionKey Int :=
  (getD cache.partitionStatus asset {}).timestamps

end AssetConditionCache

def Storage.writeRow (storage : Storage) (asset : String) (key : PartitionKey)
    (row : PartitionRow) :
    Storage :=
  { storage with
    partitionRows := storage.partitionRows.insert asset <| (storage.rowsOf asset).insert key <|
      match (storage.rowsOf asset).lookup key with
      | none => row
      | some old => if row.lastTimestamp < old.lastTimestamp then old else row }

structure RefreshReads.SeeRows (reads : RefreshReads) (asset : String)
    (storage : Storage) : Prop where
  timestamps : (reads.partitionTimestamps asset).rowsOf asset = storage.rowsOf asset
  rows : ∀ key, key ∈ storage.rowsOf asset → key ∈ (reads.partitionRows asset).rowsOf asset

inductive RowStep (asset : String) (ok : AssetConditionCache → PartitionRow → Prop) :
    AssetConditionCache × Storage → AssetConditionCache × Storage → Prop
  | write {cache : AssetConditionCache} {storage : Storage} (key : PartitionKey)
      (row : PartitionRow) (allowed : ok cache row) :
      RowStep asset ok (cache, storage) (cache, storage.writeRow asset key row)
  | refresh {cache : AssetConditionCache} {storage : Storage} (reads : RefreshReads) (now : Int)
      (seen : reads.SeeRows asset storage) :
      RowStep asset ok (cache, storage) ((cache.refresh reads now).1, storage)

def InOrder (asset : String) (cache : AssetConditionCache) (row : PartitionRow) : Prop :=
  0 ≤ row.lastTimestamp ∧
    ∀ key timestamp, (cache.cachedTimestamps asset).lookup key = some timestamp →
      timestamp ≤ row.lastTimestamp

structure TracksRows (asset : String) (cache : AssetConditionCache) (storage : Storage) : Prop where
  entry : (cache.partitionStatus.lookup asset).isSome
  times : ∀ key row, (storage.rowsOf asset).lookup key = some row → 0 ≤ row.lastTimestamp
  fetched : ∀ key row, (storage.rowsOf asset).lookup key = some row →
    (cache.cachedTimestamps asset).lookup key = some row.lastTimestamp ∨
      ∀ other timestamp, (cache.cachedTimestamps asset).lookup other = some timestamp →
        timestamp ≤ row.lastTimestamp
  live : ∀ key, key ∈ cache.cachedTimestamps asset → key ∈ storage.rowsOf asset

theorem mem_of_maximum? {vals greatest} (found : maximum? vals = some greatest) :
    greatest ∈ vals := by grind [Finset.max'_mem, maximum?]

theorem lookup_getPartitionTimestamps (storage : Storage) (asset : String) (key : PartitionKey) :
    (storage.getPartitionTimestamps asset).lookup key =
      ((storage.rowsOf asset).lookup key).map (·.lastTimestamp) := by
  rw [getPartitionTimestamps, lookup_mapValues]

open AssetConditionCache

theorem partitionsSince_lt (reload : Bool) (cached : HashMap PartitionKey Int) (time : Int)
    (nonneg : 0 ≤ time)
    (newest : ∀ key cachedTime, cached.lookup key = some cachedTime → cachedTime ≤ time) :
    partitionsSince reload cached < time := by
  unfold partitionsSince
  split
  · omega
  · cases found : maximum? (cached.keys.biUnion fun key => (cached.lookup key).toFinset) with
    | none =>
      rw [Option.map_none, Option.getD_none]
      omega
    | some greatest =>
      obtain ⟨key, -, held⟩ := Finset.mem_biUnion.mp (mem_of_maximum? found)
      have bound := newest key greatest (Option.mem_toFinset.mp held)
      rw [Option.map_some, Option.getD_some]
      omega

theorem lookup_getPartitionTimestampsSince (storage : Storage) (asset : String) (since : Int)
    (key : PartitionKey) :
    (storage.getPartitionTimestampsSince asset since).lookup key =
      (((storage.rowsOf asset).lookup key).map (·.lastTimestamp)).filter (since < ·) := by
  rw [getPartitionTimestampsSince, lookup_retain, lookup_getPartitionTimestamps]

theorem mem_getPartitionRunsForKeys (storage : Storage) (asset : String)
    (keys : Finset PartitionKey) (key : PartitionKey) :
    key ∈ storage.getPartitionRunsForKeys asset keys ↔ key ∈ storage.rowsOf asset ∧ key ∈ keys := by
  rw [Finmap.mem_iff, Finmap.mem_iff, getPartitionRunsForKeys, lookup_mapValues, lookup_retain]
  cases found : (storage.rowsOf asset).lookup key with
  | none => simp
  | some row => by_cases wanted : key ∈ keys <;> simp [Option.filter, wanted]

theorem TracksRows.fetched_or_cached {asset cache storage} (tracks : TracksRows asset cache storage)
    (reload : Bool) (key : PartitionKey) (row : PartitionRow)
    (stored : (storage.rowsOf asset).lookup key = some row) :
    partitionsSince reload (cache.cachedTimestamps asset) < row.lastTimestamp ∨
      (cache.cachedTimestamps asset).lookup key = some row.lastTimestamp := by
  rcases tracks.fetched key row stored with same | newest
  · exact .inr same
  · exact .inl (partitionsSince_lt reload _ _ (tracks.times key row stored) newest)

theorem TracksRows.refreshed {asset cache storage} (tracks : TracksRows asset cache storage)
    (reads : RefreshReads) (now : Int) (seen : reads.SeeRows asset storage)
    (invalidated : asset ∈ cache.invalidatedBy reads) :
    (cache.refresh reads now).1.cachedTimestamps asset = storage.getPartitionTimestamps asset := by
  obtain ⟨entry, found⟩ := Option.isSome_iff_exists.mp tracks.entry
  have cached : cache.cachedTimestamps asset = entry.timestamps := by
    rw [cachedTimestamps, getD, found, Option.getD_some]
  set patch := partitionPatch reads (cache.planBeforeFetch reads).delta asset entry with patchEq
  have refreshed : (cache.refresh reads now).1.cachedTimestamps asset =
      (applyPatch entry patch).timestamps := by
    rw [cachedTimestamps, getD, lookup_refresh_partitionStatus, if_pos invalidated, found]
    rfl
  set reload := decide (asset ∈ (cache.planBeforeFetch reads).delta.partitionReloads) with reloadEq
  have fresh : ∀ key, patch.freshTimestamps.lookup key =
      (((storage.rowsOf asset).lookup key).map (·.lastTimestamp)).filter
        (partitionsSince reload entry.timestamps < ·) := by
    intro key
    rw [← seen.timestamps, ← lookup_getPartitionTimestampsSince]
    rfl
  have undeleted : ∀ key row, (storage.rowsOf asset).lookup key = some row →
    key ∉ patch.deleted := by
    intro key row stored
    have present := seen.rows key (Finmap.mem_of_lookup_eq_some stored)
    have held := fresh key
    rw [stored] at held
    simp only [patchEq, partitionPatch, Finset.mem_union, Finset.mem_filter, not_or, not_and]
    refine ⟨?_, ?_⟩
    · grind [mem_getPartitionRunsForKeys]
    · split
      · rename_i reloaded
        have all : partitionsSince reload entry.timestamps < row.lastTimestamp := by
          rw [reloadEq, reloaded, partitionsSince, if_pos rfl]
          exact tracks.times key row stored
        grind [Finmap.mem_iff, partitionPatch]
      · exact Finset.notMem_empty key
  rw [refreshed]
  apply Finmap.ext_lookup
  intro key
  rw [lookup_getPartitionTimestamps]
  simp only [applyPatch, lookup_retain, lookup_extend, fresh]
  cases stored : (storage.rowsOf asset).lookup key with
  | none => grind [Finmap.lookup_eq_none, live]
  | some row => grind [fetched_or_cached]

theorem rowsOf_writeRow (storage : Storage) (asset : String) (key : PartitionKey)
    (row : PartitionRow) (other : PartitionKey) :
    ((storage.writeRow asset key row).rowsOf asset).lookup other =
      if other = key then
        some (match (storage.rowsOf asset).lookup key with
          | none => row
          | some old => if row.lastTimestamp < old.lastTimestamp then old else row)
      else (storage.rowsOf asset).lookup other := by
  simp only [rowsOf, writeRow, getD, Finmap.lookup_insert, Option.getD_some]
  exact lookup_insert_ite _ _ _ _

section History

variable {asset : String} {cache : AssetConditionCache} {storage : Storage}

theorem TracksRows.write (tracks : TracksRows asset cache storage) (key : PartitionKey)
    (row : PartitionRow) (inOrder : InOrder asset cache row) :
    TracksRows asset cache (storage.writeRow asset key row) := by
  have written : ∀ other found, ((storage.writeRow asset key row).rowsOf asset).lookup other =
      some found →
      (storage.rowsOf asset).lookup other = some found ∨ found = row := by grind [rowsOf_writeRow]
  refine ⟨tracks.entry, ?_, ?_, ?_⟩
  · intro other found stored
    rcases written other found stored with pre | rfl
    · exact tracks.times other found pre
    · exact inOrder.1
  · grind [fetched, InOrder]
  · intro other present
    obtain ⟨old, pre⟩ := Finmap.mem_iff.mp (tracks.live other present)
    grind [Finmap.mem_iff, rowsOf_writeRow]

theorem TracksRows.refresh (tracks : TracksRows asset cache storage) (reads : RefreshReads)
    (now : Int) (seen : reads.SeeRows asset storage) : TracksRows asset (cache.refresh reads now).1
    storage := by
  obtain ⟨entry, found⟩ := Option.isSome_iff_exists.mp tracks.entry
  have after := lookup_refresh_partitionStatus cache reads now asset
  by_cases invalidated : asset ∈ cache.invalidatedBy reads
  · have same := tracks.refreshed reads now seen invalidated
    rw [if_pos invalidated, found, Option.map_some] at after
    refine ⟨by rw [after]; rfl, tracks.times, ?_, ?_⟩
    · intro key row stored
      rw [same, lookup_getPartitionTimestamps, stored]
      exact .inl rfl
    · grind [Finmap.mem_iff, Option.map_eq_some_iff, lookup_getPartitionTimestamps]
  · rw [if_neg invalidated] at after
    have same : (cache.refresh reads now).1.cachedTimestamps asset =
      cache.cachedTimestamps asset := by
      rw [cachedTimestamps, cachedTimestamps, getD, getD, after]
    refine ⟨by rw [after]; exact tracks.entry, tracks.times, ?_, ?_⟩
    · rw [same]
      exact tracks.fetched
    · rw [same]
      exact tracks.live

theorem loadLiveRuns_partitionedAssetKeys (reads : LoadReads) :
    (cache.loadLiveRuns reads).partitionedAssetKeys = cache.partitionedAssetKeys := by
  unfold loadLiveRuns
  refine foldl_keeps (·.partitionedAssetKeys) _ ?_ _ cache
  intro state run
  unfold loadLiveRun
  split
  · rfl
  · refine foldl_keeps (·.partitionedAssetKeys) _ ?_ _ state
    exact fun _ _ => rfl

theorem lookup_loadPartitionStatus (parted : asset ∈ cache.partitionedAssetKeys)
    (load : LoadReads) :
    ((cache.loadPartitionStatus load).partitionStatus.lookup asset).map (·.timestamps) =
      some ((load.partitions asset).getPartitionTimestamps asset) := by
  simp only [loadPartitionStatus, lookup_collect, Finset.mem_union, parted, or_true, if_true]
  rfl

theorem initialLoad_timestamps (parted : asset ∈ cache.partitionedAssetKeys) (load : LoadReads) :
    ((cache.initialLoad load).partitionStatus.lookup asset).map (·.timestamps) =
      some ((load.partitions asset).getPartitionTimestamps asset) := by
  apply lookup_loadPartitionStatus
  grind [loadLiveRuns_partitionedAssetKeys, loadCursor, loadLastRuns, loadFloors, buildAdjacency]

theorem TracksRows.loaded (parted : asset ∈ cache.partitionedAssetKeys) (load : LoadReads)
    (read : (load.partitions asset).rowsOf asset = storage.rowsOf asset)
    (times : ∀ key row, (storage.rowsOf asset).lookup key = some row → 0 ≤ row.lastTimestamp) :
    TracksRows asset (cache.initialLoad load) storage := by
  have timestamps := initialLoad_timestamps parted load
  obtain ⟨entry, found, same⟩ := Option.map_eq_some_iff.mp timestamps
  have cached : (cache.initialLoad load).cachedTimestamps asset =
    storage.getPartitionTimestamps asset := by
    rw [cachedTimestamps, getD, found, Option.getD_some, same, getPartitionTimestamps, read]
    rfl
  refine ⟨by rw [found]; rfl, times, ?_, ?_⟩
  · grind [lookup_getPartitionTimestamps]
  · grind [Finmap.mem_iff, Option.map_eq_some_iff, lookup_getPartitionTimestamps]

theorem TracksRows.run {pre after} (tracks : TracksRows asset pre.1 pre.2)
    (hist : Relation.ReflTransGen (RowStep asset (InOrder asset)) pre after) :
    TracksRows asset after.1 after.2 := by
  induction hist with
  | refl => exact tracks
  | tail _ step ih =>
    cases step with
    | write key row inOrder => exact ih.write key row inOrder
    | refresh reads now seen => exact ih.refresh reads now seen

end History

/-- A refresh that sees the rows leaves the cached timestamps equal to them. -/
theorem refresh_timestamps_eq_rows (asset : String) (cache : AssetConditionCache)
    (partitioned : asset ∈ cache.partitionedAssetKeys) (load : LoadReads) (start : Storage)
    (read : (load.partitions asset).rowsOf asset = start.rowsOf asset)
    (times : ∀ key row, (start.rowsOf asset).lookup key = some row → 0 ≤ row.lastTimestamp)
    (current : AssetConditionCache) (storage : Storage)
    (history : Relation.ReflTransGen (RowStep asset (InOrder asset)) (cache.initialLoad load, start)
      (current, storage)) (reads : RefreshReads) (now : Int) (seen : reads.SeeRows asset storage)
    (invalidated : asset ∈ current.invalidatedBy reads) :
    (current.refresh reads now).1.cachedTimestamps asset = storage.getPartitionTimestamps asset :=
  ((TracksRows.loaded partitioned load read times).run history).refreshed reads now seen invalidated

def oneRow : Storage :=
  { partitionRows := (∅ : HashMap String _).insert "asset"
      ((∅ : HashMap PartitionKey PartitionRow).insert (.single ["k"]) ⟨5, none⟩)
    runs := [{ runId := "run", nodeNames := ["asset"], status := .success, startTime := 7 }] }

def loadedRow : AssetConditionCache :=
  ({ partitionedAssetKeys := {"asset"} } : AssetConditionCache).initialLoad
    (.at { oneRow with runs := [] })

theorem oneRow_rows (key : PartitionKey) (row : PartitionRow)
    (stored : (oneRow.rowsOf "asset").lookup key = some row) : row = ⟨5, none⟩ := by
  have rows : oneRow.rowsOf "asset" =
      (∅ : HashMap PartitionKey PartitionRow).insert (.single ["k"]) ⟨5, none⟩ := rfl
  rw [rows, lookup_insert_ite] at stored
  split at stored
  · exact (Option.some.inj stored).symm
  · cases stored

theorem refresh_timestamps_eq_rows_newer :
    let storage := oneRow.writeRow "asset" (.single ["l"]) ⟨6, none⟩
    "asset" ∈ loadedRow.invalidatedBy (.at storage) ∧
      (loadedRow.refresh (.at storage) 8).1.cachedTimestamps "asset" =
        storage.getPartitionTimestamps "asset" := by
  intro storage
  have invalidated : "asset" ∈ loadedRow.invalidatedBy (.at storage) := by decide
  refine ⟨invalidated, refresh_timestamps_eq_rows "asset" _ (by decide) _ oneRow rfl ?_
    loadedRow storage
    (.single (.write (.single ["l"]) ⟨6, none⟩ ⟨by decide, ?_⟩)) _ 8 ⟨rfl, fun _ present => present⟩
    invalidated⟩
  · intro key row stored
    rw [oneRow_rows key row stored]
    decide
  · intro key timestamp cached
    have rows : loadedRow.cachedTimestamps "asset" = oneRow.getPartitionTimestamps "asset" := by
      decide
    grind [Option.map_eq_some_iff, lookup_getPartitionTimestamps, oneRow_rows, loadedRow]

/-- A row that commits below the cached time is not fetched. -/
theorem refresh_misses_older_row :
    let storage := oneRow.writeRow "asset" (.single ["l"]) ⟨3, none⟩
    RowStep "asset" (fun _ _ => True) (loadedRow, oneRow) (loadedRow, storage) ∧
      "asset" ∈ loadedRow.invalidatedBy (.at storage) ∧
      (storage.getPartitionTimestamps "asset").lookup (.single ["l"]) = some 3 ∧
      ((loadedRow.refresh (.at storage) 8).1.cachedTimestamps "asset").lookup (.single ["l"]) =
        none := by
  refine ⟨.write _ _ trivial, by decide, by decide, by decide⟩

end Rivers
