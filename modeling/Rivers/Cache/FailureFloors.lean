import Rivers.Cache.History
import Rivers.Cache.InitialLoad
import Rivers.Lib.Floor

/-! The failure floors that refreshes maintain against those of a fresh load. -/

namespace Rivers

open FiniteMap Fold Floor AssetConditionCache RunRecord StorageSteps Storage

section Outcomes

variable (cache : AssetConditionCache) (storage : Storage) (asset : String) (run : RunRecord)

namespace AssetConditionCache

def FailedOn : Prop :=
  run.isAction = false ∧ run.status = .failure ∧ asset ∈ cache.floorAssets run

def SucceededOn : Prop :=
  run.isAction = false ∧ run.status = .success ∧ asset ∈ cache.floorAssets run

def Fails : Prop :=
  cache.FailedOn asset run ∧ ¬ storage.materializedByRun asset run.runId

def Clears : Prop :=
  cache.SucceededOn asset run ∨ cache.FailedOn asset run ∧ storage.materializedByRun asset run.runId

end AssetConditionCache

end Outcomes

def failedRun (run : RunRecord) : FailedRun :=
  ⟨run.runTs, run.runId, false⟩

theorem lookup_addFailures (run : RunRecord) (assets : List String)
    (adds : HashMap String FailedRun) (asset : String) (found : Option RunRecord)
    (held : adds.lookup asset = found.map failedRun) :
    (assets.foldl (addFailure run) adds).lookup asset =
      if asset ∈ assets then some (failedRun (newer runTs found run))
      else found.map failedRun := by
  induction assets generalizing adds found with
  | nil => simpa using held
  | cons next rest ih =>
    rw [List.foldl_cons]
    by_cases same : asset = next
    · subst same
      have added : (addFailure run adds asset).lookup asset =
          (some (newer runTs found run)).map failedRun := by
        cases found with
        | none => simp [addFailure, held, newer, failedRun]
        | some first => grind [Finmap.lookup_insert, addFailure, failedRun, newer]
      rw [ih _ _ added, newer_newer]
      simp
    · have kept : (addFailure run adds next).lookup asset = found.map failedRun := by
        rw [addFailure, Finmap.lookup_insert_of_ne _ same, held]
      rw [ih _ _ kept]
      simp [same]

theorem lookup_insertMaxes (run : RunRecord) (assets : List String) (removes : HashMap String Int)
    (asset : String) (found : Option RunRecord) (held : removes.lookup asset = found.map runTs) :
    (assets.foldl (fun removes asset => insertMax removes asset run.runTs) removes).lookup asset =
      if asset ∈ assets then some (newer runTs found run).runTs
      else found.map runTs := by
  induction assets generalizing removes found with
  | nil => simpa using held
  | cons next rest ih =>
    rw [List.foldl_cons]
    by_cases same : asset = next
    · grind [Finmap.lookup_insert, time_newer, newer_newer, insertMax]
    · have kept : (insertMax removes next run.runTs).lookup asset = found.map runTs := by
        rw [insertMax, Finmap.lookup_insert_of_ne _ same, held]
      rw [ih _ _ kept]
      simp [same]

theorem optionMax_none (time : Option Int) : optionMax time none = time := by
  cases time <;> rfl

theorem mem_addToSets {runId other asset} {assets : List String}
    {sets : HashMap String (Finset String)}
    (mem : other ∈ getD (assets.foldl (fun sets asset => addToSet sets asset {runId}) sets) asset
      ∅) :
    other ∈ getD sets asset ∅ ∨ other = runId := by
  induction assets generalizing sets with
  | nil => exact .inl mem
  | cons next rest ih => grind [lookup_insert_ite, getD, addToSet]

namespace AssetConditionCache

variable (cache : AssetConditionCache) (reads : RefreshReads)

structure Summarizes (delta : RefreshDelta) : Prop where
  seen : ∀ run ∈ delta.effects, reads.Sees run ∧ run.hasEffects
  failed : ∀ asset, ∃ found, IsNewest runTs (cache.FailedOn asset) delta.effects found ∧
    delta.failedAdds.lookup asset = found.map failedRun
  succeeded : ∀ asset, ∃ found,
    IsNewest runTs (cache.SucceededOn asset) delta.effects found ∧
      delta.failedRemoves.lookup asset = found.map runTs
  vouched : ∀ asset runId, runId ∈ getD delta.materializedOverrides asset ∅ →
    runId ∈ cache.succeededRuns reads asset ∨
      ∃ run ∈ delta.effects, run.status = .success ∧ run.runId = runId

variable {cache reads}

theorem Summarizes.applyRunEffects {delta} (before : cache.Summarizes reads delta) {run : RunRecord}
    (seen : reads.Sees run) :
    cache.Summarizes reads (cache.applyRunEffects run delta) := by
  cases effects : run.hasEffects with
  | false => rwa [cache.applyRunEffects_of_not run delta effects]
  | true =>
    have adds := cache.applyRunEffects_adds run delta effects
    refine ⟨?_, fun asset => ?_, fun asset => ?_, fun asset runId mem => ?_⟩
    · grind [Summarizes, AddsEffects]
    · obtain ⟨found, newest, held⟩ := before.failed asset
      rw [adds.effects, adds.failedAdds]
      by_cases counts : cache.FailedOn asset run
      · refine ⟨_, newest.snoc counts, ?_⟩
        rw [if_pos ⟨counts.1, counts.2.1⟩, lookup_addFailures run _ _ asset found held,
          if_pos counts.2.2, Option.map_some]
      · refine ⟨found, newest.skip counts, ?_⟩
        split
        · rename_i failure
          rw [lookup_addFailures run _ _ asset found held,
            if_neg fun inside => counts ⟨failure.1, failure.2, inside⟩]
        · exact held
    · obtain ⟨found, newest, held⟩ := before.succeeded asset
      rw [adds.effects, adds.failedRemoves]
      by_cases counts : cache.SucceededOn asset run
      · refine ⟨_, newest.snoc counts, ?_⟩
        rw [if_pos ⟨counts.1, counts.2.1⟩, lookup_insertMaxes run _ _ asset found held,
          if_pos counts.2.2, Option.map_some]
      · refine ⟨found, newest.skip counts, ?_⟩
        split
        · rename_i success
          rw [lookup_insertMaxes run _ _ asset found held,
            if_neg fun inside => counts ⟨success.1, success.2, inside⟩]
        · exact held
    · have old : runId ∈ getD delta.materializedOverrides asset ∅ →
          runId ∈ cache.succeededRuns reads asset ∨
            ∃ other ∈ (cache.applyRunEffects run delta).effects,
              other.status = .success ∧ other.runId = runId := by
        grind [Summarizes, AddsEffects]
      rw [adds.materializedOverrides] at mem
      split at mem
      · rename_i success
        rcases mem_addToSets mem with earlier | same
        · exact old earlier
        · grind [AddsEffects]
      · exact old mem

variable (cache reads)

theorem mem_succeededRuns {asset runId} (mem : runId ∈ cache.succeededRuns reads asset) :
    ∃ event ∈ reads.outcomes.events, event.eventType = .stepSuccess ∧ event.assetKey = some asset ∧
      event.runId = runId := by
  simp only [succeededRuns, trackedOutcomes, stepOutcomes, List.mem_toFinset, List.mem_map,
    List.mem_filter, List.mem_filterMap, Bool.and_eq_true, decide_eq_true_eq] at mem
  grind

theorem planRuns_summarizes : cache.Summarizes reads (cache.planRuns reads).delta := by
  refine @planRuns_holds cache reads (cache.Summarizes reads) ?_ ?_ ?_
  · intro left right same before
    exact ⟨same.effects ▸ before.seen, same.effects ▸ same.failedAdds ▸ before.failed,
      same.effects ▸ same.failedRemoves ▸ before.succeeded,
      same.effects ▸ same.materializedOverrides ▸ before.vouched⟩
  · exact fun run delta seen before => before.applyRunEffects seen
  · refine ⟨fun run mem => absurd mem List.not_mem_nil,
      fun asset => ⟨none, isNewest_nil, rfl⟩, fun asset => ⟨none, isNewest_nil, rfl⟩,
      fun asset runId mem => .inl ?_⟩
    grind [lookup_collect, getD, planCompletions]

section Floors

variable (now : Int)

theorem addFloor_eq (ts : Int) (own : Bool) (floor : Option Int) :
    addFloor ts own (floor.isSome, floor) =
      ((add (some (ts, own)) floor).isSome, add (some (ts, own)) floor) := by
  cases own with
  | true =>
    simp only [addFloor, add, if_true]
    split <;> rfl
  | false => rfl

theorem removeFloor_eq (ts : Int) (floor : Option Int) :
    removeFloor ts (floor.isSome, floor) =
      ((remove (some ts) floor).isSome, remove (some ts) floor) := by
  simp only [removeFloor, remove]
  split <;> rfl

def countsBuilt (asset : String) (run : RunRecord) : Bool :=
  reads.built.materializedByRun asset run.runId ||
    (cache.applyRecords (cache.fetchRefreshDelta reads now)).runMaterializedAsset
      (cache.fetchRefreshDelta reads now).materializedOverrides asset run.runId

theorem refresh_floorOf (asset : String) (floor : Option Int)
    (held : cache.floorOf asset = (floor.isSome, floor))
    (undeleted : reads.deletions.assetDeletions = ∅) :
    ∃ failed succ,
      IsNewest runTs (cache.FailedOn asset) (cache.fetchRefreshDelta reads now).effects failed ∧
      IsNewest runTs (cache.SucceededOn asset) (cache.fetchRefreshDelta reads now).effects
        succ ∧
      (cache.refresh reads now).1.floorOf asset =
        let after := remove (succ.map runTs)
          (add (failed.map fun run => (run.runTs, cache.countsBuilt reads now asset run)) floor)
        (after.isSome, after) := by
  obtain ⟨same, -⟩ := cache.fetched_runs reads now
  have summary := cache.planRuns_summarizes reads
  obtain ⟨failed, newestFailed, adds⟩ := summary.failed asset
  obtain ⟨succ, newestSucceeded, removes⟩ := summary.succeeded asset
  have effects : (cache.fetchRefreshDelta reads now).effects =
      (cache.planRuns reads).delta.effects :=
    same.effects
  refine ⟨failed, succ, effects ▸ newestFailed, effects ▸ newestSucceeded, ?_⟩
  have added : (cache.fetchRefreshDelta reads now).failedAdds.lookup asset = failed.map fun run =>
      { failedRun run with materialized := reads.built.materializedByRun asset run.runId } := by
    rw [same.failedAdds]
    refine (lookup_collect_eq _ _ _ fun absent => ?_).trans ?_
    · rw [Finmap.lookup_eq_none.mpr fun inside => absent (Finmap.mem_keys.mpr inside)]
      rfl
    · rw [adds, Option.map_map]
      rfl
  have removed : (cache.fetchRefreshDelta reads now).failedRemoves.lookup asset =
      succ.map runTs := by
    have undated : ∀ actions : Finset String,
        (if asset ∈ actions then reads.deletions.assetDeletions.lookup asset else none) = none := by
      intro actions
      rw [undeleted]
      exact ite_self none
    rw [same.failedRemoves, ← removes]
    refine (lookup_collect_eq _ _ _ fun absent => ?_).trans ?_
    · simp only [Finset.mem_union, not_or, Finmap.mem_keys] at absent
      rw [Finmap.lookup_eq_none.mpr absent.1]
      exact congrArg (optionMax none) (undated _)
    · exact (congrArg (optionMax _) (undated _)).trans (optionMax_none _)
  have floored : (cache.applyRecords (cache.fetchRefreshDelta reads now)).floorOf asset =
      (floor.isSome, floor) := held
  rw [refresh, applyRefreshDelta_floorOf, floorAfter, added, removed, floored]
  cases failed with
  | none =>
    cases succ with
    | none => rfl
    | some last => exact removeFloor_eq last.runTs floor
  | some newest =>
    have taken := addFloor_eq newest.runTs (cache.countsBuilt reads now asset newest) floor
    cases succ with
    | none => exact taken
    | some last =>
      exact (congrArg (removeFloor last.runTs) taken).trans (removeFloor_eq last.runTs _)

end Floors

end AssetConditionCache

theorem RunRecord.terminal_of_effects {run : RunRecord} (effects : run.hasEffects) :
    run.isTerminal := by
  unfold hasEffects at effects
  split at effects
  · exact effects
  · grind [isTerminal, RunStatus.isTerminal]

section Refresh

variable {cache : AssetConditionCache} {reads : RefreshReads} {before after final : Storage}
  (wellFormed : before.WellFormed) (between : reads.Between before after)
  (later : StorageSteps after final) {now : Int}

include wellFormed between later

theorem applied_final {run : RunRecord} (mem : run ∈ (cache.fetchRefreshDelta reads now).effects) :
    run ∈ final.runs ∧ ∀ asset, reads.built.materializedByRun asset run.runId ↔
      final.materializedByRun asset run.runId := by
  rw [(cache.fetched_runs reads now).1.effects] at mem
  obtain ⟨seen, effects⟩ := (cache.planRuns_summarizes reads).seen run mem
  have term := run.terminal_of_effects effects
  have sound : ∀ storage, StorageSteps before storage → StorageSteps storage reads.built →
      run ∈ storage.runs → run ∈ final.runs ∧ ∀ asset,
        reads.built.materializedByRun asset run.runId ↔
        final.materializedByRun asset run.runId := by
    intro storage earlier toBuilt inside
    obtain ⟨isWellFormed, -⟩ := earlier.precedes wellFormed
    obtain ⟨builtWellFormed, order⟩ := toBuilt.precedes isWellFormed
    obtain ⟨-, last⟩ := precedes (between.built_after.trans later) builtWellFormed
    have atBuilt := order.terminal run inside term
    exact ⟨last.terminal run atBuilt term,
      fun asset => ⟨last.materialized, last.built run atBuilt term asset⟩⟩
  have tracked := between.before_trackedRuns
  rcases seen with new | tracking | done | watched
  · exact sound _ between.newRuns (between.newRuns_trackedRuns.trans between.trackedRuns_built) new
  · exact sound _ tracked between.trackedRuns_built tracking
  · exact sound _ (tracked.trans between.completedRuns)
      (between.watchedRuns.trans between.built) done
  · exact sound _ (tracked.trans (between.completedRuns.trans between.watchedRuns))
      between.built watched

end Refresh

def AssetConditionCache.RecordsBuilt (cache : AssetConditionCache) (storage : Storage) : Prop :=
  ∀ asset record runId, cache.records.lookup asset = some record → record.lastRunId = some runId →
    storage.materializedByRun asset runId

section Refresh

variable {cache : AssetConditionCache} {reads : RefreshReads} {before after final : Storage}
  (wellFormed : before.WellFormed) (between : reads.Between before after)
  (later : StorageSteps after final) (built : cache.RecordsBuilt final) (now : Int)

include wellFormed between later built

theorem refresh_recordsBuilt : (cache.refresh reads now).1.RecordsBuilt final := by
  intro asset record runId found named
  rw [refresh, applyRefreshDelta_records, lookup_extend,
    Option.or_eq_some_iff] at found
  have sound : ∀ storage, StorageSteps before storage → StorageSteps storage after →
      storage.records.lookup asset = some record → final.materializedByRun asset runId := by
    intro storage earlier toAfter held
    obtain ⟨isWellFormed, -⟩ := earlier.precedes wellFormed
    obtain ⟨-, last⟩ := precedes (toAfter.trans later) isWellFormed
    exact last.materialized (isWellFormed.recorded asset record runId held named)
  rcases found with fetched | ⟨-, kept⟩
  · have toObserved := between.backfills.trans (between.observations.trans between.observedRecords)
    rcases cache.fetched_record reads now fetched with observed | invalidated | ⟨fresh, -⟩
    · exact sound _ (between.before_invalidatedRecords.trans toObserved) between.after observed
    · exact sound _ between.before_invalidatedRecords between.invalidatedRecords_after invalidated
    · refine sound _ (between.newRuns.trans between.freshRecords) ?_ fresh
      exact between.outcomes.trans <| between.trackedRuns.trans <| between.trackedRuns_built.trans
        between.built_after
  · exact built asset record runId kept named

theorem countsBuilt_iff (unobserved : ∀ asset, final.observed asset = false) {asset run}
    (mem : run ∈ (cache.fetchRefreshDelta reads now).effects) (failed : cache.FailedOn asset run) :
    cache.countsBuilt reads now asset run ↔ final.materializedByRun asset run.runId := by
  obtain ⟨inFinal, atBuilt⟩ := applied_final wellFormed between later mem
  obtain ⟨finalWellFormed, -⟩ := precedes (between.through.trans later) wellFormed
  constructor
  · intro counts
    simp only [countsBuilt, runMaterializedAsset,
      Bool.or_eq_true, decide_eq_true_eq] at counts
    rcases counts with seen | named | vouched
    · exact (atBuilt asset).mp seen
    · obtain ⟨record, found, byRun⟩ := Option.bind_eq_some_iff.mp named
      have kept := refresh_recordsBuilt wellFormed between later built now asset record
        run.runId ?_ byRun
      · exact kept
      · rw [refresh, applyRefreshDelta_records]
        exact found
    · rw [(cache.fetched_runs reads now).1.materializedOverrides] at vouched
      rcases (cache.planRuns_summarizes reads).vouched asset run.runId vouched with
        stepped | ⟨other, otherMem, success, sameId⟩
      · obtain ⟨event, stored, kind, onAsset, byRun⟩ := cache.mem_succeededRuns reads stepped
        obtain ⟨outcomesWellFormed, -⟩ := precedes
          (between.newRuns.trans (between.freshRecords.trans between.outcomes)) wellFormed
        obtain ⟨-, last⟩ := precedes (between.trackedRuns.trans
          (between.trackedRuns_built.trans (between.built_after.trans later))) outcomesWellFormed
        rcases outcomesWellFormed.succeeded event stored kind asset onAsset with
          ⟨action, isIdentity, sameId, isAction⟩ | materialized | observed
        · have same := finalWellFormed.eq_of_identity (last.identities.subset isIdentity)
            (mem_identities inFinal) (sameId.trans byRun)
          rw [same] at isAction
          exact absurd isAction (by simpa [RunRecord.identity, RunRecord.isAction] using failed.1)
        · exact byRun ▸ last.materialized materialized
        · have := last.unobserved (unobserved asset)
          simp [this] at observed
      · have applied : other ∈ (cache.fetchRefreshDelta reads now).effects := by
          rw [(cache.fetched_runs reads now).1.effects]
          exact otherMem
        have otherFinal := (applied_final wellFormed between later applied).1
        rw [finalWellFormed.eq_of_runId otherFinal inFinal sameId, failed.2.1] at success
        cases success
  · grind [countsBuilt]

end Refresh

def FloorsFollow (blank : AssetConditionCache) (storage : Storage) (delivered : List RunRecord)
    (cache : AssetConditionCache) : Prop :=
  ∀ asset, ∃ floor, cache.floorOf asset = (floor.isSome, floor) ∧
    IsFloor runTs (blank.Fails storage asset) (blank.Clears storage asset) delivered floor

def LaterIsNewer (blank : AssetConditionCache) (storage : Storage)
    (earlier later : List RunRecord) :
    Prop :=
  ∀ asset, ∀ clear ∈ earlier, blank.Clears storage asset clear →
    ∀ failed ∈ later, blank.Fails storage asset failed → clear.runTs < failed.runTs

/-- Of the failed runs in a batch, one that materialized the asset and one that did not never end at
the same time. -/
def FailuresApart (blank : AssetConditionCache) (storage : Storage) (batch : List RunRecord) :
    Prop :=
  ∀ asset, ∀ failed ∈ batch, blank.Fails storage asset failed →
    ∀ other ∈ batch, blank.FailedOn asset other → storage.materializedByRun asset other.runId →
      other.runTs ≠ failed.runTs

theorem AssetConditionCache.floorAssets_congr {cache blank : AssetConditionCache}
    (same : cache.partitionedAssetKeys = blank.partitionedAssetKeys) :
    cache.floorAssets = blank.floorAssets := by
  funext run
  simp only [floorAssets, isPartitioned, same]

theorem FloorsFollow.refresh {blank cache reads before after final earlier}
    (follow : FloorsFollow blank final earlier cache)
    (same : cache.partitionedAssetKeys = blank.partitionedAssetKeys)
    (wellFormed : before.WellFormed) (between : reads.Between before after)
    (later : StorageSteps after final) (built : cache.RecordsBuilt final)
    (unobserved : ∀ asset, final.observed asset = false) (now : Int)
    (newer : LaterIsNewer blank final earlier (cache.fetchRefreshDelta reads now).effects)
    (apart : FailuresApart blank final (cache.fetchRefreshDelta reads now).effects) :
    FloorsFollow blank final (earlier ++ (cache.fetchRefreshDelta reads now).effects)
      (cache.refresh reads now).1 := by
  intro asset
  obtain ⟨floor, held, isFloor⟩ := follow asset
  have undeleted : reads.deletions.assetDeletions = ∅ :=
    (precedes (between.before_trackedRuns.trans
      (between.trackedRuns_built.trans between.deletions)) wellFormed).1.kept
  obtain ⟨failed, succ, newestFailed, newestSucceeded, floored⟩ :=
    cache.refresh_floorOf reads now asset floor held undeleted
  refine ⟨_, floored, ?_⟩
  have failedOn : cache.FailedOn asset = blank.FailedOn asset := by
    funext run
    simp only [AssetConditionCache.FailedOn, floorAssets_congr same]
  have succeededOn : cache.SucceededOn asset = blank.SucceededOn asset := by
    funext run
    simp only [AssetConditionCache.SucceededOn, floorAssets_congr same]
  have flagged : ∀ run ∈ failed, cache.countsBuilt reads now asset run ↔
      final.materializedByRun asset run.runId := by
    rintro run rfl
    exact countsBuilt_iff wellFormed between later built now unobserved newestFailed.1
      newestFailed.2.1
  rw [failedOn] at newestFailed
  rw [succeededOn] at newestSucceeded
  exact isFloor.append (fun run => Iff.rfl) (fun run => Iff.rfl)
    (fun failed mem fails clear inside clears => newer asset clear inside clears failed mem fails)
    (apart asset) flagged newestFailed newestSucceeded

theorem lookup_insertMaxAll {α : Type} [DecidableEq α] (key : α) (ents : List (α × Int)) :
    ∃ found, IsNewest Prod.snd (fun entry => entry.1 = key) ents found ∧
      (insertMaxAll (∅ : HashMap α Int) ents).lookup key = found.map Prod.snd := by
  induction ents using List.reverseRecOn with
  | nil => exact ⟨none, isNewest_nil, rfl⟩
  | append_singleton ents entry ih =>
    obtain ⟨found, newest, held⟩ := ih
    simp only [insertMaxAll, List.foldl_append, List.foldl_cons, List.foldl_nil] at held ⊢
    by_cases same : entry.1 = key
    · refine ⟨_, newest.snoc same, ?_⟩
      rw [insertMax, same, Finmap.lookup_insert, held, Option.map_some, time_newer Prod.snd]
    · grind [IsNewest.skip, Finmap.lookup_insert_of_ne, insertMax]

namespace AssetConditionCache

section Load

variable (cache : AssetConditionCache) (storage : Storage)

def RecordedSince (storage : Storage) (asset : String) (time : Int) : Prop :=
  ∃ recorded, (storage.records.lookup asset).bind (·.lastTimestamp) = some recorded ∧
    time ≤ recorded

/-- A failed run is outranked by the recorded materialization exactly if a run that clears the asset
ended as late. -/
def RecordedInOrder : Prop :=
  ∀ asset, ∀ failed ∈ storage.runs, cache.Fails storage asset failed →
    (RecordedSince storage asset failed.runTs ↔
      ∃ clear ∈ storage.runs, cache.Clears storage asset clear ∧ failed.runTs ≤ clear.runTs)

theorem not_recordedSince {asset time} :
    ¬ RecordedSince storage asset time ↔
      ((storage.records.lookup asset).bind (·.lastTimestamp)).all (· < time) := by
  unfold RecordedSince
  cases (storage.records.lookup asset).bind (·.lastTimestamp) <;> simp

theorem mem_loadedFloors (wellFormed : storage.WellFormed)
    (recorded : cache.records = storage.records) (asset : String) (time : Int) :
    (asset, time) ∈ cache.loadedFloors (.at storage) ↔
      ∃ run ∈ storage.runs, cache.Fails storage asset run ∧
        ¬ RecordedSince storage asset run.runTs ∧
        run.runTs = time := by
  simp only [loadedFloors, runsWithStatus, LoadReads.at, List.mem_flatMap, List.mem_filter,
    mem_getRunsSince, recorded, wellFormed.kept, not_recordedSince, Finmap.lookup_empty,
    Option.all_none, Bool.and_true, decide_eq_true_eq]
  constructor
  · grind [Fails, FailedOn]
  · rintro ⟨run, mem, ⟨⟨action, status, onFloor⟩, unbuilt⟩, older, same⟩
    refine ⟨run, ⟨⟨mem, wellFormed.starts run.identity (mem_identities mem)⟩, status⟩, ?_⟩
    have unnamed : (storage.records.lookup asset).bind (·.lastRunId) ≠ some run.runId := by
      grind [Option.bind_eq_some_iff, Storage.WellFormed.recorded]
    grind

theorem loadFloors_follow (wellFormed : storage.WellFormed)
    (recorded : cache.records = storage.records) (unfailed : cache.failedAssets = ∅)
    (untimed : cache.failedAssetTimestamps = ∅) (inOrder : cache.RecordedInOrder storage) :
    FloorsFollow cache storage storage.runs (cache.loadFloors (.at storage)) := by
  intro asset
  obtain ⟨found, newest, held⟩ := lookup_insertMaxAll asset (cache.loadedFloors (.at storage))
  have entry := cache.mem_loadedFloors storage wellFormed recorded asset
  have kept : (cache.loadFloors (.at storage)).failedAssetTimestamps.lookup asset =
    found.map Prod.snd := by
    simp only [loadFloors, untimed, lookup_retain, held, recorded]
    cases found with
    | none => rfl
    | some last => grind [IsNewest, loadedFloors]
  refine ⟨found.map Prod.snd, Prod.ext ?_ kept, ?_⟩
  · have listed : asset ∈ (cache.loadFloors (.at storage)).failedAssets ↔
        asset ∈ (cache.loadFloors (.at storage)).failedAssetTimestamps := by
      refine ⟨fun inside => (Finset.mem_filter.mp inside).2, fun inside => ?_⟩
      refine Finset.mem_filter.mpr ⟨?_, inside⟩
      obtain ⟨time, atTime⟩ := Finmap.mem_iff.mp inside
      obtain ⟨last, rfl, -⟩ := Option.map_eq_some_iff.mp (kept.symm.trans atTime)
      rw [← newest.2.1]
      simp only [unfailed, Finset.empty_union, List.mem_toFinset, List.mem_map]
      exact ⟨last, newest.1, rfl⟩
    simp only [floorOf, listed, ← kept, ← Finmap.lookup_isSome, Bool.decide_eq_true]
  · cases found with
    | none =>
      intro failed mem fails
      have outranked : RecordedSince storage asset failed.runTs := by
        by_contra newer
        exact newest _ ((entry _).mpr ⟨failed, mem, fails, newer, rfl⟩) rfl
      exact (inOrder asset failed mem fails).mp outranked
    | some last =>
      obtain ⟨name, time⟩ := last
      obtain ⟨inside, rfl, bound⟩ := newest
      obtain ⟨run, mem, fails, newer, rfl⟩ := (entry time).mp inside
      refine ⟨⟨run, mem, fails, rfl⟩, fun failed failedMember failedFails => ?_,
        fun clear clearMember clears => ?_⟩
      · by_cases outranked : RecordedSince storage name failed.runTs
        · grind [RecordedInOrder]
        · exact bound _ ((entry _).mpr ⟨failed, failedMember, failedFails, outranked, rfl⟩) rfl
      · grind [RecordedInOrder]

theorem initialLoad_follow (wellFormed : storage.WellFormed) (unfailed : cache.failedAssets = ∅)
    (untimed : cache.failedAssetTimestamps = ∅) (inOrder : cache.RecordedInOrder storage) :
    FloorsFollow cache storage storage.runs (cache.initialLoad (.at storage)) := by
  obtain ⟨records, noFailed, noTimes, parted⟩ := cache.loadedBase_eq (.at storage)
  have sameFloors := floorAssets_congr parted
  have sameFails : (cache.loadedBase (.at storage)).Fails = cache.Fails := by
    funext storage asset run
    simp only [Fails, FailedOn, sameFloors]
  have sameClears : (cache.loadedBase (.at storage)).Clears = cache.Clears := by
    funext storage asset run
    simp only [Clears, SucceededOn, FailedOn, sameFloors]
  have follow := (cache.loadedBase (.at storage)).loadFloors_follow storage wellFormed records
    (noFailed.trans unfailed)
    (noTimes.trans untimed) (by simpa only [RecordedInOrder, sameFails, sameClears] using inOrder)
  intro asset
  rw [initialLoad_floorOf, ← sameFails, ← sameClears]
  exact follow asset

end Load

end AssetConditionCache

def Storage.settledRuns (storage : Storage) : List RunRecord :=
  storage.runs.filter (·.hasEffects)

section Delivery

variable {blank : AssetConditionCache} {earlier later : Storage} {asset : String} {run : RunRecord}

theorem AssetConditionCache.FailedOn.hasEffects (failed : blank.FailedOn asset run) :
    run.hasEffects := by
  simp [RunRecord.hasEffects, failed.1, failed.2.1]

theorem AssetConditionCache.Clears.hasEffects (clears : blank.Clears earlier asset run) :
    run.hasEffects := by
  rcases clears with succeeded | failed
  · simp [RunRecord.hasEffects, succeeded.1, succeeded.2.1]
  · exact failed.1.hasEffects

theorem isFloor_of_delivered {runs delivered floor}
    (isFloor : IsFloor runTs (blank.Fails earlier asset) (blank.Clears earlier asset) runs floor)
    (same : ∀ run, run.hasEffects → (run ∈ delivered ↔ run ∈ runs))
    (built : ∀ run ∈ runs, run.hasEffects → (later.materializedByRun asset run.runId ↔
      earlier.materializedByRun asset run.runId)) :
    IsFloor runTs (blank.Fails later asset) (blank.Clears later asset) delivered floor := by
  refine isFloor.congr (fun run => ?_) (fun run => ?_)
  · constructor
    · rintro ⟨mem, failed, unbuilt⟩
      have inside := (same run failed.hasEffects).mp mem
      exact ⟨inside, failed, fun old => unbuilt ((built run inside failed.hasEffects).mpr old)⟩
    · rintro ⟨inside, failed, unbuilt⟩
      exact ⟨(same run failed.hasEffects).mpr inside, failed,
        fun now => unbuilt ((built run inside failed.hasEffects).mp now)⟩
  · constructor
    · rintro ⟨mem, clears⟩
      have inside := (same run clears.hasEffects).mp mem
      refine ⟨inside, clears.imp_right fun failed => ⟨failed.1, ?_⟩⟩
      exact (built run inside failed.1.hasEffects).mp failed.2
    · rintro ⟨inside, clears⟩
      refine ⟨(same run clears.hasEffects).mpr inside,
        clears.imp_right fun failed => ⟨failed.1, ?_⟩⟩
      exact (built run inside failed.1.hasEffects).mpr failed.2

end Delivery

structure FloorsInOrder (blank : AssetConditionCache) (first final : Storage)
    (batches : List (List RunRecord)) : Prop where
  newer : (first.settledRuns :: batches).Pairwise (LaterIsNewer blank final)
  apart : ∀ batch ∈ batches, FailuresApart blank final batch
  loaded : blank.RecordedInOrder first
  recorded : blank.RecordedInOrder final

section Run

variable {blank loaded cache : AssetConditionCache} {ok : AssetConditionCache → RefreshReads → Prop}
  {start first begun now final : Storage} {batches : List (List RunRecord)}

theorem History.wellFormed (hist : History loaded ok start first begun now cache batches)
    (grown : StorageSteps {} first) : now.WellFormed := by
  induction hist with
  | load => exact (grown.precedes wellFormed_empty).1
  | commit _ step ih => exact step.wellFormed ih
  | refresh _ reads between _ _ ih => exact (between.through.precedes ih).1

theorem History.floorsFollow
    (hist : History (blank.initialLoad (.at first)) ok start first begun now cache batches)
    (grown : StorageSteps {} first) (unfailed : blank.failedAssets = ∅)
    (untimed : blank.failedAssetTimestamps = ∅) (loaded : blank.RecordedInOrder first)
    (steps : StorageSteps now final) (unobserved : ∀ asset, final.observed asset = false)
    (newer : (first.settledRuns :: batches).Pairwise (LaterIsNewer blank final))
    (apart : ∀ batch ∈ batches, FailuresApart blank final batch) :
    cache.partitionedAssetKeys = blank.partitionedAssetKeys ∧ cache.RecordsBuilt final ∧
      (∀ run ∈ first.settledRuns ++ batches.flatten, run ∈ final.runs) ∧
      FloorsFollow blank final (first.settledRuns ++ batches.flatten) cache := by
  induction hist with
  | load =>
    have wellFormed := (grown.precedes wellFormed_empty).1
    have last := (steps.precedes wellFormed).2
    refine ⟨blank.initialLoad_partitionedAssetKeys _, ?_, ?_, ?_⟩
    · intro asset record runId found named
      rw [blank.initialLoad_records] at found
      exact last.materialized (wellFormed.recorded asset record runId found named)
    · intro run mem
      have settled : run ∈ first.settledRuns := by simpa using mem
      obtain ⟨inside, effects⟩ := List.mem_filter.mp settled
      exact last.terminal run inside (run.terminal_of_effects effects)
    · intro asset
      obtain ⟨floor, held, isFloor⟩ :=
        blank.initialLoad_follow first wellFormed unfailed untimed loaded asset
      refine ⟨floor, held, isFloor_of_delivered isFloor (fun run effects => ?_) ?_⟩
      · simp [settledRuns, effects]
      · intro run mem effects
        exact ⟨last.built run mem (run.terminal_of_effects effects) asset, last.materialized⟩
  | commit _ step ih => exact ih (.head step steps) newer apart
  | @refresh begun before after cache batches hist reads between meets time ih =>
    rw [← List.cons_append] at newer
    obtain ⟨earlierNewer, -, ordered⟩ := List.pairwise_append.mp newer
    obtain ⟨parted, built, known, follow⟩ := ih (between.through.trans steps) earlierNewer
      fun batch mem => apart batch (List.mem_append_left _ mem)
    have wellFormed := hist.wellFormed grown
    have last : (cache.fetchRefreshDelta reads time).effects ∈
        batches ++ [(cache.fetchRefreshDelta reads time).effects] :=
      List.mem_append_right _ (List.mem_singleton_self _)
    have flat : first.settledRuns ++
        (batches ++ [(cache.fetchRefreshDelta reads time).effects]).flatten =
        (first.settledRuns ++ batches.flatten) ++ (cache.fetchRefreshDelta reads time).effects := by
      simp
    rw [flat]
    refine ⟨?_, refresh_recordsBuilt wellFormed between steps built time, ?_, ?_⟩
    · rw [AssetConditionCache.refresh, AssetConditionCache.applyRefreshDelta_partitionedAssetKeys,
        parted]
    · grind [applied_final]
    · refine follow.refresh parted wellFormed between steps built unobserved time ?_
        (apart _ last)
      intro asset clear mem clears failed inside fails
      have source : ∃ batch ∈ first.settledRuns :: batches, clear ∈ batch := by simp_all
      obtain ⟨batch, among, within⟩ := source
      exact ordered batch among _ (List.mem_singleton_self _) asset clear within clears
        failed inside
        fails

/-- Refreshes that deliver a history in order leave the floors that a fresh load finds. -/
theorem refreshed_floors_eq_loaded (partitioned : Finset String) (needsTickTags : Bool)
    (grown : StorageSteps {} first)
    (history : History ((fresh partitioned needsTickTags).initialLoad (.at first)) ok first
      first begun now
      cache batches)
    (unobserved : ∀ asset, now.observed asset = false)
    (delivered : ∀ run ∈ now.runs, run.hasEffects → run ∈ first.settledRuns ++ batches.flatten)
    (inOrder : FloorsInOrder (.fresh partitioned needsTickTags) first now batches) :
    cache.failedAssets =
        ((AssetConditionCache.fresh partitioned needsTickTags).initialLoad (.at now)).failedAssets ∧
      cache.failedAssetTimestamps =
        ((AssetConditionCache.fresh partitioned needsTickTags).initialLoad
          (.at now)).failedAssetTimestamps := by
  have wellFormed := history.wellFormed grown
  obtain ⟨-, -, known, follow⟩ := history.floorsFollow grown rfl rfl inOrder.loaded .refl unobserved
    inOrder.newer inOrder.apart
  have load := initialLoad_follow _ now wellFormed rfl rfl inOrder.recorded
  have floors : ∀ asset, cache.floorOf asset =
      ((fresh partitioned needsTickTags).initialLoad (.at now)).floorOf asset := by
    intro asset
    obtain ⟨left, leftHeld, leftFloor⟩ := follow asset
    obtain ⟨right, rightHeld, rightFloor⟩ := load asset
    have same : left = right := by
      refine leftFloor.unique (isFloor_of_delivered rightFloor (fun run hasEffects => ?_) ?_)
      · exact ⟨known run, fun member => delivered run member hasEffects⟩
      · exact fun _ _ _ => Iff.rfl
    rw [leftHeld, rightHeld, same]
  refine ⟨Finset.ext fun asset => ?_,
    Finmap.ext_lookup fun asset => (Prod.ext_iff.mp (floors asset)).2⟩
  exact decide_eq_decide.mp (Prod.ext_iff.mp (floors asset)).1

end Run

section Examples

def failedOnce : Storage where
  runs := [{ runId := "failed", nodeNames := ["asset"], status := .failure, startTime := 2, endTime := some 5 }]

def loadedEmpty : AssetConditionCache :=
  (fresh ∅ false).initialLoad (.at {})

theorem refreshed_floors_eq_loaded_failed :
    (loadedEmpty.refresh (.at failedOnce) 0).1.failedAssets =
        ((AssetConditionCache.fresh ∅ false).initialLoad (.at failedOnce)).failedAssets ∧
      (loadedEmpty.refresh (.at failedOnce) 0).1.failedAssetTimestamps =
        ((AssetConditionCache.fresh ∅ false).initialLoad (.at failedOnce)).failedAssetTimestamps := by
  have submitted : StorageStep {} failedOnce := .submit _ (by simp) (by decide)
  have loaded : History loadedEmpty (fun _ _ => True) {} {} {} {} loadedEmpty [] := .load
  have history := (loaded.commit submitted).refresh (.at failedOnce)
    (RefreshReads.between_at failedOnce)
    trivial 0
  have effects : (loadedEmpty.fetchRefreshDelta (.at failedOnce) 0).effects = failedOnce.runs := by
    decide
  have unbuilt : ∀ asset runId, failedOnce.materializedByRun asset runId = false := fun _ _ => rfl
  have quiet : ∀ asset clear, clear ∈ failedOnce.runs →
      ¬ (fresh ∅ false).Clears failedOnce asset clear := by
    grind [failedOnce, AssetConditionCache.Clears, AssetConditionCache.SucceededOn]
  refine refreshed_floors_eq_loaded ∅ false .refl history (fun _ => rfl) ?_ ⟨?_, ?_, ?_, ?_⟩
  · simp_all
  · simp [LaterIsNewer, settledRuns]
  · intro batch _ asset failed _ _ other _ _ built
    simp [unbuilt] at built
  · intro asset failed member
    exact absurd member List.not_mem_nil
  · intro asset failed member _
    constructor
    · rintro ⟨recorded, found, -⟩
      simp [failedOnce] at found
    simp_all

def overlapping : Storage where
  runs :=
    [{ runId := "built", nodeNames := ["asset"], status := .success, startTime := 1, endTime := some 10 },
      { runId := "failed", nodeNames := ["asset"], status := .failure, startTime := 2,
        endTime := some 5 }]
  records := (∅ : HashMap String AssetRecord).insert "asset" { assetKey := "asset" }
    |>.insert "asset"
    { assetKey := "asset", lastRunId := some "built", lastTimestamp := some 3 }
  events := [⟨.materialization, some "asset", "built", 3, none⟩]

theorem overlapping_grown : StorageSteps {} overlapping := by
  refine .head (.submit
    { runId := "built", nodeNames := ["asset"], status := .started, startTime := 1 } (by simp)
      (by decide)) ?_
  refine .head (.register "asset" { assetKey := "asset" } rfl rfl) ?_
  refine .head (.emit ⟨.materialization, some "asset", "built", 3, none⟩ _
    (List.mem_singleton_self _) rfl
    rfl (by simp) (by simp)) ?_
  refine .head (.recordMaterialization _ (List.mem_singleton_self _) rfl "asset" rfl _
    (List.mem_singleton_self _) rfl rfl { assetKey := "asset" } (by decide) rfl none none) ?_
  refine .head (.submit
    { runId := "failed", nodeNames := ["asset"], status := .failure, startTime := 2, endTime := some 5 }
    (by simp) (by decide)) ?_
  refine .head (.advance
    { runId := "built", nodeNames := ["asset"], status := .started, startTime := 1 }
    (List.mem_cons_self ..) rfl .success (some 10)) ?_
  exact .refl

/-- The end of the successful run clears the failure, but its recorded materialization does not. -/
theorem refreshed_floors_ne_loaded :
    ∃ begun cache batches,
      History ((fresh ∅ false).initialLoad (.at {})) (fun _ _ => True) {} {} begun overlapping
        cache batches ∧
        (∀ asset, overlapping.observed asset = false) ∧
        (∀ run ∈ overlapping.runs, run.hasEffects → run ∈ batches.flatten) ∧
        cache.failedAssets = ∅ ∧
        ((AssetConditionCache.fresh ∅ false).initialLoad (.at overlapping)).failedAssets = {"asset"} := by
  have loaded : History loadedEmpty (fun _ _ => True) {} {} {} {} loadedEmpty [] := .load
  refine ⟨_, _, _, (loaded.commits overlapping_grown).refresh (.at overlapping)
    (RefreshReads.between_at overlapping) trivial 0, fun _ => rfl, ?_, ?_, ?_⟩
  · decide
  · decide
  · decide

end Examples

end Rivers
