import Rivers.Cache.RefreshCore
import Rivers.Lib.Fold

/-! The plan phase of a refresh up to its run effects. -/

namespace Rivers

open FiniteMap Fold Storage

structure RefreshDelta.SameEffects (left right : RefreshDelta) : Prop where
  effects : left.effects = right.effects
  failedAdds : left.failedAdds = right.failedAdds
  failedRemoves : left.failedRemoves = right.failedRemoves
  materializedOverrides : left.materializedOverrides = right.materializedOverrides
  partitionStatus : left.partitionStatus = right.partitionStatus
  recordUpdates : left.recordUpdates = right.recordUpdates

def RefreshReads.Sees (reads : RefreshReads) (run : RunRecord) : Prop :=
  run ∈ reads.newRuns.runs ∨ run ∈ reads.trackedRuns.runs ∨ run ∈ reads.completedRuns.runs ∨
    run ∈ reads.watchedRuns.runs

namespace Storage

variable {storage : Storage} {run : RunRecord}

theorem mem_getRunsSince {since} :
    run ∈ storage.getRunsSince since ↔ run ∈ storage.runs ∧ since < run.startTime := by
  simp [getRunsSince]

theorem mem_getRunsByIds {ids} :
    run ∈ storage.getRunsByIds ids ↔ run ∈ storage.runs ∧ run.runId ∈ ids := by
  simp [getRunsByIds]

end Storage

namespace AssetConditionCache

variable (cache : AssetConditionCache) (reads : RefreshReads)

section RunEffects

variable (run : RunRecord) (delta : RefreshDelta)

structure AddsEffects (after : RefreshDelta) : Prop where
  effects : after.effects = delta.effects ++ [run]
  appliedRuns : after.appliedRuns = delta.appliedRuns ++ [(run.runId, run.startTime)]
  inProgressChanges : after.inProgressChanges = delta.inProgressChanges
  trackActionRuns : after.trackActionRuns = delta.trackActionRuns
  untrackActionRuns : after.untrackActionRuns = delta.untrackActionRuns
  partitionStatus : after.partitionStatus = delta.partitionStatus
  recordUpdates : after.recordUpdates = delta.recordUpdates
  confirmedPending : after.confirmedPending = delta.confirmedPending
  failedAdds : after.failedAdds =
    if run.isAction = false ∧ run.status = .failure then
      (cache.floorAssets run).foldl (addFailure run) delta.failedAdds
    else delta.failedAdds
  failedRemoves : after.failedRemoves =
    if run.isAction = false ∧ run.status = .success then
      (cache.floorAssets run).foldl (fun removes asset => insertMax removes asset run.runTs)
        delta.failedRemoves
    else delta.failedRemoves
  materializedOverrides : after.materializedOverrides =
    if run.isAction = false ∧ run.status = .success then
      run.nodeNames.foldl (fun overrides asset => addToSet overrides asset {run.runId})
        delta.materializedOverrides
    else delta.materializedOverrides

theorem applyRunEffects_adds (hasEffects : run.hasEffects) :
    cache.AddsEffects run delta (cache.applyRunEffects run delta) := by
  unfold applyRunEffects
  rw [if_neg (by simp [hasEffects])]
  dsimp only
  cases action : run.isAction with
  | true =>
    rw [if_pos rfl]
    unfold queueActionPartitionChecks
    cases run.partitionKey <;>
      exact ⟨rfl, rfl, rfl, rfl, rfl, rfl, rfl, rfl, by simp [action]; rfl, by simp [action]; rfl,
        by simp [action]; rfl⟩
  | false =>
    rw [if_neg Bool.false_ne_true]
    by_cases failure : run.status = .failure
    · grind [AddsEffects, queueLastRunUpdates, RefreshDelta.markApplied]
    · grind [RunRecord.hasEffects, AddsEffects, queueLastRunUpdates, RefreshDelta.markApplied]

theorem applyRunEffects_of_not (none : run.hasEffects = false) :
    cache.applyRunEffects run delta = delta := by
  simp [applyRunEffects, none]

end RunEffects

def planRuns : RefreshPlan :=
  cache.planNewRuns reads <| cache.planActionRuns reads <| cache.planInProgress reads <|
    cache.startPlan reads

def planBeforeFetch : RefreshPlan :=
  cache.planDeletions reads <| planBuilt reads <| cache.planRuns reads

section Induction

variable {holds : RefreshDelta → Prop}
  (same : ∀ left right, RefreshDelta.SameEffects left right → holds left → holds right)
  (effects : ∀ run delta, reads.Sees run → holds delta → holds (cache.applyRunEffects run delta))

include same effects

theorem planInProgress_holds (plan : RefreshPlan)
    (start : holds (cache.planCompletions reads plan).delta) :
    holds (cache.planInProgress reads plan).delta := by
  have done : ∀ plan run, reads.Sees run → holds plan.delta →
      holds (cache.completeRun plan run).delta := by
    intro plan run seen pre
    unfold completeRun
    split
    · exact pre
    · exact effects run _ seen pre
  have swept : ∀ plan run, reads.Sees run → holds plan.delta →
      holds (cache.sweepRun reads plan run).delta := by
    intro plan run seen pre
    have booked := same plan.delta ((plan.delta.markApplied run).clearRun run)
      ⟨rfl, rfl, rfl, rfl, rfl, rfl⟩ pre
    unfold sweepRun
    split
    · exact pre
    · dsimp only
      split
      · exact booked
      · exact effects run _ seen booked
  have vanished : ∀ plan, holds plan.delta → holds (cache.planVanished reads plan).delta := by
    grind [planVanished, RefreshDelta.SameEffects]
  exact foldl_invariant (fun plan : RefreshPlan => holds plan.delta) _ _
    (fun plan run mem => done plan run (.inr (.inr (.inl (mem_getRunsByIds.mp mem).1))))
    _ (vanished _ (foldl_invariant (fun plan : RefreshPlan => holds plan.delta) _ _
      (fun plan run mem => swept plan run (.inr (.inl (mem_getRunsByIds.mp mem).1)))
      _ start))

theorem planActionRuns_holds (plan : RefreshPlan) (start : holds plan.delta) :
    holds (cache.planActionRuns reads plan).delta := by
  have watched : ∀ plan run, reads.Sees run → holds plan.delta →
      holds (cache.watchRun reads plan run).delta := by
    intro plan run seen pre
    have booked := fun delta => same plan.delta delta
    unfold watchRun
    split
    · exact pre
    · dsimp only
      split
      · exact booked _ ⟨rfl, rfl, rfl, rfl, rfl, rfl⟩ pre
      · exact effects run _ seen (booked _ ⟨rfl, rfl, rfl, rfl, rfl, rfl⟩ pre)
  have swept := foldl_invariant (fun plan : RefreshPlan => holds plan.delta) (cache.watchRun reads)
    (cache.watchedRuns reads) (fun plan run mem =>
      watched plan run (.inr (.inr (.inr (mem_getRunsByIds.mp mem).1)))) plan start
  unfold planActionRuns planVanishedActions
  split
  · exact same _ _ ⟨by rfl, by rfl, by rfl, by rfl, by rfl, by rfl⟩ swept
  · exact swept

theorem planNewRuns_holds (plan : RefreshPlan) (start : holds plan.delta) :
    holds (cache.planNewRuns reads plan).delta := by
  have planned : ∀ plan run, reads.Sees run → holds plan.delta →
      holds (cache.planNewRun plan run).delta := by
    intro plan run seen pre
    have booked := fun delta books => same plan.delta delta books pre
    unfold planNewRun
    dsimp only
    split <;> split_ifs <;>
      first
        | exact booked _ ⟨rfl, rfl, rfl, rfl, rfl, rfl⟩
        | exact effects run _ seen (booked _ ⟨rfl, rfl, rfl, rfl, rfl, rfl⟩)
  have noted : holds (cache.noteNewWork reads plan).delta :=
    same plan.delta _ ⟨rfl, rfl, rfl, rfl, rfl, rfl⟩ start
  have folded := foldl_invariant (fun plan : RefreshPlan => holds plan.delta) cache.planNewRun
    (cache.newRuns reads) (fun plan run mem =>
      planned plan run (.inl (mem_getRunsSince.mp mem).1)) _ noted
  exact same _ _ ⟨by rfl, by rfl, by rfl, by rfl, by rfl, by rfl⟩ folded

theorem planRuns_holds (start : holds (cache.planCompletions reads (cache.startPlan reads)).delta) :
    holds (cache.planRuns reads).delta :=
  cache.planNewRuns_holds reads same effects _ <| cache.planActionRuns_holds reads same effects _ <|
    cache.planInProgress_holds reads same effects _ start

end Induction

section Fetch

variable (now : Int)

def observedAssets : List String :=
  ((reads.observations.getObservationsSince cache.lastObservationTs).filterMap (·.assetKey)).dedup

structure SameRuns (before after : RefreshDelta) : Prop where
  effects : after.effects = before.effects
  appliedRuns : after.appliedRuns = before.appliedRuns
  failedAdds : after.failedAdds = before.failedAdds
  failedRemoves : after.failedRemoves = before.failedRemoves
  materializedOverrides : after.materializedOverrides = before.materializedOverrides
  trackActionRuns : after.trackActionRuns = before.trackActionRuns
  untrackActionRuns : after.untrackActionRuns = before.untrackActionRuns
  newLastSeenRunTs : after.newLastSeenRunTs = before.newLastSeenRunTs

theorem SameRuns.trans {first second third} (early : SameRuns first second)
    (later : SameRuns second third) :
    SameRuns first third where
  effects := later.effects.trans early.effects
  appliedRuns := later.appliedRuns.trans early.appliedRuns
  failedAdds := later.failedAdds.trans early.failedAdds
  failedRemoves := later.failedRemoves.trans early.failedRemoves
  materializedOverrides := later.materializedOverrides.trans early.materializedOverrides
  trackActionRuns := later.trackActionRuns.trans early.trackActionRuns
  untrackActionRuns := later.untrackActionRuns.trans early.untrackActionRuns
  newLastSeenRunTs := later.newLastSeenRunTs.trans early.newLastSeenRunTs

theorem fetched_runs :
    SameRuns (cache.planBeforeFetch reads).delta (cache.fetchRefreshDelta reads now) ∧
      ∃ cleared ⊆ cache.observedAssets reads,
        (cache.fetchRefreshDelta reads now).inProgressChanges =
          (cache.planBeforeFetch reads).delta.inProgressChanges ++ cleared.map .assetClear := by
  have invalidated : ∀ plan : RefreshPlan,
      SameRuns plan.delta (cache.planInvalidated reads plan).delta ∧
        (cache.planInvalidated reads plan).delta.inProgressChanges =
          plan.delta.inProgressChanges := by
    intro plan
    unfold planInvalidated
    split <;> exact ⟨⟨rfl, rfl, rfl, rfl, rfl, rfl, rfl, rfl⟩, rfl⟩
  have backfilled : ∀ plan : RefreshPlan,
      SameRuns plan.delta (cache.planBackfills reads plan).delta ∧
        (cache.planBackfills reads plan).delta.inProgressChanges =
          plan.delta.inProgressChanges := by
    intro plan
    unfold planBackfills
    dsimp only
    split <;> exact ⟨⟨rfl, rfl, rfl, rfl, rfl, rfl, rfl, rfl⟩, rfl⟩
  have observed : ∀ plan : RefreshPlan,
      SameRuns plan.delta (cache.planObservations reads plan).delta ∧
        ∃ cleared ⊆ cache.observedAssets reads,
          (cache.planObservations reads plan).delta.inProgressChanges =
            plan.delta.inProgressChanges ++ cleared.map .assetClear := by
    intro plan
    unfold planObservations
    dsimp only
    split
    · exact ⟨⟨rfl, rfl, rfl, rfl, rfl, rfl, rfl, rfl⟩, [], List.nil_subset _,
        (List.append_nil _).symm⟩
    · exact ⟨⟨rfl, rfl, rfl, rfl, rfl, rfl, rfl, rfl⟩, _, List.filter_subset_self _, rfl⟩
  obtain ⟨fetchedSame, fetchedChanges⟩ := invalidated (cache.planBeforeFetch reads)
  obtain ⟨backfillSame, backfillChanges⟩ := backfilled
    (cache.planInvalidated reads (cache.planBeforeFetch reads))
  obtain ⟨observedSame, cleared, among, observedChanges⟩ := observed
    (cache.planBackfills reads (cache.planInvalidated reads (cache.planBeforeFetch reads)))
  have pending : SameRuns (cache.planObservations reads
      (cache.planBackfills reads (cache.planInvalidated reads (cache.planBeforeFetch reads)))).delta
      (cache.fetchRefreshDelta reads now) := ⟨rfl, rfl, rfl, rfl, rfl, rfl, rfl, rfl⟩
  refine ⟨fetchedSame.trans (backfillSame.trans (observedSame.trans pending)), cleared, among, ?_⟩
  rw [← fetchedChanges, ← backfillChanges, ← observedChanges]
  rfl

theorem planRuns_recordUpdates :
    (cache.planRuns reads).delta.recordUpdates = cache.movedRecords reads := by
  refine @planRuns_holds cache reads (fun delta => delta.recordUpdates = cache.movedRecords reads)
    ?_ ?_ rfl
  · intro left right same pre
    rw [← same.recordUpdates, pre]
  · intro run delta _ pre
    cases hasEffects : run.hasEffects with
    | true => rw [(cache.applyRunEffects_adds run delta hasEffects).recordUpdates, pre]
    | false => rw [cache.applyRunEffects_of_not run delta hasEffects, pre]

def invalidatedBy : Finset String :=
  (cache.planBeforeFetch reads).invalidated

theorem subset_expandDownstream (touched : Finset String) :
    touched ⊆ cache.expandDownstream touched := by
  unfold expandDownstream
  induction cache.downstreamDeps.keys.card with
  | zero => exact Finset.Subset.refl _
  | succ rounds ih =>
    rw [Function.iterate_succ_apply']
    exact ih.trans Finset.subset_union_left

theorem fetched_record {asset record}
    (found : (cache.fetchRefreshDelta reads now).recordUpdates.lookup asset = some record) :
    reads.observedRecords.records.lookup asset = some record ∨
      reads.invalidatedRecords.records.lookup asset = some record ∨
      (reads.freshRecords.records.lookup asset = some record ∧
        (asset ∈ cache.invalidatedBy reads → reads.invalidatedRecords.records.lookup asset =
          none)) := by
  have moved : ∀ plan : RefreshPlan,
      (cache.planObservations reads plan).delta.recordUpdates.lookup asset = some record →
      reads.observedRecords.records.lookup asset = some record ∨
        plan.delta.recordUpdates.lookup asset = some record := by
    intro plan updated
    unfold planObservations at updated
    dsimp only at updated
    split at updated
    · exact .inr updated
    · rw [lookup_extend, Option.or_eq_some_iff] at updated
      rcases updated with observed | ⟨-, kept⟩
      · left
        split_ifs at observed
        · simp at observed
        · simp only [lookup_retain, getAssetRecordsByKeys, Option.filter_eq_some_iff] at observed
          exact observed.1.1
      · exact .inr kept
  have invalidated : (cache.planInvalidated reads
      (cache.planBeforeFetch reads)).delta.recordUpdates.lookup
      asset = some record → reads.invalidatedRecords.records.lookup asset = some record ∨
        ((cache.movedRecords reads).lookup asset = some record ∧
          (asset ∈ cache.invalidatedBy reads →
            reads.invalidatedRecords.records.lookup asset = none)) := by
    intro updated
    have first : (cache.planBeforeFetch reads).delta.recordUpdates = cache.movedRecords reads :=
      cache.planRuns_recordUpdates reads
    unfold planInvalidated at updated
    split at updated
    · grind [invalidatedBy]
    · rw [lookup_extend, Option.or_eq_some_iff, first] at updated
      simp only [getAssetRecordsByKeys, lookup_retain] at updated
      rcases updated with fetched | ⟨unfetched, kept⟩
      · exact .inl (Option.filter_eq_some_iff.mp fetched).1
      · refine .inr ⟨kept, fun mem => ?_⟩
        have expanded : asset ∈ cache.expandDownstream (cache.planBeforeFetch reads).invalidated :=
          cache.subset_expandDownstream _ mem
        simpa [Option.filter_eq_none_iff, expanded,
          Option.eq_none_iff_forall_ne_some] using unfetched
  have backfilled : ∀ plan : RefreshPlan,
      (cache.planBackfills reads plan).delta.recordUpdates = plan.delta.recordUpdates := by
    intro plan
    unfold planBackfills
    dsimp only
    split <;> rfl
  rcases moved _ found with observed | kept
  · exact .inl observed
  · rw [backfilled] at kept
    rcases invalidated kept with fetched | ⟨first, missing⟩
    · exact .inr (.inl fetched)
    · refine .inr (.inr ⟨?_, missing⟩)
      simp only [movedRecords, freshRecords, getAssetRecordsByKeys, lookup_retain,
        Option.filter_eq_some_iff] at first
      exact first.1.1

theorem fetched_of_invalidated {asset} (invalidated : asset ∈ cache.invalidatedBy reads)
    (stored : asset ∈ reads.invalidatedRecords.records) :
    asset ∈ (cache.fetchRefreshDelta reads now).recordUpdates := by
  have first : asset ∈ (cache.planInvalidated reads
    (cache.planBeforeFetch reads)).delta.recordUpdates := by
    obtain ⟨record, found⟩ := Finmap.mem_iff.mp stored
    have nonempty : (cache.planBeforeFetch reads).invalidated ≠ ∅ :=
      Finset.ne_empty_of_mem invalidated
    have expanded : asset ∈ cache.expandDownstream (cache.planBeforeFetch reads).invalidated :=
      cache.subset_expandDownstream _ invalidated
    unfold planInvalidated
    rw [if_neg nonempty, Finmap.mem_iff]
    refine ⟨record, ?_⟩
    simp [lookup_extend, getAssetRecordsByKeys, lookup_retain, found, expanded]
  have backfilled : asset ∈ (cache.planBackfills reads
      (cache.planInvalidated reads (cache.planBeforeFetch reads))).delta.recordUpdates := by
    unfold planBackfills
    dsimp only
    split <;> exact first
  change asset ∈ (cache.planObservations reads (cache.planBackfills reads
    (cache.planInvalidated reads (cache.planBeforeFetch reads)))).delta.recordUpdates
  unfold planObservations
  dsimp only
  split
  · exact backfilled
  · exact Finmap.mem_union.mpr (.inr backfilled)

end Fetch

end AssetConditionCache

end Rivers
