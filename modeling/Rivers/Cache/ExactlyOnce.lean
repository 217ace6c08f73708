import Rivers.Cache.Accounting

/-! Every run is applied by exactly one refresh. -/

namespace Rivers

open FiniteMap Storage AssetConditionCache RunRecord

namespace AssetConditionCache

variable (cache : AssetConditionCache) (reads : RefreshReads)

def Overtaken (run : RunRecord) : Prop :=
  ∃ newer ∈ reads.newRuns.runs, run.startTime < newer.startTime

def Reported (run : RunRecord) : Prop :=
  ∃ event ∈ reads.outcomes.events, ∃ asset ∈ event.assetKey, asset ∈ cache.inProgressAssets ∧
    (event.runId = run.runId ∨
      event.runId ∈ cache.trackedRunIds asset ∧ run.runId ∈ cache.trackedRunIds asset)

structure Settles : Prop where
  recorded : ∀ asset ∈ cache.inProgressAssets, reads.freshRecords.observed asset →
    ∀ record, reads.freshRecords.records.lookup asset = some record →
    ∀ run ∈ reads.freshRecords.runs, record.lastRunId = some run.runId →
      cache.lastSeenRunTs < run.startTime ∨ run.runId ∈ cache.allTrackedRunIds
  completed : ∀ run ∈ reads.newRuns.runs, run.isTerminal = false → Overtaken reads run →
    cache.Reported reads run → ∀ ended ∈ reads.completedRuns.runs, ended.runId = run.runId →
    ended.isTerminal →
      if run.isAction then run.runId ∈ cache.liveActionRuns
      else run.runId ∈ cache.allTrackedRunIds ∧ ended ∈ reads.trackedRuns.runs
  observed : ∀ run ∈ reads.newRuns.runs, run.isTerminal = false → run.isAction = false →
    Overtaken reads run → (∃ asset ∈ run.nodeNames, asset ∈ cache.observedAssets reads) →
    ∃ asset ∈ run.nodeNames, reads.observations.observed asset = false

theorem mem_allTrackedRunIds {runId} :
    runId ∈ cache.allTrackedRunIds ↔ ∃ asset, runId ∈ cache.trackedRunIds asset := by
  simp only [allTrackedRunIds, Finset.mem_biUnion, Finmap.mem_keys]
  grind [mem_trackedRunIds, Finmap.mem_iff]

theorem mem_newTerminal {runId} :
    runId ∈ cache.newTerminal reads ↔ ∃ run ∈ reads.newRuns.runs,
      cache.lastSeenRunTs < run.startTime ∧ run.isTerminal ∧ run.runId = runId := by
  simp [newTerminal, newRuns, mem_getRunsSince, and_assoc]

theorem lookup_movedRecords {asset record} :
    (cache.movedRecords reads).lookup asset = some record ↔
      reads.freshRecords.records.lookup asset = some record ∧ asset ∈ cache.inProgressAssets ∧
        (cache.records.lookup asset).all fun old => old.lastTimestamp ≠ record.lastTimestamp := by
  simp only [movedRecords, freshRecords, getAssetRecordsByKeys, lookup_retain,
    Option.filter_eq_some_iff, Finmap.mem_keys, decide_eq_true_eq, and_assoc]

theorem mem_completedRunIds {runId} :
    runId ∈ cache.completedRunIds reads ↔
      (∃ asset record, (cache.movedRecords reads).lookup asset = some record ∧
        record.lastRunId = some runId) ∨
      ∃ asset ∈ cache.finishedAssets reads, runId ∈ cache.trackedRunIds asset := by
  simp only [completedRunIds, Finset.mem_union, Finset.mem_biUnion, Option.mem_toFinset,
    Option.mem_def, Option.bind_eq_some_iff, Finmap.mem_keys]
  grind [Finmap.mem_iff]

theorem mem_finishedAssets {asset} (fin : asset ∈ cache.finishedAssets reads) :
    ∃ event ∈ reads.outcomes.events, event.assetKey = some asset ∧
      event.runId ∈ cache.trackedRunIds asset := by
  simp only [finishedAssets, trackedOutcomes, stepOutcomes, List.mem_toFinset, List.mem_map,
    List.mem_filter, List.mem_filterMap, decide_eq_true_eq] at fin
  grind

theorem mem_inProgress {asset runId} (tracked : runId ∈ cache.trackedRunIds asset) :
    asset ∈ cache.inProgressAssets := by
  obtain ⟨runs, found, -⟩ := (cache.mem_trackedRunIds asset runId).mp tracked
  exact Finmap.mem_iff.mpr ⟨runs, found⟩

theorem fetched_tracks (now : Int) {asset runId} :
    (∃ change ∈ (cache.fetchRefreshDelta reads now).inProgressChanges, change.Tracks asset runId) ↔
      ∃ run ∈ cache.newRuns reads, run.isTerminal = false ∧ run.isAction = false ∧
        run.runId ∉ cache.sweptTerminal reads ∧ asset ∈ run.nodeNames ∧ run.runId = runId := by
  obtain ⟨-, cleared, -, changes⟩ := cache.fetched_runs reads now
  rw [← has_push, changes]
  grind [InProgressChange.Tracks, RefreshPlan.Has]

theorem fetched_drops (now : Int) {asset runId} :
    (∃ change ∈ (cache.fetchRefreshDelta reads now).inProgressChanges, change.Drops asset runId) →
      (∃ run, (run ∈ cache.trackedRuns reads ∨ run ∈ cache.newRuns reads) ∧ run.isTerminal ∧
        asset ∈ run.nodeNames ∧ run.runId = runId) ∨
      (asset, runId) ∈ cache.vanishedRuns reads ∨ asset ∈ cache.observedAssets reads := by
  obtain ⟨-, cleared, among, changes⟩ := cache.fetched_runs reads now
  rw [changes]
  rintro ⟨change, member, drops⟩
  rcases List.mem_append.mp member with planned | appended
  · rcases (cache.has_drop reads).mp ⟨change, planned, drops⟩ with ended | ⟨-, vanished⟩
    · exact .inl ended
    · exact .inr (.inl vanished)
  · grind [InProgressChange.Drops]

theorem fetched_clears (now : Int) {asset run} (member : run ∈ cache.trackedRuns reads ∨
    run ∈ cache.newRuns reads)
    (term : run.isTerminal) (covered : asset ∈ run.nodeNames) :
    ∃ change ∈ (cache.fetchRefreshDelta reads now).inProgressChanges, change.Drops asset
      run.runId := by
  obtain ⟨-, cleared, -, changes⟩ := cache.fetched_runs reads now
  obtain ⟨change, planned, drops⟩ := (cache.has_drop reads).mpr
    (.inl ⟨run, member, term, covered, rfl⟩)
  exact ⟨change, changes ▸ List.mem_append_left _ planned, drops⟩

theorem observed_of_mem {asset} (member : asset ∈ cache.observedAssets reads) :
    reads.observations.observed asset := by
  simp only [observedAssets, List.mem_dedup, List.mem_filterMap, getObservationsSince,
    List.mem_filter, Bool.and_eq_true, decide_eq_true_eq] at member
  grind [observed_iff]

def cursorAfter : Int :=
  (((cache.newRuns reads).map (·.startTime)).max?.map (· - 1)).getD cache.lastSeenRunTs

theorem fetched_newLastSeenRunTs (now : Int) :
    (cache.fetchRefreshDelta reads now).newLastSeenRunTs.getD cache.lastSeenRunTs =
      cache.cursorAfter reads := by
  rw [(cache.fetched_runs reads now).1.newLastSeenRunTs]
  rfl

theorem cursorAfter_cases :
    (cache.newRuns reads = [] ∧ cache.cursorAfter reads = cache.lastSeenRunTs) ∨
      ∃ newest ∈ cache.newRuns reads, cache.cursorAfter reads = newest.startTime - 1 := by
  unfold cursorAfter
  cases found : ((cache.newRuns reads).map (·.startTime)).max? with
  | none => exact .inl ⟨by simpa using found, rfl⟩
  | some start =>
    obtain ⟨newest, member, rfl⟩ := List.mem_map.mp (List.max?_mem found)
    exact .inr ⟨newest, member, rfl⟩

theorem le_cursorAfter : cache.lastSeenRunTs ≤ cache.cursorAfter reads := by
  rcases cache.cursorAfter_cases reads with ⟨-, same⟩ | ⟨newest, member, moved⟩
  · omega
  · have above := (mem_getRunsSince.mp member).2
    omega

end AssetConditionCache

structure SettlingRefresh (before after : Storage) (cache : AssetConditionCache)
    (reads : RefreshReads) (batches : List (List RunRecord)) : Prop where
  between : reads.Between before after
  wellFormed : before.WellFormed
  orderly : after.Orderly
  accounts : Accounts before cache batches
  settles : cache.Settles reads

structure SeenBy (storage after : Storage) (cache : AssetConditionCache)
    (batches : List (List RunRecord)) :
    Prop where
  wellFormed : storage.WellFormed
  precedes : storage.Precedes after
  accounts : Accounts storage cache batches

namespace SeenBy

variable {storage other after : Storage} {cache : AssetConditionCache}
  {batches : List (List RunRecord)} {run : RunRecord} (seen : SeenBy storage after cache batches)
  (member : run ∈ storage.runs)

include seen member

theorem later (steps : StorageSteps storage other) (term : run.isTerminal) : run ∈ other.runs :=
  (steps.precedes seen.wellFormed).2.terminal run member term

theorem final (term : run.isTerminal) : run ∈ after.runs :=
  seen.precedes.terminal run member term

theorem applied_of_marked (effects : run.hasEffects) (marked : run.runId ∈ cache.appliedRunIds) :
    AppliedIn batches run.runId := by
  obtain ⟨startTime, found⟩ := Finmap.mem_iff.mp marked
  obtain ⟨known, knownMem, same, -, -, applied⟩ := seen.accounts.marked run.runId startTime found
  rw [seen.wellFormed.eq_of_runId knownMem member same] at applied
  exact applied effects

theorem terminal_of_applied (applied : AppliedIn batches run.runId) : run.isTerminal := by
  obtain ⟨known, knownMem, same, term⟩ := seen.accounts.appliedRun applied
  rwa [← seen.wellFormed.eq_of_runId knownMem member same]

theorem below_of_unmarked (unmarked : run.runId ∉ cache.appliedRunIds)
    (applied : AppliedIn batches run.runId) : run.startTime ≤ cache.lastSeenRunTs := by
  by_contra above
  exact unmarked (seen.accounts.remembered run member applied (by omega))

theorem of_tracked {asset} (tracked : run.runId ∈ cache.trackedRunIds asset) :
    run.isAction = false ∧ asset ∈ run.nodeNames ∧
      (AppliedIn batches run.runId → cache.lastSeenRunTs < run.startTime) := by
  obtain ⟨known, knownMem, same, facts⟩ := seen.accounts.tracked asset run.runId tracked
  rw [seen.wellFormed.eq_of_identity knownMem (mem_identities member) same] at facts
  exact facts

theorem of_watched (watched : run.runId ∈ cache.liveActionRuns) :
    run.isAction ∧ (AppliedIn batches run.runId → cache.lastSeenRunTs < run.startTime) := by
  obtain ⟨known, knownMem, same, facts⟩ := seen.accounts.watched run.runId watched
  rw [seen.wellFormed.eq_of_identity knownMem (mem_identities member) same] at facts
  exact facts

theorem unapplied_of_tracked (tracked : run.runId ∈ cache.allTrackedRunIds)
    (unmarked : run.runId ∉ cache.appliedRunIds) : ¬ AppliedIn batches run.runId := by
  intro applied
  obtain ⟨asset, tracked⟩ := cache.mem_allTrackedRunIds.mp tracked
  have above := (seen.of_tracked member tracked).2.2 applied
  have below := seen.below_of_unmarked member unmarked applied
  omega

theorem unapplied_of_watched (watched : run.runId ∈ cache.liveActionRuns)
    (unmarked : run.runId ∉ cache.appliedRunIds) : ¬ AppliedIn batches run.runId := by
  intro applied
  have above := (seen.of_watched member watched).2 applied
  have below := seen.below_of_unmarked member unmarked applied
  omega

theorem record_at {asset record} (term : run.isTerminal) (unseen : after.observed asset = false)
    (found : after.records.lookup asset = some record) (named : record.lastRunId = some run.runId) :
    ∃ old, storage.records.lookup asset = some old ∧ old.lastTimestamp = record.lastTimestamp := by
  obtain ⟨old, oldFound, -, same⟩ := seen.precedes.recorded run member term asset record found named
  exact ⟨old, oldFound, same unseen⟩

end SeenBy

def AppliedAfter (cache : AssetConditionCache) (reads : RefreshReads)
    (batches : List (List RunRecord)) (runId : String) : Prop :=
  AppliedIn batches runId ∨ ∃ run, cache.AppliesEffects reads run ∧ run.runId = runId

theorem appliedIn_refresh (cache : AssetConditionCache) (reads : RefreshReads)
    (batches : List (List RunRecord)) (now : Int) (runId : String) :
    AppliedIn (batches ++ [(cache.fetchRefreshDelta reads now).effects]) runId ↔
      AppliedAfter cache reads batches runId := by
  rw [appliedIn_append, (cache.fetched_runs reads now).1.effects, AppliedAfter]
  refine or_congr_right (exists_congr fun run => and_congr_left' ?_)
  exact cache.has_effect reads

namespace SettlingRefresh

variable {before after storage other : Storage} {cache : AssetConditionCache} {reads : RefreshReads}
  {batches : List (List RunRecord)} (refresh : SettlingRefresh before after cache reads batches)

include refresh

section Reads

theorem final : after.WellFormed :=
  (refresh.between.through.precedes refresh.wellFormed).1

theorem seenBy (since : StorageSteps before storage) (upTo : StorageSteps storage after) :
    SeenBy storage after cache batches := by
  have wellFormed := (since.precedes refresh.wellFormed).1
  have precedes := (upTo.precedes wellFormed).2
  exact ⟨wellFormed, precedes,
    refresh.accounts.advance refresh.wellFormed since (refresh.orderly.earlier precedes)⟩

theorem seen_newRuns : SeenBy reads.newRuns after cache batches :=
  refresh.seenBy refresh.between.newRuns refresh.between.newRuns_after

theorem seen_freshRecords : SeenBy reads.freshRecords after cache batches :=
  have between := refresh.between
  refresh.seenBy (between.newRuns.trans between.freshRecords)
    (between.outcomes.trans
      (between.trackedRuns.trans (between.trackedRuns_built.trans between.built_after)))

theorem seen_trackedRuns : SeenBy reads.trackedRuns after cache batches :=
  have between := refresh.between
  refresh.seenBy between.before_trackedRuns (between.trackedRuns_built.trans between.built_after)

theorem seen_completedRuns : SeenBy reads.completedRuns after cache batches :=
  have between := refresh.between
  refresh.seenBy (between.before_trackedRuns.trans between.completedRuns)
    (between.watchedRuns.trans (between.built.trans between.built_after))

theorem seen_watchedRuns : SeenBy reads.watchedRuns after cache batches :=
  have between := refresh.between
  refresh.seenBy (between.before_trackedRuns.trans
    (between.completedRuns.trans between.watchedRuns))
    (between.built.trans between.built_after)

theorem seen_invalidatedRecords : SeenBy reads.invalidatedRecords after cache batches :=
  refresh.seenBy refresh.between.before_invalidatedRecords refresh.between.invalidatedRecords_after

theorem eq_of_terminal {run run'} (seen : SeenBy storage after cache batches)
    (member : run ∈ storage.runs) (term : run.isTerminal) (seen' : SeenBy other after cache batches)
    (member' : run' ∈ other.runs) (terminal' : run'.isTerminal) (same : run.runId = run'.runId) :
    run = run' :=
  refresh.final.eq_of_runId (seen.final member term) (seen'.final member' terminal') same

end Reads

section Applied

variable {run : RunRecord}

theorem applied_of_new (member : run ∈ cache.newRuns reads) (effects : run.hasEffects) :
    AppliedAfter cache reads batches run.runId := by
  by_cases marked : run.runId ∈ cache.appliedRunIds
  · exact .inl (refresh.seen_newRuns.applied_of_marked (mem_getRunsSince.mp member).1
      effects marked)
  · exact .inr ⟨run, ⟨effects, marked, .inl ⟨member, run.terminal_of_effects effects⟩⟩, rfl⟩

theorem applied_of_newTerminal (seen : SeenBy storage after cache batches)
    (member : run ∈ storage.runs) (effects : run.hasEffects)
    (new : run.runId ∈ cache.newTerminal reads) :
    AppliedAfter cache reads batches run.runId := by
  obtain ⟨first, firstMem, above, term, same⟩ := (cache.mem_newTerminal reads).mp new
  have equal := refresh.eq_of_terminal refresh.seen_newRuns firstMem term seen member
    (run.terminal_of_effects effects) same
  exact refresh.applied_of_new (equal ▸ mem_getRunsSince.mpr ⟨firstMem, above⟩) effects

theorem applied_of_tracked (member : run ∈ cache.trackedRuns reads) (effects : run.hasEffects) :
    AppliedAfter cache reads batches run.runId := by
  have term := run.terminal_of_effects effects
  have stored := (mem_getRunsByIds.mp member).1
  by_cases marked : run.runId ∈ cache.appliedRunIds
  · exact .inl (refresh.seen_trackedRuns.applied_of_marked stored effects marked)
  by_cases new : run.runId ∈ cache.newTerminal reads
  · exact refresh.applied_of_newTerminal refresh.seen_trackedRuns stored effects new
  refine .inr ⟨run, ⟨effects, marked, .inr ⟨new, ?_⟩⟩, rfl⟩
  by_cases done : run.runId ∈ cache.completedRunIds reads
  · exact .inr (.inl ⟨refresh.seen_trackedRuns.later stored refresh.between.completedRuns term,
      done⟩)
  · exact .inl ⟨member, term, done⟩

theorem applied_of_watched (member : run ∈ cache.watchedRuns reads) (effects : run.hasEffects) :
    AppliedAfter cache reads batches run.runId := by
  have stored := (mem_getRunsByIds.mp member).1
  by_cases marked : run.runId ∈ cache.appliedRunIds
  · exact .inl (refresh.seen_watchedRuns.applied_of_marked stored effects marked)
  by_cases new : run.runId ∈ cache.newTerminal reads
  · exact refresh.applied_of_newTerminal refresh.seen_watchedRuns stored effects new
  exact .inr ⟨run, ⟨effects, marked,
    .inr ⟨new, .inr (.inr ⟨member, run.terminal_of_effects effects⟩)⟩⟩, rfl⟩

theorem stored_of_applies (applies : cache.AppliesEffects reads run) :
    run ∈ reads.watchedRuns.runs ∧ run ∈ after.runs := by
  have between := refresh.between
  have term := run.terminal_of_effects applies.1
  have stored : run ∈ reads.watchedRuns.runs := by
    obtain ⟨-, -, ⟨member, -⟩ | ⟨-, ⟨member, -⟩ | ⟨member, -⟩ | ⟨member, -⟩⟩⟩ := applies
    · exact refresh.seen_newRuns.later (mem_getRunsSince.mp member).1
        (between.newRuns_trackedRuns.trans (between.completedRuns.trans between.watchedRuns)) term
    · exact refresh.seen_trackedRuns.later (mem_getRunsByIds.mp member).1
        (between.completedRuns.trans between.watchedRuns) term
    · exact refresh.seen_completedRuns.later member between.watchedRuns term
    · exact (mem_getRunsByIds.mp member).1
  exact ⟨stored, refresh.seen_watchedRuns.final stored term⟩

theorem unapplied_of_completed (seen : SeenBy storage after cache batches)
    (member : run ∈ storage.runs) (unmarked : run.runId ∉ cache.appliedRunIds)
    (done : run.runId ∈ cache.completedRunIds reads) :
    ¬ AppliedIn batches run.runId := by
  rcases (cache.mem_completedRunIds reads).mp done with ⟨asset, record, moved, named⟩ |
    ⟨asset, -, tracked⟩
  · intro applied
    obtain ⟨found, inProgress, differs⟩ := (cache.lookup_movedRecords reads).mp moved
    have fresh := refresh.seen_freshRecords
    cases observed : reads.freshRecords.observed asset with
    | false =>
      -- the record has not moved since the run was applied
      obtain ⟨cached, cachedFound, same⟩ :=
        fresh.accounts.recorded run.runId applied asset record observed found named
      simp_all
    | true =>
      obtain ⟨old, oldMember, same, -⟩ := fresh.accounts.appliedRun applied
      rw [← same] at named applied unmarked
      rcases refresh.settles.recorded asset inProgress observed record found old
        oldMember named with
        above | tracked
      · have below := fresh.below_of_unmarked oldMember unmarked applied
        omega
      · exact fresh.unapplied_of_tracked oldMember tracked unmarked applied
  · exact seen.unapplied_of_tracked member (cache.mem_allTrackedRunIds.mpr ⟨asset, tracked⟩)
      unmarked

theorem unapplied_of_applies (applies : cache.AppliesEffects reads run) :
    ¬ AppliedIn batches run.runId := by
  obtain ⟨-, unmarked, ⟨member, -⟩ | ⟨-, ⟨member, -⟩ | ⟨member, done⟩ | ⟨member, -⟩⟩⟩ := applies
  · intro applied
    obtain ⟨stored, above⟩ := mem_getRunsSince.mp member
    have below := refresh.seen_newRuns.below_of_unmarked stored unmarked applied
    omega
  · obtain ⟨stored, tracked⟩ := mem_getRunsByIds.mp member
    exact refresh.seen_trackedRuns.unapplied_of_tracked stored tracked unmarked
  · exact refresh.unapplied_of_completed refresh.seen_completedRuns member unmarked done
  · obtain ⟨stored, watched⟩ := mem_getRunsByIds.mp member
    exact refresh.seen_watchedRuns.unapplied_of_watched stored (Finmap.mem_keys.mp watched) unmarked

theorem reported_of_completed (done : run.runId ∈ cache.completedRunIds reads) :
    cache.Reported reads run := by
  rcases (cache.mem_completedRunIds reads).mp done with ⟨asset, record, moved, named⟩ |
    ⟨asset, fin, tracked⟩
  · obtain ⟨found, inProgress, -⟩ := (cache.lookup_movedRecords reads).mp moved
    have fresh := refresh.seen_freshRecords.wellFormed
    obtain ⟨event, stored, -, onAsset, byRun⟩ := materializedByRun_iff.mp
      (fresh.recorded asset record run.runId found named)
    exact ⟨event, (refresh.between.outcomes.precedes fresh).2.events stored, asset,
      onAsset, inProgress, .inl byRun⟩
  · grind [mem_finishedAssets, mem_inProgress, AssetConditionCache.Reported]

end Applied

section Cursor

theorem trails_after : reads.newRuns.Trails (cache.cursorAfter reads) := by
  rcases cache.cursorAfter_cases reads with ⟨-, same⟩ | ⟨newest, member, moved⟩
  · rw [same]
    exact refresh.seen_newRuns.accounts.above
  · refine .inr ⟨newest.identity, mem_identities (mem_getRunsSince.mp member).1, ?_⟩
    simp only [identity]
    omega

theorem new_of_below {run} (member : run ∈ after.runs)
    (below : run.startTime ≤ cache.cursorAfter reads) :
    (∃ old ∈ reads.newRuns.runs, old.identity = run.identity) ∧
      AssetConditionCache.Overtaken reads run := by
  refine ⟨refresh.trails_after.was_there refresh.seen_newRuns.precedes refresh.final refresh.orderly
    member below, ?_⟩
  rcases refresh.trails_after with low | ⟨newer, newerMember, above⟩
  · have started : 0 < run.startTime := refresh.final.starts run.identity (mem_identities member)
    omega
  · grind [identity, AssetConditionCache.Overtaken, identities]

end Cursor

section Tracking

variable (now : Int) {asset runId : String}

theorem cleared {run} (member : run ∈ cache.trackedRuns reads ∨ run ∈ cache.newRuns reads)
    (term : run.isTerminal) (covered : asset ∈ run.nodeNames) :
    run.runId ∉ (cache.refresh reads now).1.trackedRunIds asset := by
  refine tracked_dropped refresh.accounts.unpending ?_
    (.inr (cache.fetched_clears reads now member term covered))
  intro change changed tracks
  obtain ⟨pushed, pushedMember, live, -, unswept, -, same⟩ :=
    (cache.fetched_tracks reads now).mp ⟨change, changed, tracks⟩
  rcases member with tracked | new
  · grind [mem_sweptTerminal]
  · have equal := refresh.seen_newRuns.wellFormed.eq_of_runId (mem_getRunsSince.mp pushedMember).1
      (mem_getRunsSince.mp new).1 same
    rw [equal, term] at live
    cases live

theorem tracked_from (tracked : runId ∈ (cache.refresh reads now).1.trackedRunIds asset) :
    ∃ run ∈ reads.newRuns.runs, run.runId = runId ∧ run.isAction = false ∧ asset ∈ run.nodeNames ∧
      (runId ∈ cache.trackedRunIds asset ∨ cache.lastSeenRunTs < run.startTime ∧
        run.isTerminal = false) := by
  rcases tracked_source refresh.accounts.unpending tracked with
    old | pushed
  · obtain ⟨known, member, rfl, noAct, covered, -⟩ :=
      refresh.seen_newRuns.accounts.tracked asset runId old
    grind [identity, isAction, identities]
  · obtain ⟨run, member, live, noAct, -, covered, rfl⟩ := (cache.fetched_tracks reads now).mp pushed
    grind [mem_getRunsSince, newRuns]

theorem identity_eq {run first} (member : run ∈ after.runs) (stored : first ∈ reads.newRuns.runs)
    (same : run.runId = first.runId) : run.identity = first.identity :=
  refresh.final.eq_of_identity (mem_identities member)
    (refresh.seen_newRuns.precedes.identities.subset (mem_identities stored)) same

theorem above_of_tracked (tracked : runId ∈ (cache.refresh reads now).1.trackedRunIds asset)
    (applied : AppliedAfter cache reads batches runId) {run} (member : run ∈ after.runs)
    (same : run.runId = runId) : cache.cursorAfter reads < run.startTime := by
  by_contra notAbove
  obtain ⟨first, stored, rfl, noAct, covered, source⟩ := refresh.tracked_from now tracked
  have seen := refresh.seen_newRuns
  obtain ⟨-, sameStart, sameNames, sameKind⟩ := fields_of_identity
    (refresh.identity_eq member stored same)
  have overtaken : AssetConditionCache.Overtaken reads first := by
    have := (refresh.new_of_below member (by omega)).2
    simpa only [AssetConditionCache.Overtaken, sameStart] using this
  -- it is enough that the sweep or the read of new runs finds the run terminal
  have absurd_of : ∀ ended, (ended ∈ cache.trackedRuns reads ∨ ended ∈ cache.newRuns reads) →
      ended.isTerminal → ended.runId = first.runId → asset ∈ ended.nodeNames → False := by
    intro ended found term sameId onAsset
    exact refresh.cleared now found term onAsset (sameId ▸ tracked)
  rcases applied with earlier | ⟨ended, applies, sameId⟩
  · have term := seen.terminal_of_applied stored earlier
    have above : cache.lastSeenRunTs < first.startTime := by
      rcases source with old | ⟨above, -⟩
      · exact (seen.of_tracked stored old).2.2 earlier
      · exact above
    exact absurd_of first (.inr (mem_getRunsSince.mpr ⟨stored, above⟩)) term rfl covered
  · have term := ended.terminal_of_effects applies.1
    obtain ⟨-, final⟩ := refresh.stored_of_applies applies
    have endedIs : ended = run := refresh.final.eq_of_runId final member (sameId.trans same.symm)
    have onAsset : asset ∈ ended.nodeNames := by rw [endedIs, sameNames]; exact covered
    obtain ⟨-, -, ⟨new, -⟩ | ⟨notNew, ⟨swept, -⟩ | ⟨found, done⟩ | ⟨watched, -⟩⟩⟩ := applies
    · exact absurd_of ended (.inr new) term sameId onAsset
    · exact absurd_of ended (.inl swept) term sameId onAsset
    · cases live : first.isTerminal with
      | true =>
        have equal : first = ended := refresh.eq_of_terminal seen stored live
          refresh.seen_completedRuns
          found term sameId.symm
        rcases source with old | ⟨above, -⟩
        · exact absurd_of first (.inl (mem_getRunsByIds.mpr
            ⟨seen.later stored refresh.between.newRuns_trackedRuns live,
              cache.mem_allTrackedRunIds.mpr ⟨asset, old⟩⟩)) live rfl covered
        · exact notNew ((cache.mem_newTerminal reads).mpr ⟨first, stored, above, live, sameId.symm⟩)
      | false =>
        have settled := refresh.settles.completed first stored live overtaken
          (refresh.reported_of_completed (sameId ▸ done)) ended found sameId term
        rw [if_neg (by simp [noAct])] at settled
        exact absurd_of ended (.inl (mem_getRunsByIds.mpr
          ⟨settled.2, sameId.symm ▸ settled.1⟩)) term sameId onAsset
    · obtain ⟨inRead, isWatched⟩ := mem_getRunsByIds.mp watched
      have action := (refresh.seen_watchedRuns.of_watched inRead (Finmap.mem_keys.mp isWatched)).1
      grind

theorem none_vanished : (asset, runId) ∉ cache.vanishedRuns reads := by
  intro vanished
  simp only [vanishedRuns, Finset.mem_biUnion, Finset.mem_image, Finset.mem_filter,
    List.mem_toFinset, List.mem_map, Prod.mk.injEq] at vanished
  obtain ⟨_, -, _, ⟨tracked, missing, -⟩, rfl, rfl⟩ := vanished
  obtain ⟨known, member, sameId, -⟩ := refresh.seen_trackedRuns.accounts.tracked _ _ tracked
  grind [mem_getRunsByIds, mem_allTrackedRunIds, identity, identities, trackedRuns]

theorem none_vanished_action : runId ∉ cache.vanishedActionRuns reads := by
  intro vanished
  simp only [vanishedActionRuns, Finset.mem_sdiff, List.mem_toFinset, List.mem_map,
    Finmap.mem_keys] at vanished
  obtain ⟨watched, missing⟩ := vanished
  obtain ⟨known, member, sameId, -⟩ := refresh.seen_watchedRuns.accounts.watched _ watched
  grind [mem_getRunsByIds, Finmap.mem_keys, identity, identities, watchedRuns]

theorem tracked_kept {run} (member : run ∈ reads.newRuns.runs) (live : run.isTerminal = false)
    (unswept : run.runId ∉ cache.sweptTerminal reads)
    (unobserved : asset ∉ cache.observedAssets reads)
    (source : run.runId ∈ cache.trackedRunIds asset ∨ cache.lastSeenRunTs < run.startTime ∧
      run.isAction = false ∧ asset ∈ run.nodeNames) :
    run.runId ∈ (cache.refresh reads now).1.trackedRunIds asset := by
  refine AssetConditionCache.tracked_kept refresh.accounts.unpending ?_ (source.imp_right fun new => ?_)
  · intro change changed drops
    rcases cache.fetched_drops reads now ⟨change, changed, drops⟩ with
      ⟨ended, swept | new, terminal, -, same⟩ | vanished | observed
    · exact unswept ((cache.mem_sweptTerminal reads).mpr (.inl ⟨ended, swept, terminal, same.symm⟩))
    · rw [refresh.seen_newRuns.wellFormed.eq_of_runId (Storage.mem_getRunsSince.mp new).1 member same,
        live] at terminal
      cases terminal
    · exact refresh.none_vanished vanished
    · exact unobserved observed
  · exact (cache.fetched_tracks reads now).mpr ⟨run, Storage.mem_getRunsSince.mpr ⟨member, new.1⟩, live,
      new.2.1, unswept, new.2.2, rfl⟩

end Tracking

section Watching

variable (now : Int) {runId : String}

theorem watched_iff :
    runId ∈ (cache.refresh reads now).1.liveActionRuns ↔
      (runId ∈ cache.liveActionRuns ∨ ∃ run ∈ cache.newRuns reads, run.isTerminal = false ∧
        run.isAction ∧
        run.runId ∉ cache.sweptTerminal reads ∧ run.runId = runId) ∧
      ¬ ∃ run ∈ cache.watchedRuns reads, run.isTerminal ∧ run.runId = runId := by
  refine (cache.applyRefreshDelta_watched _ runId).trans ?_
  rw [(cache.fetched_runs reads now).1.trackActionRuns,
    (cache.fetched_runs reads now).1.untrackActionRuns]
  refine and_congr (or_congr_right (cache.has_track reads)) (not_congr ?_)
  refine (cache.has_untrack reads).trans (or_iff_left ?_)
  exact fun vanished => refresh.none_vanished_action vanished.2

theorem watched_from (watched : runId ∈ (cache.refresh reads now).1.liveActionRuns) :
    ∃ run ∈ reads.newRuns.runs, run.runId = runId ∧ run.isAction ∧
      (runId ∈ cache.liveActionRuns ∨ cache.lastSeenRunTs < run.startTime ∧
        run.isTerminal = false) := by
  rcases ((refresh.watched_iff now).mp watched).1 with old | ⟨run, member, live, action, -, rfl⟩
  · obtain ⟨known, member, rfl, action, -⟩ := refresh.seen_newRuns.accounts.watched runId old
    obtain ⟨run, stored, rfl⟩ := Storage.exists_of_identity member
    exact ⟨run, stored, rfl, action, .inl old⟩
  · obtain ⟨stored, above⟩ := Storage.mem_getRunsSince.mp member
    exact ⟨run, stored, rfl, action, .inr ⟨above, live⟩⟩

theorem above_of_watched (watched : runId ∈ (cache.refresh reads now).1.liveActionRuns)
    (applied : AppliedAfter cache reads batches runId) {run} (member : run ∈ after.runs)
    (same : run.runId = runId) : cache.cursorAfter reads < run.startTime := by
  by_contra notAbove
  obtain ⟨first, stored, rfl, action, source⟩ := refresh.watched_from now watched
  have seen := refresh.seen_newRuns
  obtain ⟨-, sameStart, -, sameKind⟩ := fields_of_identity (refresh.identity_eq member stored same)
  have unended := ((refresh.watched_iff now).mp watched).2
  -- a watched run that has ended by the read of the watched runs is dropped
  have new : ∀ ended ∈ reads.watchedRuns.runs, ended.isTerminal → ended.runId = first.runId →
      first.isTerminal = false ∧ cache.lastSeenRunTs < first.startTime ∧
        first.runId ∉ cache.liveActionRuns := by
    grind [mem_getRunsByIds, Finmap.mem_keys, watchedRuns]
  have between := refresh.between
  rcases applied with earlier | ⟨ended, applies, sameId⟩
  · have term := seen.terminal_of_applied stored earlier
    have inRead := seen.later stored (between.newRuns_trackedRuns.trans
      (between.completedRuns.trans between.watchedRuns)) term
    rw [(new first inRead term rfl).1] at term
    cases term
  · have term := ended.terminal_of_effects applies.1
    obtain ⟨inRead, final⟩ := refresh.stored_of_applies applies
    obtain ⟨live, above, unwatched⟩ := new ended inRead term sameId
    have endedIs : ended = run := refresh.final.eq_of_runId final member (sameId.trans same.symm)
    obtain ⟨-, -, ⟨newRun, -⟩ | ⟨-, ⟨swept, -⟩ | ⟨found, done⟩ | ⟨watched, -⟩⟩⟩ := applies
    · rw [← seen.wellFormed.eq_of_runId (mem_getRunsSince.mp newRun).1 stored sameId,
        term] at live
      cases live
    · obtain ⟨stored', tracked⟩ := mem_getRunsByIds.mp swept
      obtain ⟨asset, tracked⟩ := cache.mem_allTrackedRunIds.mp tracked
      have noAct := (refresh.seen_trackedRuns.of_tracked stored' tracked).1
      grind
    · have overtaken : AssetConditionCache.Overtaken reads first := by
        have := (refresh.new_of_below member (by omega)).2
        simpa only [AssetConditionCache.Overtaken, sameStart] using this
      have settled := refresh.settles.completed first stored live overtaken
        (refresh.reported_of_completed (sameId ▸ done)) ended found sameId term
      grind
    · simp_all

end Watching

section Marks

variable (now : Int) {runId : String}

def marks (cache : AssetConditionCache) (reads : RefreshReads) (now : Int) : HashMap String Int :=
  insertAll cache.appliedRunIds (cache.fetchRefreshDelta reads now).appliedRuns

omit refresh in
theorem lookup_refresh_applied {startTime} :
    (cache.refresh reads now).1.appliedRunIds.lookup runId = some startTime ↔
      (marks cache reads now).lookup runId = some startTime ∧ cache.cursorAfter reads <
        startTime := by
  have applied : (cache.refresh reads now).1.appliedRunIds = retain (marks cache reads now)
      fun _ startTime => cache.cursorAfter reads < startTime := by
    refine (cache.applyRefreshDelta_applied _).trans ?_
    rw [cache.fetched_newLastSeenRunTs reads now]
    rfl
  simp only [applied, lookup_retain, Option.filter_eq_some_iff, decide_eq_true_eq]

theorem marked_after {startTime} (marked : (marks cache reads now).lookup runId = some startTime) :
    ∃ run ∈ after.runs, run.runId = runId ∧ run.startTime = startTime ∧ run.isTerminal ∧
      (run.hasEffects → AppliedAfter cache reads batches runId) := by
  rcases lookup_insertAll marked with old | entry
  · obtain ⟨run, member, sameId, sameStart, term, applied⟩ :=
      refresh.seen_newRuns.accounts.marked runId startTime old
    exact ⟨run, refresh.seen_newRuns.final member term, sameId, sameStart, term,
      fun effects => .inl (applied effects)⟩
  · rw [(cache.fetched_runs reads now).1.appliedRuns] at entry
    obtain ⟨run, rfl, rfl, applies | ⟨term, new | tracked | watched⟩⟩ := cache.has_mark reads entry
    · exact ⟨run, (refresh.stored_of_applies applies).2, rfl, rfl,
        run.terminal_of_effects applies.1, fun _ => .inr ⟨run, applies, rfl⟩⟩
    · exact ⟨run, refresh.seen_newRuns.final (mem_getRunsSince.mp new).1 term, rfl, rfl,
        term, refresh.applied_of_new new⟩
    · exact ⟨run, refresh.seen_trackedRuns.final (mem_getRunsByIds.mp tracked).1 term,
        rfl, rfl, term, refresh.applied_of_tracked tracked⟩
    · exact ⟨run, refresh.seen_watchedRuns.final (mem_getRunsByIds.mp watched).1 term,
        rfl, rfl, term, refresh.applied_of_watched watched⟩

theorem remembered_after {run} (member : run ∈ after.runs)
    (applied : AppliedAfter cache reads batches run.runId)
    (above : cache.cursorAfter reads < run.startTime) :
    run.runId ∈ (cache.refresh reads now).1.appliedRunIds := by
  have marked : run.runId ∈ marks cache reads now := by
    refine (mem_insertAll _ _ _).mpr ?_
    rcases applied with earlier | ⟨ended, applies, same⟩
    · have advanced := refresh.accounts.advance refresh.wellFormed refresh.between.through
        refresh.orderly
      have := cache.le_cursorAfter reads
      exact .inl (advanced.remembered run member earlier (by omega))
    · refine .inr ⟨ended.startTime, ?_⟩
      rw [(cache.fetched_runs reads now).1.appliedRuns, ← same]
      exact applies.has_entries cache reads (.inr ⟨applies.1, .inr rfl⟩)
  obtain ⟨startTime, found⟩ := Finmap.mem_iff.mp marked
  obtain ⟨known, knownMem, sameId, rfl, -⟩ := refresh.marked_after now found
  rw [refresh.final.eq_of_runId knownMem member sameId] at found
  exact Finmap.mem_iff.mpr ⟨run.startTime, (lookup_refresh_applied now).mpr ⟨found, above⟩⟩

end Marks

section Delivery

variable (now : Int) {run : RunRecord}

theorem settled_of_ended {ended} (member : run ∈ after.runs)
    (seen : SeenBy storage after cache batches) (stored : ended ∈ storage.runs)
    (term : ended.isTerminal) (same : ended.runId = run.runId)
    (applied : ended.hasEffects → AppliedAfter cache reads batches ended.runId) :
    AppliedAfter cache reads batches run.runId ∨ run.isTerminal ∧ run.hasEffects = false := by
  obtain rfl := refresh.final.eq_of_runId (seen.final stored term) member same
  cases effects : ended.hasEffects with
  | true => exact .inl (applied effects)
  | false => exact .inr ⟨term, rfl⟩

theorem settled_of_swept (member : run ∈ after.runs)
    (swept : run.runId ∈ cache.sweptTerminal reads) :
    AppliedAfter cache reads batches run.runId ∨ run.isTerminal ∧ run.hasEffects = false := by
  rcases (cache.mem_sweptTerminal reads).mp swept with ⟨ended, tracked, term, same⟩ |
    ⟨ended, watched, term, same⟩
  · exact refresh.settled_of_ended member refresh.seen_trackedRuns (mem_getRunsByIds.mp tracked).1
      term
      same.symm (refresh.applied_of_tracked tracked)
  · exact refresh.settled_of_ended member refresh.seen_watchedRuns (mem_getRunsByIds.mp watched).1
      term
      same.symm (refresh.applied_of_watched watched)

theorem applied_of_ended (member : run ∈ reads.newRuns.runs) (effects : run.hasEffects)
    (covers : run.nodeNames ≠ []) : AppliedAfter cache reads batches run.runId := by
  have seen := refresh.seen_newRuns
  have term := run.terminal_of_effects effects
  have between := refresh.between
  by_cases above : cache.lastSeenRunTs < run.startTime
  · exact refresh.applied_of_new (mem_getRunsSince.mpr ⟨member, above⟩) effects
  · rcases seen.accounts.delivered run member (by omega) covers with applied | ⟨-, noEffects⟩ |
      ⟨-, watched⟩ | ⟨-, ⟨asset, tracked⟩, -⟩
    · exact .inl applied
    · rw [noEffects] at effects
      cases effects
    · exact refresh.applied_of_watched (mem_getRunsByIds.mpr ⟨seen.later member
        (between.newRuns_trackedRuns.trans (between.completedRuns.trans between.watchedRuns)) term,
        Finmap.mem_keys.mpr watched⟩) effects
    · exact refresh.applied_of_tracked (mem_getRunsByIds.mpr ⟨seen.later member
        between.newRuns_trackedRuns term, cache.mem_allTrackedRunIds.mpr ⟨asset, tracked⟩⟩) effects

theorem tracked_source (member : run ∈ reads.newRuns.runs) (live : run.isTerminal = false)
    (noAct : run.isAction = false) (covers : run.nodeNames ≠ []) :
    (∃ asset ∈ run.nodeNames, run.runId ∈ cache.trackedRunIds asset ∨
        cache.lastSeenRunTs < run.startTime) ∧
      ∀ asset ∈ run.nodeNames, reads.newRuns.observed asset = false →
        run.runId ∈ cache.trackedRunIds asset ∨ cache.lastSeenRunTs < run.startTime := by
  have seen := refresh.seen_newRuns
  by_cases above : cache.lastSeenRunTs < run.startTime
  · obtain ⟨asset, covered⟩ := List.exists_mem_of_ne_nil _ covers
    exact ⟨⟨asset, covered, .inr above⟩, fun _ _ _ => .inr above⟩
  · rcases seen.accounts.delivered run member (by omega) covers with applied | ⟨term, -⟩ |
      ⟨action, -⟩ | ⟨-, ⟨asset, tracked⟩, all⟩
    · rw [seen.terminal_of_applied member applied] at live
      cases live
    · rw [term] at live
      cases live
    · rw [action] at noAct
      cases noAct
    · exact ⟨⟨asset, (seen.of_tracked member tracked).2.1, .inl tracked⟩,
        fun asset covered unseen => .inl (all asset covered unseen)⟩

theorem tracked_after (member : run ∈ reads.newRuns.runs) (live : run.isTerminal = false)
    (noAct : run.isAction = false) (covers : run.nodeNames ≠ [])
    (overtaken : AssetConditionCache.Overtaken reads run)
    (unswept : run.runId ∉ cache.sweptTerminal reads) :
    (∃ asset, run.runId ∈ (cache.refresh reads now).1.trackedRunIds asset) ∧
      ∀ asset ∈ run.nodeNames, after.observed asset = false →
        run.runId ∈ (cache.refresh reads now).1.trackedRunIds asset := by
  have between := refresh.between
  obtain ⟨⟨asset, covered, source⟩, all⟩ := refresh.tracked_source member live noAct covers
  have kept : ∀ asset ∈ run.nodeNames, asset ∉ cache.observedAssets reads →
      run.runId ∈ cache.trackedRunIds asset ∨ cache.lastSeenRunTs < run.startTime →
      run.runId ∈ (cache.refresh reads now).1.trackedRunIds asset := by
    intro asset covered unobserved source
    exact refresh.tracked_kept now member live unswept unobserved
      (source.imp_right fun above => ⟨above, noAct, covered⟩)
  have toObservations : StorageSteps reads.newRuns reads.observations :=
    between.newRuns_trackedRuns.trans <| between.trackedRuns_built.trans <|
      between.deletions.trans <|
      between.invalidatedRecords.trans <| between.backfills.trans between.observations
  have unseenFirst := (toObservations.precedes refresh.seen_newRuns.wellFormed).2
  have unseenLast := (refresh.seenBy (between.newRuns.trans toObservations)
    (between.observedRecords.trans between.after)).precedes
  refine ⟨?_, fun asset covered unseen => ?_⟩
  · by_cases found : ∃ asset ∈ run.nodeNames, asset ∈ cache.observedAssets reads
    · obtain ⟨other, otherCovered, unseen⟩ :=
        refresh.settles.observed run member live noAct overtaken found
      refine ⟨other, kept other otherCovered (fun observed => ?_)
        (all other otherCovered (unseenFirst.unobserved unseen))⟩
      rw [cache.observed_of_mem reads observed] at unseen
      cases unseen
    · exact ⟨asset, kept asset covered (fun observed => found ⟨asset, covered, observed⟩) source⟩
  · refine kept asset covered (fun observed => ?_)
      (all asset covered (unseenFirst.unobserved (unseenLast.unobserved unseen)))
    have := cache.observed_of_mem reads observed
    rw [unseenLast.unobserved unseen] at this
    cases this

theorem delivered_after (member : run ∈ after.runs)
    (below : run.startTime ≤ cache.cursorAfter reads) (covers : run.nodeNames ≠ []) :
    AppliedAfter cache reads batches run.runId ∨ (run.isTerminal ∧ run.hasEffects = false) ∨
      (run.isAction ∧ run.runId ∈ (cache.refresh reads now).1.liveActionRuns) ∨
      (run.isAction = false ∧
        (∃ asset, run.runId ∈ (cache.refresh reads now).1.trackedRunIds asset) ∧
        ∀ asset ∈ run.nodeNames, after.observed asset = false →
          run.runId ∈ (cache.refresh reads now).1.trackedRunIds asset) := by
  obtain ⟨⟨first, stored, ident⟩, overtaken⟩ := refresh.new_of_below member below
  obtain ⟨sameId, sameStart, sameNames, sameKind⟩ := fields_of_identity ident
  have seen := refresh.seen_newRuns
  cases live : first.isTerminal with
  | true =>
    exact (refresh.settled_of_ended member seen stored live sameId fun effects =>
      refresh.applied_of_ended stored effects (sameNames ▸ covers)).imp_right .inl
  | false =>
    by_cases swept : run.runId ∈ cache.sweptTerminal reads
    · exact (refresh.settled_of_swept member swept).imp_right .inl
    rw [← sameId] at swept ⊢
    rw [← sameNames] at covers ⊢
    rw [← sameKind]
    cases action : first.isAction with
    | true =>
      refine .inr (.inr (.inl ⟨rfl, (refresh.watched_iff now).mpr ⟨?_, ?_⟩⟩))
      · by_cases above : cache.lastSeenRunTs < first.startTime
        · grind [mem_getRunsSince, newRuns]
        · rcases seen.accounts.delivered first stored (by omega) covers with applied | ⟨term, -⟩ |
            ⟨-, watched⟩ | ⟨noAct, -⟩
          · rw [seen.terminal_of_applied stored applied] at live
            cases live
          · rw [term] at live
            cases live
          · exact .inl watched
          simp_all
      · grind [mem_sweptTerminal]
    | false =>
      have overtakenFirst : AssetConditionCache.Overtaken reads first := by
        simpa only [AssetConditionCache.Overtaken, sameStart] using overtaken
      exact .inr (.inr (.inr ⟨rfl,
        refresh.tracked_after now stored live action covers overtakenFirst swept⟩))

end Delivery

section Records

variable (now : Int) {runId asset : String} {record : AssetRecord}

theorem invalidated_of_applies {run} (applies : cache.AppliesEffects reads run)
    (found : after.records.lookup asset = some record) (named : record.lastRunId = some run.runId) :
    asset ∈ cache.invalidatedBy reads := by
  obtain ⟨event, stored, kind, onAsset, byRun⟩ := materializedByRun_iff.mp
    (refresh.final.recorded asset record run.runId found named)
  obtain ⟨builder, builderMember, same, covers⟩ := refresh.final.built event stored kind
  have ident := refresh.final.eq_of_identity builderMember
    (mem_identities (refresh.stored_of_applies applies).2) (same.trans byRun)
  have covered : asset ∈ run.nodeNames := by
    have := covers asset onAsset
    rw [ident] at this
    exact this
  exact applies.has_entries cache reads (.inl ⟨asset, covered, rfl⟩)

theorem recorded_after (applied : AppliedAfter cache reads batches runId)
    (unseen : after.observed asset = false) (found : after.records.lookup asset = some record)
    (named : record.lastRunId = some runId) :
    ∃ cached, (cache.refresh reads now).1.records.lookup asset = some cached ∧
      cached.lastTimestamp = record.lastTimestamp := by
  have between := refresh.between
  have seenInvalidated := refresh.seen_invalidatedRecords
  -- the run has ended by the read of the invalidated records
  have ended : ∃ run ∈ reads.invalidatedRecords.runs, run.runId = runId ∧ run.isTerminal := by
    rcases applied with earlier | ⟨run, applies, same⟩
    · exact seenInvalidated.accounts.appliedRun earlier
    · have term := run.terminal_of_effects applies.1
      exact ⟨run, refresh.seen_watchedRuns.later (refresh.stored_of_applies applies).1
        (between.built.trans (between.deletions.trans between.invalidatedRecords)) term, same, term⟩
  obtain ⟨run, member, rfl, term⟩ := ended
  obtain ⟨invalidated, invalidatedFound, invalidatedTime⟩ :=
    seenInvalidated.record_at member term unseen found named
  have toObserved : StorageSteps reads.invalidatedRecords reads.observedRecords :=
    between.backfills.trans (between.observations.trans between.observedRecords)
  have seenObserved := refresh.seenBy (between.before_invalidatedRecords.trans toObserved)
    between.after
  obtain ⟨observed, observedFound, observedTime⟩ := seenObserved.record_at
    (seenInvalidated.later member toObserved term) term unseen found named
  have rows : (cache.refresh reads now).1.records.lookup asset =
      ((cache.fetchRefreshDelta reads now).recordUpdates.lookup asset).or
        (cache.records.lookup asset) := by
    rw [← lookup_extend, ← applyRefreshDelta_records]
    rfl
  rw [rows]
  cases updated : (cache.fetchRefreshDelta reads now).recordUpdates.lookup asset with
  | some fetched =>
    refine ⟨fetched, rfl, ?_⟩
    rcases cache.fetched_record reads now updated with atObserved | atInvalidated | ⟨atFresh,
      missing⟩
    · simp_all
    · simp_all
    · rcases applied with earlier | ⟨other, applies, same⟩
      · obtain ⟨known, knownMem, same, knownTerminal⟩ :=
          refresh.seen_freshRecords.accounts.appliedRun earlier
        obtain ⟨fresh, freshFound, freshTime⟩ := refresh.seen_freshRecords.record_at knownMem
          knownTerminal unseen found (same.symm ▸ named)
        simp_all
      · grind [invalidated_of_applies]
  | none =>
    rcases applied with earlier | ⟨other, applies, same⟩
    · have advanced := refresh.accounts.advance refresh.wellFormed between.through refresh.orderly
      exact advanced.recorded run.runId earlier asset record unseen found named
    · grind [fetched_of_invalidated, invalidated_of_applies, Finmap.lookup_eq_none]

end Records

theorem accounts_refresh (now : Int) :
    Accounts after (cache.refresh reads now).1
      (batches ++ [(cache.fetchRefreshDelta reads now).effects]) := by
  have cursor : (cache.refresh reads now).1.lastSeenRunTs = cache.cursorAfter reads := by
    rw [← cache.fetched_newLastSeenRunTs reads now]
    exact cache.applyRefreshDelta_lastSeenRunTs _
  have effects : ∀ run ∈ (cache.fetchRefreshDelta reads now).effects, cache.AppliesEffects
    reads run := by
    intro run member
    rw [(cache.fetched_runs reads now).1.effects] at member
    exact (cache.has_effect reads).mp member
  have applied := appliedIn_refresh cache reads batches now
  have advanced := refresh.accounts.advance refresh.wellFormed refresh.between.through
    refresh.orderly
  have ident : ∀ run ∈ reads.newRuns.runs, run.identity ∈ after.identities := fun run member =>
    refresh.seen_newRuns.precedes.identities.subset (mem_identities member)
  have above : ∀ run ∈ reads.newRuns.runs, (∀ {final}, final ∈ after.runs →
      final.runId = run.runId →
      cache.cursorAfter reads < final.startTime) →
      (cache.refresh reads now).1.lastSeenRunTs < run.startTime := by
    intro run member ahead
    obtain ⟨final, finalMember, sameIdentity⟩ := exists_of_identity (ident run member)
    obtain ⟨sameId, sameStart, -⟩ := fields_of_identity sameIdentity
    rw [cursor]
    exact sameStart ▸ ahead finalMember sameId
  refine ⟨cache.applyRefreshDelta_pendingRuns _ refresh.accounts.unpending, ?_, ?_, ?_, ?_, ?_,
    ?_, ?_, ?_, ?_⟩
  · grind [trails_after, Storage.Trails, identities]
  · intro batch member run inside
    rcases List.mem_append.mp member with old | last
    · exact advanced.known batch old run inside
    · rw [List.mem_singleton.mp last] at inside
      exact ⟨(refresh.stored_of_applies (effects run inside)).2, (effects run inside).1⟩
  · refine List.pairwise_append.mpr ⟨refresh.accounts.once, List.pairwise_singleton _ _, ?_⟩
    grind [unapplied_of_applies, AppliedIn, Accounts]
  · intro asset runId tracked
    obtain ⟨run, member, same, noAct, covered, -⟩ := refresh.tracked_from now tracked
    exact ⟨run.identity, ident run member, same, noAct, covered, fun isApplied => above run member
      fun final sameId => refresh.above_of_tracked now tracked ((applied runId).mp isApplied) final
        (sameId.trans same)⟩
  · intro runId watched
    obtain ⟨run, member, same, action, -⟩ := refresh.watched_from now watched
    exact ⟨run.identity, ident run member, same, action, fun isApplied => above run member
      fun final sameId => refresh.above_of_watched now watched ((applied runId).mp isApplied) final
        (sameId.trans same)⟩
  · intro runId startTime marked
    grind [marked_after, lookup_refresh_applied]
  · grind [remembered_after]
  · intro run member below covers
    exact (refresh.delivered_after now member (cursor ▸ below) covers).imp_left (applied _).mpr
  · intro runId isApplied asset record unseen found named
    exact refresh.recorded_after now ((applied _).mp isApplied) unseen found named

end SettlingRefresh

def applications (batches : List (List RunRecord)) (runId : String) : Nat :=
  batches.countP fun batch => batch.any fun run => run.runId = runId

section Counting

variable {batches : List (List RunRecord)} {runId : String}

theorem applications_pos : 0 < applications batches runId ↔ AppliedIn batches runId := by
  simp [applications, List.countP_pos_iff, AppliedIn]

theorem applications_le_one (once : batches.Pairwise fun early later =>
    ∀ run ∈ early, ∀ other ∈ later, run.runId ≠ other.runId) : applications batches runId ≤ 1 := by
  induction once with
  | nil => exact Nat.zero_le 1
  | @cons batch rest apart _ ih => grind [applications_pos, applications, AppliedIn]

end Counting

section Run

variable {partitioned : Finset String} {needsTickTags : Bool} {load : LoadReads}
  {start first begun now final : Storage} {cache : AssetConditionCache}
  {batches : List (List RunRecord)}

theorem History.accounts
    (history : History ((fresh partitioned needsTickTags).initialLoad load)
      AssetConditionCache.Settles
      start first begun now cache batches)
    (grown : StorageSteps {} start) (loads : load.Between start first) (settles : load.Settles)
    (steps : StorageSteps now final) (orderly : final.Orderly) :
    Accounts now cache (load.appliedRuns :: batches) ∧
      ∀ run ∈ begun.runs, run.hasEffects → run.nodeNames ≠ [] →
        AppliedIn (load.appliedRuns :: batches) run.runId := by
  have startWellFormed := (grown.precedes wellFormed_empty).1
  have loaded : StorageSteps {} first := grown.trans loads.through
  induction history with
  | load =>
    have wellFormed := (loaded.precedes wellFormed_empty).1
    have load : SettlingLoad start first load :=
      ⟨loads, startWellFormed, orderly.earlier (steps.precedes wellFormed).2, settles⟩
    exact ⟨load.accounts_initialLoad _ _,
      fun run member effects _ => load.applied_of_ended member effects⟩
  | commit history step ih =>
    obtain ⟨accounts, delivered⟩ := ih (.head step steps)
    have wellFormed := history.wellFormed loaded
    have later := (steps.precedes (step.wellFormed wellFormed)).2
    exact ⟨accounts.advance wellFormed (.single step) (orderly.earlier later), delivered⟩
  | @refresh begun before after cache batches history reads between meets time ih =>
    obtain ⟨accounts, -⟩ := ih (between.through.trans steps)
    have wellFormed := history.wellFormed loaded
    have later := (steps.precedes (between.through.precedes wellFormed).1).2
    have refresh : SettlingRefresh before after cache reads (load.appliedRuns :: batches) :=
      ⟨between, wellFormed, orderly.earlier later, accounts, meets⟩
    rw [← List.cons_append]
    refine ⟨refresh.accounts_refresh time, fun run member effects covers => ?_⟩
    refine (appliedIn_refresh cache reads _ time run.runId).mpr
      (refresh.applied_of_ended ?_ effects covers)
    exact (between.newRuns.precedes wellFormed).2.terminal run member
      (run.terminal_of_effects effects)

end Run

section Examples

theorem AssetConditionCache.settles_at (cache : AssetConditionCache) {storage}
    (wellFormed : storage.WellFormed) (unobserved : ∀ asset, storage.observed asset = false) :
    cache.Settles (.at storage) where
  recorded := by
    intro asset _ observed
    exact absurd observed (by simp [RefreshReads.at, unobserved asset])
  completed := by
    intro run member live _ _ ended found same terminal
    have equal : ended = run := wellFormed.eq_of_runId found member same
    rw [equal, live] at terminal
    cases terminal
  observed := by
    rintro run _ _ _ _ ⟨asset, covered, _⟩
    exact ⟨asset, covered, unobserved asset⟩

def twoRuns (status : RunStatus) (endTime : Option Int) : Storage where
  runs :=
    [{ runId := "first", nodeNames := ["asset"], status := status, startTime := 1, endTime := endTime },
      { runId := "second", nodeNames := ["other"], status := .started, startTime := 2 }]

theorem twoRuns_grown (status : RunStatus) : StorageSteps {} (twoRuns status none) :=
  .head (.submit _ (by simp) Int.one_pos) (.head (.submit _ (by simp) (by decide)) .refl)

theorem twoRuns_advance {old status : RunStatus} {endTime : Option Int} (live : old.isTerminal = false) :
    StorageStep (twoRuns old none) (twoRuns status endTime) :=
  .advance { runId := "first", nodeNames := ["asset"], status := old, startTime := 1 }
    (List.mem_cons_self ..) live status endTime

theorem twoRuns_orderly (status : RunStatus) (endTime : Option Int) : (twoRuns status endTime).Orderly := by
  simp [Storage.Orderly, identities, twoRuns, identity]

def twoLive : Storage :=
  twoRuns .started none

def firstBuilt : Storage :=
  { twoLive with
    records := (∅ : HashMap String AssetRecord).insert "asset" { assetKey := "asset" }
      |>.insert "asset"
      { assetKey := "asset", lastRunId := some "first", lastTimestamp := some 3 }
    events := [⟨.materialization, some "asset", "first", 3, none⟩] }

def firstEnded : Storage :=
  { firstBuilt with runs := (twoRuns .success (some 4)).runs }

theorem twoLive_firstBuilt : StorageSteps twoLive firstBuilt := by
  refine .head (.register "asset" { assetKey := "asset" } rfl rfl) ?_
  refine .head (.emit ⟨.materialization, some "asset", "first", 3, none⟩ _ (List.mem_cons_self ..) rfl
    rfl (by simp) (by simp)) ?_
  exact .head (.recordMaterialization _ (List.mem_singleton_self _) rfl "asset" rfl _
    (List.mem_cons_self ..) rfl rfl { assetKey := "asset" } (by decide) rfl none none) .refl

theorem firstBuilt_firstEnded : StorageStep firstBuilt firstEnded :=
  .advance { runId := "first", nodeNames := ["asset"], status := .started, startTime := 1 }
    (List.mem_cons_self ..) rfl .success (some 4)

def endsBetween : RefreshReads :=
  { RefreshReads.at firstEnded with
    newRuns := firstBuilt
    freshRecords := firstBuilt
    outcomes := firstBuilt
    trackedRuns := firstBuilt }

theorem endsBetween_between : endsBetween.Between firstBuilt firstEnded :=
  { RefreshReads.between_at firstEnded with
    newRuns := .refl
    freshRecords := .refl
    outcomes := .refl
    trackedRuns := .refl
    completedRuns := .single firstBuilt_firstEnded }

def firstObserved : Storage :=
  { twoLive with
    records := (∅ : HashMap String AssetRecord).insert "asset" { assetKey := "asset" }
      |>.insert "asset"
      { assetKey := "asset", lastTimestamp := some 3 }
    events := [⟨.observation, some "asset", "", 3, none⟩] }

def observedEnded : Storage :=
  { firstObserved with runs := (twoRuns .failure (some 4)).runs }

theorem twoLive_firstObserved : StorageSteps twoLive firstObserved := by
  refine .head (.register "asset" { assetKey := "asset" } rfl rfl) ?_
  refine .head (.observe ⟨.observation, some "asset", "", 3, none⟩ rfl) ?_
  exact .head (.recordObservation _ (List.mem_singleton_self _) rfl "asset" rfl { assetKey := "asset" }
    (by decide) none) .refl

theorem firstObserved_observedEnded : StorageStep firstObserved observedEnded :=
  .advance { runId := "first", nodeNames := ["asset"], status := .started, startTime := 1 }
    (List.mem_cons_self ..) rfl .failure (some 4)

/-- A load with a storage step right after its read of the started runs. -/
def stepInLoad (before after : Storage) : LoadReads :=
  { LoadReads.at after with
    newest := before
    ties := before
    latestObservation := before
    records := before
    topology := before
    started := before }

theorem stepInLoad_between {before after : Storage} (step : StorageStep before after) :
    (stepInLoad before after).Between before after :=
  { LoadReads.between_at after with
    newest := .refl
    ties := .refl
    latestObservation := .refl
    records := .refl
    topology := .refl
    started := .refl
    notStarted := .single step }

/-- `first` fails after the load has read the live runs and before it reads the failed ones. -/
def failsInLoad : LoadReads :=
  let before := twoRuns .started none
  { stepInLoad before (twoRuns .failure (some 4)) with notStarted := before, queued := before }

theorem failsInLoad_between :
    failsInLoad.Between (twoRuns .started none) (twoRuns .failure (some 4)) :=
  { stepInLoad_between (twoRuns_advance rfl) with
    notStarted := .refl
    queued := .refl
    failedRuns := .single (twoRuns_advance rfl) }

end Examples

end Rivers
