import Rivers.Cache.FailureFloors
import Rivers.Cache.PlanEntries

/-! The account that a cache keeps of runs. -/

namespace Rivers

open FiniteMap Fold AssetConditionCache Storage

def AppliedIn (batches : List (List RunRecord)) (runId : String) : Prop :=
  ∃ batch ∈ batches, ∃ run ∈ batch, run.runId = runId

theorem appliedIn_append {batches batch runId} :
    AppliedIn (batches ++ [batch]) runId ↔
      AppliedIn batches runId ∨ ∃ run ∈ batch, run.runId = runId := by
  simp [AppliedIn, or_and_right, exists_or]

def Storage.Orderly (storage : Storage) : Prop :=
  storage.identities.Pairwise fun earlier later => earlier.startTime ≤ later.startTime

theorem Storage.Orderly.earlier {earlier later : Storage} (orderly : later.Orderly)
    (pre : earlier.Precedes later) : earlier.Orderly :=
  orderly.sublist pre.identities.sublist

def Storage.Trails (storage : Storage) (cursor : Int) : Prop :=
  cursor ≤ 0 ∨ ∃ run ∈ storage.identities, cursor < run.startTime

structure Accounts (storage : Storage) (cache : AssetConditionCache)
    (batches : List (List RunRecord)) :
    Prop where
  unpending : cache.pendingRuns = ∅
  above : storage.Trails cache.lastSeenRunTs
  known : ∀ batch ∈ batches, ∀ run ∈ batch, run ∈ storage.runs ∧ run.hasEffects
  once : batches.Pairwise fun earlier later => ∀ run ∈ earlier, ∀ other ∈
    later, run.runId ≠ other.runId
  tracked : ∀ asset runId, runId ∈ cache.trackedRunIds asset →
    ∃ run ∈ storage.identities, run.runId = runId ∧ run.isAction = false ∧ asset ∈ run.nodeNames ∧
      (AppliedIn batches runId → cache.lastSeenRunTs < run.startTime)
  watched : ∀ runId ∈ cache.liveActionRuns,
    ∃ run ∈ storage.identities, run.runId = runId ∧ run.isAction ∧
      (AppliedIn batches runId → cache.lastSeenRunTs < run.startTime)
  marked : ∀ runId startTime, cache.appliedRunIds.lookup runId = some startTime →
    ∃ run ∈ storage.runs, run.runId = runId ∧ run.startTime = startTime ∧ run.isTerminal ∧
      (run.hasEffects → AppliedIn batches runId)
  remembered : ∀ run ∈ storage.runs, AppliedIn batches run.runId →
    cache.lastSeenRunTs < run.startTime → run.runId ∈ cache.appliedRunIds
  delivered : ∀ run ∈ storage.runs, run.startTime ≤ cache.lastSeenRunTs → run.nodeNames ≠ [] →
    AppliedIn batches run.runId ∨ (run.isTerminal ∧ run.hasEffects = false) ∨
      (run.isAction ∧ run.runId ∈ cache.liveActionRuns) ∨
      (run.isAction = false ∧ (∃ asset, run.runId ∈ cache.trackedRunIds asset) ∧
        ∀ asset ∈ run.nodeNames, storage.observed asset = false →
          run.runId ∈ cache.trackedRunIds asset)
  recorded : ∀ runId, AppliedIn batches runId → ∀ asset record, storage.observed asset = false →
    storage.records.lookup asset = some record → record.lastRunId = some runId →
    ∃ cached, cache.records.lookup asset = some cached ∧ cached.lastTimestamp = record.lastTimestamp

section Later

variable {earlier later : Storage} {cache : AssetConditionCache} {batches : List (List RunRecord)}

theorem Accounts.appliedRun (accounts : Accounts earlier cache batches) {runId}
    (applied : AppliedIn batches runId) :
    ∃ run ∈ earlier.runs, run.runId = runId ∧ run.isTerminal := by
  obtain ⟨batch, mem, run, inside, same⟩ := applied
  obtain ⟨stored, effects⟩ := accounts.known batch mem run inside
  exact ⟨run, stored, same, run.terminal_of_effects effects⟩

theorem Storage.exists_of_identity {storage : Storage} {ident} (mem : ident ∈ storage.identities) :
    ∃ run ∈ storage.runs, run.identity = ident :=
  List.mem_map.mp mem

theorem Storage.Trails.was_there {cursor : Int} (trails : earlier.Trails cursor)
    (pre : earlier.Precedes later) (wellFormed : later.WellFormed) (orderly : later.Orderly) {run}
    (mem : run ∈ later.runs) (below : run.startTime ≤ cursor) :
    ∃ old ∈ earlier.runs, old.identity = run.identity := by
  obtain ⟨rest, split⟩ := pre.identities
  have inside := mem_identities mem
  rw [← split] at inside
  rcases List.mem_append.mp inside with old | new
  · exact exists_of_identity old
  · exfalso
    rcases trails with low | ⟨first, firstMem, above⟩
    · grind [RunRecord.identity, WellFormed]
    · grind [Orderly, RunRecord.identity]

theorem Accounts.advance (accounts : Accounts earlier cache batches)
    (wellFormed : earlier.WellFormed) (steps : StorageSteps earlier later)
    (orderly : later.Orderly) : Accounts later cache
    batches := by
  obtain ⟨laterWellFormed, pre⟩ := steps.precedes wellFormed
  have ident : ∀ run ∈ earlier.identities, run ∈ later.identities :=
    fun run mem => pre.identities.subset mem
  refine ⟨accounts.unpending, ?_, ?_, accounts.once, ?_, ?_, ?_, ?_, ?_, ?_⟩
  · grind [Storage.Trails, Accounts]
  · intro batch mem run inside
    obtain ⟨stored, effects⟩ := accounts.known batch mem run inside
    exact ⟨pre.terminal run stored (run.terminal_of_effects effects), effects⟩
  · grind [tracked]
  · grind [watched]
  · intro runId startTime marked
    grind [marked, Storage.Precedes.terminal]
  · intro run mem applied above
    obtain ⟨old, stored, sameId, term⟩ := accounts.appliedRun applied
    have same := laterWellFormed.eq_of_runId (pre.terminal old stored term) mem sameId
    exact accounts.remembered run (same ▸ stored) applied above
  · intro run mem delivered covers
    obtain ⟨old, stored, same⟩ := accounts.above.was_there pre laterWellFormed orderly mem delivered
    obtain ⟨sameId, sameStart, sameNames, sameKind⟩ := RunRecord.fields_of_identity same
    rcases accounts.delivered old stored (sameStart ▸ delivered) (sameNames ▸ covers) with
      applied | ⟨term, noEffects⟩ | ⟨action, watched⟩ | ⟨noAct, some, all⟩
    · exact .inl (sameId ▸ applied)
    · have equal := laterWellFormed.eq_of_runId (pre.terminal old stored term) mem sameId
      exact .inr (.inl (equal ▸ ⟨term, noEffects⟩))
    · exact .inr (.inr (.inl ⟨sameKind ▸ action, sameId ▸ watched⟩))
    · refine .inr (.inr (.inr ⟨sameKind ▸ noAct, sameId ▸ some, fun asset covered unseen => ?_⟩))
      exact sameId ▸ all asset (sameNames ▸ covered) (pre.unobserved unseen)
  · intro runId applied asset record unseen found named
    obtain ⟨run, stored, rfl, term⟩ := accounts.appliedRun applied
    obtain ⟨old, oldFound, oldNamed, sameTime⟩ :=
      pre.recorded run stored term asset record found named
    rw [← sameTime unseen]
    exact accounts.recorded run.runId applied asset old (pre.unobserved unseen) oldFound oldNamed

end Later

section Load

namespace LoadReads

variable {reads : LoadReads} {before after : Storage}

/-- The runs whose effects a load writes: those that had ended when it read the ties, the failed
runs it reads for the floors, and the ended runs that a record it has read names. -/
def appliedRuns (reads : LoadReads) : List RunRecord :=
  reads.lastRuns.settledRuns.filter fun run =>
    run ∈ reads.tied.runs ∨ (run.status = .failure ∧ run ∈ reads.failedRuns.runs) ∨
      run.runId ∈ lastRunIds reads.records.records

/-- No run ends in the middle of the load with its effects written, and the three reads of the live
runs miss none that the cursor has passed. -/
structure Settles (reads : LoadReads) : Prop where
  ended : ∀ run ∈ reads.appliedRuns, run ∈ reads.tied.runs
  found : ∀ run ∈ reads.tied.runs, run.isTerminal = false → run.startTime ≤ reads.cursor →
    run.nodeNames ≠ [] → ∃ live ∈ liveRuns reads, live.runId = run.runId

theorem Between.newest_tied (between : reads.Between before after) :
    StorageSteps reads.newest reads.tied := by
  unfold tied
  split
  · exact .refl
  · exact between.ties

theorem Between.tied_records (between : reads.Between before after) :
    StorageSteps reads.tied reads.records := by
  unfold tied
  split
  · exact between.ties.trans (between.latestObservation.trans between.records)
  · exact between.latestObservation.trans between.records

theorem Between.tied_queued (between : reads.Between before after) {storage}
    (live : storage ∈ [reads.started, reads.notStarted, reads.queued]) :
    StorageSteps reads.tied storage ∧ StorageSteps storage reads.queued := by
  have started := between.tied_records.trans (between.topology.trans between.started)
  simp only [List.mem_cons, List.not_mem_nil, or_false] at live
  rcases live with rfl | rfl | rfl
  · exact ⟨started, between.notStarted.trans between.queued⟩
  · exact ⟨started.trans between.notStarted, between.queued⟩
  · exact ⟨started.trans (between.notStarted.trans between.queued), .refl⟩

theorem Between.queued_lastRuns (between : reads.Between before after) :
    StorageSteps reads.queued reads.lastRuns :=
  between.failedRuns.trans <| between.deletions.trans <| between.built.trans between.lastRuns

theorem Between.lastRuns_after (between : reads.Between before after) :
    StorageSteps reads.lastRuns after :=
  between.backfills.trans between.after

theorem Between.records_after (between : reads.Between before after) :
    StorageSteps reads.records after :=
  between.topology.trans <| between.started.trans <| between.notStarted.trans <|
    between.queued.trans <| between.queued_lastRuns.trans between.lastRuns_after

theorem Between.through (between : reads.Between before after) : StorageSteps before after :=
  between.newest.trans <| between.newest_tied.trans <| between.tied_records.trans
    between.records_after

end LoadReads

/-- A load between two storages, with what the reads of its runs have in common. -/
structure SettlingLoad (before after : Storage) (reads : LoadReads) : Prop where
  between : reads.Between before after
  wellFormed : before.WellFormed
  orderly : after.Orderly
  settles : reads.Settles

namespace SettlingLoad

variable {before after : Storage} {reads : LoadReads} (load : SettlingLoad before after reads)

include load

theorem newest_tied : reads.newest.WellFormed ∧ reads.newest.Precedes reads.tied := by
  have wellFormed := (load.between.newest.precedes load.wellFormed).1
  exact ⟨wellFormed, (load.between.newest_tied.precedes wellFormed).2⟩

theorem tied_wellFormed : reads.tied.WellFormed :=
  (load.between.newest_tied.precedes load.newest_tied.1).1

theorem tied_records : reads.records.WellFormed ∧ reads.tied.Precedes reads.records :=
  load.between.tied_records.precedes load.tied_wellFormed

theorem records_after : after.WellFormed ∧ reads.records.Precedes after :=
  load.between.records_after.precedes load.tied_records.1

theorem tied_after : reads.tied.Precedes after :=
  load.tied_records.2.trans load.records_after.2

theorem live_after {run} (live : run ∈ liveRuns reads) :
    run.identity ∈ after.identities ∧ ∀ ended ∈ reads.tied.runs, ended.isTerminal →
    ended.runId ≠ run.runId := by
  obtain ⟨storage, read, stored, isLive⟩ := mem_liveRuns reads live
  obtain ⟨early, late⟩ := load.between.tied_queued read
  obtain ⟨wellFormed, earlier⟩ := early.precedes load.tied_wellFormed
  have rest : StorageSteps storage after :=
    late.trans (load.between.queued_lastRuns.trans load.between.lastRuns_after)
  have later := (rest.precedes wellFormed).2
  refine ⟨later.identities.subset (mem_identities stored), fun ended member terminal same => ?_⟩
  rw [wellFormed.eq_of_runId (earlier.terminal ended member terminal) stored same, isLive] at terminal
  cases terminal

theorem applied_iff {runId} :
    AppliedIn [reads.appliedRuns] runId ↔ ∃ run ∈ reads.tied.runs, run.hasEffects ∧
    run.runId = runId := by
  have steps : StorageSteps reads.tied reads.lastRuns :=
    (load.between.tied_queued (by simp)).1.trans load.between.queued_lastRuns
  have later := (steps.precedes load.tied_wellFormed).2
  constructor
  · rintro ⟨batch, only, run, member, same⟩
    rw [List.mem_singleton.mp only] at member
    have settled := (List.mem_filter.mp member).1
    exact ⟨run, load.settles.ended run member, (List.mem_filter.mp settled).2, same⟩
  · rintro ⟨run, member, effects, same⟩
    refine ⟨_, List.mem_singleton_self _, run,
      List.mem_filter.mpr ⟨List.mem_filter.mpr ⟨?_, effects⟩, ?_⟩, same⟩
    · exact later.terminal run member (run.terminal_of_effects effects)
    · exact decide_eq_true (.inl member)

theorem accounts_initialLoad (parted : Finset String) (needsTickTags : Bool) :
    Accounts after ((fresh parted needsTickTags).initialLoad reads) [reads.appliedRuns] := by
  have loads := (fresh parted needsTickTags).initialLoad_runs reads rfl rfl rfl rfl rfl
  have records := (fresh parted needsTickTags).initialLoad_records reads
  have trails : reads.newest.Trails reads.cursor := by
    unfold LoadReads.cursor
    cases newest : (reads.newest.runs.map (·.startTime)).max? with
    | none => exact .inl (Int.le_refl 0)
    | some start =>
      obtain ⟨run, mem, rfl⟩ := List.mem_map.mp (List.max?_mem newest)
      exact .inr ⟨run.identity, mem_identities mem, Int.sub_one_lt_iff.mpr (Int.le_refl _)⟩
  have newest := load.newest_tied.2.trans load.tied_after
  have unapplied : ∀ run ∈ liveRuns reads, ¬ AppliedIn [reads.appliedRuns] run.runId := by
    intro run live applied
    obtain ⟨ended, member, effects, same⟩ := load.applied_iff.mp applied
    exact (load.live_after live).2 ended member (ended.terminal_of_effects effects) same
  generalize (fresh parted needsTickTags).initialLoad reads = loaded at loads records ⊢
  refine ⟨loads.pendingRuns, ?_, ?_, List.pairwise_singleton _ _, ?_, ?_, ?_, ?_, ?_, ?_⟩
  · rw [loads.lastSeenRunTs]
    exact trails.imp_right fun ⟨run, member, above⟩ => ⟨run, newest.identities.subset member, above⟩
  · intro batch only run member
    rw [List.mem_singleton.mp only] at member
    have effects := (List.mem_filter.mp (List.mem_filter.mp member).1).2
    exact ⟨load.tied_after.terminal run (load.settles.ended run member)
      (run.terminal_of_effects effects), effects⟩
  · intro asset runId tracked
    obtain ⟨run, live, noAct, covered, rfl⟩ := (loads.tracked asset runId).mp tracked
    exact ⟨run.identity, (load.live_after live).1, rfl, noAct, covered,
      fun applied => absurd applied (unapplied run live)⟩
  · intro runId watched
    obtain ⟨run, live, action, rfl⟩ := (loads.watched runId).mp watched
    exact ⟨run.identity, (load.live_after live).1, rfl, action,
      fun applied => absurd applied (unapplied run live)⟩
  · intro runId startTime marked
    rw [loads.appliedRunIds] at marked
    rcases lookup_insertAll marked with none | entry
    · simp at none
    · simp only [LoadReads.marks, List.mem_map, List.mem_filter, mem_getRunsSince,
        Prod.mk.injEq] at entry
      obtain ⟨run, ⟨⟨member, -⟩, term⟩, rfl, rfl⟩ := entry
      exact ⟨run, load.tied_after.terminal run member term, rfl, rfl, term,
        fun effects => load.applied_iff.mpr ⟨run, member, effects, rfl⟩⟩
  · intro run member applied above
    obtain ⟨ended, endedMember, effects, same⟩ := load.applied_iff.mp applied
    have terminal := ended.terminal_of_effects effects
    obtain rfl := load.records_after.1.eq_of_runId
      (load.tied_after.terminal ended endedMember terminal) member same
    rw [loads.appliedRunIds, mem_insertAll]
    refine .inr ⟨ended.startTime, ?_⟩
    simp only [LoadReads.marks, List.mem_map, List.mem_filter, mem_getRunsSince]
    exact ⟨ended, ⟨⟨endedMember, loads.lastSeenRunTs ▸ above⟩, terminal⟩, rfl⟩
  · intro run member below covers
    rw [loads.lastSeenRunTs] at below
    -- a run at or below the cursor was there when the cursor was read
    obtain ⟨first, firstMember, sameFirst⟩ :=
      trails.was_there newest load.records_after.1 load.orderly member below
    obtain ⟨old, stored, sameOld⟩ :=
      exists_of_identity (load.newest_tied.2.identities.subset (mem_identities firstMember))
    obtain ⟨sameId, sameStart, sameNames, sameKind⟩ :=
      RunRecord.fields_of_identity (sameOld.trans sameFirst)
    cases term : old.isTerminal with
    | true =>
      obtain rfl := load.records_after.1.eq_of_runId (load.tied_after.terminal old stored term)
        member sameId
      cases effects : old.hasEffects with
      | true => exact .inl (load.applied_iff.mpr ⟨old, stored, effects, rfl⟩)
      | false => exact .inr (.inl ⟨term, rfl⟩)
    | false =>
      obtain ⟨live, inside, sameLive⟩ :=
        load.settles.found old stored term (sameStart ▸ below) (sameNames ▸ covers)
      have same := load.records_after.1.eq_of_identity (load.live_after inside).1
        (mem_identities member)
        (sameLive.trans sameId)
      obtain ⟨liveId, -, liveNames, liveKind⟩ := RunRecord.fields_of_identity same
      cases action : run.isAction with
      | true =>
        exact .inr (.inr (.inl
          ⟨rfl, (loads.watched _).mpr ⟨live, inside, liveKind ▸ action, liveId⟩⟩))
      | false =>
        have tracked : ∀ asset ∈ run.nodeNames, run.runId ∈ loaded.trackedRunIds asset :=
          fun asset covered => (loads.tracked _ _).mpr
            ⟨live, inside, liveKind ▸ action, liveNames ▸ covered, liveId⟩
        obtain ⟨asset, covered⟩ := List.exists_mem_of_ne_nil _ covers
        exact .inr (.inr (.inr ⟨rfl, ⟨asset, tracked asset covered⟩, fun asset covered _ =>
          tracked asset covered⟩))
  · intro runId applied asset record unseen found named
    obtain ⟨ended, member, effects, rfl⟩ := load.applied_iff.mp applied
    have terminal := ended.terminal_of_effects effects
    obtain ⟨old, oldFound, -, sameTime⟩ := load.records_after.2.recorded ended
      (load.tied_records.2.terminal ended member terminal) terminal asset record found named
    exact ⟨old, records ▸ oldFound, sameTime unseen⟩

theorem applied_of_ended {run} (member : run ∈ before.runs) (effects : run.hasEffects) :
    AppliedIn [reads.appliedRuns] run.runId := by
  have steps : StorageSteps before reads.tied := load.between.newest.trans load.between.newest_tied
  have ended := (steps.precedes load.wellFormed).2.terminal run member
    (run.terminal_of_effects effects)
  exact load.applied_iff.mpr ⟨run, ended, effects, rfl⟩

end SettlingLoad

end Load

end Rivers
