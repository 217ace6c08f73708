import Rivers.Cache.RefreshPlan
import Rivers.Cache.Tracking

/-! What the plan phase of a refresh records about runs. -/

namespace Rivers

open FiniteMap Fold RunRecord

inductive PlanEntry where
  | effect (run : RunRecord)
  | change (change : InProgressChange)
  | applied (runId : String) (startTime : Int)
  | track (runId : String)
  | untrack (runId : String)
  | swept (runId : String)
  | invalidated (asset : String)

def RefreshPlan.Has (plan : RefreshPlan) : PlanEntry → Prop
  | .effect run => run ∈ plan.delta.effects
  | .change change => change ∈ plan.delta.inProgressChanges
  | .applied runId startTime => (runId, startTime) ∈ plan.delta.appliedRuns
  | .track runId => ∃ live, (runId, live) ∈ plan.delta.trackActionRuns
  | .untrack runId => runId ∈ plan.delta.untrackActionRuns
  | .swept runId => runId ∈ plan.sweptTerminal
  | .invalidated asset => asset ∈ plan.invalidated

namespace RunRecord

variable (run : RunRecord)

def Affects (entry : PlanEntry) : Prop :=
  run.hasEffects ∧ (entry = .effect run ∨ entry = .applied run.runId run.startTime)

def Clears (entry : PlanEntry) : Prop :=
  ∃ asset ∈ run.nodeNames, entry = .change (.clearRun asset run.runId)

def Pushes (entry : PlanEntry) : Prop :=
  ∃ asset ∈ run.nodeNames, entry = .change (.push asset run.runId run.partitionKey)

def Invalidates (entry : PlanEntry) : Prop :=
  ∃ asset ∈ run.nodeNames, entry = .invalidated asset

end RunRecord

namespace RefreshPlan

variable (plan : RefreshPlan) (run : RunRecord) (entry : PlanEntry)

theorem has_markApplied :
    ({ plan with delta := plan.delta.markApplied run } : RefreshPlan).Has entry ↔
      plan.Has entry ∨ entry = .applied run.runId run.startTime := by
  cases entry <;> simp [Has, RefreshDelta.markApplied]

theorem has_clearRun :
    ({ plan with delta := plan.delta.clearRun run } : RefreshPlan).Has entry ↔
      plan.Has entry ∨ run.Clears entry := by
  cases entry <;> simp [Has, RefreshDelta.clearRun, RunRecord.Clears, eq_comm]

theorem has_sweep :
    ({ plan with sweptTerminal := insert run.runId plan.sweptTerminal } : RefreshPlan).Has entry ↔
      plan.Has entry ∨ entry = .swept run.runId := by
  cases entry <;> simp [Has, or_comm]

theorem has_congr {after : RefreshPlan} (delta : after.delta = plan.delta)
    (swept : after.sweptTerminal = plan.sweptTerminal)
    (invalidated : after.invalidated = plan.invalidated) :
    after.Has entry ↔ plan.Has entry := by
  cases entry <;> simp only [Has, delta, swept, invalidated]

theorem has_applied {cache : AssetConditionCache} {after : RefreshPlan}
    (delta : after.delta = cache.applyRunEffects run plan.delta)
    (swept : after.sweptTerminal = plan.sweptTerminal)
    (invalidated : after.invalidated = plan.invalidated) :
    after.Has entry ↔ plan.Has entry ∨ run.Affects entry := by
  cases effects : run.hasEffects with
  | false => grind [has_congr, RunRecord.Affects, AssetConditionCache.applyRunEffects]
  | true =>
    have adds := cache.applyRunEffects_adds run plan.delta effects
    cases entry <;>
      simp [Has, RunRecord.Affects, delta, swept, invalidated, effects, adds.effects,
        adds.inProgressChanges, adds.appliedRuns, adds.trackActionRuns, adds.untrackActionRuns]

theorem has_invalidated {cache : AssetConditionCache} {after : RefreshPlan}
    (delta : after.delta = cache.applyRunEffects run plan.delta)
    (swept : after.sweptTerminal = plan.sweptTerminal)
    (invalidated : after.invalidated = plan.invalidated ∪ run.nodeNames.toFinset) :
    after.Has entry ↔ plan.Has entry ∨ run.Invalidates entry ∨ run.Affects entry := by
  have kept : (plan.invalidate run.nodeNames).Has entry ↔ plan.Has entry ∨ run.Invalidates entry := by
    cases entry <;> simp [Has, invalidate, RunRecord.Invalidates]
  have added := has_applied (plan.invalidate run.nodeNames) run entry delta swept invalidated
  rw [added, kept, or_assoc]

end RefreshPlan

namespace AssetConditionCache

open RefreshPlan

variable (cache : AssetConditionCache) (reads : RefreshReads) (plan : RefreshPlan) (run : RunRecord)
  (entry : PlanEntry)

section Steps

def SweepAdds : Prop :=
  run.isTerminal ∧ (entry = .swept run.runId ∨ entry = .applied run.runId run.startTime ∨
    run.Clears entry ∨ (run.runId ∉ cache.newTerminal reads ∧
      run.runId ∉ cache.completedRunIds reads ∧
      run.runId ∉ cache.appliedRunIds) ∧ (run.Invalidates entry ∨ run.Affects entry))

theorem has_sweepRun :
    (cache.sweepRun reads plan run).Has entry ↔ plan.Has entry ∨
    cache.SweepAdds reads run entry := by
  unfold sweepRun
  cases term : run.isTerminal with
  | false => simp [SweepAdds, term]
  | true =>
    rw [if_neg (by simp)]
    extract_lets swept
    have seen : swept.Has entry ↔ ((plan.Has entry ∨ entry = .swept run.runId) ∨
        entry = .applied run.runId run.startTime) ∨ run.Clears entry := by
      rw [← has_sweep, ← has_markApplied, ← has_clearRun]
    clear_value swept
    by_cases known : run.runId ∈ cache.newTerminal reads ∨ run.runId ∈ cache.completedRunIds reads ∨
        run.runId ∈ cache.appliedRunIds
    · grind [SweepAdds]
    · have first : run.runId ∉ cache.newTerminal reads ∧ run.runId ∉ cache.completedRunIds reads ∧
          run.runId ∉ cache.appliedRunIds := by simpa only [not_or] using known
      rw [if_neg known]
      refine (has_invalidated swept run entry (by rfl) (by rfl) (by rfl)).trans ?_
      rw [seen]
      simp only [SweepAdds, term, true_and, eq_true first, or_assoc]

def CompleteAdds : Prop :=
  run.runId ∉ cache.appliedRunIds ∧ (run.Invalidates entry ∨ run.Affects entry)

theorem has_completeRun :
    (cache.completeRun plan run).Has entry ↔ plan.Has entry ∨ cache.CompleteAdds run entry := by
  grind [has_invalidated, completeRun, CompleteAdds, invalidate]

def WatchAdds : Prop :=
  run.isTerminal ∧ (entry = .swept run.runId ∨ entry = .applied run.runId run.startTime ∨
    entry = .untrack run.runId ∨
    (run.runId ∉ cache.newTerminal reads ∧ run.runId ∉ cache.appliedRunIds) ∧
      (run.Invalidates entry ∨ run.Affects entry))

theorem has_watchRun :
    (cache.watchRun reads plan run).Has entry ↔ plan.Has entry ∨
    cache.WatchAdds reads run entry := by
  unfold watchRun
  cases term : run.isTerminal with
  | false => simp [WatchAdds, term]
  | true =>
    rw [if_neg (by simp)]
    extract_lets marked swept
    have seen : swept.Has entry ↔ ((plan.Has entry ∨ entry = .swept run.runId) ∨
        entry = .applied run.runId run.startTime) ∨ entry = .untrack run.runId := by
      rw [← has_sweep, ← has_markApplied]
      cases entry <;> simp [swept, marked, Has, RefreshDelta.markApplied, or_comm]
    clear_value swept
    by_cases known : run.runId ∈ cache.newTerminal reads ∨ run.runId ∈ cache.appliedRunIds
    · grind [WatchAdds]
    · have first : run.runId ∉ cache.newTerminal reads ∧ run.runId ∉ cache.appliedRunIds := by
        simpa only [not_or] using known
      rw [if_neg known]
      refine (has_invalidated swept run entry (by rfl) (by rfl) (by rfl)).trans ?_
      rw [seen]
      simp only [WatchAdds, term, true_and, eq_true first, or_assoc]

def NewAdds (swept : Finset String) : Prop :=
  (run.isTerminal ∧ (run.Clears entry ∨ (run.runId ∉ cache.appliedRunIds ∧ run.Affects entry) ∨
      run.status = .canceled ∧ (run.isAction = false ∨ run.runId ∈ cache.appliedRunIds) ∧
        entry = .applied run.runId run.startTime)) ∨
    (run.isTerminal = false ∧ run.runId ∉ swept ∧
      (run.isAction = false ∧ run.Pushes entry ∨ run.isAction ∧ entry = .track run.runId))

theorem has_planNewRun :
    (cache.planNewRun plan run).Has entry ↔
      plan.Has entry ∨ cache.NewAdds run entry plan.sweptTerminal := by
  unfold planNewRun
  extract_lets before delta applied
  have confirmed : ({ plan with delta := delta } : RefreshPlan).Has entry ↔ plan.Has entry := by
    cases entry <;> rfl
  have cleared : ({ plan with delta := delta.clearRun run } : RefreshPlan).Has entry ↔
      plan.Has entry ∨ run.Clears entry := by
    rw [← confirmed]
    exact has_clearRun { plan with delta := delta } run entry
  have affected : applied.Has entry ↔ plan.Has entry ∨ run.Clears entry ∨ run.Affects entry := by
    rw [← or_assoc, ← cleared]
    exact has_applied { plan with delta := delta.clearRun run } run entry rfl rfl rfl
  have marked : ({ plan with delta := (delta.clearRun run).markApplied run } : RefreshPlan).Has
      entry ↔
      plan.Has entry ∨ run.Clears entry ∨ entry = .applied run.runId run.startTime := by
    rw [← or_assoc, ← cleared]
    exact has_markApplied { plan with delta := delta.clearRun run } run entry
  have live : run.isTerminal = false →
      ((if run.runId ∈ plan.sweptTerminal then { plan with delta := delta }
        else if !run.isAction then
          { plan with
            delta := { delta with
              inProgressChanges := delta.inProgressChanges ++ run.nodeNames.map fun asset =>
                .push asset run.runId run.partitionKey } }
        else
          { plan with
            delta := { delta with
              trackActionRuns := delta.trackActionRuns ++
                [(run.runId, ⟨run.nodeNames, run.partitionKey⟩)] } } : RefreshPlan).Has entry ↔
        plan.Has entry ∨ cache.NewAdds run entry plan.sweptTerminal) := by
    intro unfin
    by_cases swept : run.runId ∈ plan.sweptTerminal
    · simp [swept, confirmed, NewAdds, unfin]
    · rw [if_neg swept, ← confirmed]
      cases action : run.isAction <;> cases entry <;>
        simp [NewAdds, unfin, swept, action, Has, RunRecord.Pushes, eq_comm, exists_or]
  clear_value applied delta
  cases status : run.status with
  | queued | notStarted | started => exact live (by rw [isTerminal, status]; rfl)
  | success | failure =>
    by_cases known : run.runId ∈ cache.appliedRunIds <;>
      simp [known, cleared, affected, NewAdds, isTerminal, RunStatus.isTerminal, status]
  | canceled =>
    cases action : run.isAction <;> by_cases known : run.runId ∈ cache.appliedRunIds <;>
      simp [known, affected, marked, action, NewAdds, isTerminal, RunStatus.isTerminal,
        RunRecord.Affects, hasEffects, status]

end Steps

section Phases

variable {plan run entry}

theorem has_startPlan :
    (cache.startPlan reads).Has entry ↔ ∃ run ∈ cache.newRuns reads,
      (run.isTerminal ∧ run.runId ∉ cache.appliedRunIds) ∧ run.Invalidates entry := by
  cases entry <;> simp [startPlan, Has, RunRecord.Invalidates, and_assoc]

def CompletionAdds (entry : PlanEntry) : Prop :=
  ∃ asset ∈ (cache.movedRecords reads).keys ∪ cache.finishedAssets reads, entry = .invalidated asset

theorem has_planCompletions :
    (cache.planCompletions reads plan).Has entry ↔ plan.Has entry ∨
    cache.CompletionAdds reads entry := by
  cases entry <;> simp [planCompletions, Has, CompletionAdds]

def VanishAdds (entry : PlanEntry) : Prop :=
  (cache.trackedRuns reads).length < cache.allTrackedRunIds.card ∧
    (entry = .change (.clearRuns (cache.vanishedRuns reads)) ∨
      ∃ asset ∈ (cache.vanishedRuns reads).image (·.1), entry = .invalidated asset)

theorem has_planVanished :
    (cache.planVanished reads plan).Has entry ↔ plan.Has entry ∨ cache.VanishAdds reads entry := by
  unfold planVanished
  split
  · rename_i vanished
    cases entry <;> simp [Has, VanishAdds, vanished]
  · rename_i found
    simp [VanishAdds, found]

theorem sweepRun_sweptApplied
    (separate : Disjoint plan.sweptApplied (cache.completedRunIds reads)) :
    Disjoint (cache.sweepRun reads plan run).sweptApplied (cache.completedRunIds reads) := by
  grind [sweepRun]

theorem has_planInProgress (unapplied : plan.sweptApplied = ∅) :
    (cache.planInProgress reads plan).Has entry ↔
      plan.Has entry ∨ cache.CompletionAdds reads entry ∨
        (∃ run ∈ cache.trackedRuns reads, cache.SweepAdds reads run entry) ∨
        cache.VanishAdds reads entry ∨
        ∃ run ∈ reads.completedRuns.getRunsByIds (cache.completedRunIds reads \
          cache.newTerminal reads), cache.CompleteAdds run entry := by
  unfold planInProgress
  extract_lets swept completed
  have separate : Disjoint swept.sweptApplied (cache.completedRunIds reads) := by
    have start : Disjoint (cache.planCompletions reads plan).sweptApplied
      (cache.completedRunIds reads) := by
      change Disjoint plan.sweptApplied _
      rw [unapplied]
      exact Finset.disjoint_empty_left _
    have folded := foldl_invariant
      (fun plan : RefreshPlan => Disjoint plan.sweptApplied (cache.completedRunIds reads))
      (cache.sweepRun reads) (cache.trackedRuns reads)
      (fun _ _ _ pre => cache.sweepRun_sweptApplied reads pre) _ start
    grind [planVanished]
  have completedEq : completed = cache.completedRunIds reads \ cache.newTerminal reads := by
    refine Finset.sdiff_eq_self_of_disjoint ?_
    exact (separate.mono_right Finset.sdiff_subset).symm
  rw [foldl_adds Has cache.CompleteAdds (fun _ => True) cache.completeRun (fun _ _ _ => trivial)
    (fun plan run entry _ => cache.has_completeRun plan run entry) _ _ trivial, completedEq,
    has_planVanished, foldl_adds Has (cache.SweepAdds reads) (fun _ => True) (cache.sweepRun reads)
    (fun _ _ _ => trivial) (fun plan run entry _ => cache.has_sweepRun reads plan run entry)
      _ _ trivial,
    has_planCompletions]
  simp only [or_assoc]

def VanishActionAdds (entry : PlanEntry) : Prop :=
  (cache.watchedRuns reads).length < cache.liveActionRuns.keys.card ∧
    ((∃ runId ∈ cache.vanishedActionRuns reads, entry = .untrack runId) ∨
      ∃ asset ∈ cache.vanishedActionAssets reads, entry = .invalidated asset)

theorem has_planActionRuns :
    (cache.planActionRuns reads plan).Has entry ↔
      plan.Has entry ∨ (∃ run ∈ cache.watchedRuns reads, cache.WatchAdds reads run entry) ∨
        cache.VanishActionAdds reads entry := by
  have vanished : ∀ plan : RefreshPlan, (cache.planVanishedActions reads plan).Has entry ↔
      plan.Has entry ∨ cache.VanishActionAdds reads entry := by
    intro plan
    unfold planVanishedActions
    split
    · rename_i vanished
      cases entry <;> simp [Has, VanishActionAdds, vanished]
    · rename_i found
      simp [VanishActionAdds, found]
  unfold planActionRuns
  rw [vanished, foldl_adds Has (cache.WatchAdds reads) (fun _ => True) (cache.watchRun reads)
    (fun _ _ _ => trivial) (fun plan run entry _ => cache.has_watchRun reads plan run entry)
      _ _ trivial,
    or_assoc]

theorem planNewRun_sweptTerminal : (cache.planNewRun plan run).sweptTerminal =
    plan.sweptTerminal := by
  unfold planNewRun
  dsimp only
  split <;> split_ifs <;> rfl

theorem has_planNewRuns :
    (cache.planNewRuns reads plan).Has entry ↔
      plan.Has entry ∨ ∃ run ∈ cache.newRuns reads, cache.NewAdds run entry plan.sweptTerminal := by
  have noted : (cache.noteNewWork reads plan).Has entry ↔ plan.Has entry := by
    cases entry <;> rfl
  have folded := foldl_adds Has (fun run entry => cache.NewAdds run entry plan.sweptTerminal)
    (fun state => state.sweptTerminal = plan.sweptTerminal) cache.planNewRun
    (fun _ _ same => (cache.planNewRun_sweptTerminal).trans same)
    (fun state run entry same => same ▸ cache.has_planNewRun state run entry)
    (cache.newRuns reads) (cache.noteNewWork reads plan) rfl entry
  rw [noted] at folded
  rw [← folded]
  cases entry <;> rfl

def sweptTerminal : Finset String :=
  (((cache.trackedRuns reads ++ cache.watchedRuns reads).filter (·.isTerminal)).map
    (·.runId)).toFinset

theorem mem_sweptTerminal {runId} :
    runId ∈ cache.sweptTerminal reads ↔
      (∃ run ∈ cache.trackedRuns reads, run.isTerminal ∧ runId = run.runId) ∨
        ∃ run ∈ cache.watchedRuns reads, run.isTerminal ∧ runId = run.runId := by
  simp only [sweptTerminal, List.mem_toFinset, List.mem_map, List.mem_filter, List.mem_append,
    and_assoc, or_and_right, exists_or, eq_comm]

theorem has_planBeforeFetch :
    (cache.planBeforeFetch reads).Has entry ↔
      (∃ run ∈ cache.newRuns reads,
        (run.isTerminal ∧ run.runId ∉ cache.appliedRunIds) ∧ run.Invalidates entry) ∨
      cache.CompletionAdds reads entry ∨
      (∃ run ∈ cache.trackedRuns reads, cache.SweepAdds reads run entry) ∨
      cache.VanishAdds reads entry ∨
      (∃ run ∈ reads.completedRuns.getRunsByIds (cache.completedRunIds reads \
        cache.newTerminal reads), cache.CompleteAdds run entry) ∨
      (∃ run ∈ cache.watchedRuns reads, cache.WatchAdds reads run entry) ∨
      cache.VanishActionAdds reads entry ∨
      ∃ run ∈ cache.newRuns reads, cache.NewAdds run entry (cache.sweptTerminal reads) := by
  have fetched : (cache.planBeforeFetch reads).Has entry ↔ (cache.planRuns reads).Has entry := by
    cases entry <;> rfl
  have swept : (cache.planActionRuns reads
      (cache.planInProgress reads (cache.startPlan reads))).sweptTerminal =
        cache.sweptTerminal reads := by
    ext runId
    change RefreshPlan.Has _ (.swept runId) ↔ _
    rw [has_planActionRuns, has_planInProgress _ _ rfl, has_startPlan, mem_sweptTerminal]
    simp [CompletionAdds, SweepAdds, VanishAdds, CompleteAdds, WatchAdds, VanishActionAdds,
      RunRecord.Invalidates, RunRecord.Affects, RunRecord.Clears]
  rw [fetched, planRuns, has_planNewRuns, swept, has_planActionRuns, has_planInProgress _ _ rfl,
    has_startPlan]
  simp only [or_assoc]

end Phases

section Readings

variable {run : RunRecord} {runId : String}

def AppliesEffects (run : RunRecord) : Prop :=
  run.hasEffects ∧ run.runId ∉ cache.appliedRunIds ∧
    ((run ∈ cache.newRuns reads ∧ run.isTerminal) ∨
      (run.runId ∉ cache.newTerminal reads ∧
        ((run ∈ cache.trackedRuns reads ∧ run.isTerminal ∧
          run.runId ∉ cache.completedRunIds reads) ∨
          (run ∈ reads.completedRuns.runs ∧ run.runId ∈ cache.completedRunIds reads) ∨
          (run ∈ cache.watchedRuns reads ∧ run.isTerminal))))

theorem has_effect :
    (cache.planBeforeFetch reads).Has (.effect run) ↔ cache.AppliesEffects reads run := by
  rw [has_planBeforeFetch]
  simp only [RunRecord.Invalidates, CompletionAdds, SweepAdds, VanishAdds, CompleteAdds, WatchAdds,
    VanishActionAdds, NewAdds, RunRecord.Clears, RunRecord.Affects, RunRecord.Pushes, reduceCtorEq,
    PlanEntry.effect.injEq, and_false, exists_false, false_or, or_false, Storage.mem_getRunsByIds,
    Finset.mem_sdiff, AppliesEffects]
  constructor
  · grind
  · grind

theorem AppliesEffects.has_entries (applies : cache.AppliesEffects reads run) {entry}
    (added : run.Invalidates entry ∨ run.Affects entry) : (cache.planBeforeFetch reads).Has
    entry := by
  rw [has_planBeforeFetch]
  obtain ⟨-, fresh, ⟨mem, term⟩ | ⟨unseen, ⟨mem, term, pending⟩ | ⟨mem, done⟩ |
    ⟨mem, term⟩⟩⟩ := applies
  · rcases added with invalidates | affects
    · exact .inl ⟨run, mem, ⟨term, fresh⟩, invalidates⟩
    · exact .inr (.inr (.inr (.inr (.inr (.inr (.inr
        ⟨run, mem, .inl ⟨term, .inr (.inl ⟨fresh, affects⟩)⟩⟩))))))
  · grind [SweepAdds]
  · exact .inr (.inr (.inr (.inr (.inl ⟨run, Storage.mem_getRunsByIds.mpr
      ⟨mem, Finset.mem_sdiff.mpr ⟨done, unseen⟩⟩, fresh, added⟩))))
  · exact .inr (.inr (.inr (.inr (.inr (.inl
      ⟨run, mem, term, .inr (.inr (.inr ⟨⟨unseen, fresh⟩, added⟩))⟩)))))

theorem has_mark {startTime}
    (marked : (cache.planBeforeFetch reads).Has (.applied runId startTime)) :
    ∃ run, run.runId = runId ∧ run.startTime = startTime ∧
      (cache.AppliesEffects reads run ∨ run.isTerminal ∧
        (run ∈ cache.newRuns reads ∨ run ∈ cache.trackedRuns reads ∨
          run ∈ cache.watchedRuns reads)) := by
  rw [has_planBeforeFetch] at marked
  simp only [RunRecord.Invalidates, CompletionAdds, SweepAdds, VanishAdds, CompleteAdds, WatchAdds,
    VanishActionAdds, NewAdds, RunRecord.Clears, RunRecord.Affects, RunRecord.Pushes, reduceCtorEq,
    PlanEntry.applied.injEq, and_false, exists_false, false_or, or_false, Storage.mem_getRunsByIds,
    Finset.mem_sdiff] at marked
  grind [AppliesEffects]

theorem has_push {asset} :
    (∃ change, (cache.planBeforeFetch reads).Has (.change change) ∧ change.Tracks asset runId) ↔
      ∃ run ∈ cache.newRuns reads, run.isTerminal = false ∧ run.isAction = false ∧
        run.runId ∉ cache.sweptTerminal reads ∧ asset ∈ run.nodeNames ∧ run.runId = runId := by
  simp only [has_planBeforeFetch, RunRecord.Invalidates, CompletionAdds, SweepAdds, VanishAdds,
    CompleteAdds, WatchAdds, VanishActionAdds, NewAdds, RunRecord.Clears, RunRecord.Affects,
    RunRecord.Pushes, reduceCtorEq, PlanEntry.change.injEq, and_false, exists_false,
    false_or, or_false]
  constructor
  · grind [InProgressChange.Tracks]
  · grind [InProgressChange.Tracks]

theorem has_drop {asset} :
    (∃ change, (cache.planBeforeFetch reads).Has (.change change) ∧ change.Drops asset runId) ↔
      (∃ run, (run ∈ cache.trackedRuns reads ∨ run ∈ cache.newRuns reads) ∧ run.isTerminal ∧
        asset ∈ run.nodeNames ∧ run.runId = runId) ∨
      (cache.trackedRuns reads).length < cache.allTrackedRunIds.card ∧
        (asset, runId) ∈ cache.vanishedRuns reads := by
  simp only [has_planBeforeFetch, RunRecord.Invalidates, CompletionAdds, SweepAdds, VanishAdds,
    CompleteAdds, WatchAdds, VanishActionAdds, NewAdds, RunRecord.Clears, RunRecord.Affects,
    RunRecord.Pushes, reduceCtorEq, PlanEntry.change.injEq, and_false, exists_false,
    false_or, or_false]
  constructor
  · grind [InProgressChange.Drops]
  · grind [InProgressChange.Drops]

theorem has_track :
    (cache.planBeforeFetch reads).Has (.track runId) ↔
      ∃ run ∈ cache.newRuns reads, run.isTerminal = false ∧ run.isAction ∧
        run.runId ∉ cache.sweptTerminal reads ∧ run.runId = runId := by
  simp only [has_planBeforeFetch, RunRecord.Invalidates, CompletionAdds, SweepAdds, VanishAdds,
    CompleteAdds, WatchAdds, VanishActionAdds, NewAdds, RunRecord.Clears, RunRecord.Affects,
    RunRecord.Pushes, reduceCtorEq, PlanEntry.track.injEq, and_false, exists_false,
    false_or, or_false]
  grind

theorem has_untrack :
    (cache.planBeforeFetch reads).Has (.untrack runId) ↔
      (∃ run ∈ cache.watchedRuns reads, run.isTerminal ∧ run.runId = runId) ∨
        (cache.watchedRuns reads).length < cache.liveActionRuns.keys.card ∧
          runId ∈ cache.vanishedActionRuns reads := by
  simp only [has_planBeforeFetch, RunRecord.Invalidates, CompletionAdds, SweepAdds, VanishAdds,
    CompleteAdds, WatchAdds, VanishActionAdds, NewAdds, RunRecord.Clears, RunRecord.Affects,
    RunRecord.Pushes, reduceCtorEq, PlanEntry.untrack.injEq, and_false, exists_false,
    false_or, or_false, exists_eq_right', eq_comm]

end Readings

end AssetConditionCache

end Rivers
