import Rivers.Pass.PassCore

/-! Facts about planning a tick. -/

namespace Rivers

open FiniteMap

theorem addToGroup_assets (key : PartitionKey) (asset : String) :
    ∀ groups : List (PartitionKey × List String),
      ((addToGroup key asset groups).flatMap (·.2)).Perm (asset :: groups.flatMap (·.2)) := by
  intro groups
  induction groups with
  | nil => simp [addToGroup]
  | cons group rest ih => grind [addToGroup]

namespace ConditionPass

variable (pass : ConditionPass)

structure WellFormed : Prop where
  distinct : (pass.conditions.map (·.assetKey)).Nodup
  tracked : ∀ key ∈ pass.active, key ∈ pass.evalState.assets

theorem new_wellFormed (cache : AssetConditionCache) (evalState : ConditionEvalState)
    (conds : List AssetConditionInfo) (upstreamPartitionKeys : HashMap String (Finset PartitionKey))
    (timeWindows : Int → TimeWindowResolver) (cronTickBetween : CronTickBetween)
    (dist : (conds.map (·.assetKey)).Nodup) :
    (new cache evalState conds upstreamPartitionKeys timeWindows cronTickBetween).WellFormed := by
  refine ⟨dist, ?_⟩
  intro key conditioned
  have candidate : key ∈ evalState.assets.keys ∪ (conds.map (·.assetKey)).toFinset :=
    Finset.mem_union_right _ conditioned
  have found : (new cache evalState conds upstreamPartitionKeys timeWindows
      cronTickBetween).evalState.assets.lookup key = some (getD evalState.assets key {}) := by
    simp only [new, lookup_collect, if_pos candidate]
  exact Finmap.mem_of_lookup_eq_some found

theorem evaluateLoop_infos (now : Int) (selective : Bool) :
    ∀ (conds : List AssetConditionInfo) (asked : HashMap String PartitionSelection),
      ((pass.evaluateLoop now selective conds asked).map (·.info)).Sublist conds := by
  intro conds
  induction conds with
  | nil => intro asked; exact List.Sublist.slnil
  | cons info rest ih => grind [evaluateLoop]

theorem evaluateLoop_row (now : Int) (selective : Bool) (row : EvalResultRow) :
    ∀ (conds : List AssetConditionInfo) (asked : HashMap String PartitionSelection),
      row ∈ pass.evaluateLoop now selective conds asked →
      ∃ record requestedBefore, pass.cache.records.lookup row.info.assetKey = some record ∧
        evaluateWithTree row.info.condition
          (pass.evalContext now row.info record requestedBefore) = (row.result, row.tree) := by
  intro conds
  induction conds with
  | nil => intro asked mem; cases mem
  | cons info rest ih => grind [evaluateLoop]

theorem evaluate_infos (now : Int) (selective : Bool) :
    ((pass.evaluate now selective).map (·.info)).Sublist pass.conditions :=
  pass.evaluateLoop_infos now selective pass.conditions ∅

theorem evaluate_distinct (now : Int) (selective : Bool)
    (dist : (pass.conditions.map (·.assetKey)).Nodup) :
    ((pass.evaluate now selective).map (·.info.assetKey)).Nodup := by grind [evaluate_infos]

theorem evaluate_active (now : Int) (selective : Bool) (row : EvalResultRow)
    (mem : row ∈ pass.evaluate now selective) : row.info.assetKey ∈ pass.active := by
  grind [evaluate_infos, List.mem_toFinset, active]

theorem evaluateWithTree_subSelections (node : ConditionNode) (ctx : EvalContext) :
    (evaluateWithTree node ctx).1.subSelections.isSome = ctx.partitions.isSome := by
  unfold evaluateWithTree
  cases ctx.partitions with
  | none => rfl
  | some pctx => rfl

theorem evaluate_subSelections (now : Int) (selective : Bool) (row : EvalResultRow)
    (mem : row ∈ pass.evaluate now selective) :
    row.result.subSelections.isSome = (pass.partitionTimestamps row.info).isSome := by
  obtain ⟨record, asked, -, evaluated⟩ := pass.evaluateLoop_row now selective row _ _ mem
  have sub := evaluateWithTree_subSelections row.info.condition
    (pass.evalContext now row.info record asked)
  rw [evaluated] at sub
  rw [sub]
  simp only [evalContext, partitionContext, partitionTimestamps]
  grind

theorem dispatchedAssetKeys_perm (toMaterialize : List ToMaterialize) :
    (pass.planFor toMaterialize).dispatchedAssetKeys.Perm
      ((toMaterialize.filter fun fired => pass.classify fired ≠ .dropped).map (·.assetKey)) := by
  have grouped {add} (adds : ∀ groups mat, add groups mat = (soleKey mat.2).elim groups
    (addToGroup · mat.1 groups)) :
      ∀ (mats : List (String × Finset PartitionKey)) (groups : List (PartitionKey × List String)),
        ((mats.foldl add groups).flatMap (·.2)).Perm
        ((mats.filter fun mat => ¬soleKey mat.2 = none).map (·.1) ++ groups.flatMap (·.2)) := by
    intro mats
    induction mats with
    | nil => intro groups; simp
    | cons mat rest ih =>
      intro groups
      rw [List.foldl_cons, adds]
      refine (ih _).trans ?_
      cases sole : soleKey mat.2 with
      | none => simp [sole]
      | some key => grind [addToGroup_assets]
  have mats : ((pass.planFor toMaterialize).singlePartitionGroups.flatMap (·.2) ++
      (pass.planFor toMaterialize).multiPartitionBackfills.map (·.1)).Perm
      ((pass.partitionedMats toMaterialize).map (·.1)) := by
    have singles : ((pass.planFor toMaterialize).singlePartitionGroups.flatMap (·.2)).Perm
        (((pass.partitionedMats toMaterialize).filter fun mat => ¬soleKey mat.2 = none).map
          (·.1) ++ []) := by
      refine grouped (fun groups mat => ?_) (pass.partitionedMats toMaterialize) []
      cases soleKey mat.2 <;> rfl
    rw [List.append_nil] at singles
    have split : ((pass.partitionedMats toMaterialize).filter (fun mat => ¬soleKey mat.2 = none) ++
        (pass.partitionedMats toMaterialize).filter fun mat => soleKey mat.2 = none).Perm
        (pass.partitionedMats toMaterialize) := by grind [List.filter_append_perm]
    have named := split.map (fun mat : String × Finset PartitionKey => mat.1)
    rw [List.map_append] at named
    exact (singles.append_right _).trans named
  have whole : ∀ fired : List ToMaterialize,
      ((fired.filter fun one => pass.classify one = .unpartitioned).map (·.assetKey) ++
        (pass.partitionedMats fired).map (·.1)).Perm
      ((fired.filter fun one => pass.classify one ≠ .dropped).map (·.assetKey)) := by
    intro fired
    induction fired with
    | nil => exact List.Perm.refl _
    | cons one rest ih =>
      cases shape : pass.classify one with
      | dropped => simpa [partitionedMats, shape] using ih
      | unpartitioned => simpa [partitionedMats, shape] using ih
      | keyed keys => grind [partitionedMats]
  grind [MaterializationPlan.dispatchedAssetKeys, planFor]

theorem mem_dispatchedAssetKeys_planFor (toMaterialize : List ToMaterialize) (asset : String) :
    asset ∈ (pass.planFor toMaterialize).dispatchedAssetKeys ↔
      ∃ fired ∈ toMaterialize, fired.assetKey = asset ∧ pass.classify fired ≠ .dropped := by
  grind [dispatchedAssetKeys_perm]

def afterPlan (inProgressAssets : HashMap String (HashMap String (Option PartitionKey))) :
    ConditionPass :=
  { pass with
    evalState := { pass.evalState with isInitial := false }
    cache := { pass.cache with inProgressAssets := inProgressAssets } }

theorem markLoop_eq (classifier : ConditionPass) (toMaterialize : List ToMaterialize) :
    ∀ marked : ConditionPass, ∃ inProgressAssets,
      toMaterialize.foldl (fun marked fired =>
        if classifier.classify fired = .dropped then marked
        else marked.markInProgress fired.assetKey) marked =
        { marked with cache := { marked.cache with inProgressAssets := inProgressAssets } } ∧
      ∀ key, inProgressAssets.lookup key =
        if ∃ fired ∈ toMaterialize, fired.assetKey = key ∧ classifier.classify fired ≠ .dropped
        then some (getD marked.cache.inProgressAssets key ∅)
        else marked.cache.inProgressAssets.lookup key := by
  induction toMaterialize with
  | nil =>
    intro marked
    exact ⟨marked.cache.inProgressAssets, rfl, fun key => by simp⟩
  | cons fired rest ih =>
    intro marked
    rw [List.foldl_cons]
    by_cases dropped : classifier.classify fired = .dropped
    · simp_all
    · rw [if_neg dropped]
      obtain ⟨inProgressAssets, equation, marks⟩ := ih (marked.markInProgress fired.assetKey)
      refine ⟨inProgressAssets, equation, ?_⟩
      intro key
      rw [marks]
      simp only [markInProgress, getD, lookup_insert_ite]
      by_cases own : key = fired.assetKey
      · subst own
        simp [dropped]
      · simp [own, Ne.symm own]

theorem planTick_results (now : Int) (selective : Bool) :
    (pass.planTick now selective).2.results = pass.evaluate now selective := rfl

theorem planTick_plan (now : Int) (selective : Bool) :
    (pass.planTick now selective).2.plan =
      pass.planFor (toMaterialize (pass.evaluate now selective)) := rfl

theorem planTick_eq (now : Int) (selective : Bool) :
    ∃ inProgressAssets, (pass.planTick now selective).1 = pass.afterPlan inProgressAssets ∧
      ∀ key, inProgressAssets.lookup key =
        if key ∈ (pass.planTick now selective).2.plan.dispatchedAssetKeys
        then some (getD pass.cache.inProgressAssets key ∅)
        else pass.cache.inProgressAssets.lookup key := by
  obtain ⟨inProgressAssets, equation, marks⟩ := markLoop_eq pass
    (toMaterialize (pass.evaluate now selective))
    { pass with evalState := { pass.evalState with isInitial := false } }
  refine ⟨inProgressAssets, equation, ?_⟩
  intro key
  rw [marks, planTick_plan]
  simp only [mem_dispatchedAssetKeys_planFor]

theorem WellFormed.planTick {pass : ConditionPass} (wellFormed : pass.WellFormed) (now : Int)
    (selective : Bool) : (pass.planTick now selective).1.WellFormed := by
  obtain ⟨inProgressAssets, planned, -⟩ := pass.planTick_eq now selective
  rw [planned]
  exact ⟨wellFormed.distinct, wellFormed.tracked⟩

theorem mem_dispatchedAssetKeys_planTick (now : Int) (selective : Bool) (asset : String) :
    asset ∈ (pass.planTick now selective).2.plan.dispatchedAssetKeys ↔
      ∃ row ∈ pass.evaluate now selective, row.result.fired = true ∧ row.info.assetKey = asset ∧
        pass.classify ⟨row.info.assetKey, row.result.selection⟩ ≠ .dropped := by
  grind [planTick_plan, mem_dispatchedAssetKeys_planFor, toMaterialize]

end ConditionPass

end Rivers
