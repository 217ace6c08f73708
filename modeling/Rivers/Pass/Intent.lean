import Rivers.Pass.Commit

/-! The dispatch intent of a planned tick against the state its commit stores. -/

namespace Rivers

open FiniteMap AssetConditionState

namespace ConditionPass

theorem scalarClone_updateConditionState (state : AssetConditionState) (now : Int)
    (record : AssetRecord) (partitionTimestamps : Option (HashMap PartitionKey Int))
    (result : EvalResult) :
    (updateConditionState state (updateContext now record partitionTimestamps) result).scalarClone =
      updateConditionState state.scalarClone (updateContext now record none) result := by
  simp only [updateConditionState, scalarClone, updateContext]
  cases result.subSelections <;> rfl

theorem handledKeys_updateConditionState (state : AssetConditionState) (now : Int)
    (record : AssetRecord) (partitionTimestamps : Option (HashMap PartitionKey Int))
    (result : EvalResult) (selections : result.subSelections.isSome = partitionTimestamps.isSome) :
    (updateConditionState state (updateContext now record partitionTimestamps)
      result).handledKeys = ∅ := by
  grind [AssetConditionState.handledKeys, updateConditionState, updateContext, updatePartitionState]

variable {pass : ConditionPass} {now : Int} {selective : Bool}

theorem planTick_rowsOf (wellFormed : pass.WellFormed) :
    (pass.planTick now selective).1.RowsOf (pass.planTick now selective).2.results := by
  obtain ⟨inProgressAssets, equation, -⟩ := pass.planTick_eq now selective
  rw [equation, planTick_results]
  exact ⟨pass.evaluate_distinct now selective wellFormed.distinct,
    pass.evaluate_active now selective⟩

theorem not_skipped_of_dispatched (output : PassOutput) (asset : String)
    (dispatched : asset ∈ output.plan.dispatchedAssetKeys) : asset ∉ skipped output ∅ := by
  intro left
  simp only [skipped, Finset.empty_union, List.mem_toFinset, List.mem_map, List.mem_filter,
    Bool.and_eq_true, decide_eq_true_eq] at left
  obtain ⟨row, ⟨-, -, unplanned⟩, rfl⟩ := left
  exact unplanned dispatched

theorem committedState_dispatched (planned : ConditionPass) (output : PassOutput) (now : Int)
    (row : EvalResultRow) (record : AssetRecord) (prev : AssetConditionState)
    (fired : row.result.fired = true)
    (dispatched : row.info.assetKey ∈ output.plan.dispatchedAssetKeys)
    (selections : row.result.subSelections.isSome = (planned.partitionTimestamps row.info).isSome) :
    (committedState now output.plan row record prev (skipped output ∅) planned).scalarClone =
        { planned.baselineSource.withBaselines row.info.assetKey
            (updateConditionState prev.scalarClone (updateContext now record none) row.result) with
          lastHandledTimestamp := some now } ∧
      (committedState now output.plan row record prev (skipped output ∅) planned).handledKeys =
        dispatchedKeys output.plan row.info.assetKey := by
  have kept := not_skipped_of_dispatched output _ dispatched
  have stored : committedState now output.plan row record prev (skipped output ∅) planned =
      { (((marks output.plan (skipped output ∅)).filter (·.1 = row.info.assetKey)).map (·.2)).foldl
          markHandled
          (planned.baselineSource.withBaselines row.info.assetKey
            (updateConditionState prev
              (updateContext now record (planned.partitionTimestamps row.info)) row.result)) with
        lastHandledTimestamp := some now } := by grind [committedState]
  have marked := marks_foldl
    (((marks output.plan (skipped output ∅)).filter (·.1 = row.info.assetKey)).map (·.2))
    (planned.baselineSource.withBaselines row.info.assetKey
      (updateConditionState prev
        (updateContext now record (planned.partitionTimestamps row.info)) row.result))
  rw [stored]
  refine ⟨?_, ?_⟩
  · have scalar := marked.1
    rw [BaselineSource.withBaselines_scalarClone, scalarClone_updateConditionState] at scalar
    rw [← scalar]
    rfl
  · have handled := marked.2
    rw [BaselineSource.withBaselines_handledKeys,
      handledKeys_updateConditionState _ _ _ _ _ selections, Finset.empty_union,
      marks_dispatchedKeys _ _ _ kept] at handled
    exact handled

theorem pendingDispatchState_key (planned : ConditionPass) (plan : MaterializationPlan)
    (row : EvalResultRow) (asset : String) (state : AssetConditionState)
    (keys : Finset PartitionKey)
    (found : planned.pendingDispatchState now plan row = some (asset, state, keys)) :
    row.info.assetKey = asset ∧ asset ∈ plan.dispatchedAssetKeys := by grind [pendingDispatchState]

theorem dispatched_of_mem_pending (planned : ConditionPass) (output : PassOutput) (asset : String)
    (state : AssetConditionState) (keys : Finset PartitionKey)
    (mem : (asset, state, keys) ∈ planned.pendingDispatchStates output now) :
    asset ∈ output.plan.dispatchedAssetKeys := by
  grind [pendingDispatchState, pendingDispatchStates]

theorem pendingDispatchStates_functional (planned : ConditionPass) (output : PassOutput)
    (rows : planned.RowsOf output.results) (asset : String) (left right : AssetConditionState)
    (leftKeys rightKeys : Finset PartitionKey)
    (leftMember : (asset, left, leftKeys) ∈ planned.pendingDispatchStates output now)
    (rightMember : (asset, right, rightKeys) ∈ planned.pendingDispatchStates output now) :
    left = right ∧ leftKeys = rightKeys := by
  grind [List.inj_on_of_nodup_map, pendingDispatchState, RowsOf, pendingDispatchStates]

theorem exists_dispatched_row (wellFormed : pass.WellFormed) (asset : String)
    (dispatched : asset ∈ (pass.planTick now selective).2.plan.dispatchedAssetKeys) :
    ∃ row record prev, row ∈ (pass.planTick now selective).2.results ∧
      row.info.assetKey = asset ∧ row.result.fired = true ∧
      row.result.subSelections.isSome =
        ((pass.planTick now selective).1.partitionTimestamps row.info).isSome ∧
      (pass.planTick now selective).1.cache.records.lookup asset = some record ∧
      (pass.planTick now selective).1.evalState.assets.lookup asset = some prev := by
  obtain ⟨row, mem, fired, rfl, -⟩ :=
    (pass.mem_dispatchedAssetKeys_planTick now selective asset).mp dispatched
  obtain ⟨record, -, recorded, -⟩ := pass.evaluateLoop_row now selective row _ _ mem
  obtain ⟨prev, tracked⟩ := Finmap.mem_iff.mp
    (wellFormed.tracked _ (pass.evaluate_active now selective row mem))
  obtain ⟨inProgressAssets, equation, -⟩ := pass.planTick_eq now selective
  refine ⟨row, record, prev, mem, rfl, fired, ?_, ?_, ?_⟩
  · rw [pass.evaluate_subSelections now selective row mem, equation]
    rfl
  · rw [equation]
    exact recorded
  · rw [equation]
    exact tracked

theorem exists_committed_pending (wellFormed : pass.WellFormed) (asset : String)
    (dispatched : asset ∈ (pass.planTick now selective).2.plan.dispatchedAssetKeys) :
    ∃ stored, ((pass.planTick now selective).1.commitTick (pass.planTick now selective).2 ∅
        now).1.evalState.assets.lookup asset = some stored ∧
      (asset, stored.scalarClone, stored.handledKeys) ∈
        (pass.planTick now selective).1.pendingDispatchStates (pass.planTick now selective).2
          now := by
  obtain ⟨row, record, prev, mem, rfl, fired, selections, recorded, tracked⟩ :=
    exists_dispatched_row wellFormed asset dispatched
  have kept := not_skipped_of_dispatched _ _ dispatched
  obtain ⟨scalar, handled⟩ := committedState_dispatched (pass.planTick now selective).1
    (pass.planTick now selective).2 now row record prev fired dispatched selections
  refine ⟨_, commitTick_lookup_of_row _ ∅ now (planTick_rowsOf wellFormed) row mem record prev kept
    recorded tracked, ?_⟩
  rw [scalar, handled]
  refine List.mem_filterMap.mpr ⟨row, mem, ?_⟩
  simp only [pendingDispatchState, fired, dispatched, and_self, if_true, recorded, tracked]
  rfl

/-- The intent has the committed state of each dispatched asset, without its partition state. -/
theorem pendingDispatchStates_eq_committed (pass : ConditionPass) (wellFormed : pass.WellFormed)
    (now : Int) (selective : Bool) (asset : String)
    (dispatched : asset ∈ (pass.planTick now selective).2.plan.dispatchedAssetKeys) :
    let planned := (pass.planTick now selective).1
    let output := (pass.planTick now selective).2
    ∃ stored, (planned.commitTick output ∅ now).1.evalState.assets.lookup asset = some stored ∧
      ∀ state keys, (asset, state, keys) ∈ planned.pendingDispatchStates output now ↔
        state = stored.scalarClone ∧ keys = stored.handledKeys := by
  obtain ⟨stored, committed, member⟩ := exists_committed_pending wellFormed asset dispatched
  refine ⟨stored, committed, ?_⟩
  intro state keys
  constructor
  · intro other
    exact pendingDispatchStates_functional _ _ (planTick_rowsOf wellFormed) asset state _
      keys _ other
      member
  · rintro ⟨rfl, rfl⟩
    exact member

def missingPass : ConditionPass :=
  new
    { records := ((∅ : HashMap String AssetRecord).insert "up"
      { assetKey := "up", lastTimestamp := some 3 }).insert
        "asset" { assetKey := "asset" }
      upstreamDeps := (∅ : HashMap String (List String)).insert "asset" ["up"]
      partitionStatus := (∅ : HashMap String PartitionStatusEntry).insert "asset" {} }
    {}
    [{ assetKey := "asset", condition := .leaf .missing,
       partitionInfo := some ⟨{.single ["k"], .single ["l"]}, ∅⟩ }]
    ∅ (fun _ _ _ _ => none) (fun _ _ _ _ => false)

theorem pendingDispatchStates_eq_committed_missing :
    "asset" ∈ (missingPass.planTick 5 false).2.plan.dispatchedAssetKeys ∧
      ∃ stored, ((missingPass.planTick 5 false).1.commitTick (missingPass.planTick 5 false).2 ∅
          5).1.evalState.assets.lookup "asset" = some stored ∧
        ∀ state keys, ("asset", state, keys) ∈
          (missingPass.planTick 5 false).1.pendingDispatchStates
            (missingPass.planTick 5 false).2 5 ↔
          state = stored.scalarClone ∧ keys = stored.handledKeys :=
  have dispatched : "asset" ∈ (missingPass.planTick 5 false).2.plan.dispatchedAssetKeys := by decide
  ⟨dispatched, pendingDispatchStates_eq_committed missingPass
    (new_wellFormed _ _ _ _ _ _ (by decide)) 5 false "asset" dispatched⟩

end ConditionPass

end Rivers
