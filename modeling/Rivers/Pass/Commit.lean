import Rivers.Pass.Plan

/-! What one committed tick leaves in the state of each asset. -/

namespace Rivers

open FiniteMap AssetConditionState

namespace AssetConditionState

@[simp] theorem handledKeys_markHandled (state : AssetConditionState) (keys : Finset PartitionKey) :
    (state.markHandled keys).handledKeys = state.handledKeys ∪ keys := by
  cases found : state.partitionState <;> simp [AssetConditionState.handledKeys, markHandled, found]

@[simp] theorem scalarClone_markHandled (state : AssetConditionState) (keys : Finset PartitionKey) :
    (state.markHandled keys).scalarClone = state.scalarClone := rfl

theorem marks_foldl (marks : List (Finset PartitionKey)) :
    ∀ state : AssetConditionState,
      (marks.foldl markHandled state).scalarClone = state.scalarClone ∧
        (marks.foldl markHandled state).handledKeys = state.handledKeys ∪ marks.foldr
          (· ∪ ·) ∅ := by
  induction marks with
  | nil => intro state; simp
  | cons keys rest ih => simp_all

end AssetConditionState

namespace BaselineSource

variable (source : BaselineSource)

def withBaselines (root : String) (state : AssetConditionState) : AssetConditionState :=
  (source.eligibleDeps root).foldl source.insertBaseline state

theorem insertBaselines_eq (deps : List String) :
    ∀ state : AssetConditionState,
      deps.foldl source.insertBaseline state =
        { state with
          depBaselines := extend state.depBaselines
            (collect deps.toFinset fun dep => some (source.depBaseline dep)) } := by
  induction deps with
  | nil =>
    intro state
    have same : extend state.depBaselines
        (collect (∅ : Finset String) fun dep => some (source.depBaseline dep)) =
        state.depBaselines := by
      apply Finmap.ext_lookup
      intro dep
      simp [lookup_extend]
    simp only [List.foldl_nil, List.toFinset_nil, same]
  | cons dep rest ih =>
    intro state
    rw [List.foldl_cons, ih]
    simp only [insertBaseline]
    congr 1
    apply Finmap.ext_lookup
    grind [lookup_extend, lookup_collect, lookup_insert_ite, List.toFinset_cons]

theorem withBaselines_idem (root : String) (state : AssetConditionState) :
    source.withBaselines root (source.withBaselines root state) =
      source.withBaselines root state := by
  simp only [withBaselines, insertBaselines_eq]
  congr 1
  apply Finmap.ext_lookup
  intro dep
  simp only [lookup_extend, lookup_collect]
  split <;> simp

theorem withBaselines_scalarClone (root : String) (state : AssetConditionState) :
    (source.withBaselines root state).scalarClone =
      source.withBaselines root state.scalarClone := by
  simp only [withBaselines, insertBaselines_eq, scalarClone]

theorem withBaselines_handledKeys (root : String) (state : AssetConditionState) :
    (source.withBaselines root state).handledKeys = state.handledKeys := by
  simp only [withBaselines, insertBaselines_eq, AssetConditionState.handledKeys]

theorem lookup_updateRoot (assets : HashMap String AssetConditionState) (root key : String) :
    (source.updateRoot assets root).lookup key =
      if key = root then (assets.lookup key).map (source.withBaselines root)
      else assets.lookup key := by
  grind [lookup_insert_ite, updateRoot, withBaselines]

theorem lookup_updateRoots (roots : List String) (key : String) :
    ∀ assets : HashMap String AssetConditionState,
      (roots.foldl source.updateRoot assets).lookup key =
        if key ∈ roots then (assets.lookup key).map (source.withBaselines key)
        else assets.lookup key := by
  induction roots with
  | nil => intro assets; simp
  | cons root rest ih =>
    grind [lookup_updateRoot, withBaselines_idem, updateRoot]

theorem lookup_updateDepBaselines (assets : HashMap String AssetConditionState)
    (roots : List String) (key : String) (conditioned : key ∈ source.conditionedAssets) :
    (source.updateDepBaselines assets roots).lookup key =
      if key ∈ roots then (assets.lookup key).map (source.withBaselines key)
      else assets.lookup key := by
  have untouched : key ∉ (roots.flatMap source.eligibleDeps).toFinset := by
    grind [List.mem_toFinset, eligibleDeps]
  rw [← lookup_updateRoots]
  unfold updateDepBaselines
  rw [lookup_collect]
  by_cases present : key ∈ (roots.foldl source.updateRoot assets).keys
  · rw [if_pos (Finset.mem_union_left _ present), if_neg untouched]
  · grind [Finmap.lookup_eq_none, Finmap.mem_keys]

end BaselineSource

namespace ConditionPass

theorem lookup_markPartitionsHandled (keys : Finset PartitionKey)
    (assets : HashMap String AssetConditionState) (asset key : String) :
    (markPartitionsHandled keys assets asset).lookup key =
      if key = asset then (assets.lookup key).map (·.markHandled keys) else assets.lookup key := by
  grind [lookup_insert_ite, markPartitionsHandled, markHandled]

def marks (plan : MaterializationPlan) (skip : Finset String) :
    List (String × Finset PartitionKey) :=
  (plan.singlePartitionGroups.flatMap fun group =>
      (group.2.filter (· ∉ skip)).map fun asset => (asset, {group.1})) ++
    plan.multiPartitionBackfills.filter (·.1 ∉ skip)

def applyMark (assets : HashMap String AssetConditionState)
    (mark : String × Finset PartitionKey) : HashMap String AssetConditionState :=
  markPartitionsHandled mark.2 assets mark.1

theorem markDispatched_eq (plan : MaterializationPlan) (skip : Finset String)
    (assets : HashMap String AssetConditionState) :
    markDispatched plan skip assets = (marks plan skip).foldl applyMark assets := by
  have singles : ∀ (groups : List (PartitionKey × List String))
      (start : HashMap String AssetConditionState),
      groups.foldl (fun marked group =>
        (group.2.filter (· ∉ skip)).foldl (markPartitionsHandled {group.1}) marked) start =
      (groups.flatMap fun group =>
        (group.2.filter (· ∉ skip)).map fun asset =>
          (asset, ({group.1} : Finset PartitionKey))).foldl
          applyMark start := by
    intro groups
    induction groups with
    | nil => intro start; rfl
    | cons group rest ih =>
      intro start
      rw [List.foldl_cons, ih, List.flatMap_cons, List.foldl_append, List.foldl_map]
      rfl
  have backfills : ∀ (mats : List (String × Finset PartitionKey))
      (start : HashMap String AssetConditionState),
      mats.foldl (fun marked backfill =>
        if backfill.1 ∈ skip then marked
        else markPartitionsHandled backfill.2 marked backfill.1) start =
      (mats.filter (·.1 ∉ skip)).foldl applyMark start := by
    intro mats
    induction mats with
    | nil => intro start; rfl
    | cons mat rest ih => grind [applyMark]
  unfold markDispatched marks
  rw [List.foldl_append, ← singles, ← backfills]

theorem lookup_applyMarks (marks : List (String × Finset PartitionKey)) (key : String) :
    ∀ assets : HashMap String AssetConditionState,
      (marks.foldl applyMark assets).lookup key =
        (assets.lookup key).map
          (((marks.filter (·.1 = key)).map (·.2)).foldl markHandled) := by
  induction marks with
  | nil => intro assets; simp
  | cons mark rest ih =>
    intro assets
    rw [List.foldl_cons, ih, applyMark, lookup_markPartitionsHandled]
    by_cases same : mark.1 = key
    · subst same
      cases assets.lookup mark.1 <;> simp
    · simp [same, Ne.symm same]

theorem mem_foldr_union (sets : List (Finset PartitionKey)) (key : PartitionKey) :
    key ∈ sets.foldr (· ∪ ·) ∅ ↔ ∃ keys ∈ sets, key ∈ keys := by
  induction sets with
  | nil => simp
  | cons head rest ih => simp [ih]

theorem marks_dispatchedKeys (plan : MaterializationPlan) (skip : Finset String) (asset : String)
    (kept : asset ∉ skip) :
    (((marks plan skip).filter (·.1 = asset)).map (·.2)).foldr (· ∪ ·) ∅ =
      dispatchedKeys plan asset := by
  ext key
  simp only [dispatchedKeys, mem_foldr_union, Finset.mem_union, List.mem_toFinset, List.mem_map,
    List.mem_filter, marks, List.mem_append, List.mem_flatMap, decide_eq_true_eq,
    List.contains_iff_mem]
  constructor
  · grind
  · rintro (⟨group, ⟨inPlan, inGroup⟩, rfl⟩ | ⟨keys, ⟨mark, ⟨inPlan, same⟩, rfl⟩, mem⟩)
    · exact ⟨{group.1}, ⟨(asset, {group.1}),
        ⟨.inl ⟨group, inPlan, asset, ⟨inGroup, kept⟩, rfl⟩, rfl⟩, rfl⟩, by simp⟩
    · grind

theorem marks_skipped (plan : MaterializationPlan) (skip : Finset String) (asset : String)
    (left : asset ∈ skip) : (marks plan skip).filter (·.1 = asset) = [] := by
  grind [List.filter_eq_nil_iff, marks]

theorem lookup_stampDispatchedHandled (plan : MaterializationPlan) (skip : Finset String)
    (now : Int) (assets : HashMap String AssetConditionState) (key : String) :
    (stampDispatchedHandled plan skip now assets).lookup key =
      (assets.lookup key).map fun prev =>
        if key ∈ plan.dispatchedAssetKeys ∧ key ∉ skip then
          { prev with lastHandledTimestamp := some now }
        else prev := by
  simp [lookup_collect, Finmap.lookup_eq_none, Finmap.mem_keys, stampDispatchedHandled]

variable (pass : ConditionPass)

theorem commitRow_other (skip : Finset String) (now : Int)
    (progress : HashMap String AssetConditionState × List String) (row : EvalResultRow)
    (key : String) (other : key ≠ row.info.assetKey) :
    (pass.commitRow skip now progress row).1.lookup key = progress.1.lookup key ∧
      (key ∈ (pass.commitRow skip now progress row).2 ↔ key ∈ progress.2) := by
  grind [lookup_insert_ite, commitRow]

theorem commitRow_own (skip : Finset String) (now : Int)
    (progress : HashMap String AssetConditionState × List String) (row : EvalResultRow)
    (record : AssetRecord) (prev : AssetConditionState) (kept : row.info.assetKey ∉ skip)
    (recorded : pass.cache.records.lookup row.info.assetKey = some record)
    (tracked : progress.1.lookup row.info.assetKey = some prev)
    (fresh : row.info.assetKey ∉ progress.2) :
    (pass.commitRow skip now progress row).1.lookup row.info.assetKey =
        some (updateConditionState prev
          (updateContext now record (pass.partitionTimestamps row.info)) row.result) ∧
      (row.info.assetKey ∈ (pass.commitRow skip now progress row).2 ↔
        (row.result.fired || prev.isInitial) = true) := by
  simp only [commitRow, kept, if_false, recorded, tracked]
  refine ⟨by rw [lookup_insert_ite, if_pos rfl], ?_⟩
  split <;> simp_all

theorem commitRows_untouched (skip : Finset String) (now : Int) (key : String) :
    ∀ (rows : List EvalResultRow) (progress : HashMap String AssetConditionState × List String),
      (∀ row ∈ rows, row.info.assetKey = key → key ∈ skip) →
      (rows.foldl (pass.commitRow skip now) progress).1.lookup key = progress.1.lookup key ∧
        (key ∈ (rows.foldl (pass.commitRow skip now) progress).2 ↔ key ∈ progress.2) := by
  intro rows
  induction rows with
  | nil => intro progress _; exact ⟨rfl, Iff.rfl⟩
  | cons row rest ih =>
    intro progress passedOver
    obtain ⟨sameState, sameRoots⟩ := ih (pass.commitRow skip now progress row)
      (fun other mem => passedOver other (List.mem_cons_of_mem _ mem))
    rw [List.foldl_cons, sameState, sameRoots]
    grind [commitRow_other, commitRow]

theorem commitRows_own (skip : Finset String) (now : Int) (row : EvalResultRow)
    (record : AssetRecord) (prev : AssetConditionState) (kept : row.info.assetKey ∉ skip)
    (recorded : pass.cache.records.lookup row.info.assetKey = some record) :
    ∀ (rows : List EvalResultRow) (progress : HashMap String AssetConditionState × List String),
      row ∈ rows → (rows.map (·.info.assetKey)).Nodup →
      progress.1.lookup row.info.assetKey = some prev → row.info.assetKey ∉ progress.2 →
      (rows.foldl (pass.commitRow skip now) progress).1.lookup row.info.assetKey =
          some (updateConditionState prev
            (updateContext now record (pass.partitionTimestamps row.info)) row.result) ∧
        (row.info.assetKey ∈ (rows.foldl (pass.commitRow skip now) progress).2 ↔
          (row.result.fired || prev.isInitial) = true) := by
  intro rows
  induction rows with
  | nil => intro progress mem; cases mem
  | cons head rest ih =>
    intro progress mem nodup tracked fresh
    rw [List.map_cons, List.nodup_cons] at nodup
    rw [List.foldl_cons]
    rcases List.mem_cons.mp mem with rfl | inRest
    · have later : ∀ other ∈ rest, other.info.assetKey = row.info.assetKey →
          row.info.assetKey ∈ skip := by simp_all
      obtain ⟨sameState, sameRoots⟩ := commitRows_untouched pass skip now row.info.assetKey rest
        (pass.commitRow skip now progress row) later
      rw [sameState, sameRoots]
      exact commitRow_own pass skip now progress row record prev kept recorded tracked fresh
    · have other : row.info.assetKey ≠ head.info.assetKey := by
        intro same
        exact nodup.1 (List.mem_map.mpr ⟨row, inRest, same⟩)
      obtain ⟨sameState, sameRoots⟩ := commitRow_other pass skip now progress head _ other
      exact ih _ inRest nodup.2 (sameState.trans tracked) (fun found => fresh (sameRoots.mp found))

theorem mem_commitRows (skip : Finset String) (now : Int) (key : String) :
    ∀ (rows : List EvalResultRow) (progress : HashMap String AssetConditionState × List String),
      key ∈ progress.1 → key ∈ (rows.foldl (pass.commitRow skip now) progress).1 := by
  intro rows
  induction rows with
  | nil => intro progress tracked; exact tracked
  | cons row rest ih =>
    intro progress tracked
    refine ih _ ?_
    unfold commitRow
    dsimp only
    split
    · exact tracked
    · split
      · exact Finmap.mem_insert.mpr (.inr tracked)
      · exact tracked

structure RowsOf (rows : List EvalResultRow) : Prop where
  distinct : (rows.map (·.info.assetKey)).Nodup
  conditioned : ∀ row ∈ rows, row.info.assetKey ∈ pass.active

variable {pass}

def committedState (now : Int) (plan : MaterializationPlan) (row : EvalResultRow)
    (record : AssetRecord) (prev : AssetConditionState) (skip : Finset String)
    (pass : ConditionPass) : AssetConditionState :=
  let updated := updateConditionState prev
    (updateContext now record (pass.partitionTimestamps row.info)) row.result
  let baselined :=
    if row.result.fired || prev.isInitial then
      pass.baselineSource.withBaselines row.info.assetKey updated
    else updated
  let marked := (((marks plan skip).filter (·.1 = row.info.assetKey)).map (·.2)).foldl
    markHandled baselined
  if row.info.assetKey ∈ plan.dispatchedAssetKeys ∧ row.info.assetKey ∉ skip then
    { marked with lastHandledTimestamp := some now }
  else marked

theorem commitTick_assets (output : PassOutput) (dispatchFailed : Finset String) (now : Int)
    (key : String) :
    (pass.commitTick output dispatchFailed now).1.evalState.assets.lookup key =
      ((pass.baselineSource.updateDepBaselines
          (output.results.foldl (pass.commitRow (skipped output dispatchFailed) now)
            (pass.evalState.assets, [])).1
          (output.results.foldl (pass.commitRow (skipped output dispatchFailed) now)
            (pass.evalState.assets, [])).2).lookup key).map fun state =>
        let marked := (((marks output.plan (skipped output dispatchFailed)).filter
          (·.1 = key)).map (·.2)).foldl markHandled state
        if key ∈ output.plan.dispatchedAssetKeys ∧ key ∉ skipped output dispatchFailed then
          { marked with lastHandledTimestamp := some now }
        else marked := by
  unfold commitTick
  dsimp only
  rw [lookup_stampDispatchedHandled, markDispatched_eq, lookup_applyMarks, Option.map_map]
  rfl

theorem WellFormed.commitTick (wellFormed : pass.WellFormed) (output : PassOutput)
    (dispatchFailed : Finset String) (now : Int) :
    (pass.commitTick output dispatchFailed now).1.WellFormed := by
  refine ⟨wellFormed.distinct, fun key conditioned => ?_⟩
  have kept := pass.mem_commitRows (skipped output dispatchFailed) now key output.results
    (pass.evalState.assets, []) (wellFormed.tracked key conditioned)
  rw [← Finmap.lookup_isSome, commitTick_assets, Option.isSome_map,
    BaselineSource.lookup_updateDepBaselines _ _ _ _ conditioned]
  split
  · rw [Option.isSome_map]
    exact Finmap.lookup_isSome.mpr kept
  · exact Finmap.lookup_isSome.mpr kept

theorem commitTick_lookup_of_row (output : PassOutput) (dispatchFailed : Finset String) (now : Int)
    (rows : pass.RowsOf output.results) (row : EvalResultRow) (mem : row ∈ output.results)
    (record : AssetRecord) (prev : AssetConditionState)
    (kept : row.info.assetKey ∉ skipped output dispatchFailed)
    (recorded : pass.cache.records.lookup row.info.assetKey = some record)
    (tracked : pass.evalState.assets.lookup row.info.assetKey = some prev) :
    (pass.commitTick output dispatchFailed now).1.evalState.assets.lookup row.info.assetKey =
      some (committedState now output.plan row record prev (skipped output dispatchFailed)
        pass) := by
  obtain ⟨state, isRoot⟩ := commitRows_own pass (skipped output dispatchFailed) now row record prev
    kept recorded output.results (pass.evalState.assets, []) mem rows.distinct tracked
    (List.not_mem_nil)
  rw [commitTick_assets, BaselineSource.lookup_updateDepBaselines _ _ _ _
    (rows.conditioned row mem), state]
  unfold committedState
  grind

theorem commitTick_lookup_of_skipped (output : PassOutput) (dispatchFailed : Finset String)
    (now : Int) (key : String) (conditioned : key ∈ pass.active)
    (left : key ∈ skipped output dispatchFailed) :
    (pass.commitTick output dispatchFailed now).1.evalState.assets.lookup key =
      pass.evalState.assets.lookup key := by
  obtain ⟨state, isRoot⟩ := commitRows_untouched pass (skipped output dispatchFailed) now key
    output.results (pass.evalState.assets, []) (fun _ _ _ => left)
  rw [commitTick_assets, BaselineSource.lookup_updateDepBaselines _ _ _ _ conditioned, state,
    marks_skipped _ _ _ left]
  grind [Option.map_id']

end ConditionPass

end Rivers
