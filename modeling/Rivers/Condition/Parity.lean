import Rivers.Condition.EvalSim
import Rivers.Condition.Selection

/-! A partitioned evaluation is an unpartitioned one key by key. -/

namespace Rivers

open FiniteMap PartitionDomain PartitionSelection

def isParityNode : ConditionNode → Bool
  | .leaf (.inLatestTimeWindow _) | .leaf .backfillInProgress | .leaf (.lastExecutedWithTags _ _)
  | .leaf .lastRunIncludesTarget | .leaf (.hasRunWithTags _ _) | .leaf (.allRunsHaveTags _ _) =>
      false
  | node => !node.isDepAggregate

def readsDataVersion : ConditionNode → Bool
  | .leaf .dataVersionChanged => true
  | _ => false

structure PartitionTick where
  ctx : EvalContext
  pctx : PartitionEvalContext
  dispatched : Finset PartitionKey

namespace PartitionTick

variable (asset : String) (key : PartitionKey) (state : AssetConditionState) (tick : PartitionTick)

def context : EvalContext :=
  { tick.ctx with
    targetKey := asset
    rootKey := asset
    prevState := state
    allAssetStates := tick.ctx.allAssetStates.insert asset state
    partitions := some { tick.pctx with depRootFloor := none }
    rootPartitionFloor := none }

def keyTimestamp : Option Int :=
  tick.pctx.timestamps.lookup key

def keyContext : EvalContext :=
  { tick.context asset state with
    targetRecord :=
      { tick.ctx.targetRecord with
        lastTimestamp := tick.keyTimestamp key
        lastRunId := (tick.keyTimestamp key).map fun _ => "" }
    cache :=
      { tick.ctx.cache with
        inProgressAssets := if key ∈ tick.pctx.inProgress then {asset} else ∅
        failedAssets := if key ∈ tick.pctx.failed then {asset} else ∅ }
    requestedThisTick :=
      if (getD tick.ctx.requestedThisTick asset .empty).covers key then
        (∅ : HashMap String PartitionSelection).insert asset .all
      else ∅
    partitions := none }

def carry (node : ConditionNode) : AssetConditionState :=
  let ctx := tick.context asset state
  let updated := updateConditionState state (.fromEvalContext ctx) (evaluate node ctx)
  if tick.dispatched = ∅ then updated
  else { updated.markHandled tick.dispatched with lastHandledTimestamp := some tick.ctx.now }

def keyCarry (node : ConditionNode) : AssetConditionState :=
  let ctx := tick.keyContext asset key state
  let updated := updateConditionState state (.fromEvalContext ctx) (evaluate node ctx)
  if key ∈ tick.dispatched then { updated with lastHandledTimestamp := some tick.ctx.now }
  else updated

end PartitionTick

def partitionRun (asset : String) (node : ConditionNode) :
    AssetConditionState → List PartitionTick → List EvalResult
  | _, [] => []
  | state, tick :: ticks =>
      evaluate node (tick.context asset state) ::
        partitionRun asset node (tick.carry asset state node) ticks

def keyRun (asset : String) (key : PartitionKey) (node : ConditionNode) :
    AssetConditionState → List PartitionTick → List EvalResult
  | _, [] => []
  | state, tick :: ticks =>
      evaluate node (tick.keyContext asset key state) ::
        keyRun asset key node (tick.keyCarry asset key state node) ticks

structure AgreesAt (key : PartitionKey) (result keyResult : EvalResult) : Prop where
  selection : result.selection.map (·.covers key) = some keyResult.fired
  latches : ∀ index, ((result.subSelections.getD ∅).lookup index).map (·.covers key) =
    keyResult.subResults.lookup index

def justHandled (state : AssetConditionState) : Prop :=
  ∃ now, state.lastHandledTimestamp = some now ∧ state.lastTickTimestamp = some now

def HandledInOrder (state : AssetConditionState) : Prop :=
  ∀ handled, state.lastHandledTimestamp = some handled →
    ∃ lastTick, state.lastTickTimestamp = some lastTick ∧ handled ≤ lastTick

structure HandledParity (key : PartitionKey) (state keyState : AssetConditionState) : Prop where
  handled : justHandled keyState ↔ justHandled state ∧ key ∈ state.handledKeys
  inOrder : HandledInOrder state
  keyInOrder : HandledInOrder keyState

structure KeyParity (tree : ConditionNode) (key : PartitionKey)
    (state keyState : AssetConditionState) :
    Prop where
  latches : ∀ index, (state.partitionState.bind (·.previousSelections.lookup index)).map
    (·.covers key) =
    keyState.previousResults.lookup index
  timestamp : state.partitionState.bind (·.timestamps.lookup key) =
    keyState.lastMaterializedTimestamp
  version : state.lastDataVersion = keyState.lastDataVersion
  lastTick : state.lastTickTimestamp = keyState.lastTickTimestamp
  handled : tree.readsMarks = true → HandledParity key state keyState

def VersionAppearsWith (key : PartitionKey) (version : Option String)
    (timestamp keyTimestamp : Option Int) (tick : PartitionTick) : Prop :=
  version = none → tick.ctx.targetRecord.lastDataVersion.isSome → tick.ctx.isInitial = false →
    (timestamp ≠ tick.ctx.targetRecord.lastTimestamp ↔ keyTimestamp ≠ tick.keyTimestamp key)

theorem requestedLastTick_iff (ctx : EvalContext) :
    requestedLastTick ctx = true ↔ justHandled ctx.prevState := by
  unfold requestedLastTick justHandled
  cases ctx.prevState.lastHandledTimestamp with
  | none => simp
  | some handled => simp [eq_comm]

section Readings

variable (ctx : EvalContext) {key : PartitionKey} (live : key ∈ (requirePctx ctx).allKeys)

include live

theorem covers_selectInUniverse (keys : Finset PartitionKey) :
    (selectInUniverse keys (requirePctx ctx)).covers key =
      decide (key ∈ keys) := by
  simp only [PartitionDomain.selectInUniverse, PartitionSelection.covers_fromKeys,
    Finset.mem_filter, live, and_true]

theorem covers_missing :
    (missing ctx).covers key =
      ((requirePctx ctx).timestamps.lookup key).isNone := by
  grind [covers_fromKeys, Option.isNone_iff_eq_none, Finmap.lookup_eq_none, missing]

theorem covers_newlyUpdated :
    (newlyUpdated ctx).covers key =
      match (requirePctx ctx).timestamps.lookup key with
      | none => false
      | some ts => isNewlyUpdated ctx (requirePctx ctx) key ts := by
  simp only [newlyUpdated, covers_fromKeys, Finset.mem_filter,
    Finmap.mem_keys, live, true_and]
  cases lookup : (requirePctx ctx).timestamps.lookup key with
  | none => simp
  | some ts => simp [Finmap.mem_of_lookup_eq_some lookup]

end Readings

section Tick

variable {asset : String} {tree : ConditionNode} {key : PartitionKey}
  {state keyState : AssetConditionState} {tick : PartitionTick}

theorem context_requirePctx :
    requirePctx (tick.context asset state) = { tick.pctx with depRootFloor := none } :=
  rfl

theorem context_rootHandledState :
    rootHandledState (tick.context asset state) =
      (state.lastHandledTimestamp, state.lastTickTimestamp) := by
  simp [rootHandledState, PartitionTick.context]

theorem keyContext_rootHandledState :
    rootHandledState (tick.keyContext asset key keyState) =
      (keyState.lastHandledTimestamp, keyState.lastTickTimestamp) := by
  simp [rootHandledState, PartitionTick.keyContext, PartitionTick.context]

theorem context_rootLastTick :
    rootLastTick (tick.context asset state) = state.lastTickTimestamp := by
  simp [rootLastTick, PartitionTick.context]

theorem keyContext_rootLastTick :
    rootLastTick (tick.keyContext asset key keyState) = keyState.lastTickTimestamp := by
  simp [rootLastTick, PartitionTick.keyContext, PartitionTick.context]

theorem wasJustHandled_iff (asset : String) (tick : PartitionTick)
    (inOrder : HandledInOrder state) :
    wasJustHandled (tick.context asset state) = true ↔ justHandled state := by
  grind [context_rootHandledState, wasJustHandled, justHandled, HandledInOrder]

theorem keySinceLastHandled_eq (inOrder : HandledInOrder keyState) (current : Bool) :
    BoolDomain.sinceLastHandled current (tick.keyContext asset key keyState) = true ↔
      current = true ∧ ¬justHandled keyState := by
  grind [keyContext_rootHandledState, BoolDomain.sinceLastHandled, justHandled, HandledInOrder]

theorem sinceLastHandled_parity (parity : HandledParity key state keyState)
    (live : key ∈ tick.pctx.allKeys) {current} :
    (sinceLastHandled current (tick.context asset state)).covers key =
      BoolDomain.sinceLastHandled (current.covers key) (tick.keyContext asset key keyState) := by
  rw [Bool.eq_iff_iff, keySinceLastHandled_eq parity.keyInOrder, parity.handled]
  unfold sinceLastHandled
  have root : (tick.context asset state).targetKey = (tick.context asset state).rootKey := rfl
  have prev : (tick.context asset state).prevState = state := rfl
  have decided := wasJustHandled_iff asset tick parity.inOrder
  by_cases empty : current.isEmpty = true
  · simp [empty, covers_of_isEmpty current key empty]
  · by_cases just : justHandled state
    · simp only [empty, decided.mpr just, root, prev, just]
      cases hasState : state.partitionState with
      | none => simp [AssetConditionState.handledKeys, hasState]
      | some partitionState =>
        simp [AssetConditionState.handledKeys, hasState, covers_difference _ _ _ live,
          context_requirePctx]
    · simp_all

theorem newlyUpdated_parity (parity : KeyParity tree key state keyState)
    (live : key ∈ tick.pctx.allKeys) :
    (newlyUpdated (tick.context asset state)).covers key =
      BoolDomain.newlyUpdated (tick.keyContext asset key keyState) := by
  have previous : (tick.context asset state).prevState.partitionState.bind
      (·.timestamps.lookup key) = keyState.lastMaterializedTimestamp := parity.timestamp
  rw [covers_newlyUpdated (tick.context asset state) live]
  have root : (tick.keyContext asset key keyState).targetKey =
      (tick.keyContext asset key keyState).rootKey := rfl
  simp only [BoolDomain.newlyUpdated, root, ne_eq, not_true_eq_false, if_false]
  have stamp : (tick.keyContext asset key keyState).targetRecord.lastTimestamp =
    tick.pctx.timestamps.lookup key := rfl
  have keyPrevious : (tick.keyContext asset key keyState).prevState = keyState := rfl
  have sameInitial : (tick.keyContext asset key keyState).isInitial = tick.ctx.isInitial := rfl
  rw [stamp, keyPrevious, sameInitial]
  grind [isNewlyUpdated, PartitionTick.context, requirePctx]

theorem newlyRequested_parity (parity : HandledParity key state keyState)
    (live : key ∈ tick.pctx.allKeys) :
    (newlyRequested (tick.context asset state)).covers key =
      requestedLastTick (tick.keyContext asset key keyState) := by
  have prev : (tick.context asset state).prevState = state := rfl
  have keyPrev : (tick.keyContext asset key keyState).prevState = keyState := rfl
  rw [Bool.eq_iff_iff, requestedLastTick_iff, keyPrev, parity.handled]
  have asked := requestedLastTick_iff (tick.context asset state)
  rw [prev] at asked
  unfold newlyRequested
  by_cases just : justHandled state
  · grind [covers_selectInUniverse, covers, PartitionTick.context, requirePctx,
      AssetConditionState.handledKeys]
  · rw [if_neg (mt asked.mp just)]
    simp [just]

theorem dataVersionChanged_parity (parity : KeyParity tree key state keyState)
    (appears : VersionAppearsWith key state.lastDataVersion state.lastMaterializedTimestamp
      keyState.lastMaterializedTimestamp tick) :
    dataVersionChanged (tick.context asset state) =
      dataVersionChanged (tick.keyContext asset key keyState) := by
  have baseline : dataVersionBaseline (tick.context asset state) =
      (state.lastDataVersion, state.lastMaterializedTimestamp) := by
    unfold dataVersionBaseline
    split <;> simp [PartitionTick.context]
  have keyBaseline : dataVersionBaseline (tick.keyContext asset key keyState) =
      (keyState.lastDataVersion, keyState.lastMaterializedTimestamp) := by
    unfold dataVersionBaseline
    split <;> simp [PartitionTick.keyContext, PartitionTick.context]
  unfold dataVersionChanged
  rw [baseline, keyBaseline, ← parity.version]
  simp only [PartitionTick.keyContext, PartitionTick.context]
  unfold VersionAppearsWith at appears
  cases current : tick.ctx.targetRecord.lastDataVersion with
  | none => rfl
  | some ver =>
    cases previous : state.lastDataVersion with
    | some pre => rfl
    | none =>
      cases initial : tick.ctx.isInitial with
      | true => rfl
      | false =>
        have moved := appears previous (by simp [current]) initial
        rw [current] at *
        simp only [Bool.not_false, Bool.true_and]
        exact decide_eq_decide.mpr moved

theorem leaf_parity (parity : KeyParity tree key state keyState) (live : key ∈ tick.pctx.allKeys)
    (appears : tree.anyNode readsDataVersion = true → VersionAppearsWith key state.lastDataVersion
      state.lastMaterializedTimestamp keyState.lastMaterializedTimestamp tick)
    (kind : ConditionLeaf) (inside : (ConditionNode.leaf kind).Within tree)
    (comparable : isParityNode (.leaf kind) = true) :
    (evalLeaf partitionDomain (tick.context asset state) kind).covers key =
      evalLeaf boolDomain (tick.keyContext asset key keyState) kind := by
  cases kind with
  | missing =>
    refine (covers_missing (tick.context asset state) live).trans ?_
    simp [evalLeaf, boolDomain, PartitionTick.keyContext, PartitionTick.keyTimestamp,
      context_requirePctx]
  | inProgress =>
    refine (covers_selectInUniverse (tick.context asset state) live _).trans ?_
    grind [requirePctx, PartitionTick.context, evalLeaf, boolDomain, PartitionTick.keyContext]
  | executionFailed =>
    refine (covers_selectInUniverse (tick.context asset state) live _).trans ?_
    grind [requirePctx, PartitionTick.context, evalLeaf, boolDomain, PartitionTick.keyContext]
  | newlyUpdated => exact newlyUpdated_parity parity live
  | newlyRequested => exact newlyRequested_parity (parity.handled (inside.anyNode rfl)) live
  | willBeRequested =>
    change (getD tick.ctx.requestedThisTick asset .empty).covers key =
      decide (asset ∈ (tick.keyContext asset key keyState).requestedThisTick)
    cases covered : (getD tick.ctx.requestedThisTick asset .empty).covers key <;>
      simp [PartitionTick.keyContext, covered, Finmap.notMem_empty]
  | codeVersionChanged => exact covers_fromBool key _
  | initialEvaluation => exact covers_fromBool key _
  | dataVersionChanged =>
    exact (covers_fromBool key _).trans
      (dataVersionChanged_parity parity (appears (inside.anyNode rfl)))
  | cronTickPassed cronSchedule timezone =>
    refine (covers_fromBool key _).trans ?_
    change cronTickPassed (tick.context asset state) cronSchedule timezone =
      cronTickPassed (tick.keyContext asset key keyState) cronSchedule timezone
    simp only [cronTickPassed, context_rootLastTick, keyContext_rootLastTick, parity.lastTick]
    rfl
  | inLatestTimeWindow _ | backfillInProgress | lastExecutedWithTags _ _ | lastRunIncludesTarget
  | hasRunWithTags _ _ | allRunsHaveTags _ _ => simp [isParityNode] at comparable

structure StateParity (key : PartitionKey) (st : EvalState PartitionSelection)
    (keySt : EvalState Bool) : Prop where
  counter : st.counter = keySt.counter
  atRoot : st.scope.curPrev = none
  keyAtRoot : keySt.scope.curPrev = none
  sub : ∀ index, (st.sub.lookup index).map (·.covers key) = keySt.sub.lookup index

def isComparable (node : ConditionNode) : Prop :=
  node.anyNode (fun inner => !isParityNode inner) = false

instance (node : ConditionNode) : Decidable (isComparable node) :=
  inferInstanceAs (Decidable (_ = _))

theorem not_isDepAggregate_of_isComparable {node} (comparable : isComparable node) :
    node.isDepAggregate = false := by
  have self := ConditionNode.anyNode_self comparable
  cases node <;> simp_all [isParityNode, ConditionNode.isDepAggregate]

theorem prevLatch_parity (parity : KeyParity tree key state keyState) {st keySt}
    (states : StateParity key st keySt) (index : Nat) :
    (prevPartitionLatch st.scope (tick.context asset state) index).covers key =
      boolDomain.prevLatch keySt.scope (tick.keyContext asset key keyState) index := by
  have latch := parity.latches index
  have keyLatch : boolDomain.prevLatch keySt.scope (tick.keyContext asset key keyState) index =
      ((keySt.scope.curPrev.getD keyState.previousResults).lookup index).getD false := rfl
  rw [keyLatch, prevPartitionLatch, states.atRoot, states.keyAtRoot, Option.getD_none, ← latch]
  change ((state.partitionState.bind (·.previousSelections.lookup index)).getD .empty).covers key =
    _
  cases state.partitionState.bind (·.previousSelections.lookup index) <;> rfl

theorem parity_sim (parity : KeyParity tree key state keyState) (live : key ∈ tick.pctx.allKeys)
    (appears : tree.anyNode readsDataVersion = true → VersionAppearsWith key state.lastDataVersion
      state.lastMaterializedTimestamp keyState.lastMaterializedTimestamp tick)
    (comparable : isComparable tree) :
    EvalSim partitionDomain boolDomain (fun sel value => sel.covers key = value)
      (fun scope ctx₁ ctx₂ => scope = .root ∧ ctx₁ = tick.context asset state ∧
        ctx₂ = tick.keyContext asset key keyState)
      (fun _ st keySt => StateParity key st keySt)
      (fun scope node => scope = .root ∧ node.Within tree) where
  child := fun ⟨atRoot, inside⟩ _ member => ⟨atRoot, inside.child member⟩
  condition := fun ⟨_, inside⟩ aggregate _ => by
    rw [not_isDepAggregate_of_isComparable (inside _ comparable)] at aggregate
    cases aggregate
  counter := fun states => states.counter
  atCounter := fun states _ => ⟨rfl, states.atRoot, states.keyAtRoot, states.sub⟩
  record := fun states related index => by
    refine ⟨states.counter, states.atRoot, states.keyAtRoot, fun other => ?_⟩
    simp only [EvalState.record_sub, lookup_insert_ite]
    split
    · simp [related]
    · exact states.sub other
  leaf := fun ⟨_, inside⟩ ⟨_, isContext, isKeyContext⟩ => by
    subst isContext isKeyContext
    have self := ConditionNode.anyNode_self (inside _ comparable)
    exact leaf_parity parity live appears _ inside (by simpa using self)
  init := fun quant => by cases quant <;> rfl
  combine := fun quant left right => by
    subst left right
    cases quant
    · exact PartitionSelection.covers_union _ _ key
    · exact PartitionSelection.covers_intersect _ _ key
  saturated := fun {sel _ quant} related saturated => by
    subst related
    cases quant with
    | any => exact PartitionSelection.covers_of_isAll sel key saturated
    | all =>
      have empty : sel.isEmpty = true := by
        simpa [Quantifier.saturated, partitionDomain, PartitionSelection.toBool] using saturated
      simp [Quantifier.saturated, boolDomain, PartitionSelection.covers_of_isEmpty sel key empty]
  absorb := fun {sel _ quant} related _ saturated other => by
    subst related
    cases quant with
    | any =>
      have covered : sel.covers key = true := saturated
      exact (PartitionSelection.covers_union sel other key).trans (by simp [covered])
    | all =>
      have uncovered : sel.covers key = false := by
        simpa [Quantifier.saturated, boolDomain] using saturated
      exact (PartitionSelection.covers_intersect sel other key).trans (by simp [uncovered])
  not := fun ⟨_, isContext, _⟩ related => by
    subst isContext related
    exact PartitionSelection.covers_complement _ key live
  difference := fun ⟨_, isContext, _⟩ left right => by
    subst isContext left right
    exact PartitionSelection.covers_difference _ _ key live
  restrict := fun ⟨_, isContext, _⟩ related => by
    subst isContext related
    exact PartitionSelection.covers_restrictTo _ key live
  sinceLastHandled := fun ⟨_, inside⟩ ⟨_, isContext, isKeyContext⟩ related => by
    subst isContext isKeyContext related
    exact sinceLastHandled_parity (parity.handled (inside.anyNode rfl)) live
  prevLatch := fun _ _ ⟨_, isContext, isKeyContext⟩ states index => by
    subst isContext isKeyContext
    exact prevLatch_parity parity states index
  deps := fun ⟨_, inside⟩ aggregate _ => by
    rw [not_isDepAggregate_of_isComparable (inside _ comparable)] at aggregate
    cases aggregate
  pivot := fun ⟨inDep, _⟩ _ _ _ => by cases inDep
  stateless := partitionDomain_statelessPivot

theorem evaluate_parity (parity : KeyParity tree key state keyState)
    (live : key ∈ tick.pctx.allKeys)
    (appears : tree.anyNode readsDataVersion = true → VersionAppearsWith key state.lastDataVersion
      state.lastMaterializedTimestamp keyState.lastMaterializedTimestamp tick)
    (comparable : isComparable tree) :
    AgreesAt key (evaluate tree (tick.context asset state))
      (evaluate tree (tick.keyContext asset key keyState)) := by
  have states : StateParity key
      { counter := 0, sub := ∅,
        scope :=
          { prev := partitionDomain.rootDepPrev (tick.context asset state), acc := ∅,
            curPrev := none, bridged := ∅ } }
      { counter := 0, sub := ∅,
        scope :=
          { prev := boolDomain.rootDepPrev (tick.keyContext asset key keyState), acc := ∅,
            curPrev := none, bridged := ∅ } } :=
    ⟨rfl, rfl, rfl, fun _ => rfl⟩
  have evaluated := eval_sim (@parity_sim asset tree key state keyState tick parity live appears
    comparable) tree
    .root ⟨rfl, fun _ none => none⟩ ⟨rfl, rfl, rfl⟩ false false states
  exact ⟨congrArg some evaluated.1, evaluated.2.sub⟩

theorem carry_partitionState (asset : String) (state : AssetConditionState) (tick : PartitionTick)
    (node : ConditionNode) :
    ∃ partitionState, (tick.carry asset state node).partitionState = some partitionState ∧
      partitionState.previousSelections =
        (evaluate node (tick.context asset state)).subSelections.getD ∅ ∧
      partitionState.timestamps = tick.pctx.timestamps ∧
      partitionState.handled = tick.dispatched := by
  have updated : (updateConditionState state (.fromEvalContext (tick.context asset state))
      (evaluate node (tick.context asset state))).partitionState =
      some (updatePartitionState (state.partitionState.getD {})
        ((evaluate node (tick.context asset state)).subSelections.getD ∅)
        (evaluate node (tick.context asset state)).depSubSelections tick.pctx.timestamps) := rfl
  have timestamps := updatePartitionState_timestamps (state.partitionState.getD {})
    ((evaluate node (tick.context asset state)).subSelections.getD ∅)
    (evaluate node (tick.context asset state)).depSubSelections tick.pctx.timestamps
  by_cases nothing : tick.dispatched = ∅
  · simp only [PartitionTick.carry, nothing, if_true]
    exact ⟨_, updated, rfl, timestamps, rfl⟩
  · simp only [PartitionTick.carry, AssetConditionState.markHandled, nothing, if_false, updated,
      Option.getD_some]
    exact ⟨_, rfl, rfl, timestamps, Finset.empty_union tick.dispatched⟩

theorem carry_lastHandledTimestamp (asset : String) (state : AssetConditionState)
    (tick : PartitionTick) (node : ConditionNode) :
    (tick.carry asset state node).lastHandledTimestamp =
      if tick.dispatched = ∅ then state.lastHandledTimestamp else some tick.ctx.now := by
  simp only [PartitionTick.carry]
  split <;> rfl

theorem keyCarry_lastHandledTimestamp (asset : String) (key : PartitionKey)
    (keyState : AssetConditionState) (tick : PartitionTick) (node : ConditionNode) :
    (tick.keyCarry asset key keyState node).lastHandledTimestamp =
      if key ∈ tick.dispatched then some tick.ctx.now else keyState.lastHandledTimestamp := by
  simp only [PartitionTick.keyCarry]
  split <;> rfl

theorem carry_readings (asset : String) (state : AssetConditionState) (tick : PartitionTick)
    (node : ConditionNode) :
    (tick.carry asset state node).lastTickTimestamp = some tick.ctx.now ∧
      (tick.carry asset state node).lastDataVersion = tick.ctx.targetRecord.lastDataVersion ∧
      (tick.carry asset state node).lastMaterializedTimestamp =
        tick.ctx.targetRecord.lastTimestamp := by
  simp only [PartitionTick.carry]
  split <;> exact ⟨rfl, rfl, rfl⟩

theorem keyCarry_readings (asset : String) (key : PartitionKey) (keyState : AssetConditionState)
    (tick : PartitionTick) (node : ConditionNode) :
    (tick.keyCarry asset key keyState node).lastTickTimestamp = some tick.ctx.now ∧
      (tick.keyCarry asset key keyState node).lastDataVersion =
        tick.ctx.targetRecord.lastDataVersion ∧
      (tick.keyCarry asset key keyState node).lastMaterializedTimestamp = tick.keyTimestamp key ∧
      (tick.keyCarry asset key keyState node).previousResults =
        (evaluate node (tick.keyContext asset key keyState)).subResults := by
  simp only [PartitionTick.keyCarry]
  split <;> exact ⟨rfl, rfl, rfl, rfl⟩

theorem stale_handled {pre} (inOrder : HandledInOrder pre) {now}
    (later : ∀ lastTick, pre.lastTickTimestamp = some lastTick → lastTick < now) :
    ∀ handled, pre.lastHandledTimestamp = some handled → handled < now := by grind [HandledInOrder]

theorem carry_handledParity (parity : HandledParity key state keyState)
    (sameTick : state.lastTickTimestamp = keyState.lastTickTimestamp)
    (later : ∀ lastTick, state.lastTickTimestamp = some lastTick → lastTick < tick.ctx.now)
    (node : ConditionNode) :
    HandledParity key (tick.carry asset state node) (tick.keyCarry asset key keyState node) := by
  obtain ⟨ticked, -, -⟩ := carry_readings asset state tick node
  obtain ⟨keyTicked, -⟩ := keyCarry_readings asset key keyState tick node
  have stale := stale_handled parity.inOrder later
  have keyStale := stale_handled parity.keyInOrder (fun lastTick keyTick =>
    later lastTick (sameTick.trans keyTick))
  have handledNow := carry_lastHandledTimestamp asset state tick node
  have keyHandledNow := keyCarry_lastHandledTimestamp asset key keyState tick node
  obtain ⟨partitionState, isState, -, -, handledKeysNow⟩ :=
    carry_partitionState asset state tick node
  refine ⟨?_, ?_, ?_⟩
  · grind [AssetConditionState.handledKeys, justHandled]
  · grind [HandledInOrder]
  · grind [HandledInOrder]

theorem carry_parity (parity : KeyParity tree key state keyState)
    (later : tree.readsMarks = true →
      ∀ lastTick, state.lastTickTimestamp = some lastTick → lastTick < tick.ctx.now) {node}
    (agrees : AgreesAt key (evaluate node (tick.context asset state))
      (evaluate node (tick.keyContext asset key keyState))) :
    KeyParity tree key (tick.carry asset state node) (tick.keyCarry asset key keyState node) := by
  obtain ⟨ticked, version, -⟩ := carry_readings asset state tick node
  obtain ⟨keyTicked, keyVersion, keyTimestamp, keyLatches⟩ :=
    keyCarry_readings asset key keyState tick node
  obtain ⟨partitionState, isState, latches, timestamps, -⟩ :=
    carry_partitionState asset state tick node
  refine ⟨fun index => ?_, ?_, version.trans keyVersion.symm, ticked.trans keyTicked.symm,
    fun reads => ?_⟩
  · rw [isState, Option.bind_some, latches, keyLatches]
    exact agrees.latches index
  · rw [isState, keyTimestamp, Option.bind_some, timestamps]
    rfl
  · exact carry_handledParity (parity.handled reads) parity.lastTick (later reads) node

end Tick

def VersionsAppearWith (key : PartitionKey) :
    Option String → Option Int → Option Int → List PartitionTick → Prop
  | _, _, _, [] => True
  | version, timestamp, keyTimestamp, tick :: ticks =>
      VersionAppearsWith key version timestamp keyTimestamp tick ∧
        VersionsAppearWith key tick.ctx.targetRecord.lastDataVersion
          tick.ctx.targetRecord.lastTimestamp (tick.keyTimestamp key) ticks

instance (key : PartitionKey) (version : Option String) (timestamp keyTimestamp : Option Int)
    (tick : PartitionTick) :
    Decidable (VersionAppearsWith key version timestamp keyTimestamp tick) :=
  inferInstanceAs (Decidable (_ → _ → _ → _))

theorem keyParity_default (tree : ConditionNode) (key : PartitionKey) :
    KeyParity tree key {} {} where
  latches := fun _ => rfl
  timestamp := rfl
  version := rfl
  lastTick := rfl
  handled := fun _ =>
    ⟨by simp [justHandled], fun _ isHandled => by simp at isHandled,
      fun _ isHandled => by simp at isHandled⟩

theorem partitionRun_agrees_of_parity {asset key node} (comparable : isComparable node)
    (ticks : List PartitionTick) {state keyState} (parity : KeyParity node key state keyState)
    (live : ∀ tick ∈ ticks, key ∈ tick.pctx.allKeys)
    (later : node.readsMarks = true → ∀ tick ∈ ticks, ∀ lastTick,
      state.lastTickTimestamp = some lastTick → lastTick < tick.ctx.now)
    (increasing : node.readsMarks = true → (ticks.map (·.ctx.now)).Pairwise (· < ·))
    (appear : node.anyNode readsDataVersion = true → VersionsAppearWith key state.lastDataVersion
      state.lastMaterializedTimestamp keyState.lastMaterializedTimestamp ticks) :
    List.Forall₂ (AgreesAt key) (partitionRun asset node state ticks)
      (keyRun asset key node keyState ticks) := by
  induction ticks generalizing state keyState with
  | nil => exact .nil
  | cons tick ticks ih =>
    have agrees : AgreesAt key (evaluate node (tick.context asset state))
        (evaluate node (tick.keyContext asset key keyState)) :=
      evaluate_parity parity (live tick List.mem_cons_self)
        (fun reads => (appear reads).1) comparable
    refine .cons agrees ?_
    obtain ⟨ticked, version, timestamp⟩ := carry_readings asset state tick node
    obtain ⟨-, -, keyTimestamp, -⟩ := keyCarry_readings asset key keyState tick node
    apply ih (carry_parity parity (fun reads => later reads tick List.mem_cons_self) agrees)
    · exact fun other mem => live other (List.mem_cons_of_mem _ mem)
    · intro reads other mem lastTick isLast
      rw [ticked, Option.some.injEq] at isLast
      rw [← isLast]
      exact (List.pairwise_cons.mp (increasing reads)).1 _ (List.mem_map_of_mem mem)
    · exact fun reads => (List.pairwise_cons.mp (increasing reads)).2
    · intro reads
      rw [version, timestamp, keyTimestamp]
      exact (appear reads).2

/-- A key that stays in the universe fires as in the unpartitioned evaluation of its own readings.
-/
theorem partitionRun_agrees (asset : String) (key : PartitionKey) (node : ConditionNode)
    (comparable : isComparable node) (ticks : List PartitionTick)
    (live : ∀ tick ∈ ticks, key ∈ tick.pctx.allKeys)
    (increasing : node.readsMarks = true → (ticks.map (·.ctx.now)).Pairwise (· < ·))
    (appear : node.anyNode readsDataVersion = true → VersionsAppearWith key none none none ticks) :
    List.Forall₂ (AgreesAt key) (partitionRun asset node {} ticks)
      (keyRun asset key node {} ticks) :=
  partitionRun_agrees_of_parity comparable ticks (keyParity_default node key) live
    (fun _ _ _ _ isLast => by cases isLast) increasing appear

def readingTick (now : Int) (isInitial : Bool) (record : AssetRecord)
    (allKeys : Finset PartitionKey) (timestamps : HashMap PartitionKey Int)
    (dispatched : Finset PartitionKey) : PartitionTick where
  ctx :=
    { targetKey := record.assetKey, rootKey := record.assetKey, targetRecord := record
      cache := ⟨∅, ∅, ∅, ∅, ∅, {}⟩, tags := ⟨∅, ∅, ∅⟩, prevState := {}, allAssetStates := ∅
      requestedThisTick := ∅, now := now, isInitial := isInitial, partitions := none
      rootPartitionFloor := none, cronTickBetween := fun _ _ _ _ => false }
  pctx := ⟨allKeys, ∅, ∅, timestamps, .empty, none, ∅, none⟩
  dispatched := dispatched

theorem partitionRun_agrees_materialized :
    let ticks :=
      [readingTick 1 true { assetKey := "a" } {.single ["k"]} ∅ {.single ["k"]},
        readingTick 2 false { assetKey := "a", lastTimestamp := some 2, lastDataVersion := some "v" }
          {.single ["k"], .single ["l"]} ((∅ : HashMap PartitionKey Int).insert (.single ["k"]) 2)
            ∅]
    let node := ConditionNode.or [.leaf .dataVersionChanged,
      .since (.leaf .missing) (.sinceLastHandled (.leaf .newlyUpdated))]
    List.Forall₂ (AgreesAt (.single ["k"])) (partitionRun "a" node {} ticks)
      (keyRun "a" (.single ["k"]) node {} ticks) :=
  partitionRun_agrees "a" (.single ["k"]) _ (by decide) _ (by decide) (fun _ => by decide)
    fun _ => ⟨by decide, by decide, trivial⟩

def versionTicks : List PartitionTick :=
  let allKeys : Finset PartitionKey := {.single ["j"], .single ["k"]}
  [readingTick 1 true { assetKey := "a" } allKeys ∅ ∅,
    readingTick 2 false { assetKey := "a", lastTimestamp := some 2, lastDataVersion := some "v" }
      allKeys
      ((∅ : HashMap PartitionKey Int).insert (.single ["j"]) 2) ∅]

def repeatedClockTicks : List PartitionTick :=
  let tick := readingTick 5 false { assetKey := "a" } {.single ["k"]} ∅
  [tick {.single ["k"]}, tick ∅, tick ∅]

theorem partitionRun_disagrees :
    (isComparable (.leaf .dataVersionChanged) ∧
      (∀ tick ∈ versionTicks, .single ["k"] ∈ tick.pctx.allKeys) ∧
      ¬List.Forall₂ (AgreesAt (.single ["k"]))
        (partitionRun "a" (.leaf .dataVersionChanged) {} versionTicks)
        (keyRun "a" (.single ["k"]) (.leaf .dataVersionChanged) {} versionTicks)) ∧
    (isComparable (.sinceLastHandled (.leaf .missing)) ∧
      (∀ tick ∈ repeatedClockTicks, .single ["k"] ∈ tick.pctx.allKeys) ∧
      ¬List.Forall₂ (AgreesAt (.single ["k"]))
        (partitionRun "a" (.sinceLastHandled (.leaf .missing)) {} repeatedClockTicks)
        (keyRun "a" (.single ["k"]) (.sinceLastHandled (.leaf .missing)) {}
          repeatedClockTicks)) := by
  refine ⟨⟨by decide, by decide, ?_⟩, ⟨by decide, by decide, ?_⟩⟩
  · rintro (_ | ⟨_, _ | ⟨second, _⟩⟩)
    exact absurd second.selection (by decide)
  · rintro (_ | ⟨_, _ | ⟨_, _ | ⟨third, _⟩⟩⟩)
    exact absurd third.selection (by decide)

end Rivers
