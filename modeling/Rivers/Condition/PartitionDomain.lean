import Rivers.Condition.EvalCore

/-! The partition-selection domain of `condition/eval/domain.rs`. -/

namespace Rivers

open FiniteMap

namespace PartitionDomain

def requirePctx (ctx : EvalContext) : PartitionEvalContext :=
  ctx.partitions.getD ⟨∅, ∅, ∅, ∅, .empty, none, ∅, none⟩

def selectInUniverse (keys : Finset PartitionKey) (pctx : PartitionEvalContext) :
    PartitionSelection :=
  .fromKeys (keys.filter (· ∈ pctx.allKeys))

def missing (ctx : EvalContext) : PartitionSelection :=
  let pctx := requirePctx ctx
  .fromKeys (pctx.allKeys.filter (· ∉ pctx.timestamps))

def isNewlyUpdated (ctx : EvalContext) (pctx : PartitionEvalContext) (key : PartitionKey)
    (ts : Int) : Bool :=
  match pctx.depRootFloor with
  | some floor =>
      match floor.lookup key with
      | some inner => depNewerThanFloor ts inner
      | none => false
  | none =>
      match ctx.prevState.partitionState.bind (·.timestamps.lookup key) with
      | some prev => prev < ts
      | none => !ctx.isInitial

def newlyUpdated (ctx : EvalContext) : PartitionSelection :=
  let pctx := requirePctx ctx
  .fromKeys (pctx.timestamps.keys.filter fun key =>
    key ∈ pctx.allKeys ∧ ∃ ts ∈ pctx.timestamps.lookup key, isNewlyUpdated ctx pctx key ts)

def newlyRequested (ctx : EvalContext) : PartitionSelection :=
  if requestedLastTick ctx then
    match ctx.prevState.partitionState with
    | some state => selectInUniverse state.handled (requirePctx ctx)
    | none => .empty
  else .empty

def inLatestWindow (ctx : EvalContext) (lookback : Option Rat) : PartitionSelection :=
  let pctx := requirePctx ctx
  match pctx.timeWindows.bind fun keysFor => keysFor ctx.targetKey pctx.allKeys lookback with
  | some keys => .fromKeys keys
  | none => .empty

def backfillInProgress (ctx : EvalContext) : PartitionSelection :=
  match ctx.cache.backfill.assets.lookup ctx.targetKey with
  | none => .empty
  | some backfillIds =>
      let targeted := backfillIds.map fun id => (ctx.cache.backfill.partitionKeys.lookup id).getD []
      if targeted.any (·.isEmpty) then .all
      else .fromKeys ((requirePctx ctx).allKeys.filter fun key => targeted.any (·.contains key))

def partitionFilterSelect {β : Type} (slots : Option (HashMap (Option PartitionKey) β))
    (pctx : PartitionEvalContext) (pred : β → Bool) : PartitionSelection :=
  match slots with
  | none => .empty
  | some data =>
      .fromKeys (pctx.allKeys.filter fun key => ∃ value ∈ data.lookup (some key), pred value)

def prevPartitionLatch (scope : DepScope PartitionSelection) (ctx : EvalContext) (index : Nat) :
    PartitionSelection :=
  (match scope.curPrev with
    | some latches => latches.lookup index
    | none => ctx.prevState.partitionState.bind (·.previousSelections.lookup index)).getD .empty

def wasJustHandled (ctx : EvalContext) : Bool :=
  match rootHandledState ctx with
  | (some handled, some lastTick) => lastTick ≤ handled
  | _ => false

def sinceLastHandled (current : PartitionSelection) (ctx : EvalContext) : PartitionSelection :=
  if current.isEmpty then .empty
  else if !wasJustHandled ctx then current
  else if ctx.targetKey ≠ ctx.rootKey then .empty
  else
    match ctx.prevState.partitionState with
    | none => current
    | some state => current.difference (.fromKeys state.handled) (requirePctx ctx).allKeys

def mergeBridgedSlot (slot found : HashMap Nat PartitionSelection) (marks : Finset Nat) :
    HashMap Nat PartitionSelection :=
  collect (slot.keys ∪ found.keys) fun index =>
    match slot.lookup index, found.lookup index with
    | none, sel => sel
    | some prior, none => some prior
    | some prior, some sel => some (if index ∈ marks then prior.union sel else prior)

def collectBridgedLatches (scope : DepScope PartitionSelection)
    (found : HashMap String (HashMap Nat PartitionSelection)) : DepScope PartitionSelection :=
  let touched := found.keys.filter fun dep => (getD found dep ∅).keys ≠ ∅
  let slot := fun dep => getD scope.acc dep ∅
  let marks := fun dep => getD scope.bridged dep ∅
  { scope with
    acc := collect (scope.acc.keys ∪ touched) fun dep =>
      if dep ∈ touched then some (mergeBridgedSlot (slot dep) (getD found dep ∅) (marks dep))
      else scope.acc.lookup dep
    bridged := collect (scope.bridged.keys ∪ touched) fun dep =>
      if dep ∈ touched then some (marks dep ∪ ((getD found dep ∅).keys \ (slot dep).keys))
      else scope.bridged.lookup dep }

def bridgeFloor (ctx : EvalContext) (pctx : PartitionEvalContext) : Option Int :=
  ctx.rootPartitionFloor.getD <|
    (pctx.allPartitionStatuses.lookup ctx.rootKey).bind (rootFloorOverAttempted pctx.allKeys)

def isIdentityEdge (kind : Option PartitionMappingKind) : Bool :=
  match kind with
  | none | some .identity => true
  | _ => false

def upstreamKeyFloor (depKey : String) (ctx : EvalContext) (pctx : PartitionEvalContext)
    (rootStatus : PartitionStatusEntry) (key : PartitionKey) : Option (Option Int) :=
  if isIdentityEdge (pctx.resolver.mappingKind depKey ctx.targetKey) then
    if key ∈ pctx.allKeys then some (effectiveAttemptTs rootStatus key) else none
  else
    match pctx.resolver.mapDownstream depKey ctx.targetKey (.keys {key}) (some pctx.allKeys) with
    | .empty => none
    | .all => some (rootFloorOverAttempted pctx.allKeys rootStatus)
    | .keys mapped =>
        let inUniverse := mapped.filter (· ∈ pctx.allKeys)
        if inUniverse = ∅ then none else some (rootFloorOver inUniverse rootStatus)

def depRootFloor (depKey : String) (condition : ConditionNode) (ctx : EvalContext)
    (pctx : PartitionEvalContext) (upstreamStatus : PartitionStatusEntry) :
    Option (HashMap PartitionKey (Option Int)) :=
  if condition.containsNewlyUpdated then
    (pctx.allPartitionStatuses.lookup ctx.rootKey).map fun rootStatus =>
      collect upstreamStatus.timestamps.keys (upstreamKeyFloor depKey ctx pctx rootStatus)
  else none

def bridgeState (depKey : String) (st : EvalState PartitionSelection) : EvalState Bool :=
  let nestedPrev := mapValues st.scope.prev fun latches =>
    mapValues latches PartitionSelection.toBool
  { counter := st.counter, sub := ∅,
    scope :=
      { prev := nestedPrev, acc := ∅, curPrev := some (getD nestedPrev depKey ∅), bridged := ∅ } }

def collectBridged (depKey : String) (evaluated : Evaluated Bool)
    (st : EvalState PartitionSelection) : EvalState PartitionSelection :=
  let own := (∅ : HashMap String (HashMap Nat PartitionSelection)).insert depKey
    (mapValues evaluated.state.sub PartitionSelection.fromBool)
  let nested := mapValues evaluated.state.scope.acc fun latches =>
    mapValues latches PartitionSelection.fromBool
  { st with
    counter := evaluated.state.counter
    scope := collectBridgedLatches (collectBridgedLatches st.scope own) nested }

def bridgeIntoDep (depKey : String) (condition : ConditionNode) (ctx : EvalContext)
    (pctx : PartitionEvalContext) (depRecord : AssetRecord) (st : EvalState PartitionSelection) :
    PartitionSelection × EvalState PartitionSelection :=
  let depCtx := depEvalContext ctx depKey depRecord none (some (bridgeFloor ctx pctx))
  let evaluated := eval boolDomain condition depCtx false (bridgeState depKey st)
  (.fromBool evaluated.sel, collectBridged depKey evaluated st)

def upstreamPctx (depKey : String) (condition : ConditionNode) (ctx : EvalContext)
    (pctx : PartitionEvalContext) (upstreamAllKeys : Finset PartitionKey) : PartitionEvalContext :=
  let upstreamStatus := getD pctx.allPartitionStatuses depKey {}
  { allKeys := upstreamAllKeys
    inProgress := upstreamStatus.inProgress
    failed := upstreamStatus.failed
    timestamps := upstreamStatus.timestamps
    resolver := .empty
    timeWindows := pctx.timeWindows
    allPartitionStatuses := pctx.allPartitionStatuses
    depRootFloor := depRootFloor depKey condition ctx pctx upstreamStatus }

def partitionedIntoDep (depKey : String) (condition : ConditionNode) (ctx : EvalContext)
    (pctx : PartitionEvalContext) (depRecord : AssetRecord) (upstreamAllKeys : Finset PartitionKey)
    (inner : EvalContext → EvalState PartitionSelection → Evaluated PartitionSelection)
    (st : EvalState PartitionSelection) : PartitionSelection × EvalState PartitionSelection :=
  let nestedBridgeFloor :=
    if condition.hasDepAggregate then some (bridgeFloor ctx pctx) else none
  let depCtx := depEvalContext ctx depKey depRecord
    (some (upstreamPctx depKey condition ctx pctx upstreamAllKeys)) nestedBridgeFloor
  let evaluated := withDepLatch depKey (inner depCtx) st
  if isIdentityEdge (pctx.resolver.mappingKind depKey ctx.targetKey) then evaluated
  else
    (pctx.resolver.mapDownstream depKey ctx.targetKey evaluated.1 (some pctx.allKeys), evaluated.2)

def pivotIntoDep (depKey : String) (condition : ConditionNode) (ctx : EvalContext)
    (inner : EvalContext → EvalState PartitionSelection → Evaluated PartitionSelection)
    (st : EvalState PartitionSelection) : PartitionSelection × EvalState PartitionSelection :=
  let pctx := requirePctx ctx
  match ctx.cache.records.lookup depKey with
  | none => (.empty, st)
  | some depRecord =>
      match pctx.resolver.upstreamPartitionKeys.lookup depKey with
      | none => bridgeIntoDep depKey condition ctx pctx depRecord st
      | some upstreamAllKeys =>
          partitionedIntoDep depKey condition ctx pctx depRecord upstreamAllKeys inner st

end PartitionDomain

def partitionDomain : EvalDomain PartitionSelection where
  isTrue := PartitionSelection.toBool
  isAll := PartitionSelection.isAll
  numPartitions selection total := some (selection.keyCount total)
  all := .all
  empty := .empty
  fromBool := PartitionSelection.fromBool
  and := PartitionSelection.intersect
  or := PartitionSelection.union
  not selection ctx := selection.complement (PartitionDomain.requirePctx ctx).allKeys
  difference selection other ctx :=
    selection.difference other (PartitionDomain.requirePctx ctx).allKeys
  restrict selection ctx := selection.restrictTo (PartitionDomain.requirePctx ctx).allKeys
  missing := PartitionDomain.missing
  inProgress ctx :=
    let pctx := PartitionDomain.requirePctx ctx
    PartitionDomain.selectInUniverse pctx.inProgress pctx
  failed ctx :=
    let pctx := PartitionDomain.requirePctx ctx
    PartitionDomain.selectInUniverse pctx.failed pctx
  newlyUpdated := PartitionDomain.newlyUpdated
  newlyRequested := PartitionDomain.newlyRequested
  inLatestWindow := PartitionDomain.inLatestWindow
  backfillInProgress := PartitionDomain.backfillInProgress
  lastExecutedWithTags ctx tagKeys tagValues :=
    PartitionDomain.partitionFilterSelect (ctx.tags.lastRunTags.lookup ctx.targetKey)
      (PartitionDomain.requirePctx ctx) fun tags => runTagsMatch tags tagKeys tagValues
  updateTags ctx tagKeys tagValues requireAll :=
    PartitionDomain.partitionFilterSelect (ctx.tags.tickMaterializationTags.lookup ctx.targetKey)
      (PartitionDomain.requirePctx ctx) fun tagSets => tagSetsMatch tagSets tagKeys
        tagValues requireAll
  lastRunIncludesTarget ctx :=
    if ctx.targetKey = ctx.rootKey then .empty
    else
      PartitionDomain.partitionFilterSelect (ctx.tags.lastRunAssetNames.lookup ctx.targetKey)
        (PartitionDomain.requirePctx ctx) fun names => names.contains ctx.rootKey
  willBeRequested ctx := getD ctx.requestedThisTick ctx.targetKey .empty
  prevLatch := PartitionDomain.prevPartitionLatch
  sinceLastHandled := PartitionDomain.sinceLastHandled
  pivotIntoDep := PartitionDomain.pivotIntoDep
  rootDepPrev ctx :=
    match ctx.prevState.partitionState with
    | none => ∅
    | some state => state.depPreviousSelections
  assemble top ctx sub dep :=
    { fired := top.firesOver (PartitionDomain.requirePctx ctx).allKeys
      selection := some top
      subSelections := some sub
      depSubSelections := some dep }

def evaluate (node : ConditionNode) (ctx : EvalContext) : EvalResult :=
  if ctx.partitions.isSome then (run partitionDomain node ctx false).1
  else (run boolDomain node ctx false).1

def evaluateWithTree (node : ConditionNode) (ctx : EvalContext) :
    EvalResult × Option EvalNodeResult :=
  if ctx.partitions.isSome then run partitionDomain node ctx true
  else run boolDomain node ctx true

end Rivers
