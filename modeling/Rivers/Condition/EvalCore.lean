import Mathlib.Data.Finset.Max
import Rivers.Condition.StateCore
import Rivers.Lib.IntOrder

/-! The condition evaluator of `condition/eval`. -/

namespace Rivers

open FiniteMap

structure DepScope (Sel : Type) where
  prev : HashMap String (HashMap Nat Sel)
  acc : HashMap String (HashMap Nat Sel)
  curPrev : Option (HashMap Nat Sel)
  bridged : HashMap String (Finset Nat)

structure EvalState (Sel : Type) where
  counter : Nat
  sub : HashMap Nat Sel
  scope : DepScope Sel

namespace EvalState

variable {Sel : Type}

def next (st : EvalState Sel) : EvalState Sel :=
  { st with counter := st.counter + 1 }

def atCounter (st : EvalState Sel) (counter : Nat) : EvalState Sel :=
  { st with counter := counter }

def record (st : EvalState Sel) (index : Nat) (sel : Sel) : EvalState Sel :=
  { st with sub := st.sub.insert index sel }

end EvalState

structure Evaluated (Sel : Type) where
  sel : Sel
  tree : Option EvalNodeResult
  state : EvalState Sel

structure EvalDomain (Sel : Type) where
  isTrue : Sel → Bool
  isAll : Sel → Bool
  numPartitions : Sel → Nat → Option Nat
  all : Sel
  empty : Sel
  fromBool : Bool → Sel
  and : Sel → Sel → Sel
  or : Sel → Sel → Sel
  not : Sel → EvalContext → Sel
  difference : Sel → Sel → EvalContext → Sel
  restrict : Sel → EvalContext → Sel
  missing : EvalContext → Sel
  inProgress : EvalContext → Sel
  failed : EvalContext → Sel
  newlyUpdated : EvalContext → Sel
  newlyRequested : EvalContext → Sel
  inLatestWindow : EvalContext → Option Rat → Sel
  backfillInProgress : EvalContext → Sel
  lastExecutedWithTags : EvalContext → List String → List (String × String) → Sel
  updateTags : EvalContext → List String → List (String × String) → Bool → Sel
  lastRunIncludesTarget : EvalContext → Sel
  willBeRequested : EvalContext → Sel
  prevLatch : DepScope Sel → EvalContext → Nat → Sel
  sinceLastHandled : Sel → EvalContext → Sel
  pivotIntoDep : String → ConditionNode → EvalContext →
    (EvalContext → EvalState Sel → Evaluated Sel) → EvalState Sel → Sel × EvalState Sel
  rootDepPrev : EvalContext → HashMap String (HashMap Nat Sel)
  assemble : Sel → EvalContext → HashMap Nat Sel → HashMap String (HashMap Nat Sel) → EvalResult

section Support

def dataVersionBaseline (ctx : EvalContext) : Option String × Option Int :=
  match (ctx.allAssetStates.lookup ctx.rootKey).bind (·.depBaselines.lookup ctx.targetKey) with
  | some baseline =>
      if ctx.targetKey ≠ ctx.rootKey then
        (baseline.lastDataVersion, baseline.lastMaterializedTimestamp)
      else (ctx.prevState.lastDataVersion, ctx.prevState.lastMaterializedTimestamp)
  | none => (ctx.prevState.lastDataVersion, ctx.prevState.lastMaterializedTimestamp)

def rootLastTick (ctx : EvalContext) : Option Int :=
  ((ctx.allAssetStates.lookup ctx.rootKey).bind (·.lastTickTimestamp)).or
    (if ctx.targetKey = ctx.rootKey then ctx.prevState.lastTickTimestamp else none)

def rootHandledState (ctx : EvalContext) : Option Int × Option Int :=
  match ctx.allAssetStates.lookup ctx.rootKey with
  | some state => (state.lastHandledTimestamp, state.lastTickTimestamp)
  | none =>
      if ctx.targetKey = ctx.rootKey then
        (ctx.prevState.lastHandledTimestamp, ctx.prevState.lastTickTimestamp)
      else (none, none)

def requestedLastTick (ctx : EvalContext) : Bool :=
  ctx.prevState.lastHandledTimestamp.isSome &&
    ctx.prevState.lastHandledTimestamp = ctx.prevState.lastTickTimestamp

def codeVersionChanged (ctx : EvalContext) : Bool :=
  ctx.targetRecord.codeVersion.isSome &&
    ctx.targetRecord.codeVersion ≠ ctx.targetRecord.lastMaterializationCodeVersion

def dataVersionChanged (ctx : EvalContext) : Bool :=
  match ctx.targetRecord.lastDataVersion, (dataVersionBaseline ctx).1 with
  | some current, some prev => current ≠ prev
  | some _, none => !ctx.isInitial && (dataVersionBaseline ctx).2 ≠ ctx.targetRecord.lastTimestamp
  | none, _ => false

def cronTickPassed (ctx : EvalContext) (cronSchedule : String) (timezone : Option String) : Bool :=
  ctx.cronTickBetween cronSchedule ((rootLastTick ctx).getD ctx.now) ctx.now timezone

def runTagsMatch (runTags : RunTags) (tagKeys : List String)
    (tagValues : List (String × String)) : Bool :=
  (tagKeys.all fun key => runTags.any fun tag => tag.1 = key) &&
    tagValues.all fun tag => runTags.contains tag

def tagSetsMatch (tagSets : List RunTags) (tagKeys : List String)
    (tagValues : List (String × String)) (requireAll : Bool) : Bool :=
  !tagSets.isEmpty &&
    if requireAll then tagSets.all fun tags => runTagsMatch tags tagKeys tagValues
    else tagSets.any fun tags => runTagsMatch tags tagKeys tagValues

def depNewerThanFloor (depTs : Int) (floor : Option Int) : Bool :=
  match floor with
  | none => true
  | some floor => floor < depTs

def optionMax : Option Int → Option Int → Option Int
  | none, other => other
  | some left, none => some left
  | some left, some right => some (max left right)

def effectiveAttemptTs (rootStatus : PartitionStatusEntry) (key : PartitionKey) : Option Int :=
  optionMax (rootStatus.timestamps.lookup key) (rootStatus.failedTimestamps.lookup key)

def minimum? (values : Finset Int) : Option Int :=
  if nonempty : values.Nonempty then some (values.min' nonempty) else none

/-- The oldest attempt over the keys; a never-attempted key collapses it to `none`. -/
def rootFloorOver (keys : Finset PartitionKey) (rootStatus : PartitionStatusEntry) : Option Int :=
  if ∃ key ∈ keys, effectiveAttemptTs rootStatus key = none then none
  else minimum? (keys.biUnion fun key => (effectiveAttemptTs rootStatus key).toFinset)

def rootFloorOverAttempted (keys : Finset PartitionKey) (rootStatus : PartitionStatusEntry) :
    Option Int :=
  minimum? (keys.biUnion fun key => (effectiveAttemptTs rootStatus key).toFinset)

end Support

inductive Quantifier where
  | any
  | all
  deriving DecidableEq, Repr

section Eval

variable {Sel : Type}

namespace Quantifier

def init (D : EvalDomain Sel) : Quantifier → Sel
  | .any => D.empty
  | .all => D.all

def combine (D : EvalDomain Sel) : Quantifier → Sel → Sel → Sel
  | .any => D.or
  | .all => D.and

def saturated (D : EvalDomain Sel) : Quantifier → Sel → Bool
  | .any, value => D.isAll value
  | .all, value => !D.isTrue value

end Quantifier

def evalLeaf (D : EvalDomain Sel) (ctx : EvalContext) : ConditionLeaf → Sel
  | .missing => D.missing ctx
  | .inProgress => D.inProgress ctx
  | .executionFailed => D.failed ctx
  | .newlyUpdated => D.newlyUpdated ctx
  | .newlyRequested => D.newlyRequested ctx
  | .inLatestTimeWindow lookbackDelta => D.inLatestWindow ctx lookbackDelta
  | .backfillInProgress => D.backfillInProgress ctx
  | .lastExecutedWithTags tagKeys tagValues => D.lastExecutedWithTags ctx tagKeys tagValues
  | .lastRunIncludesTarget => D.lastRunIncludesTarget ctx
  | .willBeRequested => D.willBeRequested ctx
  | .hasRunWithTags tagKeys tagValues => D.updateTags ctx tagKeys tagValues false
  | .allRunsHaveTags tagKeys tagValues => D.updateTags ctx tagKeys tagValues true
  | .codeVersionChanged => D.fromBool (codeVersionChanged ctx)
  | .dataVersionChanged => D.fromBool (dataVersionChanged ctx)
  | .initialEvaluation => D.fromBool ctx.isInitial
  | .cronTickPassed cronSchedule timezone => D.fromBool (cronTickPassed ctx cronSchedule timezone)

mutual

def buildSkippedSubtree : ConditionNode → Nat → EvalNodeResult × Nat
  | node@(.leaf _), index => (.mk index node .skipped [] none, index + 1)
  | node@(.and children), index | node@(.or children), index =>
      let (parts, counter) := buildSkippedList children (index + 1)
      (.mk index node .skipped parts none, counter)
  | node@(.not child), index | node@(.newlyTrue child), index
  | node@(.sinceLastHandled child), index =>
      let (part, counter) := buildSkippedSubtree child (index + 1)
      (.mk index node .skipped [part] none, counter)
  | node@(.since trigger reset), index =>
      let (triggerPart, counter) := buildSkippedSubtree trigger (index + 1)
      let (resetPart, counter) := buildSkippedSubtree reset counter
      (.mk index node .skipped [triggerPart, resetPart] none, counter)
  -- a dep-aggregate shows no children but still counts the inner nodes
  | node@(.anyDepsMatch condition _), index | node@(.allDepsMatch condition _), index
  | node@(.assetMatches _ condition), index =>
      (.mk index node .skipped [] none, (buildSkippedSubtree condition (index + 1)).2)

def buildSkippedList : List ConditionNode → Nat → List EvalNodeResult × Nat
  | [], counter => ([], counter)
  | child :: children, counter =>
      let (part, counter) := buildSkippedSubtree child counter
      let (parts, counter) := buildSkippedList children counter
      (part :: parts, counter)

end

def finish (D : EvalDomain Sel) (node : ConditionNode) (ctx : EvalContext) (buildTree : Bool)
    (index : Nat) (sel : Sel) (children : List EvalNodeResult) (st : EvalState Sel) :
    Evaluated Sel where
  sel := sel
  tree :=
    if buildTree then
      let total := (ctx.partitions.map (·.allKeys.card)).getD 0
      some (.mk index node (.fromBool (D.isTrue sel)) children (D.numPartitions sel total))
    else none
  state := st

/-- The loop of `fold_deps`: a saturated fold stops early unless a stateful child must record its
latch. -/
def foldDepsLoop (D : EvalDomain Sel) (pivot : String → EvalState Sel → Sel × EvalState Sel)
    (quant : Quantifier) (evalAll : Bool) (base : Nat) :
    List String → Sel → EvalState Sel → Sel × EvalState Sel
  | [], result, st => (result, st)
  | dep :: deps, result, st =>
      let (depVal, st) := pivot dep (st.atCounter base)
      let result := quant.combine D result depVal
      if quant.saturated D result && !evalAll then (result, st)
      else foldDepsLoop D pivot quant evalAll base deps result st

def foldDeps (D : EvalDomain Sel) (pivot : String → EvalState Sel → Sel × EvalState Sel)
    (deps : List String) (condition : ConditionNode) (quant : Quantifier) (st : EvalState Sel) :
    Sel × EvalState Sel :=
  let (result, st') := foldDepsLoop D pivot quant condition.hasStatefulNodes st.counter deps
    (quant.init D) st
  (result, st'.atCounter (condition.countNodes st.counter))

def upstreamDepsOf (ctx : EvalContext) : List String :=
  (ctx.cache.upstreamDeps.lookup ctx.targetKey).getD []

mutual

def eval (D : EvalDomain Sel) :
    ConditionNode → EvalContext → Bool → EvalState Sel → Evaluated Sel
  | .leaf kind, ctx, buildTree, st =>
      finish D (.leaf kind) ctx buildTree st.counter (evalLeaf D ctx kind) [] st.next
  | .anyDepsMatch condition label, ctx, buildTree, st =>
      let folded := foldDeps D
        (fun dep => D.pivotIntoDep dep condition ctx fun depCtx => eval D condition depCtx false)
        (upstreamDepsOf ctx) condition .any st.next
      finish D (.anyDepsMatch condition label) ctx buildTree st.counter folded.1 [] folded.2
  | .allDepsMatch condition label, ctx, buildTree, st =>
      let folded := foldDeps D
        (fun dep => D.pivotIntoDep dep condition ctx fun depCtx => eval D condition depCtx false)
        (upstreamDepsOf ctx) condition .all st.next
      finish D (.allDepsMatch condition label) ctx buildTree st.counter folded.1 [] folded.2
  | .assetMatches keys condition, ctx, buildTree, st =>
      let folded := foldDeps D
        (fun dep => D.pivotIntoDep dep condition ctx fun depCtx => eval D condition depCtx false)
        keys condition .any st.next
      finish D (.assetMatches keys condition) ctx buildTree st.counter folded.1 [] folded.2
  | .and children, ctx, buildTree, st =>
      let folded := foldCombinator D .all children ctx buildTree (Quantifier.all.init D) st.next
      finish D (.and children) ctx buildTree st.counter folded.1 folded.2.1 folded.2.2
  | .or children, ctx, buildTree, st =>
      let folded := foldCombinator D .any children ctx buildTree (Quantifier.any.init D) st.next
      finish D (.or children) ctx buildTree st.counter folded.1 folded.2.1 folded.2.2
  | .not child, ctx, buildTree, st =>
      let inner := eval D child ctx buildTree st.next
      finish D (.not child) ctx buildTree st.counter (D.not inner.sel ctx) inner.tree.toList
        inner.state
  | .newlyTrue child, ctx, buildTree, st =>
      let inner := eval D child ctx buildTree st.next
      let previous := D.prevLatch inner.state.scope ctx st.counter
      finish D (.newlyTrue child) ctx buildTree st.counter (D.difference inner.sel previous ctx)
        inner.tree.toList (inner.state.record st.counter inner.sel)
  | .since trigger reset, ctx, buildTree, st =>
      let triggered := eval D trigger ctx buildTree st.next
      let resetted := eval D reset ctx buildTree triggered.state
      let prev := D.prevLatch resetted.state.scope ctx st.counter
      let result := D.restrict (D.difference (D.or prev triggered.sel) resetted.sel ctx) ctx
      finish D (.since trigger reset) ctx buildTree st.counter result
        (triggered.tree.toList ++ resetted.tree.toList) (resetted.state.record st.counter result)
  | .sinceLastHandled child, ctx, buildTree, st =>
      let inner := eval D child ctx buildTree st.next
      finish D (.sinceLastHandled child) ctx buildTree st.counter (D.sinceLastHandled inner.sel ctx)
        inner.tree.toList inner.state

def foldCombinator (D : EvalDomain Sel) (quant : Quantifier) :
    List ConditionNode → EvalContext → Bool → Sel → EvalState Sel →
      Sel × List EvalNodeResult × EvalState Sel
  | [], _, _, result, st => (result, [], st)
  | child :: children, ctx, buildTree, result, st =>
      let sat := quant.saturated D result
      if sat && !child.hasStatefulNodes then
        let skipped := buildSkippedSubtree child st.counter
        let counter := if buildTree then skipped.2 else child.countNodes st.counter
        let rest := foldCombinator D quant children ctx buildTree result (st.atCounter counter)
        (rest.1, (if buildTree then [skipped.1] else []) ++ rest.2.1, rest.2.2)
      else
        let inner := eval D child ctx buildTree st
        let result := if sat then result else quant.combine D result inner.sel
        let rest := foldCombinator D quant children ctx buildTree result inner.state
        (rest.1, inner.tree.toList ++ rest.2.1, rest.2.2)

end

def run (D : EvalDomain Sel) (node : ConditionNode) (ctx : EvalContext) (buildTree : Bool) :
    EvalResult × Option EvalNodeResult :=
  let evaluated := eval D node ctx buildTree
    { counter := 0, sub := ∅,
      scope := { prev := D.rootDepPrev ctx, acc := ∅, curPrev := none, bridged := ∅ } }
  (D.assemble evaluated.sel ctx evaluated.state.sub evaluated.state.scope.acc, evaluated.tree)

def collectDepLatch (scope : DepScope Sel) (depKey : String) (found : HashMap Nat Sel) :
    DepScope Sel :=
  if found.keys = ∅ then scope
  else
    { scope with
      bridged :=
        match scope.bridged.lookup depKey with
        | none => scope.bridged
        | some marks => scope.bridged.insert depKey (marks \ found.keys)
      acc := scope.acc.insert depKey (extend ((scope.acc.lookup depKey).getD ∅) found) }

def depEvalContext (ctx : EvalContext) (depKey : String) (depRecord : AssetRecord)
    (partitions : Option PartitionEvalContext) (rootPartitionFloor : Option (Option Int)) :
    EvalContext :=
  { ctx with
    targetKey := depKey
    targetRecord := depRecord
    prevState := (ctx.allAssetStates.lookup depKey).getD {}
    partitions := partitions
    rootPartitionFloor := rootPartitionFloor }

/-- Enter a dep with its own latches and no recorded results, evaluate there, and come back with the
dep's latches collected. -/
def withDepLatch (depKey : String) (inner : EvalState Sel → Evaluated Sel) (st : EvalState Sel) :
    Sel × EvalState Sel :=
  let evaluated := inner
    { counter := st.counter, sub := ∅,
      scope := { st.scope with curPrev := some ((st.scope.prev.lookup depKey).getD ∅) } }
  let scope := collectDepLatch { evaluated.state.scope with curPrev := st.scope.curPrev } depKey
    evaluated.state.sub
  (evaluated.sel, { st with counter := evaluated.state.counter, scope := scope })

end Eval

namespace BoolDomain

def newlyUpdated (ctx : EvalContext) : Bool :=
  if ctx.targetKey ≠ ctx.rootKey then
    match ctx.targetRecord.lastTimestamp with
    | none => false
    | some depTs =>
        depNewerThanFloor depTs <| ctx.rootPartitionFloor.getD <|
          optionMax ((ctx.cache.records.lookup ctx.rootKey).bind (·.lastTimestamp))
            (ctx.cache.failedAssetTimestamps.lookup ctx.rootKey)
  else
    match ctx.targetRecord.lastTimestamp, ctx.prevState.lastMaterializedTimestamp with
    | some current, some prev => prev < current
    | some _, none => !ctx.isInitial
    | none, _ => false

def sinceLastHandled (current : Bool) (ctx : EvalContext) : Bool :=
  current &&
    match rootHandledState ctx with
    | (none, _) => true
    | (some _, none) => true
    | (some handled, some lastTick) => handled < lastTick

def pivotIntoDep (depKey : String) (_condition : ConditionNode) (ctx : EvalContext)
    (inner : EvalContext → EvalState Bool → Evaluated Bool) (st : EvalState Bool) :
    Bool × EvalState Bool :=
  match ctx.cache.records.lookup depKey with
  | none => (false, st)
  | some depRecord =>
      withDepLatch depKey (inner (depEvalContext ctx depKey depRecord none ctx.rootPartitionFloor))
        st

end BoolDomain

def boolDomain : EvalDomain Bool where
  isTrue value := value
  isAll value := value
  numPartitions _ _ := none
  all := true
  empty := false
  fromBool value := value
  and := Bool.and
  or := Bool.or
  not value _ := !value
  difference value other _ := value && !other
  restrict value _ := value
  missing ctx := ctx.targetRecord.lastRunId.isNone
  inProgress ctx := ctx.targetKey ∈ ctx.cache.inProgressAssets
  failed ctx := ctx.targetKey ∈ ctx.cache.failedAssets
  newlyUpdated := BoolDomain.newlyUpdated
  newlyRequested := requestedLastTick
  inLatestWindow _ _ := true
  backfillInProgress ctx := ctx.targetKey ∈ ctx.cache.backfill.assets
  lastExecutedWithTags ctx tagKeys tagValues :=
    match (ctx.tags.lastRunTags.lookup ctx.targetKey).bind (·.lookup none) with
    | none => false
    | some runTags => runTagsMatch runTags tagKeys tagValues
  updateTags ctx tagKeys tagValues requireAll :=
    match (ctx.tags.tickMaterializationTags.lookup ctx.targetKey).bind (·.lookup none) with
    | none => false
    | some tagSets => tagSetsMatch tagSets tagKeys tagValues requireAll
  lastRunIncludesTarget ctx :=
    if ctx.targetKey = ctx.rootKey then false
    else
      match (ctx.tags.lastRunAssetNames.lookup ctx.targetKey).bind (·.lookup none) with
      | none => false
      | some names => names.contains ctx.rootKey
  willBeRequested ctx := ctx.targetKey ∈ ctx.requestedThisTick
  prevLatch scope ctx index :=
    getD (scope.curPrev.getD ctx.prevState.previousResults) index false
  sinceLastHandled := BoolDomain.sinceLastHandled
  pivotIntoDep := BoolDomain.pivotIntoDep
  rootDepPrev ctx := ctx.prevState.depPreviousResults
  assemble top _ sub dep := { fired := top, subResults := sub, depSubResults := dep }

end Rivers
