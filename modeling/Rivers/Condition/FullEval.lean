import Rivers.Condition.EvalSim

/-! An evaluator without short circuits. -/

namespace Rivers

open FiniteMap PartitionDomain PartitionMappingKind

variable {Sel : Type}

def foldDepsLoopFully (D : EvalDomain Sel) (pivot : String → EvalState Sel → Sel × EvalState Sel)
    (quant : Quantifier) (base : Nat) : List String → Sel → EvalState Sel → Sel × EvalState Sel
  | [], result, st => (result, st)
  | dep :: deps, result, st =>
      let pivoted := pivot dep (st.atCounter base)
      foldDepsLoopFully D pivot quant base deps (quant.combine D result pivoted.1) pivoted.2

def foldDepsFully (D : EvalDomain Sel) (pivot : String → EvalState Sel → Sel × EvalState Sel)
    (deps : List String) (condition : ConditionNode) (quant : Quantifier)
    (st : EvalState Sel) : Evaluated Sel :=
  let folded := foldDepsLoopFully D pivot quant st.counter deps (quant.init D) st
  ⟨folded.1, none, folded.2.atCounter (condition.countNodes st.counter)⟩

mutual

def evalFully (D : EvalDomain Sel) : ConditionNode → EvalContext → EvalState Sel → Evaluated Sel
  | .leaf kind, ctx, st => ⟨evalLeaf D ctx kind, none, st.next⟩
  | .anyDepsMatch condition _, ctx, st =>
      foldDepsFully D (fun dep => D.pivotIntoDep dep condition ctx (evalFully D condition))
        (upstreamDepsOf ctx) condition .any st.next
  | .allDepsMatch condition _, ctx, st =>
      foldDepsFully D (fun dep => D.pivotIntoDep dep condition ctx (evalFully D condition))
        (upstreamDepsOf ctx) condition .all st.next
  | .assetMatches keys condition, ctx, st =>
      foldDepsFully D (fun dep => D.pivotIntoDep dep condition ctx (evalFully D condition))
        keys condition .any st.next
  | .and children, ctx, st => foldChildrenFully D .all children ctx (Quantifier.all.init D) st.next
  | .or children, ctx, st => foldChildrenFully D .any children ctx (Quantifier.any.init D) st.next
  | .not child, ctx, st =>
      let inner := evalFully D child ctx st.next
      ⟨D.not inner.sel ctx, none, inner.state⟩
  | .newlyTrue child, ctx, st =>
      let inner := evalFully D child ctx st.next
      let previous := D.prevLatch inner.state.scope ctx st.counter
      ⟨D.difference inner.sel previous ctx, none, inner.state.record st.counter inner.sel⟩
  | .since trigger reset, ctx, st =>
      let triggered := evalFully D trigger ctx st.next
      let resetted := evalFully D reset ctx triggered.state
      let prev := D.prevLatch resetted.state.scope ctx st.counter
      let result := D.restrict (D.difference (D.or prev triggered.sel) resetted.sel ctx) ctx
      ⟨result, none, resetted.state.record st.counter result⟩
  | .sinceLastHandled child, ctx, st =>
      let inner := evalFully D child ctx st.next
      ⟨D.sinceLastHandled inner.sel ctx, none, inner.state⟩

def foldChildrenFully (D : EvalDomain Sel) (quant : Quantifier) :
    List ConditionNode → EvalContext → Sel → EvalState Sel → Evaluated Sel
  | [], _, result, st => ⟨result, none, st⟩
  | child :: children, ctx, result, st =>
      let inner := evalFully D child ctx st
      foldChildrenFully D quant children ctx (quant.combine D result inner.sel) inner.state

end

def runFully (D : EvalDomain Sel) (node : ConditionNode) (ctx : EvalContext) : EvalResult :=
  let evaluated := evalFully D node ctx
    { counter := 0, sub := ∅,
      scope := { prev := D.rootDepPrev ctx, acc := ∅, curPrev := none, bridged := ∅ } }
  D.assemble evaluated.sel ctx evaluated.state.sub evaluated.state.scope.acc

namespace PartitionDomain

def pivotIntoDepFully (depKey : String) (condition : ConditionNode) (ctx : EvalContext)
    (inner : EvalContext → EvalState PartitionSelection → Evaluated PartitionSelection)
    (st : EvalState PartitionSelection) : PartitionSelection × EvalState PartitionSelection :=
  let pctx := requirePctx ctx
  match ctx.cache.records.lookup depKey with
  | none => (.empty, st)
  | some depRecord =>
      match pctx.resolver.upstreamPartitionKeys.lookup depKey with
      | none =>
          let depCtx := depEvalContext ctx depKey depRecord none (some (bridgeFloor ctx pctx))
          let evaluated := evalFully boolDomain condition depCtx (bridgeState depKey st)
          (.fromBool evaluated.sel, collectBridged depKey evaluated st)
      | some upstreamAllKeys =>
          partitionedIntoDep depKey condition ctx pctx depRecord upstreamAllKeys inner st

end PartitionDomain

def EvalDomain.withPivot (D : EvalDomain Sel)
    (pivot : String → ConditionNode → EvalContext → (EvalContext → EvalState Sel → Evaluated Sel) →
      EvalState Sel → Sel × EvalState Sel) : EvalDomain Sel :=
  { D with pivotIntoDep := pivot }

def evaluateFully (node : ConditionNode) (ctx : EvalContext) : EvalResult :=
  if ctx.partitions.isSome then
    runFully (partitionDomain.withPivot pivotIntoDepFully) node ctx
  else runFully boolDomain node ctx

def Evaluated.Agrees (left right : Evaluated Sel) : Prop :=
  left.sel = right.sel ∧ left.state = right.state

structure Saturating (D : EvalDomain Sel)
    (pivot : String → ConditionNode → EvalContext → (EvalContext → EvalState Sel → Evaluated Sel) →
      EvalState Sel → Sel × EvalState Sel)
    (good : Sel → Prop) (allowed : EvalContext → Prop) : Prop where
  absorb : ∀ {quant : Quantifier} {sel : Sel}, good sel → quant.saturated D sel = true →
    ∀ other, quant.combine D sel other = sel
  init : ∀ quant : Quantifier, good (quant.init D)
  combine : ∀ {left right : Sel} (quant : Quantifier), good left → good right →
    good (quant.combine D left right)
  leaf : ∀ {ctx : EvalContext}, allowed ctx → ∀ kind, good (evalLeaf D ctx kind)
  not : ∀ {sel : Sel} (ctx : EvalContext), good sel → good (D.not sel ctx)
  difference : ∀ {left : Sel} (right : Sel) (ctx : EvalContext), good left →
    good (D.difference left right ctx)
  restrict : ∀ (sel : Sel) (ctx : EvalContext), good (D.restrict sel ctx)
  sinceLastHandled : ∀ {sel : Sel} (ctx : EvalContext), good sel → good (D.sinceLastHandled sel ctx)
  stateless : StatelessPivot D
  pivot : ∀ {condition : ConditionNode} {ctx : EvalContext} {inner full : EvalContext →
    EvalState Sel → Evaluated Sel}, allowed ctx →
    (∀ depCtx, allowed depCtx → ∀ depSt,
      good (inner depCtx depSt).sel ∧ (inner depCtx depSt).Agrees (full depCtx depSt)) →
    ∀ depKey st, good (D.pivotIntoDep depKey condition ctx inner st).1 ∧
      D.pivotIntoDep depKey condition ctx inner st = pivot depKey condition ctx full st

section Agreement

variable {D : EvalDomain Sel}
  {pivot : String → ConditionNode → EvalContext → (EvalContext → EvalState Sel → Evaluated Sel) →
    EvalState Sel → Sel × EvalState Sel}
  {good : Sel → Prop} {allowed : EvalContext → Prop}

@[simp] theorem init_withPivot (quant : Quantifier) : quant.init (D.withPivot pivot) =
    quant.init D := by
  cases quant <;> rfl

@[simp] theorem combine_withPivot (quant : Quantifier) : quant.combine (D.withPivot pivot) =
    quant.combine D := by
  cases quant <;> rfl

@[simp] theorem evalLeaf_withPivot (ctx : EvalContext) (kind : ConditionLeaf) :
    evalLeaf (D.withPivot pivot) ctx kind = evalLeaf D ctx kind := by
  cases kind <;> rfl

theorem foldDepsLoopFully_absorb (sound : Saturating D pivot good allowed)
    {enter quant base deps result} (isGood : good result) (sat : quant.saturated D result = true)
      (st : EvalState Sel) :
    (foldDepsLoopFully (D.withPivot pivot) enter quant base deps result st).1 = result := by
  induction deps generalizing st with
  | nil => rfl
  | cons dep deps ih =>
    rw [foldDepsLoopFully, combine_withPivot, sound.absorb isGood sat]
    exact ih _

theorem foldDepsLoopFully_stateless {enter quant base deps}
    (stateless : ∀ dep st, ∃ counter, (enter dep st).2 = st.atCounter counter) (result : Sel)
    (st : EvalState Sel) :
    ∃ counter, (foldDepsLoopFully D enter quant base deps result st).2 = st.atCounter counter := by
  induction deps generalizing result st with
  | nil => exact ⟨st.counter, rfl⟩
  | cons dep deps ih =>
    obtain ⟨counter, entered⟩ := stateless dep (st.atCounter base)
    obtain ⟨final, looped⟩ := ih (quant.combine D result (enter dep (st.atCounter base)).1)
      (enter dep (st.atCounter base)).2
    refine ⟨final, ?_⟩
    rw [foldDepsLoopFully, looped, entered]
    rfl

theorem foldDepsLoop_fully (sound : Saturating D pivot good allowed) {enter quant evalAll base deps}
    (entered : ∀ dep st, good (enter dep st).1)
    (stateless : evalAll = false → ∀ dep st, ∃ counter, (enter dep st).2 = st.atCounter counter)
    {result} (isGood : good result) (st : EvalState Sel) :
    good (foldDepsLoop D enter quant evalAll base deps result st).1 ∧
      (foldDepsLoop D enter quant evalAll base deps result st).1 =
        (foldDepsLoopFully (D.withPivot pivot) enter quant base deps result st).1 ∧
      ∀ counter, (foldDepsLoop D enter quant evalAll base deps result st).2.atCounter counter =
        (foldDepsLoopFully (D.withPivot pivot) enter quant base deps result st).2.atCounter
          counter := by
  induction deps generalizing result st with
  | nil => exact ⟨isGood, rfl, fun _ => rfl⟩
  | cons dep deps ih =>
    have combined : good (quant.combine D result (enter dep (st.atCounter base)).1) :=
      sound.combine quant isGood (entered dep _)
    simp only [foldDepsLoop, foldDepsLoopFully, combine_withPivot]
    split
    · rename_i stopped
      obtain ⟨sat, skips⟩ := Bool.and_eq_true_iff.mp stopped
      have isStateless := stateless (by simpa using skips)
      obtain ⟨final, looped⟩ := @foldDepsLoopFully_stateless _ (D.withPivot pivot) _ quant base
        deps isStateless
        (quant.combine D result (enter dep (st.atCounter base)).1) (enter dep (st.atCounter base)).2
      refine ⟨combined, (foldDepsLoopFully_absorb sound combined sat _).symm, fun counter => ?_⟩
      rw [looped]
      rfl
    · exact ih combined _

theorem foldDeps_fully (sound : Saturating D pivot good allowed) {enter quant deps condition}
    (entered : ∀ dep st, good (enter dep st).1)
    (stateless : condition.hasStatefulNodes = false → ∀ dep st, ∃ counter, (enter dep st).2 =
      st.atCounter counter)
    (st : EvalState Sel) :
    good (foldDeps D enter deps condition quant st).1 ∧
      (foldDeps D enter deps condition quant st).1 =
        (foldDepsFully (D.withPivot pivot) enter deps condition quant st).sel ∧
      (foldDeps D enter deps condition quant st).2 =
        (foldDepsFully (D.withPivot pivot) enter deps condition quant st).state := by
  obtain ⟨isGood, sels, states⟩ := @foldDepsLoop_fully _ _ _ _ _ sound enter quant
    condition.hasStatefulNodes
    st.counter deps entered stateless _ (sound.init quant) st
  simp only [foldDeps, foldDepsFully, init_withPivot]
  exact ⟨isGood, sels, states _⟩

theorem foldCombinator_fully (sound : Saturating D pivot good allowed) {quant kids ctx buildTree}
    (each : ∀ child ∈ kids, ∀ st, good (eval D child ctx buildTree st).sel ∧
      (eval D child ctx buildTree st).Agrees (evalFully (D.withPivot pivot) child ctx st))
    {result} (isGood : good result) (st : EvalState Sel) :
    good (foldCombinator D quant kids ctx buildTree result st).1 ∧
      (foldCombinator D quant kids ctx buildTree result st).1 =
        (foldChildrenFully (D.withPivot pivot) quant kids ctx result st).sel ∧
      (foldCombinator D quant kids ctx buildTree result st).2.2 =
        (foldChildrenFully (D.withPivot pivot) quant kids ctx result st).state := by
  induction kids generalizing result st with
  | nil => exact ⟨isGood, rfl, rfl⟩
  | cons child kids ih =>
    have rest := @ih fun other mem => each other (List.mem_cons_of_mem _ mem)
    obtain ⟨childGood, sameSel, sameState⟩ := each child List.mem_cons_self st
    simp only [foldCombinator, foldChildrenFully, combine_withPivot, ← sameSel, ← sameState,
      skippedCounter_eq]
    split
    · rename_i skipped
      obtain ⟨sat, isStateless⟩ := Bool.and_eq_true_iff.mp skipped
      rw [sound.absorb isGood sat, eval_stateless D sound.stateless child
        (by simpa using isStateless)]
      exact rest isGood _
    · split
      · rename_i sat
        rw [sound.absorb isGood sat]
        exact rest isGood _
      · exact rest (sound.combine quant isGood childGood) _

theorem eval_fully (sound : Saturating D pivot good allowed) (node : ConditionNode) {ctx}
    (isAllowed : allowed ctx) (buildTree : Bool) (st : EvalState Sel) :
    good (eval D node ctx buildTree st).sel ∧
      (eval D node ctx buildTree st).Agrees (evalFully (D.withPivot pivot) node ctx st) := by
  induction node generalizing ctx buildTree st with
  | leaf kind =>
    refine ⟨sound.leaf isAllowed kind, ?_, rfl⟩
    rw [evalFully, evalLeaf_withPivot]
    rfl
  | anyDepsMatch condition label ih | allDepsMatch condition label ih
  | assetMatches keys condition ih =>
    have entered := @sound.pivot condition ctx (fun depCtx => eval D condition depCtx false)
      (evalFully (D.withPivot pivot) condition) isAllowed fun depCtx depAllowed depSt =>
        ih depAllowed false depSt
    have stateless : condition.hasStatefulNodes = false →
        ∀ (dep : String) (depSt : EvalState Sel), ∃ counter,
        (D.pivotIntoDep dep condition ctx (fun depCtx => eval D condition depCtx false) depSt).2 =
          depSt.atCounter counter := fun isStateless dep depSt =>
      sound.stateless dep condition ctx _ depSt isStateless fun depCtx innerSt =>
        ⟨_, eval_stateless D sound.stateless condition isStateless depCtx false innerSt⟩
    have samePivot : (fun dep => D.pivotIntoDep dep condition ctx fun depCtx => eval D condition
        depCtx false) =
        fun dep => (D.withPivot pivot).pivotIntoDep dep condition ctx
          (evalFully (D.withPivot pivot) condition) :=
      funext fun dep => funext fun depSt => (entered dep depSt).2
    obtain ⟨isGood, sels, states⟩ := foldDeps_fully sound (fun dep depSt => (entered dep depSt).1)
      stateless st.next
    refine ⟨isGood, sels.trans ?_, states.trans ?_⟩ <;> rw [evalFully, samePivot]
  | and kids ih | or kids ih =>
    exact foldCombinator_fully sound (fun child mem => ih child mem isAllowed buildTree)
      (sound.init _) st.next
  | not child ih =>
    obtain ⟨isGood, sels, states⟩ := ih isAllowed buildTree st.next
    refine ⟨sound.not ctx isGood, ?_, states⟩
    rw [evalFully, ← sels]
    rfl
  | newlyTrue child ih =>
    obtain ⟨isGood, sels, states⟩ := ih isAllowed buildTree st.next
    refine ⟨sound.difference _ ctx isGood, ?_, ?_⟩ <;> rw [evalFully, ← sels, ← states] <;> rfl
  | since trigger reset triggerIh resetIh =>
    obtain ⟨_, triggerSels, triggerStates⟩ := triggerIh isAllowed buildTree st.next
    obtain ⟨_, resetSels, resetStates⟩ := resetIh isAllowed buildTree
      (eval D trigger ctx buildTree st.next).state
    refine ⟨sound.restrict _ ctx, ?_, ?_⟩ <;>
      simp only [evalFully, ← triggerSels, ← triggerStates, ← resetSels, ← resetStates] <;> rfl
  | sinceLastHandled child ih =>
    obtain ⟨isGood, sels, states⟩ := ih isAllowed buildTree st.next
    refine ⟨sound.sinceLastHandled ctx isGood, ?_, states⟩
    rw [evalFully, ← sels]
    rfl

end Agreement

theorem withDepLatch_congr {depKey inner full} (agree : ∀ st, (inner st).Agrees (full st))
    (st : EvalState Sel) :
    withDepLatch depKey inner st = withDepLatch depKey full st := by
  grind [Evaluated.Agrees, withDepLatch]

theorem boolDomain_saturating :
    Saturating boolDomain boolDomain.pivotIntoDep (fun _ => True) fun _ => True where
  absorb := by
    rintro (_ | _) sel _ sat other <;> cases sel <;> first | rfl | cases sat
  init _ := trivial
  combine _ _ _ := trivial
  leaf _ _ := trivial
  not _ _ := trivial
  difference _ _ _ := trivial
  restrict _ _ := trivial
  sinceLastHandled _ _ := trivial
  stateless := boolDomain_statelessPivot
  pivot := by
    intro condition ctx inner full _ agree depKey st
    refine ⟨trivial, ?_⟩
    simp only [boolDomain, BoolDomain.pivotIntoDep]
    split
    · rfl
    · exact withDepLatch_congr (fun depSt => (agree _ trivial depSt).2) st

namespace PartitionSelection

def Normal (selection : PartitionSelection) : Prop :=
  selection ≠ .keys ∅

variable {left right selection : PartitionSelection} {allKeys selected : Finset PartitionKey}

theorem normal_all : PartitionSelection.all.Normal := by
  simp [Normal]

theorem normal_empty : PartitionSelection.empty.Normal := by
  simp [Normal]

theorem normal_fromKeys : (fromKeys selected).Normal := by
  unfold fromKeys Normal
  split
  · exact normal_empty
  · rename_i nonempty
    simpa using nonempty

theorem normal_fromBool (value : Bool) : (fromBool value).Normal := by
  cases value
  · exact normal_empty
  · exact normal_all

theorem normal_union (leftNormal : left.Normal) (rightNormal : right.Normal) :
    (left.union right).Normal := by
  cases left <;> cases right
  case keys.keys => exact normal_fromKeys
  all_goals assumption

theorem normal_intersect (leftNormal : left.Normal) (rightNormal : right.Normal) :
    (left.intersect right).Normal := by
  cases left <;> cases right
  case keys.keys => exact normal_fromKeys
  all_goals assumption

theorem normal_complement : (selection.complement allKeys).Normal := by
  cases selection with
  | all => exact normal_empty
  | empty => exact @normal_fromKeys allKeys
  | keys selected => exact normal_fromKeys

theorem normal_difference (isNormal : left.Normal) : (left.difference right allKeys).Normal := by
  cases left <;> cases right
  case keys.keys => exact normal_fromKeys
  case all.keys removed => exact @normal_complement (.keys removed) allKeys
  case all.all | keys.all => exact normal_empty
  all_goals exact isNormal

theorem normal_restrictTo : (selection.restrictTo allKeys).Normal := by
  cases selection with
  | all => exact normal_all
  | empty => exact normal_empty
  | keys selected => exact normal_fromKeys

theorem eq_empty_of_normal (isNormal : selection.Normal) (isEmpty : selection.isEmpty = true) :
    selection = .empty := by
  cases selection with
  | all => cases isEmpty
  | empty => rfl
  | keys selected =>
    exact absurd (congrArg PartitionSelection.keys (of_decide_eq_true isEmpty)) isNormal

theorem normal_shiftSelection (isNormal : selection.Normal) (offset : Int)
    (grid : Option TimeGrid) :
    (shiftSelection selection offset grid).Normal := by
  unfold shiftSelection
  grind [normal_fromKeys]

theorem normal_expandWildcards {combos downstreamUniverse} :
    (expandWildcards combos downstreamUniverse).Normal := by
  simp only [expandWildcards]
  split
  · exact normal_fromKeys
  · split
    · exact normal_all
    · exact normal_fromKeys

theorem normal_mapToDownstreamIn (kind : PartitionMappingKind) (isNormal : selection.Normal)
    (downstreamUniverse : Option (Finset PartitionKey)) :
    (kind.mapToDownstreamIn selection downstreamUniverse).Normal := by
  cases kind with
  | identity | subset =>
    rw [mapToDownstreamIn]
    exact isNormal
  | allPartitions | specificPartitions keys | forKeys =>
    rw [mapToDownstreamIn]
    split
    · exact normal_empty
    · exact normal_all
  | static mapping =>
    unfold mapToDownstreamIn
    split
    · exact normal_fromKeys
    · exact isNormal
  | timeWindow offset grid =>
    rw [mapToDownstreamIn]
    exact normal_shiftSelection isNormal _ _
  | multi dimensionMappings =>
    unfold mapToDownstreamIn
    split
    · exact normal_expandWildcards
    · exact isNormal
  | multiToSingle dimensionName inner =>
    unfold mapToDownstreamIn
    split
    · grind [normal_all, normal_fromKeys]
    · exact isNormal

end PartitionSelection

def EvalContext.RequestsNormal (ctx : EvalContext) : Prop :=
  ∀ asset selection, ctx.requestedThisTick.lookup asset = some selection → selection.Normal

section Partitioned

open PartitionSelection

variable {ctx : EvalContext} {selection : PartitionSelection}

theorem normal_partitionFilterSelect {β : Type} {slots pctx} {pred : β → Bool} :
    (partitionFilterSelect slots pctx pred).Normal := by
  unfold partitionFilterSelect
  split
  · exact normal_empty
  · exact normal_fromKeys

theorem normal_evalLeaf (reqs : ctx.RequestsNormal) (kind : ConditionLeaf) :
    (evalLeaf partitionDomain ctx kind).Normal := by
  cases kind with
  | missing | inProgress | executionFailed | newlyUpdated => exact normal_fromKeys
  | codeVersionChanged | dataVersionChanged | initialEvaluation | cronTickPassed _ _ =>
    exact normal_fromBool _
  | newlyRequested =>
    simp only [evalLeaf, partitionDomain, newlyRequested]
    split
    · split
      · exact normal_fromKeys
      · exact normal_empty
    · exact normal_empty
  | inLatestTimeWindow lookbackDelta =>
    simp only [evalLeaf, partitionDomain, inLatestWindow]
    split
    · exact normal_fromKeys
    · exact normal_empty
  | backfillInProgress =>
    simp only [evalLeaf, partitionDomain, backfillInProgress]
    split
    · exact normal_empty
    · split
      · exact normal_all
      · exact normal_fromKeys
  | lastExecutedWithTags tagKeys tagValues => exact normal_partitionFilterSelect
  | hasRunWithTags tagKeys tagValues | allRunsHaveTags tagKeys tagValues =>
    exact normal_partitionFilterSelect
  | lastRunIncludesTarget =>
    simp only [evalLeaf, partitionDomain]
    split
    · exact normal_empty
    · exact normal_partitionFilterSelect
  | willBeRequested =>
    simp only [evalLeaf, partitionDomain, getD]
    cases asked : ctx.requestedThisTick.lookup ctx.targetKey with
    | none => exact normal_empty
    | some selection => exact reqs _ _ asked

theorem normal_sinceLastHandled (isNormal : selection.Normal) :
    (sinceLastHandled selection ctx).Normal := by
  grind [normal_difference, PartitionSelection.Normal, sinceLastHandled]

theorem normal_mapDownstream (resolver : PartitionResolver) (upstreamAsset downstreamAsset : String)
    (isNormal : selection.Normal) (downstreamUniverse : Option (Finset PartitionKey)) :
    (resolver.mapDownstream upstreamAsset downstreamAsset selection downstreamUniverse).Normal := by
  unfold PartitionResolver.mapDownstream
  split
  · exact isNormal
  · exact normal_mapToDownstreamIn _ isNormal _

variable {condition : ConditionNode} {pctx : PartitionEvalContext} {depRecord : AssetRecord}

theorem bridgeIntoDep_fully (depKey : String) (st : EvalState PartitionSelection) :
    bridgeIntoDep depKey condition ctx pctx depRecord st =
      (let evaluated := evalFully boolDomain condition
        (depEvalContext ctx depKey depRecord none (some (bridgeFloor ctx pctx)))
        (bridgeState depKey st)
      (.fromBool evaluated.sel, collectBridged depKey evaluated st)) := by
  have agree : (eval boolDomain condition
      (depEvalContext ctx depKey depRecord none (some (bridgeFloor ctx pctx))) false
      (bridgeState depKey st)).Agrees (evalFully boolDomain condition _ _) :=
    (eval_fully boolDomain_saturating condition trivial false (bridgeState depKey st)).2
  simp only [bridgeIntoDep, collectBridged, agree.1, agree.2]

theorem partitionedIntoDep_fully {inner full} (reqs : ctx.RequestsNormal)
    (agree : ∀ depCtx : EvalContext, depCtx.RequestsNormal → ∀ depSt,
      (inner depCtx depSt).sel.Normal ∧ (inner depCtx depSt).Agrees (full depCtx depSt))
        (depKey : String)
    (upstreamAllKeys : Finset PartitionKey) (st : EvalState PartitionSelection) :
    (partitionedIntoDep depKey condition ctx pctx depRecord upstreamAllKeys inner st).1.Normal ∧
      partitionedIntoDep depKey condition ctx pctx depRecord upstreamAllKeys inner st =
        partitionedIntoDep depKey condition ctx pctx depRecord upstreamAllKeys full st := by
  have inside := fun parts floor =>
    agree (depEvalContext ctx depKey depRecord parts floor) reqs
  grind [withDepLatch_congr, normal_mapDownstream, partitionedIntoDep, withDepLatch]

theorem pivotIntoDep_fully {inner full} (reqs : ctx.RequestsNormal)
    (agree : ∀ depCtx : EvalContext, depCtx.RequestsNormal → ∀ depSt,
      (inner depCtx depSt).sel.Normal ∧ (inner depCtx depSt).Agrees (full depCtx depSt))
        (depKey : String)
    (st : EvalState PartitionSelection) :
    (pivotIntoDep depKey condition ctx inner st).1.Normal ∧
      pivotIntoDep depKey condition ctx inner st =
        pivotIntoDepFully depKey condition ctx full st := by
  simp only [pivotIntoDep, pivotIntoDepFully]
  cases ctx.cache.records.lookup depKey with
  | none => exact ⟨normal_empty, rfl⟩
  | some depRecord =>
    cases (requirePctx ctx).resolver.upstreamPartitionKeys.lookup depKey with
    | none => exact ⟨normal_fromBool _, bridgeIntoDep_fully depKey st⟩
    | some upstreamAllKeys => exact partitionedIntoDep_fully reqs agree depKey upstreamAllKeys st

theorem partitionDomain_saturating :
    Saturating partitionDomain pivotIntoDepFully PartitionSelection.Normal EvalContext.RequestsNormal where
  absorb := by
    intro quant sel isNormal sat other
    cases quant with
    | any =>
      cases sel with
      | all => rfl
      | empty | keys => cases sat
    | all =>
      have isEmpty : sel.isEmpty = true := by
        simpa [Quantifier.saturated, partitionDomain, PartitionSelection.toBool] using sat
      cases eq_empty_of_normal isNormal isEmpty
      rfl
  init quant := by
    cases quant
    · exact normal_empty
    · exact normal_all
  combine quant leftNormal rightNormal := by
    cases quant
    · exact normal_union leftNormal rightNormal
    · exact normal_intersect leftNormal rightNormal
  leaf reqs kind := normal_evalLeaf reqs kind
  not _ _ := normal_complement
  difference _ _ isNormal := normal_difference isNormal
  restrict _ _ := normal_restrictTo
  sinceLastHandled _ isNormal := normal_sinceLastHandled isNormal
  stateless := partitionDomain_statelessPivot
  pivot := fun reqs agree depKey st => pivotIntoDep_fully reqs agree depKey st

end Partitioned

theorem run_fully {D pivot} {good : Sel → Prop} {allowed} (sound : Saturating D pivot good allowed)
    (node : ConditionNode) {ctx} (isAllowed : allowed ctx) (buildTree : Bool) :
    (run D node ctx buildTree).1 = runFully (D.withPivot pivot) node ctx := by
  obtain ⟨_, sels, states⟩ := eval_fully sound node isAllowed buildTree
    { counter := 0, sub := ∅, scope := { prev := D.rootDepPrev ctx, acc := ∅, curPrev := none, bridged := ∅ } }
  simp only [run, runFully, sels, states]
  rfl

theorem evaluate_fully (node : ConditionNode) {ctx : EvalContext} (reqs : ctx.RequestsNormal) :
    evaluate node ctx = evaluateFully node ctx := by
  unfold evaluate evaluateFully
  split
  · exact run_fully partitionDomain_saturating node reqs false
  · exact run_fully boolDomain_saturating node trivial false

end Rivers
