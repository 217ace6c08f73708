import Rivers.Condition.EvalSim

/-! What an evaluation reads of earlier states. -/

namespace Rivers

open FiniteMap PartitionDomain AssetConditionState PartitionSelection

namespace AssetConditionState

/-- The scalars of a state and, where asked for, its handled marks. -/
def handledView (marks : Bool) (state : AssetConditionState) : AssetConditionState :=
  { state with
    partitionState :=
      if state.handledKeys = ∅ ∨ marks = false then none
      else some { handled := state.handledKeys } }

def partitionReads (state : AssetConditionState) : PartitionState :=
  { state.partitionState.getD {} with handled := ∅ }

theorem handledView_false (state : AssetConditionState) : state.handledView false =
    state.scalarClone := by
  simp [handledView, scalarClone]

theorem handledView_congr {marks : Bool} {left right : AssetConditionState}
    (scalars : left.scalarClone = right.scalarClone)
    (sameMarks : marks = true → left.handledKeys = right.handledKeys) :
    left.handledView marks = right.handledView marks := by
  cases marks with
  | false => rw [handledView_false, handledView_false, scalars]
  | true =>
    have view (state : AssetConditionState) : state.handledView true =
        { state.scalarClone with
          partitionState :=
            if state.handledKeys = ∅ then none else some { handled := state.handledKeys } } := by
      simp [handledView, scalarClone]
    rw [view, view, scalars, sameMarks rfl]

end AssetConditionState

namespace EvalContext

def handledView (own others : Bool) (ctx : EvalContext) : EvalContext :=
  { ctx with
    prevState := ctx.prevState.handledView own
    allAssetStates := mapValues ctx.allAssetStates (AssetConditionState.handledView others) }

theorem eq_of_handledView {own others} {ctx₁ ctx₂ : EvalContext}
    (same : ctx₁.handledView own others = ctx₂.handledView own others) :
    ctx₂ = { ctx₁ with prevState := ctx₂.prevState, allAssetStates := ctx₂.allAssetStates } := by
  cases ctx₁
  cases ctx₂
  simp only [handledView, mk.injEq] at same
  simp only [mk.injEq]
  simp [same]

theorem scalars_of_handledView {own others} {ctx₁ ctx₂ : EvalContext}
    (same : ctx₁.handledView own others = ctx₂.handledView own others) :
    ctx₁.handledView false false = ctx₂.handledView false false := by
  have forget (ctx : EvalContext) :
      (ctx.handledView own others).handledView false false = ctx.handledView false false := by
    have states : mapValues (mapValues ctx.allAssetStates (AssetConditionState.handledView others))
        (AssetConditionState.handledView false) =
        mapValues ctx.allAssetStates (AssetConditionState.handledView false) := by
      apply Finmap.ext_lookup
      intro key
      simp only [lookup_mapValues, Option.map_map]
      congr 1
      funext state
      simp only [Function.comp_apply, handledView_false]
      rfl
    simp only [handledView, states, handledView_false]
    rfl
  rw [← forget, same, forget]

end EvalContext

section Reads

variable (ctx : EvalContext) (own others : Bool)

theorem dataVersionBaseline_handledView :
    dataVersionBaseline (ctx.handledView own others) = dataVersionBaseline ctx := by
  simp only [dataVersionBaseline, EvalContext.handledView, lookup_mapValues]
  cases ctx.allAssetStates.lookup ctx.rootKey <;> rfl

theorem rootLastTick_handledView : rootLastTick (ctx.handledView own others) =
    rootLastTick ctx := by
  simp only [rootLastTick, EvalContext.handledView, lookup_mapValues]
  cases ctx.allAssetStates.lookup ctx.rootKey <;> rfl

theorem rootHandledState_handledView : rootHandledState (ctx.handledView own others) =
    rootHandledState ctx := by
  simp only [rootHandledState, EvalContext.handledView, lookup_mapValues]
  cases ctx.allAssetStates.lookup ctx.rootKey <;> rfl

theorem evalLeaf_bool_handledView (kind : ConditionLeaf) :
    evalLeaf boolDomain (ctx.handledView own others) kind = evalLeaf boolDomain ctx kind := by
  cases kind with
  | dataVersionChanged =>
    simp only [evalLeaf, dataVersionChanged, dataVersionBaseline_handledView]
    rfl
  | cronTickPassed cronSchedule timezone =>
    simp only [evalLeaf, cronTickPassed, rootLastTick_handledView]
    rfl
  | _ => rfl

theorem sinceLastHandled_bool_handledView (current : Bool) :
    BoolDomain.sinceLastHandled current (ctx.handledView own others) = BoolDomain.sinceLastHandled
      current ctx := by
  simp only [BoolDomain.sinceLastHandled, rootHandledState_handledView]

theorem selectInUniverse_empty (pctx : PartitionEvalContext) :
    selectInUniverse ∅ pctx = .empty := by
  simp [selectInUniverse, fromKeys]

theorem newlyRequested_handledView :
    newlyRequested (ctx.handledView true others) = newlyRequested ctx := by
  have view : (ctx.handledView true others).prevState.partitionState =
      if ctx.prevState.handledKeys = ∅ then none
      else some { handled := ctx.prevState.handledKeys } := by
    simp [EvalContext.handledView, AssetConditionState.handledView]
  have asked : requestedLastTick (ctx.handledView true others) = requestedLastTick ctx := rfl
  have parts : requirePctx (ctx.handledView true others) = requirePctx ctx := rfl
  simp only [newlyRequested, asked, parts, view]
  by_cases empty : ctx.prevState.handledKeys = ∅
  · grind [selectInUniverse_empty, AssetConditionState.handledKeys]
  · grind [AssetConditionState.handledKeys]

theorem sinceLastHandled_handledView (current : PartitionSelection) :
    sinceLastHandled current (ctx.handledView true others) =
      sinceLastHandled current ctx := by
  have view : (ctx.handledView true others).prevState.partitionState =
      if ctx.prevState.handledKeys = ∅ then none
      else some { handled := ctx.prevState.handledKeys } := by
    simp [EvalContext.handledView, AssetConditionState.handledView]
  have justHandled : wasJustHandled (ctx.handledView true others) =
      wasJustHandled ctx := by
    simp only [wasJustHandled, rootHandledState_handledView]
  have keys : (ctx.handledView true others).targetKey = ctx.targetKey ∧
      (ctx.handledView true others).rootKey = ctx.rootKey :=
    ⟨rfl, rfl⟩
  have parts : requirePctx (ctx.handledView true others) = requirePctx ctx := rfl
  grind [sinceLastHandled, AssetConditionState.handledKeys, difference, fromKeys]

theorem evalLeaf_partition_handledView (kind : ConditionLeaf) (other : kind ≠ .newlyUpdated)
    (unmarked : kind ≠ .newlyRequested) :
    evalLeaf partitionDomain (ctx.handledView own others) kind =
      evalLeaf partitionDomain ctx kind := by
  cases kind with
  | newlyUpdated => exact absurd rfl other
  | newlyRequested => exact absurd rfl unmarked
  | dataVersionChanged =>
    simp only [evalLeaf, dataVersionChanged, dataVersionBaseline_handledView]
    rfl
  | cronTickPassed cronSchedule timezone =>
    simp only [evalLeaf, cronTickPassed, rootLastTick_handledView]
    rfl
  | _ => rfl

theorem depEvalContext_handledView (depKey : String) (depRecord : AssetRecord)
    (parts : Option PartitionEvalContext) (floor : Option (Option Int)) :
    (depEvalContext ctx depKey depRecord parts floor).handledView others others =
      depEvalContext (ctx.handledView own others) depKey depRecord parts floor := by
  simp only [depEvalContext, EvalContext.handledView, lookup_mapValues]
  cases ctx.allAssetStates.lookup depKey <;> rfl

end Reads

namespace ConditionNode

mutual

def newlyUpdatedAtRoot : ConditionNode → Bool
  | .leaf kind => kind = .newlyUpdated
  | .and children | .or children => newlyUpdatedAtRootList children
  | .not child | .newlyTrue child | .sinceLastHandled child => newlyUpdatedAtRoot child
  | .since trigger reset => newlyUpdatedAtRoot trigger || newlyUpdatedAtRoot reset
  | .anyDepsMatch _ _ | .allDepsMatch _ _ | .assetMatches _ _ => false

def newlyUpdatedAtRootList : List ConditionNode → Bool
  | [] => false
  | node :: nodes => newlyUpdatedAtRoot node || newlyUpdatedAtRootList nodes

end

theorem newlyUpdatedAtRootList_eq (nodes : List ConditionNode) :
    newlyUpdatedAtRootList nodes = nodes.any newlyUpdatedAtRoot := by
  induction nodes with
  | nil => rfl
  | cons node nodes ih => simp [newlyUpdatedAtRootList, ih]

theorem newlyUpdatedAtRoot_child {node child : ConditionNode}
    (none : node.newlyUpdatedAtRoot = false) (plain : node.isDepAggregate = false)
    (mem : child ∈ node.children) : child.newlyUpdatedAtRoot =
    false := by
  cases node with
  | leaf kind => cases mem
  | anyDepsMatch cond label | allDepsMatch cond label | assetMatches keys cond =>
    simp [isDepAggregate] at plain
  | and kids | or kids =>
    simp only [newlyUpdatedAtRoot, newlyUpdatedAtRootList_eq, List.any_eq_false] at none
    simpa using none child mem
  | not inner | newlyTrue inner | sinceLastHandled inner =>
    rw [List.mem_singleton.mp mem]
    simpa only [newlyUpdatedAtRoot] using none
  | since trigger reset => grind [newlyUpdatedAtRoot, children]

def readsPartitionState (node : ConditionNode) : Bool :=
  node.hasStatefulNodes || node.newlyUpdatedAtRoot

end ConditionNode

theorem collectDepLatch_reads {Sel : Type} (scope : DepScope Sel) (depKey : String)
    (found : HashMap Nat Sel) :
    (collectDepLatch scope depKey found).prev = scope.prev ∧
      (collectDepLatch scope depKey found).curPrev = scope.curPrev := by
  unfold collectDepLatch
  split <;> exact ⟨rfl, rfl⟩

structure ReadsAgree {Sel : Type} (latched : Prop) (st₁ st₂ : EvalState Sel) : Prop where
  counter : st₁.counter = st₂.counter
  latches : latched → st₁.scope.prev = st₂.scope.prev ∧ st₁.scope.curPrev = st₂.scope.curPrev

theorem ReadsAgree.withDepLatch {Sel : Type} {latched : Prop} (depKey : String)
    {inner₁ inner₂ st₁ st₂} (states : ReadsAgree latched st₁ st₂)
    (related : ∀ {depSt₁ depSt₂ : EvalState Sel}, ReadsAgree latched depSt₁ depSt₂ →
      depSt₁.scope.curPrev.isSome → depSt₂.scope.curPrev.isSome →
      (inner₁ depSt₁).sel = (inner₂ depSt₂).sel ∧
        ReadsAgree latched (inner₁ depSt₁).state (inner₂ depSt₂).state) :
    (withDepLatch depKey inner₁ st₁).1 = (withDepLatch depKey inner₂ st₂).1 ∧
      ReadsAgree latched (withDepLatch depKey inner₁ st₁).2 (withDepLatch depKey inner₂ st₂).2 := by
  have entered : ReadsAgree latched
      { counter := st₁.counter, sub := (∅ : HashMap Nat Sel),
        scope := { st₁.scope with curPrev := some ((st₁.scope.prev.lookup depKey).getD ∅) } }
      { counter := st₂.counter, sub := ∅,
        scope := { st₂.scope with curPrev := some ((st₂.scope.prev.lookup depKey).getD ∅) } } := by
    refine ⟨states.counter, ?_⟩
    intro holds
    exact ⟨(states.latches holds).1, by simp only [(states.latches holds).1]⟩
  obtain ⟨sel, after⟩ := related entered rfl rfl
  refine ⟨sel, after.counter, ?_⟩
  grind [collectDepLatch_reads, latches, withDepLatch]

section Simulations

variable (latched : Prop)

def LatchesRead (node : ConditionNode) : Prop :=
  latched ∨ node.hasStatefulNodes = false

variable {latched}

theorem LatchesRead.child {node child} (allowed : LatchesRead latched node)
    (mem : child ∈ node.children) : LatchesRead latched child :=
  allowed.imp_right fun stateless => ConditionNode.anyNode_child stateless mem

theorem LatchesRead.ofStateful {node} (allowed : LatchesRead latched node)
    (stateful : node.isStateful = true) : latched := by
  rcases allowed with holds | stateless
  · exact holds
  · rw [ConditionNode.anyNode_self stateless] at stateful
    cases stateful

theorem boolReads_sim : EvalSim boolDomain boolDomain (fun sel₁ sel₂ => sel₁ = sel₂)
    (fun _ ctx₁ ctx₂ => ctx₁.handledView false false = ctx₂.handledView false false)
    (fun _ => ReadsAgree latched)
    (fun _ => LatchesRead latched) where
  child := fun allowed _ member => allowed.child member
  condition := fun allowed _ member => allowed.child member
  counter := fun states => states.counter
  atCounter := fun states _ => ⟨rfl, states.latches⟩
  record := fun states _ _ => ⟨states.counter, states.latches⟩
  leaf := fun {_ kind ctx₁ ctx₂} _ same => by
    rw [← evalLeaf_bool_handledView ctx₁ false false, same, evalLeaf_bool_handledView]
  init := fun _ => rfl
  combine := fun _ left right => by rw [left, right]
  saturated := fun same saturated => same ▸ saturated
  absorb := fun same open₁ saturated => by
    rw [same, saturated] at open₁
    cases open₁
  not := fun _ sel => by rw [sel]; rfl
  difference := fun _ left right => by rw [left, right]; rfl
  restrict := fun _ sel => by rw [sel]; rfl
  sinceLastHandled := fun {_ _ ctx₁ ctx₂ sel₁ sel₂} _ same sel => by
    have viewed := sinceLastHandled_bool_handledView ctx₁ false false sel₁
    rw [same, sinceLastHandled_bool_handledView, sel] at viewed
    rw [sel]
    exact viewed.symm
  prevLatch := fun {_ _ ctx₁ ctx₂ st₁ st₂} allowed stateful same states index => by
    have previous : ctx₁.prevState.previousResults = ctx₂.prevState.previousResults :=
      congrArg (fun ctx => ctx.prevState.previousResults) same
    simp only [boolDomain, (states.latches (allowed.ofStateful stateful)).2, previous]
  deps := fun {_ _ ctx₁ ctx₂} _ _ same => by grind [upstreamDepsOf, EvalContext.handledView]
  pivot := fun {_ condition ctx₁ ctx₂ st₁ st₂ inner₁ inner₂} _ same states inner depKey _ => by
    have records : ctx₁.cache.records = ctx₂.cache.records :=
      congrArg (fun ctx => ctx.cache.records) same
    have floor : ctx₁.rootPartitionFloor = ctx₂.rootPartitionFloor :=
      congrArg (fun ctx => ctx.rootPartitionFloor) same
    simp only [boolDomain, BoolDomain.pivotIntoDep, records, floor]
    split
    · exact ⟨rfl, states⟩
    · rename_i depRecord _
      refine states.withDepLatch depKey fun depStates _ _ => inner ?_ depStates
      rw [depEvalContext_handledView ctx₁ false, same, depEvalContext_handledView ctx₂ false]
  stateless := boolDomain_statelessPivot

theorem previousTimestamp_eq (state : AssetConditionState) (key : PartitionKey) :
    (state.partitionState.bind fun parts => parts.timestamps.lookup key) =
      state.partitionReads.timestamps.lookup key := by
  cases found : state.partitionState <;> simp [partitionReads, found]

theorem previousSelection_eq (state : AssetConditionState) (index : Nat) :
    (state.partitionState.bind fun parts => parts.previousSelections.lookup index) =
      state.partitionReads.previousSelections.lookup index := by
  cases found : state.partitionState <;> simp [partitionReads, found]

theorem rootDepPrev_eq (ctx : EvalContext) :
    partitionDomain.rootDepPrev ctx = ctx.prevState.partitionReads.depPreviousSelections := by
  cases found : ctx.prevState.partitionState <;>
    simp [partitionDomain, AssetConditionState.partitionReads, found]

theorem newlyUpdated_of_floor {ctx} (floored : (requirePctx ctx).depRootFloor.isSome) :
    newlyUpdated (ctx.handledView false false) = newlyUpdated ctx := by
  have parts : requirePctx (ctx.handledView false false) = requirePctx ctx := rfl
  obtain ⟨floor, found⟩ := Option.isSome_iff_exists.mp floored
  simp only [newlyUpdated, isNewlyUpdated, parts, found]

theorem newlyUpdated_of_reads {ctx₁ ctx₂}
    (same : ctx₁.handledView false false = ctx₂.handledView false false)
    (reads : ctx₁.prevState.partitionReads = ctx₂.prevState.partitionReads) :
    newlyUpdated ctx₁ = newlyUpdated ctx₂ := by
  have parts : requirePctx ctx₁ = requirePctx ctx₂ := by
    grind [requirePctx, EvalContext.handledView]
  have initial : ctx₁.isInitial = ctx₂.isInitial := congrArg (fun ctx => ctx.isInitial) same
  simp only [newlyUpdated, isNewlyUpdated, parts,
    previousTimestamp_eq, reads, initial]

variable (latched) (own others : Bool)

def RootStatus (ctx : EvalContext) : Prop :=
  ((requirePctx ctx).allPartitionStatuses.lookup ctx.rootKey).isSome

def ContextsAgree : Scope → EvalContext → EvalContext → Prop
  | .root, ctx₁, ctx₂ =>
      ctx₁.handledView own others = ctx₂.handledView own others ∧ RootStatus ctx₁ ∧
      (latched → ctx₁.prevState.partitionReads = ctx₂.prevState.partitionReads)
  | .dep condition, ctx₁, ctx₂ => ctx₁.handledView others others = ctx₂.handledView others others ∧
      RootStatus ctx₁ ∧ (condition.containsNewlyUpdated → (requirePctx ctx₁).depRootFloor.isSome)

def StatesAgree : Scope → EvalState PartitionSelection → EvalState PartitionSelection → Prop
  | .root, st₁, st₂ => ReadsAgree latched st₁ st₂
  | .dep _, st₁, st₂ => ReadsAgree latched st₁ st₂ ∧ st₁.scope.curPrev.isSome ∧
      st₂.scope.curPrev.isSome

def Readable : Scope → ConditionNode → Prop
  | .root, node => latched ∨ node.readsPartitionState = false
  | .dep condition, node => LatchesRead latched node ∧
      (node.containsNewlyUpdated → condition.containsNewlyUpdated)

def MarksRead : Scope → ConditionNode → Prop
  | .root, node => (own = true ∨ node.readsMarks = false) ∧
      (others = own ∨ node.hasDepAggregate = false)
  | .dep _, node => others = true ∨ node.readsMarks = false

variable {latched} {own others}

theorem ContextsAgree.view {scope ctx₁ ctx₂}
    (ctxs : ContextsAgree latched own others scope ctx₁ ctx₂) :
    ∃ marks, ctx₁.handledView marks others = ctx₂.handledView marks others := by
  cases scope with
  | root => exact ⟨own, ctxs.1⟩
  | dep cond => exact ⟨others, ctxs.1⟩

theorem ContextsAgree.scalars {scope ctx₁ ctx₂}
    (ctxs : ContextsAgree latched own others scope ctx₁ ctx₂) :
    ctx₁.handledView false false = ctx₂.handledView false false := by
  obtain ⟨marks, same⟩ := ctxs.view
  exact EvalContext.scalars_of_handledView same

theorem ContextsAgree.marks {scope node ctx₁ ctx₂}
    (ctxs : ContextsAgree latched own others scope ctx₁ ctx₂)
    (allowed : MarksRead own others scope node) (reads : node.readsHandled = true) :
    ctx₁.handledView true others = ctx₂.handledView true others := by
  have notUnread : node.readsMarks ≠ false := fun unread => by
    rw [ConditionNode.anyNode_self unread] at reads
    cases reads
  cases scope with
  | root =>
    obtain rfl := allowed.1.resolve_right notUnread
    exact ctxs.1
  | dep cond =>
    obtain rfl := allowed.resolve_right notUnread
    exact ctxs.1

theorem ContextsAgree.rootStatus {scope ctx₁ ctx₂}
    (ctxs : ContextsAgree latched own others scope ctx₁ ctx₂) : RootStatus ctx₁ := by
  cases scope with
  | root => exact ctxs.2.1
  | dep cond => exact ctxs.2.1

theorem ContextsAgree.partitions {scope ctx₁ ctx₂}
    (ctxs : ContextsAgree latched own others scope ctx₁ ctx₂) :
    requirePctx ctx₁ = requirePctx ctx₂ := by
  have viewed : requirePctx (ctx₁.handledView false false) =
      requirePctx (ctx₂.handledView false false) := by rw [ctxs.scalars]
  exact viewed

theorem StatesAgree.reads {scope st₁ st₂} (states : StatesAgree latched scope st₁ st₂) :
    ReadsAgree latched st₁ st₂ := by
  cases scope with
  | root => exact states
  | dep cond => exact states.1

theorem StatesAgree.update {scope st₁ st₂ after₁ after₂}
    (states : StatesAgree latched scope st₁ st₂) (counter : after₁.counter = after₂.counter)
    (scope₁ : after₁.scope.prev = st₁.scope.prev ∧ after₁.scope.curPrev = st₁.scope.curPrev)
    (scope₂ : after₂.scope.prev = st₂.scope.prev ∧ after₂.scope.curPrev = st₂.scope.curPrev) :
    StatesAgree latched scope after₁ after₂ := by
  have reads : ReadsAgree latched after₁ after₂ := by
    refine ⟨counter, ?_⟩
    rw [scope₁.1, scope₁.2, scope₂.1, scope₂.2]
    exact states.reads.latches
  cases scope with
  | root => exact reads
  | dep cond => grind [StatesAgree]

theorem Readable.latchesRead {scope node} (allowed : Readable latched scope node) :
    LatchesRead latched node := by
  cases scope with
  | root =>
    refine allowed.imp_right fun unread => ?_
    rw [ConditionNode.readsPartitionState, Bool.or_eq_false_iff] at unread
    exact unread.1
  | dep condition => exact allowed.1

theorem Readable.child {scope node child} (allowed : Readable latched scope node)
    (plain : node.isDepAggregate = false) (mem : child ∈ node.children) : Readable latched
    scope child := by
  cases scope with
  | root =>
    refine allowed.imp_right fun unread => ?_
    rw [ConditionNode.readsPartitionState, Bool.or_eq_false_iff] at unread ⊢
    exact ⟨ConditionNode.anyNode_child unread.1 mem,
      ConditionNode.newlyUpdatedAtRoot_child unread.2 plain mem⟩
  | dep cond =>
    refine ⟨allowed.1.child mem, ?_⟩
    intro updated
    apply allowed.2
    rw [ConditionNode.containsNewlyUpdated, ConditionNode.anyNode_eq, Bool.or_eq_true]
    exact .inr (List.any_eq_true.mpr ⟨child, mem, updated⟩)

theorem MarksRead.child {scope node child} (allowed : MarksRead own others scope node)
    (mem : child ∈ node.children) : MarksRead own others scope child := by
  cases scope with
  | root =>
    exact ⟨allowed.1.imp_right fun unread => ConditionNode.anyNode_child unread mem,
      allowed.2.imp_right fun none => ConditionNode.anyNode_child none mem⟩
  | dep cond => exact allowed.imp_right fun unread => ConditionNode.anyNode_child unread mem

theorem MarksRead.condition {scope node cond} (allowed : MarksRead own others scope node)
    (aggregate : node.isDepAggregate = true) (mem : cond ∈ node.children) :
    MarksRead own others (.dep cond) cond := by
  cases scope with
  | root =>
    have some : node.hasDepAggregate = true := by
      rw [ConditionNode.hasDepAggregate, ConditionNode.anyNode_eq, aggregate, Bool.true_or]
    obtain rfl := allowed.2.resolve_right (Bool.eq_false_iff.not_left.mpr some)
    exact allowed.1.imp_right fun unread => ConditionNode.anyNode_child unread mem
  | dep outer => exact allowed.imp_right fun unread => ConditionNode.anyNode_child unread mem

theorem evalLeaf_agrees {scope kind ctx₁ ctx₂}
    (allowed : Readable latched scope (.leaf kind) ∧ MarksRead own others scope (.leaf kind))
    (ctxs : ContextsAgree latched own others scope ctx₁ ctx₂) :
    evalLeaf partitionDomain ctx₁ kind = evalLeaf partitionDomain ctx₂ kind := by
  by_cases other : kind = .newlyUpdated
  · subst other
    cases scope with
    | root =>
      rcases allowed.1 with holds | unread
      · exact newlyUpdated_of_reads ctxs.scalars (ctxs.2.2 holds)
      · simp [ConditionNode.readsPartitionState, ConditionNode.newlyUpdatedAtRoot] at unread
    | dep cond =>
      have floored := ctxs.2.2 (allowed.1.2 rfl)
      have floored₂ := floored
      rw [ctxs.partitions] at floored₂
      have viewed := newlyUpdated_of_floor floored
      rw [ctxs.scalars, newlyUpdated_of_floor floored₂] at viewed
      exact viewed.symm
  · by_cases marked : kind = .newlyRequested
    · subst marked
      change newlyRequested ctx₁ = newlyRequested ctx₂
      rw [← newlyRequested_handledView ctx₁ others, ctxs.marks allowed.2 rfl,
        newlyRequested_handledView]
    · rw [← evalLeaf_partition_handledView ctx₁ false false kind other marked, ctxs.scalars,
        evalLeaf_partition_handledView ctx₂ false false kind other marked]

theorem prevPartitionLatch_agrees {scope ctx₁ ctx₂ st₁ st₂} (holds : latched)
    (ctxs : ContextsAgree latched own others scope ctx₁ ctx₂)
    (states : StatesAgree latched scope st₁ st₂) (index : Nat) :
    prevPartitionLatch st₁.scope ctx₁ index =
      prevPartitionLatch st₂.scope ctx₂ index := by
  have latches := (states.reads.latches holds).2
  cases scope with
  | root =>
    simp only [prevPartitionLatch, latches, previousSelection_eq, ctxs.2.2 holds]
  | dep cond => grind [prevPartitionLatch, StatesAgree]

theorem withDepLatch_scope {Sel : Type} (depKey : String) (inner : EvalState Sel → Evaluated Sel)
    (st : EvalState Sel) : (withDepLatch depKey inner st).2.scope.curPrev = st.scope.curPrev := by
  simp only [withDepLatch, (collectDepLatch_reads _ _ _).2]

theorem bridgeIntoDep_agrees {scope cond ctx₁ ctx₂ st₁ st₂} (allowed : LatchesRead latched cond)
    (same : ctx₁.handledView false false = ctx₂.handledView false false)
    (states : StatesAgree latched scope st₁ st₂) (depKey : String) (pctx : PartitionEvalContext)
    (depRecord : AssetRecord) :
    (bridgeIntoDep depKey cond ctx₁ pctx depRecord st₁).1 =
        (bridgeIntoDep depKey cond ctx₂ pctx depRecord st₂).1 ∧
      StatesAgree latched scope
        (bridgeIntoDep depKey cond ctx₁ pctx depRecord st₁).2
        (bridgeIntoDep depKey cond ctx₂ pctx depRecord st₂).2 := by
  have floor : bridgeFloor ctx₁ pctx = bridgeFloor ctx₂ pctx := by
    grind [bridgeFloor, EvalContext.handledView]
  have entered : ReadsAgree latched (bridgeState depKey st₁)
      (bridgeState depKey st₂) := by
    refine ⟨states.reads.counter, ?_⟩
    intro holds
    simp only [bridgeState, (states.reads.latches holds).1]
    exact ⟨trivial, trivial⟩
  have depContexts : (depEvalContext ctx₁ depKey depRecord none
      (some (bridgeFloor ctx₁ pctx))).handledView false false =
      (depEvalContext ctx₂ depKey depRecord none
        (some (bridgeFloor ctx₂ pctx))).handledView false false := by
    rw [depEvalContext_handledView ctx₁ false, same, depEvalContext_handledView ctx₂ false, floor]
  obtain ⟨sel, after⟩ := eval_sim boolReads_sim cond .root allowed depContexts false false entered
  refine ⟨?_, ?_⟩
  · simp only [bridgeIntoDep, sel]
  · exact states.update after.counter ⟨rfl, rfl⟩ ⟨rfl, rfl⟩

theorem partitionedIntoDep_agrees {scope cond ctx₁ ctx₂ st₁ st₂ inner₁ inner₂}
    (ctxs : ContextsAgree latched own others scope ctx₁ ctx₂)
    (states : StatesAgree latched scope st₁ st₂)
    (inner : ∀ {depCtx₁ depCtx₂ depSt₁ depSt₂}, ContextsAgree latched own others (.dep cond)
      depCtx₁ depCtx₂ →
      StatesAgree latched (.dep cond) depSt₁ depSt₂ →
      (inner₁ depCtx₁ depSt₁).sel = (inner₂ depCtx₂ depSt₂).sel ∧
        StatesAgree latched (.dep cond) (inner₁ depCtx₁ depSt₁).state
          (inner₂ depCtx₂ depSt₂).state)
    (depKey : String) (depRecord : AssetRecord) (upstreamAllKeys : Finset PartitionKey) :
    let pctx := requirePctx ctx₁
    (partitionedIntoDep depKey cond ctx₁ pctx depRecord upstreamAllKeys inner₁
        st₁).1 =
      (partitionedIntoDep depKey cond ctx₂ pctx depRecord upstreamAllKeys inner₂
        st₂).1 ∧
    StatesAgree latched scope
      (partitionedIntoDep depKey cond ctx₁ pctx depRecord upstreamAllKeys inner₁
        st₁).2
      (partitionedIntoDep depKey cond ctx₂ pctx depRecord upstreamAllKeys inner₂
        st₂).2 := by
  have rootStatus := ctxs.rootStatus
  obtain ⟨marks, same⟩ := ctxs.view
  have shape := EvalContext.eq_of_handledView same
  generalize ctx₂.prevState = prevState at shape
  generalize ctx₂.allAssetStates = allAssetStates at shape
  subst shape
  -- what the pivot builds from the context is the same on both sides, only the states differ
  have entered : ∀ (parts : PartitionEvalContext) (floor : Option (Option Int)),
      (parts.allPartitionStatuses.lookup ctx₁.rootKey).isSome →
      (cond.containsNewlyUpdated → parts.depRootFloor.isSome) →
      (withDepLatch depKey (inner₁ (depEvalContext ctx₁ depKey depRecord (some parts) floor))
        st₁).1 =
      (withDepLatch depKey (inner₂ (depEvalContext
        { ctx₁ with prevState := prevState, allAssetStates := allAssetStates } depKey depRecord
        (some parts) floor)) st₂).1 ∧
      StatesAgree latched scope
        (withDepLatch depKey (inner₁ (depEvalContext ctx₁ depKey depRecord (some parts) floor))
          st₁).2
        (withDepLatch depKey (inner₂ (depEvalContext
          { ctx₁ with prevState := prevState, allAssetStates := allAssetStates } depKey depRecord
          (some parts) floor)) st₂).2 := by
    intro parts floor status floored
    have depContexts : ContextsAgree latched own others (.dep cond)
        (depEvalContext ctx₁ depKey depRecord (some parts) floor)
        (depEvalContext { ctx₁ with prevState := prevState, allAssetStates := allAssetStates }
          depKey
          depRecord (some parts) floor) :=
      ⟨by rw [depEvalContext_handledView ctx₁ marks, same, depEvalContext_handledView _ marks],
        status, floored⟩
    obtain ⟨sel, after⟩ := states.reads.withDepLatch depKey fun depStates current₁ current₂ =>
      (inner depContexts ⟨depStates, current₁, current₂⟩).imp_right StatesAgree.reads
    refine ⟨sel, ?_⟩
    cases scope with
    | root => exact after
    | dep outer =>
      refine ⟨after, ?_, ?_⟩
      · rw [withDepLatch_scope]
        exact states.2.1
      · rw [withDepLatch_scope]
        exact states.2.2
  have floored : cond.containsNewlyUpdated →
      (upstreamPctx depKey cond ctx₁ (requirePctx ctx₁)
        upstreamAllKeys).depRootFloor.isSome := by
    intro updated
    simp only [upstreamPctx, depRootFloor, updated, if_true,
      Option.isSome_map]
    exact rootStatus
  have evaluated := entered
    (upstreamPctx depKey cond ctx₁ (requirePctx ctx₁)
      upstreamAllKeys)
    (if cond.hasDepAggregate then
      some (bridgeFloor ctx₁ (requirePctx ctx₁)) else none)
    rootStatus floored
  unfold partitionedIntoDep
  dsimp only
  split
  · exact evaluated
  · exact ⟨congrArg (fun selection => (requirePctx ctx₁).resolver.mapDownstream depKey
      ctx₁.targetKey selection (some (requirePctx ctx₁).allKeys)) evaluated.1,
      evaluated.2⟩

theorem partitionReads_sim : EvalSim partitionDomain partitionDomain (fun sel₁ sel₂ => sel₁ = sel₂)
    (ContextsAgree latched own others) (StatesAgree latched)
    (fun scope node => Readable latched scope node ∧ MarksRead own others scope node) where
  child := fun allowed plain member => ⟨allowed.1.child plain member, allowed.2.child member⟩
  condition := fun allowed aggregate member =>
    ⟨⟨allowed.1.latchesRead.child member, id⟩, allowed.2.condition aggregate member⟩
  counter := fun states => states.reads.counter
  atCounter := fun states _ => states.update rfl ⟨rfl, rfl⟩ ⟨rfl, rfl⟩
  record := fun states _ _ => states.update states.reads.counter ⟨rfl, rfl⟩ ⟨rfl, rfl⟩
  leaf := evalLeaf_agrees
  init := fun _ => rfl
  combine := fun _ left right => by rw [left, right]
  saturated := fun same saturated => same ▸ saturated
  absorb := fun same open₁ saturated => by
    rw [same, saturated] at open₁
    cases open₁
  not := fun contexts sel => by simp only [partitionDomain, contexts.partitions, sel]
  difference := fun contexts left right => by
    simp only [partitionDomain, contexts.partitions, left, right]
  restrict := fun contexts sel => by simp only [partitionDomain, contexts.partitions, sel]
  sinceLastHandled := fun {_ _ ctx₁ ctx₂ sel₁ sel₂} allowed contexts sel => by
    have viewed := sinceLastHandled_handledView ctx₁ others sel₁
    rw [contexts.marks allowed.2 rfl, sinceLastHandled_handledView, sel] at viewed
    rw [sel]
    exact viewed.symm
  prevLatch := fun allowed stateful contexts states index =>
    prevPartitionLatch_agrees (allowed.1.latchesRead.ofStateful stateful) contexts states index
  deps := fun {_ _ ctx₁ ctx₂} _ _ contexts => by
    have viewed : upstreamDepsOf (ctx₁.handledView false false) =
        upstreamDepsOf (ctx₂.handledView false false) := by rw [contexts.scalars]
    exact viewed
  pivot := fun {_ condition ctx₁ ctx₂ st₁ st₂ inner₁ inner₂} allowed contexts states inner
    depKey _ => by
    have records : ctx₁.cache.records = ctx₂.cache.records :=
      congrArg (fun ctx => ctx.cache.records) contexts.scalars
    simp only [partitionDomain, pivotIntoDep, ← records, ← contexts.partitions]
    split
    · exact ⟨rfl, states⟩
    · split
      · exact bridgeIntoDep_agrees allowed.1.1 contexts.scalars states depKey _ _
      · exact partitionedIntoDep_agrees contexts states inner depKey _ _
  stateless := partitionDomain_statelessPivot

end Simulations

end Rivers
