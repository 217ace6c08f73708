import Rivers.Condition.PartitionDomain

/-! What every evaluation does to the threaded state. -/

namespace Rivers

open FiniteMap ConditionNode PartitionDomain

variable {Sel : Type}

@[simp] theorem EvalState.next_counter (st : EvalState Sel) : st.next.counter = st.counter + 1 :=
  rfl

@[simp] theorem EvalState.next_sub (st : EvalState Sel) : st.next.sub = st.sub := rfl

@[simp] theorem EvalState.atCounter_counter (st : EvalState Sel) (counter : Nat) :
    (st.atCounter counter).counter = counter := rfl

@[simp] theorem EvalState.atCounter_sub (st : EvalState Sel) (counter : Nat) :
    (st.atCounter counter).sub = st.sub := rfl

@[simp] theorem EvalState.atCounter_scope (st : EvalState Sel) (counter : Nat) :
    (st.atCounter counter).scope = st.scope := rfl

@[simp] theorem EvalState.record_counter (st : EvalState Sel) (index : Nat) (sel : Sel) :
    (st.record index sel).counter = st.counter := rfl

@[simp] theorem EvalState.record_sub (st : EvalState Sel) (index : Nat) (sel : Sel) :
    (st.record index sel).sub = st.sub.insert index sel := rfl

@[simp] theorem finish_sel (D : EvalDomain Sel) (node : ConditionNode) (ctx : EvalContext)
    (buildTree : Bool) (index : Nat) (sel : Sel) (kids : List EvalNodeResult)
    (st : EvalState Sel) : (finish D node ctx buildTree index sel kids st).sel = sel := rfl

@[simp] theorem finish_state (D : EvalDomain Sel) (node : ConditionNode) (ctx : EvalContext)
    (buildTree : Bool) (index : Nat) (sel : Sel) (kids : List EvalNodeResult)
    (st : EvalState Sel) : (finish D node ctx buildTree index sel kids st).state = st := rfl

theorem buildSkippedList_counter (kids : List ConditionNode)
    (each : ∀ child ∈ kids, ∀ counter, (buildSkippedSubtree child counter).2 =
      child.countNodes counter)
    (counter : Nat) :
    (buildSkippedList kids counter).2 = countNodesList kids counter := by
  induction kids generalizing counter with
  | nil => rfl
  | cons child kids ih => grind [buildSkippedList, countNodesList]

theorem buildSkippedSubtree_counter (node : ConditionNode) (counter : Nat) :
    (buildSkippedSubtree node counter).2 = node.countNodes counter := by
  induction node generalizing counter with
  | leaf kind => rfl
  | anyDepsMatch cond label ih | allDepsMatch cond label ih
  | assetMatches keys cond ih | not child ih | newlyTrue child ih
  | sinceLastHandled child ih =>
    simp [buildSkippedSubtree, countNodes, ih]
  | since trigger reset triggerIh resetIh =>
    simp [buildSkippedSubtree, countNodes, triggerIh, resetIh]
  | and kids ih | or kids ih =>
    simp [buildSkippedSubtree, countNodes, buildSkippedList_counter kids ih]

theorem skippedCounter_eq (child : ConditionNode) (buildTree : Bool) (counter : Nat) :
    (if buildTree then (buildSkippedSubtree child counter).2 else child.countNodes counter) =
      child.countNodes counter := by
  cases buildTree <;> simp [buildSkippedSubtree_counter]

theorem foldDeps_counter (D : EvalDomain Sel) (pivot : String → EvalState Sel → Sel × EvalState Sel)
    (deps : List String) (cond : ConditionNode) (quant : Quantifier) (st : EvalState Sel) :
    (foldDeps D pivot deps cond quant st).2.counter = cond.countNodes st.counter := rfl

theorem foldCombinator_counter (D : EvalDomain Sel) (quant : Quantifier) (kids : List ConditionNode)
    (ctx : EvalContext) (buildTree : Bool) (each : ∀ child ∈ kids, ∀ st : EvalState Sel,
      (eval D child ctx buildTree st).state.counter = child.countNodes st.counter) (result : Sel)
        (st : EvalState Sel) :
    (foldCombinator D quant kids ctx buildTree result st).2.2.counter =
      countNodesList kids st.counter := by
  induction kids generalizing result st with
  | nil => rfl
  | cons child kids ih =>
    have rest := ih fun other mem => each other (by simp [mem])
    simp only [foldCombinator, countNodesList]
    split
    · rw [rest, skippedCounter_eq]
      rfl
    · rw [rest, each child (by simp)]

theorem eval_counter (D : EvalDomain Sel) (node : ConditionNode) (ctx : EvalContext)
    (buildTree : Bool) (st : EvalState Sel) :
    (eval D node ctx buildTree st).state.counter = node.countNodes st.counter := by
  induction node generalizing st with
  | leaf kind => rfl
  | anyDepsMatch cond label ih | allDepsMatch cond label ih
  | assetMatches keys cond ih =>
    simp [eval, foldDeps_counter, countNodes]
  | and kids ih | or kids ih =>
    simp [eval, countNodes, foldCombinator_counter D _ kids ctx buildTree ih]
  | not child ih | newlyTrue child ih | sinceLastHandled child ih =>
    simp [eval, countNodes, ih]
  | since trigger reset triggerIh resetIh =>
    simp [eval, countNodes, triggerIh, resetIh]

@[simp] theorem EvalState.atCounter_atCounter (st : EvalState Sel) (first second : Nat) :
    (st.atCounter first).atCounter second = st.atCounter second := rfl

theorem EvalState.next_eq_atCounter (st : EvalState Sel) :
    st.next = st.atCounter (st.counter + 1) := rfl

def StatelessPivot (D : EvalDomain Sel) : Prop :=
  ∀ (depKey : String) (condition : ConditionNode) (ctx : EvalContext)
    (inner : EvalContext → EvalState Sel → Evaluated Sel) (st : EvalState Sel),
    condition.hasStatefulNodes = false →
    (∀ depCtx depSt, ∃ counter, (inner depCtx depSt).state = depSt.atCounter counter) →
    ∃ counter, (D.pivotIntoDep depKey condition ctx inner st).2 = st.atCounter counter

theorem foldDepsLoop_stateless (D : EvalDomain Sel)
    (pivot : String → EvalState Sel → Sel × EvalState Sel) (quant : Quantifier) (evalAll : Bool)
    (base : Nat) (deps : List String)
    (stateless : ∀ dep ∈ deps, ∀ st, ∃ counter, (pivot dep st).2 = st.atCounter counter)
    (result : Sel) (st : EvalState Sel) :
    ∃ counter, (foldDepsLoop D pivot quant evalAll base deps result st).2 =
      st.atCounter counter := by
  induction deps generalizing result st with
  | nil => exact ⟨st.counter, rfl⟩
  | cons dep deps ih =>
    obtain ⟨counter, pivoted⟩ := stateless dep (by simp) (st.atCounter base)
    simp only [foldDepsLoop]
    split
    · exact ⟨counter, pivoted⟩
    · obtain ⟨final, looped⟩ := ih (fun other mem => stateless other (by simp [mem])) _
        (pivot dep (st.atCounter base)).2
      exact ⟨final, by rw [looped, pivoted]; rfl⟩

theorem foldDeps_stateless (D : EvalDomain Sel)
    (pivot : String → EvalState Sel → Sel × EvalState Sel) (deps : List String)
    (cond : ConditionNode) (quant : Quantifier)
    (stateless : ∀ dep ∈ deps, ∀ st, ∃ counter, (pivot dep st).2 = st.atCounter counter)
    (st : EvalState Sel) :
    (foldDeps D pivot deps cond quant st).2 =
      st.atCounter (cond.countNodes st.counter) := by
  obtain ⟨counter, looped⟩ := foldDepsLoop_stateless D pivot quant cond.hasStatefulNodes
    st.counter deps stateless (quant.init D) st
  simp only [foldDeps]
  rw [looped, EvalState.atCounter_atCounter]

theorem foldCombinator_stateless (D : EvalDomain Sel) (quant : Quantifier)
    (kids : List ConditionNode) (ctx : EvalContext)
    (buildTree : Bool) (each : ∀ child ∈ kids, ∀ st : EvalState Sel,
      (eval D child ctx buildTree st).state = st.atCounter (child.countNodes st.counter))
        (result : Sel)
    (st : EvalState Sel) :
    (foldCombinator D quant kids ctx buildTree result st).2.2 =
      st.atCounter (countNodesList kids st.counter) := by
  induction kids generalizing result st with
  | nil => rfl
  | cons child kids ih =>
    have rest := ih fun other mem => each other (by simp [mem])
    simp only [foldCombinator, countNodesList]
    split
    · rw [rest, skippedCounter_eq]
      rfl
    · rw [rest, each child (by simp)]
      rfl

theorem eval_stateless (D : EvalDomain Sel) (pivots : StatelessPivot D) (node : ConditionNode)
    (stateless : node.hasStatefulNodes = false) (ctx : EvalContext) (buildTree : Bool)
    (st : EvalState Sel) :
    (eval D node ctx buildTree st).state = st.atCounter (node.countNodes st.counter) := by
  induction node generalizing ctx buildTree st with
  | leaf kind => rfl
  | anyDepsMatch cond label ih | allDepsMatch cond label ih
  | assetMatches keys cond ih =>
    have inner : cond.hasStatefulNodes = false :=
      anyNode_child stateless (by simp [children])
    simp only [eval, finish_state]
    rw [foldDeps_stateless]
    · rfl
    · intro dep _ depSt
      exact pivots dep cond ctx _ depSt inner fun depCtx innerSt =>
        ⟨_, ih inner depCtx false innerSt⟩
  | and kids ih | or kids ih =>
    simp only [eval, finish_state]
    rw [foldCombinator_stateless]
    · rfl
    · intro child mem childSt
      exact ih child mem (anyNode_child stateless mem) ctx buildTree childSt
  | not child ih | sinceLastHandled child ih =>
    have inner : child.hasStatefulNodes = false :=
      anyNode_child stateless (by simp [children])
    simp only [eval, finish_state]
    rw [ih inner]
    rfl
  | newlyTrue child _ | since trigger reset _ _ =>
    have impossible := anyNode_self stateless
    simp [isStateful] at impossible

theorem withDepLatch_stateless (depKey : String) (inner : EvalState Sel → Evaluated Sel)
    (stateless : ∀ st, ∃ counter, (inner st).state = st.atCounter counter) (st : EvalState Sel) :
    ∃ counter, (withDepLatch depKey inner st).2 = st.atCounter counter := by
  obtain ⟨counter, moved⟩ := stateless
    { counter := st.counter, sub := ∅,
      scope := { st.scope with curPrev := some ((st.scope.prev.lookup depKey).getD ∅) } }
  exact ⟨counter, by simp [withDepLatch, moved, collectDepLatch, EvalState.atCounter]⟩

theorem boolDomain_statelessPivot : StatelessPivot boolDomain := by
  intro depKey cond ctx inner st _ innerStateless
  simp only [boolDomain, BoolDomain.pivotIntoDep]
  split
  · exact ⟨st.counter, rfl⟩
  · exact withDepLatch_stateless depKey _ (innerStateless _) st

theorem collectBridgedLatches_of_empty (scope : DepScope PartitionSelection)
    (found : HashMap String (HashMap Nat PartitionSelection))
    (nothing : ∀ dep, (getD found dep ∅).keys = ∅) :
    collectBridgedLatches scope found = scope := by
  have untouched : (found.keys.filter fun dep => (getD found dep ∅).keys ≠ ∅) = ∅ := by
    apply Finset.filter_eq_empty_iff.mpr
    intro dep _
    simpa using nothing dep
  have same : ∀ {β : Type} (map : HashMap String β), collect map.keys (fun dep => map.lookup dep) =
    map := by
    intro β map
    apply Finmap.ext_lookup
    intro dep
    by_cases present : dep ∈ map
    · simp [Finmap.mem_keys, present]
    · simp [Finmap.mem_keys, present, Finmap.lookup_eq_none.mpr present]
  simp only [collectBridgedLatches]
  rw [untouched]
  simp only [Finset.union_empty, Finset.notMem_empty, if_false, same]

theorem bridgeIntoDep_stateless (depKey : String) (cond : ConditionNode) (ctx : EvalContext)
    (pctx : PartitionEvalContext) (depRecord : AssetRecord) (st : EvalState PartitionSelection)
    (stateless : cond.hasStatefulNodes = false) :
    ∃ counter, (bridgeIntoDep depKey cond ctx pctx depRecord st).2 =
      st.atCounter counter := by
  simp only [bridgeIntoDep]
  rw [collectBridged,
    eval_stateless boolDomain boolDomain_statelessPivot cond stateless]
  refine ⟨cond.countNodes st.counter, ?_⟩
  rw [collectBridgedLatches_of_empty, collectBridgedLatches_of_empty]
  · rfl
  · intro dep
    have empty : mapValues (∅ : HashMap Nat Bool) PartitionSelection.fromBool = ∅ :=
      Finmap.ext_lookup (by simp)
    by_cases own : dep = depKey <;>
      simp [getD, lookup_insert_ite, own, empty, bridgeState]
  · intro dep
    simp [getD, bridgeState]

theorem partitionDomain_statelessPivot : StatelessPivot partitionDomain := by
  intro depKey cond ctx inner st stateless innerStateless
  simp only [partitionDomain, pivotIntoDep]
  split
  · exact ⟨st.counter, rfl⟩
  · split
    · exact bridgeIntoDep_stateless depKey cond ctx _ _ st stateless
    · simp only [partitionedIntoDep]
      obtain ⟨counter, latched⟩ := withDepLatch_stateless depKey _ (innerStateless _) st
      split <;> exact ⟨counter, latched⟩

end Rivers
