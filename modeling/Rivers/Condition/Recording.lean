import Rivers.Condition.FullEval
import Rivers.Pass.PassCore

/-! The evaluation that records a result tree. -/

namespace Rivers

open FiniteMap ConditionNode EvalNodeResult EvalState

namespace ConditionNode

mutual

def preorder : ConditionNode → List ConditionNode
  | .leaf kind => [.leaf kind]
  | .and children => .and children :: preorderList children
  | .or children => .or children :: preorderList children
  | .not child => .not child :: preorder child
  | .newlyTrue child => .newlyTrue child :: preorder child
  | .sinceLastHandled child => .sinceLastHandled child :: preorder child
  | .since trigger reset => .since trigger reset :: (preorder trigger ++ preorder reset)
  | .anyDepsMatch condition label => .anyDepsMatch condition label :: preorder condition
  | .allDepsMatch condition label => .allDepsMatch condition label :: preorder condition
  | .assetMatches keys condition => .assetMatches keys condition :: preorder condition

def preorderList : List ConditionNode → List ConditionNode
  | [] => []
  | node :: nodes => preorder node ++ preorderList nodes

end

mutual

def indexed : ConditionNode → (idx : Nat) → List (Nat × ConditionNode)
  | .leaf kind, idx => [(idx, .leaf kind)]
  | .and children, idx => (idx, .and children) :: indexedList children (idx + 1)
  | .or children, idx => (idx, .or children) :: indexedList children (idx + 1)
  | .not child, idx => (idx, .not child) :: indexed child (idx + 1)
  | .newlyTrue child, idx => (idx, .newlyTrue child) :: indexed child (idx + 1)
  | .sinceLastHandled child, idx => (idx, .sinceLastHandled child) :: indexed child (idx + 1)
  | .since trigger reset, idx =>
      (idx, .since trigger reset) ::
        (indexed trigger (idx + 1) ++ indexed reset (trigger.countNodes (idx + 1)))
  | .anyDepsMatch condition label, idx => [(idx, .anyDepsMatch condition label)]
  | .allDepsMatch condition label, idx => [(idx, .allDepsMatch condition label)]
  | .assetMatches keys condition, idx => [(idx, .assetMatches keys condition)]

def indexedList : List ConditionNode → (idx : Nat) → List (Nat × ConditionNode)
  | [], _ => []
  | node :: nodes, idx => indexed node idx ++ indexedList nodes (node.countNodes idx)

end

end ConditionNode

mutual

def EvalNodeResult.listed : EvalNodeResult → List (Nat × ConditionNode)
  | .mk nodeIdx node _ children _ => (nodeIdx, node) :: listedAll children

def EvalNodeResult.listedAll : List EvalNodeResult → List (Nat × ConditionNode)
  | [] => []
  | result :: results => result.listed ++ listedAll results

end

variable {Sel : Type}

section BuildTree

variable {D : EvalDomain Sel}

theorem foldCombinator_buildTree {quant kids ctx}
    (each : ∀ child ∈ kids, ∀ st, (eval D child ctx true st).Agrees (eval D child ctx false st))
    (result : Sel) (st : EvalState Sel) :
    (foldCombinator D quant kids ctx true result st).1 =
        (foldCombinator D quant kids ctx false result st).1 ∧
      (foldCombinator D quant kids ctx true result st).2.2 =
        (foldCombinator D quant kids ctx false result st).2.2 := by
  induction kids generalizing result st with
  | nil => exact ⟨rfl, rfl⟩
  | cons child kids ih => grind [buildSkippedSubtree_counter, foldCombinator, Evaluated.Agrees]

theorem eval_buildTree (node : ConditionNode) (ctx : EvalContext) (st : EvalState Sel) :
    (eval D node ctx true st).Agrees (eval D node ctx false st) := by
  induction node generalizing st with
  | leaf kind => exact ⟨rfl, rfl⟩
  | anyDepsMatch cond label _ | allDepsMatch cond label _ | assetMatches keys cond _ =>
    exact ⟨rfl, rfl⟩
  | and kids ih | or kids ih => exact foldCombinator_buildTree ih _ st.next
  | not child ih | sinceLastHandled child ih => grind [eval, Evaluated.Agrees, finish]
  | newlyTrue child ih => grind [eval, Evaluated.Agrees, finish]
  | since trigger reset triggerIh resetIh => grind [eval, Evaluated.Agrees, finish]

theorem evaluateWithTree_eq (node : ConditionNode) (ctx : EvalContext) :
    (evaluateWithTree node ctx).1 = evaluate node ctx := by
  unfold evaluateWithTree evaluate
  split
  · simp only [run, (eval_buildTree node ctx _).1, (eval_buildTree node ctx _).2]
  · simp only [run, (eval_buildTree node ctx _).1, (eval_buildTree node ctx _).2]

end BuildTree

section Listed

variable {D : EvalDomain Sel}

@[simp] theorem listedAll_append (left right : List EvalNodeResult) :
    listedAll (left ++ right) =
      listedAll left ++ listedAll right := by
  induction left with
  | nil => rfl
  | cons result results ih => simp [listedAll, ih]

@[simp] theorem listedAll_singleton (result : EvalNodeResult) :
    listedAll [result] = result.listed :=
  List.append_nil _

theorem listedAll_buildSkippedList {kids}
    (each : ∀ child ∈ kids, ∀ idx, (buildSkippedSubtree child idx).1.listed = child.indexed idx)
    (idx : Nat) :
    listedAll (buildSkippedList kids idx).1 = indexedList kids idx := by
  induction kids generalizing idx with
  | nil => rfl
  | cons child kids ih =>
    grind [buildSkippedSubtree_counter, listedAll, buildSkippedList, indexedList]

theorem listed_buildSkippedSubtree (node : ConditionNode) (idx : Nat) :
    (buildSkippedSubtree node idx).1.listed = node.indexed idx := by
  induction node generalizing idx with
  | leaf kind => rfl
  | anyDepsMatch cond label _ | allDepsMatch cond label _ | assetMatches keys cond _ => rfl
  | and kids ih | or kids ih =>
    simp only [buildSkippedSubtree, listed, indexed, listedAll_buildSkippedList ih]
  | not child ih | newlyTrue child ih | sinceLastHandled child ih =>
    simp only [buildSkippedSubtree, listed, indexed, listedAll_singleton, ih]
  | since trigger reset triggerIh resetIh =>
    grind [buildSkippedSubtree_counter, listed, buildSkippedSubtree, indexed, listedAll]

theorem listedAll_foldCombinator {quant kids ctx}
    (each : ∀ child ∈ kids, ∀ st, listedAll (eval D child ctx true st).tree.toList =
      child.indexed st.counter)
    (result : Sel) (st : EvalState Sel) :
    listedAll (foldCombinator D quant kids ctx true result st).2.1 =
      indexedList kids st.counter := by
  induction kids generalizing result st with
  | nil => rfl
  | cons child kids ih =>
    have rest := ih fun other mem => each other (List.mem_cons_of_mem _ mem)
    simp only [foldCombinator, if_true, indexedList]
    split
    · rw [listedAll_append, listedAll_singleton, listed_buildSkippedSubtree, rest,
        atCounter_counter, buildSkippedSubtree_counter]
    · rw [listedAll_append, each child List.mem_cons_self, rest, eval_counter]

theorem listedAll_eval (node : ConditionNode) (ctx : EvalContext) (st : EvalState Sel) :
    listedAll (eval D node ctx true st).tree.toList = node.indexed st.counter := by
  induction node generalizing st with
  | leaf kind => rfl
  | anyDepsMatch cond label _ | allDepsMatch cond label _ | assetMatches keys cond _ => rfl
  | and kids ih | or kids ih =>
    simp only [eval, finish, if_true, Option.toList_some, listedAll_singleton, listed,
      listedAll_foldCombinator ih, indexed, next_counter]
  | not child ih | newlyTrue child ih | sinceLastHandled child ih =>
    simp only [eval, finish, if_true, Option.toList_some, listedAll_singleton, listed, ih,
      indexed, next_counter]
  | since trigger reset triggerIh resetIh =>
    simp only [eval, finish, if_true, Option.toList_some, listedAll_singleton, listed,
      listedAll_append, triggerIh, resetIh, eval_counter, indexed, next_counter]

theorem exists_tree (node : ConditionNode) (ctx : EvalContext) (st : EvalState Sel) :
    ∃ tree, (eval D node ctx true st).tree = some tree ∧ tree.listed = node.indexed st.counter := by
  have built : ∃ tree, (eval D node ctx true st).tree = some tree := by
    cases node <;> exact ⟨_, rfl⟩
  grind [listedAll_eval, listedAll_singleton]

end Listed

def latchIndices (entries : List (Nat × ConditionNode)) : List Nat :=
  (entries.filter (·.2.isStateful)).map (·.1)

section Latches

variable {D : EvalDomain Sel} {idx : Nat}

@[simp] theorem latchIndices_append (left right : List (Nat × ConditionNode)) :
    latchIndices (left ++ right) = latchIndices left ++ latchIndices right := by
  simp [latchIndices]

theorem latchIndices_cons (node : ConditionNode) (ents : List (Nat × ConditionNode)) :
    latchIndices ((idx, node) :: ents) =
      if node.isStateful then idx :: latchIndices ents else latchIndices ents := by
  unfold latchIndices
  rw [List.filter_cons]
  split <;> rfl

theorem latchIndices_indexedList_of_stateless {kids}
    (each : ∀ child ∈ kids, ∀ idx, latchIndices (child.indexed idx) = []) (idx : Nat) :
    latchIndices (indexedList kids idx) = [] := by
  induction kids generalizing idx with
  | nil => rfl
  | cons child kids ih => grind [latchIndices, indexedList]

theorem latchIndices_of_stateless (node : ConditionNode) (stateless : node.hasStatefulNodes = false)
    (idx : Nat) :
    latchIndices (node.indexed idx) = [] := by
  induction node generalizing idx with
  | leaf kind => rfl
  | anyDepsMatch cond label _ | allDepsMatch cond label _ | assetMatches keys cond _ => rfl
  | and kids ih | or kids ih =>
    exact latchIndices_indexedList_of_stateless
      (fun child mem => ih child mem (anyNode_child stateless mem)) _
  | not child ih | sinceLastHandled child ih =>
    exact ih (anyNode_child stateless (List.mem_singleton_self child)) _
  | newlyTrue child _ | since trigger reset _ _ =>
    have impossible := anyNode_self stateless
    cases impossible

def KeepsSub (D : EvalDomain Sel) : Prop :=
  ∀ (depKey : String) (condition : ConditionNode) (ctx : EvalContext)
    (inner : EvalContext → EvalState Sel → Evaluated Sel) (st : EvalState Sel),
    (D.pivotIntoDep depKey condition ctx inner st).2.sub = st.sub

theorem boolDomain_keepsSub : KeepsSub boolDomain := by
  intro depKey cond ctx inner st
  simp only [boolDomain, BoolDomain.pivotIntoDep]
  split <;> rfl

theorem partitionDomain_keepsSub : KeepsSub partitionDomain := by
  intro depKey cond ctx inner st
  simp only [partitionDomain, PartitionDomain.pivotIntoDep]
  split
  · rfl
  · split
    · rfl
    · simp only [PartitionDomain.partitionedIntoDep]
      split <;> rfl

theorem foldDepsLoop_sub {enter quant evalAll base deps}
    (kept : ∀ dep st, (enter dep st).2.sub = st.sub) (result : Sel)
    (st : EvalState Sel) : (foldDepsLoop D enter quant evalAll base deps result st).2.sub =
    st.sub := by
  induction deps generalizing result st with
  | nil => rfl
  | cons dep deps ih =>
    simp only [foldDepsLoop]
    split
    · exact kept dep _
    · exact (ih _ _).trans (kept dep _)

theorem mem_sub_foldCombinator {quant kids ctx buildTree}
    (each : ∀ child ∈ kids, ∀ st, idx ∈ (eval D child ctx buildTree st).state.sub ↔
      idx ∈ st.sub ∨ idx ∈ latchIndices (child.indexed st.counter)) (result : Sel)
        (st : EvalState Sel) :
    idx ∈ (foldCombinator D quant kids ctx buildTree result st).2.2.sub ↔
      idx ∈ st.sub ∨ idx ∈ latchIndices (indexedList kids st.counter) := by
  induction kids generalizing result st with
  | nil => simp [foldCombinator, indexedList, latchIndices]
  | cons child kids ih =>
    have rest := ih fun other mem => each other (List.mem_cons_of_mem _ mem)
    simp only [foldCombinator, indexedList, latchIndices_append, List.mem_append, skippedCounter_eq]
    split
    · rename_i skipped
      have stateless : child.hasStatefulNodes = false := by
        simpa using (Bool.and_eq_true_iff.mp skipped).2
      rw [rest, atCounter_sub, atCounter_counter, latchIndices_of_stateless child stateless]
      simp
    · rw [rest, each child List.mem_cons_self, eval_counter, or_assoc]

theorem mem_sub_eval (keeps : KeepsSub D) (node : ConditionNode) (ctx : EvalContext)
    (buildTree : Bool) (st : EvalState Sel) :
    idx ∈ (eval D node ctx buildTree st).state.sub ↔
      idx ∈ st.sub ∨ idx ∈ latchIndices (node.indexed st.counter) := by
  induction node generalizing st with
  | leaf kind => simp [eval, indexed, latchIndices, isStateful]
  | anyDepsMatch cond label _ | allDepsMatch cond label _ | assetMatches keys cond _ =>
    have kept := fun deps quant => @foldDepsLoop_sub _ D _ quant cond.hasStatefulNodes
      (st.counter + 1) deps
      (fun dep depSt => keeps dep cond ctx (fun depCtx => eval D cond depCtx false) depSt)
      (quant.init D) st.next
    simp only [eval, finish_state, foldDeps, atCounter_sub, next_counter, kept]
    simp [indexed, latchIndices, isStateful]
  | and kids ih | or kids ih => exact mem_sub_foldCombinator ih _ st.next
  | not child ih | sinceLastHandled child ih => exact ih st.next
  | newlyTrue child ih =>
    simp only [eval, finish_state, record_sub, Finmap.mem_insert, ih, indexed,
      latchIndices_cons, next_sub, next_counter, isStateful, if_true,
      List.mem_cons]
    tauto
  | since trigger reset triggerIh resetIh =>
    simp only [eval, finish_state, record_sub, Finmap.mem_insert, triggerIh, resetIh, eval_counter,
      indexed, latchIndices_cons, latchIndices_append, next_sub, next_counter,
      isStateful, if_true, List.mem_cons, List.mem_append]
    tauto

def EvalResult.latched (result : EvalResult) : Finset Nat :=
  match result.subSelections with
  | some selections => selections.keys
  | none => result.subResults.keys

theorem latched_evaluate (node : ConditionNode) (ctx : EvalContext) :
    (evaluate node ctx).latched = (latchIndices (node.indexed 0)).toFinset := by
  ext idx
  rw [List.mem_toFinset]
  unfold evaluate
  split
  · exact Finmap.mem_keys.trans
      ((mem_sub_eval partitionDomain_keepsSub node ctx false _).trans
        (or_iff_right Finmap.notMem_empty))
  · exact Finmap.mem_keys.trans
      ((mem_sub_eval boolDomain_keepsSub node ctx false _).trans (or_iff_right Finmap.notMem_empty))

end Latches

namespace ConditionNode

theorem countNodesList_eq_length {kids}
    (each : ∀ child ∈ kids, ∀ start, child.countNodes start = start + child.preorder.length)
    (start : Nat) :
    countNodesList kids start = start + (preorderList kids).length := by
  induction kids generalizing start with
  | nil => rfl
  | cons child kids ih => grind [countNodesList, preorderList]

theorem countNodes_eq_length (node : ConditionNode) (start : Nat) :
    node.countNodes start = start + node.preorder.length := by
  induction node generalizing start with
  | leaf kind => rfl
  | anyDepsMatch cond label ih | allDepsMatch cond label ih | assetMatches keys cond ih
  | not child ih | newlyTrue child ih | sinceLastHandled child ih =>
    rw [countNodes, ih, preorder, List.length_cons]
    omega
  | and kids ih | or kids ih =>
    rw [countNodes, countNodesList_eq_length ih, preorder, List.length_cons]
    omega
  | since trigger reset triggerIh resetIh =>
    rw [countNodes, resetIh, triggerIh, preorder, List.length_cons, List.length_append]
    omega

def Positions (entries : List (Nat × ConditionNode)) (start : Nat) (nodes : List ConditionNode) :
    Prop :=
  ∀ entry ∈ entries, ∃ offset, entry.1 = start + offset ∧ nodes[offset]? = some entry.2

theorem Positions.cons {node ents start nodes} (rest : Positions ents (start + 1) nodes) :
    Positions ((start, node) :: ents) start (node :: nodes) := by
  intro entry mem
  rcases List.mem_cons.mp mem with rfl | later
  · exact ⟨0, rfl, rfl⟩
  · obtain ⟨offset, isIdx, isNode⟩ := rest entry later
    exact ⟨offset + 1, by omega, isNode⟩

theorem Positions.append {left right start first second} (isFirst : Positions left start first)
    (isSecond : Positions right (start + first.length) second) :
    Positions (left ++ right) start (first ++ second) := by
  intro entry mem
  rcases List.mem_append.mp mem with here | later
  · obtain ⟨offset, isIdx, isNode⟩ := isFirst entry here
    obtain ⟨inside, _⟩ := List.getElem?_eq_some_iff.mp isNode
    exact ⟨offset, isIdx, (List.getElem?_append_left inside).trans isNode⟩
  · obtain ⟨offset, isIdx, isNode⟩ := isSecond entry later
    refine ⟨first.length + offset, by omega, ?_⟩
    rw [List.getElem?_append_right (Nat.le_add_right _ _), Nat.add_sub_cancel_left, isNode]

theorem positions_nil (start : Nat) (nodes : List ConditionNode) : Positions [] start nodes :=
  fun _ mem => absurd mem List.not_mem_nil

theorem positions_indexedList {kids}
    (each : ∀ child ∈ kids, ∀ start, Positions (child.indexed start) start child.preorder)
    (start : Nat) :
    Positions (indexedList kids start) start (preorderList kids) := by
  induction kids generalizing start with
  | nil => exact positions_nil _ _
  | cons child kids ih =>
    rw [indexedList, countNodes_eq_length]
    exact (each child List.mem_cons_self start).append
      (ih (fun other mem => each other (List.mem_cons_of_mem _ mem)) _)

theorem positions_indexed (node : ConditionNode) (start : Nat) :
    Positions (node.indexed start) start node.preorder := by
  induction node generalizing start with
  | leaf kind => exact (positions_nil _ _).cons
  | anyDepsMatch cond label _ | allDepsMatch cond label _ | assetMatches keys cond _ =>
    exact (positions_nil _ _).cons
  | and kids ih | or kids ih => exact (positions_indexedList ih _).cons
  | not child ih | newlyTrue child ih | sinceLastHandled child ih => exact (ih _).cons
  | since trigger reset triggerIh resetIh =>
    rw [indexed, countNodes_eq_length]
    exact ((triggerIh _).append (resetIh _)).cons

end ConditionNode

section Tick

variable {pass : ConditionPass} {now : Int} {selective : Bool}

/-- What the tick has requested once it has evaluated these rows. -/
def requestedBy (requested : HashMap String PartitionSelection) (rows : List EvalResultRow) :
    HashMap String PartitionSelection :=
  rows.foldl (fun requested row =>
    if row.result.fired then requested.insert row.info.assetKey (row.result.selection.getD .all)
    else requested) requested

/-- The tick evaluates one of its conditions in this context. -/
def ConditionPass.EvaluatesIn (pass : ConditionPass) (now : Int) (selective : Bool)
    (ctx : EvalContext) : Prop :=
  ∃ before row after record, pass.evaluate now selective = before ++ row :: after ∧
    pass.cache.records.lookup row.info.assetKey = some record ∧
    ctx = pass.evalContext now row.info record (requestedBy ∅ before)

def RequestedNormal (requested : HashMap String PartitionSelection) : Prop :=
  ∀ asset selection, requested.lookup asset = some selection → selection.Normal

theorem normal_of_firesOver {selection : PartitionSelection} {allKeys : Finset PartitionKey}
    (fires : selection.firesOver allKeys = true) : selection.Normal := by
  rintro rfl
  simp [PartitionSelection.firesOver, PartitionSelection.isEmpty] at fires

theorem normal_of_fired {node : ConditionNode} {ctx : EvalContext}
    (fired : (evaluate node ctx).fired = true) :
    ((evaluate node ctx).selection.getD .all).Normal := by
  unfold evaluate at fired ⊢
  split at fired
  · rename_i partitioned
    rw [if_pos partitioned]
    exact normal_of_firesOver fired
  · rename_i unpartitioned
    rw [if_neg unpartitioned]
    exact PartitionSelection.normal_all

theorem RequestedNormal.insert {requested : HashMap String PartitionSelection}
    (normal : RequestedNormal requested) {asset : String} {selection : PartitionSelection}
    (isNormal : selection.Normal) :
    RequestedNormal (requested.insert asset selection) := by
  intro other found isFound
  rw [lookup_insert_ite] at isFound
  split at isFound
  · cases isFound
    exact isNormal
  · exact normal other found isFound

theorem requestedBy_normal {infos : List AssetConditionInfo}
    {requested : HashMap String PartitionSelection} {before after : List EvalResultRow}
    (normal : RequestedNormal requested)
    (rows : pass.evaluateLoop now selective infos requested = before ++ after) :
    RequestedNormal (requestedBy requested before) := by
  induction infos generalizing requested before with
  | nil =>
    obtain ⟨rfl, -⟩ := List.append_eq_nil_iff.mp rows.symm
    exact normal
  | cons info infos ih =>
    unfold ConditionPass.evaluateLoop at rows
    split at rows
    · exact ih normal rows
    · split at rows
      · exact ih normal rows
      · cases before with
        | nil => exact normal
        | cons first before =>
          obtain ⟨rfl, rest⟩ := List.cons_eq_cons.mp rows
          rw [requestedBy, List.foldl_cons]
          refine ih ?_ rest
          dsimp only
          rw [evaluateWithTree_eq]
          split
          · rename_i fired
            exact normal.insert (normal_of_fired fired)
          · exact normal

theorem ConditionPass.EvaluatesIn.requestsNormal {ctx : EvalContext}
    (evaluates : pass.EvaluatesIn now selective ctx) : ctx.RequestsNormal := by
  obtain ⟨before, row, after, record, rows, -, rfl⟩ := evaluates
  exact requestedBy_normal
    (fun asset selection found => absurd (found.symm.trans (Finmap.lookup_empty asset))
    (Option.some_ne_none selection)) rows

end Tick

/-- Plain, recording and full evaluation agree, and latches have pre-order indices. -/
theorem recorded_evaluation (node : ConditionNode) (ctx : EvalContext) :
    (evaluateWithTree node ctx).1 = evaluate node ctx ∧
      (ctx.RequestsNormal → evaluate node ctx = evaluateFully node ctx) ∧
      (∀ (pass : ConditionPass) (now : Int) (selective : Bool), pass.EvaluatesIn now selective ctx →
        evaluate node ctx = evaluateFully node ctx) ∧
      (evaluate node ctx).latched = (latchIndices (node.indexed 0)).toFinset ∧
      (∃ tree, (evaluateWithTree node ctx).2 = some tree ∧ tree.listed = node.indexed 0) ∧
      ∀ entry ∈ node.indexed 0, node.preorder[entry.1]? = some entry.2 := by
  refine ⟨evaluateWithTree_eq node ctx, evaluate_fully node, fun pass now selective evaluates => ?_,
    latched_evaluate node ctx, ?_, ?_⟩
  · exact evaluate_fully node evaluates.requestsNormal
  · unfold evaluateWithTree
    split
    · exact exists_tree node ctx _
    · exact exists_tree node ctx _
  · intro entry member
    obtain ⟨offset, isIdx, isNode⟩ := node.positions_indexed 0 entry member
    rwa [isIdx, Nat.zero_add]

def idleContext : EvalContext where
  targetKey := "asset"
  rootKey := "asset"
  targetRecord := { assetKey := "asset" }
  cache := ⟨∅, ∅, ∅, ∅, ∅, {}⟩
  tags := ⟨∅, ∅, ∅⟩
  prevState := {}
  allAssetStates := ∅
  requestedThisTick := ∅
  now := 0
  isInitial := false
  partitions := some ⟨{.single ["key"]}, ∅, ∅, ∅, .empty, none, ∅, none⟩
  rootPartitionFloor := none
  cronTickBetween := fun _ _ _ _ => false

/-- The first child saturates the conjunction; the latch of the second is recorded all the same, and
the third keeps its index. -/
theorem recorded_evaluation_saturated :
    let node : ConditionNode := .and [.leaf .inProgress, .newlyTrue (.leaf .missing),
      .leaf .missing]
    idleContext.RequestsNormal ∧ evaluate node idleContext = evaluateFully node idleContext ∧
      (evaluate node idleContext).latched = {2} ∧
      ∃ tree, (evaluateWithTree node idleContext).2 = some tree ∧ tree.listed.map (·.1) =
        [0, 1, 2, 3, 4] := by
  intro node
  have requests : idleContext.RequestsNormal := by
    simp [Finmap.lookup_empty, idleContext, EvalContext.RequestsNormal]
  obtain ⟨-, fully, -, latched, ⟨tree, isTree, listed⟩, -⟩ := recorded_evaluation node idleContext
  refine ⟨requests, fully requests, latched, tree, isTree, ?_⟩
  rw [listed]
  rfl

end Rivers
