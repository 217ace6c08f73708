import Rivers.Execution.Skip

/-! The order of the assets of a plan. -/

namespace Rivers

open FiniteMap ExecutionStep

section Order

variable (graph : AssetGraph) (assetNames : Finset String) (plan : ExecutionPlan)

def selectedNodes : List String :=
  (graph.nodes.map Prod.fst).filter (· ∈ assetNames)

def EdgesOrdered : Prop :=
  ∀ node ∈ graph.nodes, node.1 ∈ assetNames → ∀ dep ∈ node.2, dep ∈ assetNames →
    (∃ step ∈ plan.steps, node.1 ∈ step.eventNames ∧ dep ∈ step.eventNames) ∨
      ∃ lower level, lower < level ∧ plan.InLevel dep lower ∧ plan.InLevel node.1 level

variable {graph assetNames plan} {groups : HashMap String String}

namespace PlanFor

theorem nodup_allAssetNames (isFor : PlanFor graph assetNames groups plan) :
    plan.allAssetNames.Nodup := by
  refine List.nodup_flatMap.mpr ⟨fun step mem => (isFor.steps step mem).nodup, ?_⟩
  refine List.Nodup.pairwise_of_forall_ne (List.Nodup.of_map _ isFor.names)
    fun step isStep other isOther different => ?_
  intro name inStep inOther
  exact different (isFor.eq_of_mem_eventNames isStep isOther inStep inOther)

theorem perm_allAssetNames (isFor : PlanFor graph assetNames groups plan) :
    plan.allAssetNames.Perm (selectedNodes graph assetNames) := by
  refine (List.perm_ext_iff_of_nodup isFor.nodup_allAssetNames (graph.nodup.filter _)).mpr
    fun name => ?_
  simp only [ExecutionPlan.allAssetNames, List.mem_flatMap, List.mem_filter, decide_eq_true_eq]
  constructor
  · grind [StepFor.assets, PlanFor]
  · grind [exists_step]

theorem edgesOrdered (isFor : PlanFor graph assetNames groups plan)
    (acyclic : StepsAcyclic graph assetNames groups) :
    EdgesOrdered graph assetNames plan := by
  obtain ⟨rank, ranked⟩ := acyclic
  intro node isNode nodeSelected dep isDep sel
  obtain ⟨step, isStep, isName, inStep⟩ := isFor.exists_step (List.mem_map_of_mem isNode)
    nodeSelected
  obtain ⟨other, isOther, otherName, inOther⟩ := isFor.exists_step (mem_graph_of_dep isNode isDep)
    sel
  by_cases same : other.name = step.name
  · left
    rw [isFor.eq_of_name isOther isStep same] at inOther
    exact ⟨step, isStep, inStep, inOther⟩
  · right
    obtain ⟨index, found⟩ := List.mem_iff_getElem?.mp isStep
    obtain ⟨pos, foundOther⟩ := List.mem_iff_getElem?.mp isOther
    have depends : other.name ∈ step.planDependencies := (isFor.mem_planDependencies isStep).mpr
      ⟨node, isNode, nodeSelected, isName.symm, dep, isDep, sel, otherName.symm, same⟩
    exact ⟨plan.levelOf pos, plan.levelOf index, isFor.levelOf_lt ranked found foundOther depends,
      (isFor.distinctNames.inLevel_iff foundOther inOther).mpr rfl,
      (isFor.distinctNames.inLevel_iff found inStep).mpr rfl⟩

theorem stepsAcyclic (isFor : PlanFor graph assetNames groups plan)
    (ordered : EdgesOrdered graph assetNames plan) :
    StepsAcyclic graph assetNames groups := by
  refine stepsAcyclic_of_levelOf_lt isFor fun index pos step other found foundOther depends => ?_
  have isStep := List.mem_of_getElem? found
  have isOther := List.mem_of_getElem? foundOther
  obtain ⟨node, isNode, nodeSelected, isOwner, dep, isDep, sel, depOwner, different⟩ :=
    (isFor.mem_planDependencies isStep).mp depends
  have inStep := ((isFor.steps step isStep).assets node.1).mpr ⟨List.mem_map_of_mem isNode,
    nodeSelected, isOwner⟩
  have inOther := ((isFor.steps other isOther).assets dep).mpr ⟨mem_graph_of_dep isNode isDep,
    sel, depOwner⟩
  rcases ordered node isNode nodeSelected dep isDep sel with ⟨held, isHeld, inHeld,
    depInHeld⟩ | placed
  · have isHeldStep := isFor.eq_of_mem_eventNames isHeld isStep inHeld inStep
    have isHeldOther := isFor.eq_of_mem_eventNames isHeld isOther depInHeld inOther
    exact absurd (congrArg name (isHeldOther.symm.trans isHeldStep)) different
  · grind [ExecutionPlan.DistinctNames.inLevel_iff, distinctNames]

end PlanFor

end Order

/-- A plan covers and orders the selected nodes exactly when its steps have no cycle. -/
theorem covers_and_orders_iff (graph : AssetGraph) (assetNames : Finset String)
    (groups : HashMap String String) (compositionOrder : HashMap String Nat) :
    ((fromSubgraph graph assetNames groups compositionOrder).allAssetNames.Perm
      (selectedNodes graph assetNames) ∧
      EdgesOrdered graph assetNames (fromSubgraph graph assetNames groups compositionOrder)) ↔
      StepsAcyclic graph assetNames groups := by
  have isFor := planFor_fromSubgraph graph assetNames groups compositionOrder
  exact ⟨fun placed => isFor.stepsAcyclic placed.2,
    fun acyclic => ⟨isFor.perm_allAssetNames, isFor.edgesOrdered acyclic⟩⟩

def outputsAround : AssetGraph where
  nodes := [("m1", []), ("x", ["m1"]), ("m2", ["x"])]
  nodup := by decide
  ordered := by decide

/-- The asset `x` is executed in a level below the step that produces `m1`, which it depends on. -/
theorem consumer_before_producer :
    let groups : HashMap String String := (Finmap.singleton "m1" "m").insert "m2" "m"
    let plan := fromSubgraph outputsAround {"m1", "x", "m2"} groups ∅
    plan.steps.map eventNames = [["m1", "m2"], ["x"]] ∧
      plan.steps.map planDependencies = [["x"], ["m1"]] ∧
      plan.groupStepsByLevel = [[], [1], [0]] := by
  refine ⟨?_, ?_, ?_⟩ <;> decide +kernel

end Rivers
