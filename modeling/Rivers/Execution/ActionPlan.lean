import Rivers.Execution.PlanLevels
import Rivers.Execution.Subgraph
import Rivers.Lib.Reach

/-! The plan of an action over targets. -/

namespace Rivers

open AssetGraph ExecutionPlan

inductive ActionOrdering where
  | unordered
  | upstreamFirst
  | downstreamFirst
  deriving DecidableEq

namespace AssetGraph

variable (graph : AssetGraph)

def names : List String :=
  graph.nodes.map Prod.fst

def outgoing (name : String) : List String :=
  (graph.nodes.find? fun node => node.1 = name).elim [] Prod.snd

def incoming (name : String) : List String :=
  (graph.nodes.filter fun node => name ∈ node.2).map Prod.fst

def traverse (neighbors : String → List String) (name : String) : Finset String :=
  if name ∈ graph.names then Reach.traverse neighbors graph.nodes.length name else ∅

def ancestors (name : String) : Finset String :=
  graph.traverse graph.outgoing name

def descendants (name : String) : Finset String :=
  graph.traverse graph.incoming name

def DependsOn (name dep : String) : Prop :=
  ∃ node ∈ graph.nodes, node.1 = name ∧ dep ∈ node.2

end AssetGraph

def uniqueTargets (targets : List String) : List String :=
  targets.foldl (fun seen target => if target ∈ seen then seen else seen ++ [target]) []

def ActionOrdering.waitsFor (graph : AssetGraph) (target : String) : ActionOrdering → Finset String
  | .unordered => ∅
  | .upstreamFirst => graph.ancestors target
  | .downstreamFirst => graph.descendants target

def forAction (graph : AssetGraph) (action : String) (targets : List String)
    (ordering : ActionOrdering) :
    ExecutionPlan :=
  let targets := uniqueTargets targets
  { steps := targets.map fun target =>
      { name := target
        planDependencies := targets.filter (· ∈ ordering.waitsFor graph target)
        graphDependencies := [] }
    action := some action }

namespace AssetGraph

variable {graph : AssetGraph} {name dep other : String}

theorem mem_outgoing : dep ∈ graph.outgoing name ↔ graph.DependsOn name dep := by
  unfold outgoing DependsOn
  constructor
  · intro mem
    cases found : graph.nodes.find? fun node => node.1 = name with
    | none => simp [found] at mem
    | some node => grind
  · grind [Option.isSome_iff_exists, List.find?_isSome, List.inj_on_of_nodup_map, nodup]

theorem mem_incoming : other ∈ graph.incoming name ↔ graph.DependsOn other name := by
  simp only [incoming, DependsOn, List.mem_map, List.mem_filter, decide_eq_true_eq]
  constructor
  · simp_all
  · simp_all

theorem DependsOn.idxOf_lt (depends : graph.DependsOn name dep) :
    graph.names.idxOf dep < graph.names.idxOf name := by
  obtain ⟨node, isNode, rfl, isDep⟩ := depends
  obtain ⟨pre, after, split⟩ := List.append_of_mem isNode
  have isBefore := graph.dep_before split dep isDep
  have isNames : graph.names = pre.map Prod.fst ++ node.1 :: after.map Prod.fst := by
    simp [names, split]
  have absent : node.1 ∉ pre.map Prod.fst := by grind [nodup]
  grind

theorem DependsOn.mem_names (depends : graph.DependsOn name dep) : name ∈ graph.names ∧
    dep ∈ graph.names := by
  have pre := depends.idxOf_lt
  grind [DependsOn, names]

theorem irrefl_transGen : ¬Relation.TransGen graph.DependsOn name name := by
  have decreasing {name dep : String} (path : Relation.TransGen graph.DependsOn name dep) :
      graph.names.idxOf dep < graph.names.idxOf name := by
    induction path with
    | single depends => exact depends.idxOf_lt
    | tail _ depends ih => exact depends.idxOf_lt.trans ih
  exact fun cycle => lt_irrefl _ (decreasing cycle)

theorem mem_traverse {neighbors} (closed : ∀ name, ∀ other ∈ neighbors name, other ∈ graph.names)
    (known : ∀ name, ∀ other ∈ neighbors name, name ∈ graph.names) :
    other ∈ graph.traverse neighbors name ↔
    Relation.TransGen (fun name other => other ∈ neighbors name) name other := by
  have size : graph.names.toFinset.card ≤ graph.nodes.length :=
    (List.toFinset_card_le _).trans (List.length_map _).le
  unfold traverse
  split
  · exact Reach.mem_traverse (fun name other isNext => List.mem_toFinset.mpr (closed name other isNext)) size
  · rename_i unknown
    refine ⟨fun member => by simp at member, fun path => ?_⟩
    obtain ⟨next, isNext, -⟩ := Relation.TransGen.head'_iff.mp path
    exact absurd (known name next isNext) unknown

theorem mem_ancestors : other ∈ graph.ancestors name ↔
    Relation.TransGen graph.DependsOn name other := by
  have same : (fun name other => other ∈ graph.outgoing name) = graph.DependsOn := by
    funext name other
    exact propext mem_outgoing
  rw [ancestors, mem_traverse (fun _ _ isNext => (mem_outgoing.mp isNext).mem_names.2)
    fun _ _ isNext => (mem_outgoing.mp isNext).mem_names.1, same]

theorem mem_descendants : other ∈ graph.descendants name ↔
    Relation.TransGen graph.DependsOn other name := by
  have same : (fun name other => other ∈ graph.incoming name) = Function.swap graph.DependsOn := by
    funext name other
    exact propext mem_incoming
  rw [descendants, mem_traverse (fun _ _ isNext => (mem_incoming.mp isNext).mem_names.1)
    fun _ _ isNext => (mem_incoming.mp isNext).mem_names.2, same, Relation.transGen_swap]

end AssetGraph

section Targets

variable {targets : List String} {target : String}

theorem foldl_uniqueTargets (targets seen : List String) (nodup : seen.Nodup) :
    (targets.foldl (fun seen target => if target ∈ seen then seen else seen ++ [target])
      seen).Nodup ∧
      ∀ target, target ∈ targets.foldl (fun seen target => if target ∈ seen then seen else seen ++
        [target]) seen ↔
        target ∈ seen ∨ target ∈ targets := by
  induction targets generalizing seen with
  | nil => simp [nodup]
  | cons first targets ih =>
    rw [List.foldl_cons]
    split
    · grind
    · rename_i fresh
      have extended : (seen ++ [first]).Nodup := by grind
      grind

theorem nodup_uniqueTargets (targets : List String) : (uniqueTargets targets).Nodup :=
  (foldl_uniqueTargets targets [] List.nodup_nil).1

@[simp] theorem mem_uniqueTargets : target ∈ uniqueTargets targets ↔ target ∈ targets :=
  ((foldl_uniqueTargets targets [] List.nodup_nil).2 target).trans (by simp)

end Targets

section Plan

variable {graph : AssetGraph} {action : String} {targets : List String} {ordering : ActionOrdering}
  {step other : ExecutionStep}

theorem mem_steps_forAction : step ∈ (forAction graph action targets ordering).steps ↔
    ∃ target ∈ targets, step =
      { name := target
        planDependencies := (uniqueTargets targets).filter (· ∈ ordering.waitsFor graph target)
        graphDependencies := [] } := by
  simp only [forAction, List.mem_map, mem_uniqueTargets, eq_comm]

theorem distinctNames_forAction : (forAction graph action targets ordering).DistinctNames := by
  refine List.pairwise_map.mpr ((nodup_uniqueTargets targets).imp fun different => ?_)
  simpa [ExecutionStep.names] using Ne.symm different

theorem dependsOn_forAction (isStep : step ∈ (forAction graph action targets ordering).steps) :
    (forAction graph action targets ordering).DependsOn step other ↔
      other ∈ (forAction graph action targets ordering).steps ∧
      other.name ∈ ordering.waitsFor graph step.name := by
  obtain ⟨target, isTarget, rfl⟩ := mem_steps_forAction.mp isStep
  refine and_congr_right fun isOther => ?_
  obtain ⟨related, isRelated, rfl⟩ := mem_steps_forAction.mp isOther
  simp [ExecutionStep.names, isRelated]

def ActionOrdering.Precedes (graph : AssetGraph) (first second : String) : ActionOrdering → Prop
  | .unordered => False
  | .upstreamFirst => Relation.TransGen graph.DependsOn second first
  | .downstreamFirst => Relation.TransGen graph.DependsOn first second

theorem mem_waitsFor {first second} :
    first ∈ ordering.waitsFor graph second ↔ ordering.Precedes graph first second := by
  cases ordering with
  | unordered => simp [ActionOrdering.waitsFor, ActionOrdering.Precedes]
  | upstreamFirst => exact mem_ancestors
  | downstreamFirst => exact mem_descendants

theorem ActionOrdering.Precedes.trans {first second third}
    (pre : ordering.Precedes graph first second)
    (after : ordering.Precedes graph second third) : ordering.Precedes graph first third := by
  cases ordering with
  | unordered => exact pre
  | upstreamFirst => exact Relation.TransGen.trans after pre
  | downstreamFirst => exact Relation.TransGen.trans pre after

theorem ActionOrdering.Precedes.irrefl {name} : ¬ordering.Precedes graph name name := by
  cases ordering with
  | unordered => exact id
  | upstreamFirst => exact irrefl_transGen
  | downstreamFirst => exact irrefl_transGen

theorem acyclic_forAction : (forAction graph action targets ordering).Acyclic := by
  intro step isStep cycle
  have precedes {step other : ExecutionStep} (isStep : step ∈ (forAction graph action targets ordering).steps)
      (path : Relation.TransGen (forAction graph action targets ordering).DependsOn step other) :
      other ∈ (forAction graph action targets ordering).steps ∧ ordering.Precedes graph other.name step.name := by
    induction path with
    | single depends =>
      obtain ⟨isOther, waits⟩ := (dependsOn_forAction isStep).mp depends
      exact ⟨isOther, mem_waitsFor.mp waits⟩
    | tail _ depends ih =>
      obtain ⟨isOther, waits⟩ := (dependsOn_forAction ih.1).mp depends
      exact ⟨isOther, (mem_waitsFor.mp waits).trans ih.2⟩
  exact ActionOrdering.Precedes.irrefl (precedes isStep cycle).2

def ExecutionPlan.Below (plan : ExecutionPlan) (first second : String) : Prop :=
  ∃ lower level, lower < level ∧ (∀ held, plan.InLevel first held ↔ held = lower) ∧
    ∀ held, plan.InLevel second held ↔ held = level

theorem exists_step_forAction (graph : AssetGraph) (action : String) (ordering : ActionOrdering)
    {target} (isTarget : target ∈ targets) :
    ∃ (index : Nat) (step : ExecutionStep),
      (forAction graph action targets ordering).steps[index]? = some step ∧ step.name = target ∧
      step.eventNames = [target] := by
  have mem := (@mem_steps_forAction graph action targets ordering _).mpr ⟨target, isTarget, rfl⟩
  obtain ⟨index, found⟩ := List.mem_iff_getElem?.mp mem
  exact ⟨index, _, found, rfl, rfl⟩

theorem below_forAction {first second} (isFirst : first ∈ targets) (isSecond : second ∈ targets)
    (precedes : ordering.Precedes graph first second) :
    (forAction graph action targets ordering).Below first second := by
  have dist := @distinctNames_forAction graph action targets ordering
  obtain ⟨pos, other, foundOther, rfl, isOther⟩ :=
    exists_step_forAction graph action ordering isFirst
  obtain ⟨index, step, found, rfl, isStep⟩ := exists_step_forAction graph action ordering isSecond
  have depends := (dependsOn_forAction (List.mem_of_getElem? found)).mpr
    ⟨List.mem_of_getElem? foundOther, mem_waitsFor.mpr precedes⟩
  refine ⟨_, _, dist.levelOf_lt acyclic_forAction found foundOther depends, fun held => ?_,
    fun held => ?_⟩
  · rw [dist.inLevel_iff foundOther (by simp [isOther])]
    exact eq_comm
  · rw [dist.inLevel_iff found (by simp [isStep])]
    exact eq_comm

end Plan

/-- Grouping by level ends for every plan and places every step once. -/
theorem levels_of_plans :
    (∀ plan : ExecutionPlan, (∀ roots ≤ plan.steps.length, (plan.searched roots).stack = []) ∧
      plan.groupStepsByLevel.flatten.Perm (List.range plan.steps.length)) ∧
    (∀ plan : ExecutionPlan, plan.DistinctNames → plan.Acyclic →
      ∀ (index : Nat) step, plan.steps[index]? = some step →
      ∃ level : Nat, index ∈ (plan.groupStepsByLevel[level]?).getD [] ∧
        IsGreatest {length | plan.DependencyChain step length} level ∧
        ∀ reordered : ExecutionPlan, plan.steps.Perm reordered.steps → ∀ position : Nat,
          reordered.steps[position]? = some step →
          position ∈ (reordered.groupStepsByLevel[level]?).getD []) ∧
    ∀ graph action targets, ∀ upstream ∈ targets, ∀ downstream ∈ targets,
      Relation.TransGen graph.DependsOn downstream upstream →
        (forAction graph action targets .upstreamFirst).Below upstream downstream ∧
          (forAction graph action targets .downstreamFirst).Below downstream upstream := by
  refine ⟨fun plan => ⟨fun roots bound => stack_searched bound, perm_groupStepsByLevel⟩,
    fun plan distinct acyclic index step isStep => ?_,
    fun graph action targets upstream isUpstream downstream isDownstream path => ?_⟩
  · refine ⟨plan.levelOf index,
      (mem_groupStepsByLevel plan).mpr ⟨(List.getElem?_eq_some_iff.mp isStep).1, rfl⟩,
      distinct.isGreatest_levelOf acyclic isStep, fun reordered perm position isSame => ?_⟩
    grind [mem_groupStepsByLevel, levelOf_eq_of_perm]
  · exact ⟨below_forAction isUpstream isDownstream path,
      below_forAction isDownstream isUpstream path⟩

def threeInLine : AssetGraph where
  nodes := [("a", []), ("b", ["a"]), ("c", ["b"])]
  nodup := by decide
  ordered := by decide

/-- The targets `c` and `a` are ordered through `b`, which is no target. -/
theorem levels_of_plans_in_line :
    (forAction threeInLine "delete" ["c", "a", "c"] .upstreamFirst).Below "a" "c" ∧
      (forAction threeInLine "delete" ["c", "a", "c"] .downstreamFirst).Below "c" "a" :=
  levels_of_plans.2.2 threeInLine "delete" ["c", "a", "c"] "a" (by decide) "c" (by decide)
    (.tail (.single ⟨("c", ["b"]), by decide, rfl, by decide⟩) ⟨("b", ["a"]), by decide,
      rfl, by decide⟩)

/-- A step that depends on a name unknown to the plan lies in the second level, although it depends
on no step. -/
theorem unknown_dependency_raises_level :
    let step : ExecutionStep := { name := "a", planDependencies := ["absent"], graphDependencies := [] }
    let plan : ExecutionPlan := { steps := [step] }
    plan.groupStepsByLevel = [[], [0]] ∧ plan.DistinctNames ∧
    ∀ other, ¬plan.DependsOn step other := by
  refine ⟨by decide +kernel, List.pairwise_singleton _ _, ?_⟩
  rintro other ⟨isStep, dep, isDep, isName⟩
  rw [List.mem_singleton] at isStep isDep
  subst isStep isDep
  revert isName
  decide

end Rivers
