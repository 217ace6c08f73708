import Rivers.Lib.FiniteMap
import Rivers.Lib.Levels
import Rivers.Lib.StableSort

/-! Execution plans of `execution/plan.rs`. -/

namespace Rivers

open FiniteMap

inductive StepKind where
  | normal
  | mapped (fanOutSource : String) (maxConcurrency : Option Nat)
  | collect (mappedStep : String)
  | collectStream (mappedStep : String) (ordered : Bool)
  deriving DecidableEq

structure ExecutionStep where
  name : String
  kind : StepKind := .normal
  outputs : List String := []
  planDependencies : List String
  graphDependencies : List String
  deriving DecidableEq

def ExecutionStep.eventNames (step : ExecutionStep) : List String :=
  if step.outputs = [] then [step.name] else step.outputs

def ExecutionStep.names (step : ExecutionStep) : List String :=
  step.name :: step.outputs

structure ExecutionPlan where
  steps : List ExecutionStep
  action : Option String := none

def ExecutionPlan.allAssetNames (plan : ExecutionPlan) : List String :=
  plan.steps.flatMap ExecutionStep.eventNames

def ExecutionPlan.isAction (plan : ExecutionPlan) : Bool :=
  plan.action.isSome

def orderedAfter (seen : List String) : List (String × List String) → Bool
  | [] => true
  | (name, deps) :: nodes => deps.all (· ∈ seen) && orderedAfter (seen ++ [name]) nodes

/-- An acyclic graph as its nodes in a topological order, each with the names it depends on. -/
structure AssetGraph where
  nodes : List (String × List String)
  nodup : (nodes.map Prod.fst).Nodup
  ordered : orderedAfter [] nodes = true

def ExecutionStep.union (step : ExecutionStep) (held deps : List String) : List String :=
  deps.foldl (fun held dep =>
    if dep ≠ step.name ∧ dep ∉ step.outputs ∧ dep ∉ held then held ++ [dep] else held) held

def ExecutionStep.addOutput (step : ExecutionStep) (name : String)
    (planDependencies neighbors : List String) :
    ExecutionStep :=
  let joined := { step with outputs := step.outputs ++ [name] }
  { joined with
    planDependencies := joined.union step.planDependencies planDependencies
    graphDependencies := joined.union step.graphDependencies neighbors }

structure PlanBuilder where
  groupStepIdx : HashMap String Nat := ∅
  outputToStep : HashMap String String := ∅
  steps : List ExecutionStep := []

namespace PlanBuilder

variable (assetNames : Finset String) (groups : HashMap String String) (builder : PlanBuilder)

def planDependencies (neighbors : List String) : List String :=
  ((neighbors.filter (· ∈ assetNames)).map fun name =>
    (builder.outputToStep.lookup name).getD name).dedup

def add (node : String × List String) : PlanBuilder :=
  let (name, neighbors) := node
  if name ∉ assetNames then builder
  else
    let planDependencies := builder.planDependencies assetNames neighbors
    match groups.lookup name with
    | some groupKey =>
        match builder.groupStepIdx.lookup groupKey with
        | some existing =>
            { builder with
              outputToStep := builder.outputToStep.insert name
                ((builder.steps[existing]?).elim name (·.name))
              steps := builder.steps.modify existing (·.addOutput name planDependencies neighbors) }
        | none =>
            { groupStepIdx := builder.groupStepIdx.insert groupKey builder.steps.length
              outputToStep := builder.outputToStep.insert name name
              steps := builder.steps ++
                [{ name, outputs := [name], planDependencies, graphDependencies := neighbors }] }
    | none =>
        { builder with
          steps := builder.steps ++ [{ name, planDependencies, graphDependencies := neighbors }] }

end PlanBuilder

section CompositionOrder

variable (compositionOrder : HashMap String Nat)

def stepLevels (steps : List ExecutionStep) : HashMap String Nat :=
  steps.foldl (fun levels step =>
    let level := (step.planDependencies.map fun dep => (levels.lookup dep).getD 0 + 1).foldl max 0
    step.outputs.foldl (fun levels output => levels.insert output level)
      (levels.insert step.name level)) ∅

def graphOf (name : String) : Option (List Char) :=
  if name.toList.contains '/' then some (name.toList.takeWhile (· ≠ '/')) else none

def compositionLe (levels : HashMap String Nat) (left right : ExecutionStep) : Bool :=
  let leftLevel := (levels.lookup left.name).getD 0
  let rightLevel := (levels.lookup right.name).getD 0
  let order name := (compositionOrder.lookup name).getD (2 ^ 64 - 1)
  if leftLevel = rightLevel then
    !(graphOf left.name).isSome || graphOf left.name != graphOf right.name ||
      order left.name ≤ order right.name
  else leftLevel < rightLevel

def sortByComposition (steps : List ExecutionStep) : List ExecutionStep :=
  if compositionOrder = ∅ then steps
  else StableSort.sortBy (compositionLe compositionOrder (stepLevels steps)) steps

end CompositionOrder

def fromSubgraph (graph : AssetGraph) (assetNames : Finset String) (groups : HashMap String String)
    (compositionOrder : HashMap String Nat) : ExecutionPlan :=
  let builder := graph.nodes.foldl (PlanBuilder.add assetNames groups) {}
  { steps := sortByComposition compositionOrder builder.steps }

namespace ExecutionPlan

variable (plan : ExecutionPlan)

def byName : HashMap String Nat :=
  plan.steps.zipIdx.foldl (fun named (step, index) =>
    step.outputs.foldl (fun named output => named.insert output index)
      (named.insert step.name index)) ∅

def dependencyIndices (index : Nat) : List (Option Nat) :=
  (plan.steps[index]?).elim [] fun step => step.planDependencies.map plan.byName.lookup

def levelOf (index : Nat) : Nat :=
  (Levels.levelOf plan.dependencyIndices plan.steps.length index).getD 0

def pushLevel (levels : List (List Nat)) (index level : Nat) : List (List Nat) :=
  (levels ++ List.replicate (level + 1 - levels.length) []).modify level (· ++ [index])

def groupStepsByLevel : List (List Nat) :=
  (List.range plan.steps.length).foldl
    (fun levels index => pushLevel levels index (plan.levelOf index)) []

end ExecutionPlan

end Rivers
