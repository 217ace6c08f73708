import Rivers.Execution.PlanCore

/-! How an executor works through a plan (`executor/mod.rs`, `executor/dispatch`). -/

namespace Rivers

structure RunState where
  failedNames : Finset String := ∅
  failures : List (String × String) := []
  executed : List String := []

inductive StepAction where
  | handled
  | execute
  deriving DecidableEq

namespace RunState

variable (state : RunState)

def recordFailure (name error : String) : RunState :=
  { state with
    failedNames := insert name state.failedNames
    failures := state.failures ++ [(name, error)] }

def recordFailures (failed : List (String × String)) : RunState :=
  failed.foldl (fun state (name, error) => state.recordFailure name error) state

def depFailed (step : ExecutionStep) : Bool :=
  step.planDependencies.any (· ∈ state.failedNames)

end RunState

section Executor

variable (plan : ExecutionPlan)

def skipMessage : String :=
  if plan.isAction then "Skipped: ordering dependency failed"
  else "Skipped: upstream dependency failed"

def classifyStep (state : RunState) (step : ExecutionStep) : RunState × StepAction :=
  if state.depFailed step then
    (state.recordFailures (step.eventNames.map (·, skipMessage plan)), .handled)
  else (state, .execute)

def classifyNext (classified : RunState × List ExecutionStep) (step : ExecutionStep) :
    RunState × List ExecutionStep :=
  match classifyStep plan classified.1 step with
  | (state, .handled) => (state, classified.2)
  | (state, .execute) => (state, classified.2 ++ [step])

def classifyBatch (state : RunState) (indices : List Nat) : RunState × List ExecutionStep :=
  (indices.filterMap (plan.steps[·]?)).foldl (classifyNext plan) (state, [])

variable (outcome : String → Option String)

/-- The body is executed; `outcome` is the error with which an output is not produced or not
written. -/
def processStepResult (state : RunState) (step : ExecutionStep) : RunState :=
  let failed := step.eventNames.filterMap fun name => (outcome name).map (name, ·)
  { state.recordFailures failed with executed := state.executed ++ [step.name] }

def executeLevelBatch (state : RunState) (indices : List Nat) : RunState :=
  let (state, singles) := classifyBatch plan state indices
  singles.foldl (processStepResult outcome) state

/-- The batches of a run: those of each level, one for each executor, after those of the levels
before. -/
def Batches (levels batches : List (List Nat)) : Prop :=
  ∃ chunks : List (List (List Nat)),
    List.Forall₂ (fun level chunk => (List.flatten chunk).Perm level) levels chunks ∧
    batches = chunks.flatten

def executePlan (batches : List (List Nat)) : RunState :=
  batches.foldl (executeLevelBatch plan outcome) {}

end Executor

end Rivers
