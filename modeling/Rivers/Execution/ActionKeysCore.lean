import Rivers.Backfill.GroupingCore
import Rivers.Execution.ActionPlan
import Rivers.Execution.ExecutorCore
import Rivers.Lib.Transitions

/-! How an action is run over its targets (`executor/mod.rs`, `executor/dispatch`). -/

namespace Rivers

inductive ActionOutcome where
  | unchanged
  | mayMaterialize
  | unmaterialize
  | observe
  deriving DecidableEq

inductive ActionReport where
  | completed
  | unchanged
  | materialized
  | foreign (typeName : String)
  deriving DecidableEq

inductive WorkOutcome where
  | cancelled
  | error (begun : Bool) (message : String)
  | fullResult (failedPartitions : List (PartitionKey × String)) (report : ActionReport)
  deriving DecidableEq

inductive Completion where
  | materialization
  | deletion
  | actionCompleted
  | observation
  deriving DecidableEq

inductive TargetEvent where
  | stepFailure (error : String)
  | partitionFailure (key : PartitionKey) (error : String)
  | completion (kind : Completion) (key : PartitionKey)
  | stepSuccess
  deriving DecidableEq

/-- What the run's state holds under a step's name, with the keys its body was called with and those
that it marked as failed. -/
structure TargetRecord where
  failed : Bool := false
  cancelled : Bool := false
  failedPartitions : List (PartitionKey × String) := []
  handed : List PartitionKey := []
  marked : List PartitionKey := []
  events : List TargetEvent := []
  deriving DecidableEq

/-- A run's targets and key, and what a resumed run found in storage. -/
structure ActionScope where
  graph : AssetGraph
  action : String
  targets : List String
  ordering : ActionOrdering
  partitionKey : PartitionKey
  toJson : PartitionKey → String
  declared : String → Option ActionOutcome
  completedSteps : Finset String := ∅
  failedKeys : String → List PartitionKey := fun _ => []
  failedBefore : Finset String := ∅
  interrupted : Finset String := ∅

namespace TargetRecord

variable (record : TargetRecord)

def failedMembers : List PartitionKey :=
  record.failedPartitions.map Prod.fst

def emit (events : List TargetEvent) : TargetRecord :=
  { record with events := record.events ++ events }

def recordFailure (error : String) : TargetRecord :=
  { record with failed := true, events := record.events ++ [.stepFailure error] }

def completed (key : PartitionKey) : Bool :=
  record.events.any fun
    | .completion _ held => held = key
    | _ => false

def succeeded : Bool :=
  .stepSuccess ∈ record.events

end TargetRecord

namespace ActionScope

variable (scope : ActionScope)

def plan : ExecutionPlan :=
  forAction scope.graph scope.action scope.targets scope.ordering

def members : List PartitionKey :=
  scope.partitionKey.members

section Classify

variable (records : String → TargetRecord) (step : ExecutionStep)

def eventNamesOf (dep : String) : List String :=
  (scope.plan.steps.find? fun step => step.name = dep).elim [dep] ExecutionStep.eventNames

/-- The members that an ordering dependency marked as failed, each with the reason to skip it. -/
def dependencyFailedMembers : List (PartitionKey × String) :=
  let entries := step.planDependencies.flatMap fun dep =>
    (scope.eventNamesOf dep).flatMap fun name =>
      (records name).failedMembers.map fun key =>
        (key, s!"Skipped: ordering dependency '{dep}' failed on this key")
  entries.foldl (fun out entry => if entry.1 ∈ out.map Prod.fst then out else out ++ [entry]) []

def classifyTarget : TargetRecord × StepAction :=
  let record := records step.name
  if step.name ∈ scope.completedSteps then (record, .handled)
  else if step.name ∈ scope.failedBefore then ({ record with failed := true }, .handled)
  else if step.name ∈ scope.interrupted then
    (record.recordFailure
      "Interrupted by a restart; an action with no retry budget left is not run again", .handled)
  else if step.planDependencies.any fun dep => (records dep).failed then
    (record.recordFailure (skipMessage scope.plan), .handled)
  else
    let blocked := scope.dependencyFailedMembers records step
    if blocked = [] then (record, .execute)
    else if scope.members.all (· ∈ blocked.map Prod.fst) then
      (record.recordFailure "Skipped: ordering dependency failed on every key", .handled)
    else ({ record with failedPartitions := record.failedPartitions ++ blocked }, .execute)

end Classify

section Result

variable (step : ExecutionStep) (record : TargetRecord)

def actionStepPartitionKey : PartitionKey :=
  if record.failedPartitions = [] then scope.partitionKey
  else bundleKeys scope.toJson (scope.members.filter (· ∉ record.failedMembers))

def survivingMembers : List TargetEvent × List PartitionKey :=
  let error (key : PartitionKey) := 
    (record.failedPartitions.reverse.find? fun entry => entry.1 = key).map Prod.snd
  (scope.members.filterMap fun key => (error key).map (.partitionFailure key),
    scope.members.filter fun key => (error key).isNone)

def emitCompleted (kind : Completion) : TargetRecord :=
  let (failures, surviving) := scope.survivingMembers record
  record.emit (failures ++ surviving.map (.completion kind) ++ [.stepSuccess])

def declaredName : Option ActionOutcome → String
  | some .unmaterialize => "Outcome.Unmaterialize"
  | _ => "Outcome.Unchanged"

def handleActionResult (failedPartitions : List (PartitionKey × String)) (report : ActionReport) :
    TargetRecord :=
  let record := { record with failedPartitions := record.failedPartitions ++ failedPartitions }
  let outcome := scope.declared step.name
  let action := scope.action
  let name := step.name
  if outcome = some .observe then scope.emitCompleted record .observation
  else
    match report with
    | .foreign typeName =>
        record.recordFailure
          s!"action '{action}' on '{name}' returned {typeName}; actions return rs.ActionResult or None"
    | .materialized =>
        if outcome ≠ some .mayMaterialize then
          let declared := declaredName outcome
          record.recordFailure
            s!"action '{action}' on '{name}' declared {declared} but reported ActionResult.materialized()"
        else scope.emitCompleted record .materialization
    | .unchanged => scope.emitCompleted record .actionCompleted
    | .completed =>
        scope.emitCompleted record 
          (if outcome = some .unmaterialize then .deletion else .actionCompleted)

def callBody : TargetRecord :=
  { record with handed := (scope.actionStepPartitionKey record).members }

def processOutcome : WorkOutcome → TargetRecord
  | .cancelled => { record with cancelled := true }
  | .error begun message => (if begun then scope.callBody record else record).recordFailure message
  | .fullResult failedPartitions report =>
      scope.handleActionResult step
        { scope.callBody record with marked := failedPartitions.map Prod.fst }
          failedPartitions report

def admits : WorkOutcome → Bool
  | .fullResult failedPartitions _ =>
      failedPartitions.all fun entry => entry.1 ∈ (scope.actionStepPartitionKey record).members
  | _ => true

end Result

end ActionScope

/-- An action run: records by name, levels begun, and steps classified and done. -/
structure ActionProgress where
  records : String → TargetRecord
  level : Nat := 0
  stopped : Bool := false
  ready : Finset Nat := ∅
  finished : Finset Nat := ∅

namespace ActionProgress

inductive Action where
  | beginLevel (cancelled : Option Bool)
  | refuse (index : Nat) (message : String)
  | classify (index : Nat)
  | process (index : Nat) (outcome : WorkOutcome)
  deriving DecidableEq

variable (scope : ActionScope) (progress : ActionProgress)

def start : ActionProgress where
  records name :=
    if name ∈ scope.completedSteps then
      { failedPartitions := (scope.failedKeys name).map (·, "failed before a restart"),
        marked := scope.failedKeys name }
    else {}

def set (name : String) (record : TargetRecord) : ActionProgress :=
  { progress with records := Function.update progress.records name record }

def isOpen (index : Nat) : Bool :=
  !progress.stopped && scope.plan.levelOf index + 1 = progress.level && index ∉ progress.ready &&
    index ∉ progress.finished

def levelDone : Bool :=
  (List.range scope.plan.steps.length).all fun index =>
    scope.plan.levelOf index < progress.level → index ∈ progress.finished

def step (progress : ActionProgress) : Action → Option ActionProgress
  | .beginLevel cancelled =>
      if !progress.stopped && progress.levelDone scope &&
          progress.level < scope.plan.groupStepsByLevel.length then
        if cancelled = some true then some { progress with stopped := true }
        else some { progress with level := progress.level + 1 }
      else none
  | .refuse index message =>
      match scope.plan.steps[index]? with
      | some step =>
          if progress.isOpen scope index then
            some { progress.set step.name ((progress.records step.name).recordFailure message) with
              finished := insert index progress.finished }
          else none
      | none => none
  | .classify index =>
      match scope.plan.steps[index]? with
      | some step =>
          if progress.isOpen scope index then
            match scope.classifyTarget progress.records step with
            | (record, .handled) => some { progress.set step.name record with finished := insert index progress.finished }
            | (record, .execute) =>
                some { progress.set step.name record with ready := insert index progress.ready }
          else none
      | none => none
  | .process index outcome =>
      match scope.plan.steps[index]? with
      | some step =>
          let record := progress.records step.name
          if index ∈ progress.ready ∧ scope.admits record outcome then
            some { progress.set step.name (scope.processOutcome step record outcome) with
              ready := progress.ready.erase index, finished := insert index progress.finished }
          else none
      | none => none

/-- Targets that failed, were skipped or marked the key as failed, themselves or through targets
that have to come before them. -/
inductive Withheld (key : PartitionKey) : String → Prop where
  | failed {target : String} (isFailed : (progress.records target).failed = true) :
      Withheld key target
  | cancelled {target : String} (isCancelled : (progress.records target).cancelled = true) :
      Withheld key target
  | marked {target : String} (isMarked : key ∈ (progress.records target).marked) :
      Withheld key target
  | through {target first : String} (isTarget : first ∈ scope.targets)
      (precedes : scope.ordering.Precedes scope.graph first target)
      (withheld : Withheld key first) :
      Withheld key target

/-- Are keys handed over in order, and completed exactly if they were handed over, not marked, and
the step succeeded? -/
structure KeysOrdered : Prop where
  handed : ∀ target key, key ∈ (progress.records target).handed → ∀ first ∈ scope.targets,
    scope.ordering.Precedes scope.graph first target → ¬progress.Withheld scope key first
  completed : ∀ target key, (progress.records target).completed key = true ↔
    key ∈ (progress.records target).handed ∧ key ∉ (progress.records target).marked ∧
      (progress.records target).succeeded = true

def ReadsCancel (before : ActionProgress) : Action → Prop
  | .beginLevel cancelled =>
      (∃ target ∈ scope.targets, (before.records target).cancelled = true) → cancelled = some true
  | _ => True

instance (before : ActionProgress) : (action : Action) → Decidable (ReadsCancel scope before action)
  | .beginLevel _ => inferInstanceAs (Decidable (_ → _))
  | .refuse _ _ => .isTrue trivial
  | .classify _ => .isTrue trivial
  | .process _ _ => .isTrue trivial

end ActionProgress

end Rivers
