import Rivers.Execution.Schedule

/-! Which steps a run skips. -/

namespace Rivers

open FiniteMap PlanFor RunState

namespace RunState

variable {state : RunState} {failed : List (String × String)} {name : String}

theorem mem_recordFailures :
    name ∈ (state.recordFailures failed).failedNames ↔ name ∈ state.failedNames ∨
    name ∈ failed.map Prod.fst := by
  unfold recordFailures
  induction failed generalizing state with
  | nil => simp
  | cons entry failed ih =>
    rw [List.foldl_cons, ih]
    simp only [recordFailure, Finset.mem_insert, List.map_cons, List.mem_cons]
    rw [or_assoc, or_left_comm]

theorem executed_recordFailures : (state.recordFailures failed).executed = state.executed := by
  unfold recordFailures
  induction failed generalizing state with
  | nil => rfl
  | cons entry failed ih => exact ih

end RunState

section Batch

variable {plan : ExecutionPlan} {outcome : String → Option String} {state : RunState}
  {steps : List ExecutionStep} {step : ExecutionStep} {name : String}

theorem mem_processStepResult :
    name ∈ (processStepResult outcome state step).failedNames ↔
      name ∈ state.failedNames ∨ name ∈ step.eventNames ∧ (outcome name).isSome := by
  have names : name ∈ (step.eventNames.filterMap fun name => (outcome name).map (name, ·)).map
      Prod.fst ↔
      name ∈ step.eventNames ∧ (outcome name).isSome := by
    simp only [List.mem_map, List.mem_filterMap, Option.map_eq_some_iff, Option.isSome_iff_exists]
    simp
  rw [processStepResult, ← names]
  exact mem_recordFailures

theorem mem_foldl_processStepResult :
    name ∈ (steps.foldl (processStepResult outcome) state).failedNames ↔
      name ∈ state.failedNames ∨ ∃ step ∈ steps, name ∈ step.eventNames ∧
      (outcome name).isSome := by
  induction steps generalizing state with
  | nil => simp
  | cons step steps ih =>
    rw [List.foldl_cons, ih, mem_processStepResult, List.exists_mem_cons_iff, or_assoc]

theorem executed_foldl_processStepResult :
    (steps.foldl (processStepResult outcome) state).executed = state.executed ++ steps.map
      ExecutionStep.name := by
  induction steps generalizing state with
  | nil => simp
  | cons step steps ih =>
    rw [List.foldl_cons, ih, processStepResult]
    simp

theorem classify_spec (plan : ExecutionPlan) (state : RunState)
    (foreign : ∀ step ∈ steps, ∀ dep ∈ step.planDependencies, ∀ other ∈ steps,
      dep ∉ other.eventNames) :
    let classified := steps.foldl (classifyNext plan) (state, [])
    classified.2 = steps.filter (fun step => !state.depFailed step) ∧ classified.1.executed =
      state.executed ∧
      ∀ name, name ∈ classified.1.failedNames ↔
        name ∈ state.failedNames ∨ ∃ step ∈ steps, state.depFailed step = true ∧
        name ∈ step.eventNames := by
  induction steps using List.reverseRecOn with
  | nil => simp
  | append_singleton steps last ih =>
    obtain ⟨singles, executed, failed⟩ := ih fun step isStep dep isDep other isOther =>
      foreign step (List.mem_append_left _ isStep) dep isDep other (List.mem_append_left _ isOther)
    dsimp only at singles executed failed ⊢
    rw [List.foldl_append, List.foldl_cons, List.foldl_nil]
    generalize steps.foldl (classifyNext plan) (state, []) = classified at singles executed failed ⊢
    have same : classified.1.depFailed last = state.depFailed last := by
      rw [Bool.eq_iff_iff]
      simp only [depFailed, List.any_eq_true, decide_eq_true_eq]
      refine exists_congr fun dep => and_congr_right fun isDep => ?_
      rw [failed, or_iff_left]
      rintro ⟨step, isStep, -, inStep⟩
      exact foreign last (List.mem_append_right _ (List.mem_singleton_self _)) dep isDep step
        (List.mem_append_left _ isStep) inStep
    rw [classifyNext, classifyStep, same, List.filter_append]
    cases skipped : state.depFailed last with
    | true =>
      refine ⟨by simp [singles, skipped], by simpa [executed_recordFailures] using executed,
        fun name => ?_⟩
      simp [mem_recordFailures, failed, skipped, or_and_right, exists_or, or_assoc]
    | false =>
      refine ⟨by simp [singles, skipped], executed, fun name => ?_⟩
      simp [failed, skipped, or_and_right, exists_or]

theorem executeLevelBatch_eq (indices : List Nat) :
    executeLevelBatch plan outcome state indices =
      (classifyBatch plan state indices).2.foldl (processStepResult outcome)
        (classifyBatch plan state indices).1 := rfl

theorem executeLevelBatch_spec (outcome : String → Option String) (state : RunState) {indices}
    (isSteps : indices.filterMap (plan.steps[·]?) = steps)
    (foreign : ∀ step ∈ steps, ∀ dep ∈ step.planDependencies, ∀ other ∈ steps,
      dep ∉ other.eventNames) :
    (executeLevelBatch plan outcome state indices).executed =
        state.executed ++ (steps.filter fun step => !state.depFailed step).map ExecutionStep.name ∧
      ∀ name, name ∈ (executeLevelBatch plan outcome state indices).failedNames ↔
        name ∈ state.failedNames ∨
        ∃ step ∈ steps, name ∈ step.eventNames ∧
          (state.depFailed step = true ∨ (outcome name).isSome) := by
  obtain ⟨singles, executed, failed⟩ := classify_spec plan state foreign
  rw [executeLevelBatch_eq, classifyBatch, isSteps, singles]
  refine ⟨by rw [executed_foldl_processStepResult, executed], fun name => ?_⟩
  rw [mem_foldl_processStepResult, failed]
  constructor
  · rintro ((old | ⟨step, isStep, skipped, inStep⟩) | ⟨step, isStep, inStep, isFailed⟩)
    · exact .inl old
    · exact .inr ⟨step, isStep, inStep, .inl skipped⟩
    · exact .inr ⟨step, List.mem_of_mem_filter isStep, inStep, .inr isFailed⟩
  · rintro (old | ⟨step, isStep, inStep, cause⟩)
    · exact .inl (.inl old)
    · cases skipped : state.depFailed step with
      | true => exact .inl (.inr ⟨step, isStep, skipped, inStep⟩)
      | false =>
        exact .inr ⟨step, List.mem_filter.mpr ⟨isStep, by simp [skipped]⟩, inStep,
          cause.resolve_left (by simp [skipped])⟩

theorem executeLevelBatch_quiet {indices} (isSteps : indices.filterMap (plan.steps[·]?) = steps)
    (quiet : ∀ step ∈ steps, state.depFailed step = false) :
    executeLevelBatch plan outcome state indices =
      steps.foldl (processStepResult outcome) state := by
  have classified : classifyBatch plan state indices = (state, steps) := by
    rw [classifyBatch, isSteps]
    clear isSteps
    induction steps using List.reverseRecOn with
    | nil => rfl
    | append_singleton steps last ih =>
      rw [List.foldl_append, ih fun step mem => quiet step (List.mem_append_left _ mem),
        List.foldl_cons, classifyNext, classifyStep,
        quiet last (List.mem_append_right _ (List.mem_singleton_self _))]
      rfl
  rw [executeLevelBatch_eq, classified]

end Batch

structure Ran (plan : ExecutionPlan) (outcome : String → Option String) (done : List Nat)
    (state : RunState) :
    Prop where
  executed : ∀ index ∈ done, ∀ step, plan.steps[index]? = some step →
    (step.name ∈ state.executed ↔ ∀ dep ∈ step.planDependencies, dep ∉ state.failedNames)
  failed : ∀ name, name ∈ state.failedNames ↔ ∃ index ∈ done, ∃ step, plan.steps[index]? =
    some step ∧
    name ∈ step.eventNames ∧ (step.name ∉ state.executed ∨ (outcome name).isSome)
  known : ∀ name ∈ state.executed, ∃ index ∈ done, ∃ step, plan.steps[index]? = some step ∧
    step.name = name
  closed : ∀ index ∈ done, ∀ position, some position ∈ plan.dependencyIndices index →
    position ∈ done

section Run

variable {graph : AssetGraph} {assetNames : Finset String} {groups : HashMap String String}
  {plan : ExecutionPlan} {outcome : String → Option String} {state : RunState}
  {done indices : List Nat} {step other : ExecutionStep} {index position : Nat} {name : String}

theorem PlanFor.index_of_asset (isFor : PlanFor graph assetNames groups plan)
    (isStep : plan.steps[index]? = some step) (isOther : plan.steps[position]? = some other)
    (inStep : name ∈ step.eventNames) (inOther : name ∈ other.eventNames) : index = position :=
  isFor.index_unique isStep isOther (congrArg _
    (isFor.eq_of_mem_eventNames (List.mem_of_getElem? isStep) (List.mem_of_getElem? isOther)
      inStep inOther))

theorem PlanFor.exists_dependencyIndex (isFor : PlanFor graph assetNames groups plan)
    (isStep : plan.steps[index]? = some step) (isDep : name ∈ step.planDependencies) :
    ∃ position other, plan.steps[position]? = some other ∧ other.name = name ∧
      name ∈ other.eventNames ∧
      some position ∈ plan.dependencyIndices index := by
  obtain ⟨other, isOther, rfl⟩ := isFor.exists_dependency (List.mem_of_getElem? isStep) isDep
  obtain ⟨position, found⟩ := List.mem_iff_getElem?.mp isOther
  exact ⟨position, other, found, rfl, (isFor.steps other isOther).named,
    (isFor.mem_dependencyIndices isStep).mpr ⟨other, found, isDep⟩⟩

theorem depFailed_eq_false : state.depFailed step = false ↔
    ∀ dep ∈ step.planDependencies, dep ∉ state.failedNames := by
  simp [depFailed]

theorem Ran.batch (isFor : PlanFor graph assetNames groups plan) (ran : Ran plan outcome done state)
    (fresh : ∀ index ∈ indices, index ∉ done)
    (ready : ∀ index ∈ indices, ∀ position, some position ∈ plan.dependencyIndices index →
      position ∈ done) :
    Ran plan outcome (done ++ indices) (executeLevelBatch plan outcome state indices) := by
  have isBatch (step : ExecutionStep) : step ∈ indices.filterMap (plan.steps[·]?) ↔
      ∃ index ∈ indices, plan.steps[index]? = some step := List.mem_filterMap
  have foreign : ∀ step ∈ indices.filterMap (plan.steps[·]?), ∀ dep ∈ step.planDependencies,
      ∀ other ∈ indices.filterMap (plan.steps[·]?), dep ∉ other.eventNames := by
    intro step isStep dep isDep other isOther inOther
    obtain ⟨index, isNew, found⟩ := (isBatch step).mp isStep
    obtain ⟨position, isPosition, foundOther⟩ := (isBatch other).mp isOther
    obtain ⟨place, held, isHeld, -, inHeld, isPlace⟩ := isFor.exists_dependencyIndex found isDep
    have same := isFor.index_of_asset isHeld foundOther inHeld inOther
    exact fresh position isPosition (same ▸ ready index isNew place isPlace)
  obtain ⟨executed, failed⟩ := executeLevelBatch_spec outcome state rfl foreign
  have closed : ∀ index ∈ done ++ indices, ∀ position, some position ∈
      plan.dependencyIndices index →
      position ∈ done := by
    intro index mem
    exact (List.mem_append.mp mem).elim (ran.closed index) (ready index)
  have keptFailed (index : Nat) (isDone : index ∈ done) (step : ExecutionStep)
    (isStep : plan.steps[index]? = some step)
      (name : String) (inStep : name ∈ step.eventNames) :
      name ∈ (executeLevelBatch plan outcome state indices).failedNames ↔
      name ∈ state.failedNames := by
    rw [failed, or_iff_left]
    rintro ⟨other, isOther, inOther, -⟩
    obtain ⟨position, isNew, found⟩ := (isBatch other).mp isOther
    exact fresh position isNew (isFor.index_of_asset isStep found inStep inOther ▸ isDone)
  have keptExecuted (index : Nat) (isDone : index ∈ done) (step : ExecutionStep)
      (isStep : plan.steps[index]? = some step) :
      step.name ∈ (executeLevelBatch plan outcome state indices).executed ↔
      step.name ∈ state.executed := by
    rw [executed, List.mem_append, or_iff_left]
    intro isRun
    obtain ⟨other, isOther, same⟩ := List.mem_map.mp isRun
    obtain ⟨position, isNew, found⟩ := (isBatch other).mp (List.mem_of_mem_filter isOther)
    exact fresh position isNew (isFor.index_unique isStep found same.symm ▸ isDone)
  have newExecuted (index : Nat) (isNew : index ∈ indices) (step : ExecutionStep)
      (isStep : plan.steps[index]? = some step) :
      step.name ∈ (executeLevelBatch plan outcome state indices).executed ↔
      state.depFailed step = false := by
    rw [executed, List.mem_append, or_iff_right]
    · constructor
      · intro isRun
        obtain ⟨other, isOther, same⟩ := List.mem_map.mp isRun
        obtain ⟨inBatch, quiet⟩ := List.mem_filter.mp isOther
        obtain ⟨position, -, found⟩ := (isBatch other).mp inBatch
        rw [isFor.eq_of_name (List.mem_of_getElem? found) (List.mem_of_getElem? isStep) same]
          at quiet
        exact Bool.not_eq_true' _ ▸ quiet
      · intro quiet
        exact List.mem_map_of_mem (List.mem_filter.mpr
          ⟨(isBatch step).mpr ⟨index, isNew, isStep⟩, by simp [quiet]⟩)
    · intro old
      obtain ⟨position, isDone, other, isOther, same⟩ := ran.known step.name old
      exact fresh index isNew (isFor.index_unique isOther isStep same ▸ isDone)
  have keptDeps (index : Nat) (mem : index ∈ done ++ indices) (step : ExecutionStep)
      (isStep : plan.steps[index]? = some step) (dep : String)
      (isDep : dep ∈ step.planDependencies) :
      dep ∈ (executeLevelBatch plan outcome state indices).failedNames ↔
      dep ∈ state.failedNames := by
    obtain ⟨position, other, isOther, -, inOther, isPosition⟩ :=
      isFor.exists_dependencyIndex isStep isDep
    exact keptFailed position (closed index mem position isPosition) other isOther dep inOther
  refine ⟨fun index mem step isStep => ?_, fun name => ?_, fun name mem => ?_,
    fun index mem position isDep =>
    List.mem_append_left _ (closed index mem position isDep)⟩
  · rw [forall₂_congr fun dep isDep => not_congr (keptDeps index mem step isStep dep isDep)]
    obtain isDone | isNew := List.mem_append.mp mem
    · rw [keptExecuted index isDone step isStep]
      exact ran.executed index isDone step isStep
    · rw [newExecuted index isNew step isStep, depFailed_eq_false]
  · rw [failed, ran.failed]
    constructor
    · rintro (⟨index, isDone, step, isStep, inStep, cause⟩ | ⟨step, isStep, inStep, cause⟩)
      · exact ⟨index, List.mem_append_left _ isDone, step, isStep, inStep,
          cause.imp_left (mt (keptExecuted index isDone step isStep).mp)⟩
      · obtain ⟨index, isNew, found⟩ := (isBatch step).mp isStep
        refine ⟨index, List.mem_append_right _ isNew, step, found, inStep,
          cause.imp_left fun skipped => ?_⟩
        rw [newExecuted index isNew step found, skipped]
        exact Bool.noConfusion
    · rintro ⟨index, mem, step, isStep, inStep, cause⟩
      obtain isDone | isNew := List.mem_append.mp mem
      · exact .inl ⟨index, isDone, step, isStep, inStep,
          cause.imp_left (mt (keptExecuted index isDone step isStep).mpr)⟩
      · refine .inr ⟨step, (isBatch step).mpr ⟨index, isNew, isStep⟩, inStep,
          cause.imp_left fun skipped => ?_⟩
        rwa [newExecuted index isNew step isStep, Bool.not_eq_false] at skipped
  · rw [executed, List.mem_append] at mem
    obtain old | isRun := mem
    · obtain ⟨index, isDone, found⟩ := ran.known name old
      exact ⟨index, List.mem_append_left _ isDone, found⟩
    · obtain ⟨step, isStep, rfl⟩ := List.mem_map.mp isRun
      obtain ⟨index, isNew, found⟩ := (isBatch step).mp (List.mem_of_mem_filter isStep)
      exact ⟨index, List.mem_append_right _ isNew, step, found, rfl⟩

theorem Ran.run (isFor : PlanFor graph assetNames groups plan) {batches}
    (ran : Ran plan outcome done state) (scheduled : Scheduled plan done batches)
    (nodup : (done ++ batches.flatten).Nodup) :
    Ran plan outcome (done ++ batches.flatten)
      (batches.foldl (executeLevelBatch plan outcome) state) := by
  induction batches generalizing done state with
  | nil => simpa using ran
  | cons batch batches ih =>
    rw [List.flatten_cons, ← List.append_assoc] at nodup ⊢
    refine ih (ran.batch isFor (fun index isNew isDone => ?_) scheduled.1) scheduled.2 nodup
    exact (List.nodup_append.mp (List.nodup_append.mp nodup).1).2.2 index isDone index isNew rfl

theorem mono_recordFailures {failed} :
    state.failedNames ⊆ (state.recordFailures failed).failedNames := fun _ mem =>
  mem_recordFailures.mpr (.inl mem)

theorem mono_classify (plan : ExecutionPlan) (steps : List ExecutionStep) (state : RunState)
    (singles : List ExecutionStep) :
    state.failedNames ⊆ (steps.foldl (classifyNext plan) (state, singles)).1.failedNames ∧
      (steps.foldl (classifyNext plan) (state, singles)).1.executed = state.executed := by
  induction steps generalizing state singles with
  | nil => exact ⟨subset_refl _, rfl⟩
  | cons step steps ih =>
    rw [List.foldl_cons, classifyNext, classifyStep]
    cases state.depFailed step with
    | true =>
      obtain ⟨grown, same⟩ :=
        ih (state.recordFailures (step.eventNames.map (·, skipMessage plan))) singles
      exact ⟨mono_recordFailures.trans grown, same.trans executed_recordFailures⟩
    | false => exact ih state (singles ++ [step])

theorem mono_run (state : RunState) (batches : List (List Nat)) :
    state.failedNames ⊆ (batches.foldl (executeLevelBatch plan outcome) state).failedNames ∧
      ∀ name ∈ state.executed, name ∈
        (batches.foldl (executeLevelBatch plan outcome) state).executed := by
  induction batches generalizing state with
  | nil => exact ⟨subset_refl _, fun _ mem => mem⟩
  | cons batch batches ih =>
    obtain ⟨grown, kept⟩ := ih (executeLevelBatch plan outcome state batch)
    obtain ⟨classified, same⟩ := mono_classify plan (batch.filterMap (plan.steps[·]?)) state []
    refine ⟨fun name mem => grown ?_, fun name mem => kept name ?_⟩
    · rw [executeLevelBatch_eq, mem_foldl_processStepResult]
      exact .inl (classified mem)
    · rw [executeLevelBatch_eq, executed_foldl_processStepResult, classifyBatch, same]
      exact List.mem_append_left _ mem

theorem quiet_run {batches : List (List Nat)}
    (quiet : ∀ step ∈ plan.steps, ∀ dep ∈ step.planDependencies, dep ∉ state.failedNames)
    (unread : ∀ index ∈ batches.flatten, ∀ step, plan.steps[index]? = some step →
      ∀ name ∈ step.eventNames,
      (outcome name).isSome → ∀ other ∈ plan.steps, name ∉ other.planDependencies) :
    let final := batches.foldl (executeLevelBatch plan outcome) state
    (∀ index ∈ batches.flatten, ∀ step, plan.steps[index]? = some step →
      step.name ∈ final.executed) ∧
      ∀ name, name ∈ final.failedNames ↔ name ∈ state.failedNames ∨
        ∃ index ∈ batches.flatten, ∃ step,
        plan.steps[index]? = some step ∧ name ∈ step.eventNames ∧ (outcome name).isSome := by
  induction batches generalizing state with
  | nil => simp
  | cons batch batches ih =>
    have isBatch (step : ExecutionStep) : step ∈ batch.filterMap (plan.steps[·]?) ↔
        ∃ index ∈ batch, plan.steps[index]? = some step := List.mem_filterMap
    have whole : executeLevelBatch plan outcome state batch =
        (batch.filterMap (plan.steps[·]?)).foldl (processStepResult outcome) state := by
      refine executeLevelBatch_quiet rfl fun step isStep => depFailed_eq_false.mpr ?_
      obtain ⟨index, -, found⟩ := (isBatch step).mp isStep
      exact quiet step (List.mem_of_getElem? found)
    have stillQuiet : ∀ step ∈ plan.steps, ∀ dep ∈ step.planDependencies,
        dep ∉ (executeLevelBatch plan outcome state batch).failedNames := by
      intro step isStep dep isDep
      rw [whole, mem_foldl_processStepResult]
      rintro (old | ⟨other, isOther, inOther, isFailed⟩)
      · exact quiet step isStep dep isDep old
      · obtain ⟨index, isNew, found⟩ := (isBatch other).mp isOther
        exact unread index (List.mem_append_left _ isNew) other found dep inOther isFailed step
          isStep isDep
    obtain ⟨executed, failed⟩ := ih stillQuiet fun index mem =>
      unread index (by rw [List.flatten_cons]; exact List.mem_append_right _ mem)
    rw [List.foldl_cons]
    refine ⟨fun index mem step isStep => ?_, fun name => ?_⟩
    · obtain isNew | later := List.mem_append.mp mem
      · refine (mono_run _ batches).2 step.name ?_
        rw [whole, executed_foldl_processStepResult]
        exact List.mem_append_right _
          (List.mem_map_of_mem ((isBatch step).mpr ⟨index, isNew, isStep⟩))
      · exact executed index later step isStep
    · rw [failed, whole, mem_foldl_processStepResult, List.flatten_cons, or_assoc]
      simp only [List.mem_append, or_and_right, exists_or]
      refine or_congr_right (or_congr_left ⟨?_, ?_⟩)
      · rintro ⟨step, isStep, fails⟩
        obtain ⟨index, isNew, found⟩ := (isBatch step).mp isStep
        exact ⟨index, isNew, step, found, fails⟩
      · rintro ⟨index, isNew, step, found, fails⟩
        exact ⟨step, (isBatch step).mpr ⟨index, isNew, found⟩, fails⟩

end Run

section Exact

variable (graph : AssetGraph) (assetNames : Finset String) (groups : HashMap String String)

/-- Is each step executed exactly if no selected asset of another step that its assets depend on
failed or was skipped? -/
def ExecutesExactly (plan : ExecutionPlan) (state : RunState) : Prop :=
  ∀ step ∈ plan.steps, step.name ∈ state.executed ↔
    ∀ node ∈ graph.nodes, node.1 ∈ step.eventNames → ∀ dep ∈ node.2, dep ∈ assetNames →
      dep ∉ step.eventNames →
      dep ∉ state.failedNames

def DependOnOwners : Prop :=
  ∀ node ∈ graph.nodes, node.1 ∈ assetNames → ∀ dep ∈ node.2, dep ∈ assetNames →
    owner graph.nodes assetNames groups dep ≠ owner graph.nodes assetNames groups node.1 →
      owner graph.nodes assetNames groups dep = dep

def StepsAcyclic : Prop :=
  ∃ rank : String → Nat, ∀ dependent dependency, StepDepends graph.nodes assetNames groups dependent
    dependency →
    rank dependency < rank dependent

variable {graph assetNames groups} {plan : ExecutionPlan} {outcome : String → Option String}
  {batches : List (List Nat)}

theorem mem_graph_of_dep {node} (isNode : node ∈ graph.nodes) {dep} (isDep : dep ∈ node.2) :
    dep ∈ graph.nodes.map Prod.fst := by
  obtain ⟨pre, after, split⟩ := List.append_of_mem isNode
  rw [split, List.map_append]
  exact List.mem_append_left _ (graph.dep_before split dep isDep)

theorem Batches.refl (levels : List (List Nat)) : Batches levels levels := by
  refine ⟨levels.map fun level => [level], ?_, ?_⟩
  · simp_all
  · induction levels with
    | nil => rfl
    | cons level levels ih => simpa using ih

theorem mem_batches (split : Batches plan.groupStepsByLevel batches) {index}
    (inside : index < plan.steps.length) :
    index ∈ batches.flatten :=
  (perm_of_batches split).mem_iff.mpr (mem_flatten_iff.mpr
    ⟨plan.levelOf index, (mem_groupStepsByLevel plan).mpr ⟨inside, rfl⟩⟩)

theorem executesExactly_of_owners (isFor : PlanFor graph assetNames groups plan)
    (onOwners : DependOnOwners graph assetNames groups)
    (acyclic : StepsAcyclic graph assetNames groups)
    (split : Batches plan.groupStepsByLevel batches) :
    ExecutesExactly graph assetNames plan (executePlan plan outcome batches) := by
  obtain ⟨rank, ranked⟩ := acyclic
  have scheduled : Scheduled plan [] batches := by
    obtain ⟨chunks, isSplit, rfl⟩ := split
    refine Scheduled.of_levels isSplit fun level index inLevel position isDep => .inr ?_
    obtain ⟨inside, rfl⟩ := (mem_groupStepsByLevel plan).mp inLevel
    have isStep := List.getElem?_eq_getElem inside
    obtain ⟨other, isOther, isName⟩ := (isFor.mem_dependencyIndices isStep).mp isDep
    exact ⟨plan.levelOf position, isFor.levelOf_lt ranked isStep isOther isName,
      (mem_groupStepsByLevel plan).mpr ⟨(List.getElem?_eq_some_iff.mp isOther).1, rfl⟩⟩
  have nodup : ([] ++ batches.flatten).Nodup :=
    (perm_of_batches split).nodup_iff.mpr (nodup_groupStepsByLevel plan)
  have start : Ran plan outcome [] {} := ⟨by simp, by simp, by simp, by simp⟩
  have ran := start.run isFor scheduled nodup
  intro step isStep
  obtain ⟨index, found⟩ := List.mem_iff_getElem?.mp isStep
  have isAsset := (isFor.steps step isStep).assets
  rw [show executePlan plan outcome batches = batches.foldl (executeLevelBatch plan outcome)
    {} from rfl,
    ran.executed index (mem_batches split (List.getElem?_eq_some_iff.mp found).1) step found]
  constructor
  · intro quiet node isNode inStep dep isDep sel outside
    obtain ⟨-, nodeSelected, isOwner⟩ := (isAsset node.1).mp inStep
    have different : owner graph.nodes assetNames groups dep ≠ step.name := fun same =>
      outside ((isAsset dep).mpr ⟨mem_graph_of_dep isNode isDep, sel, same⟩)
    have isName := onOwners node isNode nodeSelected dep isDep sel (isOwner ▸ different)
    exact quiet dep ((isFor.mem_planDependencies isStep).mpr
      ⟨node, isNode, nodeSelected, isOwner, dep, isDep, sel, isName, isName ▸ different⟩)
  · intro quiet dependency isDependency
    obtain ⟨node, isNode, nodeSelected, isOwner, dep, isDep, sel, rfl, different⟩ :=
      (isFor.mem_planDependencies isStep).mp isDependency
    have isName := onOwners node isNode nodeSelected dep isDep sel (isOwner ▸ different)
    rw [isName] at different ⊢
    refine quiet node isNode ((isAsset node.1).mpr ⟨List.mem_map_of_mem isNode, nodeSelected,
      isOwner⟩) dep isDep sel fun inside => different ?_
    exact isName.symm.trans ((isAsset dep).mp inside).2.2

theorem onOwners_of_executesExactly (isFor : PlanFor graph assetNames groups plan)
    (exact : ∀ outcome batches, Batches plan.groupStepsByLevel batches →
      ExecutesExactly graph assetNames plan (executePlan plan outcome batches)) :
    DependOnOwners graph assetNames groups := by
  intro node isNode nodeSelected dep isDep sel different
  by_contra unnamed
  have inGraph := mem_graph_of_dep isNode isDep
  obtain ⟨step, isStep, isName, inStep⟩ := isFor.exists_step (List.mem_map_of_mem isNode)
    nodeSelected
  obtain ⟨other, isOther, otherName, inOther⟩ := isFor.exists_step inGraph sel
  obtain ⟨index, found⟩ := List.mem_iff_getElem?.mp isStep
  obtain ⟨position, foundOther⟩ := List.mem_iff_getElem?.mp isOther
  let outcome : String → Option String := fun name => if name = dep then some "" else none
  have unread : ∀ index ∈ plan.groupStepsByLevel.flatten, ∀ step, plan.steps[index]? = some step →
      ∀ name ∈ step.eventNames, (outcome name).isSome →
        ∀ other ∈ plan.steps, name ∉ other.planDependencies := by
    intro index _ held _ name _ isFailed other isOther isDependency
    obtain ⟨own, isOwn, rfl⟩ := isFor.exists_dependency isOther isDependency
    have selfOwned := (isFor.steps own isOwn).name_spec.2.2
    have same : own.name = dep := by
      by_contra different
      simp [outcome, different] at isFailed
    exact unnamed (same ▸ selfOwned)
  have start : ∀ step ∈ plan.steps, ∀ dep ∈ step.planDependencies,
    dep ∉ ({} : RunState).failedNames := by simp
  obtain ⟨executed, failed⟩ := quiet_run start unread
  have inBatches (index : Nat) (inside : index < plan.steps.length) : index ∈
      plan.groupStepsByLevel.flatten :=
    mem_batches (Batches.refl _) inside
  have isExecuted := executed index (inBatches index (List.getElem?_eq_some_iff.mp found).1) step
    found
  have isFailed := (failed dep).mpr
    (.inr ⟨position, inBatches position (List.getElem?_eq_some_iff.mp foundOther).1,
    other, foundOther, inOther, by simp [outcome]⟩)
  refine (exact outcome _ (Batches.refl _) step isStep).mp isExecuted node isNode inStep
    dep isDep sel
    (fun inside => different ?_) isFailed
  rw [(((isFor.steps step isStep).assets dep).mp inside).2.2, isName]

theorem exists_split_at_level {position} (inside : position < plan.steps.length) :
    ∃ pre level after, plan.groupStepsByLevel = pre ++ level :: after ∧
      (∀ place, place ∈ pre.flatten ↔ place < plan.steps.length ∧
        plan.levelOf place < plan.levelOf position) ∧
      ∀ place, place ∈ level ↔ place < plan.steps.length ∧ plan.levelOf place =
        plan.levelOf position := by
  have mem := (mem_groupStepsByLevel plan).mpr ⟨inside, rfl⟩
  have bound : plan.levelOf position < plan.groupStepsByLevel.length := by
    by_contra outside
    rw [List.getElem?_eq_none (Nat.le_of_not_lt outside)] at mem
    cases mem
  refine ⟨plan.groupStepsByLevel.take (plan.levelOf position),
    plan.groupStepsByLevel[plan.levelOf position],
    plan.groupStepsByLevel.drop (plan.levelOf position + 1), ?_, fun place => ?_, fun place => ?_⟩
  · simp
  · rw [mem_flatten_iff]
    simp only [List.getElem?_take]
    constructor
    · rintro ⟨level, inLevel⟩
      split at inLevel
      · rename_i lower
        obtain ⟨isPlace, rfl⟩ := (mem_groupStepsByLevel plan).mp inLevel
        exact ⟨isPlace, lower⟩
      · cases inLevel
    · rintro ⟨isPlace, lower⟩
      refine ⟨plan.levelOf place, ?_⟩
      rw [if_pos lower]
      exact (mem_groupStepsByLevel plan).mpr ⟨isPlace, rfl⟩
  · rw [← mem_groupStepsByLevel, List.getElem?_eq_getElem bound, Option.getD_some]

theorem levelOf_lt_of_executesExactly (isFor : PlanFor graph assetNames groups plan)
    (exact : ∀ outcome batches, Batches plan.groupStepsByLevel batches →
      ExecutesExactly graph assetNames plan (executePlan plan outcome batches))
    {index position step other} (isStep : plan.steps[index]? = some step)
    (isOther : plan.steps[position]? = some other) (isDep : other.name ∈ step.planDependencies) :
    plan.levelOf position < plan.levelOf index := by
  by_contra notBelow
  have stepMember := List.mem_of_getElem? isStep
  obtain ⟨node, isNode, nodeSelected, isOwner, dep, isNodeDep, sel, depOwner, different⟩ :=
    (isFor.mem_planDependencies stepMember).mp isDep
  have inStep := ((isFor.steps step stepMember).assets node.1).mpr ⟨List.mem_map_of_mem isNode,
    nodeSelected, isOwner⟩
  have inOther := ((isFor.steps other (List.mem_of_getElem? isOther)).assets dep).mpr
    ⟨mem_graph_of_dep isNode isNodeDep, sel, depOwner⟩
  obtain ⟨pre, level, after, isSplit, inBefore, inLevel⟩ :=
    exists_split_at_level (List.getElem?_eq_some_iff.mp isOther).1
  let outcome : String → Option String := fun name =>
    if name ∈ other.eventNames then some "" else none
  have unfailed : ∀ place ∈ pre.flatten, ∀ held, plan.steps[place]? = some held →
      ∀ name ∈ held.eventNames, (outcome name).isSome → False := by
    intro place isPlace held isHeld name inHeld isFailed
    have inside : name ∈ other.eventNames := by
      by_contra outside
      simp [outcome, outside] at isFailed
    have lower := ((inBefore place).mp isPlace).2
    rw [isFor.index_of_asset isHeld isOther inHeld inside] at lower
    exact lt_irrefl _ lower
  have start : ∀ step ∈ plan.steps, ∀ dep ∈ step.planDependencies,
    dep ∉ ({} : RunState).failedNames := by simp
  obtain ⟨executed, failed⟩ := quiet_run start fun place isPlace held isHeld name inHeld isFailed =>
    (unfailed place isPlace held isHeld name inHeld isFailed).elim
  have none (name : String) :
      name ∉ (pre.foldl (executeLevelBatch plan outcome) {}).failedNames := by
    rw [failed]
    rintro (empty | ⟨place, isPlace, held, isHeld, inHeld, isFailed⟩)
    · exact Finset.notMem_empty _ empty
    · exact unfailed place isPlace held isHeld name inHeld isFailed
  have whole := @executeLevelBatch_quiet plan outcome (pre.foldl (executeLevelBatch plan outcome)
    {}) _ level rfl
    fun held _ => depFailed_eq_false.mpr fun name _ => none name
  have final : executePlan plan outcome plan.groupStepsByLevel =
      after.foldl (executeLevelBatch plan outcome)
      (executeLevelBatch plan outcome (pre.foldl (executeLevelBatch plan outcome) {}) level) := by
    rw [executePlan, isSplit, List.foldl_append, List.foldl_cons]
  have inBatch (place : Nat) (held : ExecutionStep) (isHeld : plan.steps[place]? = some held)
    (isPlace : place ∈ level) :
      held ∈ level.filterMap (plan.steps[·]?) := List.mem_filterMap.mpr ⟨place, isPlace, isHeld⟩
  have isExecuted : step.name ∈ (executePlan plan outcome plan.groupStepsByLevel).executed := by
    rw [final]
    refine (mono_run _ after).2 step.name ?_
    rw [whole, executed_foldl_processStepResult, List.mem_append]
    have inside := (List.getElem?_eq_some_iff.mp isStep).1
    obtain lower | same := Nat.lt_or_eq_of_le (Nat.le_of_not_lt notBelow)
    · exact .inl (executed index ((inBefore index).mpr ⟨inside, lower⟩) step isStep)
    · exact .inr (List.mem_map_of_mem
        (inBatch index step isStep ((inLevel index).mpr ⟨inside, same⟩)))
  have isFailed : dep ∈ (executePlan plan outcome plan.groupStepsByLevel).failedNames := by
    rw [final]
    refine (mono_run _ after).1 ?_
    rw [whole, mem_foldl_processStepResult]
    exact .inr ⟨other, inBatch position other isOther
      ((inLevel position).mpr ⟨(List.getElem?_eq_some_iff.mp isOther).1, rfl⟩), inOther,
      by simp [outcome, inOther]⟩
  refine (exact outcome _ (Batches.refl _) step stepMember).mp isExecuted node isNode inStep dep
    isNodeDep sel
    (fun inside => different ?_) isFailed
  rw [← depOwner]
  exact (((isFor.steps step stepMember).assets dep).mp inside).2.2

theorem stepsAcyclic_of_levelOf_lt (isFor : PlanFor graph assetNames groups plan)
    (below : ∀ index position step other, plan.steps[index]? = some step →
      plan.steps[position]? = some other →
      other.name ∈ step.planDependencies → plan.levelOf position < plan.levelOf index) :
    StepsAcyclic graph assetNames groups := by
  refine ⟨fun name => (plan.byName.lookup name).elim 0 plan.levelOf,
    fun dependent dep depends => ?_⟩
  obtain ⟨node, isNode, nodeSelected, isOwner, -⟩ := id depends
  obtain ⟨step, isStep, isName, -⟩ := isFor.exists_step (List.mem_map_of_mem isNode) nodeSelected
  rw [isOwner] at isName
  subst isName
  have isDep := (isFor.mem_planDependencies isStep).mpr depends
  obtain ⟨index, found⟩ := List.mem_iff_getElem?.mp isStep
  obtain ⟨position, other, isOther, rfl, inOther, -⟩ := isFor.exists_dependencyIndex found isDep
  beta_reduce
  rw [isFor.lookup_byName.mpr ⟨other, isOther, inOther⟩,
    isFor.lookup_byName.mpr ⟨step, found, (isFor.steps step isStep).named⟩]
  exact below index position step other found isOther isDep

theorem acyclic_of_executesExactly (isFor : PlanFor graph assetNames groups plan)
    (exact : ∀ outcome batches, Batches plan.groupStepsByLevel batches →
      ExecutesExactly graph assetNames plan (executePlan plan outcome batches)) :
    StepsAcyclic graph assetNames groups :=
  stepsAcyclic_of_levelOf_lt isFor fun _ _ _ _ isStep isOther isDep =>
    levelOf_lt_of_executesExactly isFor exact isStep isOther isDep

end Exact

/-- A step is executed exactly if nothing it depends on failed, when steps depend by name and
acyclically. -/
theorem executes_exactly_iff (graph : AssetGraph) (assetNames : Finset String)
    (groups : HashMap String String) (compositionOrder : HashMap String Nat) :
    (∀ outcome batches,
      Batches (fromSubgraph graph assetNames groups compositionOrder).groupStepsByLevel batches →
        ExecutesExactly graph assetNames (fromSubgraph graph assetNames groups compositionOrder)
          (executePlan (fromSubgraph graph assetNames groups compositionOrder) outcome batches)) ↔
      DependOnOwners graph assetNames groups ∧ StepsAcyclic graph assetNames groups := by
  have isFor := planFor_fromSubgraph graph assetNames groups compositionOrder
  constructor
  · intro executes
    exact ⟨onOwners_of_executesExactly isFor executes, acyclic_of_executesExactly isFor executes⟩
  · rintro ⟨onOwners, acyclic⟩ outcome batches split
    exact executesExactly_of_owners isFor onOwners acyclic split

def twoOutputs : AssetGraph where
  nodes := [("a", []), ("b", []), ("c", ["b"])]
  nodup := by decide
  ordered := by decide

/-- With `b` not produced, `c` is executed all the same; with `a` not produced, `c` is skipped
though `b` is there. -/
theorem second_output_not_heeded :
    let groups : HashMap String String := (Finmap.singleton "a" "ab").insert "b" "ab"
    let plan := fromSubgraph twoOutputs {"a", "b", "c"} groups ∅
    let failing (output : String) := executePlan plan (fun name =>
      if name = output then some "not yielded" else none)
      plan.groupStepsByLevel
    plan.groupStepsByLevel = [[0], [1]] ∧
      "b" ∈ (failing "b").failedNames ∧ "c" ∈ (failing "b").executed ∧
      "b" ∉ (failing "a").failedNames ∧ "c" ∉ (failing "a").executed := by
  decide +kernel

end Rivers
