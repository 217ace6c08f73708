import Rivers.Execution.ExecutorCore
import Rivers.Execution.PlanLevels
import Rivers.Execution.Subgraph

/-! A step's batch comes after those it depends on. -/

namespace Rivers

open FiniteMap ExecutionPlan

namespace PlanFor

variable {graph : AssetGraph} {assetNames : Finset String} {groups : HashMap String String}
  {plan : ExecutionPlan} {step other : ExecutionStep} {name : String} {index : Nat}

theorem mem_names_iff (isFor : PlanFor graph assetNames groups plan) (isStep : step ∈ plan.steps) :
    name ∈ step.names ↔ name ∈ step.eventNames := by
  grind [StepFor.named, ExecutionStep.eventNames, ExecutionStep.names, PlanFor]

theorem index_unique (isFor : PlanFor graph assetNames groups plan) {pos}
    (isStep : plan.steps[index]? = some step) (isOther : plan.steps[pos]? = some other)
    (same : step.name = other.name) : index = pos := by
  have bound : index < (plan.steps.map ExecutionStep.name).length := by
    rw [List.length_map]
    exact (List.getElem?_eq_some_iff.mp isStep).1
  exact (List.getElem?_inj bound isFor.names).mp (by simp [isStep, isOther, same])

theorem distinctNames (isFor : PlanFor graph assetNames groups plan) : plan.DistinctNames := by
  refine (List.Nodup.of_map _ isFor.names).pairwise_of_forall_ne
    fun step isStep other isOther different => ?_
  intro name inStep inOther
  exact different (isFor.eq_of_mem_eventNames isStep isOther
    ((isFor.mem_names_iff isStep).mp inStep)
    ((isFor.mem_names_iff isOther).mp inOther))

theorem lookup_byName (isFor : PlanFor graph assetNames groups plan) :
    plan.byName.lookup name = some index ↔ ∃ step, plan.steps[index]? = some step ∧
    name ∈ step.eventNames := by
  grind [ExecutionPlan.DistinctNames.lookup_byName, distinctNames, mem_names_iff]

theorem mem_dependencyIndices (isFor : PlanFor graph assetNames groups plan) {pos}
    (isStep : plan.steps[index]? = some step) :
    some pos ∈ plan.dependencyIndices index ↔
      ∃ other, plan.steps[pos]? = some other ∧ other.name ∈ step.planDependencies := by
  have mem := List.mem_of_getElem? isStep
  simp only [dependencyIndices, isStep, Option.elim_some, List.mem_map]
  constructor
  · rintro ⟨dep, isDep, found⟩
    obtain ⟨other, isOther, inOther⟩ := isFor.lookup_byName.mp found
    obtain ⟨named, isNamed, rfl⟩ := isFor.exists_dependency mem isDep
    rw [isFor.eq_of_mem_eventNames isNamed (List.mem_of_getElem? isOther)
      (isFor.steps named isNamed).named inOther]
      at isDep
    exact ⟨other, isOther, isDep⟩
  · rintro ⟨other, isOther, isDep⟩
    exact ⟨other.name, isDep, isFor.lookup_byName.mpr
      ⟨other, isOther, (isFor.steps other (List.mem_of_getElem? isOther)).named⟩⟩

theorem levelOf_lt (isFor : PlanFor graph assetNames groups plan) {rank : String → Nat}
    (acyclic : ∀ dependent dep, StepDepends graph.nodes assetNames groups dependent dep →
      rank dep < rank dependent)
    {pos} (isStep : plan.steps[index]? = some step) (isOther : plan.steps[pos]? = some other)
    (isDep : other.name ∈ step.planDependencies) : plan.levelOf pos < plan.levelOf index := by
  have ranked (node next : Nat) (isNext : some next ∈ plan.dependencyIndices node) :
      (plan.steps[next]?).elim 0 (rank ·.name) < (plan.steps[node]?).elim 0 (rank ·.name) := by
    cases found : plan.steps[node]? with
    | none => simp [dependencyIndices, found] at isNext
    | some step =>
      obtain ⟨other, isOther, isDep⟩ := (isFor.mem_dependencyIndices found).mp isNext
      rw [isOther]
      exact acyclic _ _ ((isFor.mem_planDependencies (List.mem_of_getElem? found)).mp isDep)
  have closed (node : Nat) (_ : node < plan.steps.length) (next : Nat)
      (isNext : some next ∈ plan.dependencyIndices node) : next < plan.steps.length := by
    grind [mem_dependencyIndices]
  obtain ⟨level, isLevel, -, below⟩ := Levels.levelOf_spec ranked closed
    (List.getElem?_eq_some_iff.mp isStep).1
  obtain ⟨lower, isLower, found⟩ := below pos
    ((isFor.mem_dependencyIndices isStep).mpr ⟨other, isOther, isDep⟩)
  simpa [levelOf, isLevel, found] using isLower

end PlanFor

def Scheduled (plan : ExecutionPlan) (done : List Nat) : List (List Nat) → Prop
  | [] => True
  | batch :: batches =>
      (∀ index ∈ batch, ∀ position, some position ∈ plan.dependencyIndices index →
        position ∈ done) ∧
        Scheduled plan (done ++ batch) batches

namespace Scheduled

variable {plan : ExecutionPlan} {done : List Nat}

theorem of_ready {batches}
    (ready : ∀ batch ∈ batches, ∀ index ∈ batch, ∀ pos, some pos ∈ plan.dependencyIndices index →
      pos ∈ done) : Scheduled plan done batches := by
  induction batches generalizing done with
  | nil => trivial
  | cons batch batches ih => grind [Scheduled]

theorem append {batches later} (first : Scheduled plan done batches)
    (rest : Scheduled plan (done ++ batches.flatten) later) : Scheduled plan done
    (batches ++ later) := by
  induction batches generalizing done with
  | nil => simpa using rest
  | cons batch batches ih =>
    refine ⟨first.1, ih first.2 ?_⟩
    rwa [List.append_assoc, ← List.flatten_cons]

theorem of_levels {levels chunks}
    (split : List.Forall₂ (fun level chunk => (List.flatten chunk).Perm level) levels chunks)
    (below : ∀ level : Nat, ∀ index ∈ (levels[level]?).getD [], ∀ pos,
      some pos ∈ plan.dependencyIndices index → pos ∈ done ∨ ∃ lower < level, pos ∈
        (levels[lower]?).getD []) :
    Scheduled plan done chunks.flatten := by
  induction split generalizing done with
  | nil => trivial
  | @cons level chunk levels chunks perm split ih =>
    rw [List.flatten_cons]
    refine append (of_ready fun batch mem index inside pos isDep => ?_)
      (ih fun next index inside pos
      isDep => ?_)
    · have inLevel : index ∈ level := perm.mem_iff.mp (List.mem_flatten.mpr ⟨batch, mem, inside⟩)
      exact (below 0 index (by simpa using inLevel) pos isDep).resolve_right (by simp)
    · rcases below (next + 1) index (by simpa using inside) pos isDep with isDone | ⟨lower,
        order, inLower⟩
      · exact .inl (List.mem_append_left _ isDone)
      · grind

end Scheduled

theorem perm_of_batches {levels batches} (split : Batches levels batches) :
    batches.flatten.Perm levels.flatten := by
  obtain ⟨chunks, isSplit, rfl⟩ := split
  induction isSplit with
  | nil => exact .refl _
  | cons perm _ ih =>
    rw [List.flatten_cons, List.flatten_append, List.flatten_cons]
    exact perm.append ih

end Rivers
