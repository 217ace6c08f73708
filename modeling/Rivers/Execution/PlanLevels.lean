import Mathlib.Data.List.Pairwise
import Rivers.Execution.PlanCore

/-! The levels of any plan. -/

namespace Rivers

open FiniteMap ExecutionStep ExecutionPlan

section ByName

theorem ExecutionStep.mem_names {step : ExecutionStep} {name} :
    name ∈ step.names ↔ name = step.name ∨ name ∈ step.outputs :=
  List.mem_cons

theorem lookup_foldl_insert (names : List String) (index : Nat) (named : HashMap String Nat)
    (name : String) :
    (names.foldl (fun named output => named.insert output index) named).lookup name =
      if name ∈ names then some index else named.lookup name := by
  induction names generalizing named with
  | nil => simp
  | cons first names ih => grind [lookup_insert_ite]

theorem lookup_named (pairs : List (ExecutionStep × Nat)) (name : String) :
    (∀ index, (pairs.foldl (fun named (step, index) =>
      step.outputs.foldl (fun named output => named.insert output index)
        (named.insert step.name index))
        (∅ : HashMap String Nat)).lookup name = some index →
      ∃ step, (step, index) ∈ pairs ∧ name ∈ step.names) ∧
    ∀ step index, (step, index) ∈ pairs → name ∈ step.names →
      ((pairs.foldl (fun named (step, index) =>
        step.outputs.foldl (fun named output => named.insert output index)
          (named.insert step.name index))
          (∅ : HashMap String Nat)).lookup name).isSome := by
  induction pairs using List.reverseRecOn with
  | nil => simp
  | append_singleton pairs last ih =>
    obtain ⟨sound, compl⟩ := ih
    rw [List.foldl_append, List.foldl_cons, List.foldl_nil, lookup_foldl_insert, lookup_insert_ite]
    grind [names]

end ByName

namespace ExecutionPlan

variable {plan : ExecutionPlan} {index position : Nat} {step other : ExecutionStep} {name : String}

def DistinctNames (plan : ExecutionPlan) : Prop :=
  plan.steps.Pairwise fun step other => step.names.Disjoint other.names

theorem DistinctNames.index_unique (dist : plan.DistinctNames)
    (isStep : plan.steps[index]? = some step) (isOther : plan.steps[position]? = some other)
    (inStep : name ∈ step.names) (inOther : name ∈ other.names) :
    index = position := by
  obtain ⟨inside, rfl⟩ := List.getElem?_eq_some_iff.mp isStep
  obtain ⟨isInside, rfl⟩ := List.getElem?_eq_some_iff.mp isOther
  have apart := List.pairwise_iff_getElem.mp dist
  rcases lt_trichotomy index position with before | same | after
  · exact absurd inOther (fun inOther => apart index position inside isInside before inStep inOther)
  · exact same
  · exact absurd inStep (fun inStep => apart position index isInside inside after inOther inStep)

theorem exists_of_lookup_byName (found : plan.byName.lookup name = some index) :
    ∃ step, plan.steps[index]? = some step ∧ name ∈ step.names := by
  obtain ⟨step, mem, isName⟩ := (lookup_named plan.steps.zipIdx name).1 index found
  exact ⟨step, List.mem_zipIdx_iff_getElem?.mp mem, isName⟩

theorem DistinctNames.lookup_byName (dist : plan.DistinctNames) :
    plan.byName.lookup name = some index ↔ ∃ step, plan.steps[index]? = some step ∧
    name ∈ step.names := by
  constructor
  · exact exists_of_lookup_byName
  · rintro ⟨step, isStep, isName⟩
    obtain ⟨position, found⟩ := Option.isSome_iff_exists.mp
      ((lookup_named plan.steps.zipIdx name).2 step index (List.mem_zipIdx_iff_getElem?.mpr isStep)
        isName)
    obtain ⟨other, isOther, inOther⟩ := exists_of_lookup_byName found
    rw [dist.index_unique isStep isOther isName inOther]
    exact found

theorem dependencyIndices_lt (isDep : some position ∈ plan.dependencyIndices index) :
    position < plan.steps.length := by grind [exists_of_lookup_byName, dependencyIndices]

end ExecutionPlan

section Grouping

variable (plan : ExecutionPlan)

theorem getD_pushLevel (levels : List (List Nat)) (index level position : Nat) :
    ((pushLevel levels index level)[position]?).getD [] =
      (levels[position]?).getD [] ++ if position = level then [index] else [] := by
  grind [pushLevel]

theorem getD_groupStepsByLevel (position : Nat) :
    (plan.groupStepsByLevel[position]?).getD [] =
      (List.range plan.steps.length).filter fun index => plan.levelOf index = position := by
  suffices prefixes : ∀ indices : List Nat,
      ((indices.foldl (fun levels index => pushLevel levels index (plan.levelOf index))
        [])[position]?).getD
        [] = indices.filter fun index => plan.levelOf index = position from prefixes _
  intro indices
  induction indices using List.reverseRecOn with
  | nil => rfl
  | append_singleton indices index ih => grind [getD_pushLevel]

theorem mem_groupStepsByLevel {position index} :
    index ∈ (plan.groupStepsByLevel[position]?).getD [] ↔
      index < plan.steps.length ∧ plan.levelOf index = position := by
  rw [getD_groupStepsByLevel]
  simp

theorem mem_flatten_iff {levels : List (List Nat)} {index} :
    index ∈ levels.flatten ↔ ∃ position : Nat, index ∈ (levels[position]?).getD [] := by
  grind [List.mem_flatten, List.mem_iff_getElem?]

theorem nodup_groupStepsByLevel : plan.groupStepsByLevel.flatten.Nodup := by
  refine List.nodup_flatten.mpr ⟨fun level mem => ?_, ?_⟩
  · grind [List.mem_iff_getElem?, getD_groupStepsByLevel, List.nodup_range]
  · refine List.pairwise_iff_getElem.mpr fun left right isLeft isRight order index inLeft
      inRight => ?_
    have atLeft : index ∈ (plan.groupStepsByLevel[left]?).getD [] := by
      simpa [List.getElem?_eq_getElem isLeft] using inLeft
    have atRight : index ∈ (plan.groupStepsByLevel[right]?).getD [] := by
      simpa [List.getElem?_eq_getElem isRight] using inRight
    rw [mem_groupStepsByLevel] at atLeft atRight
    omega

end Grouping

namespace ExecutionPlan

section Levels

variable (plan : ExecutionPlan)

def InLevel (name : String) (level : Nat) : Prop :=
  ∃ index ∈ (plan.groupStepsByLevel[level]?).getD [], ∃ step, plan.steps[index]? = some step ∧
    name ∈ step.eventNames

def searched (roots : Nat) : Levels.Search :=
  (List.range roots).foldl (Levels.visit plan.dependencyIndices plan.steps.length) ⟨fun _ => none,
    fun _ => false, []⟩

def DependsOn (step other : ExecutionStep) : Prop :=
  other ∈ plan.steps ∧ ∃ dep ∈ step.planDependencies, dep ∈ other.names

def Acyclic : Prop :=
  ∀ step ∈ plan.steps, ¬Relation.TransGen plan.DependsOn step step

inductive DependencyChain : ExecutionStep → Nat → Prop where
  | stop (step : ExecutionStep) : DependencyChain step 0
  | unknown {step : ExecutionStep} {dep : String} (isDep : dep ∈ step.planDependencies)
      (absent : ∀ other ∈ plan.steps, dep ∉ other.names) : DependencyChain step 1
  | link {step other : ExecutionStep} {length : Nat} (depends : plan.DependsOn step other)
      (rest : DependencyChain other length) : DependencyChain step (length + 1)

variable {plan} {index position : Nat} {step other : ExecutionStep}

theorem stack_searched {roots} (bound : roots ≤ plan.steps.length) :
    (plan.searched roots).stack = [] :=
  Levels.stack_foldl_visit (fun _ _ _ isDep => dependencyIndices_lt isDep)
    (fun _ mem => lt_of_lt_of_le (List.mem_range.mp mem) bound) rfl

theorem perm_groupStepsByLevel :
    plan.groupStepsByLevel.flatten.Perm (List.range plan.steps.length) := by
  refine (List.perm_ext_iff_of_nodup (nodup_groupStepsByLevel plan) List.nodup_range).mpr
    fun index => ?_
  rw [mem_flatten_iff, List.mem_range]
  constructor
  · rintro ⟨level, mem⟩
    exact ((mem_groupStepsByLevel plan).mp mem).1
  · intro inside
    exact ⟨plan.levelOf index, (mem_groupStepsByLevel plan).mpr ⟨inside, rfl⟩⟩

theorem mem_names_of_eventNames {name} (inStep : name ∈ step.eventNames) : name ∈ step.names := by
  grind [names, eventNames]

namespace DistinctNames

theorem inLevel_iff (dist : plan.DistinctNames) {level name}
    (isStep : plan.steps[index]? = some step) (inStep : name ∈ step.eventNames) :
    plan.InLevel name level ↔ plan.levelOf index = level := by
  constructor
  · rintro ⟨position, inLevel, other, isOther, inOther⟩
    rw [dist.index_unique isStep isOther (mem_names_of_eventNames inStep)
      (mem_names_of_eventNames inOther)]
    exact ((mem_groupStepsByLevel plan).mp inLevel).2
  · grind [mem_groupStepsByLevel, InLevel]

theorem mem_dependencyIndices (dist : plan.DistinctNames)
    (isStep : plan.steps[index]? = some step) :
    some position ∈ plan.dependencyIndices index ↔
      ∃ other, plan.steps[position]? = some other ∧ plan.DependsOn step other := by
  grind [lookup_byName, dependencyIndices, DependsOn]

theorem none_mem_dependencyIndices (dist : plan.DistinctNames)
    (isStep : plan.steps[index]? = some step) :
    none ∈ plan.dependencyIndices index ↔
      ∃ dep ∈ step.planDependencies, ∀ other ∈ plan.steps, dep ∉ other.names := by
  simp only [dependencyIndices, isStep, Option.elim_some, List.mem_map]
  refine exists_congr fun dep => and_congr_right fun _ => ?_
  constructor
  · intro unknown other isOther inOther
    obtain ⟨position, found⟩ := List.mem_iff_getElem?.mp isOther
    rw [dist.lookup_byName.mpr ⟨other, found, inOther⟩] at unknown
    cases unknown
  · intro absent
    refine Option.eq_none_iff_forall_ne_some.mpr fun position found => ?_
    grind [exists_of_lookup_byName]

theorem chain_iff (dist : plan.DistinctNames) {length} (isStep : plan.steps[index]? = some step) :
    Levels.Chain plan.dependencyIndices index length ↔ plan.DependencyChain step length := by
  constructor
  · intro chain
    induction chain generalizing step with
    | stop => exact .stop step
    | unknown isDep =>
      obtain ⟨dep, isDep, absent⟩ := (dist.none_mem_dependencyIndices isStep).mp isDep
      exact .unknown isDep absent
    | link isDep _ ih =>
      obtain ⟨other, isOther, depends⟩ := (dist.mem_dependencyIndices isStep).mp isDep
      exact .link depends (ih isOther)
  · intro chain
    induction chain generalizing index with
    | stop => exact .stop index
    | unknown isDep absent =>
      exact .unknown ((dist.none_mem_dependencyIndices isStep).mpr ⟨_, isDep, absent⟩)
    | link depends _ ih =>
      obtain ⟨position, isOther⟩ := List.mem_iff_getElem?.mp depends.1
      exact .link ((dist.mem_dependencyIndices isStep).mpr ⟨_, isOther, depends⟩) (ih isOther)

theorem transGen_of_indices (dist : plan.DistinctNames) (isStep : plan.steps[index]? = some step)
    (path : Relation.TransGen (fun index position => some position ∈ plan.dependencyIndices index)
      index position) :
    ∃ other, plan.steps[position]? = some other ∧ Relation.TransGen plan.DependsOn step other := by
  induction path with
  | single isDep => grind [mem_dependencyIndices]
  | tail _ isDep ih => grind [mem_dependencyIndices]

theorem exists_rank (dist : plan.DistinctNames) (acyclic : plan.Acyclic) :
    ∃ rank : Nat → Nat, ∀ index position, some position ∈ plan.dependencyIndices index →
      rank position < rank index := by
  refine Levels.exists_rank (fun _ _ isDep => dependencyIndices_lt isDep) fun index cycle => ?_
  obtain ⟨next, isDep, -⟩ := Relation.TransGen.head'_iff.mp cycle
  cases isStep : plan.steps[index]? with
  | none => simp [dependencyIndices, isStep] at isDep
  | some step => grind [transGen_of_indices, Acyclic]

theorem isGreatest_levelOf (dist : plan.DistinctNames) (acyclic : plan.Acyclic)
    (isStep : plan.steps[index]? = some step) :
    IsGreatest {length | plan.DependencyChain step length} (plan.levelOf index) := by
  obtain ⟨rank, ranked⟩ := dist.exists_rank acyclic
  have greatest := Levels.isGreatest_levelOf ranked (fun _ _ _ isDep => dependencyIndices_lt isDep)
    (List.getElem?_eq_some_iff.mp isStep).1
  simp only [dist.chain_iff isStep] at greatest
  exact greatest

theorem levelOf_lt (dist : plan.DistinctNames) (acyclic : plan.Acyclic)
    (isStep : plan.steps[index]? = some step) (isOther : plan.steps[position]? = some other)
    (depends : plan.DependsOn step other) :
    plan.levelOf position < plan.levelOf index :=
  (dist.isGreatest_levelOf acyclic isStep).2
    (.link depends (dist.isGreatest_levelOf acyclic isOther).1)

end DistinctNames

section Reordered

variable {reordered : ExecutionPlan}

theorem DistinctNames.perm (dist : plan.DistinctNames) (perm : plan.steps.Perm reordered.steps) :
    reordered.DistinctNames :=
  (perm.pairwise_iff fun apart => apart.symm).mp dist

theorem dependsOn_of_perm (perm : plan.steps.Perm reordered.steps) : plan.DependsOn =
    reordered.DependsOn := by
  funext step other
  rw [DependsOn, DependsOn, perm.mem_iff]

theorem DependencyChain.perm {length} (perm : plan.steps.Perm reordered.steps)
    (chain : plan.DependencyChain step length) : reordered.DependencyChain step length := by
  induction chain with
  | stop step => exact .stop step
  | unknown isDep absent =>
    exact .unknown isDep fun other isOther => absent other (perm.mem_iff.mpr isOther)
  | link depends _ ih => exact .link (dependsOn_of_perm perm ▸ depends) ih

theorem Acyclic.perm (acyclic : plan.Acyclic) (perm : plan.steps.Perm reordered.steps) :
    reordered.Acyclic := by
  intro step isStep
  rw [← dependsOn_of_perm perm]
  exact acyclic step (perm.mem_iff.mpr isStep)

theorem levelOf_eq_of_perm (dist : plan.DistinctNames) (acyclic : plan.Acyclic)
    (perm : plan.steps.Perm reordered.steps) (isStep : plan.steps[index]? = some step)
    (isSame : reordered.steps[position]? = some step) : plan.levelOf index =
    reordered.levelOf position := by
  have greatest := dist.isGreatest_levelOf acyclic isStep
  have other := (dist.perm perm).isGreatest_levelOf (acyclic.perm perm) isSame
  exact le_antisymm (other.2 (greatest.1.perm perm)) (greatest.2 (other.1.perm perm.symm))

end Reordered

end Levels

end ExecutionPlan

end Rivers
