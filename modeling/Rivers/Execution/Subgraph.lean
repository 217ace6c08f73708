import Rivers.Execution.PlanCore

/-! The steps `from_subgraph` makes of a selection. -/

namespace Rivers

open FiniteMap ExecutionStep

theorem orderedAfter_append {seen pre after node}
    (ordered : orderedAfter seen (pre ++ node :: after) = true) :
    ∀ dep ∈ node.2, dep ∈ seen ++ pre.map Prod.fst := by
  induction pre generalizing seen with
  | nil =>
    rw [List.nil_append, orderedAfter, Bool.and_eq_true] at ordered
    simpa using ordered.1
  | cons first pre ih =>
    simp only [List.cons_append, orderedAfter, Bool.and_eq_true] at ordered
    simpa using ih ordered.2

theorem AssetGraph.dep_before (graph : AssetGraph) {pre after node}
    (split : graph.nodes = pre ++ node :: after) :
    ∀ dep ∈ node.2, dep ∈ pre.map Prod.fst := by
  have ordered : orderedAfter [] (pre ++ node :: after) = true := split ▸ graph.ordered
  exact orderedAfter_append ordered

section Owner

variable (nodes : List (String × List String)) (assetNames : Finset String)
  (groups : HashMap String String)

def selectedIn (key other : String) : Bool :=
  other ∈ assetNames ∧ groups.lookup other = some key

def owner (name : String) : String :=
  match groups.lookup name with
  | none => name
  | some key => ((nodes.map Prod.fst).find? (selectedIn assetNames groups key)).getD name

def StepDepends (dependent dependency : String) : Prop :=
  ∃ node ∈ nodes, node.1 ∈ assetNames ∧ owner nodes assetNames groups node.1 = dependent ∧
    ∃ dep ∈ node.2, dep ∈ assetNames ∧ owner nodes assetNames groups dep = dependency ∧
      dependency ≠ dependent

variable {nodes assetNames groups} {name key : String}

@[simp] theorem selectedIn_iff {other} :
    selectedIn assetNames groups key other = true ↔ other ∈ assetNames ∧
    groups.lookup other = some key :=
  decide_eq_true_iff

theorem owner_of_ungrouped (ungrouped : groups.lookup name = none) :
    owner nodes assetNames groups name = name := by
  simp [owner, ungrouped]

theorem find?_selectedIn {pre : List String} (mem : name ∈ pre) (sel : name ∈ assetNames)
    (grouped : groups.lookup name = some key) : ∃ first,
    pre.find? (selectedIn assetNames groups key) = some first :=
  Option.isSome_iff_exists.mp (List.find?_isSome.mpr ⟨name, mem, selectedIn_iff.mpr ⟨sel, grouped⟩⟩)

theorem owner_spec (groups : HashMap String String) {pre after : List String}
    (split : nodes.map Prod.fst = pre ++ after) (mem : name ∈ pre) (sel : name ∈ assetNames) :
    owner nodes assetNames groups name ∈ pre ∧ owner nodes assetNames groups name ∈ assetNames ∧
      groups.lookup (owner nodes assetNames groups name) = groups.lookup name := by
  cases isKey : groups.lookup name with
  | none =>
    rw [owner_of_ungrouped isKey]
    exact ⟨mem, sel, isKey⟩
  | some key =>
    obtain ⟨first, isFirst⟩ := find?_selectedIn mem sel isKey
    have isOwner : owner nodes assetNames groups name = first := by
      simp [owner, isKey, split, List.find?_append, isFirst]
    rw [isOwner]
    exact ⟨List.mem_of_find?_eq_some isFirst, selectedIn_iff.mp (List.find?_some isFirst)⟩

theorem owner_eq_of_group {other : String} (mem : name ∈ nodes.map Prod.fst)
    (sel : name ∈ assetNames) (isKey : groups.lookup name = some key)
    (sameKey : groups.lookup other = some key) :
    owner nodes assetNames groups name = owner nodes assetNames groups other := by
  obtain ⟨first, isFirst⟩ := find?_selectedIn mem sel isKey
  simp [owner, isKey, sameKey, isFirst]

theorem owner_of_first {pre after} (split : nodes.map Prod.fst = pre ++ name :: after)
    (sel : name ∈ assetNames) (isKey : groups.lookup name = some key)
    (first : ∀ other ∈ pre, other ∈ assetNames → groups.lookup other ≠ some key) :
    owner nodes assetNames groups name = name := by
  have unselected : pre.find? (selectedIn assetNames groups key) = none :=
    List.find?_eq_none.mpr fun other mem isSelected =>
      first other mem (selectedIn_iff.mp isSelected).1 (selectedIn_iff.mp isSelected).2
  simp [owner, isKey, split, List.find?_append, unselected, sel]

theorem owner_owner (groups : HashMap String String) (mem : name ∈ nodes.map Prod.fst)
    (sel : name ∈ assetNames) :
    owner nodes assetNames groups (owner nodes assetNames groups name) =
      owner nodes assetNames groups name := by
  obtain ⟨-, -, sameKey⟩ := owner_spec groups (List.append_nil _).symm mem sel
  cases isKey : groups.lookup name with
  | none => rw [owner_of_ungrouped isKey, owner_of_ungrouped isKey]
  | some key => exact (owner_eq_of_group mem sel isKey (sameKey.trans isKey)).symm

end Owner

namespace ExecutionStep

variable {step : ExecutionStep} {name dep : String}

theorem mem_union {held deps} :
    dep ∈ step.union held deps ↔ dep ∈ held ∨ dep ∈ deps ∧ dep ≠ step.name ∧
    dep ∉ step.outputs := by
  unfold union
  induction deps generalizing held with
  | nil => simp
  | cons first deps ih =>
    rw [List.foldl_cons, ih, List.mem_cons]
    by_cases isHeld : dep ∈ held
    · split <;> simp [isHeld]
    · by_cases same : dep = first
      · subst same
        split <;> simp_all
      · split <;> simp [same]

@[simp] theorem name_addOutput {planDependencies neighbors} :
    (step.addOutput name planDependencies neighbors).name = step.name := rfl

theorem eventNames_addOutput {planDependencies neighbors} :
    (step.addOutput name planDependencies neighbors).eventNames = step.outputs ++ [name] := by
  simp [eventNames, addOutput]

theorem eventNames_of_outputs (some : step.outputs ≠ []) : step.eventNames = step.outputs := by
  simp [eventNames, some]

end ExecutionStep

theorem mem_names_append {seen : List (String × List String)} {node name} :
    name ∈ (seen ++ [node]).map Prod.fst ↔ name ∈ seen.map Prod.fst ∨ name = node.1 := by
  rw [List.map_append, List.mem_append, List.map_cons, List.map_nil, List.mem_singleton]

section Builder

variable (nodes : List (String × List String)) (assetNames : Finset String)
  (groups : HashMap String String)

/-- What a step stands for after the nodes `seen`: the selected assets its name owns, and the other
steps they depend on. -/
structure StepFor (seen : List (String × List String)) (step : ExecutionStep) : Prop where
  assets : ∀ name, name ∈ step.eventNames ↔
    name ∈ seen.map Prod.fst ∧ name ∈ assetNames ∧ owner nodes assetNames groups name = step.name
  nodup : step.eventNames.Nodup
  depends : ∀ dependency, dependency ∈ step.planDependencies ↔
    ∃ node ∈ seen, node.1 ∈ assetNames ∧ owner nodes assetNames groups node.1 = step.name ∧
      ∃ dep ∈ node.2, dep ∈ assetNames ∧ owner nodes assetNames groups dep = dependency ∧
        dependency ≠ step.name
  named : step.name ∈ step.eventNames
  single : step.outputs = [] ↔ groups.lookup step.name = none

structure Built (seen : List (String × List String)) (builder : PlanBuilder) : Prop where
  rewritten : ∀ name ∈ seen.map Prod.fst, name ∈ assetNames →
    (builder.outputToStep.lookup name).getD name = owner nodes assetNames groups name
  indexed : ∀ key index, builder.groupStepIdx.lookup key = some index →
    ∃ step, builder.steps[index]? = some step ∧ groups.lookup step.name = some key
  known : ∀ name ∈ seen.map Prod.fst, name ∈ assetNames → ∀ key, groups.lookup name = some key →
    (builder.groupStepIdx.lookup key).isSome
  fresh : ∀ name, name ∉ seen.map Prod.fst → builder.outputToStep.lookup name = none
  names : (builder.steps.map ExecutionStep.name).Nodup
  covered : ∀ name ∈ seen.map Prod.fst, name ∈ assetNames →
    owner nodes assetNames groups name ∈ builder.steps.map ExecutionStep.name
  steps : ∀ step ∈ builder.steps, StepFor nodes assetNames groups seen step

variable {nodes assetNames groups} {seen : List (String × List String)}
  {node : String × List String} {step : ExecutionStep} {builder : PlanBuilder}

namespace StepFor

theorem name_spec (isFor : StepFor nodes assetNames groups seen step) :
    step.name ∈ seen.map Prod.fst ∧ step.name ∈ assetNames ∧
    owner nodes assetNames groups step.name = step.name :=
  (isFor.assets step.name).mp isFor.named

theorem skip (isFor : StepFor nodes assetNames groups seen step)
    (foreign : node.1 ∈ assetNames → owner nodes assetNames groups node.1 ≠ step.name) :
    StepFor nodes assetNames groups (seen ++ [node]) step := by
  refine ⟨fun name => ?_, isFor.nodup, fun dependency => ?_, isFor.named, isFor.single⟩
  · rw [isFor.assets, mem_names_append]
    refine and_congr_left fun ⟨sel, isOwner⟩ => (or_iff_left ?_).symm
    rintro rfl
    exact foreign sel isOwner
  · rw [isFor.depends]
    simp only [List.mem_append, List.mem_singleton, or_and_right, exists_or, exists_eq_left]
    exact (or_iff_left fun ⟨sel, isOwner, _⟩ => foreign sel isOwner).symm

variable {after : List (String × List String)} (split : nodes = seen ++ node :: after)
  (nodup : (nodes.map Prod.fst).Nodup)

include split

theorem split_names : nodes.map Prod.fst = seen.map Prod.fst ++ node.1 :: after.map Prod.fst := by
  rw [split, List.map_append, List.map_cons]

include nodup

theorem notMem_seen : node.1 ∉ seen.map Prod.fst := by
  rw [split_names split, List.nodup_append] at nodup
  exact fun mem => nodup.2.2 node.1 mem node.1 List.mem_cons_self rfl

theorem create {outputs planDependencies} (sel : node.1 ∈ assetNames)
    (isOwner : owner nodes assetNames groups node.1 = node.1)
    (events : ({ name := node.1, outputs, planDependencies, graphDependencies := node.2 } :
      ExecutionStep).eventNames =
      [node.1]) (single : outputs = [] ↔ groups.lookup node.1 = none)
    (inside : ∀ dep ∈ node.2, dep ∈ seen.map Prod.fst)
    (isDeps : ∀ dependency, dependency ∈ planDependencies ↔
      ∃ dep ∈ node.2, dep ∈ assetNames ∧ owner nodes assetNames groups dep = dependency) :
    StepFor nodes assetNames groups (seen ++ [node])
      { name := node.1, outputs, planDependencies, graphDependencies := node.2 } := by
  have absent := notMem_seen split nodup
  have foreign (name : String) (mem : name ∈ seen.map Prod.fst) (isSelected : name ∈ assetNames) :
      owner nodes assetNames groups name ≠ node.1 := fun same =>
    absent (same ▸ (owner_spec groups (split_names split) mem isSelected).1)
  refine ⟨fun name => ?_, by rw [events]; exact List.nodup_singleton _, fun dependency => ?_,
    by rw [events]; exact List.mem_singleton_self _, single⟩
  · rw [events, List.mem_singleton, mem_names_append]
    constructor
    · rintro rfl
      exact ⟨.inr rfl, sel, isOwner⟩
    · rintro ⟨old | rfl, isSelected, same⟩
      · exact absurd same (foreign name old isSelected)
      · rfl
  · simp only [isDeps, List.mem_append, List.mem_singleton, or_and_right, exists_or,
      exists_eq_left]
    constructor
    · rintro ⟨dep, isDep, depSelected, rfl⟩
      exact .inr ⟨sel, isOwner, dep, isDep, depSelected, rfl,
        foreign dep (inside dep isDep) depSelected⟩
    · rintro (⟨other, old, isSelected, same, _⟩ | ⟨-, -, dep, isDep, depSelected, same, -⟩)
      · exact absurd same (foreign other.1 (List.mem_map_of_mem old) isSelected)
      · exact ⟨dep, isDep, depSelected, same⟩

theorem addOutput {planDependencies} (isFor : StepFor nodes assetNames groups seen step)
    (sel : node.1 ∈ assetNames) (isOwner : owner nodes assetNames groups node.1 = step.name)
    (grouped : groups.lookup step.name ≠ none) (inside : ∀ dep ∈ node.2, dep ∈ seen.map Prod.fst)
    (isDeps : ∀ dependency, dependency ∈ planDependencies ↔
      ∃ dep ∈ node.2, dep ∈ assetNames ∧ owner nodes assetNames groups dep = dependency) :
    StepFor nodes assetNames groups (seen ++ [node])
      (step.addOutput node.1 planDependencies node.2) := by
  have absent := notMem_seen split nodup
  have isSome : step.outputs ≠ [] := fun empty => grouped (isFor.single.mp empty)
  have same := ExecutionStep.eventNames_of_outputs isSome
  have outputs (name : String) : name ∈ step.outputs ++ [node.1] ↔
      name ∈ (seen ++ [node]).map Prod.fst ∧
      name ∈ assetNames ∧ owner nodes assetNames groups name = step.name := by
    rw [← same, List.mem_append, List.mem_singleton, isFor.assets, mem_names_append, or_and_right]
    refine or_congr_right ⟨?_, And.left⟩
    rintro rfl
    exact ⟨rfl, sel, isOwner⟩
  refine ⟨fun name => ?_, ?_, fun dependency => ?_, ?_, ?_⟩
  · rw [ExecutionStep.eventNames_addOutput]
    exact outputs name
  · rw [ExecutionStep.eventNames_addOutput, ← same, List.nodup_append_comm, List.singleton_append]
    exact List.nodup_cons.mpr ⟨fun old => absent ((isFor.assets _).mp old).1, isFor.nodup⟩
  · have isStep : (step.addOutput node.1 planDependencies node.2).planDependencies =
        ExecutionStep.union { step with outputs := step.outputs ++ [node.1] } step.planDependencies
          planDependencies :=
      rfl
    rw [isStep, ExecutionStep.mem_union, isFor.depends, isDeps]
    have apart (dep : String) (isDep : dep ∈ node.2) (depSelected : dep ∈ assetNames)
        (different : owner nodes assetNames groups dep ≠ step.name) :
        owner nodes assetNames groups dep ∉ step.outputs ++ [node.1] := by
      rw [outputs, owner_owner groups ?_ depSelected]
      · exact fun both => different both.2.2
      · rw [split_names split]
        exact List.mem_append_left _ (inside dep isDep)
    simp only [ExecutionStep.name_addOutput, List.mem_append (s := seen), List.mem_singleton,
      or_and_right, exists_or, exists_eq_left]
    refine or_congr_right ⟨?_, ?_⟩
    · rintro ⟨⟨dep, isDep, depSelected, isDependency⟩, different, -⟩
      exact ⟨sel, isOwner, dep, isDep, depSelected, isDependency, different⟩
    · rintro ⟨-, -, dep, isDep, depSelected, rfl, different⟩
      exact ⟨⟨dep, isDep, depSelected, rfl⟩, different, apart dep isDep depSelected different⟩
  · rw [ExecutionStep.eventNames_addOutput, ← same]
    exact List.mem_append_left _ isFor.named
  · simp [ExecutionStep.addOutput, grouped]

end StepFor

theorem map_name_modify {steps : List ExecutionStep} {index change}
    (sameName : ∀ step, (change step).name = step.name) :
    (steps.modify index change).map name = steps.map name := by
  refine List.ext_getElem? fun pos => ?_
  rw [List.getElem?_map, List.getElem?_map, List.getElem?_modify]
  cases steps[pos]? with
  | none => split <;> rfl
  | some step => split <;> simp [sameName]

theorem forall_mem_modify {steps : List ExecutionStep} {index change} {holds : ExecutionStep → Prop}
    (names : (steps.map name).Nodup) (found : steps[index]? = some step)
    (changed : holds (change step)) (others : ∀ other ∈ steps, other.name ≠ step.name →
      holds other) :
    ∀ other ∈ steps.modify index change, holds other := by
  intro other mem
  obtain ⟨pos, isOther⟩ := List.mem_iff_getElem?.mp mem
  rw [List.getElem?_modify] at isOther
  split at isOther
  · simp_all
  · rename_i different
    replace isOther : steps[pos]? = some other := by simp_all
    refine others other (List.mem_of_getElem? isOther) fun sameName => different ?_
    have bound : index < (steps.map name).length := by
      rw [List.length_map]
      exact (List.getElem?_eq_some_iff.mp found).1
    exact (List.getElem?_inj bound names).mp (by simp [found, isOther, sameName])

namespace Built

theorem mem_planDependencies (built : Built nodes assetNames groups seen builder)
    (inside : ∀ dep ∈ node.2, dep ∈ seen.map Prod.fst) (dependency : String) :
    dependency ∈ builder.planDependencies assetNames node.2 ↔
      ∃ dep ∈ node.2, dep ∈ assetNames ∧ owner nodes assetNames groups dep = dependency := by
  simp only [PlanBuilder.planDependencies, List.mem_dedup, List.mem_map, List.mem_filter,
    decide_eq_true_eq]
  constructor
  · rintro ⟨dep, ⟨isDep, sel⟩, rfl⟩
    exact ⟨dep, isDep, sel, (built.rewritten dep (inside dep isDep) sel).symm⟩
  · rintro ⟨dep, isDep, sel, rfl⟩
    exact ⟨dep, ⟨isDep, sel⟩, built.rewritten dep (inside dep isDep) sel⟩

variable {after : List (String × List String)}

theorem skip (built : Built nodes assetNames groups seen builder)
    (unselected : node.1 ∉ assetNames) :
    Built nodes assetNames groups (seen ++ [node]) builder := by
  have old (name : String) (mem : name ∈ (seen ++ [node]).map Prod.fst) (sel : name ∈ assetNames) :
      name ∈ seen.map Prod.fst := by
    refine (mem_names_append.mp mem).resolve_right ?_
    rintro rfl
    exact unselected sel
  exact ⟨fun name mem sel => built.rewritten name (old name mem sel) sel, built.indexed,
    fun name mem sel => built.known name (old name mem sel) sel,
    fun name absent => built.fresh name fun mem => absent (mem_names_append.mpr (.inl mem)),
    built.names, fun name mem sel => built.covered name (old name mem sel) sel,
    fun step mem => (built.steps step mem).skip fun sel => absurd sel unselected⟩

theorem names_of_new (built : Built nodes assetNames groups seen builder)
    (split : nodes = seen ++ node :: after) (nodup : (nodes.map Prod.fst).Nodup)
    (step : ExecutionStep) (mem : step ∈ builder.steps) : step.name ≠ node.1 :=
  fun same => StepFor.notMem_seen split nodup (same ▸ (built.steps step mem).name_spec.1)

theorem create (built : Built nodes assetNames groups seen builder)
    (split : nodes = seen ++ node :: after) (nodup : (nodes.map Prod.fst).Nodup)
    (inside : ∀ dep ∈ node.2, dep ∈ seen.map Prod.fst) (sel : node.1 ∈ assetNames)
    (isOwner : owner nodes assetNames groups node.1 = node.1) {outputs groupStepIdx outputToStep}
    (isOutputs : outputs = [] ∧ groups.lookup node.1 = none ∨ outputs = [node.1] ∧
      groups.lookup node.1 ≠ none)
    (rewritten : ∀ name, (outputToStep.lookup name).getD name =
      (builder.outputToStep.lookup name).getD name)
    (fresh : ∀ name ≠ node.1, outputToStep.lookup name = builder.outputToStep.lookup name)
    (indexed : ∀ key index, groupStepIdx.lookup key = some index →
      builder.groupStepIdx.lookup key = some index ∨
        groups.lookup node.1 = some key ∧ index = builder.steps.length)
    (known : ∀ key, (builder.groupStepIdx.lookup key).isSome ∨ groups.lookup node.1 = some key →
      (groupStepIdx.lookup key).isSome) :
    Built nodes assetNames groups (seen ++ [node])
      { groupStepIdx := groupStepIdx
        outputToStep := outputToStep
        steps := builder.steps ++
          [{ name := node.1
             outputs := outputs
             planDependencies := builder.planDependencies assetNames node.2
             graphDependencies := node.2 }] } := by
  have absent := StepFor.notMem_seen split nodup
  have isNew : StepFor nodes assetNames groups (seen ++ [node])
      { name := node.1, outputs, planDependencies := builder.planDependencies assetNames node.2,
        graphDependencies := node.2 } := by
    refine StepFor.create split nodup sel isOwner ?_ ?_ inside (built.mem_planDependencies inside)
    · rcases isOutputs with ⟨rfl, -⟩ | ⟨rfl, -⟩ <;> rfl
    · rcases isOutputs with ⟨rfl, ungrouped⟩ | ⟨rfl, grouped⟩ <;> simp_all
  refine ⟨fun name mem isSelected => ?_, fun key index found => ?_,
    fun name mem isSelected key isKey => ?_,
    fun name isAbsent => ?_, ?_, fun name mem isSelected => ?_, fun step mem => ?_⟩
  · rw [rewritten]
    obtain old | rfl := mem_names_append.mp mem
    · exact built.rewritten name old isSelected
    · rw [built.fresh node.1 absent, Option.getD_none, isOwner]
  · rcases indexed key index found with old | ⟨isKey, rfl⟩
    · obtain ⟨step, isStep, stepKey⟩ := built.indexed key index old
      refine ⟨step, ?_, stepKey⟩
      rw [List.getElem?_append_left (List.getElem?_eq_some_iff.mp isStep).1, isStep]
    · exact ⟨_, List.getElem?_concat_length, isKey⟩
  · refine known key ((mem_names_append.mp mem).imp (fun old => ?_) ?_)
    · exact built.known name old isSelected key isKey
    · rintro rfl
      exact isKey
  · rw [mem_names_append, not_or] at isAbsent
    rw [fresh name isAbsent.2, built.fresh name isAbsent.1]
  · rw [List.map_append, List.nodup_append_comm, List.map_singleton, List.singleton_append]
    refine List.nodup_cons.mpr ⟨fun mem => ?_, built.names⟩
    obtain ⟨step, isStep, same⟩ := List.mem_map.mp mem
    exact built.names_of_new split nodup step isStep same
  · rw [List.map_append, List.mem_append]
    obtain old | rfl := mem_names_append.mp mem
    · exact .inl (built.covered name old isSelected)
    · exact .inr (List.mem_singleton.mpr isOwner)
  · obtain old | isLast := List.mem_append.mp mem
    · refine (built.steps step old).skip fun _ => ?_
      rw [isOwner]
      exact (built.names_of_new split nodup step old).symm
    · rw [List.mem_singleton.mp isLast]
      exact isNew

theorem join (built : Built nodes assetNames groups seen builder)
    (split : nodes = seen ++ node :: after) (nodup : (nodes.map Prod.fst).Nodup)
    (inside : ∀ dep ∈ node.2, dep ∈ seen.map Prod.fst) (sel : node.1 ∈ assetNames) {key : String}
    {existing} (isKey : groups.lookup node.1 = some key)
    (found : builder.groupStepIdx.lookup key = some existing) :
    Built nodes assetNames groups (seen ++ [node])
      { builder with
        outputToStep := builder.outputToStep.insert node.1
          ((builder.steps[existing]?).elim node.1 (·.name))
        steps := builder.steps.modify existing
          (·.addOutput node.1 (builder.planDependencies assetNames node.2) node.2) } := by
  obtain ⟨step, isStep, stepKey⟩ := built.indexed key existing found
  have isFor := built.steps step (List.mem_of_getElem? isStep)
  obtain ⟨inSeen, isSelected, selfOwned⟩ := isFor.name_spec
  have inNodes : step.name ∈ nodes.map Prod.fst := by
    rw [StepFor.split_names split]
    exact List.mem_append_left _ inSeen
  have isOwner : owner nodes assetNames groups node.1 = step.name :=
    (owner_eq_of_group inNodes isSelected stepKey isKey).symm.trans selfOwned
  have names := @map_name_modify builder.steps existing
    (·.addOutput node.1 (builder.planDependencies assetNames node.2) node.2) fun _ => rfl
  rw [isStep, Option.elim_some]
  refine ⟨fun name mem nameSelected => ?_, fun other index isIndex => ?_,
    fun name mem nameSelected other isOther => ?_, fun name isAbsent => ?_,
    names.symm ▸ built.names, fun name mem nameSelected => names.symm ▸ ?_, ?_⟩
  · rw [lookup_insert_ite]
    split
    · rename_i same
      rw [same, Option.getD_some, isOwner]
    · rename_i different
      exact built.rewritten name ((mem_names_append.mp mem).resolve_right different) nameSelected
  · obtain ⟨held, isHeld, heldKey⟩ := built.indexed other index isIndex
    rw [List.getElem?_modify, isHeld]
    split
    · exact ⟨_, rfl, heldKey⟩
    · exact ⟨held, rfl, heldKey⟩
  · obtain old | rfl := mem_names_append.mp mem
    · exact built.known name old nameSelected other isOther
    · cases isKey.symm.trans isOther
      exact Option.isSome_of_eq_some found
  · rw [mem_names_append, not_or] at isAbsent
    rw [lookup_insert_ite, if_neg isAbsent.2, built.fresh name isAbsent.1]
  · obtain old | rfl := mem_names_append.mp mem
    · exact built.covered name old nameSelected
    · rw [isOwner]
      exact List.mem_map_of_mem (List.mem_of_getElem? isStep)
  · refine forall_mem_modify built.names isStep ?_ fun other mem different => ?_
    · exact isFor.addOutput split nodup sel isOwner (by simp [stepKey]) inside
        (built.mem_planDependencies inside)
    · refine (built.steps other mem).skip fun _ => ?_
      rw [isOwner]
      exact different.symm

theorem add (built : Built nodes assetNames groups seen builder)
    (split : nodes = seen ++ node :: after) (nodup : (nodes.map Prod.fst).Nodup)
    (inside : ∀ dep ∈ node.2, dep ∈ seen.map Prod.fst) :
    Built nodes assetNames groups (seen ++ [node]) (builder.add assetNames groups node) := by
  unfold PlanBuilder.add
  dsimp only
  by_cases sel : node.1 ∉ assetNames
  · rw [if_pos sel]
    exact built.skip sel
  · rw [if_neg sel]
    replace sel : node.1 ∈ assetNames := not_not.mp sel
    cases isKey : groups.lookup node.1 with
    | none =>
      exact built.create split nodup inside sel (owner_of_ungrouped isKey) (.inl ⟨rfl, isKey⟩)
        (fun _ => rfl)
        (fun _ _ => rfl) (fun _ _ found => .inl found) fun key known => known.resolve_right
          (by simp [isKey])
    | some key =>
      dsimp only
      cases found : builder.groupStepIdx.lookup key with
      | some existing => exact built.join split nodup inside sel isKey found
      | none =>
        have isOwner : owner nodes assetNames groups node.1 = node.1 := by
          refine owner_of_first (StepFor.split_names split) sel isKey ?_
          intro other mem isSelected sameKey
          simpa [found] using built.known other mem isSelected key sameKey
        refine built.create split nodup inside sel isOwner (.inr ⟨rfl, by simp [isKey]⟩)
          (fun name => ?_)
          (fun name different => ?_) (fun other index isIndex => ?_) fun other known => ?_
        · rw [lookup_insert_ite]
          split
          · rename_i same
            rw [same, built.fresh node.1 (StepFor.notMem_seen split nodup)]
            rfl
          · rfl
        · rw [lookup_insert_ite, if_neg different]
        · rw [lookup_insert_ite] at isIndex
          split at isIndex
          · rename_i same
            exact .inr ⟨same ▸ isKey, (Option.some.inj isIndex).symm⟩
          · exact .inl isIndex
        · rw [lookup_insert_ite]
          split
          · rfl
          · rename_i different
            exact known.resolve_right fun same => different (Option.some.inj (same.symm.trans isKey))

end Built

theorem built_foldl (graph : AssetGraph) (assetNames : Finset String)
    (groups : HashMap String String) :
    Built graph.nodes assetNames groups graph.nodes
      (graph.nodes.foldl (PlanBuilder.add assetNames groups) {}) := by
  suffices prefixes : ∀ seen rest, graph.nodes = seen ++ rest →
      Built graph.nodes assetNames groups seen
        (seen.foldl (PlanBuilder.add assetNames groups) {}) from
    prefixes graph.nodes [] (List.append_nil _).symm
  intro seen
  induction seen using List.reverseRecOn with
  | nil =>
    intro rest split
    exact ⟨by simp, by simp, by simp, by simp, by simp, by simp, by simp⟩
  | append_singleton seen node ih =>
    intro rest split
    have here : graph.nodes = seen ++ node :: rest := by
      rw [split, List.append_assoc, List.singleton_append]
    rw [List.foldl_append]
    exact (ih (node :: rest) here).add here graph.nodup (graph.dep_before here)

end Builder

structure PlanFor (graph : AssetGraph) (assetNames : Finset String) (groups : HashMap String String)
    (plan : ExecutionPlan) : Prop where
  names : (plan.steps.map ExecutionStep.name).Nodup
  covered : ∀ name ∈ graph.nodes.map Prod.fst, name ∈ assetNames →
    owner graph.nodes assetNames groups name ∈ plan.steps.map ExecutionStep.name
  steps : ∀ step ∈ plan.steps, StepFor graph.nodes assetNames groups graph.nodes step

theorem perm_sortByComposition (compositionOrder : HashMap String Nat)
    (steps : List ExecutionStep) :
    (sortByComposition compositionOrder steps).Perm steps := by
  unfold sortByComposition
  split
  · exact .refl steps
  · exact StableSort.perm_sortBy _

theorem planFor_fromSubgraph (graph : AssetGraph) (assetNames : Finset String)
    (groups : HashMap String String) (compositionOrder : HashMap String Nat) :
    PlanFor graph assetNames groups (fromSubgraph graph assetNames groups compositionOrder) := by
  have built := built_foldl graph assetNames groups
  have perm := perm_sortByComposition compositionOrder
    (graph.nodes.foldl (PlanBuilder.add assetNames groups) {}).steps
  exact ⟨(perm.map ExecutionStep.name).nodup_iff.mpr built.names,
    fun name mem sel => (perm.map ExecutionStep.name).mem_iff.mpr (built.covered name mem sel),
    fun step mem => built.steps step (perm.mem_iff.mp mem)⟩

namespace PlanFor

variable {graph : AssetGraph} {assetNames : Finset String} {groups : HashMap String String}
  {plan : ExecutionPlan} {step other : ExecutionStep} {name : String} {index : Nat}

theorem eq_of_name (isFor : PlanFor graph assetNames groups plan) (isStep : step ∈ plan.steps)
    (isOther : other ∈ plan.steps) (same : step.name = other.name) : step = other :=
  List.inj_on_of_nodup_map isFor.names isStep isOther same

theorem eq_of_mem_eventNames (isFor : PlanFor graph assetNames groups plan)
    (isStep : step ∈ plan.steps) (isOther : other ∈ plan.steps) (inStep : name ∈ step.eventNames)
    (inOther : name ∈ other.eventNames) :
    step = other :=
  isFor.eq_of_name isStep isOther
    ((((isFor.steps step isStep).assets name).mp inStep).2.2.symm.trans
      (((isFor.steps other isOther).assets name).mp inOther).2.2)

theorem exists_step (isFor : PlanFor graph assetNames groups plan)
    (mem : name ∈ graph.nodes.map Prod.fst) (sel : name ∈ assetNames) :
    ∃ step ∈ plan.steps, step.name = owner graph.nodes assetNames groups name ∧
      name ∈ step.eventNames := by
  obtain ⟨step, isStep, isOwner⟩ := List.mem_map.mp (isFor.covered name mem sel)
  exact ⟨step, isStep, isOwner, ((isFor.steps step isStep).assets name).mpr ⟨mem, sel, isOwner.symm⟩⟩

theorem mem_planDependencies (isFor : PlanFor graph assetNames groups plan)
    (isStep : step ∈ plan.steps) :
    name ∈ step.planDependencies ↔ StepDepends graph.nodes assetNames groups step.name name :=
  (isFor.steps step isStep).depends name

theorem exists_dependency (isFor : PlanFor graph assetNames groups plan)
    (isStep : step ∈ plan.steps)
    (mem : name ∈ step.planDependencies) : ∃ other ∈ plan.steps, other.name = name := by
  obtain ⟨node, isNode, -, -, dep, isDep, sel, isOwner, -⟩ :=
    (isFor.mem_planDependencies isStep).mp mem
  obtain ⟨pre, after, split⟩ := List.append_of_mem isNode
  have inGraph : dep ∈ graph.nodes.map Prod.fst := by
    rw [split, List.map_append]
    exact List.mem_append_left _ (graph.dep_before split dep isDep)
  obtain ⟨other, isOther, sameName, -⟩ := isFor.exists_step inGraph sel
  exact ⟨other, isOther, sameName.trans isOwner⟩

end PlanFor

end Rivers
