import Rivers.Execution.Subgraph

/-! The sort of `from_subgraph` by level and composition order. -/

namespace Rivers

open FiniteMap

section Composition

variable (compositionOrder : HashMap String Nat) (levels : HashMap String Nat)

def composedAt (step : ExecutionStep) : Nat :=
  (compositionOrder.lookup step.name).getD (2 ^ 64 - 1)

def stepLevel (step : ExecutionStep) : Nat :=
  (levels.lookup step.name).getD 0

def SameGraph (left right : ExecutionStep) : Prop :=
  (graphOf left.name).isSome ∧ graphOf left.name = graphOf right.name

instance (left right : ExecutionStep) : Decidable (SameGraph left right) :=
  inferInstanceAs (Decidable (_ ∧ _))

structure TotalPreorderOn (steps : List ExecutionStep) : Prop where
  total : ∀ left ∈ steps, ∀ right ∈ steps,
    compositionLe compositionOrder levels left right ∨
    compositionLe compositionOrder levels right left
  trans : ∀ left ∈ steps, ∀ middle ∈ steps, ∀ right ∈ steps, compositionLe compositionOrder levels
    left middle →
    compositionLe compositionOrder levels middle right →
    compositionLe compositionOrder levels left right

def InComposedOrder (steps : List ExecutionStep) : Prop :=
  steps.Pairwise fun earlier later => stepLevel levels earlier = stepLevel levels later →
  SameGraph earlier later →
    composedAt compositionOrder earlier ≤ composedAt compositionOrder later

/-- Beside two tasks of a graph with different places in the composition, does their level hold
tasks of this graph only? -/
def ComposedApart (steps : List ExecutionStep) : Prop :=
  ∀ first ∈ steps, ∀ second ∈ steps, stepLevel levels first = stepLevel levels second →
    SameGraph first second →
    composedAt compositionOrder first < composedAt compositionOrder second →
      ∀ other ∈ steps, stepLevel levels other = stepLevel levels first → SameGraph first other

variable {compositionOrder levels} {left right middle : ExecutionStep} {steps : List ExecutionStep}

theorem SameGraph.symm (same : SameGraph left right) : SameGraph right left :=
  ⟨same.2 ▸ same.1, same.2.symm⟩

theorem SameGraph.trans (first : SameGraph left middle) (second : SameGraph middle right) :
    SameGraph left right :=
  ⟨first.1, first.2.trans second.2⟩

theorem compositionLe_iff :
    compositionLe compositionOrder levels left right = true ↔
      stepLevel levels left < stepLevel levels right ∨ stepLevel levels left =
        stepLevel levels right ∧
        (SameGraph left right → composedAt compositionOrder left ≤ composedAt compositionOrder
          right) := by
  grind [compositionLe, stepLevel, SameGraph, composedAt]

theorem compositionLe_of_foreign (level : stepLevel levels left = stepLevel levels right)
    (foreign : ¬SameGraph left right) : compositionLe compositionOrder levels left right :=
  compositionLe_iff.mpr (.inr ⟨level, fun same => absurd same foreign⟩)

theorem compositionLe_total (left right : ExecutionStep) :
    compositionLe compositionOrder levels left right ∨
    compositionLe compositionOrder levels right left := by
  grind [compositionLe]

theorem compositionLe_trans (apart : ComposedApart compositionOrder levels steps)
    (isLeft : left ∈ steps) (isMiddle : middle ∈ steps) (isRight : right ∈ steps)
    (first : compositionLe compositionOrder levels left middle)
    (second : compositionLe compositionOrder levels middle right) :
    compositionLe compositionOrder levels left right := by
  grind [compositionLe, stepLevel, SameGraph, composedAt, ComposedApart]

theorem totalPreorderOn_iff :
    TotalPreorderOn compositionOrder levels steps ↔
    ComposedApart compositionOrder levels steps := by
  constructor
  · intro preorder first isFirst second isSecond level same order other isOther otherLevel
    by_contra foreign
    have before := @compositionLe_of_foreign compositionOrder levels second other (level.symm.trans otherLevel.symm)
      fun sameOther => foreign (same.trans sameOther)
    have after := @compositionLe_of_foreign compositionOrder levels other first otherLevel
      fun sameOther => foreign sameOther.symm
    have swapped := preorder.trans second isSecond other isOther first isFirst before after
    rcases compositionLe_iff.mp swapped with below | ⟨-, composed⟩
    · omega
    · exact absurd (composed same.symm) (not_le.mpr order)
  · intro apart
    exact ⟨fun left _ right _ => compositionLe_total left right, fun _ isLeft _ isMiddle _ isRight =>
      compositionLe_trans apart isLeft isMiddle isRight⟩

theorem inComposedOrder_sortByComposition
    (apart : ComposedApart compositionOrder (stepLevels steps) steps) :
    InComposedOrder compositionOrder (stepLevels steps)
      (sortByComposition compositionOrder steps) := by
  have preorder := totalPreorderOn_iff.mpr apart
  unfold sortByComposition
  split
  · rename_i empty
    refine List.pairwise_of_forall fun earlier later _ _ => ?_
    simp [composedAt, empty]
  · refine (StableSort.pairwise_sortBy preorder.total preorder.trans).imp fun sorted level same => ?_
    rcases compositionLe_iff.mp sorted with below | ⟨-, composed⟩
    · omega
    · exact composed same

end Composition

/-- The comparison sorts by composition exactly when no level mixes in a step outside the graph. -/
theorem sorts_by_composition_iff (compositionOrder : HashMap String Nat)
    (steps : List ExecutionStep) :
    (TotalPreorderOn compositionOrder (stepLevels steps) steps ∧
      InComposedOrder compositionOrder (stepLevels steps)
        (sortByComposition compositionOrder steps)) ↔
      ComposedApart compositionOrder (stepLevels steps) steps :=
  ⟨fun sorted => totalPreorderOn_iff.mp sorted.1,
    fun apart => ⟨totalPreorderOn_iff.mpr apart, inComposedOrder_sortByComposition apart⟩⟩

def composedGraph : AssetGraph where
  nodes := [("g/t2", []), ("a", ["g/t2"]), ("c", []), ("g/t1", []), ("g", ["g/t1", "g/t2", "a"])]
  nodup := by decide
  ordered := by decide

/-- With `c` between them in their level the tasks tie with it both ways, and `t2` stays before
`t1`. -/
theorem composed_order_lost :
    let compositionOrder : HashMap String Nat := ((Finmap.singleton "g/t1" 0).insert "g/t2"
      1).insert "a" 2
    let plan := fromSubgraph composedGraph {"g/t2", "a", "c", "g/t1", "g"} ∅ compositionOrder
    let task (name : String) : ExecutionStep := { name, planDependencies := [], graphDependencies := [] }
    let le := compositionLe compositionOrder (stepLevels plan.steps)
    plan.steps.map ExecutionStep.name = ["g/t2", "c", "g/t1", "a", "g"] ∧
      plan.groupStepsByLevel = [[0, 1, 2], [3], [4]] ∧
      plan.steps.take 3 = [task "g/t2", task "c", task "g/t1"] ∧
      le (task "g/t2") (task "c") ∧ le (task "c") (task "g/t1") ∧
      ¬le (task "g/t2") (task "g/t1") := by
  refine ⟨?_, ?_, ?_, ?_, ?_, ?_⟩ <;> decide +kernel

end Rivers
