import Mathlib.Data.Rat.Defs

/-! The condition tree of `condition/node.rs`. -/

namespace Rivers

inductive ConditionLeaf where
  | missing
  | inProgress
  | executionFailed
  | newlyUpdated
  | newlyRequested
  | codeVersionChanged
  | cronTickPassed (cronSchedule : String) (timezone : Option String)
  | inLatestTimeWindow (lookbackDelta : Option Rat)
  | initialEvaluation
  | dataVersionChanged
  | backfillInProgress
  | lastExecutedWithTags (tagKeys : List String) (tagValues : List (String × String))
  | lastRunIncludesTarget
  | willBeRequested
  | hasRunWithTags (tagKeys : List String) (tagValues : List (String × String))
  | allRunsHaveTags (tagKeys : List String) (tagValues : List (String × String))
  deriving DecidableEq, Repr

inductive ConditionNode where
  | leaf (kind : ConditionLeaf)
  | anyDepsMatch (condition : ConditionNode) (label : Option String)
  | allDepsMatch (condition : ConditionNode) (label : Option String)
  | and (children : List ConditionNode)
  | or (children : List ConditionNode)
  | not (child : ConditionNode)
  | newlyTrue (child : ConditionNode)
  | since (trigger reset : ConditionNode)
  | sinceLastHandled (child : ConditionNode)
  | assetMatches (keys : List String) (condition : ConditionNode)
  deriving Repr

namespace ConditionNode

def children : ConditionNode → List ConditionNode
  | .leaf _ => []
  | .and children | .or children => children
  | .not child | .newlyTrue child | .sinceLastHandled child => [child]
  | .since trigger reset => [trigger, reset]
  | .anyDepsMatch condition _ | .allDepsMatch condition _ | .assetMatches _ condition => [condition]

mutual

def anyNode (pred : ConditionNode → Bool) : ConditionNode → Bool
  | .leaf kind => pred (.leaf kind)
  | .and children => pred (.and children) || anyNodeList pred children
  | .or children => pred (.or children) || anyNodeList pred children
  | .not child => pred (.not child) || anyNode pred child
  | .newlyTrue child => pred (.newlyTrue child) || anyNode pred child
  | .sinceLastHandled child => pred (.sinceLastHandled child) || anyNode pred child
  | .since trigger reset =>
      pred (.since trigger reset) || (anyNode pred trigger || anyNode pred reset)
  | .anyDepsMatch condition label => pred (.anyDepsMatch condition label) || anyNode pred condition
  | .allDepsMatch condition label => pred (.allDepsMatch condition label) || anyNode pred condition
  | .assetMatches keys condition => pred (.assetMatches keys condition) || anyNode pred condition

def anyNodeList (pred : ConditionNode → Bool) : List ConditionNode → Bool
  | [] => false
  | node :: nodes => anyNode pred node || anyNodeList pred nodes

end

theorem anyNodeList_eq_any (pred : ConditionNode → Bool) (nodes : List ConditionNode) :
    anyNodeList pred nodes = nodes.any (anyNode pred) := by
  induction nodes with
  | nil => rfl
  | cons node nodes ih => simp [anyNodeList, ih]

theorem anyNode_eq (pred : ConditionNode → Bool) (node : ConditionNode) :
    node.anyNode pred = (pred node || node.children.any (anyNode pred)) := by
  cases node <;> simp [anyNode, children, anyNodeList_eq_any]

theorem anyNode_child {pred} {node child : ConditionNode} (none : node.anyNode pred = false)
    (member : child ∈ node.children) :
    child.anyNode pred = false := by
  rw [anyNode_eq, Bool.or_eq_false_iff, List.any_eq_false] at none
  simpa using none.2 child member

theorem anyNode_self {pred} {node : ConditionNode} (none : node.anyNode pred = false) :
    pred node = false := by
  rw [anyNode_eq, Bool.or_eq_false_iff] at none
  exact none.1

def Within (node tree : ConditionNode) : Prop :=
  ∀ pred, tree.anyNode pred = false → node.anyNode pred = false

theorem Within.child {node tree child : ConditionNode} (inside : node.Within tree)
    (member : child ∈ node.children) : child.Within tree :=
  fun pred none => anyNode_child (inside pred none) member

theorem Within.anyNode {pred} {node tree : ConditionNode} (inside : node.Within tree)
    (self : pred node = true) : tree.anyNode pred = true := by
  by_contra none
  have absent := anyNode_self (inside pred (Bool.eq_false_iff.mpr none))
  rw [self] at absent
  cases absent

def isTimeBased : ConditionNode → Bool
  | .leaf (.cronTickPassed _ _) => true
  | _ => false

def isStateful : ConditionNode → Bool
  | .since _ _ | .newlyTrue _ => true
  | _ => false

def isDepAggregate : ConditionNode → Bool
  | .anyDepsMatch _ _ | .allDepsMatch _ _ | .assetMatches _ _ => true
  | _ => false

def isNewlyUpdated : ConditionNode → Bool
  | .leaf .newlyUpdated => true
  | _ => false

/-- What reads the handled marks of the last dispatch. -/
def readsHandled : ConditionNode → Bool
  | .leaf .newlyRequested | .sinceLastHandled _ => true
  | _ => false

def readsTickTags : ConditionNode → Bool
  | .leaf (.hasRunWithTags _ _) | .leaf (.allRunsHaveTags _ _) => true
  | _ => false

def hasTimeBasedConditions (node : ConditionNode) : Bool :=
  node.anyNode isTimeBased

def hasStatefulNodes (node : ConditionNode) : Bool :=
  node.anyNode isStateful

def readsMarks (node : ConditionNode) : Bool :=
  node.anyNode readsHandled

def hasDepAggregate (node : ConditionNode) : Bool :=
  node.anyNode isDepAggregate

def containsNewlyUpdated (node : ConditionNode) : Bool :=
  node.anyNode isNewlyUpdated

def usesTickTags (node : ConditionNode) : Bool :=
  node.anyNode readsTickTags

mutual

def countNodes : ConditionNode → Nat → Nat
  | .leaf _, counter => counter + 1
  | .and children, counter | .or children, counter => countNodesList children (counter + 1)
  | .not child, counter | .newlyTrue child, counter | .sinceLastHandled child, counter =>
      countNodes child (counter + 1)
  | .since trigger reset, counter => countNodes reset (countNodes trigger (counter + 1))
  | .anyDepsMatch condition _, counter | .allDepsMatch condition _, counter
  | .assetMatches _ condition, counter => countNodes condition (counter + 1)

def countNodesList : List ConditionNode → Nat → Nat
  | [], counter => counter
  | node :: nodes, counter => countNodesList nodes (countNodes node counter)

end

@[elab_as_elim, induction_eliminator]
theorem treeInduction {motive : ConditionNode → Prop} (leaf : ∀ kind, motive (.leaf kind))
    (anyDepsMatch : ∀ condition label, motive condition → motive (.anyDepsMatch condition label))
    (allDepsMatch : ∀ condition label, motive condition → motive (.allDepsMatch condition label))
    (and : ∀ children, (∀ child ∈ children, motive child) → motive (.and children))
    (or : ∀ children, (∀ child ∈ children, motive child) → motive (.or children))
    (not : ∀ child, motive child → motive (.not child))
    (newlyTrue : ∀ child, motive child → motive (.newlyTrue child))
    (since : ∀ trigger reset, motive trigger → motive reset → motive (.since trigger reset))
    (sinceLastHandled : ∀ child, motive child → motive (.sinceLastHandled child))
    (assetMatches : ∀ keys condition, motive condition → motive (.assetMatches keys condition)) :
    ∀ node, motive node := by
  intro node
  exact @ConditionNode.rec motive (fun nodes => ∀ child ∈ nodes, motive child)
    leaf anyDepsMatch allDepsMatch and or not newlyTrue since sinceLastHandled assetMatches
    (by simp) (fun head tail headHolds tailHolds => by
      intro child member
      rcases List.mem_cons.mp member with same | inTail
      · rw [same]
        exact headHolds
      · exact tailHolds child inTail) node

end ConditionNode

end Rivers
