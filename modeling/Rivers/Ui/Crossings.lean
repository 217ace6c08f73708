import Mathlib.Algebra.BigOperators.Group.List.Basic
import Rivers.Lib.Inversions
import Rivers.Lib.Positions

/-! The crossing count of `dag/layout.rs`. -/

namespace Rivers

open Inversions

/-- A layered ordering: each layer lists its nodes once, and `fwd` the targets of each node. -/
structure LayeredOrdering where
  buckets : List (List Nat)
  layers : List Nat
  fwd : Nat → List Nat
  maxLayer : Nat
  layered : buckets.length = maxLayer + 1
  distinct : ∀ bucket ∈ buckets, bucket.Nodup
  placed : ∀ (level : Nat) (bucket : List Nat), buckets[level]? = some bucket →
    ∀ node : Nat, node ∈ bucket ↔ layers[node]? = some level

namespace LayeredOrdering

variable (ordering : LayeredOrdering)

def bucket (level : Nat) : List Nat :=
  ordering.buckets[level]?.getD []

def fillPosMap (bucket : List Nat) (pos : Nat → Nat) : Nat → Nat :=
  Positions.fill (fun _ index => index) bucket pos

/-- The targets of a node in the next layer, as `fwd` lists them. -/
def targets (level node : Nat) : List Nat :=
  (ordering.fwd node).filter fun target => ordering.layers[target]? = some (level + 1)

def mergeSortInner (items : List Nat) : Nat :=
  (mergeSort items.length items).1

def countLevel (state : Nat × (Nat → Nat) × (Nat → Nat)) (level : Nat) :
    Nat × (Nat → Nat) × (Nat → Nat) :=
  let posA := fillPosMap (ordering.bucket level) state.2.1
  let posB := fillPosMap (ordering.bucket (level + 1)) state.2.2
  let edges := (ordering.bucket level).flatMap fun node =>
    (ordering.targets level node).map fun target => (posA node, posB target)
  if edges.length ≤ 1 then (state.1, posA, posB)
  else (state.1 + mergeSortInner (edges.map (·.2)), posA, posB)

def countTotalCrossings : Nat :=
  ((List.range ordering.maxLayer).foldl ordering.countLevel (0, fun _ => 0, fun _ => 0)).1

def edges (level : Nat) : List (Nat × Nat) :=
  (ordering.bucket level).flatMap fun node => (ordering.targets level node).map fun target =>
    (node, target)

/-- The pairs of edges behind `level` whose sources are in one strict order and whose targets in the
other. -/
def crossings (level : Nat) : Nat :=
  ((ordering.edges level).map fun edge => (ordering.edges level).countP fun other =>
    (ordering.bucket level).idxOf edge.1 < (ordering.bucket level).idxOf other.1 ∧
      (ordering.bucket (level + 1)).idxOf other.2 < (ordering.bucket (level + 1)).idxOf edge.2).sum

/-- No node lists a target of the next layer behind one that is placed after it. -/
def ListsInOrder (level : Nat) : Prop :=
  ∀ node ∈ ordering.bucket level,
    ((ordering.targets level node).map (ordering.bucket (level + 1)).idxOf).Pairwise (· ≤ ·)

variable {ordering}

theorem nodup_bucket (level : Nat) : (ordering.bucket level).Nodup := by
  unfold bucket
  cases found : ordering.buckets[level]? with
  | none => exact List.nodup_nil
  | some nodes => exact ordering.distinct nodes (List.mem_of_getElem? found)

theorem mem_bucket_of_target {level node target} (below : level < ordering.maxLayer)
    (member : target ∈ ordering.targets level node) : target ∈ ordering.bucket (level + 1) := by
  have isNext := of_decide_eq_true (List.mem_filter.mp member).2
  have inside : level + 1 < ordering.buckets.length := by
    rw [ordering.layered]
    omega
  rw [bucket, List.getElem?_eq_getElem inside, Option.getD_some]
  exact (ordering.placed _ _ (List.getElem?_eq_getElem inside) target).mpr isNext

/-- The pairs of a target of an earlier node and one of a later node that is placed before it. -/
def pairCount (placedTargets : Nat → List Nat) : List Nat → Nat
  | [] => 0
  | node :: rest =>
      cross (placedTargets node) (rest.flatMap placedTargets) + pairCount placedTargets rest

theorem inversions_flatMap (placedTargets : Nat → List Nat) (nodes : List Nat) :
    inversions (nodes.flatMap placedTargets) =
      (nodes.map fun node => inversions (placedTargets node)).sum + pairCount
        placedTargets nodes := by
  induction nodes with
  | nil => rfl
  | cons node rest ih =>
    rw [List.flatMap_cons, inversions_append, ih, List.map_cons, List.sum_cons, pairCount]
    omega

section Pairs

variable {sourcePos targetPos : Nat → Nat} {next : Nat → List Nat}

/-- The edges of `nodes`, and how often one of `others` crosses an edge from a later source. -/
def edgesOf (next : Nat → List Nat) (nodes : List Nat) : List (Nat × Nat) :=
  nodes.flatMap fun node => (next node).map fun target => (node, target)

def crossedBy (sourcePos targetPos : Nat → Nat) (edges others : List (Nat × Nat)) : Nat :=
  (edges.map fun edge => others.countP fun other =>
    sourcePos edge.1 < sourcePos other.1 ∧ targetPos other.2 < targetPos edge.2).sum

theorem crossedBy_append_left (edges more others : List (Nat × Nat)) :
    crossedBy sourcePos targetPos (edges ++ more) others =
      crossedBy sourcePos targetPos edges others + crossedBy sourcePos targetPos more others := by
  simp [crossedBy]

theorem crossedBy_append_right (edges others more : List (Nat × Nat)) :
    crossedBy sourcePos targetPos edges (others ++ more) =
      crossedBy sourcePos targetPos edges others + crossedBy sourcePos targetPos edges more := by
  simp only [crossedBy, List.countP_append, List.sum_map_add]

theorem crossedBy_eq_zero {edges others}
    (notLater : ∀ edge ∈ edges, ∀ other ∈ others, sourcePos other.1 ≤ sourcePos edge.1) :
    crossedBy sourcePos targetPos edges others = 0 := by
  refine List.sum_eq_zero fun count member => ?_
  obtain ⟨edge, isEdge, rfl⟩ := List.mem_map.mp member
  refine List.countP_eq_zero.mpr fun other isOther crosses => ?_
  have := notLater edge isEdge other isOther
  have := (of_decide_eq_true crosses).1
  omega

theorem crossedBy_eq_cross {node others}
    (later : ∀ other ∈ others, sourcePos node < sourcePos other) :
    crossedBy sourcePos targetPos ((next node).map fun target => (node, target))
      (edgesOf next others) =
      cross ((next node).map targetPos)
        (others.flatMap fun other => (next other).map targetPos) := by
  unfold crossedBy cross
  rw [List.map_map, List.map_map]
  refine congrArg List.sum (List.map_congr_left fun target _ => ?_)
  have flat : (others.flatMap fun other => (next other).map targetPos) =
      (edgesOf next others).map fun edge => targetPos edge.2 := by
    simp [edgesOf, List.map_flatMap, Function.comp_def]
  rw [Function.comp_apply, Function.comp_apply, flat, List.countP_map]
  refine List.countP_congr fun edge isEdge => ?_
  obtain ⟨other, isOther, isTarget⟩ := List.mem_flatMap.mp isEdge
  obtain ⟨target, -, rfl⟩ := List.mem_map.mp isTarget
  simp [later other isOther]

theorem crossedBy_edgesOf {nodes}
    (ordered : nodes.Pairwise fun left right => sourcePos left < sourcePos right) :
    crossedBy sourcePos targetPos (edgesOf next nodes) (edgesOf next nodes) =
      pairCount (fun node => (next node).map targetPos) nodes := by
  have source {nodes : List Nat} {edge : Nat × Nat} (member : edge ∈ edgesOf next nodes) : edge.1 ∈
    nodes := by
    obtain ⟨node, isNode, isTarget⟩ := List.mem_flatMap.mp member
    obtain ⟨target, -, rfl⟩ := List.mem_map.mp isTarget
    exact isNode
  induction nodes with
  | nil => rfl
  | cons node rest ih =>
    obtain ⟨later, restOrdered⟩ := List.pairwise_cons.mp ordered
    have own (edge) (member : edge ∈ (next node).map fun target => (node, target)) : edge.1 =
      node := by
      obtain ⟨target, -, rfl⟩ := List.mem_map.mp member
      rfl
    have split : edgesOf next (node :: rest) = (next node).map (fun target => (node, target)) ++
        edgesOf next rest :=
      List.flatMap_cons ..
    rw [split, crossedBy_append_left, crossedBy_append_right, crossedBy_append_right,
      ih restOrdered, crossedBy_eq_cross later, crossedBy_eq_zero, crossedBy_eq_zero, pairCount]
    · omega
    · intro edge isEdge other isOther
      rw [own other isOther]
      exact (later _ (source isEdge)).le
    · intro edge isEdge other isOther
      rw [own edge isEdge, own other isOther]

end Pairs

theorem idxOf_increasing {bucket : List Nat} (distinct : bucket.Nodup) :
    bucket.Pairwise fun left right => bucket.idxOf left < bucket.idxOf right := by
  refine List.pairwise_iff_getElem.mpr fun i j isI isJ before => ?_
  rwa [distinct.idxOf_getElem, distinct.idxOf_getElem]

/-- One layer adds its crossings and the inversions in the targets of single nodes. -/
theorem countLevel_fst {level : Nat} (below : level < ordering.maxLayer)
    (state : Nat × (Nat → Nat) × (Nat → Nat)) :
    (ordering.countLevel state level).1 = state.1 + ordering.crossings level +
      ((ordering.bucket level).map fun node =>
        inversions ((ordering.targets level node).map
          (ordering.bucket (level + 1)).idxOf)).sum := by
  have targetPos (node target) (member : target ∈ ordering.targets level node) :
      fillPosMap (ordering.bucket (level + 1)) state.2.2 target =
        (ordering.bucket (level + 1)).idxOf target :=
    Positions.fill_eq (nodup_bucket _) (mem_bucket_of_target below member) _
  have listed : ((ordering.bucket level).flatMap fun node => (ordering.targets level node).map
      fun target =>
      (fillPosMap (ordering.bucket level) state.2.1 node,
        fillPosMap (ordering.bucket (level + 1)) state.2.2 target)).map (·.2) =
      (ordering.bucket level).flatMap fun node =>
        (ordering.targets level node).map (ordering.bucket (level + 1)).idxOf := by
    rw [List.map_flatMap]
    refine List.flatMap_congr fun node _ => ?_
    rw [List.map_map]
    exact List.map_congr_left fun target member => targetPos node target member
  have pairs : ordering.crossings level = pairCount
      (fun node => (ordering.targets level node).map (ordering.bucket (level + 1)).idxOf)
        (ordering.bucket level) :=
    (crossedBy_edgesOf (idxOf_increasing (nodup_bucket level)) :
      crossedBy _ (ordering.bucket (level + 1)).idxOf (edgesOf (ordering.targets level) _) _ = _)
  have counted := (inversions_flatMap
    (fun node => (ordering.targets level node).map (ordering.bucket (level + 1)).idxOf)
      (ordering.bucket level))
  rw [← listed, ← pairs] at counted
  unfold countLevel
  dsimp only
  split
  · rename_i short
    have none := inversions_of_length_le_one ((List.length_map (·.2)).trans_le short)
    omega
  · rw [mergeSortInner, (mergeSort_spec (Nat.le_succ _)).1]
    omega

/-- Pairs of edges from one node are counted too, by the order in which the node lists its targets.
-/
theorem countTotalCrossings_eq :
    ordering.countTotalCrossings = ((List.range ordering.maxLayer).map ordering.crossings).sum +
      ((List.range ordering.maxLayer).map fun level => ((ordering.bucket level).map fun node =>
        inversions ((ordering.targets level node).map (ordering.bucket (level + 1)).idxOf)).sum).sum
          := by
  have loop (levels : List Nat) (below : ∀ level ∈ levels, level < ordering.maxLayer)
      (state : Nat × (Nat → Nat) × (Nat → Nat)) : (levels.foldl ordering.countLevel state).1 =
        state.1 + (levels.map ordering.crossings).sum +
          (levels.map fun level => ((ordering.bucket level).map fun node =>
          inversions ((ordering.targets level node).map
            (ordering.bucket (level + 1)).idxOf)).sum).sum := by
    induction levels generalizing state with
    | nil => rfl
    | cons level rest ih =>
      rw [List.foldl_cons, ih (fun other member => below other (.tail _ member)),
        countLevel_fst (below level (.head _)), List.map_cons, List.sum_cons, List.map_cons,
        List.sum_cons]
      omega
  rw [countTotalCrossings, loop _ (fun level member => List.mem_range.mp member)]
  omega

theorem countTotalCrossings_exact_iff (ordering : LayeredOrdering) :
    ordering.countTotalCrossings = ((List.range ordering.maxLayer).map ordering.crossings).sum ↔
      ∀ level < ordering.maxLayer, ordering.ListsInOrder level := by
  rw [countTotalCrossings_eq, Nat.add_eq_left, List.sum_eq_zero_iff_forall_eq_nat]
  simp only [List.forall_mem_map, List.mem_range, List.sum_eq_zero_iff_forall_eq_nat,
    inversions_eq_zero_iff, ListsInOrder]

/-- One node with two targets, listed against their placement. -/
def fork : LayeredOrdering where
  buckets := [[0], [1, 2]]
  layers := [0, 1, 1]
  fwd node := if node = 0 then [2, 1] else []
  maxLayer := 1
  layered := rfl
  distinct := by decide
  placed := by
    intro level bucket found node
    match level, node with
    | 0, 0 | 0, 1 | 0, 2 | 0, _ + 3 | 1, 0 | 1, 1 | 1, 2 | 1, _ + 3 =>
      obtain rfl := Option.some.inj found
      simp

theorem fork_counts_one : fork.countTotalCrossings = 1 ∧
    ((List.range fork.maxLayer).map fork.crossings).sum = 0 :=
  ⟨countTotalCrossings_eq.trans (by decide), by decide⟩

end LayeredOrdering

end Rivers
