import Mathlib.Algebra.Order.BigOperators.Group.List
import Mathlib.Algebra.Ring.Nat
import Mathlib.Data.List.Perm.Basic
import Mathlib.Data.Nat.Basic

/-! Counting the inversions of a list by merge sort. -/

namespace Inversions

def inversions : List Nat → Nat
  | [] => 0
  | first :: rest => rest.countP (· < first) + inversions rest

/-- The pairs of an item of `left` and a smaller one of `right`. -/
def cross (left right : List Nat) : Nat :=
  (left.map fun item => right.countP (· < item)).sum

def mergeCount : List Nat → List Nat → Nat × List Nat
  | [], right => (0, right)
  | left, [] => (0, left)
  | first :: left, second :: right =>
      if first ≤ second then
        let rest := mergeCount left (second :: right)
        (rest.1, first :: rest.2)
      else
        let rest := mergeCount (first :: left) right
        (rest.1 + (left.length + 1), second :: rest.2)
termination_by left right => left.length + right.length

/-- The recursion of a merge sort over `items`, with the inversions it counts and the sorted items.
-/
def mergeSort : Nat → List Nat → Nat × List Nat
  | 0, items => (0, items)
  | fuel + 1, items =>
      if items.length ≤ 1 then (0, items)
      else
        let left := mergeSort fuel (items.take (items.length / 2))
        let right := mergeSort fuel (items.drop (items.length / 2))
        let merged := mergeCount left.2 right.2
        (left.1 + right.1 + merged.1, merged.2)

variable {left right other : List Nat}

theorem inversions_append : inversions (left ++ right) =
    inversions left + inversions right + cross left right := by
  induction left with
  | nil => simp [inversions, cross]
  | cons first left ih =>
    rw [List.cons_append, inversions, inversions, ih, List.countP_append, cross, cross,
      List.map_cons, List.sum_cons]
    omega

theorem cross_perm (sameLeft : left.Perm other) {others : List Nat}
    (sameRight : right.Perm others) :
    cross left right = cross other others := by
  unfold cross
  rw [(sameLeft.map _).sum_eq]
  simp only [sameRight.countP_eq]

theorem cross_cons_right {second : Nat} : cross left (second :: right) =
    left.countP (second < ·) + cross left right := by
  induction left with
  | nil => rfl
  | cons first left ih =>
    simp only [cross, List.map_cons, List.sum_cons, List.countP_cons] at ih ⊢
    omega

theorem mergeCount_spec (sortedLeft : left.Pairwise (· ≤ ·))
    (sortedRight : right.Pairwise (· ≤ ·)) :
    (mergeCount left right).1 = cross left right ∧ (mergeCount left right).2.Perm (left ++ right) ∧
      (mergeCount left right).2.Pairwise (· ≤ ·) := by
  induction left, right using mergeCount.induct with
  | case1 right => simpa [mergeCount, cross] using sortedRight
  | case2 left => simpa [mergeCount, cross] using sortedLeft
  | case3 first left second right below ih =>
    obtain ⟨counted, same, sorted⟩ := ih sortedLeft.of_cons sortedRight
    have least (item) (member : item ∈ left ++ second :: right) : first ≤ item := by
      rcases List.mem_append.mp member with isLeft | isRight
      · exact List.rel_of_pairwise_cons sortedLeft isLeft
      · rcases List.mem_cons.mp isRight with rfl | later
        · exact below
        · exact below.trans (List.rel_of_pairwise_cons sortedRight later)
    have none : (second :: right).countP (· < first) = 0 :=
      List.countP_eq_zero.mpr fun item member => by simpa using least item (List.mem_append_right _ member)
    rw [mergeCount, if_pos below]
    refine ⟨?_, same.cons first,
      List.pairwise_cons.mpr ⟨fun item member => least item (same.subset member), sorted⟩⟩
    rw [cross, List.map_cons, List.sum_cons, none, Nat.zero_add]
    exact counted
  | case4 first left second right notBelow ih =>
    obtain ⟨counted, same, sorted⟩ := ih sortedLeft sortedRight.of_cons
    have smaller (item) (member : item ∈ first :: left) : second < item := by
      rcases List.mem_cons.mp member with rfl | later
      · omega
      · have := List.rel_of_pairwise_cons sortedLeft later
        omega
    have least (item) (member : item ∈ first :: left ++ right) : second ≤ item := by
      rcases List.mem_append.mp member with isLeft | isRight
      · exact (smaller item isLeft).le
      · exact List.rel_of_pairwise_cons sortedRight isRight
    rw [mergeCount, if_neg notBelow]
    refine ⟨?_, (same.cons second).trans List.perm_middle.symm,
      List.pairwise_cons.mpr ⟨fun item member => least item (same.subset member), sorted⟩⟩
    have all : (first :: left).countP (second < ·) = (first :: left).length :=
      List.countP_eq_length.mpr fun item member => by simpa using smaller item member
    rw [cross_cons_right, all, List.length_cons]
    dsimp only
    omega

theorem inversions_eq_zero_iff {items : List Nat} : inversions items = 0 ↔
    items.Pairwise (· ≤ ·) := by
  induction items with
  | nil => simp [inversions]
  | cons first rest ih => simp [inversions, ih, List.countP_eq_zero]

theorem inversions_of_length_le_one {items : List Nat} (atMost : items.length ≤ 1) :
    inversions items = 0 := by
  match items, atMost with
  | [], _ => rfl
  | [item], _ => rfl

theorem mergeSort_spec {fuel : Nat} {items : List Nat} (enough : items.length ≤ fuel + 1) :
    (mergeSort fuel items).1 = inversions items ∧ (mergeSort fuel items).2.Perm items ∧
      (mergeSort fuel items).2.Pairwise (· ≤ ·) := by
  have short {items : List Nat} (atMost : items.length ≤ 1) :
      0 = inversions items ∧ items.Perm items ∧ items.Pairwise (· ≤ ·) :=
    have none := inversions_of_length_le_one atMost
    ⟨none.symm, .refl _, inversions_eq_zero_iff.mp none⟩
  induction fuel generalizing items with
  | zero => exact short enough
  | succ fuel ih =>
    unfold mergeSort
    split
    · exact short ‹_›
    · have leftFits : (items.take (items.length / 2)).length ≤ fuel + 1 := by simp; omega
      have rightFits : (items.drop (items.length / 2)).length ≤ fuel + 1 := by simp; omega
      obtain ⟨leftCount, sameLeft, sortedLeft⟩ := ih leftFits
      obtain ⟨rightCount, sameRight, sortedRight⟩ := ih rightFits
      obtain ⟨counted, same, sorted⟩ := mergeCount_spec sortedLeft sortedRight
      refine ⟨?_, ?_, sorted⟩
      · dsimp only
        rw [leftCount, rightCount, counted, cross_perm sameLeft sameRight, ← inversions_append,
          List.take_append_drop]
      · refine same.trans ((sameLeft.append sameRight).trans ?_)
        rw [List.take_append_drop]

end Inversions
