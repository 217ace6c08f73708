import Mathlib.Data.List.Sort
import Mathlib.Order.Basic

/-! Counting along an increasing list. -/

namespace Ladder

variable {α : Type} [LinearOrder α] {points : List α} {point other : α}

def above (points : List α) (point : α) : List α :=
  points.filter (point < ·)

def below (points : List α) (point : α) : List α :=
  (points.filter (· < point)).reverse

section Split

variable {lower upper : List α} (increasing : (lower ++ point :: upper).Pairwise (· < ·))

include increasing

theorem lt_of_split : (∀ item ∈ lower, item < point) ∧ ∀ item ∈ upper, point < item := by
  obtain ⟨-, upperSorted, across⟩ := List.pairwise_append.mp increasing
  exact ⟨fun item inLower => across item inLower point (List.mem_cons_self ..),
    (List.pairwise_cons.mp upperSorted).1⟩

theorem below_append : below (lower ++ point :: upper) point = lower.reverse := by
  obtain ⟨lowerBelow, upperAbove⟩ := lt_of_split increasing
  have dropped : upper.filter (· < point) = [] :=
    List.filter_eq_nil_iff.mpr fun item inUpper => by simpa using (upperAbove item inUpper).le
  have kept : lower.filter (· < point) = lower :=
    List.filter_eq_self.mpr fun item inLower => by simpa using lowerBelow item inLower
  simp [below, dropped, kept]

theorem above_append : above (lower ++ point :: upper) point = upper := by
  obtain ⟨lowerBelow, upperAbove⟩ := lt_of_split increasing
  have dropped : lower.filter (point < ·) = [] :=
    List.filter_eq_nil_iff.mpr fun item inLower => by simpa using (lowerBelow item inLower).le
  have kept : upper.filter (point < ·) = upper :=
    List.filter_eq_self.mpr fun item inUpper => by simpa using upperAbove item inUpper
  simp [above, dropped, kept]

end Split

variable (increasing : points.Pairwise (· < ·)) (member : point ∈ points) {count : Nat}

include increasing member

theorem below_of_above (found : (above points point)[count]? = some other) :
    (below points other)[count]? = some point := by
  obtain ⟨lower, upper, rfl⟩ := List.append_of_mem member
  rw [above_append increasing] at found
  obtain ⟨bound, rfl⟩ := List.getElem?_eq_some_iff.mp found
  have cut : lower ++ point :: upper =
      (lower ++ point :: upper.take count) ++ upper[count] :: upper.drop (count + 1) := by simp_all
  rw [cut] at increasing ⊢
  rw [below_append increasing]
  simp [Nat.min_eq_left bound.le]

theorem above_of_below (found : (below points point)[count]? = some other) :
    (above points other)[count]? = some point := by
  obtain ⟨lower, upper, rfl⟩ := List.append_of_mem member
  rw [below_append increasing] at found
  obtain ⟨bound, atCount⟩ := List.getElem?_eq_some_iff.mp found
  have shorter : count < lower.length := by simpa using bound
  rw [List.getElem_reverse] at atCount
  have position : lower.length - 1 - count < lower.length := by omega
  have cut : lower ++ point :: upper = lower.take (lower.length - 1 - count) ++
      other :: (lower.drop (lower.length - 1 - count + 1) ++ point :: upper) := by
    rw [← atCount, ← List.cons_append, ← List.drop_eq_getElem_cons position, ← List.append_assoc,
      List.take_append_drop]
  rw [cut] at increasing ⊢
  rw [above_append increasing]
  have length : (lower.drop (lower.length - 1 - count + 1)).length = count := by
    rw [List.length_drop]
    omega
  rw [List.getElem?_append_right (by omega), length]
  simp

end Ladder
