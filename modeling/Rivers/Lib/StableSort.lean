import Mathlib.Data.List.DropRight
import Mathlib.Data.List.Pairwise

/-! Insertion sort from the left. -/

namespace StableSort

variable {α : Type*} (le : α → α → Bool)

def insertShiftLeft (sorted : List α) (value : α) : List α :=
  sorted.rdropWhile (fun held => !le held value) ++ value :: sorted.rtakeWhile
    (fun held => !le held value)

def sortBy (values : List α) : List α :=
  values.foldl (insertShiftLeft le) []

variable {le}

theorem perm_insertShiftLeft (sorted : List α) (value : α) :
    (insertShiftLeft le sorted value).Perm (value :: sorted) := by
  refine List.perm_middle.trans (.cons _ ?_)
  rw [List.rdropWhile_append_rtakeWhile]

theorem perm_foldl_insertShiftLeft (vals sorted : List α) :
    (vals.foldl (insertShiftLeft le) sorted).Perm (vals ++ sorted) := by
  induction vals generalizing sorted with
  | nil => exact .refl _
  | cons value vals ih =>
    rw [List.foldl_cons]
    refine (ih _).trans (((perm_insertShiftLeft sorted value).append_left vals).trans ?_)
    exact List.perm_middle

theorem perm_sortBy (vals : List α) : (sortBy le vals).Perm vals := by
  have perm := @perm_foldl_insertShiftLeft _ le vals []
  rwa [List.append_nil] at perm

section Sorted

variable {ground : List α} (total : ∀ left ∈ ground, ∀ right ∈ ground, le left right ∨
  le right left)
  (trans : ∀ left ∈ ground, ∀ middle ∈ ground, ∀ right ∈ ground, le left middle → le middle right →
    le left right)

include total trans

theorem pairwise_insertShiftLeft {sorted : List α} {value : α}
    (inside : ∀ held ∈ sorted, held ∈ ground) (isInside : value ∈ ground)
    (isSorted : sorted.Pairwise fun left right => le left right) :
    (insertShiftLeft le sorted value).Pairwise fun left right => le left right := by
  have kept : ∀ held ∈ sorted.rdropWhile fun held => !le held value, le held value := by
    intro held mem
    have some := List.ne_nil_of_mem mem
    have last : le ((sorted.rdropWhile fun held => !le held value).getLast some) value := by
      simpa using List.rdropWhile_last_not (fun held => !le held value) sorted some
    have within := ( List.rdropWhile_prefix (fun held => !le held value) sorted).subset
    have pairs := isSorted.sublist ( List.rdropWhile_prefix (fun held => !le held value)
      sorted).sublist
    rw [← List.dropLast_append_getLast some, List.pairwise_append] at pairs
    rw [← List.dropLast_append_getLast some, List.mem_append, List.mem_singleton] at mem
    rcases mem with earlier | rfl
    · exact trans held (inside held (within (List.dropLast_subset _ earlier))) _
        (inside _ (within (List.getLast_mem some))) value isInside
        (pairs.2.2 held earlier _ (List.mem_singleton_self _)) last
    · exact last
  have shifted : ∀ held ∈ sorted.rtakeWhile fun held => !le held value, le value held := by
    intro held mem
    have greater : le held value = false := by simpa using List.mem_rtakeWhile_imp mem
    have within := inside held ((List.rtakeWhile_suffix _ _).subset mem)
    exact (total value isInside held within).resolve_right (by simp [greater])
  grind [List.rdropWhile_append_rtakeWhile, List.pairwise_cons, insertShiftLeft]

theorem pairwise_foldl_insertShiftLeft {vals sorted : List α}
    (held : ∀ value ∈ sorted, value ∈ ground) (inside : ∀ value ∈ vals, value ∈ ground)
    (isSorted : sorted.Pairwise fun left right => le left right) :
    (vals.foldl (insertShiftLeft le) sorted).Pairwise fun left right => le left right := by
  induction vals generalizing sorted with
  | nil => exact isSorted
  | cons value vals ih =>
    have isValue := inside value List.mem_cons_self
    refine ih (fun other mem => ?_) (fun other mem => inside other (List.mem_cons_of_mem _ mem))
      (pairwise_insertShiftLeft total trans held isValue isSorted)
    rcases List.mem_cons.mp ((perm_insertShiftLeft sorted value).mem_iff.mp mem) with rfl | old
    · exact isValue
    · exact held other old

end Sorted

theorem pairwise_sortBy {vals : List α} (total : ∀ left ∈ vals, ∀ right ∈ vals, le left right ∨
    le right left)
    (trans : ∀ left ∈ vals, ∀ middle ∈ vals, ∀ right ∈ vals, le left middle → le middle right →
      le left right) :
    (sortBy le vals).Pairwise fun left right => le left right :=
  pairwise_foldl_insertShiftLeft total trans (by simp) (fun _ mem => mem) List.Pairwise.nil

end StableSort
