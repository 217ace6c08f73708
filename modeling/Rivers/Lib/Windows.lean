import Mathlib.Data.List.Basic

/-! Limited reads of an ordered list. -/

namespace Windows

variable {α : Type*} {accepts : α → Bool} {items : List α} {count room : Nat}

theorem filter_take_isPrefix (accepts : α → Bool) (items : List α) (limit : Nat) :
    (items.take limit).filter accepts <+: items.filter accepts := by grind

theorem take_filter_take (rejected : (items.filter fun item => !accepts item).length ≤ room) :
    ((items.take (room + count)).filter accepts).take count =
      (items.filter accepts).take count := by
  rcases Nat.le_total items.length (room + count) with short | long
  · rw [List.take_of_length_le short]
  · obtain ⟨rest, isRest⟩ := filter_take_isPrefix accepts items (room + count)
    have enough : count ≤ ((items.take (room + count)).filter accepts).length := by
      grind [List.length_eq_length_filter_add, List.take_sublist]
    rw [← isRest, List.take_append_of_le_length enough]

variable {key : α → Int} (sorted : items.Pairwise fun first second => key first ≤ key second)
include sorted

theorem mem_take_of_lt {item early : α} (isEarlier : early ∈ items)
    (isItem : item ∈ items.take count)
    (less : key early < key item) : early ∈ items.take count := by grind [List.take_append_drop]

theorem head_le {first item : α} (isFirst : items.head? = some first) (isItem : item ∈ items) :
    key first ≤ key item := by
  cases items with
  | nil => cases isItem
  | cons head rest => grind [List.rel_of_pairwise_cons]

end Windows
